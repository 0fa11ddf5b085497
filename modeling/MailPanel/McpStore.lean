import MailPanel.ScriptText
import MailPanel.IsoTime
import MailPanel.RowTable
import Mathlib.Algebra.Ring.Nat

/-
The database of the MCP service: its tables, and the repository functions that
read and write them.  Every value the service draws at random (row ids, tokens,
codes, setup passwords) is a number that no earlier draw returned; a hash is as
good as the secret it hides.  Times are milliseconds.
-/

namespace MailPanel

namespace Mcp

open RowTable

/-- The keys of the stored rows. The database makes them from random bytes; here they are drawn
from one counter, so that a new one is new. -/
abbrev Id := Nat

/-- A random secret together with its stored hash: only whether two of them are equal is ever
asked. -/
abbrev Secret := Nat

/-- Milliseconds since the epoch, as the clock of the server gives them. -/
abbrev Time := Nat

/-- The three permissions that a connection can carry and that a client can ask for. -/
inductive McpScope where
  | mailRead
  | mailSend
  | mailDelete
deriving DecidableEq, Repr

/-- The spelling of a permission in requests, tokens and rows. -/
def McpScope.text : McpScope → String
  | .mailRead => "mail.read"
  | .mailSend => "mail.send"
  | .mailDelete => "mail.delete"

/-- Every permission, in the order in which the source lists them and in which a full grant
carries them. -/
def MCP_SCOPES : List McpScope := [.mailRead, .mailSend, .mailDelete]

/-- The settings that the modelled code reads: whether the access is on, the address it is
published at, and the lifetimes and limits. -/
structure McpSettings where
  enabled : Bool
  publicBaseUrl : Option String
  setupCredentialTtlHours : Nat
  connectionExpiryDays : Option Nat
  maxConnectionsPerMailbox : Nat
  accessTokenTtlMinutes : Nat
  refreshTokenTtlDays : Nat
  sendsPerHour : Nat
  sendsPerDay : Nat
  dynamicRegistration : Bool
  metadataDocuments : Bool
deriving DecidableEq, Repr

/-- What the service thinks of a mailbox whose credential it keeps. Only `active` allows a
connection to use it, and `revoked` is meant to be for good. -/
inductive BindingState where
  | active
  | stale
  | invalid
  | mailboxMissing
  | revoked
deriving DecidableEq, Repr

/-- A mailbox that connections refer to, with the fingerprint of its account line, which tells
whether the account is still the same one. -/
structure BindingRow where
  id : Id
  mailbox : String
  fingerprint : String
  state : BindingState
  stateReason : Option String
  lastVerifiedAt : Option Time
  lastError : Option String
  revokedAt : Option Time
deriving DecidableEq, Repr

/-- The sealed mailbox password of a binding, with the key it was sealed under. -/
structure StoredCredential where
  bindingId : Id
  keyId : String
  password : String
  version : Nat
deriving DecidableEq, Repr

/-- An administrator's switch over one connection; `revoked` is for good. -/
inductive ConnectionState where
  | enabled
  | disabled
  | revoked
deriving DecidableEq, Repr

/-- One connection of a client to one mailbox, with the permissions and sender addresses it was
created with. -/
structure ConnectionRow where
  id : Id
  bindingId : Id
  mailbox : String
  label : String
  scopes : List McpScope
  senderIdentities : List String
  state : ConnectionState
  stateReason : Option String
  /-- ISO text, as the control API accepted or computed it. -/
  expiresAt : Option String
  revokedAt : Option Time
  lastAuthorizedAt : Option Time
  lastUsedAt : Option Time
deriving DecidableEq, Repr

/-- The sign-in name and setup password that an administrator hands out for a connection. A code
reserves it first, and the exchange of that code then consumes it. -/
structure EnrollmentRow where
  id : Id
  connectionId : Id
  username : Nat
  passwordHash : Secret
  issuedAt : Time
  expiresAt : Time
  consumedAt : Option Time
  reservedCodeId : Option Id
  reservedUntil : Option Time
  failedAttempts : Nat
  lockedAt : Option Time
  revokedAt : Option Time
deriving DecidableEq, Repr

/-- How a client became known: it registered itself, or its id is the address of its metadata
document. -/
inductive ClientKind where
  | dcr
  | cimd
deriving DecidableEq, Repr

/-- How a client proves who it is at the token endpoint. -/
inductive TokenEndpointAuthMethod where
  | none
  | clientSecretBasic
  | clientSecretPost
deriving DecidableEq, Repr

/-- A client application, as its registration or its metadata document describes it. Which of
the two it was decides how long the row may be used. -/
structure OAuthClientRow where
  clientId : String
  kind : ClientKind
  clientName : Option String
  redirectUris : List String
  grantTypes : List String
  tokenEndpointAuthMethod : TokenEndpointAuthMethod
  clientSecretHash : Option Secret
  metadataExpiresAt : Option Time
  createdAt : Time
deriving DecidableEq, Repr

/-- The browser transaction: what the client asked for, the sign-in that was made for it, and
whether a decision has completed it. -/
structure AuthorizationRequestRow where
  id : Id
  csrfTokenHash : Secret
  clientId : String
  redirectUri : String
  state : Option String
  codeChallenge : String
  requestedScopes : Option (List McpScope)
  resource : Option String
  connectionId : Option Id
  enrollmentId : Option Id
  authenticatedAt : Option Time
  createdAt : Time
  expiresAt : Time
  completedAt : Option Time
deriving DecidableEq, Repr

/-- A code that an approval sent back to a client, bound to the client, its redirect URI, its
challenge and the resource of the request. -/
structure AuthorizationCodeRow where
  id : Id
  codeHash : Secret
  requestId : Id
  clientId : String
  redirectUri : String
  codeChallenge : String
  scopes : List McpScope
  resource : String
  connectionId : Id
  enrollmentId : Id
  createdAt : Time
  expiresAt : Time
  redeemedAt : Option Time
  grantId : Option Id
deriving DecidableEq, Repr

/-- What an exchanged code has granted to a client. Every token is issued under one grant and
ends with it. -/
structure GrantRow where
  id : Id
  connectionId : Id
  clientId : String
  clientName : Option String
  redirectUri : String
  scopes : List McpScope
  resource : String
  createdAt : Time
  lastUsedAt : Option Time
  revokedAt : Option Time
  revokedReason : Option String
deriving DecidableEq, Repr

/-- A short-lived token that opens a connection at the resource it names, with its own
permissions. The token itself is not stored; its hash is. -/
structure AccessTokenRow where
  id : Id
  tokenHash : Secret
  grantId : Id
  connectionId : Id
  scopes : List McpScope
  resource : String
  createdAt : Time
  expiresAt : Time
  revokedAt : Option Time
deriving DecidableEq, Repr

/-- A token that is exchanged for the next pair. `parentId` is the token it replaced, so that
the rows of a grant form one family. -/
structure RefreshTokenRow where
  id : Id
  tokenHash : Secret
  grantId : Id
  parentId : Option Id
  createdAt : Time
  expiresAt : Time
  usedAt : Option Time
  revokedAt : Option Time
deriving DecidableEq, Repr

/-- One attempt to sign in, kept so that failures from one address can be counted. -/
structure LoginAttemptRow where
  ip : String
  username : Option Nat
  success : Bool
  attemptedAt : Time
deriving DecidableEq, Repr

/-- What the tables do not keep: how their rows came about. No code reads it; the claims that
speak of all of a run's grants, codes or consents count its events. -/
inductive Event where
  /-- A consent page with these permissions went to the browser. -/
  | consentShown (requestId connectionId : Id) (scopes : List McpScope)
  | authenticated (requestId enrollmentId connectionId : Id)
  | codeIssued (code : AuthorizationCodeRow)
  /-- A grant came out of the redemption of this code row with this verifier. -/
  | grantIssued (grant : GrantRow) (code : AuthorizationCodeRow) (codeVerifier : String)
  | enrollmentIssued (enrollmentId connectionId : Id)
  | enrollmentReset (enrollmentId connectionId : Id)
  | rotated (connectionId : Id)
  | connectionRevoked (connectionId : Id)
deriving DecidableEq, Repr

/-- The service's whole state between two steps: its settings and its key, the clock, the tables
of the database, and the history. -/
structure Server where
  settings : McpSettings
  vaultKeyId : Option String
  now : Time
  /-- The next number no draw has returned yet. -/
  nextId : Nat
  bindings : List BindingRow
  credentials : List StoredCredential
  connections : List ConnectionRow
  enrollments : List EnrollmentRow
  clients : List OAuthClientRow
  requests : List AuthorizationRequestRow
  codes : List AuthorizationCodeRow
  grants : List GrantRow
  accessTokens : List AccessTokenRow
  refreshTokens : List RefreshTokenRow
  loginAttempts : List LoginAttemptRow
  /-- Newest first; no code reads it. -/
  history : List Event
deriving DecidableEq, Repr

/-- What the administrator is shown about a binding: its state, or what is wrong with its stored
credential. -/
inductive McpCredentialHealth where
  | healthy
  | missing
  | stale
  | invalid
  | mailboxMissing
  | revoked
  | vaultUnavailable
deriving DecidableEq, Repr

/-- Absent fields keep their value; a present `expiresAt` may clear the expiry. -/
structure ConnectionFields where
  label : Option String
  scopes : Option (List McpScope)
  senderIdentities : Option (List String)
  expiresAt : Option (Option String)
deriving DecidableEq, Repr

namespace Server

variable (s : Server)

/-- A step of the history. Nothing in the source reads it; results about runs do. -/
def record (event : Event) : Server :=
  { s with history := event :: s.history }

/-- `seconds` from now. -/
def addSeconds (seconds : Nat) : Time := s.now + seconds * 1000

/- Bindings -/

/-- The binding of a mailbox that has not been revoked. There is at most one, by an index of the
table. -/
def findLiveByMailbox (mailbox : String) : Option BindingRow :=
  s.bindings.find? fun row => row.mailbox = mailbox ∧ row.revokedAt = none

/-- The binding with this id, whatever its state, revoked ones included. -/
def findBinding (id : Id) : Option BindingRow :=
  lookup BindingRow.id id s.bindings

/-- A new binding starts active, with no verified credential yet. -/
def createBinding {Error : Type} (mailbox fingerprint : String) :
    Except Error BindingRow × Server :=
  let row : BindingRow := ⟨s.nextId, mailbox, fingerprint, .active, none, none, none, none⟩
  (.ok row, { s with nextId := s.nextId + 1, bindings := s.bindings ++ [row] })

/-- Every change of a binding's state, from whichever state it is in. A revocation also stamps
the row, and no other change takes the stamp away. -/
def setBindingState (id : Id) (state : BindingState) (reason : Option String) : Server :=
  { s with bindings := updateWhere s.bindings (fun row => row.id = id) fun row =>
      { row with
        state := state
        stateReason := reason
        lastError := none
        revokedAt := if state = .revoked then some s.now else row.revokedAt } }

/-- The binding is active again under another fingerprint, as long as it has not been revoked. -/
def reanchor (id : Id) (fingerprint : String) : Server :=
  { s with bindings :=
      updateWhere s.bindings (fun row => row.id = id ∧ row.revokedAt = none) fun row =>
        { row with
          fingerprint := fingerprint
          state := .active
          stateReason := none
          lastError := none } }

/-- A credential check has succeeded, and an earlier error is forgotten. -/
def markVerified (id : Id) : Server :=
  { s with bindings := updateWhere s.bindings (fun row => row.id = id) fun row =>
      { row with lastVerifiedAt := some s.now, lastError := none } }

/-- A credential check has failed. The message is cut so that a server's long answer cannot fill
the row. -/
def recordError (id : Id) (message : String) : Server :=
  { s with bindings := updateWhere s.bindings (fun row => row.id = id) fun row =>
      { row with lastError := some (String.ofList (message.toList.take 300)) } }

/-- The stored mailbox password of a binding, encrypted under a key of the vault. -/
def getCredential (bindingId : Id) : Option StoredCredential :=
  lookup StoredCredential.bindingId bindingId s.credentials

/-- Insert, or replace on conflict, with the next version. The binding's state is another
table's, and stays as it is. -/
def putCredential (bindingId : Id) (keyId password : String) : Server :=
  match s.getCredential bindingId with
  | none =>
      { s with credentials := s.credentials ++ [⟨bindingId, keyId, password, 1⟩] }
  | some existing =>
      { s with credentials :=
          updateWhere s.credentials (fun row => row.bindingId = bindingId) fun _ =>
            ⟨bindingId, keyId, password, existing.version + 1⟩ }

/-- Forgets the stored password, so that nothing can use the mailbox in its name. -/
def deleteCredential (bindingId : Id) : Server :=
  { s with credentials := s.credentials.filter fun row => row.bindingId ≠ bindingId }

/-- The state of the binding comes first. An active binding is healthy only with a credential
under the vault's present key. -/
def credentialHealth (binding : BindingRow) : McpCredentialHealth :=
  match binding.state with
  | .revoked => .revoked
  | .mailboxMissing => .mailboxMissing
  | .stale => .stale
  | .invalid => .invalid
  | .active =>
      match s.getCredential binding.id with
      | none => .missing
      | some credential =>
          if s.vaultKeyId = some credential.keyId then .healthy else .vaultUnavailable

/- Connections -/

/-- The connection with this id, whatever its state. -/
def findConnection (id : Id) : Option ConnectionRow :=
  lookup ConnectionRow.id id s.connections

/-- Every connection of a mailbox, revoked ones included. -/
def listByBinding (bindingId : Id) : List ConnectionRow :=
  s.connections.filter fun row => row.bindingId = bindingId

/-- What the limit on connections of a mailbox is compared with. -/
def countNonRevokedForBinding (bindingId : Id) : Nat :=
  s.connections.countP fun row => row.bindingId = bindingId ∧ row.state ≠ .revoked

/-- The row goes to the end of its table; nothing is checked here. -/
def createConnection (row : ConnectionRow) : Server :=
  { s with connections := s.connections ++ [row] }

/-- Only the fields that the administrator has given change; the others stay as they are. -/
def updateConnection (id : Id) (fields : ConnectionFields) : Server :=
  { s with connections := updateWhere s.connections (fun row => row.id = id) fun row =>
      { row with
        label := fields.label.getD row.label
        scopes := fields.scopes.getD row.scopes
        senderIdentities := fields.senderIdentities.getD row.senderIdentities
        expiresAt := fields.expiresAt.getD row.expiresAt } }

/-- Every change of a connection's state by an administrator. A revoked connection keeps its
state for good. -/
def setConnectionState (id : Id) (state : ConnectionState) (reason : Option String) :
    Server :=
  { s with connections :=
      updateWhere s.connections (fun row => row.id = id ∧ row.state ≠ .revoked) fun row =>
        { row with
          state := state
          stateReason := reason
          revokedAt := if state = .revoked then some (row.revokedAt.getD s.now)
            else row.revokedAt } }

/-- The last time that an approval was made for the connection. -/
def touchAuthorized (id : Id) : Server :=
  { s with connections := updateWhere s.connections (fun row => row.id = id) fun row =>
      { row with lastAuthorizedAt := some s.now } }

/-- The last time that a token of the connection was accepted. -/
def touchUsed (id : Id) : Server :=
  { s with connections := updateWhere s.connections (fun row => row.id = id) fun row =>
      { row with lastUsedAt := some s.now } }

/-- Foreign keys take the enrollments, codes, grants and tokens along. -/
def deleteConnection (id : Id) : Server :=
  let gone := (s.grants.filter fun row => row.connectionId = id).map GrantRow.id
  { s with
    connections := s.connections.filter fun row => row.id ≠ id
    enrollments := s.enrollments.filter fun row => row.connectionId ≠ id
    codes := s.codes.filter fun row => row.connectionId ≠ id
    grants := s.grants.filter fun row => row.connectionId ≠ id
    accessTokens := s.accessTokens.filter fun row => row.grantId ∉ gone
    refreshTokens := s.refreshTokens.filter fun row => row.grantId ∉ gone }

/- Enrollments -/

/-- `row` comes before `best` in `ORDER BY issued_at DESC, id DESC`; `rank` is the
alphabetical order of the random ids. -/
def issuedAfter (rank : Id → Nat) (row best : EnrollmentRow) : Bool :=
  best.issuedAt < row.issuedAt ∨
    (best.issuedAt = row.issuedAt ∧ rank best.id < rank row.id)

/-- The enrollment of a connection that was issued last. Rows of one instant are ordered by
their ids, which `rank` stands for. -/
def currentEnrollment (rank : Id → Nat) (connectionId : Id) : Option EnrollmentRow :=
  (s.enrollments.filter fun row => row.connectionId = connectionId).foldl
    (fun best row => match best with
      | none => some row
      | some best => if issuedAfter rank row best then some row else some best) none

/-- Sign-in names are unique, by an index of the table. -/
def findEnrollmentByUsername (username : Nat) : Option EnrollmentRow :=
  s.enrollments.find? fun row => row.username = username

/-- The enrollment with this id, whether it is still usable or not. -/
def findEnrollmentById (id : Id) : Option EnrollmentRow :=
  lookup EnrollmentRow.id id s.enrollments

/-- No sign-in name of the connection can be used from now on. -/
def revokeEnrollments (connectionId : Id) : Server :=
  { s with
    enrollments := updateWhere s.enrollments
      (fun row => row.connectionId = connectionId ∧ row.revokedAt = none) fun row =>
        { row with revokedAt := some s.now } }

/-- The enrollments that the connection had are revoked, and the new one inserted. -/
def storeEnrollment (connectionId : Id) (username : Nat) (passwordHash : Secret)
    (expiresAt : Time) : Server :=
  { s with
    nextId := s.nextId + 1
    enrollments := (s.revokeEnrollments connectionId).enrollments ++
      [⟨s.nextId, connectionId, username, passwordHash, s.now, expiresAt, none, none, none, 0,
        none, none⟩]
    history := .enrollmentIssued s.nextId connectionId :: s.history }

/-- The foreign key refuses the row of a connection that is gone, and the transaction
undoes the revocations with it. -/
def issueEnrollment (connectionId : Id) (username : Nat) (passwordHash : Secret)
    (expiresAt : Time) : Option (Id × Server) :=
  (s.findConnection connectionId).map fun _ =>
    (s.nextId, s.storeEnrollment connectionId username passwordHash expiresAt)

/-- The same row with a new secret: it counts as issued now, nothing has consumed or reserved
it, and its failures are forgotten. -/
def resetRow (passwordHash : Secret) (expiresAt : Time) (row : EnrollmentRow) :
    EnrollmentRow :=
  { row with
    passwordHash := passwordHash
    issuedAt := s.now
    expiresAt := expiresAt
    consumedAt := none
    reservedCodeId := none
    reservedUntil := none
    failedAttempts := 0
    lockedAt := none
    revokedAt := none }

/-- The reissue of an enrollment. Only the enrollment changes: the browser transactions that its
old secret has signed in stay open. -/
def resetEnrollment (enrollmentId : Id) (passwordHash : Secret) (expiresAt : Time) :
    Server :=
  let reset := { s with
    enrollments := updateWhere s.enrollments (fun row => row.id = enrollmentId)
      (s.resetRow passwordHash expiresAt) }
  match s.findEnrollmentById enrollmentId with
  | none => reset
  | some row => reset.record (.enrollmentReset enrollmentId row.connectionId)

/-- The fifth wrong password locks the sign-in name until it is issued anew. -/
def ENROLLMENT_MAX_FAILED_ATTEMPTS : Nat := 5

/-- Counts a wrong password, and locks the enrollment once the limit is reached. An earlier lock
keeps its time. -/
def recordFailedAttempt (enrollmentId : Id) : Server :=
  { s with enrollments :=
      updateWhere s.enrollments (fun row => row.id = enrollmentId) fun row =>
        { row with
          failedAttempts := row.failedAttempts + 1
          lockedAt :=
            if row.failedAttempts + 1 ≥ ENROLLMENT_MAX_FAILED_ATTEMPTS ∧ row.lockedAt = none
            then some s.now else row.lockedAt } }

/-- The row that a code may reserve at this time: neither consumed nor revoked, and no other
code holds it. -/
def reservable (enrollmentId : Id) (now : Time) (row : EnrollmentRow) : Bool :=
  row.id = enrollmentId ∧ row.consumedAt = none ∧ row.revokedAt = none ∧
    row.lockedAt = none ∧ now < row.expiresAt ∧
    (row.reservedUntil.all fun until_ => until_ ≤ now)

/-- A conditional update, whose count of changed rows tells whether the code has got the
enrollment. -/
def reserveEnrollment (enrollmentId codeId : Id) (until_ : Time) : Bool × Server :=
  (changes s.enrollments (reservable enrollmentId s.now) = 1,
    { s with enrollments :=
        updateWhere s.enrollments (reservable enrollmentId s.now) fun row =>
          { row with reservedCodeId := some codeId, reservedUntil := some until_ } })

/-- The row that this code's redemption consumes: the code still holds it, and nothing has
consumed or revoked it. -/
def consumable (enrollmentId codeId : Id) (row : EnrollmentRow) : Bool :=
  row.id = enrollmentId ∧ row.reservedCodeId = some codeId ∧ row.consumedAt = none ∧
    row.revokedAt = none

/-- The second half of the reservation, again one conditional update whose count decides. -/
def consumeEnrollment (enrollmentId codeId : Id) : Bool × Server :=
  (changes s.enrollments (consumable enrollmentId codeId) = 1,
    { s with enrollments :=
        updateWhere s.enrollments (consumable enrollmentId codeId) fun row =>
          { row with consumedAt := some s.now, reservedUntil := none } })

/- Clients -/

/-- The client with this id, as its row stands now; a metadata document may have replaced it. -/
def findClient (clientId : String) : Option OAuthClientRow :=
  lookup OAuthClientRow.clientId clientId s.clients

/-- Insert, or on conflict update everything but kind, secret and creation time. -/
def upsertClient (client : OAuthClientRow) : Server :=
  match s.findClient client.clientId with
  | none => { s with clients := s.clients ++ [{ client with createdAt := s.now }] }
  | some _ =>
      { s with clients :=
          updateWhere s.clients (fun row => row.clientId = client.clientId) fun row =>
            { row with
              clientName := client.clientName
              redirectUris := client.redirectUris
              grantTypes := client.grantTypes
              tokenEndpointAuthMethod := client.tokenEndpointAuthMethod
              metadataExpiresAt := client.metadataExpiresAt } }

/- Authorization requests -/

/-- The row goes to the end of its table, neither signed in nor completed. -/
def createAuthorizationRequest (row : AuthorizationRequestRow) : Server :=
  { s with requests := s.requests ++ [row] }

/-- The browser transaction with this id, open or not. -/
def findAuthorizationRequest (id : Id) : Option AuthorizationRequestRow :=
  lookup AuthorizationRequestRow.id id s.requests

/-- The row of a transaction that is still open: no decision has completed it. Both updates
below ask for that. -/
def openRequest (id : Id) (row : AuthorizationRequestRow) : Bool :=
  row.id = id ∧ row.completedAt = none

/-- The sign-in of a browser transaction. A completed transaction stays as it is. -/
def markRequestAuthenticated (id connectionId enrollmentId : Id) : Server :=
  let marked := { s with
    requests := updateWhere s.requests (openRequest id) fun row =>
      { row with
        connectionId := some connectionId
        enrollmentId := some enrollmentId
        authenticatedAt := some s.now } }
  if 0 < changes s.requests (openRequest id) then
    marked.record (.authenticated id enrollmentId connectionId)
  else marked

/-- The decision about a transaction. The count of changed rows tells the first decision from a
later one. -/
def completeRequest (id : Id) : Bool × Server :=
  (changes s.requests (openRequest id) = 1,
    { s with requests := updateWhere s.requests (openRequest id) fun row =>
        { row with completedAt := some s.now } })

/- Codes -/

/-- The code is stored, and the history says so. -/
def createCode (row : AuthorizationCodeRow) : Server :=
  { s with
    codes := s.codes ++ [row]
    history := .codeIssued row :: s.history }

/-- The code whose hash was presented, redeemed or not. -/
def findCodeByHash (codeHash : Secret) : Option AuthorizationCodeRow :=
  lookup AuthorizationCodeRow.codeHash codeHash s.codes

/-- The row of a code that has not been redeemed. -/
def redeemable (id : Id) (row : AuthorizationCodeRow) : Bool :=
  row.id = id ∧ row.redeemedAt = none

/-- A code is redeemed at most once: the update is conditional, and its count of changed rows
decides. -/
def redeemCode (id : Id) : Bool × Server :=
  (changes s.codes (redeemable id) = 1,
    { s with codes := updateWhere s.codes (redeemable id) fun row =>
        { row with redeemedAt := some s.now } })

/-- Which grant a redeemed code has led to, so that a second use of the code can end that
grant. -/
def attachGrantToCode (id grantId : Id) : Server :=
  { s with codes := updateWhere s.codes (fun row => row.id = id) fun row =>
      { row with grantId := some grantId } }

/- Grants -/

/-- The grant with this id, live or revoked. -/
def findGrant (id : Id) : Option GrantRow :=
  lookup GrantRow.id id s.grants

/-- Every grant of a connection, revoked ones included. -/
def listGrants (connectionId : Id) : List GrantRow :=
  s.grants.filter fun row => row.connectionId = connectionId

/-- What the administrator is shown as the number of clients in use. -/
def countActiveGrants (connectionId : Id) : Nat :=
  s.grants.countP fun row => row.connectionId = connectionId ∧ row.revokedAt = none

/-- The row goes to the end of its table, live. -/
def createGrant (row : GrantRow) : Server :=
  { s with grants := s.grants ++ [row] }

/-- The last time that a token of the grant was used or refreshed. -/
def touchGrant (id : Id) : Server :=
  { s with grants := updateWhere s.grants (fun row => row.id = id) fun row =>
      { row with lastUsedAt := some s.now } }

/-- The grant and every token issued under it, refresh tokens and access tokens alike. Rows that
have ended already keep their time. -/
def revokeGrant (id : Id) (reason : String) : Server :=
  { s with
    grants := updateWhere s.grants (fun row => row.id = id ∧ row.revokedAt = none) fun row =>
      { row with revokedAt := some s.now, revokedReason := some reason }
    accessTokens :=
      updateWhere s.accessTokens (fun row => row.grantId = id ∧ row.revokedAt = none)
        fun row => { row with revokedAt := some s.now }
    refreshTokens :=
      updateWhere s.refreshTokens (fun row => row.grantId = id ∧ row.revokedAt = none)
        fun row => { row with revokedAt := some s.now } }

/-- One after the other, skipping those that have ended. -/
def revokeAllGrantsForConnection (connectionId : Id) (reason : String) : Server :=
  (s.listGrants connectionId).foldl
    (fun s grant => if grant.revokedAt = none then s.revokeGrant grant.id reason else s) s

/- Tokens -/

/-- The row goes to the end of its table, unrevoked. -/
def createAccessToken (row : AccessTokenRow) : Server :=
  { s with accessTokens := s.accessTokens ++ [row] }

/-- The access token whose hash was presented, whatever has become of it. -/
def findAccessTokenByHash (tokenHash : Secret) : Option AccessTokenRow :=
  lookup AccessTokenRow.tokenHash tokenHash s.accessTokens

/-- Ends one access token and leaves its grant alone. A token that was ended before keeps the
time of that. -/
def revokeAccessTokenByHash (tokenHash : Secret) : Server :=
  match s.findAccessTokenByHash tokenHash with
  | none => s
  | some token =>
      { s with
        accessTokens := updateWhere s.accessTokens
          (fun row => row.id = token.id ∧ row.revokedAt = none) fun row =>
            { row with revokedAt := some s.now } }

/-- The row goes to the end of its table, unused and unrevoked. -/
def createRefreshToken (row : RefreshTokenRow) : Server :=
  { s with refreshTokens := s.refreshTokens ++ [row] }

/-- The refresh token whose hash was presented, whatever has become of it. -/
def findRefreshTokenByHash (tokenHash : Secret) : Option RefreshTokenRow :=
  lookup RefreshTokenRow.tokenHash tokenHash s.refreshTokens

/-- The row of a refresh token that has neither been used nor been revoked. -/
def usable (id : Id) (row : RefreshTokenRow) : Bool :=
  row.id = id ∧ row.usedAt = none ∧ row.revokedAt = none

/-- A refresh token is used at most once: the update is conditional, and its count of changed
rows decides. -/
def markRefreshTokenUsed (id : Id) : Bool × Server :=
  (changes s.refreshTokens (usable id) = 1,
    { s with refreshTokens := updateWhere s.refreshTokens (usable id) fun row =>
        { row with usedAt := some s.now } })

/- Housekeeping -/

/-- Removes what expired before `horizon`: transactions, codes, tokens and sign-in attempts.
Grants and connections stay. -/
def purgeExpired (horizon : Time) : Server :=
  { s with
    requests := s.requests.filter fun row => horizon ≤ row.expiresAt
    codes := s.codes.filter fun row => horizon ≤ row.expiresAt
    accessTokens := s.accessTokens.filter fun row => horizon ≤ row.expiresAt
    refreshTokens := s.refreshTokens.filter fun row => horizon ≤ row.expiresAt
    loginAttempts := s.loginAttempts.filter fun row => horizon ≤ row.attemptedAt }

/-- An attempt from an unknown address is stored under a name of its own, which the count by
address reads as one address. -/
def recordAttempt (ip : Option String) (username : Option Nat) (success : Bool) : Server :=
  { s with loginAttempts :=
      s.loginAttempts ++ [⟨ip.getD "unknown", username, success, s.now⟩] }

end Server

end Mcp

end MailPanel
