import MailPanel.McpStore

/-
The connections service: what the postmaster does with connections, their setup
credentials and their mailboxes.  A function that waits for the mail server or
for a password hash is split where it waits.
-/

namespace MailPanel

namespace Mcp

/-- An address as the parser of URLs splits it, with the parts that the checks of redirect and
resource addresses look at. -/
structure Url where
  protocol : String
  hostname : String
  origin : String
  pathname : String
  search : String
  hash : String
  username : String
  password : String
deriving DecidableEq, Repr

/-- What the service runs on: its configuration, and the packages it calls. Of the packages
nothing is assumed here; a result that needs something of them names it. -/
structure Env where
  requireHttps : Bool
  /-- `createHash('sha256')…digest('base64url')`. -/
  sha256Base64Url : String → String
  /-- `new URL(…)`, or the error it throws. -/
  parseUrl : String → Option Url
  /-- The alphabetical order of row ids, which are random text. -/
  rank : Id → Nat

/-- The error codes of the control interface. They are what an administrator's request is
answered with, and are not those of the token endpoint. -/
inductive ErrorCode where
  | validationFailed
  | notFound
  | conflict
  | upstreamUnavailable
  | capabilityUnsupported
  | internal
deriving DecidableEq, Repr

/-- What an administrator's request is refused with. -/
structure ControlError where
  code : ErrorCode
  message : String
deriving DecidableEq, Repr

/-- What the administrator is shown. It is derived from the connection, its binding and its
grants and is not stored. -/
inductive McpConnectionStatus where
  | pending
  | active
  | disabled
  | suspended
  | expired
  | revoked
deriving DecidableEq, Repr

/-- The spelling of a status in answers and messages. It is computed anew for each of them, and
stored nowhere. -/
def McpConnectionStatus.text : McpConnectionStatus → String
  | .pending => "pending"
  | .active => "active"
  | .disabled => "disabled"
  | .suspended => "suspended"
  | .expired => "expired"
  | .revoked => "revoked"

/-- A sign-in name with its setup password, which is shown once and stored as a hash only. -/
structure McpOneTimeCredential where
  username : Nat
  setupPassword : Secret
  expiresAt : Time
deriving DecidableEq, Repr

/-- What the mail server says about a mailbox password, for both of its protocols. -/
structure VerifyResult where
  imapOk : Bool
  smtpOk : Bool
  authFailed : Bool
  message : String
deriving DecidableEq, Repr

/-- What an administrator asks for with a new connection. A mailbox password may come with it;
without one no credential is stored or verified. -/
structure CreateRequest where
  mailbox : String
  mailboxFingerprint : String
  label : String
  permissions : List McpScope
  /-- Absent takes the default of the settings. -/
  expiresInDays : Option (Option Nat)
  mailboxPassword : Option String
deriving DecidableEq, Repr

/-- An `issueEnrollment` that waits for its password hash: everything it read or
drew before. -/
structure PendingIssue where
  connectionId : Id
  setupCredentialTtlHours : Nat
  previous : Option EnrollmentRow
  newUsername : Bool
  username : Nat
  setupPassword : Secret
deriving DecidableEq, Repr

/-- What the panel's server tells the service about a mailbox that has changed. -/
inductive MailboxEvent where
  | passwordChanged
  | deleted
deriving DecidableEq, Repr

namespace Server

variable (s : Server)

/-- The text for each way in which a credential may be unusable. It is shown to the
administrator, and sent to the client as the reason of a refusal. -/
def suspensionReason : McpCredentialHealth → String
  | .missing => "No IMAP/SMTP credential is provisioned for this mailbox."
  | .stale => "The mailbox password changed; the postmaster must re-provision credentials and reissue setup credentials."
  | .invalid => "The mail server rejected the stored credential; the postmaster must re-provision it."
  | .mailboxMissing => "The mailbox was not found in docker-mailserver."
  | .revoked => "The mailbox was deleted."
  | .vaultUnavailable => "The credential vault key is missing or does not match."
  | .healthy => ""

/-- The derived status and the reason shown for it. Revocation comes first, then the end of the
lifetime, then the administrator's switch, and last what the credential and the grants allow. -/
def statusOf (connection : ConnectionRow) (binding : BindingRow) :
    McpConnectionStatus × Option String :=
  if connection.state = .revoked then
    (.revoked, some (connection.stateReason.getD "Revoked by the postmaster."))
  else if binding.state = .revoked then
    (.revoked, some "The mailbox was deleted.")
  else if connection.expiresAt.any fun expiresAt =>
      expiresAt ≤ IsoTime.toISOString s.now then
    (.expired, some "The connection lifetime has elapsed.")
  else if connection.state = .disabled then
    (.disabled, some (connection.stateReason.getD "Disabled by the postmaster."))
  else if s.credentialHealth binding ≠ .healthy then
    (.suspended, some (suspensionReason (s.credentialHealth binding)))
  else if s.countActiveGrants connection.id > 0 then
    (.active, none)
  else (.pending, some "Awaiting authorization by the mailbox owner.")

/-- The connection, or the answer that there is none. -/
def requireConnection (id : Id) : Except ControlError ConnectionRow :=
  match s.findConnection id with
  | none => .error ⟨.notFound, "No such MCP connection."⟩
  | some connection => .ok connection

/-- The binding of a connection. A connection without one would be an inconsistency of the
tables. -/
def requireBinding (connection : ConnectionRow) : Except ControlError BindingRow :=
  match s.findBinding connection.bindingId with
  | none => .error ⟨.internal, "Connection references a missing mailbox binding."⟩
  | some binding => .ok binding

/-- A revoked connection does not change any more. -/
def assertMutable (connection : ConnectionRow) : Except ControlError Unit :=
  if connection.state = .revoked then
    .error ⟨.conflict, "This connection has been revoked and can no longer be changed."⟩
  else .ok ()

/-- A connection that exists and may be changed, as the row stands now. -/
def requireMutable (id : Id) : Except ControlError ConnectionRow := do
  let connection ← s.requireConnection id
  assertMutable connection
  return connection

/- Mailbox identity -/

/-- Wipes the credential and every grant of every connection of the mailbox. -/
def invalidateBinding (binding : BindingRow) (state : BindingState) (reason : String) :
    Server :=
  (s.listByBinding binding.id).foldl
    (fun s connection => s.revokeAllGrantsForConnection connection.id reason)
    ((s.deleteCredential binding.id).setBindingState binding.id state (some reason))

/-- The mail server has turned the stored password down. The binding becomes invalid from
whatever state it is in. -/
def markCredentialRejected (binding : BindingRow) : Server :=
  s.invalidateBinding binding .invalid
    "The mail server rejected the stored mailbox credential."

/-- The live binding of a mailbox, created or re-anchored as its fingerprint says. -/
def resolveBinding (mailbox fingerprint : String) :
    Except ControlError BindingRow × Server :=
  match s.findLiveByMailbox mailbox with
  | none => s.createBinding mailbox fingerprint
  | some existing =>
      let resolved :=
        if existing.fingerprint ≠ fingerprint then
          (s.invalidateBinding existing .stale
            "The mailbox password or identity changed.").reanchor existing.id fingerprint
        else if existing.state = .mailboxMissing then
          s.setBindingState existing.id .active none
        else s
      match resolved.findBinding existing.id with
      | none => (.error ⟨.internal, "Binding vanished during resolution."⟩, resolved)
      | some refreshed => (.ok refreshed, resolved)

/-- Without a key for the vault no password can be stored. -/
def vaultMissing : ControlError :=
  ⟨.capabilityUnsupported, "The MCP credential vault key is not configured, so mailbox credentials cannot be stored. See docs/mcp-integration.md."⟩

/-- What happens to a mailbox password once the mail server has answered. -/
def finishProvision (bindingId : Id) (password : String) (result : VerifyResult) :
    Except ControlError Unit × Server :=
  if ¬ result.imapOk ∨ ¬ result.smtpOk then
    if result.authFailed then
      (.error ⟨.validationFailed, "The mail server rejected this mailbox password. Nothing was stored. If the password was changed just now, the mail server can take a few seconds to apply it — try again shortly."⟩, s)
    else (.error ⟨.upstreamUnavailable, result.message⟩, s)
  else
    match s.vaultKeyId with
    | none => (.error vaultMissing, s)
    | some keyId =>
        (.ok (), (s.putCredential bindingId keyId password).markVerified bindingId)

/- Connections -/

/-- `create` up to the binding and the connection limit, which is the part before its first
wait. -/
def beginCreate (request : CreateRequest) : Except ControlError BindingRow × Server :=
  if ¬ s.settings.enabled then
    (.error ⟨.conflict, "MCP is disabled. Enable it in the MCP settings before generating connections."⟩, s)
  else if s.settings.publicBaseUrl = none then
    (.error ⟨.conflict, "Set the public MCP endpoint URL before generating connections."⟩, s)
  else
    match s.resolveBinding request.mailbox request.mailboxFingerprint with
    | (.error error, s) => (.error error, s)
    | (.ok binding, resolved) =>
        if resolved.countNonRevokedForBinding binding.id ≥
            s.settings.maxConnectionsPerMailbox then
          (.error ⟨.conflict, "This mailbox already has the maximum of " ++
            toString s.settings.maxConnectionsPerMailbox ++
            " connections. Revoke or delete one first."⟩, resolved)
        else (.ok binding, resolved)

/-- `create` from the provisioned credential to the stored connection.
`connectionExpiryDays` and `binding` are what `create` read before. -/
def insertConnection (connectionExpiryDays : Option Nat) (request : CreateRequest)
    (binding : BindingRow) : Except ControlError ConnectionRow × Server :=
  let bindingAfter := (s.findBinding binding.id).getD binding
  if s.credentialHealth bindingAfter ≠ .healthy then
    (.error ⟨.validationFailed, "This mailbox has no usable IMAP/SMTP credential. Provide the mailbox password so it can be verified and stored."⟩, s)
  else
    let expiresInDays := request.expiresInDays.getD connectionExpiryDays
    let connection : ConnectionRow :=
      { id := s.nextId
        bindingId := binding.id
        mailbox := binding.mailbox
        label := request.label
        scopes := request.permissions
        senderIdentities := []
        state := .enabled
        stateReason := none
        expiresAt := expiresInDays.map fun days =>
          IsoTime.toISOString (s.addSeconds (days * 86400))
        revokedAt := none
        lastAuthorizedAt := none
        lastUsedAt := none }
    (.ok connection, { s.createConnection connection with nextId := s.nextId + 1 })

/- Setup credentials -/

/-- A setup password for a connection is drawn. Unless a new name is asked for, the sign-in name
stays that of the last enrollment. -/
def beginIssue (rank : Id → Nat) (connection : ConnectionRow) (newUsername : Bool) :
    PendingIssue × Server :=
  let previous := s.currentEnrollment rank connection.id
  let username := match newUsername, previous with
    | false, some previous => previous.username
    | _, _ => s.nextId
  (⟨connection.id, s.settings.setupCredentialTtlHours, previous, newUsername, username,
    s.nextId + 1⟩, { s with nextId := s.nextId + 2 })

/-- The rest of `issueEnrollment`; `none` where the insert violates its foreign key. -/
def finishIssue (pending : PendingIssue) : Option (McpOneTimeCredential × Server) :=
  let expiresAt := s.addSeconds (pending.setupCredentialTtlHours * 3600)
  let credential : McpOneTimeCredential :=
    ⟨pending.username, pending.setupPassword, expiresAt⟩
  match pending.newUsername, pending.previous with
  | false, some previous =>
      some (credential, s.resetEnrollment previous.id pending.setupPassword expiresAt)
  | _, _ =>
      (s.issueEnrollment pending.connectionId pending.username pending.setupPassword
        expiresAt).map fun issued => (credential, issued.2)

/-- `reissue` up to the hash of the new setup password. Only numbers are drawn before it, so a
request that dies there leaves the old setup password in force. -/
def beginReissue (rank : Id → Nat) (id : Id) :
    Except ControlError (PendingIssue × Server) := do
  let connection ← s.requireMutable id
  let binding ← s.requireBinding connection
  if binding.state = .revoked then
    throw ⟨.conflict, "The mailbox was deleted."⟩
  return s.beginIssue rank connection false

/-- `rotate` up to the hash: every grant goes at once, the enrollment later. -/
def beginRotate (rank : Id → Nat) (id : Id) :
    Except ControlError (PendingIssue × Server) := do
  let connection ← s.requireMutable id
  return (s.revokeAllGrantsForConnection id "credentials rotated").beginIssue rank
    connection true

/- The rest of the postmaster's operations -/

/-- Changes fields of a connection that is not revoked. -/
def update (id : Id) (fields : ConnectionFields) : Except ControlError Unit × Server :=
  match s.requireMutable id with
  | .error error => (.error error, s)
  | .ok _ => (.ok (), s.updateConnection id fields)

/-- `updateCredentials` up to the mail server; the binding as it was resolved. -/
def beginUpdateCredentials (id : Id) (fingerprint : String) :
    Except ControlError BindingRow × Server :=
  match s.requireMutable id with
  | .error error => (.error error, s)
  | .ok connection =>
      match s.resolveBinding connection.mailbox fingerprint with
      | (.error error, s) => (.error error, s)
      | (.ok binding, resolved) =>
          if binding.id ≠ connection.bindingId then
            (.error ⟨.conflict, "This connection belongs to a mailbox that no longer exists."⟩,
              resolved)
          else (.ok binding, resolved)

/-- The new password has been checked. It is stored when the mail server took it, and the
binding is active again. -/
def finishUpdateCredentials (binding : BindingRow) (password : String)
    (result : VerifyResult) : Except ControlError Unit × Server :=
  match s.finishProvision binding.id password result with
  | (.error error, s) => (.error error, s)
  | (.ok (), s) =>
      if binding.state ≠ .active then (.ok (), s.setBindingState binding.id .active none)
      else (.ok (), s)

/-- What `test` makes of the mail server's answer: a binding is verified, invalidated, or left
with an error. -/
def finishTest (binding : BindingRow) (result : VerifyResult) : Server :=
  if result.imapOk ∧ result.smtpOk then s.markVerified binding.id
  else if result.authFailed then s.markCredentialRejected binding
  else s.recordError binding.id result.message

/-- The administrator's switch, off. Grants and tokens stay, as the status alone keeps them from
being used. -/
def disable (id : Id) (reason : Option String) : Except ControlError Unit × Server :=
  match s.requireMutable id with
  | .error error => (.error error, s)
  | .ok _ => (.ok (), s.setConnectionState id .disabled reason)

/-- The administrator's switch, on again. -/
def enable (id : Id) : Except ControlError Unit × Server :=
  match s.requireMutable id with
  | .error error => (.error error, s)
  | .ok _ => (.ok (), s.setConnectionState id .enabled none)

/-- Everything of the connection ends: its grants with their tokens, its enrollments, and then
its own state. -/
def revokeConnectionInternal (connectionId : Id) (reason : String) : Server :=
  (((s.revokeAllGrantsForConnection connectionId reason).revokeEnrollments
    connectionId).setConnectionState connectionId .revoked (some reason)).record
      (.connectionRevoked connectionId)

/-- Revokes a connection. Revoking it again is no error and changes nothing. -/
def revoke (id : Id) (reason : Option String) : Except ControlError Unit × Server :=
  match s.requireConnection id with
  | .error error => (.error error, s)
  | .ok connection =>
      if connection.state = .revoked then (.ok (), s)
      else (.ok (),
        s.revokeConnectionInternal id (reason.getD "Revoked by the postmaster."))

/-- A connection is revoked before its row goes, so that nothing issued for it outlives it. -/
def delete (id : Id) : Except ControlError Unit × Server :=
  match s.requireConnection id with
  | .error error => (.error error, s)
  | .ok connection =>
      let revoked := if connection.state = .revoked then s
        else s.revokeConnectionInternal id "Deleted by the postmaster."
      (.ok (), revoked.deleteConnection id)

/-- Ends one grant, if it belongs to the connection that the request names. -/
def revokeGrantOf (connectionId grantId : Id) : Except ControlError Unit × Server :=
  match s.requireConnection connectionId with
  | .error error => (.error error, s)
  | .ok connection =>
      match s.findGrant grantId with
      | none => (.error ⟨.notFound, "No such grant on this connection."⟩, s)
      | some grant =>
          if grant.connectionId ≠ connection.id then
            (.error ⟨.notFound, "No such grant on this connection."⟩, s)
          else (.ok (), s.revokeGrant grant.id "Revoked by the postmaster.")

/-- A change of the mailbox reaches the binding that is live at that moment, if there is one. -/
def mailboxEvent (mailbox : String) (event : MailboxEvent) : Server :=
  match s.findLiveByMailbox mailbox with
  | none => s
  | some binding =>
      match event with
      | .passwordChanged =>
          s.invalidateBinding binding .stale "The mailbox password was changed."
      | .deleted =>
          let revoked := (s.listByBinding binding.id).foldl
            (fun s connection =>
              if connection.state = .revoked then s
              else s.revokeConnectionInternal connection.id "The mailbox was deleted.") s
          (revoked.deleteCredential binding.id).setBindingState binding.id .revoked
            (some "The mailbox was deleted.")

/-- One live binding against the mailbox list just read: a missing mailbox and a changed account
line end its trust, and a mailbox that is there again restores it. -/
def reconcileBinding (entries : List (String × String)) (binding : BindingRow) : Server :=
  match entries.lookup binding.mailbox with
  | none =>
      if binding.state ≠ .mailboxMissing then
        s.setBindingState binding.id .mailboxMissing
          (some "Not present in the last mailbox reconciliation.")
      else s
  | some fingerprint =>
      if fingerprint ≠ binding.fingerprint then
        if binding.state ≠ .stale then
          s.invalidateBinding binding .stale
            "The mailbox password or identity changed outside MCP."
        else s
      else if binding.state = .mailboxMissing then
        s.setBindingState binding.id .active none
      else s

/-- The list of live bindings is read once, at the start; of two entries for one
mailbox the later counts. -/
def reconcile (entries : List (String × String)) : Server :=
  (s.bindings.filter fun row => row.revokedAt = none).foldl
    (fun s binding => s.reconcileBinding entries.reverse binding) s

/-- The settings are replaced as a whole. -/
def updateSettings (settings : McpSettings) : Server :=
  { s with settings }

end Server

end Mcp

end MailPanel
