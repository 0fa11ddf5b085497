import MailPanel.Binary64
import MailPanel.IsoTime
import MailPanel.RowTable

/-
The administrators of the panel, their sessions and the login attempts: the tables of
the database, and the repository functions that read and write them.  Ids and tokens are
numbers that no earlier draw returned; the hash of a token is as good as the token.
-/

namespace MailPanel

namespace Auth

open RowTable

/-- The keys of the stored rows, drawn from one counter, so that a new one is new. -/
abbrev Id := Nat

/-- A random token together with its hash: only whether two of them are equal is ever asked. -/
abbrev Token := Nat

/-- Milliseconds since the epoch. -/
abbrev Time := Nat

/-- A password's hash, as the hashing library writes it. -/
abbrev PasswordHash := String

/-- The roles that an account can have. -/
inductive AdminRole where
  | administrator
deriving DecidableEq, Repr

/-- An administrator's account. The address is stored in its normal form, and a disabled account
keeps its row: whether it may sign in is decided at every check of a session. -/
structure AdminRow where
  id : Id
  email : String
  passwordHash : PasswordHash
  role : AdminRole
  disabled : Bool
  forcePasswordChange : Bool
deriving DecidableEq, Repr

/-- A session of an administrator, with its own CSRF token and the three instants that limit
it. -/
structure SessionRow where
  id : Id
  adminId : Id
  tokenHash : Token
  csrfToken : Token
  createdAt : Time
  expiresAt : Time
  lastSeenAt : Time
  revokedAt : Option Time
deriving DecidableEq, Repr

/-- A sign-in attempt, kept to count the failures of an identifier and of a network address. -/
structure AttemptRow where
  identifier : String
  ipAddress : String
  success : Bool
  attemptedAt : Time
deriving DecidableEq, Repr

/-- The fields that a request may change, each of them only if it is given. -/
structure UpdateAdminPatch where
  disabled : Option Bool
  role : Option AdminRole
deriving DecidableEq, Repr

/-- What the tables do not keep: how sessions came about, and what became of them. The claims
about whole runs are read off this history; no code of the service does. -/
inductive Event where
  /-- A login with this password created the session. -/
  | issued (session : SessionRow) (password : String)
  | validated (sessionId : Id) (now : Time)
  | revoked (sessionId : Id)
  /-- A password change of this administrator was stored, for the session that asked. -/
  | passwordChanged (adminId sessionId : Id)
deriving DecidableEq, Repr

/-- The database, the clock, and the next number no draw has returned. Ids, tokens and their
hashes are drawn from one counter, which is how they come to differ. -/
structure Db where
  now : Time
  nextId : Nat
  admins : List AdminRow
  sessions : List SessionRow
  attempts : List AttemptRow
  /-- Newest first; no code reads it. -/
  history : List Event
deriving DecidableEq, Repr

/-- The white space that `trim` removes, in the ASCII range. -/
def isTrimmed (c : Char) : Bool :=
  c = ' ' || ('\t' ≤ c && c ≤ '\r')

/-- The form in which addresses are stored and looked up: without blanks around them and in
lower case. -/
def normalizeEmail (email : String) : String :=
  let trimmed := (email.toList.dropWhile isTrimmed).reverse.dropWhile isTrimmed
  String.ofList (trimmed.reverse.map Char.toLower)

namespace Db

variable (db : Db)

/-- A step of the history. Nothing in the source reads it; results about runs do. -/
def record (event : Event) : Db :=
  { db with history := event :: db.history }

/- Administrators -/

/-- The account of an address, however the address is typed. -/
def findByEmail (email : String) : Option AdminRow :=
  lookup AdminRow.email (normalizeEmail email) db.admins

/-- The account with this id, as it stands now. -/
def findById (id : Id) : Option AdminRow :=
  lookup AdminRow.id id db.admins

/-- The administrators that can use the panel, which the last one of them is protected by. -/
def countEnabled : Nat :=
  db.admins.countP fun row => !row.disabled

/-- The insert throws when the address is taken, and the table stays as it was. -/
def createAdmin (email : String) (passwordHash : PasswordHash) : Option Db :=
  if (lookup AdminRow.email (normalizeEmail email) db.admins).isSome then none
  else some { db with
    nextId := db.nextId + 1
    admins := db.admins ++
      [⟨db.nextId, normalizeEmail email, passwordHash, .administrator, false, true⟩] }

/-- Only the fields that the request gives change. -/
def updateAdmin (id : Id) (patch : UpdateAdminPatch) : Db :=
  { db with admins := updateWhere db.admins (fun row => row.id = id) fun row =>
      { row with
        disabled := patch.disabled.getD row.disabled
        role := patch.role.getD row.role } }

/-- A new password also ends the duty to choose one. -/
def updatePassword (id : Id) (passwordHash : PasswordHash) : Db :=
  { db with admins := updateWhere db.admins (fun row => row.id = id) fun row =>
      { row with passwordHash := passwordHash, forcePasswordChange := false } }

/-- The sessions of the administrator go with the row, by the foreign key of their table. -/
def deleteAdmin (id : Id) : Db :=
  { db with
    admins := db.admins.filter fun row => row.id ≠ id
    sessions := db.sessions.filter fun row => row.adminId ≠ id }

/- Sessions -/

/-- The session whose token was presented, whatever has become of it. -/
def findByTokenHash (tokenHash : Token) : Option SessionRow :=
  lookup SessionRow.tokenHash tokenHash db.sessions

/-- The insert throws when the administrator is gone, by the foreign key of the table. -/
def createSession (adminId : Id) (expiresAt : Time) : Option (SessionRow × Db) :=
  match db.findById adminId with
  | none => none
  | some _ =>
      let row : SessionRow :=
        ⟨db.nextId, adminId, db.nextId + 1, db.nextId + 2, db.now, expiresAt, db.now, none⟩
      some (row, { db with nextId := db.nextId + 3, sessions := db.sessions ++ [row] })

/-- The session has been used now. -/
def touch (id : Id) (now : Time) : Db :=
  { db with sessions := updateWhere db.sessions (fun row => row.id = id) fun row =>
      { row with lastSeenAt := now } }

/-- A session that nobody has ended. -/
def unrevoked (row : SessionRow) : Bool := row.revokedAt.isNone

/-- Ends the sessions that meet a condition. Those that have ended already keep their time. -/
def revokeWhere (condition : SessionRow → Bool) : Db :=
  { db with sessions :=
      updateWhere db.sessions (fun row => condition row && unrevoked row) fun row =>
        { row with revokedAt := some db.now } }

/-- Ends one session. -/
def revoke (id : Id) : Db :=
  db.revokeWhere fun row => row.id = id

/-- Every session of the administrator but one, which is the one that makes the request. -/
def revokeAllForAdmin (adminId exceptSessionId : Id) : Db :=
  db.revokeWhere fun row => row.adminId = adminId && row.id ≠ exceptSessionId

/-- The database compares the instants as text, which agrees with their order as long as the
texts have one length. -/
def deleteExpiredBefore (before : Time) : Db :=
  { db with sessions := db.sessions.filter fun row =>
      !IsoTime.before row.expiresAt before }

/- Login attempts -/

/-- An attempt goes to the end of its table, with the present time. -/
def recordAttempt (identifier ipAddress : String) (success : Bool) : Db :=
  { db with attempts := db.attempts ++ [⟨identifier, ipAddress, success, db.now⟩] }

/-- The failures that meet a condition, from an instant on. The instants are compared as text
here too. -/
def countFailuresSince (condition : AttemptRow → Bool) (since : Time) : Nat :=
  db.attempts.countP fun row =>
    condition row && !row.success && !IsoTime.before row.attemptedAt since

/-- A successful sign-in forgives the failures under the same identifier and no others. -/
def clearFailuresForIdentifier (identifier : String) : Db :=
  { db with attempts := db.attempts.filter fun row =>
      !(row.identifier = identifier && !row.success) }

/-- The attempts before an instant go. -/
def pruneAttemptsBefore (before : Time) : Db :=
  { db with attempts := db.attempts.filter fun row => !IsoTime.before row.attemptedAt before }

end Db

end Auth

end MailPanel
