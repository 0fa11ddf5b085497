import MailPanel.AuthStore

/-
Authentication and the administration of administrators: what the service and its routes
do between one wait and the next.
-/

namespace MailPanel

namespace Auth

/-- The lifetimes of the configuration, in hours; the schema admits positive numbers. -/
structure SessionConfig where
  absoluteTtlHours : ℚ
  idleTtlHours : ℚ
  absolute_pos : 0 < absoluteTtlHours
  idle_pos : 0 < idleTtlHours

/-- The password hash function.  What a salt is, only `hash` knows. -/
structure Passwords where
  hash : String → Nat → PasswordHash
  verify : PasswordHash → String → Bool

/-- What a sign-in sends, and where it comes from. -/
structure LoginInput where
  email : String
  password : String
  ipAddress : String
deriving DecidableEq, Repr

/-- The session and the administrator that a request is made with, as they were when it was
checked. -/
structure AuthContext where
  session : SessionRow
  admin : AdminRow
deriving DecidableEq, Repr

/-- An error that reaches the browser, by its code and message. -/
structure AppError where
  code : String
  message : String
deriving DecidableEq, Repr

/-- Why a session token is not accepted. The browser hears only that it is not; the reasons are
kept apart here because the code looks for them one after the other. -/
inductive InvalidReason where
  | unknown
  | revoked
  | expired
  | idle
  | adminUnusable
deriving DecidableEq, Repr

namespace LockoutPolicy

/-- Failures older than this do not count any more. -/
def windowMinutes : Nat := 15

/-- From this many failures on, the address that was typed is locked out. -/
def maxFailuresPerIdentifier : Nat := 10

/-- From this many failures on, the network address is locked out, whatever was typed. -/
def maxFailuresPerIp : Nat := 30

end LockoutPolicy

/-- The latest instant that a date can hold. Beyond it a date is invalid and its text cannot be
made. -/
def maxDate : Nat := 8640000000000000

/-- `hours * 3_600_000`, as the language computes it, with rounding. -/
def millisOf (hours : ℚ) : WithTop ℚ := Binary64.mul hours (3600000 : ℚ)

/-- A number plus an instant, as the language adds them, with rounding. -/
def afterInstant (instant : Time) (millis : WithTop ℚ) : WithTop ℚ :=
  Binary64.add (instant : ℚ) millis

/-- The instant in the database's text; the conversion throws beyond the last date. -/
def hoursFromNow (now : Time) (hours : ℚ) : Option Time :=
  match afterInstant now (millisOf hours) with
  | none => none
  | some instant => if instant ≤ maxDate then some ⌊instant⌋₊ else none

/-- The idle deadline has come: the session has not been used for as long as the configuration
allows. -/
def idleAt (config : SessionConfig) (lastSeenAt now : Time) : Bool :=
  decide (afterInstant lastSeenAt (millisOf config.idleTtlHours) ≤ (now : ℚ))

namespace Db

variable (config : SessionConfig) (db : Db)

/-- The instant from which on a window counts. -/
def minutesAgo (minutes : Nat) : Time := db.now - minutes * 60000

/-- Whether either counter has reached its limit within the window. Only failures count. -/
def isLockedOut (identifier ipAddress : String) : Bool :=
  let since := db.minutesAgo LockoutPolicy.windowMinutes
  decide (LockoutPolicy.maxFailuresPerIdentifier ≤
      db.countFailuresSince (fun row => row.identifier = identifier) since) ||
    decide (LockoutPolicy.maxFailuresPerIp ≤
      db.countFailuresSince (fun row => row.ipAddress = ipAddress) since)

/-- Whether a session row authenticates, or why not, before its clock is touched. -/
def checkSession (row : Option SessionRow) : Except InvalidReason AuthContext :=
  match row with
  | none => .error .unknown
  | some session =>
      if session.revokedAt.isSome then .error .revoked
      else if session.expiresAt ≤ db.now then .error .expired
      else if idleAt config session.lastSeenAt db.now then .error .idle
      else
        match db.findById session.adminId with
        | none => .error .adminUnusable
        | some admin => if admin.disabled then .error .adminUnusable else .ok ⟨session, admin⟩

/-- The check at the start of every request. A session that passes is marked as used now. -/
def validateSession (token : Token) : Except InvalidReason AuthContext × Db :=
  match db.checkSession config (db.findByTokenHash token) with
  | .error reason => (.error reason, db)
  | .ok auth =>
      (.ok auth, (db.touch auth.session.id db.now).record
        (.validated auth.session.id db.now))

/-- The session is revoked, and its row stays until it has expired. -/
def logout (session : SessionRow) : Db :=
  (db.revoke session.id).record (.revoked session.id)

/-- The housekeeping: sessions that are over and attempts that no window reaches any more. -/
def pruneExpired : Db :=
  (db.deleteExpiredBefore db.now).pruneAttemptsBefore
    (db.minutesAgo (LockoutPolicy.windowMinutes * 4))

end Db

/-- The one answer for every reason. -/
def unauthenticated : AppError := ⟨"UNAUTHENTICATED", "Authentication is required."⟩

/-- The permissions of a role. There is one role, and it may do everything. -/
def roleHasPermission : AdminRole → String → Bool
  | .administrator, permission => permission ∈
      ["admins:manage", "mail:manage", "security:manage", "docker:manage",
        "maintenance:manage", "mcp:manage"]

/-- The requests that need a session, with their parameters. Each is checked against the session
first and handled afterwards, with other requests possibly in between. -/
inductive AuthRequest where
  | sessionInfo
  | logout
  | changePassword (currentPassword newPassword : String)
  | createAdmin (email password : String)
  | updateAdmin (id : Id) (patch : UpdateAdminPatch)
  | deleteAdmin (id : Id)
deriving DecidableEq, Repr

/-- The routes under `/admins` need the permission to manage administrators. -/
def AuthRequest.managesAdmins : AuthRequest → Bool
  | .createAdmin _ _ | .updateAdmin _ _ | .deleteAdmin _ => true
  | _ => false

/-- The methods that need the CSRF token: all but the one that only reads. -/
def AuthRequest.changesState : AuthRequest → Bool
  | .sessionInfo => false
  | _ => true

/-- What the browser sends along: its cookie, its CSRF token, and whether the headers
show the same origin. -/
structure Credentials where
  cookie : Option Token
  csrf : Option Token
  sameOrigin : Bool
deriving DecidableEq, Repr

/-- The request comes from the panel's own pages and carries the token of its session. -/
def requireCsrf (auth : AuthContext) (credentials : Credentials) : Except AppError Unit :=
  if !credentials.sameOrigin then .error ⟨"FORBIDDEN", "Cross-site request rejected."⟩
  else
    match credentials.csrf with
    | none => .error ⟨"FORBIDDEN", "Missing CSRF token."⟩
    | some token =>
        if token = auth.session.csrfToken then .ok ()
        else .error ⟨"FORBIDDEN", "Invalid CSRF token."⟩

/-- The hooks in front of a handler, once the session is found live: the forced change of a
password, the token against forged requests, and the permission of the role. -/
def passHooks (auth : AuthContext) (credentials : Credentials) (request : AuthRequest) :
    Except AppError AuthContext :=
  if auth.admin.forcePasswordChange && request.managesAdmins then
    .error ⟨"PASSWORD_CHANGE_REQUIRED", "You must change your password before continuing."⟩
  else
    match if request.changesState then requireCsrf auth credentials else .ok () with
    | .error error => .error error
    | .ok () =>
        if request.managesAdmins && !roleHasPermission auth.admin.role "admins:manage" then
          .error ⟨"FORBIDDEN", "You are not permitted to perform this action."⟩
        else .ok auth

/-- What administrators may not do to their own accounts. -/
inductive SelfAction where
  | disable
  | delete
deriving DecidableEq, Repr

/-- The word in the message. -/
def SelfAction.text : SelfAction → String
  | .disable => "disable"
  | .delete => "delete"

/-- Refuses an action on one's own account. -/
def assertNotSelf (actorId targetId : Id) (action : SelfAction) : Except AppError Unit :=
  if actorId = targetId then
    .error ⟨"FORBIDDEN", "You cannot " ++ action.text ++ " your own administrator account."⟩
  else .ok ()

/-- Refuses to leave the panel without an administrator who can sign in. A disabled account does
not count. -/
def assertNotLastEnabledAdmin (db : Db) (target : AdminRow) : Except AppError Unit :=
  if target.disabled then .ok ()
  else if db.countEnabled ≤ 1 then
    .error ⟨"CONFLICT", "At least one enabled administrator must remain."⟩
  else .ok ()

/-- The account has never been there or has been deleted. -/
def adminNotFound : AppError := ⟨"NOT_FOUND", "That administrator does not exist."⟩

/-- The handler of `PATCH /admins/:id`. Only a change that disables an account is checked
against the own account and the last one. -/
def patchAdmin (db : Db) (auth : AuthContext) (id : Id) (patch : UpdateAdminPatch) :
    Except AppError Db := do
  match db.findById id with
  | none => throw adminNotFound
  | some target =>
      if patch.disabled = some true then
        assertNotSelf auth.admin.id target.id .disable
        assertNotLastEnabledAdmin db target
      return db.updateAdmin target.id patch

/-- The handler of `DELETE /admins/:id`, with the same checks as for disabling. -/
def removeAdmin (db : Db) (auth : AuthContext) (id : Id) : Except AppError Db := do
  match db.findById id with
  | none => throw adminNotFound
  | some target =>
      assertNotSelf auth.admin.id target.id .delete
      assertNotLastEnabledAdmin db target
      return db.deleteAdmin target.id

end Auth

end MailPanel
