import MailPanel.AuthService
import MailPanel.StepRun

/-
Requests for logins, sessions and administrators in any order: a request stands between
its session check and its handler, or waits for a password hash, while others run.
-/

namespace MailPanel

namespace Auth

/-- What a request ends with: a session for a login, nothing to tell, an error of the interface,
or something thrown that no route expects. -/
inductive Outcome where
  | loggedIn (session : SessionRow)
  | loginFailed
  | done
  | refused (error : AppError)
  /-- The code throws what no route expects. -/
  | thrown
deriving DecidableEq, Repr

/-- A request held at an `await`, with everything that it has read before it: a password that is
being verified or hashed, or a session that was checked before the handler runs. -/
inductive Task where
  /-- The verification whose result is discarded; the audit log gets the code. -/
  | verifyingDummy (input : LoginInput) (errorCode : String)
  | verifyingLogin (input : LoginInput) (admin : AdminRow)
  | checked (auth : AuthContext) (request : AuthRequest)
  | verifyingCurrent (auth : AuthContext) (currentPassword newPassword : String)
  | hashingNew (auth : AuthContext) (currentPassword newPassword : String)
  | hashingAdmin (auth : AuthContext) (email password : String)
  | ended (outcome : Outcome)
deriving DecidableEq, Repr

/-- One thing that happens to the service: a login or a request arrives, a waiting task goes on,
the pruning timer fires, time passes, or the process crashes and loses its tasks. -/
inductive Label where
  | login (input : LoginInput)
  | request (credentials : Credentials) (request : AuthRequest)
  /-- The task at this place runs to its next wait. -/
  | proceed (index : Nat)
  | pruneExpired
  | elapse (milliseconds : Nat)
  | crash
deriving DecidableEq, Repr

structure Env where
  config : SessionConfig
  passwords : Passwords

structure Panel where
  db : Db
  tasks : List Task
deriving DecidableEq, Repr

namespace Db

variable (env : Env) (db : Db)

def failLogin (input : LoginInput) : Db × Task :=
  (db.recordAttempt (normalizeEmail input.email) input.ipAddress false, .ended .loginFailed)

/-- `login` up to its verification. A locked-out address and an unknown one wait for a
verification too, so that the time taken tells nobody which it was. -/
def login (input : LoginInput) : Task :=
  let identifier := normalizeEmail input.email
  if db.isLockedOut identifier input.ipAddress then .verifyingDummy input "RATE_LIMITED"
  else
    match db.findByEmail identifier with
    | none => .verifyingDummy input "INVALID_CREDENTIALS"
    | some admin => .verifyingLogin input admin

/-- The rest of a login whose password was right: the success is recorded, the failures of the
address are cleared, and the session is stored. -/
def issueSession (input : LoginInput) (admin : AdminRow) : Db × Task :=
  let identifier := normalizeEmail input.email
  let cleared := (db.recordAttempt identifier input.ipAddress true).clearFailuresForIdentifier
    identifier
  match hoursFromNow db.now env.config.absoluteTtlHours with
  | none => (cleared, .ended .thrown)
  | some expiresAt =>
      match cleared.createSession admin.id expiresAt with
      | none => (cleared, .ended .thrown)
      | some (session, next) =>
          (next.record (.issued session input.password), .ended (.loggedIn session))

def finishLogin (input : LoginInput) (admin : AdminRow) : Db × Task :=
  if !env.passwords.verify admin.passwordHash input.password then db.failLogin input
  else if admin.disabled then db.failLogin input
  else db.issueSession env input admin

/-- The transaction of a password change. -/
def changePassword (auth : AuthContext) (newPassword : String) : Db × Task :=
  let newHash := env.passwords.hash newPassword db.nextId
  let drawn := { db with nextId := db.nextId + 1 }
  (((drawn.updatePassword auth.admin.id newHash).revokeAllForAdmin auth.admin.id
      auth.session.id).record (.passwordChanged auth.admin.id auth.session.id), .ended .done)

/-- The rest of a creation, once the password is hashed. An address that was taken in the
meantime makes the unique index throw, which no route expects. -/
def storeAdmin (email password : String) : Db × Task :=
  let passwordHash := env.passwords.hash password db.nextId
  let drawn := { db with nextId := db.nextId + 1 }
  match drawn.createAdmin email passwordHash with
  | none => (drawn, .ended .thrown)
  | some next => (next, .ended .done)

/-- How a handler without a wait ends. -/
def settle : Except AppError Db → Db × Task
  | .error error => (db, .ended (.refused error))
  | .ok next => (next, .ended .done)

/-- The handler behind the session check. Four of the six requests are done at once, and the two
with a password wait for it to be verified or hashed. -/
def handle (auth : AuthContext) : AuthRequest → Db × Task
  | .sessionInfo => (db, .ended .done)
  | .logout => (db.logout auth.session, .ended .done)
  | .changePassword current new => (db, .verifyingCurrent auth current new)
  | .createAdmin email password =>
      if (db.findByEmail email).isSome then
        (db, .ended (.refused
          ⟨"CONFLICT", "An administrator with that email already exists."⟩))
      else (db, .hashingAdmin auth email password)
  | .updateAdmin id patch => db.settle (patchAdmin db auth id patch)
  | .deleteAdmin id => db.settle (removeAdmin db auth id)

def proceed : Task → Db × Task
  | .verifyingDummy input _ => db.failLogin input
  | .verifyingLogin input admin => db.finishLogin env input admin
  | .checked auth request => db.handle auth request
  | .verifyingCurrent auth current new =>
      if env.passwords.verify auth.admin.passwordHash current then
        (db, .hashingNew auth current new)
      else (db, .ended (.refused ⟨"INVALID_CREDENTIALS", "Current password is incorrect."⟩))
  | .hashingNew auth _ new => db.changePassword env auth new
  | .hashingAdmin _ email password => db.storeAdmin env email password
  | .ended outcome => (db, .ended outcome)

/-- The hooks of a request: the session check, and the others after it. -/
def check (credentials : Credentials) (request : AuthRequest) : Db × Task :=
  match credentials.cookie with
  | none => (db, .ended (.refused unauthenticated))
  | some token =>
      match db.validateSession env.config token with
      | (.error _, next) => (next, .ended (.refused unauthenticated))
      | (.ok auth, next) =>
          match passHooks auth credentials request with
          | .error error => (next, .ended (.refused error))
          | .ok auth => (next, .checked auth request)

end Db

namespace Panel

variable (env : Env) (p : Panel)

/-- One step of the service. A request is checked and then waits as a task; a task goes on to
its next wait; a crash keeps the database and drops every task. -/
def step : Label → Panel
  | .login input => ⟨p.db, p.tasks ++ [p.db.login input]⟩
  | .request credentials request =>
      let (db, task) := p.db.check env credentials request
      ⟨db, p.tasks ++ [task]⟩
  | .proceed index =>
      match p.tasks[index]? with
      | none => p
      | some task =>
          let (db, next) := p.db.proceed env task
          ⟨db, p.tasks.set index next⟩
  | .pruneExpired => ⟨p.db.pruneExpired, p.tasks⟩
  | .elapse milliseconds => ⟨{ p.db with now := p.db.now + milliseconds }, p.tasks⟩
  | .crash => ⟨p.db, []⟩

variable {env p}

theorem step_proceed {index : Nat} {task : Task} (htask : p.tasks[index]? = some task) :
    p.step env (.proceed index) =
      ⟨(p.db.proceed env task).1, p.tasks.set index (p.db.proceed env task).2⟩ := by
  simp only [step, htask]

theorem step_proceed_of_none {index : Nat} (htask : p.tasks[index]? = none) :
    p.step env (.proceed index) = p := by
  simp only [step, htask]

end Panel

/- Administrators and sessions for examples. -/
namespace Sample

def passwords : Passwords where
  hash := fun password salt => toString salt ++ ":" ++ password
  verify := fun passwordHash password =>
    decide (passwordHash.toList.dropWhile (· ≠ ':') = ':' :: password.toList)

def env : Env := ⟨⟨12, 2, by decide, by decide⟩, passwords⟩

def admin (id : Id) (email : String) : AdminRow :=
  ⟨id, email, passwords.hash "correct horse" id, .administrator, false, false⟩

def session (id adminId : Id) : SessionRow :=
  ⟨id, adminId, id + 1, id + 2, 0, 43200000, 0, none⟩

end Sample

end Auth

end MailPanel
