import MailPanel.McpBearer
import MailPanel.StepRun

/-
The service as a whole: requests of browsers, clients and the postmaster, each
running from one wait to the next, in any order.
-/

namespace MailPanel

namespace Mcp

/-- The fields of a form posted to the token endpoint. All of them may be missing, and which of
them are needed depends on the grant type. -/
structure TokenForm where
  grantType : Option String
  code : Option Secret
  redirectUri : Option String
  codeVerifier : Option String
  refreshToken : Option Secret
  scope : Option String
  resource : Option String
deriving DecidableEq, Repr

/-- What a request does once its client is resolved. Resolving may wait for a document of the
client's own site, so the rest of the request is kept here. -/
inductive Continuation where
  | start (wait : StartWait)
  | login (wait : LoginWait)
  | decide (wait : DecideWait)
  | token (presented : PresentedSecret) (form : TokenForm)
  | revokeToken (presented : PresentedSecret) (token : Option Secret)
      (hint : Option String)
deriving DecidableEq, Repr

inductive IssueOperation where
  | create
  | reissue
  | rotate
deriving DecidableEq, Repr

/-- A request at a wait, with what it has read before it. Each wait is one at which the source
awaits something: a client, a password check, a hash, or the mail server. -/
inductive Task where
  | resolvingClient (client : ClientWait) (next : Continuation)
  | checkingPassword (wait : PasswordWait)
  | provisioning (connectionExpiryDays : Option Nat) (request : CreateRequest)
      (binding : BindingRow) (password : String)
  | hashing (operation : IssueOperation) (pending : PendingIssue)
  | updatingCredentials (binding : BindingRow) (password : String)
  | testing (binding : BindingRow)
deriving DecidableEq

/-- What a wait ends with. The environment chooses it, so a resolved client, a wrong password
and an unreachable mail server are all possible at any time. -/
inductive Reply where
  /-- A resolved client, a checked password, a password hash. -/
  | done
  | document (document : Except String ClientMetadata)
  | verified (result : VerifyResult)
  /-- The wait throws, and the request with it. -/
  | thrown

/-- The requests that the service serves, with what it reads of them: those of the authorization
server, those of the tools, and those of the control interface. -/
inductive Request where
  | start (query : Query)
  | login (form : AuthorizeForm) (cookieTxn : Option Id) (ip : Option String)
  | decide (form : AuthorizeForm) (cookieTxn : Option Id)
  | token (credentials : ClientCredentials) (form : TokenForm)
  | revokeToken (credentials : ClientCredentials) (token : Option Secret)
      (hint : Option String)
  | register (request : RegistrationRequest)
  | bearer (connectionId : List Char) (authorization : BearerHeader)
  /-- A tool's call to the mail server failed to authenticate. -/
  | credentialRejected (bindingId : Id)
  | create (request : CreateRequest)
  | update (id : Id) (fields : ConnectionFields)
  | updateCredentials (id : Id) (password fingerprint : String)
  | reissue (id : Id)
  | rotate (id : Id)
  | test (id : Id)
  | disable (id : Id) (reason : Option String)
  | enable (id : Id)
  | revoke (id : Id) (reason : Option String)
  | delete (id : Id)
  | revokeGrant (id grantId : Id)
  | mailboxEvent (mailbox : String) (event : MailboxEvent)
  | reconcile (entries : List (String × String))
  | updateSettings (settings : McpSettings)

/-- One thing that happens to the service: a request arrives, a wait ends, time passes, the
housekeeping runs, or the process is restarted, with another key of its vault or with none. -/
inductive Label where
  | request (request : Request)
  /-- The wait of the task at this place ends. -/
  | resume (index : Nat) (reply : Reply)
  | advance (milliseconds : Nat)
  | housekeeping
  | restart (vaultKeyId : Option String)

structure System where
  server : Server
  tasks : List Task

namespace Server

variable (s : Server)

/-- The token, registration and revocation endpoints answer only while MCP is on. -/
def requireEnabled (env : Env) : Bool :=
  s.settings.enabled && (s.issuer env).isSome

/-- The token endpoint after authentication. Only two grant types are served, and a client must
be registered for the one that it uses. -/
def answerToken (env : Env) (client : OAuthClientRow) (form : TokenForm) :
    Except OAuthError TokenResponse × Server :=
  match form.grantType with
  | some "authorization_code" =>
      s.exchangeCode env
        ⟨client, form.code, form.redirectUri, form.codeVerifier, form.resource⟩
  | some "refresh_token" =>
      if "refresh_token" ∉ client.grantTypes then
        (.error ⟨"unauthorized_client", "This client may not use refresh tokens.", 400⟩, s)
      else s.refresh ⟨client, form.refreshToken, form.scope, form.resource⟩
  | _ =>
      (.error ⟨"unsupported_grant_type",
        "Only authorization_code and refresh_token are supported.", 400⟩, s)

/-- `create` once the mailbox has its credential: the connection is stored, and
its first setup password goes to be hashed. -/
def createConnectionAndIssue (env : Env) (connectionExpiryDays : Option Nat)
    (request : CreateRequest) (binding : BindingRow) : Server × List Task :=
  match s.insertConnection connectionExpiryDays request binding with
  | (.error _, s) => (s, [])
  | (.ok connection, s) =>
      let (pending, s) := s.beginIssue env.rank connection true
      (s, [.hashing .create pending])

/-- A rotation goes on record as it ends. -/
def noted (operation : IssueOperation) (connectionId : Id) : Server :=
  match operation with
  | .rotate => s.record (.rotated connectionId)
  | .create | .reissue => s

/-- `issueEnrollment` from its hash on, for the operation that called it. -/
def finishHash (operation : IssueOperation) (pending : PendingIssue) : Server :=
  match (s.noted operation pending.connectionId).finishIssue pending with
  | none => s
  | some (_, s) => s

/-- A request goes on with its resolved client, to its end or to its next wait. What it answers
is not kept, since the claims are about the tables. -/
def continueWith (env : Env) (client : Except OAuthError OAuthClientRow) :
    Continuation → Server × List Task
  | .start wait => ((s.finishStart env wait client).2, [])
  | .login wait =>
      match s.resumeLogin wait client with
      | .error _ => (s, [])
      | .ok wait => (s, [.checkingPassword wait])
  | .decide wait => ((s.finishDecide wait client).2, [])
  | .token presented form =>
      match finishAuthenticate presented client with
      | .error _ => (s, [])
      | .ok client => ((s.answerToken env client form).2, [])
  | .revokeToken presented token hint =>
      match finishAuthenticate presented client, token with
      | .ok client, some token => (s.revokeToken client token hint, [])
      | _, _ => (s, [])

/-- The server, and what waits next, once a wait has ended; `none` where the reply
is of another kind than the wait. -/
def proceed (env : Env) : Task → Reply → Option (Server × List Task)
  | _, .thrown => some (s, [])
  | .resolvingClient (.fetching clientId) next, .document document =>
      let (client, s) := s.finishFetch clientId document
      some (s, [.resolvingClient (.resolved client) next])
  | .resolvingClient (.resolved client) next, .done => some (s.continueWith env client next)
  | .checkingPassword wait, .done => some ((s.finishLogin wait).2, [])
  | .provisioning connectionExpiryDays request binding password, .verified result =>
      match s.finishProvision binding.id password result with
      | (.error _, s) => some (s, [])
      | (.ok (), s) =>
          some (s.createConnectionAndIssue env connectionExpiryDays request binding)
  | .hashing operation pending, .done => some (s.finishHash operation pending, [])
  | .updatingCredentials binding password, .verified result =>
      some ((s.finishUpdateCredentials binding password result).2, [])
  | .testing binding, .verified result => some (s.finishTest binding result, [])
  | _, _ => none

/-- A request up to its first wait. A request that ends without one is done in a single step,
and nothing can come in between. -/
def receive (env : Env) : Request → Server × List Task
  | .start query =>
      match s.beginStart env query with
      | .error _ => (s, [])
      | .ok wait => (s, [.resolvingClient (s.beginResolve wait.clientId) (.start wait)])
  | .login form cookieTxn ip =>
      match s.beginLogin env form cookieTxn ip with
      | .error _ => (s, [])
      | .ok wait =>
          (s, [.resolvingClient (s.beginResolve wait.request.clientId) (.login wait)])
  | .decide form cookieTxn =>
      match s.beginDecide env form cookieTxn with
      | .error _ => (s, [])
      | .ok wait =>
          (s, [.resolvingClient (s.beginResolve wait.request.clientId) (.decide wait)])
  | .token credentials form =>
      match s.requireEnabled env, s.beginAuthenticate credentials with
      | true, .ok (client, presented) =>
          (s, [.resolvingClient client (.token presented form)])
      | _, _ => (s, [])
  | .revokeToken credentials token hint =>
      match s.requireEnabled env, s.beginAuthenticate credentials with
      | true, .ok (client, presented) =>
          (s, [.resolvingClient client (.revokeToken presented token hint)])
      | _, _ => (s, [])
  | .register request =>
      (if s.requireEnabled env then (s.register env request).2 else s, [])
  | .bearer connectionId authorization => ((s.verify connectionId authorization).2, [])
  | .credentialRejected bindingId =>
      match s.findBinding bindingId with
      | none => (s, [])
      | some binding => (s.markCredentialRejected binding, [])
  | .create request =>
      match s.beginCreate request with
      | (.error _, s) => (s, [])
      | (.ok binding, resolved) =>
          match request.mailboxPassword with
          | none =>
              resolved.createConnectionAndIssue env s.settings.connectionExpiryDays request
                binding
          | some password =>
              if s.vaultKeyId = none then (resolved, [])
              else (resolved,
                [.provisioning s.settings.connectionExpiryDays request binding password])
  | .update id fields => ((s.update id fields).2, [])
  | .updateCredentials id password fingerprint =>
      match s.beginUpdateCredentials id fingerprint with
      | (.error _, s) => (s, [])
      | (.ok binding, s) =>
          if s.vaultKeyId = none then (s, [])
          else (s, [.updatingCredentials binding password])
  | .reissue id =>
      match s.beginReissue env.rank id with
      | .error _ => (s, [])
      | .ok (pending, s) => (s, [.hashing .reissue pending])
  | .rotate id =>
      match s.beginRotate env.rank id with
      | .error _ => (s, [])
      | .ok (pending, s) => (s, [.hashing .rotate pending])
  | .test id =>
      match s.requireConnection id >>= s.requireBinding with
      | .error _ => (s, [])
      | .ok binding =>
          if s.credentialHealth binding = .healthy then (s, [.testing binding]) else (s, [])
  | .disable id reason => ((s.disable id reason).2, [])
  | .enable id => ((s.enable id).2, [])
  | .revoke id reason => ((s.revoke id reason).2, [])
  | .delete id => ((s.delete id).2, [])
  | .revokeGrant id grantId => ((s.revokeGrantOf id grantId).2, [])
  | .mailboxEvent mailbox event => (s.mailboxEvent mailbox event, [])
  | .reconcile entries => (s.reconcile entries, [])
  | .updateSettings settings => (s.updateSettings settings, [])

/-- A service with empty tables, as a first start finds it. Every run that a claim speaks of
begins with such a state. -/
def initial (settings : McpSettings) (vaultKeyId : Option String) (now : Time) : Server where
  settings := settings
  vaultKeyId := vaultKeyId
  now := now
  nextId := 0
  bindings := []
  credentials := []
  connections := []
  enrollments := []
  clients := []
  requests := []
  codes := []
  grants := []
  accessTokens := []
  refreshTokens := []
  loginAttempts := []
  history := []

end Server

namespace System

def step (env : Env) (system : System) : Label → System
  | .request request =>
      let (server, started) := system.server.receive env request
      ⟨server, system.tasks ++ started⟩
  | .resume index reply =>
      match system.tasks[index]? with
      | none => system
      | some task =>
          match system.server.proceed env task reply with
          | none => system
          | some (server, next) => ⟨server, system.tasks.eraseIdx index ++ next⟩
  | .advance milliseconds =>
      ⟨{ system.server with now := system.server.now + milliseconds }, system.tasks⟩
  | .housekeeping =>
      ⟨system.server.purgeExpired (system.server.now - 86400 * 1000), system.tasks⟩
  | .restart vaultKeyId => ⟨{ system.server with vaultKeyId }, []⟩

def initial (settings : McpSettings) (vaultKeyId : Option String) (now : Time) : System :=
  ⟨Server.initial settings vaultKeyId now, []⟩

/-- The state after a sequence of steps. -/
def run (env : Env) (start : System) (labels : List Label) : System :=
  StepRun.run (step env) start labels

end System

end Mcp

end MailPanel
