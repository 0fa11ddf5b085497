import MailPanel.McpClients

/-
The browser's half of the authorization-code flow: start, sign-in, decision.
Each function is split where it waits; what it holds across a wait is a
structure of its own.
-/

namespace MailPanel

namespace Mcp

def AUTHORIZATION_REQUEST_TTL_SECONDS : Nat := 600
def IP_FAILURE_WINDOW_SECONDS : Nat := 900
def IP_FAILURE_LIMIT : Nat := 20

/-- The text for an application that sends an id nobody has registered, the usual mistake of a
setup by hand. -/
def UNKNOWN_CLIENT_HINT : String :=
  "This server does not know the client ID your app sent. Leave your app’s OAuth Client ID and Client Secret fields empty — the app registers itself with this server. Your MCP username and setup password go on this sign-in page, not in the app’s settings."

/-- What goes back to the client on its redirect URI: a code, or an error of the protocol. -/
inductive RedirectResult where
  | error (error description : String)
  | code (code : Secret)
deriving DecidableEq, Repr

/-- What an endpoint of the sign-in answers with: a page of its own or a redirect to the client.
Errors about the client itself never redirect. -/
inductive AuthorizeOutcome where
  | errorPage (title message : String) (status : Nat)
  | redirect (redirectUri issuer : String) (result : RedirectResult)
      (state : Option String)
  | login (txn : Id) (csrf : Secret) (setCookie : Bool) (scopes : Option (List McpScope))
      (expiresAt : Time) (error : Option String) (username : Option Nat)
  | consent (txn : Id) (csrf : Secret) (mailbox : String) (scopes : List McpScope)
deriving DecidableEq, Repr

/-- The access is switched off, or has no address that may be used. -/
def unavailablePage : AuthorizeOutcome :=
  .errorPage "MCP access is unavailable"
    "This server is not currently accepting MCP authorizations." 503

/-- The transaction is not there, has expired, or the form or the cookie does not belong to it. -/
def expiredPage : AuthorizeOutcome :=
  .errorPage "Sign-in request expired"
    "This authorization request is no longer valid. Start the connection again from your application."
    400

/-- The client of the transaction has disappeared since. -/
def unknownApplicationPage : AuthorizeOutcome :=
  .errorPage "Unknown application" "The application could not be identified." 400

/-- The sign-in is not good for an approval, with the reason. -/
def cannotAuthorizePage (message : String) : AuthorizeOutcome :=
  .errorPage "Cannot authorize" message 400

/-- The connection has been deleted since. -/
def connectionGonePage : AuthorizeOutcome :=
  .errorPage "Unavailable" "This MCP connection no longer exists." 400

/-- Another decision about the transaction came first. -/
def alreadyCompletedPage : AuthorizeOutcome :=
  .errorPage "Already completed" "This authorization request was already completed." 400

/-- The parameters of a query in their order. A name may appear more than once. -/
abbrev Query := List (String × String)

/-- The parameters that the endpoint reads; each of them may appear only once. -/
def QUERY_PARAMS : List String :=
  ["response_type", "client_id", "redirect_uri", "scope", "state", "code_challenge",
    "code_challenge_method", "resource"]

/-- Every value that a query gives to a name. -/
def valuesOf (query : Query) (name : String) : List String :=
  (query.filter fun entry => entry.1 = name).map Prod.snd

/-- The first value of a name. -/
def param (query : Query) (name : String) : Option String :=
  (valuesOf query name).head?

/-- The first parameter that appears more than once, in the order of `QUERY_PARAMS`. -/
def repeatedParam (query : Query) : Option String :=
  QUERY_PARAMS.find? fun name => 1 < (valuesOf query name).length

/-- `/^c[0-9a-z]{26}$/`: the shape of a connection's id in the path of a resource. -/
def isConnectionIdText (text : List Char) : Bool :=
  text.length = 27 && text.head? = some 'c' &&
    text.tail.all fun char => char.isDigit || char.isLower

/-- The connection id a resource indicator names, if it is one of this server. -/
def connectionIdFromResource (env : Env) (publicBaseUrl resource : String) :
    Option (List Char) :=
  match env.parseUrl resource, env.parseUrl publicBaseUrl with
  | some candidate, some base =>
      if candidate.search ≠ "" ∨ candidate.hash ≠ "" ∨ candidate.username ≠ "" ∨
          candidate.password ≠ "" then none
      else if candidate.origin ≠ base.origin then none
      else
        let path := (stripTrailingSlash candidate.pathname).toList
        let text := path.drop 5
        if "/mcp/".toList.isPrefixOf path ∧ isConnectionIdText text then some text else none
  | _, _ => none

/-- The fields of a posted form that the sign-in pages have. Every field may be missing, since
the browser, or whatever stands in for it, decides what is posted. -/
structure AuthorizeForm where
  txn : Option Id
  csrf : Option Secret
  username : Option Nat
  password : Option Secret
  decision : Option String
deriving DecidableEq, Repr

/-- A `start` that waits for its client's metadata document. -/
structure StartWait where
  issuer : String
  query : Query
  clientId : String
deriving DecidableEq, Repr

/-- A `login` that waits for its client, with the form and the address it came from. -/
structure LoginWait where
  request : AuthorizationRequestRow
  form : AuthorizeForm
  ip : Option String
deriving DecidableEq, Repr

/-- A `login` that waits for the check of its password, with the enrollment as it was when the
check began. -/
structure PasswordWait where
  request : AuthorizationRequestRow
  form : AuthorizeForm
  ip : Option String
  shownScopes : Option (List McpScope)
  enrollment : Option EnrollmentRow
deriving DecidableEq, Repr

/-- The enrollment whose password the form carries. A name that nobody has leads to no
enrollment. -/
def PasswordWait.verified (wait : PasswordWait) : Option EnrollmentRow :=
  wait.enrollment.filter fun enrollment => wait.form.password = some enrollment.passwordHash

/-- A decision that waits for its client. The issuer is the one at the time the decision came
in. -/
structure DecideWait where
  issuer : String
  request : AuthorizationRequestRow
  enrollmentId : Id
  connectionId : Id
  decision : Option String
deriving DecidableEq, Repr

/-- What the client asked for, everything if it did not say, limited to what the connection
carries. -/
def grantedScopes (request : AuthorizationRequestRow) (connectionScopes : List McpScope) :
    List McpScope :=
  (request.requestedScopes.getD MCP_SCOPES).filter fun scope => scope ∈ connectionScopes

namespace Server

variable (s : Server)

/-- The connection whose id a resource's path spells. -/
def findConnectionByText (text : List Char) : Option ConnectionRow :=
  s.connections.find? fun row => connectionIdText row.id = text

/-- The published address, as long as the access is on and the address is one that may be used. -/
def issuer (env : Env) : Option String :=
  match s.settings.enabled, s.settings.publicBaseUrl with
  | true, some publicBaseUrl =>
      if env.requireHttps ∧ ¬ "https://".toList.isPrefixOf publicBaseUrl.toList then none
      else some publicBaseUrl
  | _, _ => none

/- start -/

/-- `start` up to the wait for its client: the checks that come before the client is known and
so answer with a page. -/
def beginStart (env : Env) (query : Query) : Except AuthorizeOutcome StartWait :=
  match s.issuer env with
  | none => .error unavailablePage
  | some issuer =>
      match repeatedParam query with
      | some name =>
          .error (.errorPage "Invalid request"
            ("The \"" ++ name ++ "\" parameter must appear at most once.") 400)
      | none =>
          match param query "client_id" with
          | none =>
              .error (.errorPage "Invalid request"
                "The request does not identify an application (client_id)." 400)
          | some clientId => .ok ⟨issuer, query, clientId⟩

/-- A client that cannot be resolved. An id that nobody registered and that is no address gets
the hint. -/
def unknownClientPage (clientId : String) (error : OAuthError) : AuthorizeOutcome :=
  .errorPage "Unknown application"
    (if error.error = "invalid_client" ∧ isMetadataDocumentClientId clientId = false then
      UNKNOWN_CLIENT_HINT
    else error.description) 400

/-- Why a request with a valid client and redirect URI goes back to the client. -/
def startRefusal (query : Query) : Option RedirectResult :=
  if param query "response_type" ≠ some "code" then
    some (.error "unsupported_response_type" "Only response_type=code is supported.")
  else if (param query "code_challenge").any isPkceText = false then
    some (.error "invalid_request" "A PKCE code_challenge is required.")
  else if param query "code_challenge_method" ≠ some "S256" then
    some (.error "invalid_request" "code_challenge_method must be S256.")
  else if (param query "state").any fun state => textLength state > 1000 then
    some (.error "invalid_request" "state is too long.")
  else none

/-- The connection that the `resource` names, if there is a `resource`. One that names no usable
connection of this server is refused by a redirect, and none at all leaves the choice to the
sign-in. -/
def startConnection (env : Env) (issuer : String) (query : Query) :
    Except RedirectResult (Option ConnectionRow) :=
  match param query "resource" with
  | none => .ok none
  | some resource =>
      match (connectionIdFromResource env issuer resource).bind s.findConnectionByText with
      | none =>
          .error (.error "invalid_target"
            "The requested resource is not available on this server.")
      | some connection =>
          if connection.state = .revoked then
            .error (.error "invalid_target"
              "The requested resource is not available on this server.")
          else .ok (some connection)

/-- The permissions shown before sign-in, once the resource names a connection. -/
def displayScopes (requested : List McpScope) (connection : ConnectionRow) :
    List McpScope :=
  (if requested.isEmpty then MCP_SCOPES else requested).filter fun scope =>
    scope ∈ connection.scopes

/-- The transaction that `start` stores now, with everything that the later steps read from it. -/
def requestRow (wait : StartWait) (client : OAuthClientRow) (redirectUri : String)
    (connection : Option ConnectionRow) : AuthorizationRequestRow :=
  let requested := parseScopeParam (param wait.query "scope")
  { id := s.nextId
    csrfTokenHash := s.nextId + 1
    clientId := client.clientId
    redirectUri := redirectUri
    state := param wait.query "state"
    codeChallenge := (param wait.query "code_challenge").getD ""
    requestedScopes := if requested.isEmpty then none else some requested
    resource := param wait.query "resource"
    connectionId := connection.map ConnectionRow.id
    enrollmentId := none
    authenticatedAt := none
    createdAt := s.now
    expiresAt := s.addSeconds AUTHORIZATION_REQUEST_TTL_SECONDS
    completedAt := none }

/-- The rest of `start`: the redirect URI is checked first, and every later error goes back to
the client. -/
def finishStart (env : Env) (wait : StartWait)
    (client : Except OAuthError OAuthClientRow) : AuthorizeOutcome × Server :=
  match client with
  | .error error => (unknownClientPage wait.clientId error, s)
  | .ok client =>
      match selectRedirectUri client (param wait.query "redirect_uri") with
      | none =>
          (.errorPage "Invalid redirect"
            "The redirect URI is not registered for this application, so this request cannot continue."
            400, s)
      | some redirectUri =>
          let fail (result : RedirectResult) : AuthorizeOutcome × Server :=
            (.redirect redirectUri wait.issuer result (param wait.query "state"), s)
          match startRefusal wait.query with
          | some result => fail result
          | none =>
              match s.startConnection env wait.issuer wait.query with
              | .error result => fail result
              | .ok connection =>
                  let scopes := connection.map
                    (displayScopes (parseScopeParam (param wait.query "scope")))
                  if scopes.any List.isEmpty then
                    fail (.error "invalid_scope"
                      "None of the requested permissions are allowed for this connection.")
                  else
                    let row := s.requestRow wait client redirectUri connection
                    (.login row.id row.csrfTokenHash true scopes row.expiresAt none none,
                      { s.createAuthorizationRequest row with nextId := s.nextId + 2 })

/- Sign-in -/

/-- The open transaction that the cookie, the form and its CSRF token agree on. -/
def loadTransaction (form : AuthorizeForm) (cookieTxn : Option Id) :
    Option AuthorizationRequestRow :=
  match form.txn, form.csrf with
  | some txn, some csrf =>
      if cookieTxn ≠ some txn then none
      else
        match s.findAuthorizationRequest txn with
        | none => none
        | some request =>
            if request.completedAt ≠ none ∨ request.expiresAt ≤ s.now then none
            else if csrf ≠ request.csrfTokenHash then none
            else some request
  | _, _ => none

/-- Whether an address has failed too often within the window. An unknown address is never
throttled. -/
def ipThrottled (ip : Option String) : Bool :=
  ip.any fun ip =>
    s.loginAttempts.countP (fun row => row.ip = ip ∧ row.success = false ∧
      s.now - IP_FAILURE_WINDOW_SECONDS * 1000 ≤ row.attemptedAt) ≥ IP_FAILURE_LIMIT

/-- Why a setup credential cannot be used for a request now, if it cannot. The checks come in
the order of the source, and each has the text that the page shows. -/
def enrollmentProblem (enrollment : EnrollmentRow) (request : AuthorizationRequestRow) :
    Option String :=
  if enrollment.revokedAt ≠ none then
    some "These setup credentials were replaced or revoked. Ask your postmaster for new ones."
  else if enrollment.lockedAt ≠ none then
    some "Too many failed attempts locked these setup credentials. Ask your postmaster to reissue them."
  else if enrollment.consumedAt ≠ none then
    some "This setup password has already been used. If you need to connect again, ask your postmaster for new setup credentials."
  else if enrollment.expiresAt ≤ s.now then
    some "This setup password has expired. Ask your postmaster for new setup credentials."
  else if (enrollment.reservedUntil.any fun until_ => s.now < until_) ∧
      enrollment.reservedCodeId ≠ none then
    some "This setup password is completing another authorization. Wait a minute and try again."
  else if request.connectionId.any fun id => id ≠ enrollment.connectionId then
    some "These setup credentials belong to a different MCP connection than the one being connected. Check the MCP server URL you entered."
  else
    match s.findConnection enrollment.connectionId with
    | none => some "This MCP connection no longer exists."
    | some connection =>
        match s.findBinding connection.bindingId with
        | none => some "This MCP connection is not usable."
        | some binding =>
            let status := (s.statusOf connection binding).1
            if status ≠ .pending ∧ status ≠ .active then
              some ("This MCP connection is " ++ status.text ++ ". Contact your postmaster.")
            else none

/-- `login` up to the wait for its client: the transaction has to be the one of the form and of
the cookie. -/
def beginLogin (env : Env) (form : AuthorizeForm) (cookieTxn : Option Id)
    (ip : Option String) : Except AuthorizeOutcome LoginWait :=
  if s.issuer env = none then .error unavailablePage
  else
    match s.loadTransaction form cookieTxn with
    | none => .error expiredPage
    | some request => .ok ⟨request, form, ip⟩

/-- `login` from its client to the wait for the password check. Too many failures from one
network are refused before anything is read of the credentials. -/
def resumeLogin (wait : LoginWait) (client : Except OAuthError OAuthClientRow) :
    Except AuthorizeOutcome PasswordWait :=
  match client with
  | .error _ => .error unknownApplicationPage
  | .ok _ =>
      if s.ipThrottled wait.ip then
        .error (.errorPage "Too many attempts"
          "Too many failed sign-in attempts from your network. Try again in 15 minutes." 429)
      else
        .ok
          { request := wait.request
            form := wait.form
            ip := wait.ip
            shownScopes := (wait.request.connectionId.bind s.findConnection).map
              fun connection => grantedScopes wait.request connection.scopes
            enrollment := wait.form.username.bind s.findEnrollmentByUsername }

/-- The sign-in page once more, with a message and the name that was typed. -/
def loginAgain (wait : PasswordWait) (error : String) : AuthorizeOutcome :=
  .login wait.request.id (wait.form.csrf.getD 0) false wait.shownScopes
    wait.request.expiresAt (some error) wait.form.username

/-- The failed password check is counted, for the network and for the enrollment
as it was when the check began. -/
def recordFailedLogin (wait : PasswordWait) : Server :=
  let attempted := s.recordAttempt wait.ip wait.form.username false
  match wait.enrollment with
  | none => attempted
  | some enrollment =>
      if enrollment.lockedAt = none ∧ enrollment.consumedAt = none ∧
          enrollment.revokedAt = none then
        attempted.recordFailedAttempt enrollment.id
      else attempted

/-- The consent page goes out and the transaction belongs to the enrollment. -/
def showConsent (requestId connectionId enrollmentId : Id) (scopes : List McpScope) :
    Server :=
  (s.record (.consentShown requestId connectionId scopes)).markRequestAuthenticated
    requestId connectionId enrollmentId

/-- The password check is over. The enrollment is judged as it was when the check began, while
its connection is read again. -/
def finishLogin (wait : PasswordWait) : AuthorizeOutcome × Server :=
  match wait.verified with
  | none =>
      (loginAgain wait "Incorrect MCP username or setup password.",
        s.recordFailedLogin wait)
  | some enrollment =>
      match s.enrollmentProblem enrollment wait.request with
      | some problem =>
          (loginAgain wait problem, s.recordAttempt wait.ip wait.form.username false)
      | none =>
          match s.findConnection enrollment.connectionId with
          | none => (connectionGonePage, s)
          | some connection =>
              let scopes := grantedScopes wait.request connection.scopes
              if scopes.isEmpty then
                (loginAgain wait
                  "None of the requested permissions are allowed for this connection.", s)
              else
                (.consent wait.request.id (wait.form.csrf.getD 0) connection.mailbox scopes,
                  (s.recordAttempt wait.ip wait.form.username true).showConsent
                    wait.request.id connection.id enrollment.id scopes)

/- Decision -/

/-- A decision up to the wait for its client. Only a transaction that is signed in gets there. -/
def beginDecide (env : Env) (form : AuthorizeForm) (cookieTxn : Option Id) :
    Except AuthorizeOutcome DecideWait :=
  match s.issuer env with
  | none => .error unavailablePage
  | some issuer =>
      match s.loadTransaction form cookieTxn with
      | none => .error expiredPage
      | some request =>
          match request.authenticatedAt, request.enrollmentId, request.connectionId with
          | some _, some enrollmentId, some connectionId =>
              .ok ⟨issuer, request, enrollmentId, connectionId, form.decision⟩
          | _, _, _ =>
              .error (.errorPage "Sign in first"
                "Sign in with your MCP username and setup password before authorizing." 400)

/-- The user's refusal, told to the client unless another decision came first. -/
def deny (wait : DecideWait) : AuthorizeOutcome × Server :=
  match s.completeRequest wait.request.id with
  | (false, s) => (alreadyCompletedPage, s)
  | (true, s) =>
      (.redirect wait.request.redirectUri wait.issuer
        (.error "access_denied" "The user denied the authorization request.")
        wait.request.state, s)

/-- What an approved request asks `issueCode` for. The resource is the connection's own, under
the issuer at the time of the decision. -/
def issueInput (wait : DecideWait) (client : OAuthClientRow) (enrollment : EnrollmentRow)
    (connection : ConnectionRow) : IssueCodeInput where
  requestId := wait.request.id
  clientId := client.clientId
  redirectUri := wait.request.redirectUri
  codeChallenge := wait.request.codeChallenge
  scopes := grantedScopes wait.request connection.scopes
  resource := resourceFor wait.issuer connection.id
  connectionId := connection.id
  enrollmentId := enrollment.id

/-- The code, its reservation of the enrollment, the end of the transaction. Each is a
conditional write, and where one finds its row changed the page says so. -/
def approveWith (wait : DecideWait) (client : OAuthClientRow) (enrollment : EnrollmentRow)
    (connection : ConnectionRow) : AuthorizeOutcome × Server :=
  let (code, s) := s.issueCode (issueInput wait client enrollment connection)
  match s.reserveEnrollment enrollment.id code.id (code.expiresAt + 30 * 1000) with
  | (false, s) =>
      (cannotAuthorizePage
        "This setup password was just used or replaced. Ask your postmaster for new setup credentials.",
        s)
  | (true, s) =>
      match s.completeRequest wait.request.id with
      | (false, s) => (alreadyCompletedPage, s)
      | (true, s) =>
          (.redirect wait.request.redirectUri wait.issuer (.code code.codeHash)
            wait.request.state, s)

/-- The approval: the enrollment is judged again, and then the connection that it belongs to and
what it may still grant. -/
def approve (wait : DecideWait) (client : OAuthClientRow) (enrollment : EnrollmentRow) :
    AuthorizeOutcome × Server :=
  match s.enrollmentProblem enrollment wait.request with
  | some problem => (cannotAuthorizePage problem, s)
  | none =>
      if enrollment.connectionId ≠ wait.connectionId then
        (cannotAuthorizePage "This authorization request is not valid.", s)
      else
        match s.findConnection wait.connectionId with
        | none => (connectionGonePage, s)
        | some connection =>
            if (grantedScopes wait.request connection.scopes).isEmpty then
              (cannotAuthorizePage
                "None of the requested permissions are allowed for this connection.", s)
            else s.approveWith wait client enrollment connection

/-- The rest of a decision, once the client is there: whatever is not an approval counts as a
refusal. -/
def finishDecide (wait : DecideWait) (client : Except OAuthError OAuthClientRow) :
    AuthorizeOutcome × Server :=
  match client with
  | .error _ => (unknownApplicationPage, s)
  | .ok client =>
      match s.findEnrollmentById wait.enrollmentId with
      | none =>
          (.errorPage "Sign-in request expired"
            "Start the connection again from your application." 400, s)
      | some enrollment =>
          if wait.decision ≠ some "approve" then s.deny wait
          else s.approve wait client enrollment

end Server

end Mcp

end MailPanel
