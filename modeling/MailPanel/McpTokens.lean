import MailPanel.McpConnections

/-
Authorization codes, access tokens and refresh tokens.
-/

namespace MailPanel

namespace Mcp

structure OAuthError where
  error : String
  description : String
  status : Nat
deriving DecidableEq, Repr

def invalidGrant (description : String) : OAuthError :=
  ⟨"invalid_grant", description, 400⟩

structure TokenResponse where
  accessToken : Secret
  expiresIn : Nat
  refreshToken : Secret
  scopes : List McpScope
deriving DecidableEq, Repr

def AUTHORIZATION_CODE_TTL_SECONDS : Nat := 60

/-- `/^[A-Za-z0-9\-._~]{43,128}$/`, the shape of a verifier and of a challenge. -/
def isPkceText (text : String) : Bool :=
  43 ≤ text.toList.length && text.toList.length ≤ 128 &&
    text.toList.all fun char => char.isAlphanum || char ∈ ['-', '.', '_', '~']

def verifyPkceS256 (env : Env) (verifier challenge : String) : Bool :=
  isPkceText verifier && env.sha256Base64Url verifier = challenge

/-- The mail permissions named in a scope parameter, in their fixed order. -/
def parseScopeParam (raw : Option String) : List McpScope :=
  let tokens := ((raw.getD "").toList.splitOn ' ').filter fun token => ¬ token.isEmpty
  MCP_SCOPES.filter fun scope => scope.text.toList ∈ tokens

/-- The path text of a connection id: `c` and 26 characters. -/
def connectionIdText (id : Id) : List Char :=
  'c' :: IsoTime.padded 26 id

def resourceFor (publicBaseUrl : String) (connectionId : Id) : String :=
  publicBaseUrl ++ "/mcp/" ++ String.ofList (connectionIdText connectionId)

/-- `text.replace(/\/$/, '')`. -/
def stripTrailingSlash (text : String) : String :=
  if text.toList.getLast? = some '/' then String.ofList text.toList.dropLast else text

/-- What a decision hands to `issueCode`: the request that was approved, as it was stored when
the browser first came, and the connection and enrollment of the sign-in. -/
structure IssueCodeInput where
  requestId : Id
  clientId : String
  redirectUri : String
  codeChallenge : String
  scopes : List McpScope
  resource : String
  connectionId : Id
  enrollmentId : Id
deriving DecidableEq, Repr

/-- What the token endpoint hands to `exchangeCode`: the client that was authenticated, and the
fields of the form as they were posted. -/
structure ExchangeInput where
  client : OAuthClientRow
  code : Option Secret
  redirectUri : Option String
  codeVerifier : Option String
  resource : Option String
deriving DecidableEq, Repr

structure RefreshInput where
  client : OAuthClientRow
  refreshToken : Option Secret
  scope : Option String
  resource : Option String
deriving DecidableEq, Repr

namespace Server

variable (s : Server)

/-- The row that `issueCode` stores now; its hash stands for the plaintext code. -/
def codeRow (input : IssueCodeInput) : AuthorizationCodeRow where
  id := s.nextId
  codeHash := s.nextId + 1
  requestId := input.requestId
  clientId := input.clientId
  redirectUri := input.redirectUri
  codeChallenge := input.codeChallenge
  scopes := input.scopes
  resource := input.resource
  connectionId := input.connectionId
  enrollmentId := input.enrollmentId
  createdAt := s.now
  expiresAt := s.addSeconds AUTHORIZATION_CODE_TTL_SECONDS
  redeemedAt := none
  grantId := none

def issueCode (input : IssueCodeInput) : AuthorizationCodeRow × Server :=
  (s.codeRow input, { s.createCode (s.codeRow input) with nextId := s.nextId + 2 })

/-- An access token and its refresh token, for one grant. -/
def mintPair (grantId connectionId : Id) (scopes : List McpScope) (resource : String)
    (parentRefreshId : Option Id) : TokenResponse × Server :=
  let accessTtl := s.settings.accessTokenTtlMinutes * 60
  let access : AccessTokenRow :=
    ⟨s.nextId, s.nextId + 1, grantId, connectionId, scopes, resource, s.now,
      s.addSeconds accessTtl, none⟩
  let refresh : RefreshTokenRow :=
    ⟨s.nextId + 2, s.nextId + 3, grantId, parentRefreshId, s.now,
      s.addSeconds (s.settings.refreshTokenTtlDays * 86400), none, none⟩
  (⟨access.tokenHash, accessTtl, refresh.tokenHash, scopes⟩,
    { (s.createAccessToken access).createRefreshToken refresh with
      nextId := s.nextId + 4 })

/-- Why a connection cannot be used now, if it cannot. -/
def connectionUnusable (connectionId : Id) : Option OAuthError :=
  if ¬ s.settings.enabled then
    some (invalidGrant "MCP access is currently disabled on this server.")
  else
    match s.findConnection connectionId with
    | none => some (invalidGrant "The connection no longer exists.")
    | some connection =>
        match s.findBinding connection.bindingId with
        | none => some ⟨"server_error", "Internal error.", 500⟩
        | some binding =>
            let status := (s.statusOf connection binding).1
            if status ≠ .active ∧ status ≠ .pending then
              some (invalidGrant ("The connection is " ++ status.text ++ "."))
            else none

/-- The checks on an unredeemed code before anything is written. -/
def exchangeRefusal (env : Env) (input : ExchangeInput) (codeVerifier : String)
    (code : AuthorizationCodeRow) : Option OAuthError :=
  if code.clientId ≠ input.client.clientId then
    some (invalidGrant "The authorization code was issued to another client.")
  else if code.expiresAt ≤ s.now then
    some (invalidGrant "The authorization code has expired.")
  else if input.redirectUri ≠ some code.redirectUri then
    some (invalidGrant "redirect_uri does not match.")
  else if verifyPkceS256 env codeVerifier code.codeChallenge = false then
    some (invalidGrant "PKCE verification failed.")
  else if input.resource.any fun resource =>
      resource ≠ code.resource ∧ stripTrailingSlash resource ≠ code.resource then
    some ⟨"invalid_target", "The resource does not match the authorization.", 400⟩
  else none

/-- The grant that a redemption stores now. -/
def grantRow (client : OAuthClientRow) (code : AuthorizationCodeRow)
    (scopes : List McpScope) : GrantRow where
  id := s.nextId
  connectionId := code.connectionId
  clientId := client.clientId
  clientName := client.clientName
  redirectUri := code.redirectUri
  scopes := scopes
  resource := code.resource
  createdAt := s.now
  lastUsedAt := none
  revokedAt := none
  revokedReason := none

/-- The grant of a redeemed code is stored and noted on the code. -/
def storeGrant (client : OAuthClientRow) (code : AuthorizationCodeRow)
    (scopes : List McpScope) (codeVerifier : String) : Server :=
  let grant := s.grantRow client code scopes
  ({ s.createGrant grant with nextId := s.nextId + 1 }.record
    (.grantIssued grant code codeVerifier)).attachGrantToCode code.id grant.id

/-- The grant of a redeemed code, with its first tokens. -/
def grantCode (client : OAuthClientRow) (code : AuthorizationCodeRow)
    (scopes : List McpScope) (codeVerifier : String) : TokenResponse × Server :=
  ((s.storeGrant client code scopes codeVerifier).touchAuthorized code.connectionId).mintPair
    s.nextId code.connectionId scopes code.resource none

/-- `exchangeCode` from the consumed setup password on. -/
def exchangeConsumed (client : OAuthClientRow) (code : AuthorizationCodeRow)
    (codeVerifier : String) : Except OAuthError TokenResponse × Server :=
  match s.connectionUnusable code.connectionId with
  | some error => (.error error, s)
  | none =>
      match s.findConnection code.connectionId with
      | none => (.error (invalidGrant "The connection no longer exists."), s)
      | some connection =>
          let scopes := code.scopes.filter fun scope => scope ∈ connection.scopes
          if scopes.isEmpty then
            (.error ⟨"invalid_scope",
              "None of the authorized permissions are still allowed.", 400⟩, s)
          else
            let (response, s) := s.grantCode client code scopes codeVerifier
            (.ok response, s)

def exchangeCode (env : Env) (input : ExchangeInput) :
    Except OAuthError TokenResponse × Server :=
  match input.code, input.codeVerifier with
  | some presented, some codeVerifier =>
      if "authorization_code" ∉ input.client.grantTypes then
        (.error ⟨"unauthorized_client",
          "This client may not use the authorization_code grant.", 400⟩, s)
      else
        match s.findCodeByHash presented with
        | none => (.error (invalidGrant "The authorization code is invalid."), s)
        | some code =>
            if code.redeemedAt ≠ none then
              -- Replay of a used code: whatever it produced is revoked.
              let revoked := match code.grantId with
                | none => s
                | some grantId => s.revokeGrant grantId "authorization code replayed"
              (.error (invalidGrant "The authorization code has already been used."), revoked)
            else
              match s.exchangeRefusal env input codeVerifier code with
              | some error => (.error error, s)
              | none =>
                  match s.redeemCode code.id with
                  | (false, s) =>
                      (.error (invalidGrant "The authorization code has already been used."), s)
                  | (true, s) =>
                      match s.consumeEnrollment code.enrollmentId code.id with
                      | (false, s) =>
                          (.error (invalidGrant
                            "The setup credential behind this authorization is no longer valid."),
                            s)
                      | (true, s) => s.exchangeConsumed input.client code codeVerifier
  | _, _ => (.error ⟨"invalid_request", "code and code_verifier are required.", 400⟩, s)
/-- The checks on a refresh token that nobody has used, up to the connection. -/
def refreshRefusal (input : RefreshInput) (token : RefreshTokenRow) (grant : GrantRow) :
    Option OAuthError :=
  if token.revokedAt ≠ none ∨ grant.revokedAt ≠ none then
    some (invalidGrant "The refresh token has been revoked.")
  else if token.expiresAt ≤ s.now then
    some (invalidGrant "The refresh token has expired.")
  else if input.resource.any fun resource => stripTrailingSlash resource ≠ grant.resource then
    some ⟨"invalid_target", "The resource does not match the grant.", 400⟩
  else none

/-- The connection of a grant, while the grant's audience is still its address. -/
def grantConnection (grant : GrantRow) : Option ConnectionRow :=
  match s.findConnection grant.connectionId, s.settings.publicBaseUrl with
  | some connection, some publicBaseUrl =>
      if resourceFor publicBaseUrl connection.id = grant.resource then some connection
      else none
  | _, _ => none

/-- The permissions a refresh hands out; it cannot add any to the grant. -/
def refreshScopes (scope : Option String) (grant : GrantRow) (connection : ConnectionRow) :
    Except OAuthError (List McpScope) :=
  let scopes := grant.scopes.filter fun scope => scope ∈ connection.scopes
  match scope with
  | none => .ok scopes
  | some _ =>
      let requested := parseScopeParam scope
      if requested.any fun scope => scope ∉ grant.scopes then
        .error ⟨"invalid_scope", "A refresh cannot add permissions to a grant.", 400⟩
      else .ok (scopes.filter fun scope => scope ∈ requested)

/-- `refresh` from the permissions on. -/
def refreshGranted (token : RefreshTokenRow) (grant : GrantRow) (scopes : List McpScope) :
    Except OAuthError TokenResponse × Server :=
  if scopes.isEmpty then
    (.error ⟨"invalid_scope", "No permissions remain for this grant.", 400⟩, s)
  else
    match s.markRefreshTokenUsed token.id with
    | (false, s) =>
        (.error (invalidGrant "The refresh token has already been used."),
          s.revokeGrant grant.id "concurrent refresh token reuse")
    | (true, s) =>
        let (response, s) := (s.touchGrant grant.id).mintPair grant.id grant.connectionId
          scopes grant.resource (some token.id)
        (.ok response, s)

def refresh (input : RefreshInput) : Except OAuthError TokenResponse × Server :=
  match input.refreshToken with
  | none => (.error ⟨"invalid_request", "refresh_token is required.", 400⟩, s)
  | some presented =>
      match s.findRefreshTokenByHash presented with
      | none => (.error (invalidGrant "The refresh token is invalid."), s)
      | some token =>
          match s.findGrant token.grantId with
          | none => (.error (invalidGrant "The refresh token is invalid."), s)
          | some grant =>
              if grant.clientId ≠ input.client.clientId then
                (.error (invalidGrant "The refresh token is invalid."), s)
              else if token.usedAt ≠ none then
                -- Reuse of a rotated token: the whole family goes.
                (.error (invalidGrant "The refresh token has already been used."),
                  s.revokeGrant grant.id "refresh token replay detected")
              else
                match s.refreshRefusal input token grant with
                | some error => (.error error, s)
                | none =>
                    match s.grantConnection grant with
                    | none =>
                        (.error (invalidGrant
                          "The grant is no longer valid for this server."), s)
                    | some connection =>
                        match s.connectionUnusable grant.connectionId with
                        | some error => (.error error, s)
                        | none =>
                            match refreshScopes input.scope grant connection with
                            | .error error => (.error error, s)
                            | .ok scopes => s.refreshGranted token grant scopes

/- RFC 7009 revocation -/

/-- Whether the token is a refresh token; if the client's own, its grant goes. -/
def tryRefresh (client : OAuthClientRow) (token : Secret) : Bool × Server :=
  match s.findRefreshTokenByHash token with
  | none => (false, s)
  | some refresh =>
      match s.findGrant refresh.grantId with
      | none => (true, s)
      | some grant =>
          if grant.clientId = client.clientId then
            (true, s.revokeGrant grant.id "revoked by client")
          else (true, s)

def tryAccess (client : OAuthClientRow) (token : Secret) : Bool × Server :=
  match s.findAccessTokenByHash token with
  | none => (false, s)
  | some access =>
      match s.findGrant access.grantId with
      | none => (true, s)
      | some grant =>
          if grant.clientId = client.clientId then (true, s.revokeAccessTokenByHash token)
          else (true, s)

def revokeToken (client : OAuthClientRow) (token : Secret) (hint : Option String) : Server :=
  if hint = some "access_token" then
    match s.tryAccess client token with
    | (true, s) => s
    | (false, s) => (s.tryRefresh client token).2
  else
    match s.tryRefresh client token with
    | (true, s) => s
    | (false, s) => (s.tryAccess client token).2

end Server

end Mcp

end MailPanel
