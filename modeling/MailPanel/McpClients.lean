import MailPanel.McpTokens

/-
OAuth clients: dynamic registration, metadata documents, and the authentication
of a client at the token and revocation endpoints.
-/

namespace MailPanel

namespace Mcp

def MAX_REDIRECT_URIS : Nat := 10
def CIMD_DEFAULT_TTL_SECONDS : Nat := 3600
def CIMD_MAX_TTL_SECONDS : Nat := 86400
def CIMD_MIN_TTL_SECONDS : Nat := 60
def DCR_DAILY_CAP : Nat := 500

/-- The `length` of a string, which counts 16-bit units. -/
def textLength (text : String) : Nat :=
  (text.toList.map fun char => if char.toNat < 0x10000 then 1 else 2).sum

def invalidClient (description : String) : OAuthError :=
  ⟨"invalid_client", description, 401⟩

def isLoopbackHost (hostname : String) : Bool :=
  hostname ∈ ["localhost", "127.0.0.1", "[::1]"]

/-- Why a redirect URI is refused, if it is: length, shape, fragment, credentials and scheme are
looked at in this order. -/
def validateRedirectUri (env : Env) (raw : String) : Option String :=
  if textLength raw > 2000 then some "redirect URI is too long"
  else
    match env.parseUrl raw with
    | none => some "redirect URI is not an absolute URI"
    | some url =>
        if url.hash ≠ "" then some "redirect URI must not contain a fragment"
        else if url.username ≠ "" ∨ url.password ≠ "" then
          some "redirect URI must not contain credentials"
        else if url.protocol = "https:" then none
        else if url.protocol = "http:" ∧ isLoopbackHost url.hostname then none
        else some "redirect URI must use https (or http on a loopback host)"

/-- A registration request whose fields have the types of its schema. What an absent field
defaults to is decided by the handler. -/
structure RegistrationRequest where
  redirectUris : List String
  clientName : Option String
  grantTypes : Option (List String)
  responseTypes : Option (List String)
  tokenEndpointAuthMethod : Option String
deriving DecidableEq, Repr

def authMethodOf : String → Option TokenEndpointAuthMethod
  | "none" => some .none
  | "client_secret_basic" => some .clientSecretBasic
  | "client_secret_post" => some .clientSecretPost
  | _ => none

/-- What the fetch of a metadata document brings, its redirect URIs and
authentication methods checked. -/
structure ClientMetadata where
  clientName : String
  redirectUris : List String
  grantTypes : Option (List String)
  maxAgeSeconds : Option Nat
deriving DecidableEq, Repr

def isMetadataDocumentClientId (clientId : String) : Bool :=
  "https://".toList.isPrefixOf clientId.toList

/-- A `resolve` at its wait: it has its answer, or it fetches a document. -/
inductive ClientWait where
  | resolved (client : Except OAuthError OAuthClientRow)
  | fetching (clientId : String)
deriving DecidableEq

inductive BasicHeader where
  | absent
  | malformed
  | credentials (clientId : String) (secret : Secret)
deriving DecidableEq, Repr

structure ClientCredentials where
  authorizationHeader : BasicHeader
  bodyClientId : Option String
  bodyClientSecret : Option Secret
deriving DecidableEq, Repr

/-- The secret that an authentication holds while its client is resolved. -/
structure PresentedSecret where
  secret : Option Secret
  viaBasic : Bool
deriving DecidableEq, Repr

/-- Exact-match redirect URI selection. -/
def selectRedirectUri (client : OAuthClientRow) (requested : Option String) :
    Option String :=
  match requested with
  | none => if client.redirectUris.length = 1 then client.redirectUris.head? else none
  | some uri => if uri ∈ client.redirectUris then some uri else none

namespace Server

variable (s : Server)

def countClientsCreatedSince (since : Time) : Nat :=
  s.clients.countP fun row => row.kind = .dcr ∧ since ≤ row.createdAt

/-- Why the metadata of a registration is refused, if it is. Fields that are absent have the
defaults of the source. -/
def registrationProblem (env : Env) (request : RegistrationRequest) : Option OAuthError :=
  let grantTypes := request.grantTypes.getD ["authorization_code", "refresh_token"]
  if request.redirectUris.isEmpty ∨ request.redirectUris.length > MAX_REDIRECT_URIS then
    some ⟨"invalid_client_metadata", "The client metadata is invalid.", 400⟩
  else
    match request.redirectUris.findSome? (validateRedirectUri env) with
    | some problem => some ⟨"invalid_redirect_uri", problem, 400⟩
    | none =>
        if "authorization_code" ∉ grantTypes ∨
            grantTypes.any fun grant =>
              grant ≠ "authorization_code" ∧ grant ≠ "refresh_token" then
          some ⟨"invalid_client_metadata",
            "Only the authorization_code and refresh_token grant types are supported.", 400⟩
        else if (request.responseTypes.getD []).any fun type => type ≠ "code" then
          some ⟨"invalid_client_metadata",
            "Only the \"code\" response type is supported.", 400⟩
        else none

/-- RFC 7591 registration; the client's id is made of a drawn number. The setting and the daily
cap are looked at before the request is. -/
def register (env : Env) (request : RegistrationRequest) :
    Except OAuthError OAuthClientRow × Server :=
  if ¬ s.settings.dynamicRegistration then
    (.error ⟨"invalid_request", "Dynamic client registration is disabled on this server.",
      403⟩, s)
  else if s.countClientsCreatedSince (s.now - 86400 * 1000) ≥ DCR_DAILY_CAP then
    (.error ⟨"temporarily_unavailable", "Too many client registrations; try again later.",
      429⟩, s)
  else
    match registrationProblem env request with
    | some error => (.error error, s)
    | none =>
        match authMethodOf (request.tokenEndpointAuthMethod.getD "client_secret_basic") with
        | none =>
            (.error ⟨"invalid_client_metadata", "Unsupported token_endpoint_auth_method.",
              400⟩, s)
        | some method =>
            let client : OAuthClientRow :=
              { clientId := "dcr_" ++ toString s.nextId
                kind := .dcr
                clientName := request.clientName
                redirectUris := request.redirectUris
                grantTypes :=
                  request.grantTypes.getD ["authorization_code", "refresh_token"]
                tokenEndpointAuthMethod := method
                clientSecretHash :=
                  if method = .none then none else some (s.nextId + 1)
                metadataExpiresAt := none
                createdAt := s.now }
            (.ok client, { s.upsertClient client with nextId := s.nextId + 2 })

/-- `resolve` up to its wait. Only a metadata document that is not cached, or no longer, has to
be waited for. -/
def beginResolve (clientId : String) : ClientWait :=
  if textLength clientId = 0 ∨ textLength clientId > 2000 then
    .resolved (.error (invalidClient "Unknown client."))
  else if isMetadataDocumentClientId clientId = false then
    match s.findClient clientId with
    | none => .resolved (.error (invalidClient "Unknown client."))
    | some client =>
        if client.kind = .dcr then .resolved (.ok client)
        else .resolved (.error (invalidClient "Unknown client."))
  else if ¬ s.settings.metadataDocuments then
    .resolved (.error (invalidClient
      "Client ID Metadata Documents are disabled on this server."))
  else
    match s.findClient clientId with
    | none => .fetching clientId
    | some cached =>
        if cached.kind = .cimd ∧ cached.metadataExpiresAt.any fun time => s.now < time then
          .resolved (.ok cached)
        else .fetching clientId

def metadataRejected (reason : String) : OAuthError :=
  invalidClient ("The client metadata document was rejected: " ++ reason)

/-- `fetchMetadataDocument` once the fetch has its answer. The document is kept for as long as
it says itself, within the bounds of the source. -/
def finishFetch (clientId : String) (document : Except String ClientMetadata) :
    Except OAuthError OAuthClientRow × Server :=
  match document with
  | .error reason => (.error (metadataRejected reason), s)
  | .ok document =>
      let grantTypes := document.grantTypes.getD ["authorization_code", "refresh_token"]
      if "authorization_code" ∉ grantTypes then
        (.error (metadataRejected "authorization_code grant not listed"), s)
      else
        let ttl := min CIMD_MAX_TTL_SECONDS
          (max CIMD_MIN_TTL_SECONDS (document.maxAgeSeconds.getD CIMD_DEFAULT_TTL_SECONDS))
        let stored := s.upsertClient
          { clientId := clientId
            kind := .cimd
            clientName := some document.clientName
            redirectUris := document.redirectUris
            grantTypes := grantTypes
            tokenEndpointAuthMethod := .none
            clientSecretHash := none
            metadataExpiresAt := some (s.addSeconds ttl)
            createdAt := s.now }
        match stored.findClient clientId with
        | none =>
            (.error ⟨"server_error", "Client metadata could not be stored.", 500⟩, stored)
        | some client => (.ok client, stored)

def authenticationFailed : OAuthError := invalidClient "Client authentication failed."

/-- `authenticate` up to the wait for its client, from credentials that have been read already.
The header decides where there is one, and the body must then agree with it. -/
def beginAuthenticate (credentials : ClientCredentials) :
    Except OAuthError (ClientWait × PresentedSecret) :=
  match credentials.authorizationHeader with
  | .malformed => .error authenticationFailed
  | .credentials basicId secret =>
      if credentials.bodyClientId.any fun clientId => clientId ≠ basicId then
        .error ⟨"invalid_request", "client_id does not match the Authorization header.", 400⟩
      else .ok (s.beginResolve basicId, ⟨some secret, true⟩)
  | .absent =>
      match credentials.bodyClientId with
      | none => .error authenticationFailed
      | some clientId =>
          .ok (s.beginResolve clientId, ⟨credentials.bodyClientSecret, false⟩)

/-- The rest of `authenticate`: the secret must be the client's, sent its way. -/
def finishAuthenticate (presented : PresentedSecret)
    (client : Except OAuthError OAuthClientRow) : Except OAuthError OAuthClientRow :=
  match client with
  | .error _ => .error authenticationFailed
  | .ok client =>
      match client.tokenEndpointAuthMethod with
      | .none =>
          if presented.secret ≠ none then .error authenticationFailed else .ok client
      | method =>
          if presented.secret = none ∨ client.clientSecretHash = none ∨
              presented.viaBasic ≠ decide (method = .clientSecretBasic) then
            .error authenticationFailed
          else if presented.secret ≠ client.clientSecretHash then
            .error authenticationFailed
          else .ok client

end Server

end Mcp

end MailPanel
