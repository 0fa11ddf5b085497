import MailPanel.McpAuthorization

/-
The resource server: what a bearer token lets a request on `/mcp/<id>` do.
-/

namespace MailPanel

namespace Mcp

/-- What an accepted bearer token opens: the connection, the mailbox behind it, the permissions
of the token, and the senders that messages may be sent as. The tools get nothing else. -/
structure McpAuthContext where
  connectionId : Id
  bindingId : Id
  mailbox : String
  grantId : Id
  clientId : String
  scopes : List McpScope
  senderIdentities : List String
deriving DecidableEq, Repr

/-- The `Authorization` header as the verifier reads it. -/
inductive BearerHeader where
  | absent
  | malformed
  | token (token : Secret)
deriving DecidableEq, Repr

inductive ChallengeError where
  | invalidToken
  | invalidRequest
  | insufficientScope
deriving DecidableEq, Repr

/-- The challenge of a refusal: the connection's permissions, and the error. -/
structure BearerChallenge where
  scope : List McpScope
  error : Option ChallengeError
deriving DecidableEq, Repr

structure BearerRefusal where
  status : Nat
  challenge : Option BearerChallenge
  description : String
deriving DecidableEq, Repr

def TOUCH_INTERVAL_MS : Nat := 60000

def unknownEndpoint : BearerRefusal := ⟨404, none, "Unknown MCP endpoint."⟩

def challenge401 (connection : ConnectionRow) (description : String)
    (error : Option ChallengeError) : BearerRefusal :=
  ⟨401, some ⟨connection.scopes, error⟩, description⟩

namespace Server

variable (s : Server)

def availableCapabilities : List McpScope :=
  MCP_SCOPES.filter fun scope =>
    scope = .mailSend → s.settings.sendsPerHour > 0 ∧ s.settings.sendsPerDay > 0

/-- Why a presented token is refused for a connection, before its grant is read. -/
def tokenRefusal (base : String) (connection : ConnectionRow) (token : AccessTokenRow) :
    Option BearerRefusal :=
  if token.revokedAt ≠ none ∨ token.expiresAt ≤ s.now then
    some (challenge401 connection "The access token is invalid, expired or revoked."
      (some .invalidToken))
  else if token.connectionId ≠ connection.id then
    some (challenge401 connection "The access token was not issued for this MCP endpoint."
      (some .invalidToken))
  else if token.resource ≠ resourceFor base connection.id then
    some (challenge401 connection
      "The access token audience does not match this MCP endpoint." (some .invalidToken))
  else none

/-- The live grant of a token, on the connection the request is for. -/
def liveGrant (connection : ConnectionRow) (token : AccessTokenRow) : Option GrantRow :=
  (s.findGrant token.grantId).filter fun grant =>
    grant.revokedAt = none ∧ grant.connectionId = connection.id

/-- `verify` from the grant on: the status of the connection now, and the permissions that
token, connection and settings all have. -/
def verifyGranted (connection : ConnectionRow) (token : AccessTokenRow) (grant : GrantRow) :
    Except BearerRefusal McpAuthContext × Server :=
  match s.findBinding connection.bindingId with
  | none => (.error ⟨403, none, "This connection is not usable."⟩, s)
  | some binding =>
      let (status, reason) := s.statusOf connection binding
      if status ≠ .active then
        (.error ⟨403, none,
          reason.getD ("This connection is " ++ status.text ++ ".")⟩, s)
      else
        let capabilities := s.availableCapabilities
        let scopes := token.scopes.filter fun scope =>
          scope ∈ connection.scopes ∧ scope ∈ capabilities
        if scopes.isEmpty then
          (.error ⟨403, some ⟨connection.scopes, some .insufficientScope⟩,
            "None of the granted permissions are currently allowed."⟩, s)
        else
          let context : McpAuthContext :=
            { connectionId := connection.id
              bindingId := binding.id
              mailbox := binding.mailbox
              grantId := grant.id
              clientId := grant.clientId
              scopes := scopes
              senderIdentities := connection.senderIdentities }
          if connection.lastUsedAt.all fun time => TOUCH_INTERVAL_MS < s.now - time then
            (.ok context, (s.touchUsed connection.id).touchGrant grant.id)
          else (.ok context, s)

/-- The check of a bearer request, from the endpoint's own path on. An unknown path, a missing
header and an unknown token have answers of their own, in this order. -/
def verify (connectionId : List Char) (authorization : BearerHeader) :
    Except BearerRefusal McpAuthContext × Server :=
  match s.settings.enabled, s.settings.publicBaseUrl with
  | true, some base =>
      if isConnectionIdText connectionId = false then (.error unknownEndpoint, s)
      else
        match s.findConnectionByText connectionId with
        | none => (.error unknownEndpoint, s)
        | some connection =>
            if connection.state = .revoked then (.error unknownEndpoint, s)
            else
              match authorization with
              | .absent =>
                  (.error (challenge401 connection "Authorization required." none), s)
              | .malformed =>
                  (.error (challenge401 connection "Malformed Authorization header."
                    (some .invalidRequest)), s)
              | .token presented =>
                  match s.findAccessTokenByHash presented with
                  | none =>
                      (.error (challenge401 connection
                        "The access token is invalid, expired or revoked."
                        (some .invalidToken)), s)
                  | some token =>
                      match s.tokenRefusal base connection token with
                      | some refusal => (.error refusal, s)
                      | none =>
                          match s.liveGrant connection token with
                          | none =>
                              (.error (challenge401 connection
                                "The authorization grant has been revoked."
                                (some .invalidToken)), s)
                          | some grant => s.verifyGranted connection token grant
  | _, _ => (.error ⟨503, none, "MCP access is disabled on this server."⟩, s)

end Server

end Mcp

end MailPanel
