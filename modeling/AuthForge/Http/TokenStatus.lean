import AuthForge.Common.RateLimiter
import AuthForge.Http.TokenEndpoint
import AuthForge.Storage.MemoryCalls

/-!
# Introspection and revocation

`TokenEndpointController::introspect` and `TokenEndpointController::revoke`, beside whatever else is
called on the token repository. Clients and tokens are in memory, the failures in the rate limiter.
-/

namespace AuthForge.Http.TokenStatus

open OAuth2 DeviceGrant DeviceStatements Storage.Memory Common

/-- A request with what it says about the address that it comes from. -/
structure AddressedRequest extends HttpRequest where
  /-- The header `X-Forwarded-For`. -/
  forwardedFor : String := ""
  /-- The header `X-Real-IP`. -/
  realIp : String := ""
  /-- The address of the TCP peer. -/
  peerIp : String

def rateLimitKey (req : AddressedRequest) (clientId : String) : String :=
  let ip := req.forwardedFor
  let ip := if ip = "" then req.realIp else ip
  let ip := if ip = "" then req.peerIp else ip
  ip ++ "|" ++ (if clientId = "" then "-" else clientId)

/-! ### Answers -/

/-- The members of an introspection response that it has. -/
structure IntrospectionResponse where
  active : Bool
  clientId : Option String := none
  tokenType : Option String := none
  exp : Option Int := none
  iat : Option Int := none
  nbf : Option Int := none
  sub : Option String := none
  aud : Option String := none
  iss : Option String := none
  scope : Option String := none
  deriving DecidableEq, Repr

inductive StatusReply
  /-- An error with the challenge that goes with it, if any. -/
  | error (status : Nat) (error description : String) (wwwAuthenticate : Option String)
  | tooManyRequests (retryAfter : Int)
  /-- `createSuccessResponse`. -/
  | success
  | introspection (response : IntrospectionResponse)
  /-- What another call on the repository was answered. -/
  | repository (reply : TokenReply)
  deriving DecidableEq

def StatusReply.status : StatusReply → Nat
  | .error status _ _ _ => status
  | .tooManyRequests _ => 429
  | .success => 200
  | .introspection _ => 200
  | .repository _ => 200

/-- `sendErrorResponse` with `invalid_client`: a client that used the header is challenged. -/
def invalidClient (description authScheme : String) : StatusReply :=
  .error 401 "invalid_client" description
    (if authScheme = "" then none
    else some (authScheme ++ " realm=\"OAuth2 Client Authentication\""))

def positive (time : Int) : Option Int := if time > 0 then some time else none

def nonEmpty (text : String) : Option String := if text = "" then none else some text

/-- The body of an introspection response; the configured issuer stands in for a missing one. -/
def introspectionResponse (cfgIssuer : String) : Option TokenIntrospection → IntrospectionResponse
  | none => { active := false }
  | some introspection =>
    { active := introspection.active
      clientId := some introspection.clientId
      tokenType := some "Bearer"
      exp := positive introspection.exp
      iat := positive introspection.iat
      nbf := positive introspection.nbf
      sub := nonEmpty introspection.sub
      aud := nonEmpty introspection.aud
      iss := if introspection.iss ≠ "" then some introspection.iss else nonEmpty cfgIssuer
      scope := nonEmpty introspection.scope }

/-! ### Programs -/

inductive StatusCall
  | checkThrottled (key : String)
  | recordSuccess (key : String)
  | recordFailure (key : String)
  | getClient (clientId : String)
  | validateClient (clientId clientSecret : String)
  | introspectToken (token : String)
  | revokeAccessToken (token revokedBy : String)
  | revokeRefreshToken (token : String)
  | repository (op : TokenCall)
  deriving DecidableEq

@[reducible] def StatusCall.Resp : StatusCall → Type
  | .checkThrottled _ => Int
  | .recordSuccess _ => Unit
  | .recordFailure _ => Unit
  | .getClient _ => Option OAuth2Client
  | .validateClient _ _ => Bool
  | .introspectToken _ => Option TokenIntrospection
  | .revokeAccessToken _ _ => Unit
  | .revokeRefreshToken _ => Unit
  | .repository _ => TokenReply

abbrev StatusProg := Prog StatusCall StatusCall.Resp StatusReply
abbrev StatusAnswer := Answer StatusCall StatusCall.Resp

/-- The callback that both endpoints wrap: a success clears the bucket, anything else is counted. -/
def rateAware (key : String) (response : StatusReply) : StatusProg :=
  if 200 ≤ response.status ∧ response.status < 300 then
    .call (.recordSuccess key) fun _ => .ret response
  else .call (.recordFailure key) fun _ => .ret response

/-- A throttled attempt is not counted. -/
def rateLimited (key : String) (endpoint : StatusProg) : StatusProg :=
  .call (.checkThrottled key) fun retry =>
    if retry ≤ 0 then endpoint.bind (rateAware key) else .ret (.tooManyRequests retry)

def authScheme (req : HttpRequest) : String := if req.basic.isSome then "Basic" else ""

/-- The authentication that both endpoints begin with; a client that is not found has no method to
enforce. -/
def authenticated (req : HttpRequest) (clientId clientSecret : String) (endpoint : StatusProg) :
    StatusProg :=
  .call (.getClient clientId) fun client =>
    let methodErr := methodErrOf req clientSecret client
    if methodErr ≠ "" then .ret (invalidClient methodErr (authScheme req))
    else
      .call (.validateClient clientId clientSecret) fun
        | false => .ret (invalidClient "Client authentication failed" (authScheme req))
        | true => endpoint

/-- `RuleSet::oauth2Introspect` and `RuleSet::oauth2Revoke` check the same parameter. -/
def tokenParameter (req : HttpRequest) : Except StatusReply String :=
  match RuleSet.validateToken (req.getParameter "token") with
  | some error => .error (.error 400 "invalid_request" error none)
  | none => .ok (req.getParameter "token")

def introspect (cfg : Config) (req : AddressedRequest) : StatusProg :=
  let (clientId, clientSecret) := extractDeviceClientCredentials req.toHttpRequest
  if clientId = "" ∨ clientSecret = "" then
    .ret (invalidClient "Client authentication required" (authScheme req.toHttpRequest))
  else
    rateLimited (rateLimitKey req clientId)
      (match tokenParameter req.toHttpRequest with
      | .error response => .ret response
      | .ok token =>
        authenticated req.toHttpRequest clientId clientSecret
          (.call (.introspectToken (hashToken cfg.tokenService.crypto token)) fun introspection =>
            .ret (.introspection
              (introspectionResponse cfg.tokenService.issuer introspection))))

/-- The end of a revocation: a token that is not active is not touched, and only the client that it
was issued to revokes it. -/
def revokeOwn (clientId hashedToken : String) : StatusProg :=
  .call (.introspectToken hashedToken) fun introspection =>
    match introspection with
    | none => .ret .success
    | some introspection =>
      if introspection.active = false then .ret .success
      else if introspection.clientId ≠ clientId then
        .ret (.error 400 "unauthorized_client" "This client is not allowed to revoke the token" none)
      else
        .call (.revokeAccessToken hashedToken clientId) fun _ =>
          .call (.revokeRefreshToken hashedToken) fun _ => .ret .success

/-- A public client has no secret to present. -/
def revoke (cfg : Config) (req : AddressedRequest) : StatusProg :=
  let (clientId, clientSecret) := extractDeviceClientCredentials req.toHttpRequest
  if clientId = "" then
    .ret (invalidClient "Client authentication required" (authScheme req.toHttpRequest))
  else
    rateLimited (rateLimitKey req clientId)
      (match tokenParameter req.toHttpRequest with
      | .error response => .ret response
      | .ok token =>
        authenticated req.toHttpRequest clientId clientSecret
          (revokeOwn clientId (hashToken cfg.tokenService.crypto token)))

/-! ### The service -/

inductive StatusRequest
  | introspect (req : AddressedRequest)
  | revoke (req : AddressedRequest)
  /-- One call that something else makes on the repository. -/
  | repository (op : TokenCall)

def program (cfg : Config) : StatusRequest → StatusProg
  | .introspect req => introspect cfg req
  | .revoke req => revoke cfg req
  | .repository op => .call (.repository op) fun reply => .ret (.repository reply)

structure StatusStore where
  limiter : RateLimiter
  clients : Clients
  tokens : Tokens

/-- The readings of the two clocks, the iteration order of the limiter's map, and whatever a check
reads through a reference that its sweep has left dangling. -/
structure StatusEnv where
  now : Int
  steady : TimePoint
  order : List String := []
  dangling : Int := 0

def exec (env : StatusEnv) : (op : StatusCall) → StatusStore → op.Resp × StatusStore
  | .checkThrottled key, s =>
    let r := s.limiter.checkThrottled key env.steady env.order
    (r.2.getD env.dangling, { s with limiter := r.1 })
  | .recordSuccess key, s => ((), { s with limiter := s.limiter.recordSuccess key })
  | .recordFailure key, s =>
    ((), { s with limiter := s.limiter.recordFailure key env.steady env.order })
  | .getClient clientId, s => (getClient clientId s.clients, s)
  | .validateClient clientId clientSecret, s =>
    (validateClient clientId clientSecret s.clients, s)
  | .introspectToken token, s => (some (introspectToken env.now token s.tokens), s)
  | .revokeAccessToken token revokedBy, s =>
    ((), { s with tokens := revokeAccessToken env.now token revokedBy s.tokens })
  | .revokeRefreshToken token, s =>
    ((), { s with tokens := revokeRefreshToken token s.tokens })
  | .repository op, s =>
    let r := call env.now s.tokens op
    (r.1, { s with tokens := r.2 })

def service (cfg : Config) :
    Service StatusStore StatusEnv StatusCall StatusCall.Resp StatusRequest StatusReply where
  exec := exec
  program := program cfg

abbrev StatusEvent := Service.Event StatusEnv StatusCall StatusCall.Resp StatusRequest

end AuthForge.Http.TokenStatus
