import AuthForge.Http.DeviceStatements
import AuthForge.Http.MfaController
import AuthForge.Storage.Memory

/-!
# Everything that hands out access tokens

Six paths give a caller an access token: the exchange of a code, a refresh, the client credentials
grant, the device grant, the second factor and the GitHub login. Each is a program over single
repository calls here, and they run beside one another and beside the calls that revoke, count and
sweep tokens. Tokens are in memory; clients and grants are in any repository.
-/

namespace AuthForge.Http.Issuance

open OAuth2 DeviceGrant DeviceStatements Storage

inductive IssueCall
  | service (op : RepoCall)
  | device (op : DeviceCall)
  | getClient (clientId : String)
  | saveAccessToken (token : OAuth2AccessToken)
  | revokeAccessToken (token revokedBy : String)
  | revokeRefreshToken (token : String)
  | incrementIntrospectCount (token : String)
  | purgeExpired
  /-- What precedes `issueTokensForUser`: GitHub names the account, or the login fails. -/
  | gitHubUser (code : String)

@[reducible] def IssueCall.Resp : IssueCall → Type
  | .service op => op.Resp
  | .device op => op.Resp
  | .getClient _ => Option OAuth2Client
  | .saveAccessToken _ => Unit
  | .revokeAccessToken _ _ => Unit
  | .revokeRefreshToken _ => Unit
  | .incrementIntrospectCount _ => Unit
  | .purgeExpired => Unit
  | .gitHubUser _ => Except String Int

structure IssueEnv extends Env where
  gitHubUser : Except String Int := .error "AUTH_INVALID_CREDENTIALS"

inductive IssueReply
  | service (reply : Reply)
  | http (response : Response)
  | clientToken (accessToken : String) (expiresIn : Int) (scope : String)
  | gitHubTokens (accessToken refreshToken : String) (expiresIn : Int)
  | done

/-- The access token in an answer. -/
def IssueReply.accessToken : IssueReply → Option String
  | .service (.tokens response) => some response.accessToken
  | .http (.deviceTokens response _) => some response.accessToken
  | .http (.mfaVerified response) => some response.accessToken
  | .clientToken accessToken _ _ => some accessToken
  | .gitHubTokens accessToken _ _ => some accessToken
  | _ => none

abbrev IssueProg := Prog IssueCall IssueCall.Resp IssueReply
abbrev IssueAnswer := Answer IssueCall IssueCall.Resp

/-! ### The token service and the device grant -/

def onService (p : RepoProg) : Prog IssueCall IssueCall.Resp Reply :=
  p.embed .service fun _ r => r

def onDevice (p : DeviceProg) : Prog IssueCall IssueCall.Resp Response :=
  p.embed .device fun _ r => r

def tokenService (cfg : Config) (r : Request) : IssueProg :=
  (onService (cfg.tokenService.program r)).bind fun reply => .ret (.service reply)

def deviceGrant (cfg : Config) (r : DeviceRequest) : IssueProg :=
  (onDevice (DeviceStatements.program cfg r)).bind fun response => .ret (.http response)

/-! ### The second factor -/

def mfaExchanged : Reply → Response
  | .tokens response => .mfaVerified response
  | .error _ description =>
    .error "INTERNAL_ERROR"
      ("verifyLogin: failed to exchange authorization code: " ++ description)
  | _ => .unanswered

/-- What an accepted second factor goes on with: a code for the request, redeemed at once. -/
def completeMfa (cfg : Config) (r : CodeRequest) (f : MfaController.VerifyFields) : IssueProg :=
  (onService (cfg.tokenService.program (.generate r))).bind fun
    | .code true code _ =>
      (onService (cfg.tokenService.program
        (.exchange (MfaController.mfaExchangeRequest cfg f code)))).bind fun reply =>
          .ret (.http (mfaExchanged reply))
    | .code false _ error =>
      .ret (.http (.error "INTERNAL_ERROR"
        ("verifyLogin: failed to generate authorization code: " ++ error)))
    | _ => .ret (.http .unanswered)

/-! ### Client credentials -/

def allowsAllScopes (client : OAuth2Client) (requestedScope : String) : Bool :=
  (requestedScopes requestedScope).all client.allowsScope

def joinScopes (allowed : List String) : String :=
  allowed.foldl (fun granted s => (if granted = "" then granted else granted ++ " ") ++ s) ""

/-- The granted scope: what was requested, or everything the client is registered for. -/
def grantedScope (client : OAuth2Client) (requestedScope : String) : Except String String :=
  if requestedScope ≠ "" then
    if allowsAllScopes client requestedScope then .ok requestedScope
    else .error "Requested scope exceeds the scopes registered for this client"
  else if client.allowedScopes = [] then
    .error "No scope requested and no default scope registered for this client"
  else .ok (joinScopes client.allowedScopes)

def clientAccessToken (svc : TokenService) (tokenStr clientId scope : String) (now : Int) :
    OAuth2AccessToken :=
  svc.newAccessToken tokenStr clientId ("client:" ++ clientId) scope now

def issueToClient (cfg : Config) (clientId scope : String) : IssueProg :=
  .call (.service (.generateSecureToken 32)) fun tokenStr =>
  .call (.service .nowSeconds) fun now =>
  .call (.saveAccessToken (clientAccessToken cfg.tokenService tokenStr clientId scope now)) fun _ =>
  .ret (.clientToken tokenStr cfg.tokenService.accessTokenTtl scope)

def clientCredentialsGrant (cfg : Config) (req : HttpRequest) (clientId clientSecret : String) :
    IssueProg :=
  if clientId = "" ∨ clientSecret = "" then
    .ret (.http (.oauthError 401 "invalid_client"
      "Client authentication required for client_credentials grant"))
  else
    .call (.service (.validateClient clientId clientSecret)) fun
      | false =>
        .ret (.http (.oauthError 401 "invalid_client" "Client authentication failed"))
      | true =>
        .call (.getClient clientId) fun
          | none => .ret (.http (.oauthError 401 "invalid_client" ""))
          | some client =>
            if client.clientType = .PUBLIC then
              .ret (.http (.oauthError 401 "unauthorized_client"
                "Public clients cannot use client_credentials grant"))
            else
              match grantedScope client (req.getParameter "scope") with
              | .error description => .ret (.http (.oauthError 400 "invalid_scope" description))
              | .ok scope => issueToClient cfg clientId scope

/-- The `client_credentials` branch of the token endpoint, behind the check of the declared
authentication method. -/
def clientCredentials (cfg : Config) (req : HttpRequest) : IssueProg :=
  let (clientId, clientSecret) := tokenCredentials req
  .call (.getClient clientId) fun client =>
    if methodErrOf req clientSecret client ≠ "" then
      .ret (.http (.oauthError 401 "invalid_client" (methodErrOf req clientSecret client)))
    else clientCredentialsGrant cfg req clientId clientSecret

/-! ### GitHub -/

/-- The record of a GitHub login: the token itself is its key, not the hash. -/
def gitHubAccessToken (svc : TokenService) (accessTokenStr : String) (userId now : Int) :
    OAuth2AccessToken where
  token := accessTokenStr
  clientId := "vue-client"
  userId := toString userId
  scope := "openid profile email"
  issuedAt := now
  expiresAt := now + svc.accessTokenTtl
  issuer := svc.issuer

def gitHubRefreshToken (svc : TokenService) (refreshTokenStr accessTokenStr : String)
    (userId now : Int) : OAuth2RefreshToken where
  token := refreshTokenStr
  accessToken := accessTokenStr
  clientId := "vue-client"
  userId := toString userId
  scope := "openid profile email"
  expiresAt := now + svc.refreshTokenTtl

def issueTokensForUser (cfg : Config) (userId : Int) : IssueProg :=
  .call (.service (.generateSecureToken 32)) fun accessTokenStr =>
  .call (.service (.generateSecureToken 32)) fun refreshTokenStr =>
  .call (.service .nowSeconds) fun now =>
  .call (.service (.saveTokenPair
    (gitHubAccessToken cfg.tokenService accessTokenStr userId now)
    (gitHubRefreshToken cfg.tokenService refreshTokenStr accessTokenStr userId now))) fun ok =>
  if ok = false then
    .ret (.http (.error "INTERNAL_ERROR" "github login: failed to persist token pair"))
  else
    .ret (.gitHubTokens accessTokenStr refreshTokenStr cfg.tokenService.accessTokenTtl)

def gitHubLogin (cfg : Config) (code : String) : IssueProg :=
  .call (.gitHubUser code) fun
    | .error errorCode => .ret (.http (.error errorCode ("github login: " ++ errorCode)))
    | .ok userId => issueTokensForUser cfg userId

/-! ### The service -/

inductive IssueRequest
  | service (r : Request)
  | device (r : DeviceRequest)
  | clientCredentials (req : HttpRequest)
  | mfa (r : CodeRequest) (f : MfaController.VerifyFields)
  | gitHub (code : String)
  | revokeAccessToken (token revokedBy : String)
  | revokeRefreshToken (token : String)
  | incrementIntrospectCount (token : String)
  | purgeExpired

def program (cfg : Config) : IssueRequest → IssueProg
  | .service r => tokenService cfg r
  | .device r => deviceGrant cfg r
  | .clientCredentials req => clientCredentials cfg req
  | .mfa r f => completeMfa cfg r f
  | .gitHub code => gitHubLogin cfg code
  | .revokeAccessToken token revokedBy =>
    .call (.revokeAccessToken token revokedBy) fun _ => .ret .done
  | .revokeRefreshToken token => .call (.revokeRefreshToken token) fun _ => .ret .done
  | .incrementIntrospectCount token => .call (.incrementIntrospectCount token) fun _ => .ret .done
  | .purgeExpired => .call .purgeExpired fun _ => .ret .done

abbrev memoryTokens (clients : ClientRepository) (grants : GrantRepository) : Repositories :=
  ⟨clients, grants, Memory.tokenRepository⟩

structure IssueStore (clients : ClientRepository) (grants : GrantRepository) where
  store : Store (memoryTokens clients grants)
  deviceCodes : Dict String DeviceCode

variable {clients : ClientRepository} {grants : GrantRepository}

namespace IssueStore

def tokens (s : IssueStore clients grants) : Memory.Tokens := s.store.tokens

def withTokens (s : IssueStore clients grants) (tokens : Memory.Tokens) :
    IssueStore clients grants :=
  { s with store := { s.store with tokens } }

def forDevice (s : IssueStore clients grants) : DeviceStore clients Memory.tokenRepository :=
  ⟨s.store.clients, s.store.tokens, s.deviceCodes⟩

def exec (env : IssueEnv) :
    (op : IssueCall) → IssueStore clients grants → op.Resp × IssueStore clients grants
  | .service op, s =>
    let r := Store.exec env.toEnv op s.store
    (r.1, { s with store := r.2 })
  | .device op, s =>
    let r := DeviceStore.exec env.toEnv op s.forDevice
    (r.1, ⟨⟨r.2.clients, s.store.grants, r.2.tokens⟩, r.2.deviceCodes⟩)
  | .getClient clientId, s => (clients.getClient env.toEnv clientId s.store.clients, s)
  | .saveAccessToken token, s =>
    ((), s.withTokens (Memory.saveAccessToken env.now token s.tokens))
  | .revokeAccessToken token revokedBy, s =>
    ((), s.withTokens (Memory.revokeAccessToken env.now token revokedBy s.tokens))
  | .revokeRefreshToken token, s => ((), s.withTokens (Memory.revokeRefreshToken token s.tokens))
  | .incrementIntrospectCount token, s =>
    ((), s.withTokens (Memory.incrementIntrospectCount token s.tokens))
  | .purgeExpired, s => ((), s.withTokens (Memory.purgeExpired env.now s.tokens))
  | .gitHubUser _, s => (env.gitHubUser, s)

end IssueStore

def service (cfg : Config) (clients : ClientRepository) (grants : GrantRepository) :
    Service (IssueStore clients grants) IssueEnv IssueCall IssueCall.Resp IssueRequest
      IssueReply where
  exec := IssueStore.exec
  program := program cfg

abbrev IssueEvent := Service.Event IssueEnv IssueCall IssueCall.Resp IssueRequest

end AuthForge.Http.Issuance
