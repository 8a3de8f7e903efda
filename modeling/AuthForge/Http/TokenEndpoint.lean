import AuthForge.Admin.ClientRegistration
import AuthForge.Base.Masking
import AuthForge.Http.Issuance

/-!
# The token endpoint

`TokenEndpointController::token` with its four grants, beside the requests that register clients. The
clients are in the database; codes, tokens and device codes are in any storage.
-/

namespace AuthForge.Http

open Regex in
/-- `^[a-zA-Z0-9._-]+$`. -/
def TOKEN_PATTERN : Regex UInt8 := plus (.sat fun b => isAlnum b || oneOf "._-" b)

def TOKEN_MIN_LEN : Nat := 32

namespace RuleEngine

def validateToken (token : String) : Result :=
  if token = "" then notEmpty token
  else if byteLength token < TOKEN_MIN_LEN then
    some ("Token must be at least " ++ toString TOKEN_MIN_LEN ++ " characters")
  else if TOKEN_PATTERN.accepts (bytes token) = false then some "Format is invalid"
  else none

end RuleEngine

namespace RuleSet

def deviceCodeGrantType : String := "urn:ietf:params:oauth:grant-type:device_code"

def grantTypes : List String :=
  ["authorization_code", "refresh_token", "client_credentials", deviceCodeGrantType]

def validateGrantType (type : String) : Option String :=
  if type = "" then some "grant_type is required"
  else if type ∉ grantTypes then
    some ("grant_type must be 'authorization_code', 'refresh_token', " ++
      "'client_credentials', or 'urn:ietf:params:oauth:grant-type:device_code'")
  else none

def validateToken (token : String) : Option String :=
  if token = "" then some "token is required" else RuleEngine.validateToken token

/-- Only the parameters of the grant are looked at. -/
def grantErrors (req : HttpRequest) : List (Option String) :=
  let grantType := req.getParameter "grant_type"
  let clientId := req.getParameter "client_id"
  if grantType = "authorization_code" then
    [(validateToken (req.getParameter "code")).map ("code: " ++ ·),
     if clientId = "" then none else validateClientId clientId]
  else if grantType = "refresh_token" then
    [(validateToken (req.getParameter "refresh_token")).map ("refresh_token: " ++ ·)]
  else []

def oauth2Token (req : HttpRequest) : List String :=
  (validateGrantType (req.getParameter "grant_type") :: grantErrors req).filterMap id

end RuleSet

namespace TokenEndpoint

open OAuth2 DeviceGrant DeviceStatements Issuance Storage Admin.ClientRegistration

/-! ### The grants -/

def exchangeRequest (req : HttpRequest) (clientId clientSecret : String) : ExchangeRequest where
  code := req.getParameter "code"
  clientId
  clientSecret
  redirectUri := req.getParameter "redirect_uri"
  codeVerifier := req.getParameter "code_verifier"

def invalidClient (description : String) : IssueProg :=
  .ret (.http (.oauthError 401 "invalid_client" description))

def refreshTokenGrant (cfg : Config) (req : HttpRequest) (clientId clientSecret : String) :
    IssueProg :=
  let proceedRefresh := tokenService cfg (.refresh ⟨req.getParameter "refresh_token", clientId⟩)
  .call (.getClient clientId) fun
    | none => invalidClient "Unknown client_id"
    | some client =>
      if client.clientType = .CONFIDENTIAL then
        if clientSecret = "" then
          invalidClient "Client authentication required for refresh_token grant"
        else
          .call (.service (.validateClient clientId clientSecret)) fun
            | false => invalidClient "Client authentication failed"
            | true => proceedRefresh
      else proceedRefresh

def deviceCode (cfg : Config) (req : HttpRequest) (clientId clientSecret : String) : IssueProg :=
  (onDevice (deviceCodeGrant cfg req clientId clientSecret)).bind fun response =>
    .ret (.http response)

def dispatchGrant (cfg : Config) (req : HttpRequest) (clientId clientSecret : String) :
    IssueProg :=
  let grantType := req.getParameter "grant_type"
  if grantType = "authorization_code" then
    tokenService cfg (.exchange (exchangeRequest req clientId clientSecret))
  else if grantType = "refresh_token" then refreshTokenGrant cfg req clientId clientSecret
  else if grantType = "client_credentials" then
    clientCredentialsGrant cfg req clientId clientSecret
  else if grantType = RuleSet.deviceCodeGrantType then deviceCode cfg req clientId clientSecret
  else
    .ret (.http (.oauthError 400 "unsupported_grant_type"
      ("Supported types: authorization_code, refresh_token, client_credentials, " ++
        "urn:ietf:params:oauth:grant-type:device_code")))

/-- The declared authentication method is enforced before the grant is looked at; an unknown client
passes. -/
def token (cfg : Config) (req : HttpRequest) : IssueProg :=
  match RuleSet.oauth2Token req with
  | error :: _ => .ret (.http (.oauthError 400 "invalid_request" error))
  | [] =>
    let (clientId, clientSecret) := tokenCredentials req
    .call (.getClient clientId) fun client =>
      if methodErrOf req clientSecret client ≠ "" then
        invalidClient (methodErrOf req clientSecret client)
      else dispatchGrant cfg req clientId clientSecret

/-! ### The service -/

inductive EndpointCall
  | issue (op : IssueCall)
  | client (op : ClientCall)

@[reducible] def EndpointCall.Resp : EndpointCall → Type
  | .issue op => op.Resp
  | .client op => op.Resp

inductive EndpointRequest
  | token (req : HttpRequest)
  | client (r : ClientRequest)
  /-- Whatever else issues or revokes. -/
  | issue (r : IssueRequest)

inductive EndpointReply
  | issue (reply : IssueReply)
  | client (reply : ClientReply)

abbrev EndpointAnswer := Answer EndpointCall EndpointCall.Resp
abbrev EndpointProg := Prog EndpointCall EndpointCall.Resp EndpointReply

def onIssue (p : IssueProg) : EndpointProg :=
  (p.embed .issue fun _ r => r : Prog EndpointCall EndpointCall.Resp IssueReply).bind fun reply =>
    .ret (.issue reply)

def onClient (p : ClientProg) : EndpointProg :=
  (p.embed .client fun _ r => r : Prog EndpointCall EndpointCall.Resp ClientReply).bind
    fun reply => .ret (.client reply)

def program (cfg : ClientConfig) : EndpointRequest → EndpointProg
  | .token req => onIssue (token cfg.toConfig req)
  | .client r => onClient (Admin.ClientRegistration.program cfg r)
  | .issue r => onIssue (Issuance.program cfg.toConfig r)

/-- How everything but the clients is executed. -/
abbrev Rest (σ : Type) := IssueEnv → (op : IssueCall) → σ → op.Resp × σ

/-- A call that looks at a client, executed on the tables. -/
def onTables (sha256Hex : String → String) (env : Env) : (op : IssueCall) → ClientTables →
    Option op.Resp
  | .getClient clientId, T => some (T.getClient env clientId)
  | .device (.getClient clientId), T => some (T.getClient env clientId)
  | .service (.validateClient clientId clientSecret), T =>
    some (T.validateClient sha256Hex env clientId clientSecret)
  | .device (.validateClient clientId clientSecret), T =>
    some (T.validateClient sha256Hex env clientId clientSecret)
  | _, _ => none

variable {σ : Type}

def exec (sha256Hex : String → String) (rest : Rest σ) (env : IssueEnv) :
    (op : EndpointCall) → ClientTables × σ → op.Resp × (ClientTables × σ)
  | .issue op, (T, s) =>
    match onTables sha256Hex env.toEnv op T with
    | some r => (r, T, s)
    | none =>
      let r := rest env op s
      (r.1, T, r.2)
  | .client op, (T, s) =>
    let r := Admin.ClientRegistration.exec env.toEnv op T
    (r.1, r.2, s)

def service (cfg : ClientConfig) (rest : Rest σ) :
    Service (ClientTables × σ) IssueEnv EndpointCall EndpointCall.Resp EndpointRequest
      EndpointReply where
  exec := exec cfg.tokenService.crypto.sha256Hex rest
  program := program cfg

/-- In every run the repository offers the clients that its tables stand for. -/
theorem keyed_of_run {cfg : ClientConfig} {rest : Rest σ} {T : ClientTables} {s : σ}
    {ok : Guard (Service.Pool (service cfg rest)) (Service.Input IssueEnv EndpointRequest)
      (Service.Event IssueEnv EndpointCall EndpointCall.Resp EndpointRequest)}
    {history : List (Service.Event IssueEnv EndpointCall EndpointCall.Resp EndpointRequest)}
    {p : Service.Pool (service cfg rest)} (hT : T.Keyed)
    (hrun : (service cfg rest).machine.Run ok ((service cfg rest).start (T, s)) history p) :
    p.shared.1.Keyed := by
  have hkeeps {s : ClientTables × σ} (hs : s.1.Keyed) (env : IssueEnv) (op : EndpointCall) :
      (exec cfg.tokenService.crypto.sha256Hex rest env op s).2.1.Keyed := by
    obtain ⟨T, s⟩ := s
    cases op with
    | issue op =>
      simp only [exec]
      split <;> exact hs
    | client op =>
      cases op with
      | insertClient row => exact hs.insertClient env.toEnv row
      | replaceScopes clientId scopes => exact hs.replaceScopes env.toEnv clientId scopes
      | _ => exact hs
  have hstart : ((T, s) : ClientTables × σ).1.Keyed := hT
  exact Service.shared_of_run (P := fun s => s.1.Keyed) hkeeps hstart hrun

end TokenEndpoint

end AuthForge.Http
