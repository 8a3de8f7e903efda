import AuthForge.Http.World

/-!
# The device grant

`DeviceAuthController` and the `device_code` branch of `TokenEndpointController::token`. The scope of
the authorization request is stored with the device code as it is and copied to the token pair; the
user is whoever the approval names.
-/

namespace AuthForge.Http.DeviceGrant

open OAuth2

variable {b : Backend}

/-! ### Authorization request -/

def DEVICE_CODE_LIFETIME_SECONDS : Int := 600
def POLLING_INTERVAL_SECONDS : Int := 5

/-- `extractDeviceClientCredentials`: a Basic header hides the parameters, even when it does not
decode. -/
def extractDeviceClientCredentials (req : HttpRequest) : String × String :=
  match req.basic with
  | some (some credentials) => credentials
  | some none => ("", "")
  | none => (req.getParameter "client_id", req.getParameter "client_secret")

def keysFree (w : World b) (deviceCodeHash userCode : String) : Bool :=
  deviceCodeHash ∉ w.deviceCodes && !w.deviceCodes.anyValue (·.userCode = userCode)

def newDeviceCode (env : RequestEnv) (clientId scope : String) : DeviceCode :=
  { userCode := env.random 1, clientId, scope
    expiresAt := env.now + DEVICE_CODE_LIFETIME_SECONDS
    intervalSeconds := POLLING_INTERVAL_SECONDS }

def deviceAuthorizationInner (cfg : Config) (w : World b) (env : RequestEnv)
    (clientId scope : String) : Outcome b :=
  let deviceCodeHash := hashToken cfg.tokenService.crypto (env.random 0)
  if env.fails .insertDeviceCode = true ∨ keysFree w deviceCodeHash (env.random 1) = false then
    w.answer (.oauthError 500 "server_error" "Failed to store device authorization")
  else
    { world :=
        { w with
          deviceCodes := w.deviceCodes.insert deviceCodeHash (newDeviceCode env clientId scope) }
      response := .deviceAuthorized (env.random 0) (env.random 1) cfg.verificationUri
        DEVICE_CODE_LIFETIME_SECONDS POLLING_INTERVAL_SECONDS }

def deviceAuthorization (cfg : Config) (w : World b) (req : HttpRequest) (env : RequestEnv) :
    Outcome b :=
  let (clientId, clientSecret) := extractDeviceClientCredentials req
  if clientId = "" then w.answer (.oauthError 400 "invalid_request" "client_id is required")
  else
    match w.getClient env .getClient clientId with
    | none => w.answer (.oauthError 401 "invalid_client" "Unknown client_id")
    | some client =>
      if client.clientType = .CONFIDENTIAL ∧ clientSecret = "" then
        w.answer (.oauthError 401 "invalid_client"
          "Client authentication required for device authorization")
      else if client.clientType = .CONFIDENTIAL ∧
          w.validateClient env clientId clientSecret = false then
        w.answer (.oauthError 401 "invalid_client" "Client authentication failed")
      else deviceAuthorizationInner cfg w env clientId (req.getParameter "scope")

/-! ### Approval -/

def findByUserCode (w : World b) (userCode : String) : Option (String × DeviceCode) :=
  match w.deviceCodes.entries.filter fun e => e.2.userCode = userCode with
  | [e] => some (e.1, e.2)
  | _ => none

def approveDevice (w : World b) (req : HttpRequest) (env : RequestEnv) : Outcome b :=
  let userCode := req.getParameter "user_code"
  let userId := req.getParameter "user_id"
  if userCode = "" then
    w.answer (.error "VALIDATION_MISSING_REQUIRED_FIELD" "approveDevice: user_code is required")
  else if userId = "" then
    w.answer (.error "VALIDATION_MISSING_REQUIRED_FIELD" "approveDevice: user_id is required")
  else
    match if env.fails .findDeviceCode then none else findByUserCode w userCode with
    | none => w.answer (.error "VALIDATION_DEVICE_CODE_INVALID" "approveDevice: invalid user_code")
    | some (deviceCodeHash, row) =>
      if row.status ≠ .pending then
        w.answer (.error "VALIDATION_DEVICE_CODE_INVALID"
          "approveDevice: user_code already processed")
      else if env.now ≥ row.expiresAt then
        w.answer (.error "VALIDATION_DEVICE_CODE_INVALID" "approveDevice: user_code expired")
      else if env.fails .updateDeviceCode then
        w.answer (.error "VALIDATION_DEVICE_CODE_INVALID"
          "approveDevice: failed to approve device code")
      else
        { world :=
            { w with
              deviceCodes := w.deviceCodes.insert deviceCodeHash
                { row with userId, status := .approved } }
          response := .deviceApproved userCode }

/-! ### Polling the token endpoint -/

/-- Client id and secret at the token endpoint: what the Basic header leaves empty is read from the
parameters. -/
def tokenCredentials (req : HttpRequest) : String × String :=
  let (clientId, clientSecret) := (req.basic.bind id).getD ("", "")
  (if clientId = "" then req.getParameter "client_id" else clientId,
    if clientSecret = "" then req.getParameter "client_secret" else clientSecret)

/-- The declared authentication method of the client is enforced; the empty text is no error. -/
def enforceClientAuthMethod (declaredMethod clientSecret : String) (basic secretInBody : Bool) :
    String :=
  if declaredMethod = "none" then
    if clientSecret = "" then ""
    else "client declared token_endpoint_auth_method=none but supplied a client_secret"
  else if declaredMethod = "client_secret_basic" then
    if basic = false then
      "client requires token_endpoint_auth_method=client_secret_basic (HTTP Basic)"
    else if secretInBody then
      "client_secret must not be sent in the body for client_secret_basic clients"
    else ""
  else if declaredMethod = "client_secret_post" then
    if basic then "client requires token_endpoint_auth_method=client_secret_post (body)" else ""
  else ""

def signIdToken (cfg : Config) (userId clientId scope : String) (now : Int) : Option String :=
  if TokenService.scopeContains scope "openid" then
    cfg.tokenService.signJwt.map fun sign =>
      sign
        { iss := cfg.tokenService.issuer, sub := userId, aud := clientId, iat := now
          exp := now + cfg.tokenService.accessTokenTtl }
  else none

def deviceAccessToken (cfg : Config) (env : RequestEnv) (row : DeviceCode) : OAuth2AccessToken where
  token := hashToken cfg.tokenService.crypto (env.random 0)
  clientId := row.clientId
  userId := row.userId
  scope := row.scope
  issuedAt := env.now
  expiresAt := env.now + cfg.tokenService.accessTokenTtl
  issuer := cfg.tokenService.issuer

def deviceRefreshToken (cfg : Config) (env : RequestEnv) (row : DeviceCode) :
    OAuth2RefreshToken where
  token := hashToken cfg.tokenService.crypto (env.random 1)
  accessToken := (deviceAccessToken cfg env row).token
  clientId := row.clientId
  userId := row.userId
  scope := row.scope
  expiresAt := env.now + cfg.tokenService.refreshTokenTtl
  familyId := env.random 2

def deviceTokenResponse (cfg : Config) (env : RequestEnv) (row : DeviceCode) : TokenResponse where
  accessToken := env.random 0
  expiresIn := cfg.tokenService.accessTokenTtl
  refreshToken := env.random 1
  idToken := signIdToken cfg row.userId row.clientId row.scope env.now

def redeem (cfg : Config) (w : World b) (env : RequestEnv) (deviceCodeHash : String)
    (row : DeviceCode) : Outcome b :=
  if env.fails .updateDeviceCode then
    w.answer (.oauthError 500 "server_error" "Failed to consume device code")
  else
    let deviceCodes := w.deviceCodes.insert deviceCodeHash { row with status := .consumed }
    let access := deviceAccessToken cfg env row
    match b.repos.tokens.saveTokenPair (env.client .saveTokenPair) access
      (deviceRefreshToken cfg env row) w.store.tokens with
    | (false, tokens) =>
      World.answer { w with deviceCodes, store := { w.store with tokens } }
        (.oauthError 500 "server_error" "Failed to persist token pair")
    | (true, tokens) =>
      { world := { w with deviceCodes, store := { w.store with tokens } }
        response := .deviceTokens (deviceTokenResponse cfg env row) row.scope
        log := [.pairIssued access] }

def pollPending (w : World b) (env : RequestEnv) (deviceCodeHash : String) (row : DeviceCode) :
    Outcome b :=
  let tooFast := row.lastPolledAt > 0 ∧ env.now - row.lastPolledAt < row.intervalSeconds
  let interval := if tooFast then row.intervalSeconds + 5 else row.intervalSeconds
  let polled := { row with intervalSeconds := interval, lastPolledAt := env.now }
  let w' : World b :=
    if env.fails .updateDeviceCode then w
    else { w with deviceCodes := w.deviceCodes.insert deviceCodeHash polled }
  w'.answer
    (if tooFast then .slowDown interval
     else .oauthError 400 "authorization_pending" "The authorization request is still pending")

def deviceCodeLookup (cfg : Config) (w : World b) (env : RequestEnv)
    (clientId deviceCodeHash : String) : Outcome b :=
  if env.fails .findDeviceCode then
    w.answer (.oauthError 500 "server_error" "Failed to process device code")
  else
    match w.deviceCodes.lookup deviceCodeHash with
    | none => w.answer (.oauthError 400 "invalid_grant" "Invalid device_code")
    | some row =>
      if row.clientId ≠ clientId then
        w.answer (.oauthError 400 "invalid_grant" "client_id mismatch")
      else if env.now ≥ row.expiresAt then
        w.answer (.oauthError 400 "expired_token" "The device_code has expired")
      else
        match row.status with
        | .pending => pollPending w env deviceCodeHash row
        | .denied =>
          w.answer (.oauthError 400 "access_denied" "The user denied the authorization request")
        | .consumed => w.answer (.oauthError 400 "invalid_grant" "Invalid device code status")
        | .approved => redeem cfg w env deviceCodeHash row

def deviceCodeGrant (cfg : Config) (w : World b) (req : HttpRequest) (env : RequestEnv)
    (clientId clientSecret : String) : Outcome b :=
  let deviceCode := req.getParameter "device_code"
  if deviceCode = "" ∨ clientId = "" then
    w.answer (.oauthError 400 "invalid_request" "device_code and client_id are required")
  else
    match w.getClient env .getClient clientId with
    | none => w.answer (.oauthError 401 "invalid_client" "Client authentication failed")
    | some client =>
      if client.clientType = .CONFIDENTIAL ∧
          w.validateClient env clientId clientSecret = false then
        w.answer (.oauthError 401 "invalid_client" "Client authentication failed")
      else
        deviceCodeLookup cfg w env clientId (hashToken cfg.tokenService.crypto deviceCode)

/-- The method error of the client that the request names; an unknown client has none. -/
def methodErr (w : World b) (req : HttpRequest) (env : RequestEnv)
    (clientId clientSecret : String) : String :=
  match w.getClient env .getClient clientId with
  | none => ""
  | some client =>
    enforceClientAuthMethod client.tokenEndpointAuthMethod clientSecret req.basic.isSome
      ("client_secret" ∈ req.params)

def deviceToken (cfg : Config) (w : World b) (req : HttpRequest) (env : RequestEnv) : Outcome b :=
  let (clientId, clientSecret) := tokenCredentials req
  if methodErr w req env clientId clientSecret ≠ "" then
    w.answer (.oauthError 401 "invalid_client" (methodErr w req env clientId clientSecret))
  else deviceCodeGrant cfg w req env clientId clientSecret

/-! ### What the device requests do -/

inductive DeviceAuthorizationCase (w : World b) (req : HttpRequest) (env : RequestEnv) :
    Outcome b → Prop
  | answered {response : Response} : DeviceAuthorizationCase w req env (w.answer response)
  | stored {deviceCodeHash : String} {response : Response} :
      DeviceAuthorizationCase w req env
        { world :=
            { w with
              deviceCodes := w.deviceCodes.insert deviceCodeHash
                (newDeviceCode env (extractDeviceClientCredentials req).1
                  (req.getParameter "scope")) }
          response }

inductive ApproveCase (w : World b) (req : HttpRequest) : Outcome b → Prop
  | answered {response : Response} : ApproveCase w req (w.answer response)
  | approved {deviceCodeHash : String} {row : DeviceCode} {response : Response}
      (hfound : findByUserCode w (req.getParameter "user_code") = some (deviceCodeHash, row)) :
      ApproveCase w req
        { world :=
            { w with
              deviceCodes := w.deviceCodes.insert deviceCodeHash
                { row with userId := req.getParameter "user_id", status := .approved } }
          response }

/-- A poll answers or updates the row it finds, and an approved row gives one token pair. -/
inductive PollCase (cfg : Config) (w : World b) (env : RequestEnv) : Outcome b → Prop
  | answered {response : Response} : PollCase cfg w env (w.answer response)
  | polled {deviceCodeHash : String} {row : DeviceCode} {interval lastPolledAt : Int}
      {response : Response} (hrow : w.deviceCodes.lookup deviceCodeHash = some row) :
      PollCase cfg w env
        { world :=
            { w with
              deviceCodes := w.deviceCodes.insert deviceCodeHash
                { row with intervalSeconds := interval, lastPolledAt } }
          response }
  | redeemed {deviceCodeHash : String} {row : DeviceCode} {response : Response}
      {tokens : b.tokens.State} {log : List Action}
      (hrow : w.deviceCodes.lookup deviceCodeHash = some row) (happroved : row.status = .approved)
      (hlog : log = [] ∨ log = [.pairIssued (deviceAccessToken cfg env row)]) :
      PollCase cfg w env
        { world :=
            { w with
              deviceCodes := w.deviceCodes.insert deviceCodeHash { row with status := .consumed }
              store := { w.store with tokens } }
          response
          log }

variable {cfg : Config} {w : World b} {req : HttpRequest} {env : RequestEnv}

theorem deviceAuthorization_cases :
    DeviceAuthorizationCase w req env (deviceAuthorization cfg w req env) := by
  unfold deviceAuthorization
  simp only
  split
  · exact .answered
  split
  · exact .answered
  split
  · exact .answered
  split
  · exact .answered
  unfold deviceAuthorizationInner
  simp only
  split
  · exact .answered
  · exact .stored

theorem approveDevice_cases : ApproveCase w req (approveDevice w req env) := by
  unfold approveDevice
  simp only
  split
  · exact .answered
  split
  · exact .answered
  split
  · exact .answered
  · rename_i hash row hfound
    split
    · exact .answered
    split
    · exact .answered
    split
    · exact .answered
    refine .approved ?_
    split at hfound
    · cases hfound
    · exact hfound

theorem redeem_cases {deviceCodeHash : String} {row : DeviceCode}
    (hrow : w.deviceCodes.lookup deviceCodeHash = some row) (happroved : row.status = .approved) :
    PollCase cfg w env (redeem cfg w env deviceCodeHash row) := by
  unfold redeem
  split
  · exact .answered
  simp only
  split
  · exact .redeemed hrow happroved (.inl rfl)
  · exact .redeemed hrow happroved (.inr rfl)

theorem pollPending_cases {deviceCodeHash : String} {row : DeviceCode}
    (hrow : w.deviceCodes.lookup deviceCodeHash = some row) :
    PollCase cfg w env (pollPending w env deviceCodeHash row) := by
  unfold pollPending
  by_cases hfails : env.fails .updateDeviceCode = true
  · simp only [hfails, if_true]
    exact .answered
  · simp only [hfails]
    exact .polled hrow

theorem deviceCodeLookup_cases {clientId deviceCodeHash : String} :
    PollCase cfg w env (deviceCodeLookup cfg w env clientId deviceCodeHash) := by
  unfold deviceCodeLookup
  split
  · exact .answered
  split
  · exact .answered
  · rename_i row hrow
    split
    · exact .answered
    split
    · exact .answered
    split
    · exact pollPending_cases hrow
    · exact .answered
    · exact .answered
    · rename_i happroved
      exact redeem_cases hrow happroved

theorem deviceToken_cases : PollCase cfg w env (deviceToken cfg w req env) := by
  unfold deviceToken
  simp only
  split
  · exact .answered
  unfold deviceCodeGrant
  simp only
  split
  · exact .answered
  split
  · exact .answered
  split
  · exact .answered
  · exact deviceCodeLookup_cases

end AuthForge.Http.DeviceGrant
