import AuthForge.Http.DeviceGrant

/-!
# The device grant, statement by statement

Approval and polling as programs over single SQL statements, with the repository calls, clock
readings and random draws between them. Approval looks the code up by its user code, looks it up
again by its hash and then updates it; a poll reads the row and consumes it by a conditional update
before it saves a token pair.
-/

namespace AuthForge.Http.DeviceStatements

open OAuth2 DeviceGrant

inductive DeviceCall
  | getClient (clientId : String)
  | validateClient (clientId clientSecret : String)
  | nowSeconds
  | generateSecureToken (bytes : Nat)
  /-- `DeviceCodeService::findByUserCode`. -/
  | findByUserCode (userCode : String)
  /-- The `findOne` of `DeviceCodeService::markApproved`. -/
  | findOne (deviceCodeHash : String)
  /-- The `update` of `DeviceCodeService::markApproved`, which writes the columns it set. -/
  | setApproved (deviceCodeHash userId : String)
  /-- The `findBy` of the poll. -/
  | findBy (deviceCodeHash : String)
  | setPolled (deviceCodeHash : String) (interval : Option Int) (lastPolledAt : Int)
  /-- `UPDATE ... SET status = 'consumed' WHERE ... AND status = 'approved' RETURNING ...`. -/
  | consume (deviceCodeHash : String)
  | saveTokenPair (access : OAuth2AccessToken) (refresh : OAuth2RefreshToken)

/-- Answers; `none` where a statement that does not answer by a row throws. -/
@[reducible] def DeviceCall.Resp : DeviceCall → Type
  | .getClient _ => Option OAuth2Client
  | .validateClient _ _ => Bool
  | .nowSeconds => Int
  | .generateSecureToken _ => String
  | .findByUserCode _ => Option (String × DeviceCode)
  | .findOne _ => Option DeviceCode
  | .setApproved _ _ => Bool
  | .findBy _ => Option (Option DeviceCode)
  | .setPolled _ _ _ => Unit
  | .consume _ => Option Bool
  | .saveTokenPair _ _ => Bool

inductive DeviceRequest
  | approve (req : HttpRequest)
  | poll (req : HttpRequest)

abbrev DeviceProg := Prog DeviceCall DeviceCall.Resp Response
abbrev DeviceAnswer := Answer DeviceCall DeviceCall.Resp
abbrev DeviceEvent := Service.Event Env DeviceCall DeviceCall.Resp DeviceRequest

/-! ### Approval -/

def markApproved (deviceCodeHash userId : String) (cb : Bool → DeviceProg) : DeviceProg :=
  .call (.findOne deviceCodeHash) fun
    | none => cb false
    | some _ => .call (.setApproved deviceCodeHash userId) cb

def approveDevice (req : HttpRequest) : DeviceProg :=
  let userCode := req.getParameter "user_code"
  let userId := req.getParameter "user_id"
  if userCode = "" then
    .ret (.error "VALIDATION_MISSING_REQUIRED_FIELD" "approveDevice: user_code is required")
  else if userId = "" then
    .ret (.error "VALIDATION_MISSING_REQUIRED_FIELD" "approveDevice: user_id is required")
  else
    .call (.findByUserCode userCode) fun
      | none => .ret (.error "VALIDATION_DEVICE_CODE_INVALID" "approveDevice: invalid user_code")
      | some (deviceCodeHash, code) =>
        if code.status ≠ .pending then
          .ret (.error "VALIDATION_DEVICE_CODE_INVALID"
            "approveDevice: user_code already processed")
        else
          .call .nowSeconds fun now =>
            if now ≥ code.expiresAt then
              .ret (.error "VALIDATION_DEVICE_CODE_INVALID" "approveDevice: user_code expired")
            else
              markApproved deviceCodeHash userId fun success =>
                if success then .ret (.deviceApproved userCode)
                else
                  .ret (.error "VALIDATION_DEVICE_CODE_INVALID"
                    "approveDevice: failed to approve device code")

/-! ### Polling -/

/-- The clock reading and the draws of one redemption, as the request-level model names them. -/
def drawn (now : Int) (accessTokenStr refreshTokenStr familyId : String) : RequestEnv where
  now
  random
    | 0 => accessTokenStr
    | 1 => refreshTokenStr
    | _ => familyId

def issue (cfg : Config) (row : DeviceCode) (now : Int) : DeviceProg :=
  .call (.generateSecureToken 32) fun accessTokenStr =>
  .call (.generateSecureToken 32) fun refreshTokenStr =>
  .call (.generateSecureToken 16) fun familyId =>
  let env := drawn now accessTokenStr refreshTokenStr familyId
  .call (.saveTokenPair (deviceAccessToken cfg env row) (deviceRefreshToken cfg env row)) fun ok =>
    if ok then .ret (.deviceTokens (deviceTokenResponse cfg env row) row.scope)
    else .ret (.oauthError 500 "server_error" "Failed to persist token pair")

def pollPending (deviceCodeHash : String) (row : DeviceCode) (now : Int) : DeviceProg :=
  if row.lastPolledAt > 0 ∧ now - row.lastPolledAt < row.intervalSeconds then
    .call (.setPolled deviceCodeHash (some (row.intervalSeconds + 5)) now) fun _ =>
      .ret (.slowDown (row.intervalSeconds + 5))
  else
    .call (.setPolled deviceCodeHash none now) fun _ =>
      .ret (.oauthError 400 "authorization_pending" "The authorization request is still pending")

def pollApproved (cfg : Config) (deviceCodeHash : String) (row : DeviceCode) (now : Int) :
    DeviceProg :=
  .call (.consume deviceCodeHash) fun
    | none => .ret (.oauthError 500 "server_error" "Failed to consume device code")
    | some false =>
      .ret (.oauthError 400 "invalid_grant" "device code already consumed or no longer approved")
    | some true => issue cfg row now

def runDeviceCodeLookup (cfg : Config) (clientId deviceCodeHash : String) : DeviceProg :=
  .call (.findBy deviceCodeHash) fun
    | none => .ret (.oauthError 500 "server_error" "Failed to process device code")
    | some none => .ret (.oauthError 400 "invalid_grant" "Invalid device_code")
    | some (some row) =>
      if row.clientId ≠ clientId then
        .ret (.oauthError 400 "invalid_grant" "client_id mismatch")
      else
        .call .nowSeconds fun now =>
          if now ≥ row.expiresAt then
            .ret (.oauthError 400 "expired_token" "The device_code has expired")
          else
            match row.status with
            | .pending => pollPending deviceCodeHash row now
            | .denied =>
              .ret (.oauthError 400 "access_denied" "The user denied the authorization request")
            | .consumed => .ret (.oauthError 400 "invalid_grant" "Invalid device code status")
            | .approved => pollApproved cfg deviceCodeHash row now

def presentedHash (cfg : Config) (req : HttpRequest) : String :=
  hashToken cfg.tokenService.crypto (req.getParameter "device_code")

def deviceCodeGrant (cfg : Config) (req : HttpRequest) (clientId clientSecret : String) :
    DeviceProg :=
  if req.getParameter "device_code" = "" ∨ clientId = "" then
    .ret (.oauthError 400 "invalid_request" "device_code and client_id are required")
  else
    .call (.getClient clientId) fun
      | none => .ret (.oauthError 401 "invalid_client" "Client authentication failed")
      | some client =>
        if client.clientType = .CONFIDENTIAL then
          .call (.validateClient clientId clientSecret) fun
            | false => .ret (.oauthError 401 "invalid_client" "Client authentication failed")
            | true => runDeviceCodeLookup cfg clientId (presentedHash cfg req)
        else runDeviceCodeLookup cfg clientId (presentedHash cfg req)

def methodErrOf (req : HttpRequest) (clientSecret : String) : Option OAuth2Client → String
  | none => ""
  | some client =>
    enforceClientAuthMethod client.tokenEndpointAuthMethod clientSecret req.basic.isSome
      ("client_secret" ∈ req.params)

def deviceToken (cfg : Config) (req : HttpRequest) : DeviceProg :=
  let (clientId, clientSecret) := tokenCredentials req
  .call (.getClient clientId) fun client =>
    if methodErrOf req clientSecret client ≠ "" then
      .ret (.oauthError 401 "invalid_client" (methodErrOf req clientSecret client))
    else deviceCodeGrant cfg req clientId clientSecret

/-! ### The statements -/

structure DeviceStore (clients : ClientRepository) (tokens : TokenRepository) where
  clients : clients.State
  tokens : tokens.State
  deviceCodes : Dict String DeviceCode

def updateRow (deviceCodes : Dict String DeviceCode) (deviceCodeHash : String)
    (f : DeviceCode → DeviceCode) : Dict String DeviceCode :=
  deviceCodes.mapValues fun key row => if key = deviceCodeHash then f row else row

def isApproved (deviceCodes : Dict String DeviceCode) (deviceCodeHash : String) : Bool :=
  (deviceCodes.lookup deviceCodeHash).any fun row => row.status = .approved

def findRow (deviceCodes : Dict String DeviceCode) (userCode : String) :
    Option (String × DeviceCode) :=
  match deviceCodes.entries.filter fun e => e.2.userCode = userCode with
  | [e] => some (e.1, e.2)
  | _ => none

theorem lookup_updateRow {deviceCodes : Dict String DeviceCode} {deviceCodeHash key : String}
    {f : DeviceCode → DeviceCode} :
    (updateRow deviceCodes deviceCodeHash f).lookup key =
      (deviceCodes.lookup key).map fun row => if key = deviceCodeHash then f row else row :=
  Dict.lookup_mapValues _ _ key

variable {clients : ClientRepository} {tokens : TokenRepository}

def DeviceStore.exec (env : Env) : (op : DeviceCall) → DeviceStore clients tokens →
    op.Resp × DeviceStore clients tokens
  | .getClient clientId, s => (clients.getClient env clientId s.clients, s)
  | .validateClient clientId clientSecret, s =>
    (clients.validateClient env clientId clientSecret s.clients, s)
  | .nowSeconds, s => (env.now, s)
  | .generateSecureToken _, s => (env.random, s)
  | .findByUserCode userCode, s =>
    (if env.fails then none else findRow s.deviceCodes userCode, s)
  | .findOne deviceCodeHash, s =>
    (if env.fails then none else s.deviceCodes.lookup deviceCodeHash, s)
  | .setApproved deviceCodeHash userId, s =>
    if env.fails then (false, s)
    else
      (true,
        { s with
          deviceCodes := updateRow s.deviceCodes deviceCodeHash fun row =>
            { row with userId, status := .approved } })
  | .findBy deviceCodeHash, s =>
    (if env.fails then none else some (s.deviceCodes.lookup deviceCodeHash), s)
  | .setPolled deviceCodeHash interval lastPolledAt, s =>
    if env.fails then ((), s)
    else
      ((),
        { s with
          deviceCodes := updateRow s.deviceCodes deviceCodeHash fun row =>
            { row with intervalSeconds := interval.getD row.intervalSeconds, lastPolledAt } })
  | .consume deviceCodeHash, s =>
    if env.fails then (none, s)
    else
      (some (isApproved s.deviceCodes deviceCodeHash),
        { s with
          deviceCodes := updateRow s.deviceCodes deviceCodeHash fun row =>
            if row.status = .approved then { row with status := .consumed } else row })
  | .saveTokenPair access refresh, s =>
    let r := tokens.saveTokenPair env access refresh s.tokens
    (r.1, { s with tokens := r.2 })

def program (cfg : Config) : DeviceRequest → DeviceProg
  | .approve req => approveDevice req
  | .poll req => deviceToken cfg req

/-- Approvals and polls over given repositories, at the granularity of statements. -/
def service (cfg : Config) (clients : ClientRepository) (tokens : TokenRepository) :
    Service (DeviceStore clients tokens) Env DeviceCall DeviceCall.Resp DeviceRequest Response where
  exec := DeviceStore.exec
  program := program cfg

end AuthForge.Http.DeviceStatements
