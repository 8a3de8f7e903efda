import AuthForge.Http.World
import AuthForge.Storage.ClientTables

/-!
# Registering clients

`ClientRegistrationService::registerClient`, which takes JSON arrays and accepts three grant types,
and `ClientManagementService::createClient`, which takes the comma-separated texts of the columns as
they are; and the scopes that an administrator gives a client. Both store the list of allowed grant
types.
-/

namespace AuthForge.Admin.ClientRegistration

open OAuth2 Http Storage

structure ClientConfig extends Config where
  allowPrivateBackchannelLogoutUri : Bool := false

inductive ClientCall
  | getUuid
  | generateSecureToken (bytes : Nat)
  | nowSeconds
  | insertClient (row : Oauth2Clients)
  | replaceScopes (clientId : String) (scopes : List String)

@[reducible] def ClientCall.Resp : ClientCall → Type
  | .getUuid => String
  | .generateSecureToken _ => String
  | .nowSeconds => Int
  | .insertClient _ => Bool
  | .replaceScopes _ _ => ClientTables.ScopesUpdate

inductive ClientReply
  | error (code detail : String)
  | registered (clientId clientSecret clientName : String) (redirectUris grantTypes : List String)
      (tokenEndpointAuthMethod : String) (clientIdIssuedAt : Int)
  | created (clientId clientSecret tokenEndpointAuthMethod : String)
  | scopesUpdated (scopes : List String)
  deriving DecidableEq

abbrev ClientProg := Prog ClientCall ClientCall.Resp ClientReply

/-! ### Backchannel logout URIs -/

namespace RuleSet

def startsWith (s start : String) : Bool := start.toList.isPrefixOf s.toList

/-- Strict dotted quads of the private, loopback and link-local ranges. -/
def isPrivateIpv4 (host : List Char) : Bool :=
  match host.splitOn '.' with
  | [a, b, c, d] =>
    [a, b, c, d].all (fun token =>
        token ≠ [] && token.length ≤ 3 && token.all Char.isDigit && digitsValue token ≤ 255) &&
      (digitsValue a = 0 || digitsValue a = 10 || digitsValue a = 127 ||
        (digitsValue a = 172 && 16 ≤ digitsValue b && digitsValue b ≤ 31) ||
        (digitsValue a = 192 && digitsValue b = 168) ||
        (digitsValue a = 169 && digitsValue b = 254))
  | _ => false

def isPrivateIpv6 (host : List Char) : Bool :=
  let leading := if "::".toList.isPrefixOf host then host.drop 2 else host
  if host = "::1".toList ∨ host = "::".toList then true
  else if "::ffff:".toList.isPrefixOf host then isPrivateIpv4 (host.drop 7)
  else ["fc", "fd", "fe8", "fe9", "fea", "feb"].any fun start => start.toList.isPrefixOf leading

def isPrivateOrLoopbackHost (host : List Char) : Bool :=
  let h := host.map Char.toLower
  if h = "localhost".toList ∨ h = "localhost.".toList then true
  else if ':' ∈ h then isPrivateIpv6 h
  else isPrivateIpv4 h

/-- The host of an authority: between brackets, or up to the port. -/
def hostOf (authority : List Char) : Option (List Char) :=
  match authority with
  | '[' :: rest => if ']' ∈ rest then some (rest.takeWhile (· ≠ ']')) else none
  | _ => some (authority.takeWhile (· ≠ ':'))

def validateBackchannelLogoutUri (allowHttp allowPrivate : Bool) (uri : String) : Option String :=
  let https := startsWith uri "https://"
  let rest := uri.toList.drop (if https then 8 else 7)
  let authority := rest.takeWhile fun c => c ≠ '/' && c ≠ '?'
  if uri = "" then none
  else if byteLength uri > 512 then some "backchannel_logout_uri exceeds 512 characters"
  else if https = false ∧ (startsWith uri "http://" = false ∨ allowHttp = false) then
    some "backchannel_logout_uri must use https"
  else if '#' ∈ uri.toList then some "backchannel_logout_uri must not contain a fragment"
  else if '@' ∈ authority then some "backchannel_logout_uri must not contain userinfo"
  else
    match hostOf authority with
    | none => some "backchannel_logout_uri has a malformed IPv6 host"
    | some host =>
      if host = [] then some "backchannel_logout_uri must include a host"
      else if isPrivateOrLoopbackHost host = true ∧ allowPrivate = false then
        some ("backchannel_logout_uri must not target loopback/private/link-local " ++
          "addresses (set auth.allow_private_backchannel_logout_uri to permit " ++
          "them for local testing)")
      else none

end RuleSet

/-! ### What both registrations share -/

/-- The default of an omitted method. -/
def declaredMethod (clientType tokenEndpointAuthMethod : String) : String :=
  if tokenEndpointAuthMethod = "" then
    if clientType = "PUBLIC" then "none" else "client_secret_basic"
  else tokenEndpointAuthMethod

def hashClientSecretWithSalt (cfg : ClientConfig) (clientSecret salt : String) : String :=
  String.ofList
    ((cfg.tokenService.crypto.sha256Hex (clientSecret ++ salt)).toList.map Char.toLower)

/-- Client id, secret and salt are drawn. -/
def drawClient (k : String → String → String → ClientProg) : ClientProg :=
  .call .getUuid fun clientId =>
  .call (.generateSecureToken 32) fun clientSecret =>
  .call .getUuid fun uuid =>
  k clientId clientSecret (String.ofList (uuid.toList.take 36))

/-! ### Dynamic registration -/

/-- The members of the body that are read, with their defaults; arrays are `none` where the member is
missing or no array. -/
structure RegistrationBody where
  clientName : String := ""
  clientType : String := "CONFIDENTIAL"
  tokenEndpointAuthMethod : String := ""
  redirectUris : Option (List String) := none
  grantTypes : Option (List String) := none
  deriving DecidableEq

namespace RegistrationBody

def method (body : RegistrationBody) : String :=
  declaredMethod body.clientType body.tokenEndpointAuthMethod

def grants (body : RegistrationBody) : List String :=
  body.grantTypes.getD ["authorization_code"]

/-- The array joined by commas, as both columns store it. -/
def joinItems (items : List String) : String := String.intercalate "," items

def redirectUrisColumn (body : RegistrationBody) : String :=
  joinItems (body.redirectUris.getD [])

end RegistrationBody

def registrableGrantTypes : List String :=
  ["authorization_code", "refresh_token", "client_credentials"]

def invalidRedirectUri (cfg : ClientConfig) (uris : List String) : Option String :=
  uris.findSome? fun uri =>
    (Http.RuleSet.validateRedirectUri cfg.allowHttpRedirectUri uri).map fun error =>
      "invalid redirect_uri '" ++ uri ++ "': " ++ error

def registrationError (cfg : ClientConfig) (body : RegistrationBody) : Option (String × String) :=
  if body.method ∉ ["none", "client_secret_basic", "client_secret_post"] then
    some ("VALIDATION_FORMAT_ERROR",
      "registerClient: token_endpoint_auth_method must be one of: none, " ++
        "client_secret_basic, client_secret_post")
  else if body.clientType = "PUBLIC" ∧ body.method ≠ "none" then
    some ("VALIDATION_FORMAT_ERROR",
      "registerClient: PUBLIC clients must use token_endpoint_auth_method='none'")
  else if body.clientName = "" then
    some ("VALIDATION_MISSING_REQUIRED_FIELD", "registerClient: client_name is required")
  else if body.clientType ≠ "CONFIDENTIAL" ∧ body.clientType ≠ "PUBLIC" then
    some ("VALIDATION_FORMAT_ERROR",
      "registerClient: client_type must be CONFIDENTIAL or PUBLIC")
  else if body.redirectUrisColumn = "" ∧ body.clientType = "CONFIDENTIAL" then
    some ("VALIDATION_MISSING_REQUIRED_FIELD",
      "registerClient: redirect_uris is required for confidential clients")
  else
    match invalidRedirectUri cfg (body.redirectUris.getD []) with
    | some error => some ("VALIDATION_FORMAT_ERROR", "registerClient: " ++ error)
    | none =>
      (body.grants.find? (· ∉ registrableGrantTypes)).map fun grantType =>
        ("VALIDATION_FORMAT_ERROR",
          "registerClient: unsupported grant_type: " ++ grantType ++
            ". Allowed: authorization_code, refresh_token, client_credentials")

def registrationRow (cfg : ClientConfig) (body : RegistrationBody)
    (clientId clientSecret salt : String) : Oauth2Clients where
  clientId
  clientType := body.clientType
  clientSecret := hashClientSecretWithSalt cfg clientSecret salt
  salt
  name := body.clientName
  redirectUris := body.redirectUrisColumn
  allowedGrantTypes := RegistrationBody.joinItems body.grants
  tokenEndpointAuthMethod := body.method

def registerClient (cfg : ClientConfig) : Option RegistrationBody → ClientProg
  | none =>
    .ret (.error "VALIDATION_INVALID_INPUT" "registerClient: request body must be valid JSON")
  | some body =>
    match registrationError cfg body with
    | some (code, detail) => .ret (.error code detail)
    | none =>
      drawClient fun clientId clientSecret salt =>
      .call .nowSeconds fun issuedAt =>
      .call (.insertClient (registrationRow cfg body clientId clientSecret salt)) fun ok =>
      .ret
        (if ok then
          .registered clientId clientSecret body.clientName (body.redirectUris.getD []) body.grants
            body.method issuedAt
         else .error "DB_QUERY_ERROR" "registerClient: failed to register client: ")

/-! ### Registration by an administrator -/

/-- The members of the body, with their defaults; without a JSON body all of them are defaults. -/
structure ClientBody where
  name : String := ""
  redirectUris : String := ""
  allowedGrantTypes : String := "authorization_code"
  clientType : String := "CONFIDENTIAL"
  tokenEndpointAuthMethod : String := ""
  backchannelLogoutUri : String := ""
  deriving DecidableEq

def validateRedirectUriList (cfg : ClientConfig) (list : String) : Option String :=
  invalidRedirectUri cfg (splitNonEmpty ',' list)

def creationError (cfg : ClientConfig) (body : ClientBody) : Option (String × String) :=
  if body.name = "" then
    some ("VALIDATION_MISSING_REQUIRED_FIELD", "createClient: name is required")
  else
    match validateRedirectUriList cfg body.redirectUris with
    | some error => some ("VALIDATION_FORMAT_ERROR", "createClient: " ++ error)
    | none =>
      (RuleSet.validateBackchannelLogoutUri cfg.allowHttpRedirectUri
        cfg.allowPrivateBackchannelLogoutUri body.backchannelLogoutUri).map fun error =>
          ("VALIDATION_FORMAT_ERROR", "createClient: " ++ error)

def creationRow (cfg : ClientConfig) (body : ClientBody) (clientId clientSecret salt : String) :
    Oauth2Clients where
  clientId
  clientType := body.clientType
  clientSecret := hashClientSecretWithSalt cfg clientSecret salt
  salt
  name := body.name
  redirectUris := body.redirectUris
  allowedGrantTypes := body.allowedGrantTypes
  tokenEndpointAuthMethod := declaredMethod body.clientType body.tokenEndpointAuthMethod
  backchannelLogoutUri :=
    if body.backchannelLogoutUri = "" then none else some body.backchannelLogoutUri

def createClient (cfg : ClientConfig) (body : ClientBody) : ClientProg :=
  match creationError cfg body with
  | some (code, detail) => .ret (.error code detail)
  | none =>
    drawClient fun clientId clientSecret salt =>
    .call (.insertClient (creationRow cfg body clientId clientSecret salt)) fun ok =>
    .ret
      (if ok then
        .created clientId clientSecret
          (declaredMethod body.clientType body.tokenEndpointAuthMethod)
       else .error "DB_QUERY_ERROR" "Failed to create client: ")

/-! ### Scopes of a client -/

/-- `scopes` is `none` where the body has no such array. -/
def updateClientScopes (clientId : String) (scopes : Option (List String)) : ClientProg :=
  if clientId = "" then
    .ret (.error "VALIDATION_MISSING_REQUIRED_FIELD" "clientId is required")
  else
    match scopes with
    | none =>
      .ret (.error "VALIDATION_MISSING_REQUIRED_FIELD"
        "Request body must contain a 'scopes' array")
    | some scopes =>
      .call (.replaceScopes clientId scopes) fun
        | .replaced => .ret (.scopesUpdated scopes)
        | .notCleared => .ret (.error "DB_QUERY_ERROR" "Failed to clear existing scopes: ")
        | .notAssigned => .ret (.error "DB_QUERY_ERROR" "Failed to assign some scopes: ")

inductive ClientRequest
  | register (body : Option RegistrationBody)
  | create (body : ClientBody)
  | updateScopes (clientId : String) (scopes : Option (List String))

def program (cfg : ClientConfig) : ClientRequest → ClientProg
  | .register body => registerClient cfg body
  | .create body => createClient cfg body
  | .updateScopes clientId scopes => updateClientScopes clientId scopes

def exec (env : Env) : (op : ClientCall) → ClientTables → op.Resp × ClientTables
  | .getUuid, T => (env.random, T)
  | .generateSecureToken _, T => (env.random, T)
  | .nowSeconds, T => (env.now, T)
  | .insertClient row, T => T.insertClient env row
  | .replaceScopes clientId scopes, T => T.replaceScopes env clientId scopes

end AuthForge.Admin.ClientRegistration
