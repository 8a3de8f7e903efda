import AuthForge.Base.Jsoncpp
import AuthForge.Base.Callbacks
import AuthForge.Storage.ClientCache

/-!
# The callbacks of a cached read

`RedisCachedClientRepository::getClient` and `validateClient`, `RedisCachedTokenRepository`'s
`getAccessToken` and `introspectToken`, seen from the callback of their caller: what the two
callbacks of the Redis command and the answers of the wrapped repository do with it. The commands
that fill the cache have callbacks of their own, which do nothing. A cached text is parsed by
jsoncpp, and what reading the value throws is caught nowhere.
-/

namespace AuthForge.Storage.CacheCallbacks

open OAuth2 Jsoncpp SharedCallback

inductive RedisResult
  | nil
  | integer (n : Int)
  | string (s : String)
  | status (s : String)
  | error (message : String)
  | array (items : List RedisResult)

section Deserialize

-- `Json::parseFromStream`; `none` where the text does not parse
variable (parse : String → Option Value)

/-- The items of a member that is an array. -/
def stringsAt (root : Value) (key : String) : Option (List String) := do
  match ← root.index key with
  | .array items => items.mapM Value.asString
  | _ => return []

def getInt64 (root : Value) (key : String) : Option Int := do
  (← root.get key (.int 0)).asInt64

def getBool (root : Value) (key : String) : Option Bool := do
  (← root.get key (.bool false)).asBool

/-- The outer `none` is a throw, the inner one the answer `false`. -/
def deserializeClient (jsonStr : String) : Option (Option OAuth2Client) :=
  match parse jsonStr with
  | none => some none
  | some root => do
    if !(← root.isMember "clientId") || !(← root.isMember "clientType") then return none
    let clientId ← root.stringAt "clientId"
    if clientId = "" then return none
    -- the conversion of the type stands in a `try` block
    let typeName := root.stringAt "clientType"
    match typeName.bind fun s => (ClientTables.stringToClientType s).toOption with
    | none => return none
    | some clientType =>
      let clientSecretHash ← root.getString "clientSecretHash"
      let salt ← root.getString "salt"
      let tokenEndpointAuthMethod ← root.getString "tokenEndpointAuthMethod"
      let redirectUris ← stringsAt root "redirectUris"
      let allowedScopes ← stringsAt root "allowedScopes"
      return some { clientId, clientType, clientSecretHash, salt, redirectUris, allowedScopes,
                    tokenEndpointAuthMethod }

def deserializeAccessToken (s : String) : Option (Option OAuth2AccessToken) :=
  match parse s with
  | none => some none
  | some root => do
    if !(← root.isMember "token") || !(← root.isMember "expiresAt") then return none
    let token ← root.stringAt "token"
    let clientId ← root.getString "clientId"
    let userId ← root.getString "userId"
    let scope ← root.getString "scope"
    let expiresAt ← getInt64 root "expiresAt"
    let revoked ← getBool root "revoked"
    let issuedAt ← getInt64 root "issuedAt"
    let issuer ← root.getString "issuer"
    let audience ← root.getString "audience"
    let notBefore ← getInt64 root "notBefore"
    let introspectCount ← (← root.get "introspectCount" (.int 0)).asInt
    let revokedAt ← getInt64 root "revokedAt"
    let revokedBy ← root.getString "revokedBy"
    return some { token, clientId, userId, scope, expiresAt, revoked, issuedAt, issuer, audience,
                  notBefore, introspectCount, revokedAt, revokedBy }

def deserializeIntrospection (s : String) : Option (Option TokenIntrospection) :=
  match parse s with
  | none => some none
  | some root => do
    if !(← root.isMember "active") then return none
    let active ← (← root.index "active").asBool
    let clientId ← root.getString "clientId"
    let tokenType ← (← root.get "tokenType" (.string "Bearer")).asString
    let exp ← getInt64 root "exp"
    let iat ← getInt64 root "iat"
    let nbf ← getInt64 root "nbf"
    let sub ← root.getString "sub"
    let aud ← root.getString "aud"
    let iss ← root.getString "iss"
    let scope ← root.getString "scope"
    return some { active, clientId, tokenType, exp, iat, nbf, sub, aud, iss, scope }

end Deserialize

/-! ### The replies -/

/-- A text that is no record counts as a miss. -/
def readingOf {α β : Type} (deserialized : Option (Option β)) (answer : β → α) : Reading α :=
  match deserialized with
  | none => .threw
  | some none => .miss
  | some (some cached) => .hit (answer cached)

inductive RevokedThenGet
  | revoked
  | value (s : String)
  | miss

def decodeRevokedThenGet : RedisResult → RevokedThenGet
  | .array (.integer n :: rest) =>
    if n > 0 then .revoked
    else
      match rest with
      | .string s :: _ => .value s
      | _ => .miss
  | _ => .miss

/-! ### The four reads -/

inductive CachedRead
  | getClient (clientId : String)
  | validateClient (clientId clientSecret : String)
  | getAccessToken (token : String)
  | introspectToken (token : String)

@[reducible] def CachedRead.Answer : CachedRead → Type
  | .getClient _ => Option OAuth2Client
  | .validateClient _ _ => Bool
  | .getAccessToken _ => Option OAuth2AccessToken
  | .introspectToken _ => Option TokenIntrospection

section Reads

variable (parse : String → Option Value) (sha256Hex : String → String)

/-- What the success callback of `getClient` does with the reply of Redis. -/
def clientReading : RedisResult → Reading (Option OAuth2Client)
  | .string s => readingOf (deserializeClient parse s) some
  | _ => .miss

def secretReading (clientSecret : String) : RedisResult → Reading Bool
  | .string s =>
    readingOf (deserializeClient parse s) fun cached =>
      ClientCache.validateCachedClientSecret sha256Hex cached clientSecret
  | _ => .miss

def accessReading (result : RedisResult) : Reading (Option OAuth2AccessToken) :=
  match decodeRevokedThenGet result with
  | .revoked => .hit none
  | .value s => readingOf (deserializeAccessToken parse s) some
  | .miss => .miss

def introspectionReading (result : RedisResult) : Reading (Option TokenIntrospection) :=
  match decodeRevokedThenGet result with
  | .revoked => .hit (some { active := false })
  | .value s => readingOf (deserializeIntrospection parse s) some
  | .miss => .miss

def getClient : Handlers RedisResult (Option OAuth2Client) := guarded (clientReading parse)

/-- There is no flag here. -/
def validateClient (clientSecret : String) : Handlers RedisResult Bool :=
  unguarded (secretReading parse sha256Hex clientSecret)

def getAccessToken : Handlers RedisResult (Option OAuth2AccessToken) :=
  guarded (accessReading parse)

def introspectToken : Handlers RedisResult (Option TokenIntrospection) :=
  guarded (introspectionReading parse)

def reading : (read : CachedRead) → RedisResult → Reading read.Answer
  | .getClient _ => clientReading parse
  | .validateClient _ clientSecret => secretReading parse sha256Hex clientSecret
  | .getAccessToken _ => accessReading parse
  | .introspectToken _ => introspectionReading parse

def handlers : (read : CachedRead) → Handlers RedisResult read.Answer
  | .getClient _ => getClient parse
  | .validateClient _ clientSecret => validateClient parse sha256Hex clientSecret
  | .getAccessToken _ => getAccessToken parse
  | .introspectToken _ => introspectToken parse

end Reads

/-- Without a Redis client the wrapped repository is called at once; `getClient` alone gives it the
wrapper that fills the cache. -/
def withoutRedis : (read : CachedRead) → Shared read.Answer
  | .getClient _ => Shared.wrap {}
  | _ => Shared.handOver {}

/-- The moment after the command has been sent, or after the wrapped repository has been called. -/
def start (hasRedis : Bool) (read : CachedRead) : Shared read.Answer :=
  if hasRedis then {} else withoutRedis read

end AuthForge.Storage.CacheCallbacks
