import AuthForge.Base.Dict
import AuthForge.Base.Text
import AuthForge.OAuth2.Repository

/-!
# The Redis grant repository

`RedisGrantRepository` keeps an authorization code as a JSON object under `oauth2:code:<hash>`
with a time to live. The JSON libraries on both sides round-trip the fields that are written, so
the stored value is the list of fields. Times are whole seconds; a key whose time has come is
gone. Command arguments are passed as C strings.
-/

namespace AuthForge.Storage.Redis

open OAuth2

/-! ### JSON objects -/

inductive Scalar
  | str (s : String)
  | int (n : Int)
  | bool (b : Bool)
  deriving DecidableEq, Repr

abbrev Json := List (String × Scalar)

namespace Json

/-- `json[name].asString()`; a missing field is null and reads as the empty string. -/
def asString (json : Json) (name : String) : String :=
  match json.lookup name with
  | some (.str s) => s
  | _ => ""

def asInt64 (json : Json) (name : String) : Int :=
  match json.lookup name with
  | some (.int n) => n
  | _ => 0

def asBool (json : Json) (name : String) : Bool :=
  match json.lookup name with
  | some (.bool b) => b
  | _ => false

def set (json : Json) (name : String) (value : Scalar) : Json :=
  if json.any (·.1 = name) then json.map fun f => if f.1 = name then (name, value) else f
  else json ++ [(name, value)]

end Json

/-! ### Redis commands -/

structure Entry where
  value : Json
  expireAt : Option Int
  deriving DecidableEq, Repr

abbrev Keyspace := Dict String Entry

/-- `GET`: the value of a key that is not dropped yet. -/
def get (now : Int) (key : String) (s : Keyspace) : Option Json :=
  match s.lookup key with
  | none => none
  | some e =>
    match e.expireAt with
    | none => some e.value
    | some t => if now < t then some e.value else none

def ttl (now : Int) (key : String) (s : Keyspace) : Int :=
  match s.lookup key with
  | none => -2
  | some e =>
    match e.expireAt with
    | none => -1
    | some t => if now < t then t - now else -2

def setex (now : Int) (key : String) (seconds : Int) (value : Json) (s : Keyspace) : Keyspace :=
  s.insert key ⟨value, some (now + seconds)⟩

def set (key : String) (value : Json) (s : Keyspace) : Keyspace := s.insert key ⟨value, none⟩

/-! ### The repository -/

def codeKey (code : String) : String := cStr ("oauth2:code:" ++ code)

def authCodeJson (code : OAuth2AuthCode) : Json :=
  [("client_id", .str code.clientId), ("user_id", .str code.userId), ("scope", .str code.scope),
   ("redirect_uri", .str code.redirectUri), ("expires_at", .int code.expiresAt),
   ("used", .bool code.used)]

def saveAuthCode (env : Env) (code : OAuth2AuthCode) (s : Keyspace) : Keyspace :=
  if env.fails = true then s
  else
    let ttl := if code.expiresAt > env.now then code.expiresAt - env.now else 1
    setex env.now (codeKey code.code) ttl (authCodeJson code) s

/-- The record that `consumeAuthCode` builds from the answer of its script: the fields it reads,
the others by default. -/
def consumedAuthCode (code : String) (json : Json) : OAuth2AuthCode :=
  { code
    clientId := json.asString "client_id"
    userId := json.asString "user_id"
    scope := json.asString "scope"
    redirectUri := json.asString "redirect_uri"
    codeChallenge := ""
    codeChallengeMethod := ""
    nonce := ""
    expiresAt := json.asInt64 "expires_at"
    used := true }

/-- The Lua script of `consumeAuthCode`; `none` is nil. -/
def consumeScript (now : Int) (key redirectUri : String) (s : Keyspace) : Option Json × Keyspace :=
  match get now key s with
  | none => (none, s)
  | some json =>
    if json.asBool "used" = true then (none, s)
    else if redirectUri ≠ "" ∧ redirectUri ≠ json.asString "redirect_uri" then (none, s)
    else
      let newVal := json.set "used" (.bool true)
      let ttl := ttl now key s
      (some newVal, if ttl > 0 then setex now key ttl newVal s else set key newVal s)

def consumeAuthCode (env : Env) (code redirectUri : String) (s : Keyspace) :
    Option OAuth2AuthCode × Keyspace :=
  if env.fails = true then (none, s)
  else
    let r := consumeScript env.now (codeKey code) (cStr redirectUri) s
    (r.1.map (consumedAuthCode code), r.2)

def grantRepository : GrantRepository where
  State := Keyspace
  saveAuthCode := saveAuthCode
  consumeAuthCode := consumeAuthCode
  purgeExpired _ s := s

theorem amr_of_consumed {env : Env} {code redirectUri : String} {s : Keyspace} {c : OAuth2AuthCode}
    (h : (consumeAuthCode env code redirectUri s).1 = some c) : c.amr = "" := by
  unfold consumeAuthCode at h
  split at h
  · cases h
  · obtain ⟨json, -, rfl⟩ := Option.map_eq_some_iff.mp h
    rfl

/-- The repository keeps no authentication methods, so nothing has to be on record. -/
def codeLedger : CodeLedger grantRepository where
  stored _ _ := none
  save h := by cases h
  consumed h := .inl (amr_of_consumed h)
  consume h := by cases h
  purge h := by cases h

/-! ### What survives the store -/

theorem authCodeJson_set_used (code : OAuth2AuthCode) :
    Json.set (authCodeJson code) "used" (.bool true) = authCodeJson { code with used := true } :=
  rfl

theorem authCodeJson_used (code : OAuth2AuthCode) :
    Json.asBool (authCodeJson code) "used" = code.used := rfl

theorem authCodeJson_redirectUri (code : OAuth2AuthCode) :
    Json.asString (authCodeJson code) "redirect_uri" = code.redirectUri := rfl

/-- Of a saved record the exchange gets back everything but challenge, method, nonce,
authentication time and methods. -/
theorem consumedAuthCode_authCodeJson (key : String) (code : OAuth2AuthCode) :
    consumedAuthCode key (authCodeJson code) =
      { code with
        code := key, codeChallenge := "", codeChallengeMethod := "", nonce := "", used := true
        authTime := 0, amr := "" } := rfl

/-! ### The other calls -/

/-- The record that `getAuthCode` builds from the stored object. -/
def storedAuthCode (code : String) (json : Json) : OAuth2AuthCode :=
  { consumedAuthCode code json with used := json.asBool "used" }

def getAuthCode (env : Env) (code : String) (s : Keyspace) : Option OAuth2AuthCode :=
  if env.fails = true then none else (get env.now (codeKey code) s).map (storedAuthCode code)

/-- The Lua script of `markAuthCodeUsed`. -/
def markScript (now : Int) (key : String) (s : Keyspace) : Keyspace :=
  match get now key s with
  | none => s
  | some json =>
    let newVal := json.set "used" (.bool true)
    let ttl := ttl now key s
    if ttl > 0 then setex now key ttl newVal s else set key newVal s

def markAuthCodeUsed (env : Env) (code : String) (s : Keyspace) : Keyspace :=
  if env.fails = true then s else markScript env.now (codeKey code) s

inductive CodeCall
  | saveAuthCode (code : OAuth2AuthCode)
  | getAuthCode (code : String)
  | markAuthCodeUsed (code : String)
  | consumeAuthCode (code redirectUri : String)
  | purgeExpired

def call (env : Env) : CodeCall → Keyspace → Option OAuth2AuthCode × Keyspace
  | .saveAuthCode code, s => (none, saveAuthCode env code s)
  | .getAuthCode code, s => (getAuthCode env code s, s)
  | .markAuthCodeUsed code, s => (none, markAuthCodeUsed env code s)
  | .consumeAuthCode code redirectUri, s => consumeAuthCode env code redirectUri s
  -- The keyspace drops what has expired.
  | .purgeExpired, s => (none, s)

end AuthForge.Storage.Redis
