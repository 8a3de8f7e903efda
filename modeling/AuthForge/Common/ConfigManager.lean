import AuthForge.Base.Dict
import AuthForge.Base.Jsoncpp
import AuthForge.Base.Text
import Mathlib.Data.List.DropRight

/-!
# Configuration and environment

`ConfigManager` reads the variables of a `.env` file, lets environment variables override values of
the configuration file, and checks the result. A value is addressed by a path such as
`db_clients.0.host`, whose parts are members, indices, or items chosen by their name. What throws in
the source is `none` here.
-/

namespace AuthForge.Common.ConfigManager

open Jsoncpp
open Jsoncpp.Value (Key)

/-! ### Variables -/

def isBlank (c : Char) : Bool := c = ' ' || c = '\t'

/-- The assignment on a line of the file, if there is one. -/
def assignment (line : List Char) : Option (String × String) :=
  let line := line.dropWhile isBlank
  let line := line.rdropWhile fun c => isBlank c || c = '\r'
  if line = [] ∨ line.head? = some '#' then none
  else
    match cutFirst '=' (String.ofList line) with
    | none => none
    | some (key, value) =>
      let key := key.toList.rdropWhile isBlank
      let value := value.toList.dropWhile isBlank
      let value :=
        if value.length ≥ 2 ∧ (value.head? = some '"' ∧ value.getLast? = some '"' ∨
            value.head? = some '\'' ∧ value.getLast? = some '\'') then
          value.tail.dropLast
        else value
      if key = [] then none else some (String.ofList key, String.ofList value)

/-- What the file assigns; an empty last line is skipped like every empty line. -/
def loadDotEnv (text : String) : Dict String String :=
  ((text.toList.splitOn '\n').filterMap assignment).foldl
    (fun vars entry => vars.insert entry.1 entry.2) ∅

structure Environment where
  dotEnv : Dict String String
  /-- `getenv`. -/
  system : String → Option String

/-- An empty value of the file counts as none. -/
def getEnvValue (env : Environment) (name : String) : Option String :=
  match env.dotEnv.lookup name with
  | some value => if value ≠ "" then some (cStr value) else env.system name
  | none => env.system name

/-! ### Paths -/

/-- The parts of a `getline` loop: an empty one is dropped at the end only. -/
def pathParts (path : String) : List String :=
  let parts := path.toList.splitOn '.'
  (if parts.getLast? = some [] then parts.dropLast else parts).map String.ofList

def isIndex (part : String) : Bool := part ≠ "" && part.toList.all Char.isDigit

def isNamed (part : String) : Bool := byteLength part > 2 && part.toList.getLast? = some ']'

/-- Whether an item is an object with this string under the key. -/
def hasName (key value : String) (item : Value) : Bool :=
  match item.child (.member key) with
  | some (.string s) => s = value
  | _ => false

/-- The first item of an array with this string under the key. -/
def namedItem (key value : String) : Value → Option (Key × Value)
  | .array items => do
    let index ← items.findIdx? (hasName key value)
    let item ← items[index]?
    some (.item index, item)
  | _ => none

/-- Where one part of a path leads, and what stands there. -/
def follow (current : Value) (part : String) : Option (List Key × Value) :=
  if isIndex part then
    (current.child (.item (digitsValue part.toList))).map
      fun next => ([.item (digitsValue part.toList)], next)
  else if isNamed part then do
    let (name, rest) ← cutFirst '[' part
    let (key, value) ← cutFirst '=' (String.ofList rest.toList.dropLast)
    if name = "" then
      let (k, item) ← namedItem key value current
      some ([k], item)
    else
      let member ← current.child (.member name)
      let (k, item) ← namedItem key value member
      some ([.member name, k], item)
  else
    (current.child (.member part)).map fun next => ([.member part], next)

/-- The place that a path leads to. A part after a `null` leads nowhere. -/
def getJsonPointer (root : Value) : List String → Option (List Key)
  | [] => some []
  | part :: parts => do
    let (keys, next) ← follow root part
    let rest ← getJsonPointer next parts
    some (keys ++ rest)

/-! ### Overrides -/

structure EnvOverride where
  configPath : String
  envVar : String
  isNumeric : Bool
  isStringList : Bool := false

def oauth2EnvOverrides : List EnvOverride :=
  [⟨"db_clients.0.host", "OAUTH2_DB_HOST", false, false⟩,
   ⟨"db_clients.0.port", "OAUTH2_DB_PORT", true, false⟩,
   ⟨"db_clients.0.dbname", "OAUTH2_DB_NAME", false, false⟩,
   ⟨"db_clients.0.user", "OAUTH2_DB_USER", false, false⟩,
   ⟨"db_clients.0.passwd", "OAUTH2_DB_PASSWORD", false, false⟩,
   ⟨"redis_clients.0.host", "OAUTH2_REDIS_HOST", false, false⟩,
   ⟨"redis_clients.0.port", "OAUTH2_REDIS_PORT", true, false⟩,
   ⟨"redis_clients.0.passwd", "OAUTH2_REDIS_PASSWORD", false, false⟩,
   ⟨"custom_config.metadata.issuer", "OAUTH2_ISSUER", false, false⟩,
   ⟨"custom_config.frontend.url", "OAUTH2_FRONTEND_URL", false, false⟩,
   ⟨"custom_config.external_auth.github.client_id", "OAUTH2_GITHUB_CLIENT_ID", false, false⟩,
   ⟨"custom_config.external_auth.github.client_secret", "OAUTH2_GITHUB_CLIENT_SECRET", false,
    false⟩,
   ⟨"custom_config.external_auth.google.client_id", "OAUTH2_GOOGLE_CLIENT_ID", false, false⟩,
   ⟨"custom_config.external_auth.google.client_secret", "OAUTH2_GOOGLE_CLIENT_SECRET", false,
    false⟩,
   ⟨"custom_config.external_auth.google.redirect_uri", "OAUTH2_GOOGLE_REDIRECT_URI", false, false⟩,
   ⟨"listeners.0.port", "OAUTH2_LISTEN_PORT", true, false⟩,
   ⟨"vue_client.secret", "OAUTH2_VUE_CLIENT_SECRET", false, false⟩,
   ⟨"plugins[name=OAuth2Plugin].config.clients.vue-client.redirect_uri",
    "OAUTH2_VUE_REDIRECT_URI", false, false⟩,
   ⟨"custom_config.cors.allow_origins", "OAUTH2_CORS_ALLOW_ORIGINS", false, true⟩]

def parseInt (str : String) : Int := (stoi str).getD 0

def trimmed (token : List Char) : List Char := (token.dropWhile isBlank).rdropWhile isBlank

/-- What a variable puts into the configuration. -/
def overriding (rule : EnvOverride) (envValue : String) : Value :=
  if rule.isNumeric then .int (Int64.ofInt (parseInt envValue))
  else if rule.isStringList then
    .array ((((envValue.toList.splitOn ',').map trimmed).filter (· ≠ [])).map fun token =>
      .string (String.ofList token))
  else .string envValue

def applyOverride (env : Environment) (config : Value) (rule : EnvOverride) : Value :=
  match getEnvValue env rule.envVar with
  | none => config
  | some envValue =>
    match getJsonPointer config (pathParts rule.configPath) with
    | none => config
    | some place => config.replace place (overriding rule envValue)

def applyEnvOverrides (env : Environment) (rules : List EnvOverride) (config : Value) : Value :=
  rules.foldl (applyOverride env) config

/-! ### Checks -/

/-- `config[key][0]`, where the member is an array that is not empty. -/
def firstItem (config : Value) (key : String) : Option Value :=
  match config.child (.member key) with
  | some (.array (item :: _)) => some item
  | _ => none

def isArrayMember (config : Value) (key : String) : Option Bool :=
  (config.index key).map fun member =>
    match member with
    | .array _ => true
    | _ => false

/-- The port of the first item is in range, where there is one. -/
def portInRange (config : Value) (key : String) : Option Bool :=
  match firstItem config key with
  | none => some true
  | some item => do
    if ← item.isMember "port" then
      let member ← item.index "port"
      let port ← member.asInt
      some (1 ≤ port && port ≤ 65535)
    else some true

def issuerOf (config : Value) : Option String := do
  if ← config.isMember "custom_config" then
    let custom ← config.index "custom_config"
    if ← custom.isMember "metadata" then
      let metadata ← custom.index "metadata"
      if ← metadata.isMember "issuer" then metadata.stringAt "issuer" else some ""
    else some ""
  else some ""

def isHttps (issuer : String) : Bool := "https://".toList.isPrefixOf issuer.toList

/-- The password of the first item, where there is one, is none of these. -/
def passwdIsNot (config : Value) (key : String) (bad : List String) : Option Bool :=
  match firstItem config key with
  | none => some true
  | some item => (item.getString "passwd").map fun passwd => passwd ∉ bad

def checks (config : Value) : List (Option Bool × String) :=
  [(isArrayMember config "db_clients", "Missing or invalid 'db_clients' configuration"),
   (isArrayMember config "redis_clients", "Missing or invalid 'redis_clients' configuration"),
   (portInRange config "db_clients", "Database port out of range (1-65535)"),
   (portInRange config "redis_clients", "Redis port out of range (1-65535)")]

def productionChecks (config : Value) : List (Option Bool × String) :=
  [((issuerOf config).map isHttps,
    "Production requires HTTPS issuer (set custom_config.metadata.issuer " ++
      "or OAUTH2_ISSUER env var to https://...)"),
   (passwdIsNot config "db_clients" ["", "123456", "password"],
    "Production requires non-default database password (set OAUTH2_DB_PASSWORD env var)"),
   (passwdIsNot config "redis_clients" ["123456", "password"],
    "Production requires non-default Redis password (set OAUTH2_REDIS_PASSWORD env var)")]

/-- The message of the first check that does not hold. -/
def firstError : List (Option Bool × String) → Option (Except String Unit)
  | [] => some (.ok ())
  | (holds, errorMessage) :: rest =>
    match holds with
    | none => none
    | some false => some (.error errorMessage)
    | some true => firstError rest

def isProd (env : Environment) : Bool := getEnvValue env "OAUTH2_ENV" = some "production"

def validate (env : Environment) (config : Value) : Option (Except String Unit) :=
  firstError (checks config ++ if isProd env then productionChecks config else [])

/-- What the server starts with: the file with its overrides. -/
def load (env : Environment) (file : Value) : Value :=
  applyEnvOverrides env oauth2EnvOverrides file

end AuthForge.Common.ConfigManager
