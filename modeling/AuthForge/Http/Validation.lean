import AuthForge.Base.Dict
import AuthForge.Base.Regex
import AuthForge.Base.Text

/-!
# Requests and their validation

The parameters of a request, and the rules of `RuleEngine` and `RuleSet` that guard the login and
the authorization endpoint. Patterns are matched against bytes, as `std::regex` does.
-/

namespace AuthForge.Http

abbrev Params := Dict String String

def Params.get (params : Params) (name : String) : String := (params.lookup name).getD ""

structure HttpRequest where
  session : Nat
  params : Params
  /-- With content type JSON: the members of the body, if it parses. -/
  json : Option (Option Params) := none
  /-- With a Basic authorization header: user and password, if it decodes to such a pair. -/
  basic : Option (Option (String × String)) := none

namespace HttpRequest

def getParameter (req : HttpRequest) (name : String) : String := req.params.get name

/-- A field of the body: from the JSON object under a JSON content type, from the form
otherwise. -/
def bodyField (req : HttpRequest) (name : String) : String :=
  match req.json with
  | some (some members) => members.get name
  | some none => ""
  | none => req.params.get name

end HttpRequest

/-! ### Patterns -/

section Patterns

open Regex

def inRange (lo hi : Char) (b : UInt8) : Bool := lo.toNat ≤ b.toNat && b.toNat ≤ hi.toNat

def isAlnum (b : UInt8) : Bool := inRange 'a' 'z' b || inRange 'A' 'Z' b || inRange '0' '9' b

def isHex (b : UInt8) : Bool := inRange 'a' 'f' b || inRange 'A' 'F' b || inRange '0' '9' b

def oneOf (chars : String) (b : UInt8) : Bool := b ∈ bytes chars

/-- `\s`. -/
def isBlank (b : UInt8) : Bool := b = 32 || (9 ≤ b.toNat && b.toNat ≤ 13)

/-- `^[a-zA-Z0-9._-]{1,128}$`. -/
def CLIENT_ID_PATTERN : Regex UInt8 := between (.sat fun b => isAlnum b || oneOf "._-" b) 127

/-- `^https?://(\[[a-fA-F0-9:.]+\]|[a-zA-Z0-9.-]+)(:[0-9]+)?(/[^\s]*)?$`. -/
def REDIRECT_URI_PATTERN : Regex UInt8 :=
  seqs
    [literal (bytes "http"), opt (literal (bytes "s")), literal (bytes "://"),
     .alt
       (seqs [literal (bytes "["), plus (.sat fun b => isHex b || oneOf ":." b),
         literal (bytes "]")])
       (plus (.sat fun b => isAlnum b || oneOf ".-" b)),
     opt (.seq (literal (bytes ":")) (plus (.sat (inRange '0' '9')))),
     opt (.seq (literal (bytes "/")) (.star (.sat fun b => !isBlank b)))]

/-- `^[a-zA-Z0-9: ]+$`. -/
def SCOPE_PATTERN : Regex UInt8 := plus (.sat fun b => isAlnum b || oneOf ": " b)

/-- `[a-zA-Z0-9](?:[a-zA-Z0-9-]{0,61}[a-zA-Z0-9])?`. -/
def emailLabel : Regex UInt8 :=
  .seq (.sat isAlnum)
    (opt (.seq (upTo (.sat fun b => isAlnum b || oneOf "-" b) 61) (.sat isAlnum)))

def EMAIL_PATTERN : Regex UInt8 :=
  seqs
    [plus (.sat fun b => isAlnum b || oneOf ".!#$%&'*+/=?^_`\x7b|\x7d~-" b), literal (bytes "@"),
     emailLabel, .star (.seq (literal (bytes ".")) emailLabel)]

def CLIENT_ID_MIN_LEN : Nat := 1
def CLIENT_ID_MAX_LEN : Nat := 128
def REDIRECT_URI_MIN_LEN : Nat := 10
def REDIRECT_URI_MAX_LEN : Nat := 2048
def SCOPE_MIN_LEN : Nat := 1
def SCOPE_MAX_LEN : Nat := 256
def EMAIL_MAX_LEN : Nat := 254

end Patterns

/-! ### `RuleEngine` -/

namespace RuleEngine

abbrev Result := Option String

def notEmpty (value : String) : Result := if value = "" then some "Cannot be empty" else none

def length (value : String) (minLen maxLen : Nat) : Result :=
  if byteLength value < minLen then some ("Must be at least " ++ toString minLen ++ " characters")
  else if byteLength value > maxLen then
    some ("Must be at most " ++ toString maxLen ++ " characters")
  else none

/-- Shape rules of one field: not empty, the pattern, an extra rule, the length. -/
def validatePattern (value : String) (pattern : Regex UInt8) (message : String) (extra : Result)
    (minLen maxLen : Nat) : Result :=
  if value = "" then notEmpty value
  else if pattern.accepts (bytes value) = false then some message
  else if extra ≠ none then extra
  else length value minLen maxLen

def validateClientId (clientId : String) : Result :=
  validatePattern clientId CLIENT_ID_PATTERN "Must be 1-128 alphanumeric characters (._- allowed)"
    none CLIENT_ID_MIN_LEN CLIENT_ID_MAX_LEN

/-- The host is the given literal: the URI ends there or goes on with a port or a path. -/
def isLoopbackHost (uri start : String) : Bool :=
  start.toList.isPrefixOf uri.toList &&
    match uri.toList.drop start.length with
    | [] => true
    | c :: _ => c = ':' || c = '/'

/-- https, or http on a loopback address, or http where the configuration allows it. -/
def validateRedirectUriScheme (allowHttpRedirectUri : Bool) (uri : String) : Result :=
  if "https://".toList.isPrefixOf uri.toList then none
  else if "http://".toList.isPrefixOf uri.toList ∧
      (isLoopbackHost uri "http://127.0.0.1" ∨ isLoopbackHost uri "http://[::1]" ∨
        allowHttpRedirectUri = true) then none
  else some "Must use https (http allowed only for loopback IP literals 127.0.0.1/[::1])"

def validateRedirectUri (allowHttpRedirectUri : Bool) (uri : String) : Result :=
  validatePattern uri REDIRECT_URI_PATTERN "Must be a valid HTTP/HTTPS URL"
    (validateRedirectUriScheme allowHttpRedirectUri uri) REDIRECT_URI_MIN_LEN REDIRECT_URI_MAX_LEN

def validateScope (scope : String) : Result :=
  validatePattern scope SCOPE_PATTERN
    "Must contain only alphanumeric characters, colons, and spaces" none SCOPE_MIN_LEN
    SCOPE_MAX_LEN

end RuleEngine

/-! ### `RuleSet` -/

namespace RuleSet

def validateClientId (clientId : String) : Option String :=
  if clientId = "" then some "client_id is required"
  else if byteLength clientId > 128 then
    some "client_id exceeds maximum length of 128 characters"
  else RuleEngine.validateClientId clientId

def validateRedirectUri (allowHttpRedirectUri : Bool) (uri : String) : Option String :=
  if uri = "" then some "redirect_uri is required"
  else RuleEngine.validateRedirectUri allowHttpRedirectUri uri

def validateResponseType (type : String) : Option String :=
  if type = "" then some "response_type is required"
  else if type ≠ "code" then some "response_type must be 'code'"
  else none

def validateScope (scope : String) : Option String :=
  if scope = "" then none else RuleEngine.validateScope scope

def oauth2Authorize (allowHttpRedirectUri : Bool) (req : HttpRequest) : List String :=
  [validateClientId (req.getParameter "client_id"),
   validateRedirectUri allowHttpRedirectUri (req.getParameter "redirect_uri"),
   validateResponseType (req.getParameter "response_type"),
   validateScope (req.getParameter "scope")].filterMap id

def identifierErrors (identifier : String) : List String :=
  if identifier = "" then ["username is required"]
  else
    (if byteLength identifier > EMAIL_MAX_LEN then
      ["username exceeds maximum length of " ++ toString EMAIL_MAX_LEN ++ " characters"]
     else []) ++
    (if '@' ∈ identifier.toList ∧ EMAIL_PATTERN.accepts (bytes identifier) = false then
      ["email format is invalid"]
     else [])

def passwordErrors (password : String) : List String :=
  if password = "" then ["password is required"]
  else if byteLength password > 200 then
    ["password exceeds maximum length of 200 characters"]
  else []

def login (req : HttpRequest) : List String :=
  identifierErrors (req.bodyField "username") ++ passwordErrors (req.bodyField "password")

end RuleSet

end AuthForge.Http
