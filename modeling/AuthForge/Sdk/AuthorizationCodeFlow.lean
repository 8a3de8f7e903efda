import AuthForge.Base.QueryString
import AuthForge.OAuth2.TokenService
import AuthForge.Proof.Base64Url
import Mathlib.Data.List.DropRight
import Mathlib.Data.List.Sort

/-!
# The authorization code flow in the clients

What the two web frontends, the Python client and the Go client send for the flow: verifiers and
challenges, the URL of the authorization request, and the requests to the token endpoint. Each
client has its own way to all of these. SHA-256 is a parameter.
-/

/-! ### base64

The standard libraries of the clients write base64 with its own alphabet and padded (RFC 4648,
section 4). What is said in the other alphabet, with the padding taken off, is base64url. -/

namespace AuthForge.Sdk.Base64

open Ascii OAuth2 OAuth2.Base64Url

def standardAlphabet : Bytes :=
  bytes "ABCDEFGHIJKLMNOPQRSTUVWXYZabcdefghijklmnopqrstuvwxyz0123456789+/"

def equals : UInt8 := 61
def plus : UInt8 := 43

/-- Groups of four characters, of which the last one is filled up. -/
def encode : Bytes → Bytes
  | b₀ :: b₁ :: b₂ :: rest => encodeBlocks standardAlphabet [b₀, b₁, b₂] ++ encode rest
  | [b₀, b₁] => encodeBlocks standardAlphabet [b₀, b₁] ++ [equals]
  | [b₀] => encodeBlocks standardAlphabet [b₀] ++ [equals, equals]
  | [] => []

theorem encode_eq (b : Bytes) :
    ∃ n, encode b = encodeBlocks standardAlphabet b ++ List.replicate n equals := by
  fun_induction encode b with
  | case1 b₀ b₁ b₂ rest ih =>
    obtain ⟨n, hn⟩ := ih
    refine ⟨n, ?_⟩
    rw [hn]
    simp only [encodeBlocks, List.cons_append, List.nil_append]
  | case2 b₀ b₁ => exact ⟨1, rfl⟩
  | case3 b₀ => exact ⟨2, rfl⟩
  | case4 => exact ⟨0, rfl⟩

/-- The character of base64url that stands where base64 has this one. -/
def urlSafe (c : UInt8) : UInt8 := if c = plus then dash else if c = slash then underscore else c

theorem urlSafe_table : (∀ v < 64, urlSafe (standardAlphabet.getD v 0) =
      OpenSslCryptoProvider.kBase64UrlAlphabet.getD v 0) ∧
    equals ∉ OpenSslCryptoProvider.kBase64UrlAlphabet ∧ urlSafe equals = equals ∧
    ∀ c ∈ OpenSslCryptoProvider.kBase64UrlAlphabet, c.toNat < 128 := by
  decide +kernel

theorem map_urlSafe_encodeBlocks (b : Bytes) :
    (encodeBlocks standardAlphabet b).map urlSafe =
      OpenSslCryptoProvider.base64UrlEncodeImpl b := by
  rw [OpenSslCryptoProvider.base64UrlEncodeImpl, encodeBlocks_eq, encodeBlocks_eq, List.map_map]
  apply List.map_congr_left
  intro v hv
  exact urlSafe_table.1 v (sextets_lt _ v hv)

theorem rdropWhile_append_replicate {l : Bytes} (h : equals ∉ l) (n : Nat) :
    (l ++ List.replicate n equals).rdropWhile (· = equals) = l := by
  induction n with
  | zero =>
    rw [List.replicate_zero, List.append_nil, List.rdropWhile_eq_self_iff]
    intro hne hlast
    apply h
    rw [← of_decide_eq_true hlast]
    exact List.getLast_mem hne
  | succ n ih =>
    rw [List.replicate_succ', ← List.append_assoc, List.rdropWhile_concat_pos _ _ _ (by simp), ih]

theorem rdropWhile_map_urlSafe_encode (b : Bytes) :
    ((encode b).map urlSafe).rdropWhile (· = equals) =
      OpenSslCryptoProvider.base64UrlEncodeImpl b := by
  obtain ⟨n, hn⟩ := encode_eq b
  rw [hn, List.map_append, map_urlSafe_encodeBlocks, List.map_replicate, urlSafe_table.2.2.1]
  apply rdropWhile_append_replicate
  intro hmem
  exact urlSafe_table.2.1 (OpenSslCryptoProvider.mem_kBase64UrlAlphabet_of_mem hmem)


end AuthForge.Sdk.Base64

/-! ### PKCE -/

namespace AuthForge.Sdk

open Ascii OAuth2

structure PkcePair where
  verifier : String
  challenge : String
  method : String := "S256"
  deriving DecidableEq

/-- The text that has these ASCII characters. -/
def asciiText (b : Bytes) : String := String.ofList (b.map asciiChar)

section Pkce

-- SHA-256.
variable (sha256 : Bytes → Bytes)

namespace Spa

/-- The three replacements of the source, one after the other. -/
def base64UrlEncode (b : Bytes) : String :=
  let str := Base64.encode b
  let str := str.map fun c => if c = Base64.plus then dash else c
  let str := str.map fun c => if c = slash then underscore else c
  asciiText (str.rdropWhile (· = Base64.equals))

/-- The array that `crypto.getRandomValues` has filled. -/
def generateCodeVerifier (random : Vector UInt8 48) : String := base64UrlEncode random.toList

def computeS256Challenge (verifier : String) : String := base64UrlEncode (sha256 (bytes verifier))

def generatePkcePair (random : Vector UInt8 48) : PkcePair :=
  let verifier := generateCodeVerifier random
  { verifier, challenge := computeS256Challenge sha256 verifier }

end Spa

namespace Python

/-- `base64.urlsafe_b64encode` without the padding. -/
def urlsafeB64encode (b : Bytes) : String :=
  asciiText (((Base64.encode b).map Base64.urlSafe).rdropWhile (· = Base64.equals))

/-- A verifier that is not ASCII is not encoded. -/
def createPkceChallenge (verifier : String) : Except String String :=
  if verifier.toList.all (·.toNat < 128) then .ok (urlsafeB64encode (sha256 (bytes verifier)))
  else .error "UnicodeEncodeError"

/-- `secrets.token_urlsafe(48)` with the bytes that it draws. -/
def tokenUrlsafe (random : Vector UInt8 48) : String := urlsafeB64encode random.toList

def generate (random : Vector UInt8 48) : Except String PkcePair :=
  let verifier := tokenUrlsafe random
  (createPkceChallenge sha256 verifier).map fun challenge => { verifier, challenge }

end Python

namespace Go

/-- `base64.RawURLEncoding`: an encoder of its own, with the alphabet of base64url and unpadded. -/
def rawUrlEncodeToString (b : Bytes) : String :=
  asciiText (Base64Url.encodeBlocks OpenSslCryptoProvider.kBase64UrlAlphabet b)

/-- Nothing is drawn where reading random bytes fails. -/
def createVerifier (random : Option (Vector UInt8 48)) : Except String String :=
  match random with
  | none => .error "authforge: reading random bytes for PKCE verifier"
  | some buf => .ok (rawUrlEncodeToString buf.toList)

def createChallenge (verifier : String) : String := rawUrlEncodeToString (sha256 (bytes verifier))

def newPkcePair (random : Option (Vector UInt8 48)) : Except String PkcePair :=
  match createVerifier random with
  | .error err => .error err
  | .ok verifier => .ok { verifier, challenge := createChallenge sha256 verifier }

end Go

/-! The server's side. -/

def hexChars : Bytes := bytes "0123456789abcdef"

def hexPair (b : UInt8) : Bytes :=
  [hexChars.getD (b >>> 4).toNat 0, hexChars.getD (b &&& 0x0F).toNat 0]

/-- `OpenSslCryptoProvider`. -/
def openSslCryptoProvider : CryptoProvider where
  sha256 data := sha256 (bytes data)
  sha256Hex data := asciiText ((sha256 (bytes data)).flatMap hexPair)
  base64UrlEncode b := asciiText (OpenSslCryptoProvider.base64UrlEncodeImpl b)

def isPkceChar (c : UInt8) : Bool :=
  isLetter c || isDigit c || c = dash || c = 46 || c = underscore || c = 126

def isValidPkceCharsetAndLength (value : String) : Bool :=
  43 ≤ byteLength value && byteLength value ≤ 128 && (bytes value).all isPkceChar

def isValidCodeVerifierFormat (codeVerifier : String) : Bool :=
  isValidPkceCharsetAndLength codeVerifier

def isValidCodeChallengeFormat (codeChallenge : String) : Bool :=
  isValidPkceCharsetAndLength codeChallenge


end Pkce

/-! ### Forms -/

/-- Names and values, in the order in which they are written. -/
abbrev Form := List (String × String)

/-- `quote_plus` of Python and `QueryEscape` of Go write the same for a text. -/
def quotePlus (s : String) : String := asciiText (QueryString.encode (bytes s))

def urlencode (form : Form) : String :=
  "&".intercalate (form.map fun p => quotePlus p.1 ++ "=" ++ quotePlus p.2)

/-- The base URL without slashes at its end. -/
def normalizeBaseUrl (baseUrl : String) : String :=
  String.ofList (baseUrl.toList.rdropWhile (· = '/'))

/-- Client id and secret as both clients write them into the header. -/
def basicHeader (clientId clientSecret : String) : String :=
  "Basic " ++ asciiText (Base64.encode (bytes (clientId ++ ":" ++ clientSecret)))

/-- A request to the token endpoint. -/
structure TokenPost where
  authorization : Option String := none
  body : String

/-! ### The Python client -/

namespace Python

def truthy (s : Option String) : Bool := s.getD "" ≠ ""

/-- `a or b`. -/
def either (a b : Option String) : Option String := if truthy a then a else b

structure TokenRequest where
  grantType : String
  code : Option String := none
  redirectUri : Option String := none
  refreshToken : Option String := none
  codeVerifier : Option String := none
  clientId : Option String := none
  clientSecret : Option String := none
  scope : Option String := none
  deviceCode : Option String := none

/-- A field that is set. -/
def field (name : String) (value : Option String) : Form := (value.map fun v => (name, v)).toList

def TokenRequest.toDict (r : TokenRequest) : Form :=
  ("grant_type", r.grantType) :: (field "code" r.code ++ field "redirect_uri" r.redirectUri ++
    field "refresh_token" r.refreshToken ++ field "code_verifier" r.codeVerifier ++
    field "client_id" r.clientId ++ field "client_secret" r.clientSecret ++ field "scope" r.scope ++
    field "device_code" r.deviceCode)

structure AuthorizationCodeFlow where
  baseUrl : String
  clientId : String
  clientSecret : Option String := none
  redirectUri : Option String := none
  scopes : List String := []

namespace AuthorizationCodeFlow

def init (baseUrl clientId : String) (clientSecret redirectUri : Option String)
    (scopes : List String) : AuthorizationCodeFlow :=
  { baseUrl := normalizeBaseUrl baseUrl, clientId, clientSecret, redirectUri, scopes }

variable (flow : AuthorizationCodeFlow)

def authorizeUrl : String := flow.baseUrl ++ "/oauth2/authorize"

def authorizeParams (state : Option String) (pkce : Option PkcePair) (scopes : Option (List String))
    (redirectUri : Option String) : Form :=
  let params : Form := [("response_type", "code"), ("client_id", flow.clientId)]
  let effectiveRedirect := either redirectUri flow.redirectUri
  let params :=
    if truthy effectiveRedirect then params ++ field "redirect_uri" effectiveRedirect else params
  let effectiveScopes := scopes.getD flow.scopes
  let params :=
    if effectiveScopes ≠ [] then params ++ [("scope", " ".intercalate effectiveScopes)] else params
  let params := if truthy state then params ++ field "state" state else params
  match pkce with
  | none => params
  | some pkce =>
    params ++ [("code_challenge", pkce.challenge), ("code_challenge_method", "S256")]

def buildAuthorizeUrl (state : Option String) (pkce : Option PkcePair)
    (scopes : Option (List String)) (redirectUri : Option String) : String :=
  flow.authorizeUrl ++ "?" ++ urlencode (flow.authorizeParams state pkce scopes redirectUri)

/-- The header that every request of `_token_http_client` carries. -/
def tokenHttpClient : Option String := flow.clientSecret.map (basicHeader flow.clientId)

/-- A public client names itself in the form. -/
def post (request : TokenRequest) : TokenPost where
  authorization := flow.tokenHttpClient
  body :=
    urlencode (if flow.clientSecret = none then { request with clientId := some flow.clientId }
      else request).toDict

def exchangeCode (code : String) (codeVerifier redirectUri : Option String) : TokenPost :=
  flow.post
    { grantType := "authorization_code", code := some code, codeVerifier
      redirectUri := some ((either redirectUri flow.redirectUri).getD "") }

def refresh (refreshToken : String) : TokenPost :=
  flow.post { grantType := "refresh_token", refreshToken := some refreshToken }

end AuthorizationCodeFlow

end Python

/-! ### The Go client -/

namespace Go

/-- `url.Values`, in the order in which the keys were set. -/
abbrev Values := Form

def Values.set (v : Values) (key value : String) : Values :=
  v.filter (·.1 ≠ key) ++ [(key, value)]

/-- The keys are sorted. -/
def Values.encode (v : Values) : String := urlencode (v.insertionSort fun p q => p.1 ≤ q.1)

structure AuthCodeFlow where
  baseUrl : String
  clientId : String
  clientSecret : String := ""
  redirectUri : String := ""
  scopes : List String := []

def newAuthCodeFlow (baseUrl clientId clientSecret redirectUri : String) (scopes : List String) :
    AuthCodeFlow :=
  { baseUrl := normalizeBaseUrl baseUrl, clientId, clientSecret, redirectUri, scopes }

namespace AuthCodeFlow

variable (flow : AuthCodeFlow)

def authorizeValues (state : String) (pkce : Option PkcePair) : Values :=
  let params : Values := []
  let params := params.set "response_type" "code"
  let params := params.set "client_id" flow.clientId
  let params :=
    if flow.redirectUri ≠ "" then params.set "redirect_uri" flow.redirectUri else params
  let params :=
    if flow.scopes ≠ [] then params.set "scope" (" ".intercalate flow.scopes) else params
  let params := if state ≠ "" then params.set "state" state else params
  match pkce with
  | none => params
  | some pkce =>
    let params := params.set "code_challenge" pkce.challenge
    params.set "code_challenge_method" "S256"

def buildAuthorizeURL (state : String) (pkce : Option PkcePair) : Except String String :=
  if flow.baseUrl = "" then .error "authforge: invalid base URL \"\""
  else
    .ok (flow.baseUrl ++ "/oauth2/authorize" ++ "?" ++ (flow.authorizeValues state pkce).encode)

/-- The request of `postFormWithBasic`. -/
def postFormWithBasic (form : Values) (clientId clientSecret : String) : TokenPost where
  authorization := if clientSecret ≠ "" then some (basicHeader clientId clientSecret) else none
  body := form.encode

def exchangeCode (code codeVerifier : String) : TokenPost :=
  let form : Values := []
  let form := form.set "grant_type" "authorization_code"
  let form := form.set "code" code
  let form := if flow.redirectUri ≠ "" then form.set "redirect_uri" flow.redirectUri else form
  let form := if codeVerifier ≠ "" then form.set "code_verifier" codeVerifier else form
  let form :=
    if flow.clientSecret = "" ∧ flow.clientId ≠ "" then form.set "client_id" flow.clientId else form
  postFormWithBasic form flow.clientId flow.clientSecret

def refresh (refreshToken : String) : TokenPost :=
  let form : Values := []
  let form := form.set "grant_type" "refresh_token"
  let form := form.set "refresh_token" refreshToken
  let form :=
    if flow.clientSecret = "" ∧ flow.clientId ≠ "" then form.set "client_id" flow.clientId else form
  postFormWithBasic form flow.clientId flow.clientSecret

end AuthCodeFlow

end Go

end AuthForge.Sdk
