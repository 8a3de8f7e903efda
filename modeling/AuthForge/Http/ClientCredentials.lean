import AuthForge.Http.DeviceGrant

/-!
# Client credentials as each endpoint extracts them

The token endpoint reads the Authorization header and the parameters on its own; introspection and
revocation share `extractClientCredentials`, and device authorization has a copy of it. Headers and
parameters are bytes here, for a decoded header need not be text.
-/

namespace AuthForge.ClientCredentials

abbrev Bytes := List UInt8

structure Request where
  /-- The method is POST. -/
  post : Bool := true
  /-- The Authorization header, empty when there is none. -/
  authorization : Bytes
  parameters : String → Option Bytes

def Request.getParameter (req : Request) (name : String) : Bytes := (req.parameters name).getD []

structure Credentials where
  clientId : Bytes := []
  clientSecret : Bytes := []
  authScheme : String := ""
  deriving DecidableEq, Repr

def basicPrefix : Bytes := bytes "Basic "

def colon : UInt8 := 58

/-- The two `substr` around the first colon. -/
def cutAtColon (decoded : Bytes) : Option (Bytes × Bytes) :=
  if colon ∈ decoded then
    some (decoded.takeWhile (· ≠ colon), (decoded.dropWhile (· ≠ colon)).drop 1)
  else none

-- `drogon::utils::base64Decode`; `none` is an exception.
variable (base64Decode : Bytes → Option Bytes)

def extractClientCredentials (req : Request) : Credentials :=
  let authHeader := req.authorization
  if authHeader ≠ [] ∧ basicPrefix.isPrefixOf authHeader then
    match base64Decode (authHeader.drop 6) with
    | none => { authScheme := "Basic" }
    | some decoded =>
      match cutAtColon decoded with
      | some (clientId, clientSecret) => { clientId, clientSecret, authScheme := "Basic" }
      | none => { authScheme := "Basic" }
  else
    { clientId := req.getParameter "client_id", clientSecret := req.getParameter "client_secret" }

def extractDeviceClientCredentials (req : Request) : Credentials :=
  let creds : Credentials := {}
  let authHeader := req.authorization
  if authHeader ≠ [] ∧ basicPrefix.isPrefixOf authHeader then
    let creds := { creds with authScheme := "Basic" }
    match base64Decode (authHeader.drop 6) with
    | none => creds
    | some decoded =>
      match cutAtColon decoded with
      | some (clientId, clientSecret) => { creds with clientId, clientSecret }
      | none => creds
  else
    { creds with
      clientId := req.getParameter "client_id"
      clientSecret := req.getParameter "client_secret" }

/-- The two strings of `token` after the header has been read. -/
def tokenHeader (req : Request) : Bytes × Bytes :=
  let authHeader := req.authorization
  if authHeader ≠ [] ∧ authHeader.take 6 = basicPrefix then
    match base64Decode (authHeader.drop 6) with
    | none => ([], [])
    | some decoded =>
      match cutAtColon decoded with
      | some (clientId, clientSecret) => (clientId, clientSecret)
      | none => ([], [])
  else ([], [])

/-- The credentials of `token`; the scheme is looked up in the header where it is needed. -/
def tokenCredentials (req : Request) : Credentials :=
  let (clientId, clientSecret) := tokenHeader base64Decode req
  let (clientId, clientSecret) :=
    if clientId = [] ∨ req.post = true then
      let params := fun name => (req.parameters name).getD []
      (if clientId = [] then params "client_id" else clientId,
        if clientSecret = [] then params "client_secret" else clientSecret)
    else
      (if clientId = [] then req.getParameter "client_id" else clientId,
        if clientSecret = [] then req.getParameter "client_secret" else clientSecret)
  { clientId, clientSecret
    authScheme :=
      if req.authorization ≠ [] ∧ req.authorization.take 6 = basicPrefix then "Basic" else "" }

/-! ### The method gate of the token endpoint -/

/-- An empty declared method enforces nothing, and neither does one that is not known. -/
def enforceClientAuthMethod (declaredMethod : String) (creds : Credentials)
    (secretInBody : Bool) : String :=
  if declaredMethod = "" then ""
  else if declaredMethod = "none" then
    if creds.clientSecret ≠ [] then
      "client declared token_endpoint_auth_method=none but supplied a client_secret"
    else ""
  else if declaredMethod = "client_secret_basic" then
    if creds.authScheme ≠ "Basic" then
      "client requires token_endpoint_auth_method=client_secret_basic (HTTP Basic)"
    else if secretInBody then
      "client_secret must not be sent in the body for client_secret_basic clients"
    else ""
  else if declaredMethod = "client_secret_post" then
    if creds.authScheme = "Basic" then
      "client requires token_endpoint_auth_method=client_secret_post (body)"
    else ""
  else ""

/-- What `token` does with the client that the repository answered: an error, or the credentials that
`dispatchGrant` has captured. A client that is not found passes. -/
def methodGate (req : Request) (client : Option OAuth2.OAuth2Client) :
    Except String Credentials :=
  let creds := tokenCredentials base64Decode req
  match client with
  | none => .ok creds
  | some client =>
    let secretInBody := (req.parameters "client_secret").isSome
    let methodErr := enforceClientAuthMethod client.tokenEndpointAuthMethod creds secretInBody
    if methodErr ≠ "" then .error methodErr else .ok creds

/-! ### What they read -/

section Read

variable {base64Decode} {req : Request} {decoded user password : Bytes}

def Request.IsBasic (req : Request) : Prop := basicPrefix <+: req.authorization

/-- The header carries `user:password`. -/
def Request.Carries (base64Decode : Bytes → Option Bytes) (req : Request)
    (user password : Bytes) : Prop :=
  base64Decode (req.authorization.drop 6) = some (user ++ colon :: password) ∧ colon ∉ user

/-- What a Basic header gives. -/
def Request.headerParts (base64Decode : Bytes → Option Bytes) (req : Request) :
    Option (Bytes × Bytes) :=
  (base64Decode (req.authorization.drop 6)).bind cutAtColon

theorem cutAtColon_append (huser : colon ∉ user) :
    cutAtColon (user ++ colon :: password) = some (user, password) := by
  have hne : ∀ b ∈ user, b ≠ colon := fun b hb heq => huser (heq ▸ hb)
  have htake : (user ++ colon :: password).takeWhile (· ≠ colon) = user := by
    rw [List.takeWhile_append_of_pos (by simpa using hne)]
    simp
  have hdrop : (user ++ colon :: password).dropWhile (· ≠ colon) = colon :: password := by
    rw [List.dropWhile_append_of_pos (by simpa using hne)]
    simp
  rw [cutAtColon, if_pos (by simp), htake, hdrop]
  rfl

theorem cutAtColon_eq_some_iff :
    cutAtColon decoded = some (user, password) ↔
      decoded = user ++ colon :: password ∧ colon ∉ user := by
  constructor
  · intro h
    by_cases hmem : colon ∈ decoded
    · obtain ⟨before, after, rfl, hbefore⟩ := List.eq_append_cons_of_mem hmem
      rw [cutAtColon_append hbefore, Option.some.injEq, Prod.mk.injEq] at h
      rw [← h.1, ← h.2]
      exact ⟨rfl, hbefore⟩
    · rw [cutAtColon, if_neg hmem] at h
      cases h
  · rintro ⟨rfl, huser⟩
    exact cutAtColon_append huser

theorem headerParts_eq_some_iff :
    req.headerParts base64Decode = some (user, password) ↔
      req.Carries base64Decode user password := by
  rw [Request.headerParts, Option.bind_eq_some_iff]
  constructor
  · rintro ⟨decoded, hdecoded, hcut⟩
    obtain ⟨rfl, huser⟩ := cutAtColon_eq_some_iff.mp hcut
    exact ⟨hdecoded, huser⟩
  · rintro ⟨hdecoded, huser⟩
    exact ⟨_, hdecoded, cutAtColon_append huser⟩

theorem ne_nil_of_isBasic (h : req.IsBasic) : req.authorization ≠ [] :=
  List.ne_nil_of_length_pos (Nat.lt_of_lt_of_le (by decide) h.length_le)

theorem isBasic_iff : req.authorization ≠ [] ∧ basicPrefix.isPrefixOf req.authorization ↔
    req.IsBasic := by
  rw [List.isPrefixOf_iff_prefix]
  exact ⟨And.right, fun h => ⟨ne_nil_of_isBasic h, h⟩⟩

/-- `substr(0, 6) == "Basic "` and `find("Basic ") == 0` are the same test. -/
theorem take_eq_iff : req.authorization ≠ [] ∧ req.authorization.take 6 = basicPrefix ↔
    req.IsBasic := by
  have hsame : req.authorization.take 6 = basicPrefix ↔ req.IsBasic := by
    rw [Request.IsBasic, List.prefix_iff_eq_take, eq_comm]
    rfl
  rw [hsame]
  exact ⟨And.right, fun h => ⟨ne_nil_of_isBasic h, h⟩⟩

theorem extractClientCredentials_of_basic (h : req.IsBasic) :
    extractClientCredentials base64Decode req =
      { clientId := ((req.headerParts base64Decode).getD ([], [])).1
        clientSecret := ((req.headerParts base64Decode).getD ([], [])).2
        authScheme := "Basic" } := by
  rw [extractClientCredentials, if_pos (isBasic_iff.mpr h), Request.headerParts]
  cases base64Decode (req.authorization.drop 6) with
  | none => rfl
  | some decoded =>
    simp only [Option.bind_some]
    cases cutAtColon decoded <;> rfl

theorem extractClientCredentials_of_not_basic (h : ¬ req.IsBasic) :
    extractClientCredentials base64Decode req =
      { clientId := req.getParameter "client_id"
        clientSecret := req.getParameter "client_secret" } := by
  rw [extractClientCredentials, if_neg (mt isBasic_iff.mp h)]

theorem extractDeviceClientCredentials_eq :
    extractDeviceClientCredentials base64Decode req = extractClientCredentials base64Decode req :=
  rfl

theorem tokenHeader_of_basic (h : req.IsBasic) :
    tokenHeader base64Decode req = (req.headerParts base64Decode).getD ([], []) := by
  rw [tokenHeader, if_pos (take_eq_iff.mpr h), Request.headerParts]
  cases base64Decode (req.authorization.drop 6) with
  | none => rfl
  | some decoded =>
    simp only [Option.bind_some]
    cases cutAtColon decoded <;> rfl

theorem tokenHeader_of_not_basic (h : ¬ req.IsBasic) :
    tokenHeader base64Decode req = ([], []) := by
  rw [tokenHeader, if_neg (mt take_eq_iff.mp h)]

/-- Both branches on the method read the same two parameters. -/
theorem tokenCredentials_eq :
    tokenCredentials base64Decode req =
      { clientId :=
          if (tokenHeader base64Decode req).1 = [] then req.getParameter "client_id"
          else (tokenHeader base64Decode req).1
        clientSecret :=
          if (tokenHeader base64Decode req).2 = [] then req.getParameter "client_secret"
          else (tokenHeader base64Decode req).2
        authScheme :=
          if req.authorization ≠ [] ∧ req.authorization.take 6 = basicPrefix then "Basic"
          else "" } := by
  rcases hheader : tokenHeader base64Decode req with ⟨clientId, clientSecret⟩
  simp only [tokenCredentials, hheader]
  split <;> rfl

theorem tokenCredentials_of_not_basic (h : ¬ req.IsBasic) :
    tokenCredentials base64Decode req = extractClientCredentials base64Decode req := by
  rw [tokenCredentials_eq, extractClientCredentials_of_not_basic h, tokenHeader_of_not_basic h,
    if_neg (mt take_eq_iff.mp h)]
  rfl

end Read

/-! ### The requests of the flows -/

section Flows

open Http

variable {base64Decode} {req : Request} {shown : HttpRequest}

/-- The request of the flows' model that has this header and these parameters as texts. -/
structure Shows (base64Decode : Bytes → Option Bytes) (req : Request) (shown : HttpRequest) :
    Prop where
  basic : req.IsBasic ↔ shown.basic.isSome = true
  parts : ∀ parts, shown.basic = some parts →
    req.headerParts base64Decode = parts.map fun p => (bytes p.1, bytes p.2)
  parameter : ∀ name, req.getParameter name = bytes (shown.getParameter name)

theorem shows_tokenCredentials (h : Shows base64Decode req shown) :
    (tokenCredentials base64Decode req).clientId = bytes (DeviceGrant.tokenCredentials shown).1 ∧
      (tokenCredentials base64Decode req).clientSecret =
        bytes (DeviceGrant.tokenCredentials shown).2 := by
  have hheader : tokenHeader base64Decode req =
      (bytes ((shown.basic.bind id).getD ("", "")).1,
        bytes ((shown.basic.bind id).getD ("", "")).2) := by
    cases hbasic : shown.basic with
    | none =>
      have hnot : ¬ req.IsBasic := fun hreq => by simpa [hbasic] using h.basic.mp hreq
      exact tokenHeader_of_not_basic hnot
    | some parts =>
      rw [tokenHeader_of_basic (h.basic.mpr (by rw [hbasic]; rfl)), h.parts parts hbasic]
      cases parts <;> rfl
  rw [tokenCredentials_eq, hheader]
  simp only [DeviceGrant.tokenCredentials, bytes_eq_nil_iff, h.parameter]
  constructor <;> split <;> rfl

theorem shows_extractDeviceClientCredentials (h : Shows base64Decode req shown) :
    (extractDeviceClientCredentials base64Decode req).clientId =
        bytes (DeviceGrant.extractDeviceClientCredentials shown).1 ∧
      (extractDeviceClientCredentials base64Decode req).clientSecret =
        bytes (DeviceGrant.extractDeviceClientCredentials shown).2 := by
  rw [extractDeviceClientCredentials_eq, DeviceGrant.extractDeviceClientCredentials]
  cases hbasic : shown.basic with
  | none =>
    have hnot : ¬ req.IsBasic := fun hreq => by simpa [hbasic] using h.basic.mp hreq
    rw [extractClientCredentials_of_not_basic hnot]
    exact ⟨h.parameter _, h.parameter _⟩
  | some parts =>
    rw [extractClientCredentials_of_basic (h.basic.mpr (by rw [hbasic]; rfl)), h.parts parts hbasic]
    cases parts <;> exact ⟨rfl, rfl⟩

end Flows

end AuthForge.ClientCredentials
