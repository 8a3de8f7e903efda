import AuthForge.Http.ClientCredentials
import AuthForge.Http.TokenEndpoint

/-!
# The declared authentication method

The gate looks at the prefix of the Authorization header and at the presence of the parameter, the
extraction at what the header decodes to and at what the parameter holds. Together they let a secret
through only on the way that the client has declared.
-/

namespace AuthForge.DeclaredMethod

open ClientCredentials Http
open OAuth2 (OAuth2Client)

variable {base64Decode : Bytes → Option Bytes} {req : Request} {client : OAuth2Client}
  {creds : Credentials}

/-! ### Where a secret may come from -/

/-- The secret is what the body or query parameter holds. -/
def InParameters (req : Request) (secret : Bytes) : Prop :=
  req.parameters "client_secret" = some secret

/-- The secret is what a Basic header carries. -/
def InHeader (base64Decode : Bytes → Option Bytes) (req : Request) (secret : Bytes) : Prop :=
  req.IsBasic ∧ ∃ user, req.Carries base64Decode user secret

theorem inParameters_of_getParameter (h : req.getParameter "client_secret" ≠ []) :
    InParameters req (req.getParameter "client_secret") := by
  unfold InParameters Request.getParameter at *
  cases hparam : req.parameters "client_secret" with
  | none => exact absurd (by rw [hparam]; rfl) h
  | some secret => rfl

theorem inHeader_of_tokenHeader (h : (tokenHeader base64Decode req).2 ≠ []) :
    InHeader base64Decode req (tokenHeader base64Decode req).2 := by
  by_cases hbasic : req.IsBasic
  · rw [tokenHeader_of_basic hbasic] at h ⊢
    cases hparts : req.headerParts base64Decode with
    | none => exact absurd (by rw [hparts]; rfl) h
    | some parts => exact ⟨hbasic, parts.1, headerParts_eq_some_iff.mp hparts⟩
  · exact absurd (by rw [tokenHeader_of_not_basic hbasic]) h

/-- A secret that is not empty was in the header or in the parameters. -/
theorem secret_source (h : (tokenCredentials base64Decode req).clientSecret ≠ []) :
    InHeader base64Decode req (tokenCredentials base64Decode req).clientSecret ∨
      InParameters req (tokenCredentials base64Decode req).clientSecret := by
  have hsecret : (tokenCredentials base64Decode req).clientSecret =
      if (tokenHeader base64Decode req).2 = [] then req.getParameter "client_secret"
      else (tokenHeader base64Decode req).2 := congrArg Credentials.clientSecret tokenCredentials_eq
  rw [hsecret] at h ⊢
  by_cases hempty : (tokenHeader base64Decode req).2 = []
  · rw [if_pos hempty] at h ⊢
    exact .inr (inParameters_of_getParameter h)
  · rw [if_neg hempty]
    exact .inl (inHeader_of_tokenHeader hempty)

theorem authScheme_eq_basic_iff :
    (tokenCredentials base64Decode req).authScheme = "Basic" ↔ req.IsBasic := by
  rw [tokenCredentials_eq, ← take_eq_iff]
  dsimp only
  split
  · rename_i hbasic
    exact iff_of_true rfl hbasic
  · rename_i hbasic
    exact iff_of_false (by decide) hbasic

/-! ### The gate -/

theorem methodGate_eq_ok_iff : methodGate base64Decode req (some client) = .ok creds ↔
    creds = tokenCredentials base64Decode req ∧
      enforceClientAuthMethod client.tokenEndpointAuthMethod creds
        (req.parameters "client_secret").isSome = "" := by
  unfold methodGate
  dsimp only
  split
  · rename_i herror
    refine iff_of_false nofun ?_
    intro h
    rw [h.1] at h
    exact herror h.2
  · rename_i hnone
    rw [Except.ok.injEq]
    constructor
    · intro h
      rw [← h]
      exact ⟨rfl, not_not.mp hnone⟩
    · exact fun h => h.1.symm

theorem passes_none {secretInBody : Bool}
    (h : enforceClientAuthMethod "none" creds secretInBody = "") : creds.clientSecret = [] := by
  unfold enforceClientAuthMethod at h
  rw [if_neg (by decide), if_pos rfl] at h
  by_contra hsecret
  rw [if_pos hsecret] at h
  exact absurd h (by decide)

theorem passes_basic {secretInBody : Bool}
    (h : enforceClientAuthMethod "client_secret_basic" creds secretInBody = "") :
    creds.authScheme = "Basic" ∧ secretInBody = false := by
  unfold enforceClientAuthMethod at h
  rw [if_neg (by decide), if_neg (by decide), if_pos rfl] at h
  split at h
  · exact absurd h (by decide)
  · rename_i hscheme
    refine ⟨not_not.mp hscheme, ?_⟩
    cases secretInBody with
    | false => rfl
    | true => exact absurd h (by decide)

theorem passes_post {secretInBody : Bool}
    (h : enforceClientAuthMethod "client_secret_post" creds secretInBody = "") :
    creds.authScheme ≠ "Basic" := by
  unfold enforceClientAuthMethod at h
  rw [if_neg (by decide), if_neg (by decide), if_neg (by decide), if_pos rfl] at h
  intro hscheme
  rw [if_pos hscheme] at h
  exact absurd h (by decide)

theorem enforceClientAuthMethod_eq {declaredMethod secret : String} {basic secretInBody : Bool}
    (hsecret : creds.clientSecret = bytes secret)
    (hscheme : creds.authScheme = "Basic" ↔ basic = true) :
    enforceClientAuthMethod declaredMethod creds secretInBody =
      DeviceGrant.enforceClientAuthMethod declaredMethod secret basic secretInBody := by
  unfold enforceClientAuthMethod DeviceGrant.enforceClientAuthMethod
  simp only [hsecret, ne_eq, hscheme, bytes_eq_nil_iff, Bool.not_eq_true, ite_not]
  split
  · rename_i hempty
    subst hempty
    rw [if_neg (by decide), if_neg (by decide), if_neg (by decide)]
  · rfl

/-- The program of the flows asks for the client and goes on as the gate decides. -/
theorem token_gate (cfg : Config) {shown : HttpRequest} (hshows : Shows base64Decode req shown)
    (hpresent : (req.parameters "client_secret").isSome = decide ("client_secret" ∈ shown.params))
    (hvalid : RuleSet.oauth2Token shown = []) :
    ∃ k, TokenEndpoint.token cfg shown =
        .call (.getClient (DeviceGrant.tokenCredentials shown).1) k ∧
      ∀ client,
        match methodGate base64Decode req client with
        | .error methodErr => k client = TokenEndpoint.invalidClient methodErr
        | .ok creds => creds.clientSecret = bytes (DeviceGrant.tokenCredentials shown).2 ∧
            k client = TokenEndpoint.dispatchGrant cfg shown
              (DeviceGrant.tokenCredentials shown).1 (DeviceGrant.tokenCredentials shown).2 := by
  obtain ⟨-, hsecret⟩ := shows_tokenCredentials hshows
  unfold TokenEndpoint.token
  rw [hvalid]
  refine ⟨_, rfl, ?_⟩
  intro client
  cases client with
  | none => exact ⟨hsecret, rfl⟩
  | some client =>
    have hsame : enforceClientAuthMethod client.tokenEndpointAuthMethod
        (tokenCredentials base64Decode req) (req.parameters "client_secret").isSome =
        DeviceStatements.methodErrOf shown (DeviceGrant.tokenCredentials shown).2 (some client) := by
      rw [hpresent]
      exact enforceClientAuthMethod_eq hsecret (authScheme_eq_basic_iff.trans hshows.basic)
    simp only [methodGate, hsame]
    by_cases herror : DeviceStatements.methodErrOf shown (DeviceGrant.tokenCredentials shown).2
        (some client) = ""
    · rw [if_neg (not_not_intro herror)]
      exact ⟨hsecret, if_neg (not_not_intro herror)⟩
    · rw [if_pos herror]
      exact if_pos herror

/-- What the declared method asks of the secret that the grants get. -/
structure Enforced (base64Decode : Bytes → Option Bytes) (req : Request) (declaredMethod : String)
    (secret : Bytes) : Prop where
  basic : declaredMethod = "client_secret_basic" →
    ¬InParameters req secret ∧ (secret ≠ [] → InHeader base64Decode req secret)
  post : declaredMethod = "client_secret_post" →
    ¬InHeader base64Decode req secret ∧ (secret ≠ [] → InParameters req secret)
  none : declaredMethod = "none" → secret = []

/-- A request that passes the gate hands the grants a secret that came on the declared way. -/
theorem declared_method_enforced (base64Decode : Bytes → Option Bytes) (req : Request)
    (client : OAuth2Client) (creds : Credentials)
    (hpass : methodGate base64Decode req (some client) = .ok creds) :
    Enforced base64Decode req client.tokenEndpointAuthMethod creds.clientSecret := by
  obtain ⟨rfl, hmethod⟩ := methodGate_eq_ok_iff.mp hpass
  refine ⟨?_, ?_, ?_⟩
  · intro hbasic
    rw [hbasic] at hmethod
    obtain ⟨-, hbody⟩ := passes_basic hmethod
    have hnone : ¬InParameters req (tokenCredentials base64Decode req).clientSecret := by
      intro hparam
      rw [hparam] at hbody
      cases hbody
    exact ⟨hnone, fun hsecret => (secret_source hsecret).resolve_right hnone⟩
  · intro hpost
    rw [hpost] at hmethod
    have hnone : ¬InHeader base64Decode req (tokenCredentials base64Decode req).clientSecret :=
      fun hheader => passes_post hmethod (authScheme_eq_basic_iff.mpr hheader.1)
    exact ⟨hnone, fun hsecret => (secret_source hsecret).resolve_left hnone⟩
  · intro hdeclared
    rw [hdeclared] at hmethod
    exact passes_none hmethod

/-- Id and secret in the header, and neither in the body. -/
def headerOnly : Request where
  authorization := bytes "Basic YWxpY2U6czNjcmV0"
  parameters := fun name => if name = "grant_type" then some (bytes "client_credentials") else none

/-- Base64 on the one header above. -/
def decodesSecret (encoded : Bytes) : Option Bytes :=
  if encoded = bytes "YWxpY2U6czNjcmV0" then some (bytes "alice:s3cret") else none

def basicClient : OAuth2Client where
  clientId := "alice"
  clientType := .CONFIDENTIAL
  clientSecretHash := ""
  salt := ""
  redirectUris := []
  allowedScopes := []
  tokenEndpointAuthMethod := "client_secret_basic"

theorem declared_method_enforced_headerOnly :
    ∃ creds, methodGate decodesSecret headerOnly (some basicClient) = .ok creds ∧
      creds.clientSecret = bytes "s3cret" ∧
      Enforced decodesSecret headerOnly "client_secret_basic" creds.clientSecret := by
  have hgate : enforceClientAuthMethod basicClient.tokenEndpointAuthMethod
        (tokenCredentials decodesSecret headerOnly) false = "" ∧
      (tokenCredentials decodesSecret headerOnly).clientSecret = bytes "s3cret" := by
    decide +kernel
  have hpass := methodGate_eq_ok_iff.mpr ⟨rfl, hgate.1⟩
  exact ⟨_, hpass, hgate.2, declared_method_enforced decodesSecret headerOnly basicClient _ hpass⟩

end AuthForge.DeclaredMethod
