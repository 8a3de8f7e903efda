import AuthForge.Base.Text
import AuthForge.OAuth2.Repository

/-!
# Redirect URIs and scopes

`ClientService::validateRedirectUri` and the scope decision engine: a scope has to be in the
client's allowlist, an admin scope needs the role `admin`, and the user has to have consented.
-/

namespace AuthForge.OAuth2

def OAuth2Client.isRegisteredRedirectUri (client : OAuth2Client) (redirectUri : String) : Bool :=
  redirectUri ∈ client.redirectUris

def OAuth2Client.allowsScope (client : OAuth2Client) (scope : String) : Bool :=
  scope ∈ client.allowedScopes

def validateRedirectUri (client : Option OAuth2Client) (redirectUri : String) : Bool :=
  match client with
  | none => false
  | some client => client.isRegisteredRedirectUri redirectUri

def requestedScopes (scope : String) : List String := splitNonEmpty ' ' scope

/-! ### The decision engine -/

inductive ScopeDecision
  | Valid
  | Invalid
  | ConsentRequired
  deriving DecidableEq, Repr

structure ScopeCheckResult where
  scope : String
  decision : ScopeDecision
  reason : String
  deriving DecidableEq, Repr

def evaluateScope (scope : String) (client : OAuth2Client) (hasAdminRole hasConsent : Bool)
    (scopeRequiresAdmin : String → Bool) : ScopeCheckResult :=
  if client.allowsScope scope = false then ⟨scope, .Invalid, "scope_not_allowed_for_client"⟩
  else if scopeRequiresAdmin scope = true ∧ hasAdminRole = false then
    ⟨scope, .Invalid, "admin_role_required"⟩
  else if hasConsent = false then ⟨scope, .ConsentRequired, "user_consent_required"⟩
  else ⟨scope, .Valid, ""⟩

structure ScopeValidationSummary where
  valid : List String := []
  invalid : List String := []
  consentRequired : List String := []
  invalidReasons : List String := []
  deriving DecidableEq, Repr

namespace ScopeValidationSummary

def hasErrors (summary : ScopeValidationSummary) : Bool := summary.invalid ≠ []

def needsConsent (summary : ScopeValidationSummary) : Bool :=
  summary.invalid = [] && summary.consentRequired ≠ []

def add (summary : ScopeValidationSummary) (result : ScopeCheckResult) : ScopeValidationSummary :=
  match result.decision with
  | .Valid => { summary with valid := summary.valid ++ [result.scope] }
  | .Invalid =>
    { summary with
      invalid := summary.invalid ++ [result.scope]
      invalidReasons := summary.invalidReasons ++ [result.reason] }
  | .ConsentRequired =>
    { summary with consentRequired := summary.consentRequired ++ [result.scope] }

end ScopeValidationSummary

/-- The result for one scope; consent counts only where the first two tiers pass. -/
def checkScope (client : OAuth2Client) (hasAdminRole : Bool) (hasConsentForScope : String → Bool)
    (scopeRequiresAdmin : String → Bool) (scope : String) : ScopeCheckResult :=
  let passesAllowlistAndRole :=
    (evaluateScope scope client hasAdminRole true scopeRequiresAdmin).decision ≠ .Invalid
  evaluateScope scope client hasAdminRole (passesAllowlistAndRole && hasConsentForScope scope)
    scopeRequiresAdmin

def evaluateScopes (scopes : List String) (client : OAuth2Client) (hasAdminRole : Bool)
    (hasConsentForScope scopeRequiresAdmin : String → Bool) : ScopeValidationSummary :=
  scopes.foldl (fun summary scope =>
    summary.add (checkScope client hasAdminRole hasConsentForScope scopeRequiresAdmin scope)) {}

def allInvalid (scopes : List String) (reason : String) : ScopeValidationSummary :=
  { invalid := scopes, invalidReasons := scopes.map fun _ => reason }

def defaultAdminScopes : List String :=
  ["admin", "users:read", "users:write", "clients:read", "clients:write", "tokens:read",
   "tokens:write", "roles:read", "roles:write", "audit:read"]

/-- The ports that `AuthorizationService::evaluateScopes` asks, as far as this call sees them. -/
structure ScopePorts where
  client : Option OAuth2Client
  internalUserId : Option Int
  roles : Int → List String
  hasUserConsent : Int → String → Bool

/-- `AuthorizationService::evaluateScopes` with every port configured, for a subject that is not
empty (the authorization endpoint asks for no other): roles are asked for only when an admin scope
is requested, and an unresolved subject has neither roles nor consents. -/
def AuthorizationService.evaluateScopes (adminScopes : List String) (ports : ScopePorts)
    (requested : List String) : ScopeValidationSummary :=
  match ports.client with
  | none => allInvalid requested "client_not_found"
  | some client =>
    let needsAdminCheck := requested.any (· ∈ adminScopes)
    match ports.internalUserId with
    | none => OAuth2.evaluateScopes requested client false (fun _ => false) (· ∈ adminScopes)
    | some userId =>
      let hasAdminRole := needsAdminCheck && "admin" ∈ ports.roles userId
      OAuth2.evaluateScopes requested client hasAdminRole (ports.hasUserConsent userId)
        (· ∈ adminScopes)

/-! ### What the engine guarantees -/

variable {client : OAuth2Client} {hasAdminRole hasConsent : Bool}
  {hasConsentForScope scopeRequiresAdmin : String → Bool} {scope : String}

theorem evaluateScope_ne_invalid_iff :
    (evaluateScope scope client hasAdminRole hasConsent scopeRequiresAdmin).decision ≠ .Invalid ↔
      scope ∈ client.allowedScopes ∧ (scopeRequiresAdmin scope = true → hasAdminRole = true) := by
  unfold evaluateScope
  by_cases hallowed : client.allowsScope scope = false
  · simp only [hallowed, if_true]
    simp [OAuth2Client.allowsScope] at hallowed
    simp [hallowed]
  have hmem : scope ∈ client.allowedScopes := by
    simpa [OAuth2Client.allowsScope] using hallowed
  rw [if_neg hallowed]
  by_cases hrole : scopeRequiresAdmin scope = true ∧ hasAdminRole = false
  · simp [hrole]
  rw [if_neg hrole]
  have himp : scopeRequiresAdmin scope = true → hasAdminRole = true := by
    intro hadmin
    by_contra hno
    exact hrole ⟨hadmin, by simpa using hno⟩
  split
  · simp only [ne_eq, reduceCtorEq, not_false_eq_true, true_iff]
    exact ⟨hmem, himp⟩
  · simp only [ne_eq, reduceCtorEq, not_false_eq_true, true_iff]
    exact ⟨hmem, himp⟩

theorem invalid_foldl (scopes : List String) (summary : ScopeValidationSummary) :
    (scopes.foldl (fun summary scope =>
      summary.add (checkScope client hasAdminRole hasConsentForScope scopeRequiresAdmin scope))
      summary).invalid = [] ↔
      summary.invalid = [] ∧ ∀ scope ∈ scopes,
        (checkScope client hasAdminRole hasConsentForScope scopeRequiresAdmin scope).decision ≠
          .Invalid := by
  induction scopes generalizing summary with
  | nil => simp
  | cons scope scopes ih =>
    rw [List.foldl_cons, ih, List.forall_mem_cons]
    have hadd : (summary.add (checkScope client hasAdminRole hasConsentForScope
        scopeRequiresAdmin scope)).invalid = [] ↔ summary.invalid = [] ∧
          (checkScope client hasAdminRole hasConsentForScope scopeRequiresAdmin scope).decision ≠
            .Invalid := by
      unfold ScopeValidationSummary.add
      split <;> simp_all
    rw [hadd, and_assoc]

/-- The engine reports no error exactly when every scope passes the first two tiers. -/
theorem evaluateScopes_hasErrors_eq_false_iff {scopes : List String} :
    (evaluateScopes scopes client hasAdminRole hasConsentForScope scopeRequiresAdmin).hasErrors =
        false ↔
      ∀ scope ∈ scopes, scope ∈ client.allowedScopes ∧
        (scopeRequiresAdmin scope = true → hasAdminRole = true) := by
  rw [ScopeValidationSummary.hasErrors, decide_eq_false_iff_not, not_not, evaluateScopes,
    invalid_foldl]
  simp only [true_and]
  refine forall₂_congr fun scope _ => ?_
  exact evaluateScope_ne_invalid_iff

/-- Whoever passes the engine has every scope allowed for the client, and the role `admin` for
every admin scope. -/
theorem AuthorizationService.evaluateScopes_sound {adminScopes : List String} {ports : ScopePorts}
    {requested : List String}
    (h : (AuthorizationService.evaluateScopes adminScopes ports requested).hasErrors = false)
    (hscope : scope ∈ requested) :
    ∃ client, ports.client = some client ∧ scope ∈ client.allowedScopes ∧
      (scope ∈ adminScopes →
        ∃ userId, ports.internalUserId = some userId ∧ "admin" ∈ ports.roles userId) := by
  unfold AuthorizationService.evaluateScopes at h
  cases hclient : ports.client with
  | none =>
    rw [hclient] at h
    have hnil : requested = [] := by simpa [ScopeValidationSummary.hasErrors, allInvalid] using h
    rw [hnil] at hscope
    cases hscope
  | some client =>
    refine ⟨client, rfl, ?_⟩
    simp only [hclient] at h
    cases huser : ports.internalUserId with
    | none =>
      simp only [huser] at h
      obtain ⟨hallowed, hadmin⟩ := evaluateScopes_hasErrors_eq_false_iff.mp h scope hscope
      refine ⟨hallowed, fun hmem => ?_⟩
      cases hadmin (by simpa using hmem)
    | some userId =>
      simp only [huser] at h
      obtain ⟨hallowed, hadmin⟩ := evaluateScopes_hasErrors_eq_false_iff.mp h scope hscope
      refine ⟨hallowed, fun hmem => ⟨userId, rfl, ?_⟩⟩
      have := hadmin (by simpa using hmem)
      simpa using (Bool.and_eq_true_iff.mp this).2

end AuthForge.OAuth2
