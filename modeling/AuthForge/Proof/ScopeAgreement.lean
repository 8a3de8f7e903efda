import AuthForge.Authz.ScopeStrings
import AuthForge.Http.Issuance

/-!
# Scope strings mean the same where they are granted and where they are enforced

Whatever a resource filter reads out of a scope string was a scope of the client when the string
was granted, as long as the string has no tab: the grant keeps the tabs of a token and the filter
drops the leading ones.
-/

namespace AuthForge.ScopeStrings

open OAuth2 Http

variable {client : OAuth2Client} {scope r : String}

theorem issuance_allowsAllScopes_eq (client : OAuth2Client) (scope : String) :
    Issuance.allowsAllScopes client scope = allowsAllScopes client scope := by
  rw [Bool.eq_iff_iff, allowsAllScopes_iff, Issuance.allowsAllScopes, requestedScopes,
    splitNonEmpty, List.all_eq_true]
  constructor
  · intro h part hne hpart
    exact h _ (List.mem_map_of_mem (List.mem_filter.mpr ⟨hpart, by simpa using hne⟩))
  · intro h granted hgranted
    obtain ⟨part, hpart, rfl⟩ := List.mem_map.mp hgranted
    obtain ⟨hmem, hne⟩ := List.mem_filter.mp hpart
    exact h part (by simpa using hne) hmem

/-- The decision engine accepts what its list of scopes is made of. -/
def EngineAccepts (client : OAuth2Client) (scope : String) : Prop :=
  ∃ adminScopes ports, ports.client = some client ∧
    (AuthorizationService.evaluateScopes adminScopes ports (getlineScopes scope)).hasErrors = false

theorem allowed_of_engine (h : EngineAccepts client scope) (hr : r ∈ requestedScopes scope) :
    r ∈ client.allowedScopes := by
  obtain ⟨adminScopes, ports, hclient, haccepts⟩ := h
  rw [getlineScopes_eq] at haccepts
  obtain ⟨found, hfound, hallowed, -⟩ := AuthorizationService.evaluateScopes_sound haccepts hr
  rw [hclient] at hfound
  cases hfound
  exact hallowed

theorem allowed_of_allowsAllScopes (h : allowsAllScopes client scope = true)
    (hr : r ∈ requestedScopes scope) : r ∈ client.allowedScopes := by
  rw [requestedScopes, splitNonEmpty, List.mem_map] at hr
  obtain ⟨part, hpart, rfl⟩ := hr
  obtain ⟨hmem, hne⟩ := List.mem_filter.mp hpart
  have hallowed := allowsAllScopes_iff.mp h part (by simpa using hne) hmem
  simpa [OAuth2Client.allowsScope] using hallowed

theorem mem_of_mem_splitOn {cs part : List Char} {c : Char} (h : part ∈ cs.splitOn ' ')
    (hc : c ∈ part) : c ∈ cs := by
  induction cs generalizing part with
  | nil =>
    rw [List.splitOn_nil, List.mem_singleton] at h
    rwa [h] at hc
  | cons d cs ih =>
    rw [List.splitOn_cons_eq_if_modifyHead] at h
    split at h
    · rcases List.mem_cons.mp h with rfl | hrest
      · cases hc
      · exact List.mem_cons_of_mem d (ih hrest hc)
    · cases hsplit : cs.splitOn ' ' with
      | nil => exact absurd hsplit (List.splitOn_ne_nil ' ' cs)
      | cons first rest =>
        rw [hsplit, List.modifyHead_cons] at h
        rcases List.mem_cons.mp h with rfl | hrest
        · rcases List.mem_cons.mp hc with rfl | hc
          · exact List.mem_cons_self ..
          · exact List.mem_cons_of_mem d (ih (hsplit ▸ List.mem_cons_self ..) hc)
        · exact List.mem_cons_of_mem d (ih (hsplit ▸ List.mem_cons_of_mem first hrest) hc)

/-- Without tabs a filter's tokens are the requested scopes. -/
theorem mem_requestedScopes_of_hasScope (htab : '\t' ∉ scope.toList) (hne : r ≠ "")
    (h : hasScope scope r = true) : r ∈ requestedScopes scope := by
  rw [hasScope_iff hne, scopePieces, List.mem_map] at h
  obtain ⟨part, hpart, hpiece⟩ := h
  have hkeep : part.dropWhile (· = '\t') = part := by
    cases part with
    | nil => rfl
    | cons c part =>
      have hc : c ≠ '\t' := fun heq =>
        htab (heq ▸ mem_of_mem_splitOn hpart (List.mem_cons_self ..))
      exact List.dropWhile_cons_of_neg (by simpa using hc)
  rw [hkeep] at hpiece
  subst hpiece
  rw [requestedScopes, splitNonEmpty, List.mem_map]
  exact ⟨r.toList, List.mem_filter.mpr ⟨hpart, by simpa using hne⟩, String.ofList_toList⟩

theorem hasAllScopes_iff {tokenScopes requiredScopes : String} :
    hasAllScopes tokenScopes requiredScopes = true ↔
      ∀ token ∈ requiredScopes.toList.splitOn ' ',
        hasScope tokenScopes (String.ofList (token.dropWhile (· = '\t'))) = true := by
  rw [hasAllScopes, hasAllScopesLoop_iff le_rfl]
  unfold scopePieces
  constructor
  · intro h token htoken
    by_cases hempty : token.dropWhile (· = '\t') = []
    · rw [hempty]
      rfl
    · exact h _ hempty (List.mem_map_of_mem htoken)
  · intro h piece _ hpiece
    obtain ⟨token, htoken, rfl⟩ := List.mem_map.mp hpiece
    exact h token htoken

/-- What a filter reads was granted, both `hasScope` functions agree on all strings, and
`hasAllScopes` asks for each token. -/
theorem scope_strings_agree (client : OAuth2Client) (scope r s t : String) :
    ('\t' ∉ scope.toList → (allowsAllScopes client scope = true ∨ EngineAccepts client scope) →
      r ≠ "" → hasScope scope r = true → r ∈ client.allowedScopes) ∧
    scopeContains s t = hasScope s t ∧
    (hasAllScopes s t = true ↔
      ∀ token ∈ t.toList.splitOn ' ',
        hasScope s (String.ofList (token.dropWhile (· = '\t'))) = true) := by
  refine ⟨fun htab hgranted hne hhas => ?_, scopeContains_eq_hasScope s t, hasAllScopes_iff⟩
  have hrequested := mem_requestedScopes_of_hasScope htab hne hhas
  rcases hgranted with hall | hengine
  · exact allowed_of_allowsAllScopes hall hrequested
  · exact allowed_of_engine hengine hrequested

def webClient : OAuth2Client where
  clientId := "web"
  clientType := .PUBLIC
  clientSecretHash := ""
  salt := ""
  redirectUris := []
  allowedScopes := ["openid", "profile"]

theorem scope_strings_agree_webClient :
    hasScope " profile  openid" "openid" = true ∧ "openid" ∈ webClient.allowedScopes :=
  ⟨by decide, (scope_strings_agree webClient " profile  openid" "openid" "" "").1
    (by decide) (.inl (by decide)) (by decide) (by decide)⟩

end AuthForge.ScopeStrings
