import AuthForge.Http.ClientCredentials

/-!
# When the endpoints read the same credentials

A Basic header hides the body from introspection, revocation and device authorization. The token
endpoint completes what the header leaves empty from the body, so it reads something else exactly
when the body names an id or a secret that the header does not.
-/

namespace AuthForge.ClientCredentials

variable {base64Decode : Bytes → Option Bytes} {req : Request}

/-- The header is not Basic, or it names the id if the body does, and the secret if the body does. -/
def HeaderComplete (base64Decode : Bytes → Option Bytes) (req : Request) : Prop :=
  ¬ req.IsBasic ∨
    (req.getParameter "client_id" ≠ [] →
      ∃ user password, req.Carries base64Decode user password ∧ user ≠ []) ∧
    (req.getParameter "client_secret" ≠ [] →
      ∃ user password, req.Carries base64Decode user password ∧ password ≠ [])

/-- What the header leaves empty stays empty only if the body leaves it empty too. -/
theorem completed_eq_iff {part param : Bytes} :
    (if part = [] then param else part) = part ↔ (part = [] → param = []) := by
  split
  · rename_i hpart
    rw [hpart]
    exact ⟨fun h _ => h, fun h => h rfl⟩
  · rename_i hpart
    exact iff_of_true rfl fun h => absurd h hpart

theorem exists_user_iff :
    (∃ user password, req.Carries base64Decode user password ∧ user ≠ []) ↔
      ((req.headerParts base64Decode).getD ([], [])).1 ≠ [] := by
  simp only [← headerParts_eq_some_iff]
  cases req.headerParts base64Decode with
  | none => simp
  | some parts => exact ⟨fun ⟨_, _, heq, hne⟩ => by cases heq; exact hne, fun h => ⟨_, _, rfl, h⟩⟩

theorem exists_password_iff :
    (∃ user password, req.Carries base64Decode user password ∧ password ≠ []) ↔
      ((req.headerParts base64Decode).getD ([], [])).2 ≠ [] := by
  simp only [← headerParts_eq_some_iff]
  cases req.headerParts base64Decode with
  | none => simp
  | some parts => exact ⟨fun ⟨_, _, heq, hne⟩ => by cases heq; exact hne, fun h => ⟨_, _, rfl, h⟩⟩

theorem tokenCredentials_eq_iff_of_basic (h : req.IsBasic) :
    tokenCredentials base64Decode req = extractClientCredentials base64Decode req ↔
      (((req.headerParts base64Decode).getD ([], [])).1 = [] →
          req.getParameter "client_id" = []) ∧
        (((req.headerParts base64Decode).getD ([], [])).2 = [] →
          req.getParameter "client_secret" = []) := by
  rw [tokenCredentials_eq, extractClientCredentials_of_basic h, tokenHeader_of_basic h,
    if_pos (take_eq_iff.mpr h), Credentials.mk.injEq, completed_eq_iff, completed_eq_iff]
  simp

/-- All three extractions give the same id, secret and scheme exactly when the header is complete. -/
theorem credentials_agree_iff (base64Decode : Bytes → Option Bytes) (req : Request) :
    (tokenCredentials base64Decode req = extractClientCredentials base64Decode req ∧
      tokenCredentials base64Decode req = extractDeviceClientCredentials base64Decode req) ↔
      HeaderComplete base64Decode req := by
  rw [extractDeviceClientCredentials_eq, and_self]
  by_cases hbasic : req.IsBasic
  · rw [tokenCredentials_eq_iff_of_basic hbasic, HeaderComplete, exists_user_iff,
      exists_password_iff]
    have himp : ∀ {part param : Bytes}, (part = [] → param = []) ↔ (param ≠ [] → part ≠ []) :=
      fun {part param} => not_imp_not.symm
    rw [himp, himp]
    exact ⟨fun h => .inr h, fun h => h.resolve_left (not_not_intro hbasic)⟩
  · exact iff_of_true (tokenCredentials_of_not_basic hbasic) (.inl hbasic)

/-- The header names the client without a colon, the body names it again. -/
def nameOnlyHeader : Request where
  authorization := bytes "Basic YWxpY2U="
  parameters := fun name => if name = "client_id" then some (bytes "alice") else none

/-- Base64 on the one header above. -/
def decodesAlice (encoded : Bytes) : Option Bytes :=
  if encoded = bytes "YWxpY2U=" then some (bytes "alice") else none

/-- The token endpoint reads `alice` where the others read no client. -/
theorem name_without_colon_differs :
    (tokenCredentials decodesAlice nameOnlyHeader).clientId = bytes "alice" ∧
      (extractClientCredentials decodesAlice nameOnlyHeader).clientId = [] ∧
      (extractDeviceClientCredentials decodesAlice nameOnlyHeader).clientId = [] := by
  decide

end AuthForge.ClientCredentials
