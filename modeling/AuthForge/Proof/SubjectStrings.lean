import AuthForge.Identity.Resolution
import AuthForge.Identity.SocialLinks

/-!
# Subject strings

A subject under a provider that `parse` knows comes back as it went in, whatever the subject
contains. Accounts are linked under one provider more than `parse` knows: its subjects come back
as local ones, and collide with those.
-/

namespace AuthForge.SubjectStrings

open Identity Identity.SubjectGenerator

variable {p : String}

/-- The providers under which accounts exist: the local one and those that accounts are linked
to. -/
def HasAccounts (p : String) : Prop :=
  p = "local" ∨ SocialLinkService.isValidProvider p = true

theorem hasAccounts_iff :
    HasAccounts p ↔ p ∈ ["local", "google", "wechat"] ∨ p = "github" := by
  unfold HasAccounts SocialLinkService.isValidProvider
  simp only [Bool.or_eq_true, decide_eq_true_eq, List.mem_cons, List.not_mem_nil, or_false]
  tauto

theorem notMem_of_hasAccounts (hp : HasAccounts p) : ':' ∉ p.toList := by
  rcases hp with rfl | hvalid
  · decide
  · unfold SocialLinkService.isValidProvider at hvalid
    simp only [Bool.or_eq_true, decide_eq_true_eq] at hvalid
    rcases hvalid with (rfl | rfl) | rfl <;> decide

theorem forProvider_eq_ofList (p s : String) :
    forProvider p s = String.ofList (p.toList ++ ':' :: s.toList) := by
  apply String.toList_injective
  simp [forProvider]

theorem parse_forProvider (hcolon : ':' ∉ p.toList) (s : String) :
    parse (forProvider p s) =
      if p ∈ ["local", "google", "wechat"] then (p, s) else ("local", forProvider p s) := by
  have hcut : cutFirst ':' (forProvider p s) = some (p, s) := by
    rw [forProvider_eq_ofList, cutFirst_ofList hcolon, String.ofList_toList, String.ofList_toList]
  rw [parse, hcut]

/-- The subject of a GitHub account and the one of a local account of that name are the same
to `parse`. -/
theorem parse_github_eq_parse_local (s : String) :
    parse (forProvider "github" s) = parse (forLocalUser (forProvider "github" s)) := by
  rw [forLocalUser, parse_forProvider (by decide), parse_forProvider (by decide),
    if_neg (by decide), if_pos (by decide)]

theorem parse_forProvider_eq_iff (hp : HasAccounts p) (s : String) :
    parse (forProvider p s) = (p, s) ↔ p ≠ "github" := by
  rw [parse_forProvider (notMem_of_hasAccounts hp)]
  constructor
  · rintro hback rfl
    rw [if_neg (by decide)] at hback
    have hfst : "local" = "github" := congrArg Prod.fst hback
    exact absurd hfst (by decide)
  · intro hgithub
    rw [if_pos ((hasAccounts_iff.mp hp).resolve_right hgithub)]

/-- The subjects of every provider but GitHub come back, and so does a bare user name. -/
theorem subjects_parse_back (p : String) (hp : HasAccounts p) (s : String) :
    (parse (forProvider p s) = (p, s) ↔ p ≠ "github") ∧
      ∀ x : String, ':' ∉ x.toList → parse x = ("local", x) :=
  ⟨parse_forProvider_eq_iff hp s, fun _ hcolon => parse_of_not_mem hcolon⟩

theorem subjects_parse_back_google :
    parse (forProvider "google" "1:2") = ("google", "1:2") ∧ parse "alice" = ("local", "alice") :=
  ⟨(subjects_parse_back "google" (.inr (by decide)) "1:2").1.mpr (by decide),
    (subjects_parse_back "google" (.inr (by decide)) "1:2").2 "alice" (by decide)⟩

theorem github_subject_lost :
    SocialLinkService.isValidProvider "github" = true ∧
      parse (forProvider "github" "42") = ("local", "github:42") := by
  decide +kernel

end AuthForge.SubjectStrings
