import Mathlib

/-!
# Folding ASCII letters

What `tolower` of the `C` locale leaves alone.
-/

namespace AuthForge

/-- Only letters fold, and only to letters. -/
theorem toLower_eq_iff {c d : Char} (hd : d.isAlpha = false) : c.toLower = d ↔ c = d := by
  cases hc : c.isUpper with
  | false => rw [Char.toLower_eq_of_not_isUpper (by simp [hc])]
  | true =>
    have hlower : c.toLower.isLower = true := by
      rw [Char.isLower_toLower_eq_isAlpha, Char.isAlpha, hc, Bool.true_or]
    rw [Char.isAlpha, Bool.or_eq_false_iff] at hd
    refine iff_of_false ?_ ?_
    · rintro rfl
      rw [hd.2] at hlower
      cases hlower
    · rintro rfl
      rw [hd.1] at hc
      cases hc

theorem mem_map_toLower_iff {cs : List Char} {d : Char} (hd : d.isAlpha = false) :
    d ∈ cs.map Char.toLower ↔ d ∈ cs := by
  rw [List.mem_map]
  constructor
  · rintro ⟨c, hc, hfold⟩
    exact (toLower_eq_iff hd).mp hfold ▸ hc
  · intro hmem
    exact ⟨d, hmem, (toLower_eq_iff hd).mpr rfl⟩

theorem map_toLower_map_toLower (cs : List Char) :
    (cs.map Char.toLower).map Char.toLower = cs.map Char.toLower := by
  rw [List.map_map]
  exact List.map_congr_left fun c _ => Char.toLower_toLower_eq_toLower c

end AuthForge
