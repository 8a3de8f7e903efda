import AuthForge.Base.Dict
import Mathlib.Order.Lattice

/-!
# Evicting the oldest entries

A map that must not grow past a bound loses its entries of least rank first. Which of several entries
of that rank goes depends on the order in which the map is iterated, so the order is a parameter.
-/

namespace AuthForge.Dict

variable {κ β τ : Type} [DecidableEq κ]

/-! ### Sizes -/

def size (d : Dict κ β) : Nat := d.keys.length

variable {d : Dict κ β} {k : κ} {v : β}

theorem size_erase_of_mem (h : k ∈ d) : size (d.erase k) + 1 = size d := by
  unfold size
  rw [AList.keys_erase, List.length_erase_of_mem (AList.mem_keys.mp h)]
  have hpos : 0 < d.keys.length := List.length_pos_of_mem (AList.mem_keys.mp h)
  omega

theorem size_insert_of_notMem (h : k ∉ d) (v : β) : size (d.insert k v) = size d + 1 := by
  unfold size
  rw [AList.keys_insert, List.erase_of_not_mem (fun hmem => h (AList.mem_keys.mpr hmem)),
    List.length_cons]

theorem size_insert_of_mem (h : k ∈ d) (v : β) : size (d.insert k v) = size d := by
  unfold size
  rw [AList.keys_insert, List.length_cons, List.length_erase_of_mem (AList.mem_keys.mp h)]
  have hpos : 0 < d.keys.length := List.length_pos_of_mem (AList.mem_keys.mp h)
  omega

theorem size_erase_le (k : κ) (d : Dict κ β) : size (d.erase k) ≤ size d := by
  unfold size
  rw [AList.keys_erase]
  exact List.length_erase_le

theorem mem_of_lookup (h : d.lookup k = some v) : k ∈ d :=
  AList.lookup_isSome.mp (by rw [h]; rfl)

/-! ### The entry of least rank -/

section Evict

variable [LinearOrder τ] {rank : β → Option τ} {order : List κ} {bound : Nat}

/-- One step of the scan: an entry replaces what was found when its rank is less. -/
def scanStep (rank : β → Option τ) (d : Dict κ β) (found : Option (κ × τ)) (k : κ) :
    Option (κ × τ) :=
  match (d.lookup k).bind rank with
  | none => found
  | some r =>
    match found with
    | none => some (k, r)
    | some (_, least) => if r < least then some (k, r) else found

/-- The victim; keys that the order leaves out come last. -/
def victim (rank : β → Option τ) (order : List κ) (d : Dict κ β) : Option κ :=
  ((order ++ d.keys).foldl (scanStep rank d) none).map Prod.fst

/-- Entries are evicted while there are more than the bound, as long as there is a victim. -/
def evictOldest (rank : β → Option τ) (order : List κ) (bound : Nat) : Nat → Dict κ β → Dict κ β
  | 0, d => d
  | fuel + 1, d =>
    if size d ≤ bound then d
    else
      match victim rank order d with
      | none => d
      | some k => evictOldest rank order bound fuel (d.erase k)

theorem scanStep_cases (rank : β → Option τ) (d : Dict κ β) (found : Option (κ × τ)) (k : κ) :
    ((d.lookup k).bind rank = none ∧ scanStep rank d found k = found) ∨
    (∃ r, (d.lookup k).bind rank = some r ∧ scanStep rank d found k = some (k, r) ∧
      ∀ k' least, found = some (k', least) → r ≤ least) ∨
    ∃ r k' least, (d.lookup k).bind rank = some r ∧ found = some (k', least) ∧
      scanStep rank d found k = found ∧ least ≤ r := by
  unfold scanStep
  cases hrank : (d.lookup k).bind rank with
  | none => exact .inl ⟨rfl, rfl⟩
  | some r =>
    right
    cases found with
    | none => exact .inl ⟨r, rfl, rfl, nofun⟩
    | some e =>
      obtain ⟨k', least⟩ := e
      dsimp only
      split
      · rename_i hlt
        refine .inl ⟨r, rfl, rfl, ?_⟩
        intro _ _ heq
        cases heq
        exact hlt.le
      · rename_i hle
        exact .inr ⟨r, k', least, rfl, rfl, rfl, not_lt.mp hle⟩

/-- What a scan has found: an entry of the list, or what it began with, of least rank. -/
structure Scanned (rank : β → Option τ) (d : Dict κ β) (l : List κ) (found r : Option (κ × τ)) :
    Prop where
  source : ∀ k x, r = some (k, x) → found = some (k, x) ∨ (d.lookup k).bind rank = some x
  start : ∀ k x, found = some (k, x) → ∃ k' x', r = some (k', x') ∧ x' ≤ x
  least : ∀ k ∈ l, ∀ x, (d.lookup k).bind rank = some x → ∃ k' x', r = some (k', x') ∧ x' ≤ x

theorem scanned_foldl (l : List κ) (found : Option (κ × τ)) :
    Scanned rank d l found (l.foldl (scanStep rank d) found) := by
  induction l generalizing found with
  | nil => exact ⟨fun _ _ h => .inl h, fun k x h => ⟨k, x, h, le_refl x⟩, nofun⟩
  | cons k l ih =>
    rw [List.foldl_cons]
    have hrest := ih (scanStep rank d found k)
    rcases scanStep_cases rank d found k with
      ⟨hrank, hstep⟩ | ⟨r, hrank, hstep, hleast⟩ | ⟨r, k', least, hrank, hfound, hstep, hleast⟩
    · rw [hstep] at hrest ⊢
      refine ⟨hrest.source, hrest.start, ?_⟩
      intro j hj x hx
      rcases List.mem_cons.mp hj with rfl | hj
      · rw [hrank] at hx
        cases hx
      · exact hrest.least j hj x hx
    · rw [hstep] at hrest ⊢
      obtain ⟨k₁, x₁, hr, hle⟩ := hrest.start k r rfl
      refine ⟨?_, ?_, ?_⟩
      · intro j x hjx
        rcases hrest.source j x hjx with heq | hx
        · cases heq
          exact .inr hrank
        · exact .inr hx
      · intro j x hjx
        exact ⟨k₁, x₁, hr, hle.trans (hleast j x hjx)⟩
      · intro j hj x hx
        rcases List.mem_cons.mp hj with rfl | hj
        · rw [hrank] at hx
          cases hx
          exact ⟨k₁, x₁, hr, hle⟩
        · exact hrest.least j hj x hx
    · rw [hstep] at hrest ⊢
      refine ⟨hrest.source, hrest.start, ?_⟩
      intro j hj x hx
      rcases List.mem_cons.mp hj with rfl | hj
      · rw [hrank] at hx
        cases hx
        obtain ⟨k₁, x₁, hr, hle⟩ := hrest.start k' least hfound
        exact ⟨k₁, x₁, hr, hle.trans hleast⟩
      · exact hrest.least j hj x hx

/-- The victim is an entry of least rank. -/
theorem victim_spec (h : victim rank order d = some k) :
    ∃ v x, d.lookup k = some v ∧ rank v = some x ∧
      ∀ k' v' x', d.lookup k' = some v' → rank v' = some x' → x ≤ x' := by
  unfold victim at h
  obtain ⟨⟨k', x⟩, hscan, rfl⟩ := Option.map_eq_some_iff.mp h
  have hscanned : Scanned rank d (order ++ d.keys) none _ := scanned_foldl (order ++ d.keys) none
  rcases hscanned.source k' x hscan with hnone | hrank
  · cases hnone
  obtain ⟨v, hv, hx⟩ := Option.bind_eq_some_iff.mp hrank
  refine ⟨v, x, hv, hx, ?_⟩
  intro k₁ v₁ x₁ hv₁ hx₁
  have hmem : k₁ ∈ order ++ d.keys :=
    List.mem_append_right _ (AList.mem_keys.mp (mem_of_lookup hv₁))
  have hrank₁ : (d.lookup k₁).bind rank = some x₁ := by rw [hv₁, Option.bind_some, hx₁]
  obtain ⟨_, _, heq, hle⟩ := hscanned.least k₁ hmem x₁ hrank₁
  rw [hscan] at heq
  cases heq
  exact hle

theorem victim_ne_none {x : τ} (hv : d.lookup k = some v) (hx : rank v = some x) :
    victim rank order d ≠ none := by
  intro hnone
  unfold victim at hnone
  have hmem : k ∈ order ++ d.keys := List.mem_append_right _ (AList.mem_keys.mp (mem_of_lookup hv))
  have hrank : (d.lookup k).bind rank = some x := by rw [hv, Option.bind_some, hx]
  have hscanned : Scanned rank d (order ++ d.keys) none _ := scanned_foldl (order ++ d.keys) none
  obtain ⟨k', x', hscan, -⟩ := hscanned.least k hmem x hrank
  rw [hscan] at hnone
  cases hnone

/-! ### The loop -/

/-- Once every entry could have been evicted, more iterations change nothing. -/
theorem evictOldest_succ {fuel : Nat} (h : size d ≤ fuel) :
    evictOldest rank order bound (fuel + 1) d = evictOldest rank order bound fuel d := by
  induction fuel generalizing d with
  | zero =>
    unfold evictOldest
    rw [if_pos (by omega)]
  | succ fuel ih =>
    rw [evictOldest, evictOldest]
    split
    · rfl
    cases hvictim : victim rank order d with
    | none => rfl
    | some k =>
      obtain ⟨v, -, hv, -⟩ := victim_spec hvictim
      have hsize := size_erase_of_mem (mem_of_lookup hv)
      exact ih (by omega)

theorem evictOldest_of_le {fuel : Nat} (h : size d ≤ fuel) :
    evictOldest rank order bound fuel d = evictOldest rank order bound (size d) d := by
  induction fuel with
  | zero => rw [Nat.le_zero.mp h]
  | succ fuel ih =>
    rcases Nat.lt_or_eq_of_le h with hlt | heq
    · rw [evictOldest_succ (Nat.lt_succ_iff.mp hlt), ih (Nat.lt_succ_iff.mp hlt)]
    · rw [heq]

theorem lookup_of_lookup_evictOldest {fuel : Nat}
    (h : (evictOldest rank order bound fuel d).lookup k = some v) : d.lookup k = some v := by
  induction fuel generalizing d with
  | zero => exact h
  | succ fuel ih =>
    unfold evictOldest at h
    split at h
    · exact h
    split at h
    · exact h
    · rename_i k' _
      have herase := ih h
      by_cases hk : k = k'
      · rw [hk, AList.lookup_erase] at herase
        cases herase
      · rwa [AList.lookup_erase_ne hk] at herase

/-- Where every entry has a rank, the loop ends within the bound, and an entry that it has evicted
ranks below every entry that is left. -/
theorem evictOldest_spec {fuel : Nat} (hranked : ∀ k v, d.lookup k = some v → (rank v).isSome)
    (hfuel : size d ≤ fuel) :
    size (evictOldest rank order bound fuel d) ≤ bound ∧
      ∀ k v x, d.lookup k = some v → rank v = some x →
        k ∉ evictOldest rank order bound fuel d →
        ∀ k' v' x', (evictOldest rank order bound fuel d).lookup k' = some v' →
          rank v' = some x' → x ≤ x' := by
  induction fuel generalizing d with
  | zero =>
    refine ⟨(Nat.le_zero.mp hfuel).symm ▸ Nat.zero_le bound, ?_⟩
    intro k v x hv hx hgone
    exact absurd (mem_of_lookup hv) hgone
  | succ fuel ih =>
    rw [evictOldest]
    split
    · rename_i hle
      refine ⟨hle, ?_⟩
      intro k v x hv hx hgone
      exact absurd (mem_of_lookup hv) hgone
    rename_i hgt
    split
    · rename_i hvictim
      -- There is no victim only where there is no entry.
      have hempty : size d = 0 := by
        unfold size
        rw [List.length_eq_zero_iff, List.eq_nil_iff_forall_not_mem]
        intro k hk
        obtain ⟨v, hv⟩ := Option.isSome_iff_exists.mp
          (AList.lookup_isSome.mpr (AList.mem_keys.mpr hk))
        obtain ⟨x, hx⟩ := Option.isSome_iff_exists.mp (hranked k v hv)
        exact victim_ne_none hv hx hvictim
      omega
    · rename_i k₀ hvictim
      obtain ⟨v₀, x₀, hv₀, hx₀, hleast⟩ := victim_spec hvictim
      have hsize := size_erase_of_mem (mem_of_lookup hv₀)
      have hranked' : ∀ k v, (d.erase k₀).lookup k = some v → (rank v).isSome := by
        intro k v hv
        by_cases hk : k = k₀
        · rw [hk, AList.lookup_erase] at hv
          cases hv
        · rw [AList.lookup_erase_ne hk] at hv
          exact hranked k v hv
      obtain ⟨hbound, hrest⟩ := ih hranked' (by omega)
      refine ⟨hbound, ?_⟩
      intro k v x hv hx hgone k' v' x' hv' hx'
      by_cases hk : k = k₀
      · rw [hk, hv₀] at hv
        cases hv
        rw [hx₀] at hx
        cases hx
        have hold := lookup_of_lookup_evictOldest hv'
        have hne : k' ≠ k₀ := by
          intro heq
          rw [heq, AList.lookup_erase] at hold
          cases hold
        rw [AList.lookup_erase_ne hne] at hold
        exact hleast k' v' x' hold hx'
      · exact hrest k v x (by rwa [AList.lookup_erase_ne hk]) hx hgone k' v' x' hv' hx'

end Evict

end AuthForge.Dict
