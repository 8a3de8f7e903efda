import Mathlib.Data.List.AList
import Mathlib.Data.List.Induction

/-!
# Finite maps with bulk updates

Mathlib's association lists keep their keys distinct. A store also updates or sweeps all its
entries at once, so those two operations are added here with their lookup lemmas.
-/

namespace AuthForge

abbrev Dict (κ β : Type) := AList fun _ : κ => β

namespace Dict

variable {κ β γ : Type}

def mapValues (f : κ → β → γ) (d : Dict κ β) : Dict κ γ where
  entries := d.entries.map fun e => ⟨e.1, f e.1 e.2⟩
  nodupKeys := by
    have hkeys : (d.entries.map fun e => (⟨e.1, f e.1 e.2⟩ : Σ _ : κ, γ)).keys =
        d.entries.keys := by
      simp [List.keys, Function.comp_def]
    rw [List.NodupKeys, hkeys]
    exact d.nodupKeys

def keepValues (p : β → Bool) (d : Dict κ β) : Dict κ β where
  entries := d.entries.filter fun e => p e.2
  nodupKeys := d.nodupKeys.sublist List.filter_sublist

def keepKeys (p : κ → Bool) (d : Dict κ β) : Dict κ β where
  entries := d.entries.filter fun e => p e.1
  nodupKeys := d.nodupKeys.sublist List.filter_sublist

theorem mapValues_mapValues_eq {f : κ → β → β} {g : κ → β → γ} (h : ∀ k v, g k (f k v) = g k v)
    (d : Dict κ β) : (d.mapValues f).mapValues g = d.mapValues g := by
  apply AList.ext
  simp [mapValues, h]

variable [DecidableEq κ]

@[simp] theorem lookup_mapValues (f : κ → β → γ) (d : Dict κ β) (k : κ) :
    (d.mapValues f).lookup k = (d.lookup k).map (f k) :=
  List.dlookup_map₂ k

@[simp] theorem lookup_keepValues (p : β → Bool) (d : Dict κ β) (k : κ) :
    (d.keepValues p).lookup k = (d.lookup k).filter p := by
  ext v
  rw [Option.filter_eq_some_iff, ← Option.mem_def, ← Option.mem_def, AList.mem_lookup_iff,
    AList.mem_lookup_iff, keepValues]
  simp

theorem lookup_keepKeys (p : κ → Bool) (d : Dict κ β) (k : κ) :
    (d.keepKeys p).lookup k = if p k then d.lookup k else none := by
  ext v
  rw [← Option.mem_def, AList.mem_lookup_iff, keepKeys, List.mem_filter]
  split
  · rename_i hk
    rw [← Option.mem_def, AList.mem_lookup_iff]
    exact and_iff_left hk
  · rename_i hk
    exact iff_of_false (fun h => hk h.2) nofun

def anyValue (p : β → Bool) (d : Dict κ β) : Bool := d.entries.any fun e => p e.2

/-! ### The last write to a key

A store that is only written and erased key by key holds, under each key, what the last write to
that key left there. -/

/-- A write of a value under a key, or its erasure. -/
def write (d : Dict κ β) (change : κ × Option β) : Dict κ β :=
  match change.2 with
  | some v => d.insert change.1 v
  | none => d.erase change.1

def writes (d : Dict κ β) (changes : List (κ × Option β)) : Dict κ β := changes.foldl write d

theorem lookup_write (d : Dict κ β) (change : κ × Option β) (k : κ) :
    (d.write change).lookup k = if change.1 = k then change.2 else d.lookup k := by
  obtain ⟨key, value⟩ := change
  by_cases hk : key = k
  · subst hk
    rw [if_pos rfl]
    cases value with
    | some v => exact AList.lookup_insert d
    | none => exact AList.lookup_erase key d
  · rw [if_neg hk]
    cases value with
    | some v => exact AList.lookup_insert_ne (Ne.symm hk)
    | none => exact AList.lookup_erase_ne (Ne.symm hk)

theorem lookup_writes (d : Dict κ β) (changes : List (κ × Option β)) (k : κ) :
    (d.writes changes).lookup k =
      ((changes.reverse.find? fun change => change.1 = k).map Prod.snd).getD (d.lookup k) := by
  induction changes using List.reverseRecOn with
  | nil => rfl
  | append_singleton changes change ih =>
    have hlast : d.writes (changes ++ [change]) = (d.writes changes).write change := by
      rw [writes, List.foldl_append]
      rfl
    rw [hlast, lookup_write, List.reverse_concat, List.find?_cons]
    by_cases hk : change.1 = k
    · simp [hk]
    · rw [if_neg hk, ih]
      simp [hk]

/-- The value under a key is the one that the last write to the key left. -/
theorem isSome_lookup_writes_iff (changes : List (κ × Option β)) (k : κ) :
    (((∅ : Dict κ β).writes changes).lookup k).isSome = true ↔
      ∃ before v after, changes = before ++ (k, some v) :: after ∧ ∀ c ∈ after, c.1 ≠ k := by
  have hempty : (∅ : Dict κ β).lookup k = none := rfl
  rw [lookup_writes, hempty]
  constructor
  · intro h
    cases hfind : changes.reverse.find? fun change => change.1 = k with
    | none =>
      rw [hfind] at h
      cases h
    | some change =>
      obtain ⟨hkey, after, before, hsplit, hafter⟩ := List.find?_eq_some_iff_append.mp hfind
      obtain ⟨key, value⟩ := change
      obtain rfl : key = k := of_decide_eq_true hkey
      rw [hfind] at h
      obtain ⟨v, rfl⟩ := Option.isSome_iff_exists.mp h
      refine ⟨before.reverse, v, after.reverse, ?_, ?_⟩
      · rw [← List.reverse_reverse changes, hsplit]
        simp
      · intro c hc
        have hne := hafter c (List.mem_reverse.mp hc)
        simpa using hne
  · rintro ⟨before, v, after, rfl, hafter⟩
    have hfind : (before ++ (k, some v) :: after).reverse.find? (fun change => change.1 = k) =
        some (k, some v) := by
      rw [List.find?_eq_some_iff_append]
      refine ⟨decide_eq_true rfl, after.reverse, before.reverse, by simp, ?_⟩
      intro c hc
      have hne := hafter c (List.mem_reverse.mp hc)
      simpa using hne
    rw [hfind]
    rfl

end Dict

end AuthForge
