import Mathlib.Data.List.Basic
import Mathlib.Data.List.Infix

/-!
# LIKE patterns

The patterns of SQL's `LIKE` with the backslash as the escape character. A pattern that is a text
and a percent sign is meant for a prefix: it stands for that prefix exactly when nothing in the text
is special.
-/

namespace AuthForge.Like

inductive Atom
  | char (c : Char)
  | one
  | any
  deriving DecidableEq

/-- A character that is not escaped. -/
def atomOf (c : Char) : Atom := if c = '%' then .any else if c = '_' then .one else .char c

/-- The atoms of a pattern; `none` is the error for one that ends in the escape character. -/
def parse : List Char → Option (List Atom)
  | [] => some []
  | c :: cs =>
    if c = '\\' then
      match cs with
      | [] => none
      | c' :: cs' => (parse cs').map (.char c' :: ·)
    else (parse cs).map (atomOf c :: ·)

def matchAtoms : List Atom → List Char → Bool
  | [], text => text = []
  | .char c :: atoms, text => text.head? = some c && matchAtoms atoms text.tail
  | .one :: atoms, text => text ≠ [] && matchAtoms atoms text.tail
  | .any :: atoms, text => text.tails.any (matchAtoms atoms)

def like (pattern text : List Char) : Bool := (parse pattern).any (matchAtoms · text)

/-! ### A text and a percent sign -/

/-- The atoms of a text before a percent sign. A backslash at its end escapes that sign. -/
def prefixAtoms : List Char → List Atom
  | [] => [.any]
  | c :: cs =>
    if c = '\\' then
      match cs with
      | [] => [.char '%']
      | c' :: cs' => .char c' :: prefixAtoms cs'
    else atomOf c :: prefixAtoms cs

theorem parse_prefix (p : List Char) : parse (p ++ ['%']) = some (prefixAtoms p) := by
  fun_induction prefixAtoms p with
  | case1 => rfl
  | case2 => rfl
  | case3 c cs ih => exact congrArg (Option.map (.char c :: ·)) ih
  | case4 c cs hc ih =>
    have hparse : parse (c :: (cs ++ ['%'])) = (parse (cs ++ ['%'])).map (atomOf c :: ·) := by
      rw [parse.eq_def]
      exact if_neg hc
    rw [List.cons_append, hparse, ih, Option.map_some]

theorem like_percent (p text : List Char) : like (p ++ ['%']) text = matchAtoms (prefixAtoms p) text := by
  rw [like, parse_prefix, Option.any_some]

/-- Nothing in the text is special. -/
def Plain (p : List Char) : Prop := ∀ c ∈ p, c ≠ '%' ∧ c ≠ '_' ∧ c ≠ '\\'

instance (p : List Char) : Decidable (Plain p) := List.decidableBAll _ p

theorem matchAtoms_any (text : List Char) : matchAtoms [.any] text = true := by
  rw [matchAtoms, List.any_eq_true]
  exact ⟨[], by simp, rfl⟩

theorem matchAtoms_chars (w text : List Char) :
    matchAtoms (w.map .char ++ [.any]) text = true ↔ w <+: text := by
  induction w generalizing text with
  | nil => exact iff_of_true (matchAtoms_any text) List.nil_prefix
  | cons c w ih =>
    rw [List.map_cons, List.cons_append, matchAtoms, Bool.and_eq_true, decide_eq_true_iff, ih]
    cases text with
    | nil => simp
    | cons d text =>
      rw [List.head?_cons, Option.some_inj, List.tail_cons, List.cons_prefix_cons]
      exact and_congr_left fun _ => eq_comm

theorem prefixAtoms_of_plain {p : List Char} (h : Plain p) :
    prefixAtoms p = p.map .char ++ [.any] := by
  induction p with
  | nil => rfl
  | cons c p ih =>
    obtain ⟨⟨hany, hone, hescape⟩, hp⟩ := List.forall_mem_cons.mp h
    have hatoms : prefixAtoms (c :: p) = atomOf c :: prefixAtoms p := by
      rw [prefixAtoms.eq_def]
      exact if_neg hescape
    rw [hatoms, atomOf, if_neg hany, if_neg hone, ih hp]
    rfl

/-- A shortest text that matches: the letter `x` for any one character, nothing for any text. -/
def shortest : List Atom → List Char
  | [] => []
  | .char c :: atoms => c :: shortest atoms
  | .one :: atoms => 'x' :: shortest atoms
  | .any :: atoms => shortest atoms

theorem matchAtoms_shortest (atoms : List Atom) : matchAtoms atoms (shortest atoms) = true := by
  induction atoms with
  | nil => rfl
  | cons atom atoms ih =>
    cases atom with
    | char c =>
      rw [shortest, matchAtoms, List.head?_cons, decide_eq_true rfl, Bool.true_and]
      exact ih
    | one => exact ih
    | any =>
      rw [shortest, matchAtoms, List.any_eq_true]
      exact ⟨_, (List.mem_tails _ _).mpr List.suffix_rfl, ih⟩

theorem shortest_length (p : List Char) : (shortest (prefixAtoms p)).length ≤ p.length := by
  fun_induction prefixAtoms p with
  | case1 => exact le_refl _
  | case2 => exact le_refl _
  | case3 c cs ih =>
    rw [shortest, List.length_cons, List.length_cons, List.length_cons]
    omega
  | case4 c cs hc ih =>
    rw [atomOf]
    split
    · exact ih.trans (Nat.le_succ _)
    split
    · exact Nat.succ_le_succ ih
    · exact Nat.succ_le_succ ih

/-- A text with a special character is no prefix of the shortest match of its own pattern. -/
theorem plain_of_prefix_shortest {p : List Char} (h : p <+: shortest (prefixAtoms p)) : Plain p := by
  have hsame : p = shortest (prefixAtoms p) := h.eq_of_length_le (shortest_length p)
  clear h
  fun_induction prefixAtoms p with
  | case1 => exact List.forall_mem_nil _
  | case2 => cases hsame
  | case3 c cs ih =>
    have hlength := shortest_length cs
    have htail := congrArg List.length hsame
    rw [shortest, List.length_cons, List.length_cons, List.length_cons] at htail
    omega
  | case4 c cs hc ih =>
    have hlength := shortest_length cs
    rw [atomOf] at hsame
    split at hsame
    · have htail := congrArg List.length hsame
      rw [shortest, List.length_cons] at htail
      omega
    rename_i hany
    split at hsame
    · rename_i hone
      obtain ⟨hx, -⟩ := List.cons.inj hsame
      rw [hone] at hx
      cases hx
    rename_i hone
    obtain ⟨-, hcs⟩ := List.cons.inj hsame
    exact List.forall_mem_cons.mpr ⟨⟨hany, hone, hc⟩, ih hcs⟩

/-- A text and a percent sign match just what begins with the text if and only if the text is
plain. -/
theorem like_prefix_iff (p : List Char) :
    (∀ text, like (p ++ ['%']) text = true ↔ p <+: text) ↔ Plain p := by
  constructor
  · intro h
    refine plain_of_prefix_shortest ((h _).mp ?_)
    rw [like_percent]
    exact matchAtoms_shortest _
  · intro h text
    rw [like_percent, prefixAtoms_of_plain h]
    exact matchAtoms_chars p text

end AuthForge.Like
