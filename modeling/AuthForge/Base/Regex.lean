import Mathlib.Computability.Language

/-!
# Regular expressions

Regular expressions over an arbitrary alphabet with character classes, matched by derivatives. The
derivative drops the parts that cannot match any more, so that matching stays small.
-/

namespace AuthForge

inductive Regex (α : Type) : Type
  | empty
  | eps
  | sat (p : α → Bool)
  | alt (r s : Regex α)
  | seq (r s : Regex α)
  | star (r : Regex α)

namespace Regex

variable {α : Type}

def opt (r : Regex α) : Regex α := .alt r .eps

def plus (r : Regex α) : Regex α := .seq r (.star r)

def upTo (r : Regex α) : Nat → Regex α
  | 0 => .eps
  | n + 1 => opt (.seq r (upTo r n))

/-- `r{1,n+1}`. -/
def between (r : Regex α) (n : Nat) : Regex α := .seq r (upTo r n)

def literal [DecidableEq α] : List α → Regex α
  | [] => .eps
  | c :: cs => .seq (.sat (· = c)) (literal cs)

def seqs : List (Regex α) → Regex α
  | [] => .eps
  | [r] => r
  | r :: rs => .seq r (seqs rs)

def nullable : Regex α → Bool
  | .empty => false
  | .eps => true
  | .sat _ => false
  | .alt r s => nullable r || nullable s
  | .seq r s => nullable r && nullable s
  | .star _ => true

def mkAlt : Regex α → Regex α → Regex α
  | .empty, s => s
  | r, .empty => r
  | r, s => .alt r s

def mkSeq : Regex α → Regex α → Regex α
  | .empty, _ => .empty
  | .eps, s => s
  | r, s => .seq r s

/-- What is left to match after the character `c`. -/
def deriv (c : α) : Regex α → Regex α
  | .empty => .empty
  | .eps => .empty
  | .sat p => if p c then .eps else .empty
  | .alt r s => mkAlt (deriv c r) (deriv c s)
  | .seq r s =>
    if nullable r then mkAlt (mkSeq (deriv c r) s) (deriv c s) else mkSeq (deriv c r) s
  | .star r => mkSeq (deriv c r) (.star r)

def accepts : Regex α → List α → Bool
  | r, [] => nullable r
  | r, c :: cs => accepts (deriv c r) cs

/-! ## The language of an expression

A derivative has the words that are left of those of the expression, so an expression accepts
exactly the words of its language. -/

variable {r s : Regex α} {c : α} {w : List α}

def language : Regex α → Language α
  | .empty => 0
  | .eps => 1
  | .sat p => {w | ∃ c, w = [c] ∧ p c = true}
  | .alt r s => language r + language s
  | .seq r s => language r * language s
  | .star r => KStar.kstar (language r)

theorem nullable_iff : r.nullable = true ↔ [] ∈ r.language := by
  induction r with
  | empty => exact iff_of_false Bool.false_ne_true (Language.notMem_zero _)
  | eps => exact iff_of_true rfl Language.nil_mem_one
  | sat p =>
    refine iff_of_false Bool.false_ne_true ?_
    rintro ⟨c, hnil, -⟩
    cases hnil
  | alt r s ihr ihs =>
    rw [nullable, Bool.or_eq_true, ihr, ihs]
    exact (Language.mem_add _ _ _).symm
  | seq r s ihr ihs =>
    rw [nullable, Bool.and_eq_true, ihr, ihs, language, Language.mem_mul]
    constructor
    · rintro ⟨hr, hs⟩
      exact ⟨[], hr, [], hs, rfl⟩
    · rintro ⟨a, hr, b, hs, hnil⟩
      obtain ⟨rfl, rfl⟩ := List.append_eq_nil_iff.mp hnil
      exact ⟨hr, hs⟩
  | star r ih => exact iff_of_true rfl (Language.nil_mem_kstar _)

/-! ### Derivatives -/

theorem language_mkAlt (r s : Regex α) : (mkAlt r s).language = r.language + s.language := by
  unfold mkAlt
  split
  · exact (zero_add _).symm
  · exact (add_zero _).symm
  · rfl

theorem language_mkSeq (r s : Regex α) : (mkSeq r s).language = r.language * s.language := by
  unfold mkSeq
  split
  · exact (zero_mul _).symm
  · exact (one_mul _).symm
  · rfl

/-- A word of a product begins in the first factor, or in the second one after an empty word. -/
theorem cons_mem_mul_iff {l m : Language α} :
    c :: w ∈ l * m ↔ (∃ a b, c :: a ∈ l ∧ b ∈ m ∧ a ++ b = w) ∨ ([] ∈ l ∧ c :: w ∈ m) := by
  rw [Language.mem_mul]
  constructor
  · rintro ⟨a, ha, b, hb, heq⟩
    cases a with
    | nil => exact .inr ⟨ha, heq ▸ hb⟩
    | cons d a =>
      obtain ⟨rfl, rfl⟩ := List.cons.inj heq
      exact .inl ⟨a, b, ha, hb, rfl⟩
  · rintro (⟨a, b, ha, hb, rfl⟩ | ⟨hnil, hw⟩)
    · exact ⟨c :: a, ha, b, hb, rfl⟩
    · exact ⟨[], hnil, c :: w, hw, rfl⟩

theorem cons_mem_kstar_iff {l : Language α} :
    c :: w ∈ KStar.kstar l ↔ ∃ a b, c :: a ∈ l ∧ b ∈ KStar.kstar l ∧ a ++ b = w := by
  constructor
  · intro h
    obtain ⟨words, heq, hwords⟩ := Language.mem_kstar_iff_exists_nonempty.mp h
    cases words with
    | nil => cases heq
    | cons first words =>
      obtain ⟨hfirst, hne⟩ := hwords first List.mem_cons_self
      cases first with
      | nil => exact absurd rfl hne
      | cons d a =>
        obtain ⟨rfl, rfl⟩ := List.cons.inj heq
        refine ⟨a, words.flatten, hfirst, ?_, rfl⟩
        exact Language.join_mem_kstar fun v hv => (hwords v (List.mem_cons_of_mem _ hv)).1
  · rintro ⟨a, b, ha, hb, rfl⟩
    obtain ⟨words, rfl, hwords⟩ := Language.mem_kstar.mp hb
    refine Language.mem_kstar.mpr ⟨(c :: a) :: words, rfl, ?_⟩
    intro v hv
    rcases List.mem_cons.mp hv with rfl | hv
    · exact ha
    · exact hwords v hv

theorem mem_language_deriv : w ∈ (r.deriv c).language ↔ c :: w ∈ r.language := by
  induction r generalizing w with
  | empty => exact iff_of_false (Language.notMem_zero _) (Language.notMem_zero _)
  | eps =>
    refine iff_of_false (Language.notMem_zero _) ?_
    intro h
    cases (Language.mem_one _).mp h
  | sat p =>
    have hsat : c :: w ∈ (Regex.sat p).language ↔ w = [] ∧ p c = true := by
      constructor
      · rintro ⟨d, heq, hd⟩
        obtain ⟨rfl, rfl⟩ := List.cons.inj heq
        exact ⟨rfl, hd⟩
      · rintro ⟨rfl, hc⟩
        exact ⟨c, rfl, hc⟩
    rw [hsat, deriv]
    split
    · rename_i hc
      exact (Language.mem_one _).trans ⟨fun h => ⟨h, hc⟩, And.left⟩
    · rename_i hc
      exact iff_of_false (Language.notMem_zero _) fun h => hc h.2
  | alt r s ihr ihs =>
    rw [deriv, language_mkAlt, Language.mem_add, ihr, ihs]
    exact (Language.mem_add _ _ _).symm
  | seq r s ihr ihs =>
    have hfirst : w ∈ (r.deriv c).language * s.language ↔
        ∃ a b, c :: a ∈ r.language ∧ b ∈ s.language ∧ a ++ b = w := by
      rw [Language.mem_mul]
      constructor
      · rintro ⟨a, ha, b, hb, heq⟩
        exact ⟨a, b, ihr.mp ha, hb, heq⟩
      · rintro ⟨a, b, ha, hb, heq⟩
        exact ⟨a, ihr.mpr ha, b, hb, heq⟩
    rw [language, cons_mem_mul_iff, ← nullable_iff, deriv]
    split
    · rename_i hnull
      rw [language_mkAlt, language_mkSeq, Language.mem_add, hfirst, ihs]
      exact or_congr_right ⟨fun h => ⟨hnull, h⟩, And.right⟩
    · rename_i hnull
      rw [language_mkSeq, hfirst]
      exact ⟨.inl, fun h => h.resolve_right fun hnil => hnull hnil.1⟩
  | star r ih =>
    rw [deriv, language_mkSeq, language, cons_mem_kstar_iff, Language.mem_mul]
    constructor
    · rintro ⟨a, ha, b, hb, heq⟩
      exact ⟨a, b, ih.mp ha, hb, heq⟩
    · rintro ⟨a, b, ha, hb, heq⟩
      exact ⟨a, ih.mpr ha, b, hb, heq⟩

theorem accepts_iff : r.accepts w = true ↔ w ∈ r.language := by
  induction w generalizing r with
  | nil => exact nullable_iff
  | cons c w ih =>
    rw [accepts, ih]
    exact mem_language_deriv

/-! ### Derived expressions -/

theorem mem_opt_iff : w ∈ (opt r).language ↔ w ∈ r.language ∨ w = [] :=
  (Language.mem_add _ _ _).trans (or_congr_right (Language.mem_one _))

theorem mem_seq_iff : w ∈ (seq r s).language ↔ ∃ a ∈ r.language, ∃ b ∈ s.language, a ++ b = w :=
  Language.mem_mul

theorem mem_literal_iff [DecidableEq α] {cs : List α} : w ∈ (literal cs).language ↔ w = cs := by
  induction cs generalizing w with
  | nil => exact Language.mem_one _
  | cons c cs ih =>
    rw [literal, mem_seq_iff]
    constructor
    · rintro ⟨_, ⟨d, rfl, hd⟩, b, hb, rfl⟩
      rw [ih.mp hb, of_decide_eq_true hd]
      rfl
    · rintro rfl
      exact ⟨[c], ⟨c, rfl, decide_eq_true rfl⟩, cs, ih.mpr rfl, rfl⟩

theorem mem_star_sat_iff {p : α → Bool} : w ∈ (star (sat p)).language ↔ ∀ c ∈ w, p c = true := by
  induction w with
  | nil => exact iff_of_true (Language.nil_mem_kstar _) nofun
  | cons c w ih =>
    rw [language, cons_mem_kstar_iff, List.forall_mem_cons, ← ih]
    constructor
    · rintro ⟨a, b, ⟨d, heq, hd⟩, hb, rfl⟩
      obtain ⟨rfl, rfl⟩ := List.cons.inj heq
      exact ⟨hd, hb⟩
    · rintro ⟨hc, hw⟩
      exact ⟨[], w, ⟨c, rfl, hc⟩, hw, rfl⟩

theorem mem_plus_sat_iff {p : α → Bool} :
    w ∈ (plus (sat p)).language ↔ w ≠ [] ∧ ∀ c ∈ w, p c = true := by
  rw [plus, mem_seq_iff]
  constructor
  · rintro ⟨_, ⟨c, rfl, hc⟩, b, hb, rfl⟩
    refine ⟨List.cons_ne_nil _ _, List.forall_mem_cons.mpr ⟨hc, mem_star_sat_iff.mp hb⟩⟩
  · rintro ⟨hne, hall⟩
    obtain ⟨c, w, rfl⟩ := List.exists_cons_of_ne_nil hne
    obtain ⟨hc, hw⟩ := List.forall_mem_cons.mp hall
    exact ⟨[c], ⟨c, rfl, hc⟩, w, mem_star_sat_iff.mpr hw, rfl⟩

/-! ### Character classes -/

/-- Every character class of the expression has the property. -/
def AllClasses (P : (α → Bool) → Prop) : Regex α → Prop
  | .empty => True
  | .eps => True
  | .sat p => P p
  | .alt r s => AllClasses P r ∧ AllClasses P s
  | .seq r s => AllClasses P r ∧ AllClasses P s
  | .star r => AllClasses P r

section AllClasses

variable {P : (α → Bool) → Prop}

theorem allClasses_opt (h : r.AllClasses P) : (opt r).AllClasses P := ⟨h, trivial⟩

theorem allClasses_upTo (h : r.AllClasses P) (n : Nat) : (upTo r n).AllClasses P := by
  induction n with
  | zero => trivial
  | succ n ih => exact allClasses_opt ⟨h, ih⟩

theorem allClasses_literal [DecidableEq α] {cs : List α} (h : ∀ c ∈ cs, P (· = c)) :
    (literal cs).AllClasses P := by
  induction cs with
  | nil => trivial
  | cons c cs ih =>
    exact ⟨h c List.mem_cons_self, ih fun d hd => h d (List.mem_cons_of_mem c hd)⟩

end AllClasses

/-- The words of an expression are made of the characters of its classes. -/
theorem of_mem_of_mem_language {q : α → Prop} (hr : r.AllClasses fun p => ∀ c, p c = true → q c)
    (hw : w ∈ r.language) : ∀ c ∈ w, q c := by
  induction r generalizing w with
  | empty => exact absurd hw (Language.notMem_zero _)
  | eps =>
    obtain rfl := (Language.mem_one _).mp hw
    nofun
  | sat p =>
    obtain ⟨d, rfl, hd⟩ := hw
    intro c hc
    rw [List.mem_singleton] at hc
    exact hr c (hc ▸ hd)
  | alt r s ihr ihs =>
    rcases (Language.mem_add _ _ _).mp hw with hw | hw
    · exact ihr hr.1 hw
    · exact ihs hr.2 hw
  | seq r s ihr ihs =>
    obtain ⟨a, ha, b, hb, rfl⟩ := mem_seq_iff.mp hw
    intro c hc
    rcases List.mem_append.mp hc with hc | hc
    · exact ihr hr.1 ha c hc
    · exact ihs hr.2 hb c hc
  | star r ih =>
    obtain ⟨words, rfl, hwords⟩ := Language.mem_kstar.mp hw
    intro c hc
    obtain ⟨word, hword, hc⟩ := List.mem_flatten.mp hc
    exact ih hr (hwords word hword) c hc

/-- A map under which every class is closed keeps the words of the expression. -/
theorem map_mem_language {f : α → α} (hr : r.AllClasses fun p => ∀ c, p c = true → p (f c) = true)
    (hw : w ∈ r.language) : w.map f ∈ r.language := by
  induction r generalizing w with
  | empty => exact absurd hw (Language.notMem_zero _)
  | eps =>
    obtain rfl := (Language.mem_one _).mp hw
    exact Language.nil_mem_one
  | sat p =>
    obtain ⟨d, rfl, hd⟩ := hw
    exact ⟨f d, rfl, hr d hd⟩
  | alt r s ihr ihs =>
    refine (Language.mem_add _ _ _).mpr ?_
    rcases (Language.mem_add _ _ _).mp hw with hw | hw
    · exact .inl (ihr hr.1 hw)
    · exact .inr (ihs hr.2 hw)
  | seq r s ihr ihs =>
    obtain ⟨a, ha, b, hb, rfl⟩ := mem_seq_iff.mp hw
    exact mem_seq_iff.mpr ⟨a.map f, ihr hr.1 ha, b.map f, ihs hr.2 hb, List.map_append.symm⟩
  | star r ih =>
    obtain ⟨words, rfl, hwords⟩ := Language.mem_kstar.mp hw
    rw [List.map_flatten]
    refine Language.join_mem_kstar ?_
    intro word hword
    obtain ⟨before, hbefore, rfl⟩ := List.mem_map.mp hword
    exact ih hr (hwords before hbefore)

end Regex

end AuthForge
