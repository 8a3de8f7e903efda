import Mathlib.Data.List.Sort

/-!
# Pages of a sorted result

Every page is cut from a sorting of its own: two queries may put rows with equal keys in different
orders. A boundary between pages is harmless exactly where no two rows with equal keys stand on both
sides of it, since the rows in front of it are then the same in every sorting.
-/

namespace Paging

variable {α : Type}

/-- A way to answer `ORDER BY`: any sorting of the rows. -/
structure Arrangement (le : α → α → Prop) where
  arrange : List α → List α
  perm : ∀ rows, (arrange rows).Perm rows
  sorted : ∀ rows, (arrange rows).Pairwise le

section Arrangements

variable (le : α → α → Prop) [DecidableRel le] [Std.Total le] [IsTrans α le]

/-- Tied rows stay in the order of the table. -/
def stable : Arrangement le where
  arrange := fun rows => rows.insertionSort le
  perm := fun rows => List.perm_insertionSort le rows
  sorted := fun rows => List.pairwise_insertionSort le rows

/-- Tied rows come in the opposite order. -/
def reversed : Arrangement le where
  arrange := fun rows => rows.reverse.insertionSort le
  perm := fun rows => (List.perm_insertionSort le rows.reverse).trans rows.reverse_perm
  sorted := fun rows => List.pairwise_insertionSort le rows.reverse

end Arrangements

/-- `LIMIT n OFFSET i * n`. -/
def slice (n i : Nat) (rows : List α) : List α := (rows.drop (i * n)).take n

section Boundaries

variable (le : α → α → Prop) [DecidableRel le]

/-- The number of rows in front of all that are tied with the row. -/
def before (rows : List α) (r : α) : Nat := rows.countP fun x => ¬ le r x

/-- The number of rows up to the last one that is tied with the row. -/
def upTo (rows : List α) (r : α) : Nat := rows.countP fun x => le x r

/-- No two tied rows are separated by the boundary after `b` rows. -/
def Unsplit (rows : List α) (b : Nat) : Prop := ∀ r ∈ rows, b ≤ before le rows r ∨ upTo le rows r ≤ b

/-- No boundary between pages of `n` rows separates tied rows. -/
def PagesUnsplit (rows : List α) (n : Nat) : Prop := ∀ i, Unsplit le rows (i * n)

end Boundaries

variable {le : α → α → Prop} [DecidableRel le] {rows sorted : List α} {b n i : Nat}

/-- A row stands behind the rows that precede it strictly, among those it is tied with. -/
theorem getElem_bounds (hrefl : ∀ r, le r r) (hperm : sorted.Perm rows)
    (hsorted : sorted.Pairwise le) (hi : i < sorted.length) :
    before le rows sorted[i] ≤ i ∧ i < upTo le rows sorted[i] := by
  have hsplit : sorted.take i ++ sorted[i] :: sorted.drop (i + 1) = sorted := by
    rw [← List.drop_eq_getElem_cons hi, List.take_append_drop]
  have hlength : (sorted.take i).length = i := List.length_take_of_le (Nat.le_of_lt hi)
  have hpairs := hsorted
  rw [← hsplit, List.pairwise_append, List.pairwise_cons] at hpairs
  obtain ⟨-, ⟨hafter, -⟩, hbefore⟩ := hpairs
  constructor
  · have hrest : (sorted[i] :: sorted.drop (i + 1)).countP (fun x => ¬ le sorted[i] x) = 0 := by
      rw [List.countP_eq_zero]
      intro x hx
      rcases List.mem_cons.mp hx with rfl | hx
      · simp [hrefl]
      · simp [hafter x hx]
    calc before le rows sorted[i]
        = (sorted.take i ++ sorted[i] :: sorted.drop (i + 1)).countP
            (fun x => ¬ le sorted[i] x) := by rw [hsplit]; exact (hperm.countP_eq _).symm
      _ = (sorted.take i).countP (fun x => ¬ le sorted[i] x) := by
            rw [List.countP_append, hrest, Nat.add_zero]
      _ ≤ (sorted.take i).length := List.countP_le_length
      _ = i := hlength
  · have hfront : (sorted.take i).countP (fun x => le x sorted[i]) = i := by
      refine Eq.trans (List.countP_eq_length.mpr ?_) hlength
      intro x hx
      exact decide_eq_true (hbefore x hx _ List.mem_cons_self)
    have hself : 0 < (sorted[i] :: sorted.drop (i + 1)).countP (fun x => le x sorted[i]) :=
      List.countP_pos_iff.mpr ⟨_, List.mem_cons_self, decide_eq_true (hrefl _)⟩
    have hcount : upTo le rows sorted[i] = i +
        (sorted[i] :: sorted.drop (i + 1)).countP (fun x => le x sorted[i]) := by
      calc upTo le rows sorted[i]
          = (sorted.take i ++ sorted[i] :: sorted.drop (i + 1)).countP
              (fun x => le x sorted[i]) := by rw [hsplit]; exact (hperm.countP_eq _).symm
        _ = _ := by rw [List.countP_append, hfront]
    omega

/-- The rows in front of a boundary that splits no ties are the same in every sorting. -/
theorem take_perm (hrefl : ∀ r, le r r) (hperm : sorted.Perm rows) (hsorted : sorted.Pairwise le)
    (hb : Unsplit le rows b) :
    (sorted.take b).Perm (rows.filter fun r => upTo le rows r ≤ b) := by
  have hiff : ∀ i (hi : i < sorted.length), upTo le rows sorted[i] ≤ b ↔ i < b := by
    intro i hi
    have hbounds := getElem_bounds hrefl hperm hsorted hi
    have hboundary := hb _ (hperm.mem_iff.mp (List.getElem_mem hi))
    omega
  have hfront : (sorted.take b).filter (fun r => upTo le rows r ≤ b) = sorted.take b := by
    rw [List.filter_eq_self]
    intro r hr
    obtain ⟨i, hi, rfl⟩ := List.mem_take_iff_getElem.mp hr
    exact decide_eq_true ((hiff i (by omega)).mpr (by omega))
  have hback : (sorted.drop b).filter (fun r => upTo le rows r ≤ b) = [] := by
    rw [List.filter_eq_nil_iff]
    intro r hr
    obtain ⟨i, hi, rfl⟩ := List.mem_drop_iff_getElem.mp hr
    have hnot := mt (hiff (b + i) (by omega)).mp (by omega)
    simpa using hnot
  have hfilter : sorted.filter (fun r => upTo le rows r ≤ b) = sorted.take b := by
    conv_lhs => rw [← List.take_append_drop b sorted]
    rw [List.filter_append, hfront, hback, List.append_nil]
  rw [← hfilter]
  exact hperm.filter _

/-- The first pages together are the rows in front of the last boundary. -/
theorem pages_perm_filter (hrefl : ∀ r, le r r) (hties : PagesUnsplit le rows n)
    (arrangement : Nat → Arrangement le) (pages : Nat) :
    ((List.range pages).flatMap fun i => slice n i ((arrangement i).arrange rows)).Perm
      (rows.filter fun r => upTo le rows r ≤ pages * n) := by
  induction pages with
  | zero =>
    have hnone : rows.filter (fun r => upTo le rows r ≤ 0 * n) = [] := by
      rw [List.filter_eq_nil_iff]
      intro r hr
      have hpos : 0 < upTo le rows r :=
        List.countP_pos_iff.mpr ⟨r, hr, decide_eq_true (hrefl r)⟩
      simpa using Nat.pos_iff_ne_zero.mp hpos
    rw [hnone]
    exact List.Perm.refl _
  | succ pages ih =>
    have hsorted := (arrangement pages).sorted rows
    have hperm := (arrangement pages).perm rows
    have hfront := take_perm hrefl hperm hsorted (hties pages)
    have hback := take_perm hrefl hperm hsorted (hties (pages + 1))
    have hsplit : ((arrangement pages).arrange rows).take ((pages + 1) * n) =
        ((arrangement pages).arrange rows).take (pages * n) ++
          slice n pages ((arrangement pages).arrange rows) := by
      rw [Nat.succ_mul, List.take_add, slice]
    rw [List.range_succ, List.flatMap_append, List.flatMap_singleton]
    rw [hsplit] at hback
    exact ((ih.trans hfront.symm).append_right _).trans hback

/-- All pages together are the rows, each as often as it is there. -/
theorem pages_perm (hrefl : ∀ r, le r r) (hties : PagesUnsplit le rows n)
    (arrangement : Nat → Arrangement le) {pages : Nat} (hpages : rows.length ≤ pages * n) :
    ((List.range pages).flatMap fun i => slice n i ((arrangement i).arrange rows)).Perm rows := by
  have hall : rows.filter (fun r => upTo le rows r ≤ pages * n) = rows := by
    rw [List.filter_eq_self]
    intro r _
    exact decide_eq_true (Nat.le_trans List.countP_le_length hpages)
  have hperm := pages_perm_filter hrefl hties arrangement pages
  rwa [hall] at hperm

/-- Where no two rows are tied, no boundary separates tied rows. -/
theorem pagesUnsplit_of_strict (hstrict : rows.Pairwise fun x y => ¬ (le x y ∧ le y x)) (n : Nat) :
    PagesUnsplit le rows n := by
  intro i r hr
  obtain ⟨front, back, rfl⟩ := List.append_of_mem hr
  rw [List.pairwise_append, List.pairwise_cons] at hstrict
  obtain ⟨-, ⟨hback, -⟩, hfront⟩ := hstrict
  have hle : ∀ rest : List α, (∀ x ∈ rest, le x r → ¬ le r x) →
      rest.countP (fun x => le x r) ≤ rest.countP (fun x => ¬ le r x) := by
    intro rest hrest
    apply List.countP_mono_left
    intro x hx hxr
    exact decide_eq_true (hrest x hx (of_decide_eq_true hxr))
  have hfront_le := hle front fun x hx hxr hrx => hfront x hx r List.mem_cons_self ⟨hxr, hrx⟩
  have hback_le := hle back fun x hx hxr hrx => hback x hx ⟨hrx, hxr⟩
  have hupTo : upTo le (front ++ r :: back) r ≤ before le (front ++ r :: back) r + 1 := by
    unfold upTo before
    rw [List.countP_append, List.countP_append, List.countP_cons, List.countP_cons]
    split <;> split <;> omega
  omega

end Paging
