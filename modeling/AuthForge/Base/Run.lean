import Mathlib.Data.List.Pairwise

/-!
# Runs of a machine

A machine answers each input with a new state and an event. A run from a fixed initial state is
described by its history, newest event first, and by the state it reaches. Every run carries a
guard on its steps: the guard sees the history so far, the state before the step and the input,
so a condition on the callers of a system is a guard and unconditional runs are the guard `True`.
-/

namespace AuthForge

variable {σ ι ε : Type}

structure Machine (σ ι ε : Type) where
  step : σ → ι → σ × ε

/-- A condition that every step of a run has to meet. -/
abbrev Guard (σ ι ε : Type) := List ε → σ → ι → Prop

def anyStep : Guard σ ι ε := fun _ _ _ => True

namespace Machine

/-- The runs of `m` from `s₀` whose steps all meet `ok`: history, newest first, and final state. -/
inductive Run (m : Machine σ ι ε) (ok : Guard σ ι ε) (s₀ : σ) : List ε → σ → Prop
  | init : Run m ok s₀ [] s₀
  | next {history : List ε} {s : σ} (i : ι) (hrun : Run m ok s₀ history s)
      (hok : ok history s i) :
      Run m ok s₀ ((m.step s i).2 :: history) (m.step s i).1

variable {m : Machine σ ι ε} {ok : Guard σ ι ε} {s₀ s : σ} {history : List ε}

/-- What holds initially and is kept by every guarded step holds after every run. -/
theorem Run.invariant (P : List ε → σ → Prop) (hinit : P [] s₀)
    (hstep : ∀ h t i, m.Run ok s₀ h t → P h t → ok h t i →
      P ((m.step t i).2 :: h) (m.step t i).1)
    (hrun : m.Run ok s₀ history s) : P history s := by
  induction hrun with
  | init => exact hinit
  | next i hrun hok ih => exact hstep _ _ i hrun ih hok

theorem Run.mono {ok' : Guard σ ι ε} (himp : ∀ h t i, ok h t i → ok' h t i)
    (hrun : m.Run ok s₀ history s) : m.Run ok' s₀ history s := by
  induction hrun with
  | init => exact .init
  | next i hrun hok ih => exact .next i ih (himp _ _ _ hok)

theorem Run.last {e : ε} (hrun : m.Run ok s₀ (e :: history) s) :
    ∃ t i, m.Run ok s₀ history t ∧ ok history t i ∧ m.step t i = (s, e) := by
  generalize hh : e :: history = h at hrun
  cases hrun with
  | init => cases hh
  | next i hrun hok =>
    obtain ⟨rfl, rfl⟩ := List.cons.inj hh
    exact ⟨_, i, hrun, hok, rfl⟩

theorem Run.shorter {post : List ε} (hrun : m.Run ok s₀ (post ++ history) s) :
    ∃ t, m.Run ok s₀ history t := by
  induction post generalizing s with
  | nil => exact ⟨s, hrun⟩
  | cons e post ih =>
    obtain ⟨t, -, ht, -, -⟩ := Run.last hrun
    exact ih ht

theorem Run.before {post past : List ε} {e : ε} (hrun : m.Run ok s₀ (post ++ e :: past) s) :
    ∃ t, m.Run ok s₀ past t := by
  obtain ⟨t, ht⟩ := hrun.shorter
  obtain ⟨q, -, hq, -, -⟩ := ht.last
  exact ⟨q, hq⟩

/-! ### Executing a list of inputs -/

def exec (m : Machine σ ι ε) : List ε → σ → List ι → List ε × σ
  | history, s, [] => (history, s)
  | history, s, i :: is => m.exec ((m.step s i).2 :: history) (m.step s i).1 is

def Guarded (m : Machine σ ι ε) (ok : Guard σ ι ε) : List ε → σ → List ι → Prop
  | _, _, [] => True
  | history, s, i :: is =>
    ok history s i ∧ m.Guarded ok ((m.step s i).2 :: history) (m.step s i).1 is

instance decidableGuarded (m : Machine σ ι ε) (ok : Guard σ ι ε)
    [∀ h s i, Decidable (ok h s i)] (history : List ε) (s : σ) (is : List ι) :
    Decidable (m.Guarded ok history s is) :=
  match is with
  | [] => .isTrue trivial
  | i :: is =>
    have : Decidable (m.Guarded ok ((m.step s i).2 :: history) (m.step s i).1 is) :=
      decidableGuarded m ok _ _ is
    inferInstanceAs (Decidable (_ ∧ _))

theorem Run.exec_of_guarded (hrun : m.Run ok s₀ history s) (is : List ι)
    (hok : m.Guarded ok history s is) :
    m.Run ok s₀ (m.exec history s is).1 (m.exec history s is).2 := by
  induction is generalizing history s with
  | nil => exact hrun
  | cons i is ih => exact ih (.next i hrun hok.1) hok.2

theorem mem_exec {e : ε} {is : List ι} (h : e ∈ history) : e ∈ (m.exec history s is).1 := by
  induction is generalizing history s with
  | nil => exact h
  | cons i is ih => exact ih (List.mem_cons_of_mem _ h)

/-- A guard is replaced by what it gives on the inputs of the list, together with an invariant. -/
theorem guarded_imp {ok' : Guard σ ι ε} {P : List ε → σ → Prop} {is : List ι}
    (hstep : ∀ h t i, P h t → P ((m.step t i).2 :: h) (m.step t i).1)
    (himp : ∀ h t i, i ∈ is → P h t → ok h t i → ok' h t i) (hinv : P history s)
    (hok : m.Guarded ok history s is) : m.Guarded ok' history s is := by
  induction is generalizing history s with
  | nil => trivial
  | cons i is ih =>
    refine ⟨himp _ _ i List.mem_cons_self hinv hok.1, ?_⟩
    refine ih ?_ (hstep _ _ i hinv) hok.2
    intro h t j hj
    exact himp h t j (List.mem_cons_of_mem _ hj)

theorem run_exec (m : Machine σ ι ε) (s₀ : σ) (is : List ι) :
    m.Run anyStep s₀ (m.exec [] s₀ is).1 (m.exec [] s₀ is).2 := by
  refine Run.exec_of_guarded .init is ?_
  generalize hh : ([] : List ε) = h
  clear hh
  induction is generalizing h s₀ with
  | nil => trivial
  | cons i is ih => exact ⟨trivial, ih _ _⟩

end Machine

/-! ### Properties of every event of a history -/

/-- `P past e` holds for every event `e` of the history together with the events before it. -/
def Always (P : List ε → ε → Prop) : List ε → Prop
  | [] => True
  | e :: past => P past e ∧ Always P past

theorem Always.split {P : List ε → ε → Prop} {post past : List ε} {e : ε}
    (h : Always P (post ++ e :: past)) : P past e := by
  induction post with
  | nil => exact h.1
  | cons _ post ih => exact ih h.2

theorem Always.append {P : List ε → ε → Prop} {later past : List ε}
    (hlater : Always (fun earlier e => P (earlier ++ past) e) later) (hpast : Always P past) :
    Always P (later ++ past) := by
  induction later with
  | nil => exact hpast
  | cons e later ih => exact ⟨hlater.1, ih hlater.2⟩

theorem Always.imp {P Q : List ε → ε → Prop} (himp : ∀ past e, P past e → Q past e)
    {history : List ε} (h : Always P history) : Always Q history := by
  induction history with
  | nil => trivial
  | cons e past ih => exact ⟨himp _ _ h.1, ih h.2⟩

theorem always_of_split {P : List ε → ε → Prop} {history : List ε}
    (h : ∀ post e past, history = post ++ e :: past → P past e) : Always P history := by
  induction history with
  | nil => trivial
  | cons e past ih =>
    refine ⟨h [] e past rfl, ih ?_⟩
    intro post e' past' heq
    obtain rfl := heq
    exact h (e :: post) e' past' rfl

/-! ### Events that exclude one another -/

theorem pairwise_forall_of_symm {α : Type} {R : α → α → Prop} (hsymm : ∀ x y, R x y → R y x)
    {l : List α} (hpair : l.Pairwise R) {a b : α} (ha : a ∈ l) (hb : b ∈ l) (hne : a ≠ b) :
    R a b := by
  have : Std.Symm R := ⟨hsymm⟩
  exact hpair.forall ha hb hne

theorem pairwise_or {α : Type} {R : α → α → Prop} {l : List α} (hpair : l.Pairwise R) {a b : α}
    (ha : a ∈ l) (hb : b ∈ l) (hne : a ≠ b) : R a b ∨ R b a :=
  pairwise_forall_of_symm (R := fun x y => R x y ∨ R y x) (fun _ _ h => h.symm)
    (hpair.imp .inl) ha hb hne

theorem length_le_one_of_pairwise {α : Type} {l : List α} (h : l.Pairwise fun _ _ => False) :
    l.length ≤ 1 := by
  match l with
  | [] => exact Nat.zero_le 1
  | [_] => exact Nat.le_refl 1
  | a :: b :: _ => exact ((List.pairwise_cons.mp h).1 b List.mem_cons_self).elim

theorem eq_of_nodup_filterMap {α β : Type} {f : α → Option β} {l : List α}
    (hnodup : (l.filterMap f).Nodup) {a b : α} {v : β} (ha : a ∈ l) (hb : b ∈ l)
    (hfa : f a = some v) (hfb : f b = some v) : a = b := by
  by_contra hne
  refine pairwise_forall_of_symm ?_ (List.pairwise_filterMap.mp hnodup) ha hb hne v hfa v hfb rfl
  intro x y h u hu w hw heq
  exact h w hw u hu heq.symm

end AuthForge
