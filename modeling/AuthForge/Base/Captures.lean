import Mathlib.Logic.Function.Basic

/-!
# Function objects that several lambdas capture

A lambda expression takes the variables of its scope into itself when it is evaluated, and a variable
that is captured by move is empty afterwards. Where two lambdas are arguments of one call, either
may be evaluated first.
-/

namespace AuthForge.Captures

inductive Capture
  | byMove
  | byCopy
  deriving DecidableEq, Repr

/-- The function objects of a scope; `none` is an empty one. -/
abbrev Vars (V F : Type) := V → Option F

abbrev Lambda (V : Type) := List (V × Capture)

inductive Order
  | leftFirst
  | rightFirst
  deriving DecidableEq, Repr

section Evaluate

variable {V F : Type} [DecidableEq V]

/-- The captures one after the other: the objects that the lambda holds, and the variables it
leaves. -/
def evaluate : Lambda V → Vars V F → Vars V F × Vars V F
  | [], vars => (fun _ => none, vars)
  | (v, how) :: rest, vars =>
    let r := evaluate rest (if how = .byMove then Function.update vars v none else vars)
    (Function.update r.1 v (vars v), r.2)

/-- What the two lambdas of an argument list hold. -/
def arguments (order : Order) (left right : Lambda V) (vars : Vars V F) : Vars V F × Vars V F :=
  match order with
  | .leftFirst =>
    let l := evaluate left vars
    (l.1, (evaluate right l.2).1)
  | .rightFirst =>
    let r := evaluate right vars
    ((evaluate left r.2).1, r.1)

variable {vars : Vars V F} {v : V} {lambda left right : Lambda V} {order : Order}

theorem evaluate_snd (lambda : Lambda V) (vars : Vars V F) (v : V) :
    (evaluate lambda vars).2 v = if (v, Capture.byMove) ∈ lambda then none else vars v := by
  induction lambda generalizing vars with
  | nil => rfl
  | cons c rest ih =>
    obtain ⟨w, how⟩ := c
    rw [evaluate, ih]
    cases how with
    | byMove =>
      by_cases hv : v = w
      · subst hv
        simp
      · simp [hv]
    | byCopy => simp

/-- A lambda holds what the variable was when its evaluation began, as long as it names the variable
once. -/
theorem evaluate_fst (hnodup : (lambda.map Prod.fst).Nodup) (hv : v ∈ lambda.map Prod.fst)
    (vars : Vars V F) : (evaluate lambda vars).1 v = vars v := by
  induction lambda generalizing vars with
  | nil => cases hv
  | cons c rest ih =>
    obtain ⟨w, how⟩ := c
    rw [evaluate]
    by_cases heq : v = w
    · subst heq
      exact Function.update_self ..
    · rw [List.map_cons, List.nodup_cons] at hnodup
      have hrest : v ∈ rest.map Prod.fst := (List.mem_cons.mp hv).resolve_left heq
      change Function.update (evaluate rest _).1 w (vars w) v = vars v
      rw [Function.update_of_ne heq, ih hnodup.2 hrest]
      split
      · exact Function.update_of_ne heq ..
      · rfl

/-- The lambda on the left finds the variable empty when the one on the right has moved from it. -/
theorem arguments_fst (hnodup : (left.map Prod.fst).Nodup) (hv : v ∈ left.map Prod.fst) :
    (arguments order left right vars).1 v =
      if order = .rightFirst ∧ (v, Capture.byMove) ∈ right then none else vars v := by
  cases order with
  | leftFirst => exact evaluate_fst hnodup hv vars
  | rightFirst =>
    change (evaluate left (evaluate right vars).2).1 v = _
    rw [evaluate_fst hnodup hv, evaluate_snd]
    simp

theorem arguments_snd (hnodup : (right.map Prod.fst).Nodup) (hv : v ∈ right.map Prod.fst) :
    (arguments order left right vars).2 v =
      if order = .leftFirst ∧ (v, Capture.byMove) ∈ left then none else vars v := by
  cases order with
  | rightFirst => exact evaluate_fst hnodup hv vars
  | leftFirst =>
    change (evaluate right (evaluate left vars).2).1 v = _
    rw [evaluate_fst hnodup hv, evaluate_snd]
    simp

end Evaluate

/-! ### Invocations -/

/-- One invocation of a function object; an empty one throws instead of running. -/
structure Invocation (F A : Type) where
  object : Option F
  argument : A
  deriving DecidableEq, Repr

/-- The functions that an invocation runs. -/
def Invocation.runs {F A : Type} (i : Invocation F A) : List F := i.object.toList

/-- One function of the caller runs. -/
def Invocation.Answers {F A : Type} (i : Invocation F A) : Prop := i.runs.length = 1

instance {F A : Type} (i : Invocation F A) : Decidable i.Answers :=
  inferInstanceAs (Decidable (_ = _))

theorem Invocation.answers_iff {F A : Type} {i : Invocation F A} :
    i.Answers ↔ i.object.isSome = true := by
  obtain ⟨object, argument⟩ := i
  cases object with
  | none => exact iff_of_false (fun h => by cases h) Bool.false_ne_true
  | some f => exact iff_of_true rfl rfl

end AuthForge.Captures
