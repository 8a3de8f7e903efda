import Mathlib.Data.Rat.Defs

/-!
# Values of JavaScript, as JSON brings them

Reading a property never fails on what JSON can hold: a property that is not there reads as
`undefined`, and so does every property of an array that is no index. Numbers are finite; the two
zeros are one, as they are for `===`.
-/

inductive Js
  | undefined
  | null
  | boolean (b : Bool)
  | number (q : Rat)
  | string (s : String)
  | array (items : List Js)
  | object (members : List (String × Js))

namespace Js

/-- `v[key]` for a key that is neither an index nor an inherited property. -/
def get (v : Js) (key : String) : Js :=
  match v with
  | object members => (members.lookup key).getD undefined
  | _ => undefined

/-- `typeof v === 'object' && v !== null`. -/
def isObject : Js → Bool
  | array _ => true
  | object _ => true
  | _ => false

def isTrue : Js → Bool
  | boolean b => b
  | _ => false

/-- The value as a non-empty string. -/
def text? : Js → Option String
  | string s => if s = "" then none else some s
  | _ => none

/-- The value as a number. -/
def number? : Js → Option Rat
  | number q => some q
  | _ => none

theorem text?_eq_some_iff {v : Js} {s : String} : v.text? = some s ↔ v = string s ∧ s ≠ "" := by
  cases v with
  | string r =>
    by_cases hr : r = ""
    · simp only [text?, if_pos hr, string.injEq]
      refine iff_of_false nofun ?_
      rintro ⟨rfl, hne⟩
      exact hne hr
    · simp only [text?, if_neg hr, Option.some.injEq, string.injEq]
      refine ⟨?_, And.left⟩
      rintro rfl
      exact ⟨rfl, hr⟩
  | _ => exact iff_of_false nofun nofun

theorem get_of_not_isObject {v : Js} (h : v.isObject = false) (key : String) :
    v.get key = undefined := by
  cases v with
  | object members => cases h
  | _ => rfl

theorem isObject_of_get {v : Js} (key : String) (h : v.get key ≠ undefined) : v.isObject = true := by
  by_contra hobject
  exact h (get_of_not_isObject (Bool.eq_false_iff.mpr hobject) key)

end Js
