import Mathlib.Data.Rat.Defs

/-!
# Reading JSON values the jsoncpp way

A parsed value is read by asking for members and converting what is found. Members exist for objects
and, none of them, for `null`; asking any other value throws. A conversion throws where the kind of
the value or its range does not fit. Throwing is `none` here.
-/

namespace AuthForge.Jsoncpp

/-- Integers that fit into 64 bits are integers; every other number is a double, whose value is
`none` when it is infinite. `text` is how the double is written. -/
inductive Value
  | null
  | bool (b : Bool)
  | int (n : Int64)
  | uint (n : UInt64)
  | real (value : Option Rat) (text : String)
  | string (s : String)
  | array (items : List Value)
  | object (members : List (String × Value))

namespace Value

def isCollection : Value → Bool
  | array _ => true
  | object _ => true
  | _ => false

/-- What `find` searches. -/
def members : Value → Option (List (String × Value))
  | null => some []
  | object members => some members
  | _ => none

def isMember (v : Value) (key : String) : Option Bool :=
  v.members.map fun members => (members.lookup key).isSome

/-- `v[key]`; a member that is missing reads as `null`. -/
def index (v : Value) (key : String) : Option Value :=
  v.members.map fun members => (members.lookup key).getD null

def get (v : Value) (key : String) (defaultValue : Value) : Option Value :=
  v.members.map fun members => (members.lookup key).getD defaultValue

def asString : Value → Option String
  | null => some ""
  | bool b => some (if b then "true" else "false")
  | int n => some (toString n.toInt)
  | uint n => some (toString n.toNat)
  | real _ text => some text
  | string s => some s
  | array _ => none
  | object _ => none

def asBool : Value → Option Bool
  | null => some false
  | bool b => some b
  | int n => some (n ≠ 0)
  | uint n => some (n ≠ 0)
  | real value _ => some (value ≠ some 0)
  | _ => none

def truncate (x : Rat) : Int := x.num.tdiv x.den

/-- The conversion to the integers from `lo` to `hi`. The bounds that a double is compared with are
doubles themselves: `hi` is rounded to `hi'`. -/
def asIntIn (lo hi hi' : Int) : Value → Option Int
  | null => some 0
  | bool b => some (if b then 1 else 0)
  | int n => if lo ≤ n.toInt ∧ n.toInt ≤ hi then some n.toInt else none
  | uint n => if (n.toNat : Int) ≤ hi then some n.toNat else none
  | real (some x) _ => if (lo : Rat) ≤ x ∧ x ≤ hi' then some (truncate x) else none
  | _ => none

def asInt (v : Value) : Option Int := v.asIntIn (-2147483648) 2147483647 2147483647

/-- `2 ^ 63` as a double passes the range check and wraps. -/
def asInt64 (v : Value) : Option Int :=
  (v.asIntIn (-9223372036854775808) 9223372036854775807 9223372036854775808).map fun n =>
    if n = 9223372036854775808 then -n else n

/-- `v[key].asString()`. -/
def stringAt (v : Value) (key : String) : Option String := do
  let member ← v.index key
  member.asString

/-- `v.get(key, "").asString()`. -/
def getString (v : Value) (key : String) : Option String := do
  let member ← v.get key (string "")
  member.asString

/-! ### What throws -/

variable {v : Value} {key : String}

@[simp] theorem asString_eq_none_iff : v.asString = none ↔ v.isCollection = true := by
  cases v <;> simp [asString, isCollection]

@[simp] theorem isMember_eq_none_iff : v.isMember key = none ↔ v.members = none := by
  simp [isMember]

@[simp] theorem index_eq_none_iff : v.index key = none ↔ v.members = none := by
  simp [index]

/-- A member that is missing reads as the empty string either way. -/
theorem getString_eq_stringAt : v.getString key = v.stringAt key := by
  cases hmembers : v.members with
  | none => simp [getString, stringAt, get, index, hmembers]
  | some members =>
    cases hlookup : members.lookup key <;>
      simp [getString, stringAt, get, index, hmembers, hlookup, asString]

theorem stringAt_of_not_member (h : v.isMember key = some false) : v.stringAt key = some "" := by
  cases hmembers : v.members with
  | none => simp [isMember, hmembers] at h
  | some members =>
    have hlookup : members.lookup key = none := by simpa [isMember, hmembers] using h
    simp [stringAt, index, hmembers, hlookup, asString]

theorem stringAt_ne_none_iff :
    v.stringAt key ≠ none ↔ ∃ member, v.index key = some member ∧ member.isCollection = false := by
  cases hindex : v.index key with
  | none => simp [stringAt, hindex]
  | some member => simp [stringAt, hindex]

/-- The value answers questions about its members, and the members with these names, where there are
any, read as strings. -/
structure Textual (body : Value) (keys : List String) : Prop where
  hasMembers : body.members ≠ none
  scalar : ∀ key ∈ keys, ∀ member, body.index key = some member → member.isCollection = false

theorem textual_cons_iff {keys : List String} :
    v.Textual (key :: keys) ↔ ∀ key' ∈ key :: keys, ∃ s, v.stringAt key' = some s := by
  simp only [← Option.ne_none_iff_exists', stringAt_ne_none_iff]
  constructor
  · intro h key' hkey'
    cases hindex : v.index key' with
    | none => exact absurd (index_eq_none_iff.mp hindex) h.hasMembers
    | some member => exact ⟨member, rfl, h.scalar key' hkey' member hindex⟩
  · intro h
    refine ⟨?_, ?_⟩
    · obtain ⟨member, hindex, -⟩ := h key List.mem_cons_self
      intro hnone
      rw [index_eq_none_iff.mpr hnone] at hindex
      cases hindex
    · intro key' hkey' member hindex
      obtain ⟨member', hindex', hscalar⟩ := h key' hkey'
      rw [hindex] at hindex'
      exact Option.some.inj hindex' ▸ hscalar

/-! ### Places in a value -/

/-- One step down: to a member of an object or to an item of an array. -/
inductive Key
  | member (name : String)
  | item (index : Nat)
  deriving DecidableEq

def child : Value → Key → Option Value
  | object members, .member name => members.lookup name
  | array items, .item index => items[index]?
  | _, _ => none

def setChild : Value → Key → Value → Value
  | object members, .member name, new =>
    object (members.map fun m => if m.1 = name then (name, new) else m)
  | array items, .item index, new => array (items.set index new)
  | v, _, _ => v

/-- What stands at a place. -/
def within (v : Value) : List Key → Option Value
  | [] => some v
  | k :: ks => (v.child k).bind (·.within ks)

/-- Another value at a place that the value has. -/
def replace (v : Value) : List Key → Value → Value
  | [], new => new
  | k :: ks, new =>
    match v.child k with
    | none => v
    | some c => v.setChild k (c.replace ks new)

section Places

variable {k k' : Key} {ks ks' : List Key} {new c : Value}

theorem within_append (ks ks' : List Key) (v : Value) :
    v.within (ks ++ ks') = (v.within ks).bind (·.within ks') := by
  induction ks generalizing v with
  | nil => rfl
  | cons k ks ih =>
    rw [List.cons_append, within, within, Option.bind_assoc]
    simp only [ih]

theorem lookup_replaced (members : List (String × Value)) (name name' : String) (new : Value) :
    (members.map fun m => if m.1 = name then (name, new) else m).lookup name' =
      if name' = name then (members.lookup name').map fun _ => new else members.lookup name' := by
  induction members with
  | nil => simp
  | cons m members ih =>
    obtain ⟨first, value⟩ := m
    by_cases hfound : name' = first
    · subst hfound
      by_cases hname : name' = name <;> simp [hname]
    · have hbeq : (name' == first) = false := by simpa using hfound
      rw [List.lookup_cons, hbeq, ← ih, List.map_cons]
      by_cases hfirst : first = name
      · have hbeq' : (name' == name) = false := by rwa [← hfirst]
        rw [if_pos hfirst, List.lookup_cons, hbeq']
      · rw [if_neg hfirst, List.lookup_cons, hbeq]

theorem child_setChild_self (h : v.child k = some c) : (v.setChild k new).child k = some new := by
  cases v <;> cases k <;> try cases h
  case array.item items index =>
    have hbound : index < items.length := by
      obtain ⟨hbound, -⟩ := List.getElem?_eq_some_iff.mp h
      exact hbound
    simp [setChild, child, hbound]
  case object.member members name =>
    change members.lookup name = some c at h
    simp [setChild, child, lookup_replaced, h]

theorem child_setChild_ne (h : k' ≠ k) : (v.setChild k new).child k' = v.child k' := by
  cases v <;> cases k <;> try rfl
  case array.item items index =>
    cases k' with
    | member name => rfl
    | item index' =>
      have hindex : index ≠ index' := by
        intro heq
        exact h (by rw [heq])
      simp [setChild, child, List.getElem?_set_ne hindex]
  case object.member members name =>
    cases k' with
    | item index => rfl
    | member name' =>
      have hname : name' ≠ name := by
        intro heq
        exact h (by rw [heq])
      simp [setChild, child, lookup_replaced, hname]

theorem child_replace_self (h : v.child k = some c) :
    (v.replace (k :: ks) new).child k = some (c.replace ks new) := by
  rw [replace, h]
  exact child_setChild_self h

theorem child_replace_ne (h : k' ≠ k) : (v.replace (k :: ks) new).child k' = v.child k' := by
  rw [replace]
  cases v.child k with
  | none => rfl
  | some c => exact child_setChild_ne h

/-- At the place that was set, and below it, stands what was put there. -/
theorem within_replace_append (h : v.within ks = some c) (below : List Key) :
    (v.replace ks new).within (ks ++ below) = new.within below := by
  induction ks generalizing v with
  | nil => rfl
  | cons k ks ih =>
    rw [within] at h
    obtain ⟨d, hd, hwithin⟩ := Option.bind_eq_some_iff.mp h
    rw [List.cons_append, within, child_replace_self hd, Option.bind_some]
    exact ih hwithin

/-- A place that is neither above nor below the one that was set is not touched. -/
theorem within_replace_of_incomparable (h : ¬ks <+: ks') (h' : ¬ks' <+: ks) :
    (v.replace ks new).within ks' = v.within ks' := by
  induction ks generalizing v ks' with
  | nil => exact absurd List.nil_prefix h
  | cons k ks ih =>
    cases ks' with
    | nil => exact absurd List.nil_prefix h'
    | cons k' ks' =>
      rw [within, within]
      by_cases hkey : k' = k
      · subst hkey
        rw [List.cons_prefix_cons] at h h'
        cases hchild : v.child k' with
        | none => rw [replace, hchild]; simp only [hchild]
        | some c =>
          rw [child_replace_self hchild, Option.bind_some, Option.bind_some]
          apply ih
          · exact fun hprefix => h ⟨rfl, hprefix⟩
          · exact fun hprefix => h' ⟨rfl, hprefix⟩
      · rw [child_replace_ne hkey]

end Places

end Value

end AuthForge.Jsoncpp
