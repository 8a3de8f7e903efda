import AuthForge.Base.Dict

/-!
# Keys that expire

A store whose entries carry the time at which they are dropped. Reading takes the time of the store's
clock; an entry is there as long as its time has not come. Nothing has to sweep the store: an entry
whose time has come is never read again unless it is set anew.

As far as a cache uses a server of such keys, every command comes some time after the one before and
may fail, and a failing command does nothing. What is read from the source of a cache is stored in a
later step, so a write and its deletion may come in between. `Overtaken` says so of a history, and
`Dict.Holds` says what is stored under one key.
-/

namespace AuthForge

structure Timed (β : Type) where
  value : β
  expireAt : Int
  deriving DecidableEq

abbrev TimedStore (κ β : Type) := Dict κ (Timed β)

namespace TimedStore

variable {κ β : Type} [DecidableEq κ] {now now' : Int} {k k' : κ} {v v' : β} {ttl : Int}
  {s : TimedStore κ β}

/-- The entry under a key that is not dropped yet. -/
def live (now : Int) (k : κ) (s : TimedStore κ β) : Option (Timed β) :=
  (s.lookup k).filter fun e => now < e.expireAt

def get (now : Int) (k : κ) (s : TimedStore κ β) : Option β := (live now k s).map Timed.value

def contains (now : Int) (k : κ) (s : TimedStore κ β) : Bool := (live now k s).isSome

def setEx (now : Int) (k : κ) (v : β) (ttl : Int) (s : TimedStore κ β) : TimedStore κ β :=
  s.insert k ⟨v, now + ttl⟩

def del (k : κ) (s : TimedStore κ β) : TimedStore κ β := s.erase k

theorem live_eq_some_iff {e : Timed β} :
    live now k s = some e ↔ s.lookup k = some e ∧ now < e.expireAt := by
  rw [live, Option.filter_eq_some_iff, decide_eq_true_eq]

theorem get_eq_some_iff :
    get now k s = some v ↔ ∃ e, s.lookup k = some e ∧ now < e.expireAt ∧ e.value = v := by
  simp only [get, Option.map_eq_some_iff, live_eq_some_iff, and_assoc]

theorem contains_eq_true_iff :
    contains now k s = true ↔ ∃ e, s.lookup k = some e ∧ now < e.expireAt := by
  simp only [contains, Option.isSome_iff_exists, live_eq_some_iff]

@[simp] theorem lookup_setEx_self :
    (setEx now k v ttl s).lookup k = some ⟨v, now + ttl⟩ :=
  AList.lookup_insert s

@[simp] theorem lookup_setEx_of_ne (h : k' ≠ k) : (setEx now k v ttl s).lookup k' = s.lookup k' :=
  AList.lookup_insert_ne h

@[simp] theorem lookup_del_self : (del k s).lookup k = none := AList.lookup_erase k s

@[simp] theorem lookup_del_of_ne (h : k' ≠ k) : (del k s).lookup k' = s.lookup k' :=
  AList.lookup_erase_ne h

theorem lookup_setEx_cases {e : Timed β} (h : (setEx now k v ttl s).lookup k' = some e) :
    (k' = k ∧ e = ⟨v, now + ttl⟩) ∨ (k' ≠ k ∧ s.lookup k' = some e) := by
  by_cases hk : k' = k
  · subst hk
    rw [lookup_setEx_self] at h
    exact .inl ⟨rfl, (Option.some.inj h).symm⟩
  · rw [lookup_setEx_of_ne hk] at h
    exact .inr ⟨hk, h⟩

theorem lookup_del_cases {e : Timed β} (h : (del k s).lookup k' = some e) :
    k' ≠ k ∧ s.lookup k' = some e := by
  by_cases hk : k' = k
  · subst hk
    rw [lookup_del_self] at h
    cases h
  · rw [lookup_del_of_ne hk] at h
    exact ⟨hk, h⟩

end TimedStore

/-! ## Reading through a cache -/

/-! ### What is stored under a key -/

namespace Dict

variable {κ β : Type} [DecidableEq κ]

/-- Whatever is stored under the key has the property. -/
def Holds (P : β → Prop) (k : κ) (d : Dict κ β) : Prop := ∀ v, d.lookup k = some v → P v

variable {P Q : β → Prop} {k k' : κ} {v : β} {d : Dict κ β}

theorem holds_erase_self : Holds P k (d.erase k) := by
  intro v hv
  rw [AList.lookup_erase] at hv
  cases hv

theorem Holds.erase (h : Holds P k d) (k' : κ) : Holds P k (d.erase k') := by
  intro v hv
  by_cases hk : k = k'
  · subst hk
    exact holds_erase_self v hv
  · rw [AList.lookup_erase_ne hk] at hv
    exact h v hv

theorem Holds.insert (h : Holds P k d) (hv : k' = k → P v) : Holds P k (d.insert k' v) := by
  intro w hw
  by_cases hk : k' = k
  · subst hk
    rw [AList.lookup_insert] at hw
    exact Option.some.inj hw ▸ hv rfl
  · rw [AList.lookup_insert_ne (Ne.symm hk)] at hw
    exact h w hw

theorem Holds.keepValues (h : Holds P k d) (p : β → Bool) : Holds P k (d.keepValues p) := by
  intro v hv
  rw [lookup_keepValues, Option.filter_eq_some_iff] at hv
  exact h v hv.1

end Dict

/-! ### Commands -/

/-- What a command depends on besides the keys: the time since the command before, whether the
command fails, and which of two commands in flight comes first. -/
structure CommandEnv where
  elapsed : Nat := 0
  commandFails : Bool := false
  taskFirst : Bool := false

/-- The clock counts milliseconds. -/
structure KeyServer (β : Type) where
  clock : Int
  keys : TimedStore String β

namespace KeyServer

variable {β : Type} {P : β → Prop} {env : CommandEnv} {key key' : String} {value : β} {ttl : Int}
  {s : KeyServer β}

def tick (env : CommandEnv) (s : KeyServer β) : KeyServer β :=
  { s with clock := s.clock + env.elapsed }

/-- `none` where the command fails. -/
def get (env : CommandEnv) (key : String) (s : KeyServer β) : Option (Option β) :=
  if env.commandFails then none else some (s.keys.get s.clock key)

def mget (env : CommandEnv) (key key' : String) (s : KeyServer β) :
    Option (Option β × Option β) :=
  if env.commandFails then none else some (s.keys.get s.clock key, s.keys.get s.clock key')

def setEx (env : CommandEnv) (key : String) (value : β) (ttl : Int) (s : KeyServer β) :
    KeyServer β :=
  if env.commandFails then s else { s with keys := s.keys.setEx s.clock key value (1000 * ttl) }

def del (env : CommandEnv) (key : String) (s : KeyServer β) : KeyServer β :=
  if env.commandFails then s else { s with keys := s.keys.del key }

/-- Whatever is stored under the key, expired or not, has the property. -/
def Holds (P : β → Prop) (key : String) (s : KeyServer β) : Prop :=
  Dict.Holds (fun e => P e.value) key s.keys

theorem Holds.tick (h : Holds P key s) : Holds P key (s.tick env) := h

theorem Holds.setEx (h : Holds P key s) (hvalue : key' = key → P value) :
    Holds P key (s.setEx env key' value ttl) := by
  unfold KeyServer.setEx
  split
  · exact h
  · exact Dict.Holds.insert h hvalue

theorem Holds.del (h : Holds P key s) (key' : String) : Holds P key (s.del env key') := by
  unfold KeyServer.del
  split
  · exact h
  · exact Dict.Holds.erase h key'

theorem holds_del_self (henv : env.commandFails = false) : Holds P key (s.del env key) := by
  rw [KeyServer.del, henv]
  exact Dict.holds_erase_self

theorem Holds.of_live (h : Holds P key s) (hvalue : s.keys.get s.clock key = some value) :
    P value := by
  obtain ⟨e, he, -, rfl⟩ := TimedStore.get_eq_some_iff.mp hvalue
  exact h e he

theorem Holds.get (h : Holds P key s) (hvalue : s.get env key = some (some value)) : P value := by
  unfold KeyServer.get at hvalue
  split at hvalue
  · cases hvalue
  · exact h.of_live (Option.some.inj hvalue)

theorem Holds.mget_left {other : Option β} (h : Holds P key s)
    (hvalue : s.mget env key key' = some (some value, other)) : P value := by
  unfold KeyServer.mget at hvalue
  split at hvalue
  · cases hvalue
  · exact h.of_live (Prod.mk.inj (Option.some.inj hvalue)).1

theorem Holds.mget_right {other : Option β} (h : Holds P key' s)
    (hvalue : s.mget env key key' = some (other, some value)) : P value := by
  unfold KeyServer.mget at hvalue
  split at hvalue
  · cases hvalue
  · exact h.of_live (Prod.mk.inj (Option.some.inj hvalue)).2

end KeyServer

/-! ### Reads that a write overtakes -/

section Overtaken

variable {ε : Type}

/-- In a history, newest first: something was read, and something was written after that. -/
def Overtaken (write read : ε → Prop) : List ε → Prop
  | [] => False
  | e :: past => (write e ∧ ∃ e' ∈ past, read e') ∨ Overtaken write read past

instance decidableOvertaken (write read : ε → Prop) [DecidablePred write] [DecidablePred read] :
    (history : List ε) → Decidable (Overtaken write read history)
  | [] => .isFalse id
  | _ :: past =>
    have := decidableOvertaken write read past
    inferInstanceAs (Decidable ((_ ∧ ∃ _ ∈ past, _) ∨ _))

variable {write read : ε → Prop} {later past : List ε} {e r : ε}

theorem overtaken_of_mem (he : e ∈ later) (hwrite : write e) (hr : r ∈ past) (hread : read r) :
    Overtaken write read (later ++ past) := by
  induction later with
  | nil => cases he
  | cons e' later ih =>
    rcases List.mem_cons.mp he with rfl | he
    · exact .inl ⟨hwrite, r, List.mem_append_right _ hr, hread⟩
    · exact .inr (ih he)

/-- What a read that no write overtakes follows: every write so far came before it. -/
theorem mem_past_of_not_overtaken (h : ¬Overtaken write read (later ++ r :: past)) (hread : read r)
    (hne : ¬write r) (he : e ∈ later ++ r :: past) (hwrite : write e) : e ∈ past := by
  rcases List.mem_append.mp he with he | he
  · exact absurd (overtaken_of_mem he hwrite List.mem_cons_self hread) h
  · rcases List.mem_cons.mp he with rfl | he
    · exact absurd hwrite hne
    · exact he

end Overtaken

end AuthForge
