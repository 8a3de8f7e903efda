import AuthForge.Storage.Transactions

/-!
# Redis as a mirror of the transactions in memory

The script of `markTransactionConsumed` looks under the bare id while the other three operations
use the prefixed key. As long as no call marks a stored transaction, or hits one by naming its key,
the two repositories answer alike.
-/

namespace AuthForge.TransactionMirror

open Storage
open RedisTransactions (transactionKey transactionJson transactionOfJson printedInt)

variable {s : TransactionStores} {now : Int} {id key : String} {t : AuthorizationTransaction}

/-- An un-consumed transaction is stored under the id. -/
def Markable (s : TransactionStores) (id : String) : Prop :=
  ∃ t ∈ s.memory.lookup id, t.consumed = false

/-- The id is the key of a stored un-consumed transaction that has not expired. -/
def NamesKey (s : TransactionStores) (now : Int) (id : String) : Prop :=
  ∃ e ∈ s.memory.entries,
    cStr id = transactionKey e.1 ∧ now < e.2.expiresAt ∧ e.2.consumed = false

/-- No transaction is stored under another id that Redis cannot tell from this one. -/
def NoOtherUnder (s : TransactionStores) (id : String) : Prop :=
  ∀ e ∈ s.memory.entries, transactionKey e.1 = transactionKey id → e.1 = id

/-- Calls are about unexpired transactions that live less than `2 ^ 31` seconds, ids differ before
their first NUL, and no call of `markTransactionConsumed` would mark anything. -/
def MarksNothing : Guard TransactionStores TransactionInput TransactionEvent := fun _ s i =>
  match i.call with
  | .save t =>
    i.now < t.expiresAt ∧ t.expiresAt - i.now < 2 ^ 31 ∧ NoOtherUnder s t.transactionId
  | .get id => (∀ t ∈ s.memory.lookup id, i.now < t.expiresAt) ∧ NoOtherUnder s id
  | .markConsumed id => ¬Markable s id ∧ ¬NamesKey s i.now id
  | .delete id => NoOtherUnder s id

def Agrees (e : TransactionEvent) : Prop := e.memory = e.redis

/-! ### The invariant -/

structure Mirrored (s : TransactionStores) : Prop where
  stored : ∀ id t, s.memory.lookup id = some t →
    s.redis.lookup (transactionKey id) = some ⟨transactionJson t, t.expiresAt⟩
  known : ∀ key e, s.redis.lookup key = some e →
    ∃ id t, s.memory.lookup id = some t ∧ key = transactionKey id

theorem eq_of_noOtherUnder {x : String} (hno : NoOtherUnder s id) (hx : s.memory.lookup x = some t)
    (hkey : transactionKey x = transactionKey id) : x = id :=
  hno ⟨x, t⟩ (AList.mem_lookup_iff.mp hx) hkey

theorem printedInt_eq {n : Int} (hpos : 0 < n) (hlt : n < 2 ^ 31) : printedInt n = n := by
  unfold printedInt
  omega

/-! ### One call -/

theorem save_mirrored (hmirror : Mirrored s) (hlive : now < t.expiresAt)
    (hlife : t.expiresAt - now < 2 ^ 31) (hno : NoOtherUnder s t.transactionId) :
    Agrees (transactionMachine.step s ⟨now, .save t⟩).2 ∧
      Mirrored (transactionMachine.step s ⟨now, .save t⟩).1 := by
  have hpos : 0 < t.expiresAt - now := by omega
  have hredis : RedisTransactions.saveAuthorizationTransaction now t s.redis =
      (true, TimedStore.setEx now (transactionKey t.transactionId) (transactionJson t)
        (t.expiresAt - now) s.redis) := by
    unfold RedisTransactions.saveAuthorizationTransaction
    rw [if_pos hlive]
    simp only [printedInt_eq hpos hlife]
    rw [if_neg (by omega)]
  have hexpire : now + (t.expiresAt - now) = t.expiresAt := by omega
  simp only [transactionMachine, MemoryTransactions.call, RedisTransactions.call, hredis, Agrees]
  refine ⟨rfl, ?_, ?_⟩
  · intro x u hx
    change (s.memory.insert t.transactionId t).lookup x = some u at hx
    by_cases heq : x = t.transactionId
    · subst heq
      rw [AList.lookup_insert] at hx
      obtain rfl := Option.some.inj hx
      rw [TimedStore.lookup_setEx_self, hexpire]
    · rw [AList.lookup_insert_ne heq] at hx
      rw [TimedStore.lookup_setEx_of_ne fun hkey => heq (eq_of_noOtherUnder hno hx hkey)]
      exact hmirror.stored x u hx
  · intro key e hkey
    rcases TimedStore.lookup_setEx_cases hkey with ⟨rfl, -⟩ | ⟨-, hold⟩
    · exact ⟨t.transactionId, t, AList.lookup_insert _, rfl⟩
    · obtain ⟨x, u, hx, rfl⟩ := hmirror.known key e hold
      by_cases heq : x = t.transactionId
      · subst heq
        exact ⟨t.transactionId, t, AList.lookup_insert _, rfl⟩
      · exact ⟨x, u, (AList.lookup_insert_ne heq).trans hx, rfl⟩

theorem get_mirrored (hmirror : Mirrored s) (hlive : ∀ t ∈ s.memory.lookup id, now < t.expiresAt)
    (hno : NoOtherUnder s id) :
    Agrees (transactionMachine.step s ⟨now, .get id⟩).2 ∧
      Mirrored (transactionMachine.step s ⟨now, .get id⟩).1 := by
  simp only [transactionMachine, MemoryTransactions.call, RedisTransactions.call, Agrees,
    MemoryTransactions.getAuthorizationTransaction]
  unfold RedisTransactions.getAuthorizationTransaction
  cases hid : s.memory.lookup id with
  | none =>
    refine ⟨?_, hmirror⟩
    cases hget : TimedStore.get now (transactionKey id) s.redis with
    | none => rfl
    | some json =>
      obtain ⟨e, he, -, -⟩ := TimedStore.get_eq_some_iff.mp hget
      obtain ⟨x, u, hx, hkey⟩ := hmirror.known _ e he
      rw [eq_of_noOtherUnder hno hx hkey.symm, hid] at hx
      cases hx
  | some t =>
    have hnow : now < t.expiresAt := hlive t (by rw [hid]; rfl)
    have hget : TimedStore.get now (transactionKey id) s.redis = some (transactionJson t) :=
      TimedStore.get_eq_some_iff.mpr ⟨_, hmirror.stored id t hid, hnow, rfl⟩
    have hle : ¬t.expiresAt < now := by omega
    simp only [if_neg hle, hget]
    exact ⟨rfl, hmirror⟩

theorem delete_mirrored (hmirror : Mirrored s) (hno : NoOtherUnder s id) :
    Agrees (transactionMachine.step s ⟨now, .delete id⟩).2 ∧
      Mirrored (transactionMachine.step s ⟨now, .delete id⟩).1 := by
  refine ⟨rfl, ?_, ?_⟩
  · intro x u hx
    change (s.memory.erase id).lookup x = some u at hx
    have hne : x ≠ id := by
      intro heq
      rw [heq, AList.lookup_erase] at hx
      cases hx
    rw [AList.lookup_erase_ne hne] at hx
    refine (TimedStore.lookup_del_of_ne fun hkey => hne ?_).trans (hmirror.stored x u hx)
    exact eq_of_noOtherUnder hno hx hkey
  · intro key e hkey
    obtain ⟨hne, hold⟩ := TimedStore.lookup_del_cases hkey
    obtain ⟨x, u, hx, rfl⟩ := hmirror.known key e hold
    have hxid : x ≠ id := fun heq => hne (congrArg transactionKey heq)
    exact ⟨x, u, (AList.lookup_erase_ne hxid).trans hx, rfl⟩

theorem memory_mark (s : TransactionStores) (id : String) :
    ((MemoryTransactions.markTransactionConsumed id s.memory).1 = true ↔ Markable s id) ∧
      (¬Markable s id → (MemoryTransactions.markTransactionConsumed id s.memory).2 = s.memory) := by
  unfold MemoryTransactions.markTransactionConsumed Markable
  cases hid : s.memory.lookup id with
  | none => simp
  | some t => cases hconsumed : t.consumed <;> simp [hconsumed]

theorem redis_mark (hmirror : Mirrored s) :
    ((RedisTransactions.markTransactionConsumed now id s.redis).1 = true ↔ NamesKey s now id) ∧
      (¬NamesKey s now id →
        (RedisTransactions.markTransactionConsumed now id s.redis).2 = s.redis) := by
  have hnames : NamesKey s now id ↔ ∃ e, TimedStore.live now (cStr id) s.redis = some e ∧
      e.value.asBool "consumed" = false := by
    constructor
    · intro h
      obtain ⟨⟨x, t⟩, hmem, hkey, hlive, hconsumed⟩ := h
      have hstored := hmirror.stored x t (AList.mem_lookup_iff.mpr hmem)
      rw [hkey]
      exact ⟨_, TimedStore.live_eq_some_iff.mpr ⟨hstored, hlive⟩, hconsumed⟩
    · intro h
      obtain ⟨e, he, hconsumed⟩ := h
      obtain ⟨hlookup, hlive⟩ := TimedStore.live_eq_some_iff.mp he
      obtain ⟨x, t, hx, hkey⟩ := hmirror.known _ e hlookup
      rw [hkey, hmirror.stored x t hx] at hlookup
      obtain rfl := Option.some.inj hlookup
      exact ⟨⟨x, t⟩, AList.mem_lookup_iff.mp hx, hkey, hlive, hconsumed⟩
  rw [hnames]
  unfold RedisTransactions.markTransactionConsumed RedisTransactions.consumeScript
  cases hlive : TimedStore.live now (cStr id) s.redis with
  | none => simp
  | some e => cases hconsumed : e.value.asBool "consumed" <;> simp [hconsumed]

/-- A call of `markTransactionConsumed` is answered alike exactly when both repositories mark a
transaction or neither does. -/
theorem mark_agrees_iff (hmirror : Mirrored s) :
    Agrees (transactionMachine.step s ⟨now, .markConsumed id⟩).2 ↔
      (Markable s id ↔ NamesKey s now id) := by
  rw [← (memory_mark s id).1, ← (redis_mark hmirror).1]
  simp only [Agrees, transactionMachine, MemoryTransactions.call, RedisTransactions.call,
    TransactionResult.bool.injEq]
  exact Bool.eq_iff_iff

theorem mark_mirrored (hmirror : Mirrored s) (hmark : ¬Markable s id) (hnames : ¬NamesKey s now id) :
    Agrees (transactionMachine.step s ⟨now, .markConsumed id⟩).2 ∧
      Mirrored (transactionMachine.step s ⟨now, .markConsumed id⟩).1 := by
  refine ⟨(mark_agrees_iff hmirror).mpr (iff_of_false hmark hnames), ?_⟩
  have hsame : (transactionMachine.step s ⟨now, .markConsumed id⟩).1 = s := by
    simp only [transactionMachine, MemoryTransactions.call, RedisTransactions.call,
      (memory_mark s id).2 hmark, (redis_mark hmirror).2 hnames]
  rw [hsame]
  exact hmirror

theorem step_mirrored (hmirror : Mirrored s) {history : List TransactionEvent}
    {i : TransactionInput} (hok : MarksNothing history s i) :
    Agrees (transactionMachine.step s i).2 ∧ Mirrored (transactionMachine.step s i).1 := by
  obtain ⟨now, call⟩ := i
  cases call with
  | save t => exact save_mirrored hmirror hok.1 hok.2.1 hok.2.2
  | get id => exact get_mirrored hmirror hok.1 hok.2
  | markConsumed id => exact mark_mirrored hmirror hok.1 hok.2
  | delete id => exact delete_mirrored hmirror hok

/-- The two repositories answer alike in every run whose calls mark nothing; and the next call of
`markTransactionConsumed` is answered alike exactly when both mark or neither does. -/
theorem transactions_agree {history : List TransactionEvent}
    (hrun : transactionMachine.Run MarksNothing {} history s) :
    (∀ e ∈ history, Agrees e) ∧
      ∀ now id, Agrees (transactionMachine.step s ⟨now, .markConsumed id⟩).2 ↔
        (Markable s id ↔ NamesKey s now id) := by
  have hinv : (∀ e ∈ history, Agrees e) ∧ Mirrored s := by
    refine hrun.invariant (fun history s => (∀ e ∈ history, Agrees e) ∧ Mirrored s) ?_ ?_
    · refine ⟨by simp, ?_, ?_⟩
      · intro id t hid
        cases hid
      · intro key e hkey
        cases hkey
    · intro history s i _ hinv hok
      obtain ⟨hagrees, hmirror⟩ := step_mirrored hinv.2 hok
      refine ⟨?_, hmirror⟩
      intro e he
      rcases List.mem_cons.mp he with rfl | he
      · exact hagrees
      · exact hinv.1 e he
  exact ⟨hinv.1, fun now id => mark_agrees_iff hinv.2⟩

/-! ### Runs -/

instance (s : TransactionStores) (id : String) : Decidable (Markable s id) :=
  inferInstanceAs (Decidable (∃ t ∈ s.memory.lookup id, t.consumed = false))

instance (s : TransactionStores) (now : Int) (id : String) : Decidable (NamesKey s now id) :=
  inferInstanceAs (Decidable (∃ e ∈ s.memory.entries,
    cStr id = transactionKey e.1 ∧ now < e.2.expiresAt ∧ e.2.consumed = false))

instance (s : TransactionStores) (id : String) : Decidable (NoOtherUnder s id) :=
  inferInstanceAs (Decidable (∀ e ∈ s.memory.entries,
    transactionKey e.1 = transactionKey id → e.1 = id))

instance : DecidablePred Agrees := fun e => inferInstanceAs (Decidable (e.memory = e.redis))

instance (history : List TransactionEvent) (s : TransactionStores) (i : TransactionInput) :
    Decidable (MarksNothing history s i) :=
  match i with
  | ⟨now, .save t⟩ =>
    inferInstanceAs (Decidable (now < t.expiresAt ∧ t.expiresAt - now < 2 ^ 31 ∧
      NoOtherUnder s t.transactionId))
  | ⟨now, .get id⟩ =>
    inferInstanceAs (Decidable ((∀ t ∈ s.memory.lookup id, now < t.expiresAt) ∧
      NoOtherUnder s id))
  | ⟨now, .markConsumed id⟩ => inferInstanceAs (Decidable (¬Markable s id ∧ ¬NamesKey s now id))
  | ⟨_, .delete id⟩ => inferInstanceAs (Decidable (NoOtherUnder s id))

def knownTransaction (id : String) (consumed : Bool) : AuthorizationTransaction :=
  { transactionId := id, clientId := "app", subject := "7", redirectUri := "https://app/cb",
    state := "xyz", codeChallenge := "", codeChallengeMethod := "",
    requestedScopes := ["openid", "email"], validScopes := ["openid"],
    consentRequiredScopes := [], consumed, expiresAt := 600 }

def executed (inputs : List TransactionInput) : List TransactionEvent × TransactionStores :=
  transactionMachine.exec [] {} inputs

/-- A transaction is read until it is deleted, and marking finds it consumed or gone. -/
def readAndDeleted : List TransactionInput :=
  [⟨0, .save (knownTransaction "t1" false)⟩, ⟨5, .get "t1"⟩, ⟨6, .get "t2"⟩,
   ⟨7, .save (knownTransaction "t2" true)⟩, ⟨8, .markConsumed "t2"⟩, ⟨9, .delete "t1"⟩,
   ⟨10, .markConsumed "t1"⟩, ⟨11, .get "t1"⟩, ⟨12, .get "t2"⟩]

theorem transactions_agree_readAndDeleted :
    (∀ e ∈ (executed readAndDeleted).1, Agrees e) ∧
      (executed readAndDeleted).1.head?.map TransactionEvent.redis =
        some (.transaction (some (knownTransaction "t2" true))) := by
  obtain ⟨hguarded, hlast⟩ : transactionMachine.Guarded MarksNothing [] {} readAndDeleted ∧
      (executed readAndDeleted).1.head?.map TransactionEvent.redis =
        some (.transaction (some (knownTransaction "t2" true))) := by
    decide +kernel
  exact ⟨(transactions_agree (.exec_of_guarded .init readAndDeleted hguarded)).1, hlast⟩

/-- Saved and marked. -/
def savedAndMarked : List TransactionInput :=
  [⟨0, .save (knownTransaction "t1" false)⟩, ⟨5, .markConsumed "t1"⟩]

theorem savedAndMarked_differs :
    transactionMachine.Run anyStep {} (executed savedAndMarked).1 (executed savedAndMarked).2 ∧
      (executed savedAndMarked).1.head?.map TransactionEvent.memory = some (.bool true) ∧
      (executed savedAndMarked).1.head?.map TransactionEvent.redis = some (.bool false) := by
  refine ⟨Machine.run_exec _ _ _, ?_⟩
  decide +kernel

end AuthForge.TransactionMirror
