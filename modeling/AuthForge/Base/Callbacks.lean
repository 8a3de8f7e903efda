import AuthForge.Base.Run
import Mathlib.Data.List.Perm.Basic

/-!
# Callbacks

An asynchronous command comes with a callback for success and one for failure, and its client may
invoke both. They share the callback of the caller, and pass it on, or a wrapper of it, to further
calls that are answered later. Passing it on by a move leaves an empty function object behind; a
flag that is exchanged before the callback is used lets only the first user through.

A client gets its transaction in a callback, issues statements whose results arrive in callbacks, and
learns in the commit callback how the commit ended. Each time the database is about to answer, the
environment decides whether it succeeds. A statement sees what its transaction has done so far, and
the first one that fails rolls the transaction back and fails those queued behind it. Only queued
statements hold the transaction, so it commits once none is queued.
-/

namespace AuthForge.SharedCallback

/-- What the answer of a further call invokes. -/
inductive Target
  /-- A wrapper that exchanges the flag and then invokes the shared callback. -/
  | wrapper
  /-- The function object that was moved out, `live` unless it had been moved out before. -/
  | object (live : Bool)
  deriving DecidableEq

structure Shared (α : Type) where
  fired : Bool := false
  moved : Bool := false
  /-- The further calls that are not answered yet. -/
  calls : List Target := []
  /-- What the caller was called back with. -/
  answers : List α := []
  emptyInvocations : Nat := 0

/-- What the success callback makes of a reply. -/
inductive Reading (α : Type)
  | threw
  | hit (a : α)
  | miss

def Reading.works {α : Type} : Reading α → Bool
  | .threw => false
  | _ => true

section Shared

variable {α : Type}

namespace Shared

def invoke (a : α) (s : Shared α) : Shared α :=
  if s.moved then { s with emptyInvocations := s.emptyInvocations + 1 }
  else { s with answers := s.answers ++ [a] }

/-- `if (!fired->exchange(true)) (*sharedCb)(a)`. -/
def fire (a : α) (s : Shared α) : Shared α :=
  if s.fired then s else invoke a { s with fired := true }

/-- A further call with a wrapper. -/
def wrap (s : Shared α) : Shared α := { s with calls := s.calls ++ [.wrapper] }

/-- A further call with the callback itself. -/
def handOver (s : Shared α) : Shared α :=
  { s with calls := s.calls ++ [.object (!s.moved)], moved := true }

def handOverOnce (s : Shared α) : Shared α :=
  if s.fired then s else handOver { s with fired := true }

def callBack (target : Target) (a : α) (s : Shared α) : Shared α :=
  match target with
  | .wrapper => fire a s
  | .object true => { s with answers := s.answers ++ [a] }
  | .object false => { s with emptyInvocations := s.emptyInvocations + 1 }

/-- The further call number `i` of those that are open is answered. -/
def answered (i : Nat) (a : α) (s : Shared α) : Shared α :=
  match s.calls[i]? with
  | none => s
  | some target => callBack target a { s with calls := s.calls.eraseIdx i }

end Shared

/-! ### The command -/

variable {ρ : Type}

structure Handlers (ρ α : Type) where
  onSuccess : ρ → Shared α → Shared α
  onFailure : Shared α → Shared α

/-- Every use of the callback exchanges the flag before; a miss goes on with a wrapper. -/
def guarded (reading : ρ → Reading α) : Handlers ρ α where
  onSuccess reply s :=
    match reading reply with
    | .threw => s
    | .hit a => s.fire a
    | .miss => s.wrap
  onFailure s := s.handOverOnce

/-- There is no flag; a miss and a failure both go on with the callback itself. -/
def unguarded (reading : ρ → Reading α) : Handlers ρ α where
  onSuccess reply s :=
    match reading reply with
    | .threw => s
    | .hit a => s.invoke a
    | .miss => s.handOver
  onFailure s := s.handOver

inductive Event (ρ α : Type)
  | success (reply : ρ)
  | failure
  | answered (i : Nat) (a : α)

def machine (h : Handlers ρ α) : Machine (Shared α) (Event ρ α) (Event ρ α) where
  step s e :=
    (match e with
      | .success reply => h.onSuccess reply s
      | .failure => h.onFailure s
      | .answered i a => s.answered i a, e)

/-- Each callback of the command is invoked once at most, and not at all if no command was sent;
only open calls are answered. -/
def Enabled (sent : Bool) : Guard (Shared α) (Event ρ α) (Event ρ α) := fun history s e =>
  match e with
  | .success _ => sent = true ∧ ∀ reply, .success reply ∉ history
  | .failure => sent = true ∧ .failure ∉ history
  | .answered i _ => i < s.calls.length

/-- The command has invoked a callback, and all further calls are answered. -/
structure Complete (sent : Bool) (history : List (Event ρ α)) (s : Shared α) : Prop where
  invoked : sent = true → (∃ reply, .success reply ∈ history) ∨ .failure ∈ history
  settled : s.calls = []

def AnsweredOnce (s : Shared α) : Prop := s.answers.length = 1 ∧ s.emptyInvocations = 0

/-- A callback of the command that does not throw. -/
def Event.works (reading : ρ → Reading α) : Event ρ α → Bool
  | .success reply => (reading reply).works
  | .failure => true
  | .answered _ _ => false

/-- How many callbacks of the command did not throw. -/
def working (reading : ρ → Reading α) (history : List (Event ρ α)) : Nat :=
  history.countP (Event.works reading)

variable {s : Shared α} {reading : ρ → Reading α} {sent : Bool} {history : List (Event ρ α)}

theorem working_success (reply : ρ) :
    working reading (.success reply :: history) =
      working reading history + (reading reply).works.toNat := by
  cases hworks : (reading reply).works with
  | true => exact List.countP_cons_of_pos hworks
  | false => exact List.countP_cons_of_neg (by rw [Event.works, hworks]; exact Bool.false_ne_true)

theorem working_failure : working reading (.failure :: history) = working reading history + 1 :=
  List.countP_cons_of_pos rfl

theorem working_answered (i : Nat) (a : α) :
    working reading (.answered i a :: history) = working reading history :=
  List.countP_cons_of_neg Bool.false_ne_true

/-! ### With the flag -/

/-- The flag stands for one answer, given or still due. -/
structure Once (s : Shared α) : Prop where
  nonempty : s.emptyInvocations = 0
  live : .object false ∉ s.calls
  moved : s.moved = true → s.fired = true
  due : s.answers.length + s.calls.count (.object true) = s.fired.toNat

@[simp] theorem fired_fire (a : α) (s : Shared α) : (s.fire a).fired = true := by
  unfold Shared.fire
  split
  · assumption
  · unfold Shared.invoke
    split <;> rfl

theorem Once.fire (h : Once s) (a : α) : Once (s.fire a) := by
  unfold Shared.fire
  split
  · exact h
  · rename_i hfired
    have hmoved : s.moved = false := by
      rw [← Bool.not_eq_true]
      exact fun hmoved => hfired (h.moved hmoved)
    have hdue := h.due
    rw [(Bool.not_eq_true _).mp hfired, Bool.toNat_false] at hdue
    simp only [Shared.invoke, hmoved, Bool.false_eq_true, if_false]
    refine ⟨h.nonempty, h.live, fun _ => rfl, ?_⟩
    simp only [List.length_append, List.length_singleton, Bool.toNat_true]
    omega

theorem Once.wrap (h : Once s) : Once s.wrap := by
  refine ⟨h.nonempty, ?_, h.moved, ?_⟩
  · simp [Shared.wrap, h.live]
  · simpa [Shared.wrap] using h.due

theorem Once.handOverOnce (h : Once s) : Once s.handOverOnce := by
  unfold Shared.handOverOnce
  split
  · exact h
  · rename_i hfired
    have hmoved : s.moved = false := by
      rw [← Bool.not_eq_true]
      exact fun hmoved => hfired (h.moved hmoved)
    have hdue := h.due
    rw [(Bool.not_eq_true _).mp hfired, Bool.toNat_false] at hdue
    refine ⟨h.nonempty, ?_, fun _ => rfl, ?_⟩
    · simp [Shared.handOver, h.live, hmoved]
    · simp only [Shared.handOver, hmoved, Bool.not_false, List.count_append,
        List.count_singleton_self, Bool.toNat_true]
      omega

theorem answered_of_lt {i : Nat} (hi : i < s.calls.length) (a : α) :
    ∃ target rest, s.calls.Perm (target :: rest) ∧
      s.answered i a = Shared.callBack target a { s with calls := rest } := by
  refine ⟨s.calls[i], s.calls.eraseIdx i, (List.getElem_cons_eraseIdx_perm hi).symm, ?_⟩
  simp [Shared.answered, List.getElem?_eq_getElem hi]

theorem Once.answered (h : Once s) {i : Nat} (hi : i < s.calls.length) (a : α) :
    Once (s.answered i a) := by
  obtain ⟨target, rest, hperm, hanswered⟩ := answered_of_lt hi a
  rw [hanswered]
  have hlive : .object false ∉ target :: rest := fun hmem => h.live (hperm.mem_iff.mpr hmem)
  have hdue := h.due
  rw [hperm.count_eq] at hdue
  rw [List.mem_cons, not_or] at hlive
  match target with
  | .wrapper =>
    have hrest : Once { s with calls := rest } :=
      ⟨h.nonempty, hlive.2, h.moved, by simpa using hdue⟩
    exact hrest.fire a
  | .object true =>
    refine ⟨h.nonempty, hlive.2, h.moved, ?_⟩
    rw [List.count_cons_self] at hdue
    simp only [Shared.callBack, List.length_append, List.length_singleton]
    omega
  | .object false => exact absurd rfl hlive.1

/-- Until a callback works nothing happens; from then on the flag is set or a wrapper sets it. -/
structure Guarded (works : Nat) (s : Shared α) : Prop extends Once s where
  idle : works = 0 → s.fired = false ∧ s.calls = []
  served : 0 < works → s.fired = true ∨ .wrapper ∈ s.calls

theorem Guarded.init : Guarded 0 ({} : Shared α) :=
  ⟨⟨rfl, List.not_mem_nil, nofun, rfl⟩, fun _ => ⟨rfl, rfl⟩, nofun⟩

theorem Guarded.fire {works : Nat} (h : Guarded works s) (a : α) :
    Guarded (works + 1) (s.fire a) :=
  ⟨h.toOnce.fire a, nofun, fun _ => .inl (fired_fire a s)⟩

theorem Guarded.wrap {works : Nat} (h : Guarded works s) : Guarded (works + 1) s.wrap :=
  ⟨h.toOnce.wrap, nofun, fun _ => .inr (by simp [Shared.wrap])⟩

theorem Guarded.handOverOnce {works : Nat} (h : Guarded works s) :
    Guarded (works + 1) s.handOverOnce := by
  refine ⟨h.toOnce.handOverOnce, nofun, fun _ => .inl ?_⟩
  unfold Shared.handOverOnce
  split
  · assumption
  · rfl

theorem Guarded.answered {works : Nat} (h : Guarded works s) {i : Nat} (hi : i < s.calls.length)
    (a : α) : Guarded works (s.answered i a) := by
  refine ⟨h.toOnce.answered hi a, ?_, ?_⟩
  · intro hworks
    rw [(h.idle hworks).2] at hi
    cases hi
  · intro hworks
    obtain ⟨target, rest, hperm, hanswered⟩ := answered_of_lt hi a
    rw [hanswered]
    rcases h.served hworks with hfired | hwrapper
    · match target with
      | .wrapper => exact .inl (fired_fire a _)
      | .object true => exact .inl hfired
      | .object false => exact .inl hfired
    · rw [hperm.mem_iff, List.mem_cons] at hwrapper
      rcases hwrapper with rfl | hwrapper
      · exact .inl (fired_fire a _)
      · match target with
        | .wrapper => exact .inl (fired_fire a _)
        | .object true => exact .inr hwrapper
        | .object false => exact .inr hwrapper

theorem guarded_run (hrun : (machine (guarded reading)).Run (Enabled sent) {} history s) :
    Guarded (working reading history) s := by
  refine hrun.invariant (fun history s => Guarded (working reading history) s) .init ?_
  intro history s e _ h henabled
  match e with
  | .success reply =>
    simp only [machine, guarded, working_success]
    cases reading reply with
    | threw => exact h
    | hit a => exact h.fire a
    | miss => exact h.wrap
  | .failure =>
    simp only [machine, guarded, working_failure]
    exact h.handOverOnce
  | .answered i a =>
    simp only [machine, working_answered]
    exact h.answered henabled a

/-- With the flag the callback is invoked once if any callback of the command works. -/
theorem guarded_answeredOnce_iff
    (hrun : (machine (guarded reading)).Run (Enabled sent) {} history s)
    (hcomplete : Complete sent history s) :
    AnsweredOnce s ↔ 0 < working reading history := by
  have h := guarded_run hrun
  have hdue := h.due
  rw [hcomplete.settled, List.count_nil] at hdue
  rcases Nat.eq_zero_or_pos (working reading history) with hzero | hpos
  · rw [(h.idle hzero).1, Bool.toNat_false] at hdue
    refine iff_of_false ?_ (Nat.not_lt.mpr (Nat.le_of_eq hzero))
    intro honce
    have hlength := honce.1
    omega
  · have hfired : s.fired = true := by
      rcases h.served hpos with hfired | hwrapper
      · exact hfired
      · rw [hcomplete.settled] at hwrapper
        cases hwrapper
    rw [hfired] at hdue
    exact iff_of_true ⟨hdue, h.nonempty⟩ hpos

/-! ### Without the flag -/

/-- Every callback that works uses the shared callback, and only the first use finds it there. -/
structure Unguarded (works : Nat) (s : Shared α) : Prop where
  unwrapped : .wrapper ∉ s.calls
  total : s.answers.length + s.emptyInvocations + s.calls.length = works
  first : works = 0 → s.moved = false
  alone : works ≤ 1 → s.emptyInvocations = 0 ∧ .object false ∉ s.calls

theorem Unguarded.init : Unguarded 0 ({} : Shared α) :=
  ⟨List.not_mem_nil, rfl, fun _ => rfl, fun _ => ⟨rfl, List.not_mem_nil⟩⟩

theorem Unguarded.invoke {works : Nat} (h : Unguarded works s) (a : α) :
    Unguarded (works + 1) (s.invoke a) := by
  have htotal := h.total
  unfold Shared.invoke
  split
  · rename_i hmoved
    have hused : works ≠ 0 := fun hzero => by simp [h.first hzero] at hmoved
    refine ⟨h.unwrapped, ?_, nofun, fun hle => by omega⟩
    change s.answers.length + (s.emptyInvocations + 1) + s.calls.length = works + 1
    omega
  · refine ⟨h.unwrapped, ?_, nofun, fun hle => h.alone (by omega)⟩
    simp only [List.length_append, List.length_singleton]
    omega

theorem Unguarded.handOver {works : Nat} (h : Unguarded works s) :
    Unguarded (works + 1) s.handOver := by
  have htotal := h.total
  refine ⟨?_, ?_, nofun, ?_⟩
  · simp [Shared.handOver, h.unwrapped]
  · simp only [Shared.handOver, List.length_append, List.length_singleton]
    omega
  · intro hle
    have hzero : works = 0 := by omega
    have halone := h.alone (by omega)
    refine ⟨halone.1, ?_⟩
    simp [Shared.handOver, halone.2, h.first hzero]

theorem Unguarded.answered {works : Nat} (h : Unguarded works s) {i : Nat}
    (hi : i < s.calls.length) (a : α) : Unguarded works (s.answered i a) := by
  obtain ⟨target, rest, hperm, hanswered⟩ := answered_of_lt hi a
  rw [hanswered]
  have htotal := h.total
  have hwrapper : .wrapper ∉ target :: rest := fun hmem => h.unwrapped (hperm.mem_iff.mpr hmem)
  have halone : works ≤ 1 → s.emptyInvocations = 0 ∧ .object false ∉ target :: rest :=
    fun hle => ⟨(h.alone hle).1, fun hmem => (h.alone hle).2 (hperm.mem_iff.mpr hmem)⟩
  rw [hperm.length_eq, List.length_cons] at htotal
  rw [List.mem_cons, not_or] at hwrapper
  match target with
  | .wrapper => exact absurd rfl hwrapper.1
  | .object true =>
    refine ⟨hwrapper.2, ?_, h.first, ?_⟩
    · simp only [Shared.callBack, List.length_append, List.length_singleton]
      omega
    · exact fun hle => ⟨(halone hle).1, fun hmem => (halone hle).2 (List.mem_cons_of_mem _ hmem)⟩
  | .object false =>
    refine ⟨hwrapper.2, ?_, h.first, ?_⟩
    · simp only [Shared.callBack]
      omega
    · exact fun hle => absurd List.mem_cons_self (halone hle).2

theorem unguarded_run (hrun : (machine (unguarded reading)).Run (Enabled sent) {} history s) :
    Unguarded (working reading history) s := by
  refine hrun.invariant (fun history s => Unguarded (working reading history) s) .init ?_
  intro history s e _ h henabled
  match e with
  | .success reply =>
    simp only [machine, unguarded, working_success]
    cases reading reply with
    | threw => exact h
    | hit a => exact h.invoke a
    | miss => exact h.handOver
  | .failure =>
    simp only [machine, unguarded, working_failure]
    exact h.handOver
  | .answered i a =>
    simp only [machine, working_answered]
    exact h.answered henabled a

/-- Without the flag exactly one callback of the command may work. -/
theorem unguarded_answeredOnce_iff
    (hrun : (machine (unguarded reading)).Run (Enabled sent) {} history s)
    (hcomplete : Complete sent history s) :
    AnsweredOnce s ↔ working reading history = 1 := by
  have h := unguarded_run hrun
  have htotal := h.total
  rw [hcomplete.settled, List.length_nil] at htotal
  constructor
  · intro honce
    have hlength := honce.1
    have hempty := honce.2
    omega
  · intro hone
    have hempty := (h.alone (Nat.le_of_eq hone)).1
    exact ⟨by omega, hempty⟩

/-! ### Without a command -/

/-- The caller's callback, or its wrapper, goes to one further call. -/
theorem unsent_answeredOnce {h : Handlers ρ α} {target : Target} {moved : Bool}
    (htarget : target = .object true ∨ target = .wrapper ∧ moved = false)
    (hrun : (machine h).Run (Enabled false) { calls := [target], moved } history s)
    (hcomplete : Complete false history s) : AnsweredOnce s := by
  have hinv : s = { calls := [target], moved } ∨ s.calls = [] ∧ AnsweredOnce s := by
    refine hrun.invariant
      (fun _ s => s = { calls := [target], moved } ∨ s.calls = [] ∧ AnsweredOnce s) (.inl rfl) ?_
    intro history s e _ hinv henabled
    match e with
    | .success reply => cases henabled.1
    | .failure => cases henabled.1
    | .answered i a =>
      have hi : i < s.calls.length := henabled
      rcases hinv with rfl | ⟨hcalls, -⟩
      · obtain rfl : i = 0 := Nat.lt_one_iff.mp hi
        refine .inr ?_
        rcases htarget with rfl | ⟨rfl, rfl⟩
        · exact ⟨rfl, rfl, rfl⟩
        · exact ⟨rfl, rfl, rfl⟩
      · rw [hcalls] at hi
        cases hi
  rcases hinv with rfl | ⟨-, honce⟩
  · cases hcomplete.settled
  · exact honce

end Shared

end AuthForge.SharedCallback

/-! ## Transactions driven by callbacks -/

namespace AuthForge

/-- What a callback does, one thing after the other. The callbacks share the variables `L` and may
report an `α` to whoever asked for the transaction. -/
inductive Script (L σ α : Type) : Type
  | done
  | act (f : L → L × Option α) (next : Script L σ α)
  | setCommitCallback (onCommit : Bool → Script L σ α) (next : Script L σ α)
  | execSqlAsync (statement : σ → Option σ) (onResult onError next : Script L σ α)

/-- A statement that was issued and not answered yet. -/
structure Queued (L σ α : Type) where
  statement : σ → Option σ
  onResult : Script L σ α
  onError : Script L σ α

inductive Phase (L σ α : Type) : Type
  /-- The callback learns whether there is a transaction. -/
  | acquiring (onTransaction : Bool → Script L σ α)
  | active (view : σ) (queue : List (Queued L σ α)) (onCommit : Bool → Script L σ α)
  /-- Nothing is executed any more. -/
  | over (queue : List (Queued L σ α))

structure TransactionSession (L σ α : Type) where
  shared : L
  answers : List α := []
  /-- What is committed. -/
  database : σ
  phase : Phase L σ α

variable {L σ α : Type}

namespace TransactionSession

def setCommitCallback (s : TransactionSession L σ α) (onCommit : Bool → Script L σ α) :
    TransactionSession L σ α :=
  match s.phase with
  | .active view queue _ => { s with phase := .active view queue onCommit }
  | .acquiring _ | .over _ => s

def enqueue (s : TransactionSession L σ α) (q : Queued L σ α) : TransactionSession L σ α :=
  match s.phase with
  | .active view queue onCommit => { s with phase := .active view (queue ++ [q]) onCommit }
  | .over queue => { s with phase := .over (queue ++ [q]) }
  | .acquiring _ => s

end TransactionSession

/-- A callback runs to its end before the next answer. -/
def Script.run : Script L σ α → TransactionSession L σ α → TransactionSession L σ α
  | .done, s => s
  | .act f next, s =>
    let r := f s.shared
    next.run { s with shared := r.1, answers := s.answers ++ r.2.toList }
  | .setCommitCallback onCommit next, s => next.run (s.setCommitCallback onCommit)
  | .execSqlAsync statement onResult onError next, s =>
    next.run (s.enqueue ⟨statement, onResult, onError⟩)

namespace TransactionSession

/-- The next answer of the database, where one is due. -/
def step (s : TransactionSession L σ α) (ok : Bool) : TransactionSession L σ α :=
  match s.phase with
  | .acquiring onTransaction =>
    (onTransaction ok).run
      { s with phase := if ok then .active s.database [] fun _ => .done else .over [] }
  | .active view [] onCommit =>
    (onCommit ok).run
      { s with database := if ok then view else s.database, phase := .over [] }
  | .active view (q :: queue) onCommit =>
    match if ok then q.statement view else none with
    | some view' => q.onResult.run { s with phase := .active view' queue onCommit }
    | none => q.onError.run { s with phase := .over queue }
  | .over [] => s
  | .over (q :: queue) => q.onError.run { s with phase := .over queue }

def run (s : TransactionSession L σ α) (outcomes : List Bool) : TransactionSession L σ α :=
  outcomes.foldl step s

/-- No answer is due any more. -/
def finished (s : TransactionSession L σ α) : Bool :=
  match s.phase with
  | .over [] => true
  | _ => false

theorem step_of_executed {shared : L} {answers : List α} {database view view' : σ}
    {q : Queued L σ α} {queue : List (Queued L σ α)} {onCommit : Bool → Script L σ α}
    (h : q.statement view = some view') :
    TransactionSession.step ⟨shared, answers, database, .active view (q :: queue) onCommit⟩ true =
      q.onResult.run ⟨shared, answers, database, .active view' queue onCommit⟩ := by
  simp [step, h]

theorem step_of_refused {shared : L} {answers : List α} {database view : σ} {q : Queued L σ α}
    {queue : List (Queued L σ α)} {onCommit : Bool → Script L σ α} {ok : Bool}
    (h : ok = false ∨ q.statement view = none) :
    TransactionSession.step ⟨shared, answers, database, .active view (q :: queue) onCommit⟩ ok =
      q.onError.run ⟨shared, answers, database, .over queue⟩ := by
  rcases h with rfl | h
  · rfl
  · simp [step, h]

/-- What the start has and every answer keeps holds after every pattern of outcomes, and so does a
bound on the answers still due. -/
theorem run_invariant {P : TransactionSession L σ α → Nat → Prop}
    {s : TransactionSession L σ α} {due : Nat}
    (hstep : ∀ s n ok, P s n → P (s.step ok) (n - 1)) (h : P s due) (outcomes : List Bool) :
    P (s.run outcomes) (due - outcomes.length) := by
  induction outcomes generalizing s due with
  | nil => exact h
  | cons ok outcomes ih =>
    have hnext := ih (hstep s due ok h)
    rw [Nat.sub_sub, Nat.add_comm 1] at hnext
    exact hnext

end TransactionSession

end AuthForge
