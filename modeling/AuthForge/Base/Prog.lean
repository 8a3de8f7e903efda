import AuthForge.Base.Run

/-!
# Programs over atomic operations and their interleavings

A program issues one atomic operation after another and continues with the answer, which is how
asynchronous code in callback style behaves between two callbacks. A service executes the
operations on a shared state; an environment value supplied with each step stands for everything
the operation reads from outside (the clock, random bytes, whether a query fails).

A pool holds any number of started requests. One step of the pool either starts a request or
executes the next operation of one of them, so the runs of the pool are exactly the interleavings
of the requests at the granularity of operations.
-/

namespace AuthForge

inductive Prog (Op : Type) (Resp : Op → Type) (α : Type) : Type
  | ret (a : α)
  | call (op : Op) (k : Resp op → Prog Op Resp α)

structure Answer (Op : Type) (Resp : Op → Type) where
  op : Op
  resp : Resp op

section Programs

variable {Op : Type} {Resp : Op → Type} {α σ ε : Type}

namespace Prog

/-- `Reached p answers q`: after the answers, oldest first, the program `p` has become `q`. -/
inductive Reached : Prog Op Resp α → List (Answer Op Resp) → Prog Op Resp α → Prop
  | refl (p : Prog Op Resp α) : Reached p [] p
  | call {op : Op} {k : Resp op → Prog Op Resp α} {answers : List (Answer Op Resp)}
      {q : Prog Op Resp α} (r : Resp op) (h : Reached (k r) answers q) :
      Reached (.call op k) (⟨op, r⟩ :: answers) q

theorem Reached.snoc {p : Prog Op Resp α} {answers : List (Answer Op Resp)} {op : Op}
    {k : Resp op → Prog Op Resp α} (h : Reached p answers (.call op k)) (r : Resp op) :
    Reached p (answers ++ [⟨op, r⟩]) (k r) := by
  generalize hq : Prog.call op k = q at h
  induction h with
  | refl => subst hq; exact .call r (.refl _)
  | call r' _ ih => exact .call r' (ih hq)

@[simp] theorem reached_ret_iff {a : α} {answers : List (Answer Op Resp)} {q : Prog Op Resp α} :
    Reached (.ret a) answers q ↔ answers = [] ∧ q = .ret a := by
  constructor
  · intro h
    cases h
    exact ⟨rfl, rfl⟩
  · intro h
    obtain ⟨rfl, rfl⟩ := h
    exact .refl _

/-- Inversion of one operation: nothing has happened yet, or the operation was answered. -/
theorem reached_call_iff {op : Op} {k : Resp op → Prog Op Resp α}
    {answers : List (Answer Op Resp)} {q : Prog Op Resp α} :
    Reached (.call op k) answers q ↔
      (answers = [] ∧ q = .call op k) ∨
      ∃ r rest, answers = ⟨op, r⟩ :: rest ∧ Reached (k r) rest q := by
  constructor
  · intro h
    cases h with
    | refl => exact .inl ⟨rfl, rfl⟩
    | call r h => exact .inr ⟨r, _, rfl, h⟩
  · intro h'
    obtain ⟨rfl, rfl⟩ | ⟨r, rest, rfl, h⟩ := h'
    · exact .refl _
    · exact .call r h

/-- A program that is about to issue another operation than its first has had the first one
answered. -/
theorem Reached.answered {op op' : Op} {k : Resp op → Prog Op Resp α}
    {k' : Resp op' → Prog Op Resp α} {answers : List (Answer Op Resp)}
    (h : Reached (.call op k) answers (.call op' k')) (hne : op ≠ op') :
    ∃ r rest, answers = ⟨op, r⟩ :: rest ∧ Reached (k r) rest (.call op' k') := by
  rcases reached_call_iff.mp h with ⟨-, h⟩ | h
  · cases h
    exact absurd rfl hne
  · exact h

/-- An answer the program got splits its course: before it the operation was next, after it the
program went on with the answer. -/
theorem Reached.of_mem {p q : Prog Op Resp α} {answers : List (Answer Op Resp)}
    {a : Answer Op Resp} (h : Reached p answers q) (ha : a ∈ answers) :
    ∃ before k after, Reached p before (.call a.op k) ∧ Reached (k a.resp) after q := by
  induction h with
  | refl => cases ha
  | @call op k answers q r h ih =>
    rcases List.mem_cons.mp ha with rfl | ha
    · exact ⟨[], k, answers, .refl _, h⟩
    · obtain ⟨before, k', after, hbefore, hafter⟩ := ih ha
      exact ⟨_, k', after, .call r hbefore, hafter⟩

theorem not_reached_ret_call {a : α} {op : Op} {k : Resp op → Prog Op Resp α}
    {answers : List (Answer Op Resp)} : ¬Reached (.ret a) answers (.call op k) := by
  rw [reached_ret_iff]
  intro h'
  obtain ⟨-, h⟩ := h'
  cases h

/-- Every operation the program can ever issue has the property. -/
def Only (P : Op → Prop) : Prog Op Resp α → Prop
  | .ret _ => True
  | .call op k => P op ∧ ∀ r, Only P (k r)

theorem Only.imp {P Q : Op → Prop} {p : Prog Op Resp α} (honly : p.Only P)
    (himp : ∀ op, P op → Q op) : p.Only Q := by
  induction p with
  | ret _ => trivial
  | call op k ih => exact ⟨himp op honly.1, fun r => ih r (honly.2 r)⟩

theorem only_of_forall {P : Op → Prop} (h : ∀ op, P op) (p : Prog Op Resp α) : p.Only P := by
  induction p with
  | ret _ => trivial
  | call op k ih => exact ⟨h op, ih⟩

theorem Only.of_reached {P : Op → Prop} {p q : Prog Op Resp α} {answers : List (Answer Op Resp)}
    (h : Reached p answers q) (honly : p.Only P) : q.Only P ∧ ∀ a ∈ answers, P a.op := by
  induction h with
  | refl => exact ⟨honly, by simp⟩
  | call r _ ih =>
    obtain ⟨hq, hall⟩ := ih (honly.2 r)
    refine ⟨hq, ?_⟩
    intro a ha
    rcases List.mem_cons.mp ha with rfl | ha
    · exact honly.1
    · exact hall a ha

/-- Everything the program can become has the property. -/
def Every (Q : Prog Op Resp α → Prop) : Prog Op Resp α → Prop
  | .ret a => Q (.ret a)
  | .call op k => Q (.call op k) ∧ ∀ r, Every Q (k r)

theorem Every.of_reached {Q : Prog Op Resp α → Prop} {p q : Prog Op Resp α}
    {answers : List (Answer Op Resp)} (h : Reached p answers q) (hevery : p.Every Q) : Q q := by
  induction h with
  | refl p =>
    cases p with
    | ret a => exact hevery
    | call op k => exact hevery.1
  | call r _ ih => exact ih (hevery.2 r)

theorem Only.every {P : Op → Prop} {Q : Prog Op Resp α → Prop} {p : Prog Op Resp α}
    (honly : p.Only P) (himp : ∀ q : Prog Op Resp α, q.Only P → Q q) : p.Every Q := by
  induction p with
  | ret a => exact himp _ trivial
  | call op k ih => exact ⟨himp _ honly, fun r => ih r (honly.2 r)⟩

/-- The next operation of the program, if there is one, has the property. -/
def Next (P : Op → Prop) : Prog Op Resp α → Prop
  | .ret _ => True
  | .call op _ => P op

theorem only_iff_every {P : Op → Prop} {p : Prog Op Resp α} : p.Only P ↔ p.Every (Next P) := by
  induction p with
  | ret a => exact Iff.rfl
  | call op k ih => exact and_congr Iff.rfl (forall_congr' ih)

/-- Every operation the program can ever issue has the property together with the answers before
it, `answers` being those the program has got so far. -/
def Traced (P : List (Answer Op Resp) → Op → Prop) : List (Answer Op Resp) → Prog Op Resp α → Prop
  | _, .ret _ => True
  | answers, .call op k => P answers op ∧ ∀ r, Traced P (answers ++ [⟨op, r⟩]) (k r)

theorem Traced.call {P : List (Answer Op Resp) → Op → Prop} {op : Op}
    {k : Resp op → Prog Op Resp α} {answers : List (Answer Op Resp)} (hop : P answers op)
    (hk : ∀ r, (k r).Traced P (answers ++ [⟨op, r⟩])) : (Prog.call op k).Traced P answers :=
  ⟨hop, hk⟩

theorem Traced.of_reached {P : List (Answer Op Resp) → Op → Prop} {p : Prog Op Resp α}
    {before answers : List (Answer Op Resp)} {op : Op} {k : Resp op → Prog Op Resp α}
    (h : Reached p answers (.call op k)) (htraced : p.Traced P before) :
    P (before ++ answers) op := by
  generalize hq : Prog.call op k = q at h
  induction h generalizing before with
  | refl =>
    subst hq
    rw [List.append_nil]
    exact htraced.1
  | call r _ ih =>
    have := ih (htraced.2 r) hq
    rwa [List.append_assoc] at this

theorem Traced.of_only {P : Op → Prop} {Q : List (Answer Op Resp) → Op → Prop}
    {answers : List (Answer Op Resp)} (himp : ∀ later op, P op → Q (answers ++ later) op)
    {p : Prog Op Resp α} (honly : p.Only P) : p.Traced Q answers := by
  induction p generalizing answers with
  | ret a => trivial
  | call op k ih =>
    have hop := himp [] op honly.1
    rw [List.append_nil] at hop
    refine ⟨hop, ?_⟩
    intro r
    refine ih r ?_ (honly.2 r)
    intro later op' hop'
    rw [List.append_assoc]
    exact himp _ op' hop'

/-- As `Traced`, and every result has a property together with all the answers before it. -/
def Course (P : List (Answer Op Resp) → Op → Prop) (Q : List (Answer Op Resp) → α → Prop) :
    List (Answer Op Resp) → Prog Op Resp α → Prop
  | answers, .ret a => Q answers a
  | answers, .call op k => P answers op ∧ ∀ r, Course P Q (answers ++ [⟨op, r⟩]) (k r)

theorem course_of_forall {P : List (Answer Op Resp) → Op → Prop}
    {Q : List (Answer Op Resp) → α → Prop} (hop : ∀ answers op, P answers op)
    (hret : ∀ answers a, Q answers a) (p : Prog Op Resp α) {answers : List (Answer Op Resp)} :
    p.Course P Q answers := by
  induction p generalizing answers with
  | ret a => exact hret answers a
  | call op k ih => exact ⟨hop answers op, fun r => ih r⟩

theorem Course.of_reached {P : List (Answer Op Resp) → Op → Prop}
    {Q : List (Answer Op Resp) → α → Prop} {p q : Prog Op Resp α}
    {before answers : List (Answer Op Resp)} (h : Reached p answers q)
    (hcourse : p.Course P Q before) : q.Course P Q (before ++ answers) := by
  induction h generalizing before with
  | refl =>
    rw [List.append_nil]
    exact hcourse
  | call r _ ih =>
    have := ih (hcourse.2 r)
    rwa [List.append_assoc] at this

/-- Every course of the program takes at most `n` operations. -/
def Within : Nat → Prog Op Resp α → Prop
  | _, .ret _ => True
  | 0, .call _ _ => False
  | n + 1, .call _ k => ∀ r, Within n (k r)

theorem Within.mono {m n : Nat} {p : Prog Op Resp α} (h : p.Within m) (hle : m ≤ n) :
    p.Within n := by
  induction p generalizing m n with
  | ret a => cases n <;> trivial
  | call op k ih =>
    cases m with
    | zero => exact h.elim
    | succ m =>
      cases n with
      | zero => omega
      | succ n => exact fun r => ih r (h r) (by omega)

theorem Within.length_le {n : Nat} {p q : Prog Op Resp α} {answers : List (Answer Op Resp)}
    (h : p.Within n) (hreached : Reached p answers q) : answers.length ≤ n := by
  induction hreached generalizing n with
  | refl => exact Nat.zero_le n
  | call r _ ih =>
    cases n with
    | zero => exact h.elim
    | succ n => exact Nat.succ_le_succ (ih (h r))

/-- The same program over a larger set of operations. -/
def embed {Op' : Type} {Resp' : Op' → Type} (f : Op → Op') (answer : ∀ op, Resp' (f op) → Resp op) :
    Prog Op Resp α → Prog Op' Resp' α
  | .ret a => .ret a
  | .call op k => .call (f op) fun r => embed f answer (k (answer op r))

theorem only_embed {Op' : Type} {Resp' : Op' → Type} {f : Op → Op'}
    {answer : ∀ op, Resp' (f op) → Resp op} {P : Op' → Prop} {p : Prog Op Resp α}
    (h : p.Only fun op => P (f op)) : (p.embed f answer).Only P := by
  induction p with
  | ret a => trivial
  | call op k ih => exact ⟨h.1, fun r => ih _ (h.2 _)⟩

/-- Run one program and go on with its result. -/
def bind {β : Type} : Prog Op Resp α → (α → Prog Op Resp β) → Prog Op Resp β
  | .ret a, next => next a
  | .call op k, next => .call op fun r => bind (k r) next

theorem only_bind {β : Type} {P : Op → Prop} {p : Prog Op Resp α} {next : α → Prog Op Resp β}
    (h : p.Only P) (hnext : ∀ a, (next a).Only P) : (p.bind next).Only P := by
  induction p with
  | ret a => exact hnext a
  | call op k ih => exact ⟨h.1, fun r => ih r (h.2 r)⟩

/-- Execute a program alone: operation number `n` and later meet the environments `env n`,
`env (n + 1)` and so on. The result comes with the final state and the operations issued, oldest
first. -/
def eval (exec : ε → (op : Op) → σ → Resp op × σ) (env : Nat → ε) :
    Nat → Prog Op Resp α → σ → α × σ × List Op
  | _, .ret a, s => (a, s, [])
  | n, .call op k, s =>
    let r := exec (env n) op s
    let rest := eval exec env (n + 1) (k r.1) r.2
    (rest.1, rest.2.1, op :: rest.2.2)

theorem eval_invariant {exec : ε → (op : Op) → σ → Resp op × σ} {env : Nat → ε} {P : σ → Prop}
    (hstep : ∀ e op s, P s → P (exec e op s).2) (p : Prog Op Resp α) {n : Nat} {s : σ} (h : P s) :
    P (eval exec env n p s).2.1 := by
  induction p generalizing n s with
  | ret a => exact h
  | call op k ih => exact ih _ (hstep _ op s h)

theorem eval_invariant_of_only {exec : ε → (op : Op) → σ → Resp op × σ} {env : Nat → ε}
    {P : σ → Prop} {Q : Op → Prop} (hstep : ∀ e op s, Q op → P s → P (exec e op s).2)
    {p : Prog Op Resp α} (honly : p.Only Q) {n : Nat} {s : σ} (h : P s) :
    P (eval exec env n p s).2.1 := by
  induction p generalizing n s with
  | ret a => exact h
  | call op k ih => exact ih _ (honly.2 _) (hstep _ op s honly.1 h)

/-- Every operation that the execution from the given state issues has the property. -/
def Issues (exec : ε → (op : Op) → σ → Resp op × σ) (env : Nat → ε) (P : Op → Prop) :
    Nat → Prog Op Resp α → σ → Prop
  | _, .ret _, _ => True
  | n, .call op k, s =>
    P op ∧ Issues exec env P (n + 1) (k (exec (env n) op s).1) (exec (env n) op s).2

theorem Only.issues {exec : ε → (op : Op) → σ → Resp op × σ} {env : Nat → ε} {P : Op → Prop}
    {p : Prog Op Resp α} (honly : p.Only P) {n : Nat} {s : σ} : Issues exec env P n p s := by
  induction p generalizing n s with
  | ret _ => trivial
  | call op k ih => exact ⟨honly.1, ih _ (honly.2 _)⟩

theorem Issues.calls {exec : ε → (op : Op) → σ → Resp op × σ} {env : Nat → ε} {P : Op → Prop}
    {p : Prog Op Resp α} {n : Nat} {s : σ} (h : Issues exec env P n p s) :
    ∀ op ∈ (eval exec env n p s).2.2, P op := by
  induction p generalizing n s with
  | ret a =>
    intro op hop
    cases hop
  | call op k ih =>
    intro op' hop'
    rcases List.mem_cons.mp hop' with rfl | hrest
    · exact h.1
    · exact ih _ h.2 op' hrest

/-- In every environment the program, started in the given state, ends with a result and a state
that have the property. -/
def Post (exec : ε → (op : Op) → σ → Resp op × σ) (Q : α → σ → Prop) : Prog Op Resp α → σ → Prop
  | .ret a, s => Q a s
  | .call op k, s => ∀ e, Post exec Q (k (exec e op s).1) (exec e op s).2

theorem Post.eval {exec : ε → (op : Op) → σ → Resp op × σ} {Q : α → σ → Prop}
    {p : Prog Op Resp α} {s : σ} (h : p.Post exec Q s) (env : Nat → ε) (n : Nat) :
    Q (eval exec env n p s).1 (eval exec env n p s).2.1 := by
  induction p generalizing n s with
  | ret a => exact h
  | call op k ih => exact ih _ (h (env n)) (n + 1)

/-- As `Post`, in environments that all meet a condition. -/
def PostOn (exec : ε → (op : Op) → σ → Resp op × σ) (E : ε → Prop) (Q : α → σ → Prop) :
    Prog Op Resp α → σ → Prop
  | .ret a, s => Q a s
  | .call op k, s => ∀ e, E e → PostOn exec E Q (k (exec e op s).1) (exec e op s).2

theorem PostOn.eval {exec : ε → (op : Op) → σ → Resp op × σ} {E : ε → Prop} {Q : α → σ → Prop}
    {p : Prog Op Resp α} {s : σ} (h : p.PostOn exec E Q s) {env : Nat → ε} (henv : ∀ n, E (env n))
    (n : Nat) : Q (eval exec env n p s).1 (eval exec env n p s).2.1 := by
  induction p generalizing n s with
  | ret a => exact h
  | call op k ih => exact ih _ (h (env n) (henv n)) (n + 1)

end Prog

end Programs

/-- Requests, their programs, and how the shared state executes an operation. -/
structure Service (σ ε Op : Type) (Resp : Op → Type) (Req α : Type) where
  exec : ε → (op : Op) → σ → Resp op × σ
  program : Req → Prog Op Resp α

namespace Service

variable {σ ε Op Req α : Type} {Resp : Op → Type}

/-- A started request: the answers so far, oldest first, and the program that is left. -/
structure Thread (S : Service σ ε Op Resp Req α) where
  request : Req
  answers : List (Answer Op Resp)
  rest : Prog Op Resp α
  reached : Prog.Reached (S.program request) answers rest

structure Pool (S : Service σ ε Op Resp Req α) where
  shared : σ
  threads : List (Thread S)

inductive Input (ε Req : Type)
  | start (request : Req)
  | advance (tid : Nat) (env : ε)

inductive Event (ε Op : Type) (Resp : Op → Type) (Req : Type)
  | started (tid : Nat) (request : Req)
  | called (tid : Nat) (request : Req) (env : ε) (answer : Answer Op Resp)
  | idle

variable {S : Service σ ε Op Resp Req α}

def Thread.fresh (S : Service σ ε Op Resp Req α) (request : Req) : Thread S :=
  ⟨request, [], S.program request, .refl _⟩

def Thread.advance (t : Thread S) {op : Op} {k : Resp op → Prog Op Resp α}
    (h : t.rest = .call op k) (r : Resp op) : Thread S :=
  ⟨t.request, t.answers ++ [⟨op, r⟩], k r, (h ▸ t.reached).snoc r⟩

def step (S : Service σ ε Op Resp Req α) (p : Pool S) :
    Input ε Req → Pool S × Event ε Op Resp Req
  | .start request =>
    ({ p with threads := p.threads ++ [.fresh S request] }, .started p.threads.length request)
  | .advance tid env =>
    match p.threads[tid]? with
    | none => (p, .idle)
    | some t =>
      match h : t.rest with
      | .ret _ => (p, .idle)
      | .call op _ =>
        let r := S.exec env op p.shared
        (⟨r.2, p.threads.set tid (t.advance h r.1)⟩, .called tid t.request env ⟨op, r.1⟩)

def Thread.finished (t : Thread S) : Bool :=
  match t.rest with
  | .ret _ => true
  | .call _ _ => false

theorem Thread.exists_ret {t : Thread S} (h : t.finished = true) : ∃ a, t.rest = .ret a := by
  unfold finished at h
  split at h
  · rename_i a hrest
    exact ⟨a, hrest⟩
  · cases h

def Thread.result (t : Thread S) : Option α :=
  match t.rest with
  | .ret a => some a
  | .call _ _ => none

theorem Thread.rest_of_result {t : Thread S} {a : α} (h : t.result = some a) :
    t.rest = .ret a := by
  unfold result at h
  split at h
  · rename_i hrest
    rw [hrest, Option.some.inj h]
  · cases h

theorem Pool.thread_of_result {p : Pool S} {tid : Nat} {a : α}
    (h : p.threads[tid]?.bind Thread.result = some a) :
    ∃ t, p.threads[tid]? = some t ∧ t.rest = .ret a := by
  obtain ⟨t, ht, hresult⟩ := Option.bind_eq_some_iff.mp h
  exact ⟨t, ht, Thread.rest_of_result hresult⟩

theorem Thread.finished_of_ret {t : Thread S} {a : α} (hrest : t.rest = .ret a) :
    t.finished = true := by
  rw [finished, hrest]

theorem Thread.finished_of_call {t : Thread S} {op : Op} {k : Resp op → Prog Op Resp α}
    (hrest : t.rest = .call op k) : t.finished = false := by
  rw [finished, hrest]

/-- The operation that request `tid` executes when it is advanced. -/
def Pool.next (p : Pool S) (tid : Nat) : Option Op :=
  match p.threads[tid]? with
  | none => none
  | some t =>
    match t.rest with
    | .ret _ => none
    | .call op _ => some op

theorem Pool.next_eq {p : Pool S} {tid : Nat} {t : Thread S} {op : Op}
    {k : Resp op → Prog Op Resp α} (ht : p.threads[tid]? = some t) (hrest : t.rest = .call op k) :
    p.next tid = some op := by
  simp only [Pool.next, ht, hrest]

/-- The pool after the next operation of request `tid`. -/
abbrev Pool.advanced (p : Pool S) (tid : Nat) (env : ε) {t : Thread S} {op : Op}
    {k : Resp op → Prog Op Resp α} (hrest : t.rest = .call op k) : Pool S :=
  ⟨(S.exec env op p.shared).2, p.threads.set tid (t.advance hrest (S.exec env op p.shared).1)⟩

def machine (S : Service σ ε Op Resp Req α) :
    Machine (Pool S) (Input ε Req) (Event ε Op Resp Req) := ⟨S.step⟩

def start (S : Service σ ε Op Resp Req α) (s : σ) : Pool S := ⟨s, []⟩

/-- Everything one step of the pool can do. -/
theorem step_cases (p : Pool S) (i : Input ε Req) :
    (∃ request, i = .start request ∧
      S.step p i = ({ p with threads := p.threads ++ [.fresh S request] },
        .started p.threads.length request)) ∨
    (∃ tid env t op k, ∃ h : Thread.rest t = .call op k,
      i = .advance tid env ∧ p.threads[tid]? = some t ∧
      S.step p i = (⟨(S.exec env op p.shared).2,
          p.threads.set tid (t.advance h (S.exec env op p.shared).1)⟩,
        .called tid t.request env ⟨op, (S.exec env op p.shared).1⟩)) ∨
    S.step p i = (p, .idle) := by
  cases i with
  | start request => exact .inl ⟨request, rfl, rfl⟩
  | advance tid env =>
    right
    simp only [step]
    split
    · exact .inr rfl
    · rename_i t ht
      split
      · exact .inr rfl
      · rename_i op k hrest
        exact .inl ⟨tid, env, t, op, k, hrest, rfl, ht, rfl⟩

/-! ### The requests of a run -/

def Input.request : Input ε Req → Option Req
  | .start request => some request
  | .advance _ _ => none

theorem requests_step (p : Pool S) (i : Input ε Req) :
    (S.step p i).1.threads.map Thread.request =
      p.threads.map Thread.request ++ i.request.toList := by
  cases i with
  | start request => exact List.map_append
  | advance tid env =>
    change _ = p.threads.map Thread.request ++ []
    rw [List.append_nil]
    rcases step_cases p (.advance tid env) with
      ⟨request, h, -⟩ | ⟨tid', env', t, op, k, hrest, -, ht, hs⟩ | hs
    · cases h
    · obtain ⟨hlt, rfl⟩ := List.getElem?_eq_some_iff.mp ht
      rw [hs]
      change (p.threads.set tid' _).map Thread.request = _
      rw [List.map_set]
      change (p.threads.map Thread.request).set tid' (p.threads[tid']).request = _
      rw [← List.getElem_map Thread.request (h := by simpa using hlt), List.set_getElem_self]
    · rw [hs]

/-- The requests of a run are those that its inputs start, in their order. -/
theorem requests_exec (history : List (Event ε Op Resp Req)) (p : Pool S)
    (inputs : List (Input ε Req)) :
    (S.machine.exec history p inputs).2.threads.map Thread.request =
      p.threads.map Thread.request ++ inputs.filterMap Input.request := by
  induction inputs generalizing history p with
  | nil => exact (List.append_nil _).symm
  | cons i inputs ih =>
    have hstep : (S.machine.step p i).1.threads.map Thread.request =
        p.threads.map Thread.request ++ i.request.toList := requests_step p i
    rw [Machine.exec, ih, hstep, List.append_assoc]
    cases i <;> rfl

/-- The request of a thread is looked up among the started ones. -/
theorem request_of_exec {history : List (Event ε Op Resp Req)} {s : σ}
    {inputs : List (Input ε Req)} {tid : Nat} {t : Thread S}
    (ht : (S.machine.exec history (S.start s) inputs).2.threads[tid]? = some t) :
    (inputs.filterMap Input.request)[tid]? = some t.request := by
  have hrequests : (S.machine.exec history (S.start s) inputs).2.threads.map Thread.request =
      inputs.filterMap Input.request := requests_exec history (S.start s) inputs
  rw [← hrequests, List.getElem?_map, ht, Option.map_some]

/-! ### The answers of one request along a history -/

def Event.answerTo (tid : Nat) : Event ε Op Resp Req → Option (Answer Op Resp)
  | .called i _ _ a => if i = tid then some a else none
  | _ => none

def answersOf (tid : Nat) (history : List (Event ε Op Resp Req)) : List (Answer Op Resp) :=
  (history.filterMap (Event.answerTo tid)).reverse

theorem mem_answersOf {tid : Nat} {history : List (Event ε Op Resp Req)} {a : Answer Op Resp} :
    a ∈ answersOf tid history ↔ ∃ req env, .called tid req env a ∈ history := by
  simp only [answersOf, List.mem_reverse, List.mem_filterMap]
  constructor
  · intro h
    obtain ⟨e, he, ha⟩ := h
    cases e with
    | called i req env b =>
      simp only [Event.answerTo] at ha
      split at ha
      · subst i
        obtain rfl := Option.some.inj ha
        exact ⟨req, env, he⟩
      · cases ha
    | started => cases ha
    | idle => cases ha
  · intro h
    obtain ⟨req, env, he⟩ := h
    exact ⟨_, he, by simp [Event.answerTo]⟩

/-- The pool's threads are described by the history: request `tid` has got exactly the answers
the history shows, every event of `tid` carries its request, and no other request exists. -/
structure Described (history : List (Event ε Op Resp Req)) (p : Pool S) : Prop where
  answers : ∀ {tid t}, p.threads[tid]? = some t → t.answers = answersOf tid history
  request : ∀ {tid t req env a}, p.threads[tid]? = some t →
    Event.called tid req env a ∈ history → req = t.request
  exists_thread : ∀ {tid req env a}, Event.called tid req env a ∈ history →
    tid < p.threads.length

variable {ok : Guard (Pool S) (Input ε Req) (Event ε Op Resp Req)} {s₀ : σ} {p : Pool S}
  {history : List (Event ε Op Resp Req)}

theorem answersOf_cons_called {tid : Nat} {req : Req} {env : ε} {a : Answer Op Resp} :
    answersOf tid (.called tid req env a :: history) = answersOf tid history ++ [a] := by
  simp [answersOf, Event.answerTo]

theorem answersOf_cons_of_ne {tid i : Nat} {req : Req} {env : ε} {a : Answer Op Resp}
    (h : i ≠ tid) : answersOf tid (.called i req env a :: history) = answersOf tid history := by
  simp [answersOf, Event.answerTo, h]

theorem getElem?_set_cases {β : Type} {xs : List β} {x y : β} {i j : Nat}
    (h : (xs.set i x)[j]? = some y) : (j = i ∧ y = x) ∨ (j ≠ i ∧ xs[j]? = some y) := by
  by_cases hj : j = i
  · subst hj
    rw [List.getElem?_set] at h
    split at h
    · split at h
      · exact .inl ⟨rfl, (Option.some.inj h).symm⟩
      · cases h
    · rename_i hne
      exact absurd rfl hne
  · rw [List.getElem?_set_ne (Ne.symm hj)] at h
    exact .inr ⟨hj, h⟩

theorem getElem?_snoc {β : Type} {xs : List β} {x y : β} {i : Nat}
    (h : (xs ++ [x])[i]? = some y) : xs[i]? = some y ∨ (i = xs.length ∧ y = x) := by
  rw [List.getElem?_append] at h
  split at h
  · exact .inl h
  · rename_i hle
    obtain ⟨hlt, rfl⟩ := List.getElem?_eq_some_iff.mp h
    simp only [List.length_singleton] at hlt
    exact .inr ⟨by omega, by simp⟩

theorem Described.started (h : Described history p) (request : Req) :
    Described (.started p.threads.length request :: history)
      ({ p with threads := p.threads ++ [.fresh S request] } : Pool S) where
  answers := by
    intro tid t ht
    change t.answers = answersOf tid history
    rcases getElem?_snoc ht with ht | ⟨rfl, rfl⟩
    · exact h.answers ht
    · have hnil : answersOf p.threads.length history = [] := by
        rw [List.eq_nil_iff_forall_not_mem]
        intro a ha
        obtain ⟨req, env, he⟩ := mem_answersOf.mp ha
        exact absurd (h.exists_thread he) (by omega)
      rw [hnil]
      rfl
  request := by
    intro tid t req env a ht he
    have he : Event.called tid req env a ∈ history := by simpa using he
    rcases getElem?_snoc ht with ht | ⟨rfl, -⟩
    · exact h.request ht he
    · exact absurd (h.exists_thread he) (by omega)
  exists_thread := by
    intro tid req env a he
    have he : Event.called tid req env a ∈ history := by simpa using he
    have := h.exists_thread he
    simp only [List.length_append]
    omega

theorem Described.called (h : Described history p) {tid : Nat} {t : Thread S} {op : Op}
    {k : Resp op → Prog Op Resp α} (ht : p.threads[tid]? = some t) (hrest : t.rest = .call op k)
    (env : ε) (r : Resp op) (s : σ) :
    Described (.called tid t.request env ⟨op, r⟩ :: history)
      (⟨s, p.threads.set tid (t.advance hrest r)⟩ : Pool S) := by
  obtain ⟨hlt, -⟩ := List.getElem?_eq_some_iff.mp ht
  refine ⟨?_, ?_, ?_⟩
  · intro i u hu
    by_cases hi : i = tid
    · subst hi
      rw [List.getElem?_set_self hlt] at hu
      obtain rfl := Option.some.inj hu
      rw [answersOf_cons_called, ← h.answers ht]
      rfl
    · rw [List.getElem?_set_ne (Ne.symm hi)] at hu
      rw [answersOf_cons_of_ne (Ne.symm hi)]
      exact h.answers hu
  · intro i u req env' a hu hmem
    rcases List.mem_cons.mp hmem with he | he
    · cases he
      rw [List.getElem?_set_self hlt] at hu
      obtain rfl := Option.some.inj hu
      rfl
    · by_cases hi : i = tid
      · subst hi
        rw [List.getElem?_set_self hlt] at hu
        obtain rfl := Option.some.inj hu
        exact (h.request ht he).trans rfl
      · rw [List.getElem?_set_ne (Ne.symm hi)] at hu
        exact h.request hu he
  · intro i req env' a he
    simp only [List.length_set]
    rcases List.mem_cons.mp he with he | he
    · cases he
      exact hlt
    · exact h.exists_thread he

theorem Described.idle (h : Described history p) : Described (.idle :: history) p where
  answers ht := h.answers ht
  request ht he := h.request ht (by simpa using he)
  exists_thread he := h.exists_thread (by simpa using he)

theorem described_of_run (hrun : S.machine.Run ok (S.start s₀) history p) :
    Described history p := by
  induction hrun with
  | init =>
    refine ⟨?_, ?_, ?_⟩
    · intro tid t ht
      simp [start] at ht
    · intro tid t req env a _ he
      cases he
    · intro tid req env a he
      cases he
  | @next h p i hrun hok ih =>
    change Described ((S.step p i).2 :: h) (S.step p i).1
    rcases step_cases p i with ⟨request, -, hs⟩ | ⟨tid, env, t, op, k, hrest, -, ht, hs⟩ | hs
    · rw [hs]
      exact ih.started request
    · rw [hs]
      exact ih.called ht hrest env _ _
    · rw [hs]
      exact ih.idle

theorem request_unique (hrun : S.machine.Run ok (S.start s₀) history p) {tid : Nat}
    {req req' : Req} {env env' : ε} {a a' : Answer Op Resp}
    (h : Event.called tid req env a ∈ history) (h' : Event.called tid req' env' a' ∈ history) :
    req = req' := by
  have hdesc := described_of_run hrun
  have ht := List.getElem?_eq_getElem (hdesc.exists_thread h)
  rw [hdesc.request ht h, hdesc.request ht h']

/-- The operation of a called event is the next one of its request's program, after exactly the
answers the request got before. -/
theorem reached_of_called {tid : Nat} {req : Req} {env : ε} {a : Answer Op Resp}
    (hrun : S.machine.Run ok (S.start s₀) (.called tid req env a :: history) p) :
    ∃ k : Resp a.op → Prog Op Resp α,
      Prog.Reached (S.program req) (answersOf tid history) (.call a.op k) := by
  obtain ⟨q, i, hq, -, hs⟩ := hrun.last
  have hdesc := described_of_run hq
  change S.step q i = _ at hs
  rcases step_cases q i with ⟨request, -, h⟩ | ⟨j, env', t, op, k, hrest, -, ht, h⟩ | h
  · rw [h] at hs
    cases hs
  · rw [h] at hs
    cases hs
    refine ⟨k, ?_⟩
    rw [← hdesc.answers ht, ← hrest]
    exact t.reached
  · rw [h] at hs
    cases hs

/-- The answer of the last event was given by the shared state before it, in a step that met the
guard. -/
theorem answered_of_called {tid : Nat} {req : Req} {env : ε} {a : Answer Op Resp}
    (hrun : S.machine.Run ok (S.start s₀) (.called tid req env a :: history) p) :
    ∃ q, S.machine.Run ok (S.start s₀) history q ∧ ok history q (.advance tid env) ∧
      q.next tid = some a.op ∧ a.resp = (S.exec env a.op q.shared).1 := by
  obtain ⟨q, i, hq, hok, hs⟩ := hrun.last
  refine ⟨q, hq, ?_⟩
  change S.step q i = _ at hs
  rcases step_cases q i with ⟨request, -, h⟩ | ⟨j, env', t, op, k, hrest, rfl, ht, h⟩ | h
  · rw [h] at hs
    cases hs
  · rw [h] at hs
    cases hs
    exact ⟨hok, Pool.next_eq ht hrest, rfl⟩
  · rw [h] at hs
    cases hs

theorem exec_of_called {tid : Nat} {req : Req} {env : ε} {a : Answer Op Resp}
    (hrun : S.machine.Run ok (S.start s₀) history p) (hmem : .called tid req env a ∈ history) :
    ∃ past q, S.machine.Run ok (S.start s₀) past q ∧ ok past q (.advance tid env) ∧
      a.resp = (S.exec env a.op q.shared).1 := by
  obtain ⟨post, past, rfl⟩ := List.append_of_mem hmem
  obtain ⟨q', hq'⟩ := hrun.shorter
  obtain ⟨q, hq, hok, -, hresp⟩ := answered_of_called hq'
  exact ⟨past, q, hq, hok, hresp⟩

/-- The shared state that the operations of a history lead to. -/
def replay (S : Service σ ε Op Resp Req α) (s₀ : σ) : List (Event ε Op Resp Req) → σ
  | [] => s₀
  | .called _ _ env a :: past => (S.exec env a.op (replay S s₀ past)).2
  | .started _ _ :: past => replay S s₀ past
  | .idle :: past => replay S s₀ past

theorem shared_eq_replay (hrun : S.machine.Run ok (S.start s₀) history p) :
    p.shared = S.replay s₀ history := by
  induction hrun with
  | init => rfl
  | @next h p i hrun hok ih =>
    change (S.step p i).1.shared = S.replay s₀ ((S.step p i).2 :: h)
    rcases step_cases p i with ⟨request, -, hs⟩ | ⟨tid, env, t, op, k, hrest, -, ht, hs⟩ | hs
    · rw [hs]
      exact ih
    · rw [hs, replay, ← ih]
    · rw [hs]
      exact ih

/-- Every request was started in a step that met the guard. -/
theorem guarded_of_thread (hrun : S.machine.Run ok (S.start s₀) history p) {t : Thread S}
    (ht : t ∈ p.threads) : ∃ past q, ok past q (.start t.request) := by
  induction hrun generalizing t with
  | init => cases ht
  | @next h p i hrun hok ih =>
    change t ∈ (S.step p i).1.threads at ht
    rcases step_cases p i with ⟨request, rfl, hs⟩ | ⟨tid, env, u, op, k, hrest, -, hu, hs⟩ | hs
    · rw [hs] at ht
      rcases List.mem_append.mp ht with ht | ht
      · exact ih ht
      · obtain rfl := List.mem_singleton.mp ht
        exact ⟨h, p, hok⟩
    · rw [hs] at ht
      rcases List.mem_or_eq_of_mem_set ht with ht | rfl
      · exact ih ht
      · exact @ih u (List.mem_of_getElem? hu)
    · rw [hs] at ht
      exact ih ht

/-- A request has called nothing before it was started. -/
theorem not_called_of_started {tid : Nat} {req req' : Req} {env : ε} {a : Answer Op Resp}
    (hrun : S.machine.Run ok (S.start s₀) (.started tid req :: history) p) :
    .called tid req' env a ∉ history := by
  intro hmem
  obtain ⟨q, i, hq, -, hs⟩ := hrun.last
  have hlt := (described_of_run hq).exists_thread hmem
  change S.step q i = _ at hs
  rcases step_cases q i with ⟨request, -, h⟩ | ⟨j, env', t, op, k, hrest, -, ht, h⟩ | h
  · rw [h] at hs
    cases hs
    exact absurd hlt (Nat.lt_irrefl _)
  · rw [h] at hs
    cases hs
  · rw [h] at hs
    cases hs

/-- Whatever a request was answered, it was answered after it had started. -/
theorem answered_since_started {tid : Nat} {req : Req} {a : Answer Op Resp}
    {later past : List (Event ε Op Resp Req)}
    (hrun : S.machine.Run ok (S.start s₀) (later ++ .started tid req :: past) p)
    (hmem : a ∈ answersOf tid (later ++ .started tid req :: past)) :
    ∃ mid env q, S.machine.Run ok (S.start s₀) (mid ++ .started tid req :: past) q ∧
      ok (mid ++ .started tid req :: past) q (.advance tid env) ∧
      a.resp = (S.exec env a.op q.shared).1 := by
  obtain ⟨req', env, hcalled⟩ := mem_answersOf.mp hmem
  obtain ⟨p', hstarted⟩ := hrun.shorter
  rcases List.mem_append.mp hcalled with hlater | hpast
  · obtain ⟨post, mid, rfl⟩ := List.append_of_mem hlater
    rw [List.append_assoc, List.cons_append] at hrun
    obtain ⟨q', hq'⟩ := hrun.shorter
    obtain ⟨q, hq, hok, -, hresp⟩ := answered_of_called hq'
    exact ⟨mid, env, q, hq, hok, hresp⟩
  · rcases List.mem_cons.mp hpast with heq | hpast
    · cases heq
    · exact absurd hpast (not_called_of_started hstarted)

theorem traced_of_thread {P : Req → List (Answer Op Resp) → Op → Prop}
    (htraced : ∀ req, (S.program req).Traced (P req) []) (t : Thread S) {op : Op}
    {k : Resp op → Prog Op Resp α} (hrest : t.rest = .call op k) : P t.request t.answers op :=
  (htraced t.request).of_reached (hrest ▸ t.reached)

theorem traced_of_called {P : Req → List (Answer Op Resp) → Op → Prop}
    (htraced : ∀ req, (S.program req).Traced (P req) []) {tid : Nat} {req : Req} {env : ε}
    {a : Answer Op Resp}
    (hrun : S.machine.Run ok (S.start s₀) (.called tid req env a :: history) p) :
    P req (answersOf tid history) a.op := by
  obtain ⟨k, hreached⟩ := reached_of_called hrun
  exact (htraced req).of_reached hreached

theorem course_of_thread {P : Req → List (Answer Op Resp) → Op → Prop}
    {Q : Req → List (Answer Op Resp) → α → Prop}
    (hcourse : ∀ req, (S.program req).Course (P req) (Q req) []) (t : Thread S) :
    t.rest.Course (P t.request) (Q t.request) t.answers :=
  (hcourse t.request).of_reached t.reached

theorem reached_of_called_of_split {tid : Nat} {req : Req} {env : ε} {a : Answer Op Resp}
    {post past : List (Event ε Op Resp Req)}
    (hrun : S.machine.Run ok (S.start s₀) (post ++ .called tid req env a :: past) p) :
    ∃ k : Resp a.op → Prog Op Resp α,
      Prog.Reached (S.program req) (answersOf tid past) (.call a.op k) := by
  obtain ⟨q, hq⟩ := hrun.shorter
  exact reached_of_called hq

/-! ### A request alone -/

theorem step_advance {tid : Nat} {env : ε} {t : Thread S} {op : Op} {k : Resp op → Prog Op Resp α}
    (ht : p.threads[tid]? = some t) (hrest : t.rest = .call op k) :
    (S.step p (.advance tid env)).1 = p.advanced tid env hrest := by
  rcases step_cases p (.advance tid env) with ⟨_, h, -⟩ | ⟨_, _, t', op', k', hrest', h, ht', hs⟩ | hs
  · cases h
  · cases h
    rw [ht] at ht'
    obtain rfl := Option.some.inj ht'
    rw [hs]
    obtain ⟨rfl, hk⟩ := Prog.call.inj (hrest.symm.trans hrest')
    cases hk
    rfl
  · simp only [step, ht] at hs
    split at hs
    · rename_i h
      rw [h] at hrest
      cases hrest
    · cases congrArg Prod.snd hs

theorem run_alone_from {env : Nat → ε} (hok : ∀ h q n, ok h q (.advance 0 (env n))) {req : Req} :
    ∀ (rest : Prog Op Resp α) (n : Nat) {history : List (Event ε Op Resp Req)} {p : Pool S}
      {t : Thread S}, S.machine.Run ok (S.start s₀) history p → p.threads = [t] →
      t.request = req → t.rest = rest →
      ∃ history' p' t', S.machine.Run ok (S.start s₀) history' p' ∧ p'.threads = [t'] ∧
        t'.request = req ∧ t'.rest = .ret (Prog.eval S.exec env n rest p.shared).1 := by
  intro rest
  induction rest with
  | ret a =>
    intro n history p t hrun hthreads hreq hrest
    exact ⟨history, p, t, hrun, hthreads, hreq, hrest⟩
  | call op k ih =>
    intro n history p t hrun hthreads hreq hrest
    have hnext := Machine.Run.next (.advance 0 (env n)) hrun (hok history p n)
    have ht : p.threads[0]? = some t := by rw [hthreads]; rfl
    have hstep : (S.machine.step p (.advance 0 (env n))).1 = p.advanced 0 (env n) hrest :=
      step_advance ht hrest
    rw [hstep] at hnext
    have hset : (p.advanced 0 (env n) hrest).threads =
        [t.advance hrest (S.exec (env n) op p.shared).1] := by
      change p.threads.set 0 _ = _
      rw [hthreads]
      rfl
    exact ih (S.exec (env n) op p.shared).1 (n + 1) hnext hset hreq rfl

/-- A request that runs alone is a run of the pool. -/
theorem run_alone {env : Nat → ε} (hstart : ∀ h q req, ok h q (.start req))
    (hok : ∀ h q n, ok h q (.advance 0 (env n))) (req : Req) :
    ∃ history p t, S.machine.Run ok (S.start s₀) history p ∧ p.threads = [t] ∧ t.request = req ∧
      t.rest = .ret (Prog.eval S.exec env 0 (S.program req) s₀).1 :=
  run_alone_from hok (S.program req) 0
    (Machine.Run.next (.start req) .init (hstart [] (S.start s₀) req)) rfl rfl rfl

end Service

end AuthForge
