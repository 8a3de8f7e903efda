import AuthForge.Base.Prog

/-!
# Invariants of the shared state with the history

A step of a pool changes the shared state only where it executes an operation. What an executed
operation keeps, and no other event disturbs, holds after every run.
-/

namespace AuthForge

/-- A program is followed by whatever takes up its result. -/
theorem Prog.Course.bind {Op α β : Type} {Resp : Op → Type}
    {P : List (Answer Op Resp) → Op → Prop} {Q : List (Answer Op Resp) → α → Prop}
    {R : List (Answer Op Resp) → β → Prop} {p : Prog Op Resp α} {next : α → Prog Op Resp β}
    {answers : List (Answer Op Resp)} (h : p.Course P Q answers)
    (hnext : ∀ answers a, Q answers a → (next a).Course P R answers) :
    (p.bind next).Course P R answers := by
  induction p generalizing answers with
  | ret a => exact hnext answers a h
  | call op k ih => exact ⟨h.1, fun r => ih r (h.2 r)⟩

theorem Machine.suffix_exec {σ ι ε : Type} {m : Machine σ ι ε} {history : List ε} {s : σ}
    (is : List ι) : history <:+ (m.exec history s is).1 := by
  induction is generalizing history s with
  | nil => exact List.suffix_refl _
  | cons i is ih => exact (List.suffix_cons _ _).trans ih

/-- More inputs add to the history. -/
theorem Machine.suffix_exec_append {σ ι ε : Type} {m : Machine σ ι ε} {history : List ε} {s : σ}
    (is js : List ι) : (m.exec history s is).1 <:+ (m.exec history s (is ++ js)).1 := by
  induction is generalizing history s with
  | nil => exact suffix_exec js
  | cons i is ih => exact ih

namespace Service

variable {σ ε Op Req α : Type} {Resp : Op → Type} {S : Service σ ε Op Resp Req α}
  {ok : Guard (Pool S) (Input ε Req) (Event ε Op Resp Req)} {s₀ : σ}
  {history : List (Event ε Op Resp Req)} {p : Pool S}

theorem Pool.thread_of_next {tid : Nat} {op : Op} (h : p.next tid = some op) :
    ∃ t k, p.threads[tid]? = some t ∧ t.rest = .call op k := by
  unfold Pool.next at h
  split at h
  · cases h
  · rename_i t ht
    split at h
    · cases h
    · rename_i op' k hrest
      obtain rfl := Option.some.inj h
      exact ⟨t, k, ht, hrest⟩

/-- An operation that was executed in a run: the run goes on with its event. -/
structure Executed (ok : Guard (Pool S) (Input ε Req) (Event ε Op Resp Req)) (s₀ : σ)
    (history : List (Event ε Op Resp Req)) (p : Pool S) (tid : Nat) (req : Req) (env : ε) (op : Op) :
    Prop where
  run : S.machine.Run ok (S.start s₀) history p
  guarded : ok history p (.advance tid env)
  next : p.next tid = some op
  after : ∃ p', S.machine.Run ok (S.start s₀)
    (.called tid req env ⟨op, (S.exec env op p.shared).1⟩ :: history) p'

theorem shared_invariant {P : List (Event ε Op Resp Req) → σ → Prop} (hinit : P [] s₀)
    (hstarted : ∀ h s tid req, P h s → P (.started tid req :: h) s)
    (hidle : ∀ h s, P h s → P (.idle :: h) s)
    (hcalled : ∀ h q tid req env op, Executed ok s₀ h q tid req env op → P h q.shared →
      P (.called tid req env ⟨op, (S.exec env op q.shared).1⟩ :: h) (S.exec env op q.shared).2)
    (hrun : S.machine.Run ok (S.start s₀) history p) : P history p.shared := by
  induction hrun with
  | init => exact hinit
  | @next h p i hrun hok ih =>
    have hnext := Machine.Run.next i hrun hok
    change S.machine.Run ok _ ((S.step p i).2 :: h) (S.step p i).1 at hnext
    change P ((S.step p i).2 :: h) (S.step p i).1.shared
    rcases step_cases p i with ⟨request, -, hs⟩ | ⟨tid, env, t, op, k, hrest, rfl, ht, hs⟩ | hs
    · rw [hs]
      exact hstarted h _ _ _ ih
    · rw [hs] at hnext ⊢
      exact hcalled h p tid t.request env op ⟨hrun, hok, Pool.next_eq ht hrest, _, hnext⟩ ih
    · rw [hs]
      exact hidle h _ ih

/-- A request keeps its place in the pool. -/
theorem request_of_started {tid : Nat} {req : Req} {later past : List (Event ε Op Resp Req)}
    (hrun : S.machine.Run ok (S.start s₀) (later ++ .started tid req :: past) p) :
    ∃ t, p.threads[tid]? = some t ∧ t.request = req := by
  induction later generalizing p with
  | nil =>
    obtain ⟨q, i, -, -, hs⟩ := hrun.last
    change S.step q i = _ at hs
    rcases step_cases q i with ⟨request, -, h⟩ | ⟨j, env, t, op, k, hrest, -, ht, h⟩ | h
    · rw [h] at hs
      cases hs
      exact ⟨.fresh S req, by simp, rfl⟩
    · rw [h] at hs
      cases hs
    · rw [h] at hs
      cases hs
  | cons e later ih =>
    obtain ⟨q, i, hq, -, hs⟩ := hrun.last
    obtain ⟨t, ht, hreq⟩ := ih hq
    obtain ⟨hlt, -⟩ := List.getElem?_eq_some_iff.mp ht
    change S.step q i = _ at hs
    rcases step_cases q i with ⟨request, -, h⟩ | ⟨j, env, u, op, k, hrest, -, hu, h⟩ | h
    · rw [h] at hs
      cases hs
      exact ⟨t, by rw [List.getElem?_append_left hlt, ht], hreq⟩
    · rw [h] at hs
      cases hs
      by_cases hj : j = tid
      · subst hj
        rw [ht] at hu
        obtain rfl := Option.some.inj hu
        exact ⟨t.advance hrest _, List.getElem?_set_self hlt, hreq⟩
      · exact ⟨t, by rw [List.getElem?_set_ne hj, ht], hreq⟩
    · rw [h] at hs
      cases hs
      exact ⟨t, ht, hreq⟩

/-- Whatever a request was answered is among the events after its start, and the state before that
event gave the answer. -/
theorem answered_later {tid : Nat} {req : Req} {a : Answer Op Resp}
    {later past : List (Event ε Op Resp Req)}
    (hrun : S.machine.Run ok (S.start s₀) (later ++ .started tid req :: past) p)
    (hmem : a ∈ answersOf tid (later ++ .started tid req :: past)) :
    ∃ post req' env mid q, later = post ++ .called tid req' env a :: mid ∧
      S.machine.Run ok (S.start s₀) (mid ++ .started tid req :: past) q ∧
      a.resp = (S.exec env a.op q.shared).1 := by
  obtain ⟨req', env, hcalled⟩ := mem_answersOf.mp hmem
  obtain ⟨p', hstarted⟩ := hrun.shorter
  rcases List.mem_append.mp hcalled with hlater | hpast
  · obtain ⟨post, mid, rfl⟩ := List.append_of_mem hlater
    rw [List.append_assoc, List.cons_append] at hrun
    obtain ⟨q', hq'⟩ := hrun.shorter
    obtain ⟨q, hq, -, -, hresp⟩ := answered_of_called hq'
    exact ⟨post, req', env, mid, q, rfl, hq, hresp⟩
  · rcases List.mem_cons.mp hpast with heq | hpast
    · cases heq
    · exact absurd hpast (not_called_of_started hstarted)

end Service

end AuthForge
