import AuthForge.Base.Prog

/-!
# Changes of the state that nothing notices

When every operation gives the same answer before and after a change of the shared state, and leaves
states that differ by the same change, then every run is also a run from the changed state, with the
same events and the same requests in the same positions.
-/

namespace AuthForge.Service

variable {σ ε Op Req α : Type} {Resp : Op → Type} {S : Service σ ε Op Resp Req α}

/-- The operations do not notice the change, in states that have a property which they keep. -/
structure Unnoticed (S : Service σ ε Op Resp Req α) (change : σ → σ) (P : σ → Prop) : Prop where
  exec : ∀ {s}, P s → ∀ env op,
    S.exec env op (change s) = ((S.exec env op s).1, change (S.exec env op s).2)
  keeps : ∀ {s}, P s → ∀ env op, P (S.exec env op s).2

def Pool.changed (change : σ → σ) (p : Pool S) : Pool S := ⟨change p.shared, p.threads⟩

variable {change : σ → σ} {P : σ → Prop} {p : Pool S} {s₀ : σ}
  {history : List (Event ε Op Resp Req)}

theorem Unnoticed.step (h : S.Unnoticed change P) (hp : P p.shared) (i : Input ε Req) :
    S.step (p.changed change) i = ((S.step p i).1.changed change, (S.step p i).2) ∧
      P (S.step p i).1.shared := by
  cases i with
  | start request => exact ⟨rfl, hp⟩
  | advance tid env =>
    simp only [Service.step, Pool.changed]
    split
    · exact ⟨rfl, hp⟩
    · rename_i t ht
      split
      · exact ⟨rfl, hp⟩
      · rename_i op k hrest
        rw [h.exec hp env op]
        exact ⟨rfl, h.keeps hp env op⟩

/-- What every operation keeps holds in every state of a run. -/
theorem shared_of_run {ok : Guard (Pool S) (Input ε Req) (Event ε Op Resp Req)}
    (hkeeps : ∀ {s}, P s → ∀ env op, P (S.exec env op s).2) (hs : P s₀)
    (hrun : S.machine.Run ok (S.start s₀) history p) : P p.shared := by
  have hunnoticed : S.Unnoticed id P := ⟨fun _ _ _ => rfl, hkeeps⟩
  induction hrun with
  | init => exact hs
  | next i _ _ ih => exact (hunnoticed.step ih i).2

/-- A run goes on unchanged from the changed state. -/
theorem Unnoticed.run (h : S.Unnoticed change P) (hs : P s₀)
    (hrun : S.machine.Run anyStep (S.start s₀) history p) :
    S.machine.Run anyStep (S.start (change s₀)) history (p.changed change) := by
  induction hrun with
  | init => exact .init
  | next i hrun hok ih =>
    have hnext := Machine.Run.next i ih trivial
    change S.machine.Run anyStep _ ((S.step _ i).2 :: _) (S.step _ i).1 at hnext
    rw [(h.step (shared_of_run h.keeps hs hrun) i).1] at hnext
    exact hnext

end AuthForge.Service
