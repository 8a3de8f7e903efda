import AuthForge.Base.Prog

/-!
# Tasks that nobody waits for

A program may start a task and go on without waiting for it. The two then run interleaved: whenever
both have an operation to issue, the answer to a scheduling operation decides which of them goes
first. Running the spawned program with all answers to that operation gives exactly the
interleavings of the task and the rest.
-/

namespace AuthForge.Prog

variable {Op : Type} {Resp : Op → Type} {α : Type}

/-- The operation `op` of a task beside a program: `next` is the task after its answer. -/
def spawnNext (choose : Op) (taskFirst : Resp choose → Bool) (op : Op)
    (next : Resp op → Prog Op Resp α → Prog Op Resp α) : Prog Op Resp α → Prog Op Resp α
  | .ret a => .call op fun r => next r (.ret a)
  | .call op' k =>
    .call choose fun c =>
      if taskFirst c then .call op fun r => next r (.call op' k)
      else .call op' fun r => spawnNext choose taskFirst op next (k r)

def spawn (choose : Op) (taskFirst : Resp choose → Bool) :
    Prog Op Resp Unit → Prog Op Resp α → Prog Op Resp α
  | .ret _ => fun rest => rest
  | .call op k => spawnNext choose taskFirst op fun r => spawn choose taskFirst (k r)

variable {choose : Op} {taskFirst : Resp choose → Bool} {P : Op → Prop}

theorem only_spawnNext {op : Op} {next : Resp op → Prog Op Resp α → Prog Op Resp α}
    (hchoose : P choose) (hop : P op)
    (hnext : ∀ r (rest : Prog Op Resp α), rest.Only P → (next r rest).Only P)
    {rest : Prog Op Resp α} (hrest : rest.Only P) :
    (spawnNext choose taskFirst op next rest).Only P := by
  induction rest with
  | ret a => exact ⟨hop, fun r => hnext r _ trivial⟩
  | call op' k ih =>
    refine ⟨hchoose, ?_⟩
    intro c
    dsimp only
    split
    · exact ⟨hop, fun r => hnext r _ hrest⟩
    · exact ⟨hrest.1, fun r => ih r (hrest.2 r)⟩

/-- What all operations of the task and of the rest have, all operations of both together have. -/
theorem only_spawn (hchoose : P choose) {task : Prog Op Resp Unit} (htask : task.Only P)
    {rest : Prog Op Resp α} (hrest : rest.Only P) : (spawn choose taskFirst task rest).Only P := by
  induction task generalizing rest with
  | ret _ => exact hrest
  | call op k ih =>
    exact only_spawnNext hchoose htask.1 (fun r rest' h => ih r (htask.2 r) h) hrest

/-- As for `Only`, with the answers before an operation, for properties that more answers keep: the
task sees its own answers among all of them, and so does the rest. -/
theorem traced_spawnNext {P : List (Answer Op Resp) → Op → Prop} {op : Op}
    {next : Resp op → Prog Op Resp α → Prog Op Resp α}
    (hmono : ∀ answers answers' op, P answers op → answers ⊆ answers' → P answers' op)
    (hchoose : ∀ answers, P answers choose) {before : List (Answer Op Resp)} (hop : P before op)
    (hnext : ∀ r {after answers : List (Answer Op Resp)} (rest : Prog Op Resp α),
      before ++ [⟨op, r⟩] ⊆ answers → after ⊆ answers → rest.Traced P after →
      (next r rest).Traced P answers)
    {rest : Prog Op Resp α} {after answers : List (Answer Op Resp)} (hbefore : before ⊆ answers)
    (hafter : after ⊆ answers) (hrest : rest.Traced P after) :
    (spawnNext choose taskFirst op next rest).Traced P answers := by
  induction rest generalizing after answers with
  | ret a =>
    refine ⟨hmono _ _ _ hop hbefore, fun r => hnext r (.ret a) ?_ (List.nil_subset _) trivial⟩
    exact List.append_subset.mpr ⟨List.subset_append_of_subset_left _ hbefore,
      List.subset_append_right _ _⟩
  | call op' k ih =>
    refine ⟨hchoose answers, ?_⟩
    intro c
    have hbefore' := List.subset_append_of_subset_left [⟨choose, c⟩] hbefore
    have hafter' := List.subset_append_of_subset_left [⟨choose, c⟩] hafter
    dsimp only
    split
    · refine ⟨hmono _ _ _ hop hbefore', fun r => hnext r _ ?_ ?_ hrest⟩
      · exact List.append_subset.mpr ⟨List.subset_append_of_subset_left _ hbefore',
          List.subset_append_right _ _⟩
      · exact List.subset_append_of_subset_left _ hafter'
    · refine ⟨hmono _ _ _ hrest.1 hafter', fun r => ih r ?_ ?_ (hrest.2 r)⟩
      · exact List.subset_append_of_subset_left _ hbefore'
      · exact List.append_subset.mpr ⟨List.subset_append_of_subset_left _ hafter',
          List.subset_append_right _ _⟩

theorem traced_spawn {P : List (Answer Op Resp) → Op → Prop}
    (hmono : ∀ answers answers' op, P answers op → answers ⊆ answers' → P answers' op)
    (hchoose : ∀ answers, P answers choose) {task : Prog Op Resp Unit} {rest : Prog Op Resp α}
    {before after answers : List (Answer Op Resp)} (hbefore : before ⊆ answers)
    (hafter : after ⊆ answers) (htask : task.Traced P before) (hrest : rest.Traced P after) :
    (spawn choose taskFirst task rest).Traced P answers := by
  induction task generalizing rest before after answers with
  | ret _ =>
    -- Nothing is left of the task; the rest sees more answers than it counts on.
    change rest.Traced P answers
    clear htask
    induction rest generalizing after answers with
    | ret a => trivial
    | call op k ih =>
      refine ⟨hmono _ _ _ hrest.1 hafter, fun r => ih r ?_ ?_ (hrest.2 r)⟩
      · exact List.subset_append_of_subset_left _ hbefore
      · exact List.append_subset.mpr ⟨List.subset_append_of_subset_left _ hafter,
          List.subset_append_right _ _⟩
  | call op k ih =>
    refine traced_spawnNext (P := P) hmono hchoose htask.1 ?_ hbefore hafter hrest
    intro r after' answers' rest' hbefore' hafter' hrest'
    exact ih r hbefore' hafter' (htask.2 r) hrest'

end AuthForge.Prog
