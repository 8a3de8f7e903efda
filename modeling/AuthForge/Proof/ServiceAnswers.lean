import AuthForge.Admin.ServiceCallbacks
import AuthForge.Storage.Memory
import AuthForge.Storage.Postgres

/-!
# Which services answer under which order of evaluation

The lambda that is evaluated first takes the callback with it. So a lookup answers exactly when the
query calls the lambda that was evaluated first, and the guard answers unless the query for the roles
fails after the other lambda has taken `onError`.
-/

namespace AuthForge.ServiceCallbacks

open Captures Http Identity

variable {ε ε' σ σ' : Type} {order : Order}

/-- The query calls the lambda that was evaluated first. -/
def CallsFirst (order : Order) (found : Bool) : Prop :=
  order = if found then .leftFirst else .rightFirst

/-- The order matters to the guard only when the query for the roles fails. -/
def GuardKept (order : Order) (found : Bool) : Prop := order = .rightFirst ∨ found = true

theorem answers_held_iff {A : Type} {argument : A} :
    (⟨(heldCallback order).1, argument⟩ : Invocation CallerFunction A).Answers ↔
      CallsFirst order true := by
  rw [Invocation.answers_iff, heldCallback_fst]
  cases order <;> simp [CallsFirst]

theorem answers_failed_iff {A : Type} {argument : A} :
    (⟨(heldCallback order).2, argument⟩ : Invocation CallerFunction A).Answers ↔
      CallsFirst order false := by
  rw [Invocation.answers_iff, heldCallback_snd]
  cases order <;> simp [CallsFirst]

section Device

variable (exec : ε → (op : DeviceStatements.DeviceCall) → σ → op.Resp × σ) (env : Nat → ε) (s : σ)

theorem findByDeviceCodeHash_answers_iff (deviceCodeHash : String) :
    (Prog.eval exec env 0 (findByDeviceCodeHash order deviceCodeHash) s).1.Answers ↔
      CallsFirst order (exec (env 0) (.findOne deviceCodeHash) s).1.isSome := by
  rw [findByDeviceCodeHash, Prog.eval]
  cases (exec (env 0) (.findOne deviceCodeHash) s).1 with
  | none => exact answers_failed_iff
  | some code => exact answers_held_iff

theorem findByUserCode_answers_iff (userCode : String) :
    (Prog.eval exec env 0 (findByUserCode order userCode) s).1.Answers ↔
      CallsFirst order (exec (env 0) (.findByUserCode userCode) s).1.isSome := by
  rw [findByUserCode, Prog.eval]
  cases (exec (env 0) (.findByUserCode userCode) s).1 with
  | none => exact answers_failed_iff
  | some code => exact answers_held_iff

theorem markApproved_answers_iff (deviceCodeHash userId : String) :
    (Prog.eval exec env 0 (markApproved order deviceCodeHash userId) s).1.Answers ↔
      CallsFirst order (exec (env 0) (.findOne deviceCodeHash) s).1.isSome := by
  rw [markApproved, Prog.eval]
  cases (exec (env 0) (.findOne deviceCodeHash) s).1 with
  | none => exact answers_failed_iff
  | some code => exact answers_held_iff

end Device

/-! ### The guard -/

/-- Behind the roles both functions are there. -/
theorem answers_shared {f : CallerFunction} (h : f = .onDone ∨ f = .onError)
    {argument : Option Bool} :
    (⟨(heldByGuard order).1 f, argument⟩ : Invocation CallerFunction (Option Bool)).Answers := by
  rw [Invocation.answers_iff, heldByGuard_fst order h]
  rfl

theorem isLastActiveAdmin_answers_iff (exec : ε → (op : UserCall) → σ → op.Resp × σ)
    (env : Nat → ε) (s : σ) (targetUserId : Int) :
    (Prog.eval exec env 0 (isLastActiveAdmin order targetUserId) s).1.Answers ↔
      GuardKept order (exec (env 0) .findAdminRoles s).1.isSome := by
  rw [isLastActiveAdmin, Prog.eval]
  rcases (exec (env 0) .findAdminRoles s).1 with _ | _ | ⟨roleId, roleIds⟩
  · change Invocation.Answers ⟨(heldByGuard order).2, none⟩ ↔ _
    rw [Invocation.answers_iff, heldByGuard_snd]
    cases order <;> simp [GuardKept]
  · exact iff_of_true (answers_shared (.inl rfl)) (.inr rfl)
  refine iff_of_true ?_ (.inr rfl)
  simp only [Prog.eval]
  split
  · exact answers_shared (.inr rfl)
  split
  · exact answers_shared (.inl rfl)
  split
  · exact answers_shared (.inl rfl)
  simp only [Prog.eval]
  split
  · exact answers_shared (.inr rfl)
  · exact answers_shared (.inl rfl)

/-- For each of the four services, exactly one function of the caller runs, and not an emptied one,
exactly under this condition on the order and the outcome of the first query. -/
theorem services_answer_iff (order : Order)
    (exec : ε → (op : DeviceStatements.DeviceCall) → σ → op.Resp × σ) (env : Nat → ε) (s : σ)
    (adminExec : ε' → (op : UserCall) → σ' → op.Resp × σ') (adminEnv : Nat → ε') (t : σ')
    (deviceCodeHash userCode userId : String) (targetUserId : Int) :
    ((Prog.eval exec env 0 (findByDeviceCodeHash order deviceCodeHash) s).1.Answers ↔
      CallsFirst order (exec (env 0) (.findOne deviceCodeHash) s).1.isSome) ∧
    ((Prog.eval exec env 0 (findByUserCode order userCode) s).1.Answers ↔
      CallsFirst order (exec (env 0) (.findByUserCode userCode) s).1.isSome) ∧
    ((Prog.eval exec env 0 (markApproved order deviceCodeHash userId) s).1.Answers ↔
      CallsFirst order (exec (env 0) (.findOne deviceCodeHash) s).1.isSome) ∧
    ((Prog.eval adminExec adminEnv 0 (isLastActiveAdmin order targetUserId) t).1.Answers ↔
      GuardKept order (adminExec (adminEnv 0) .findAdminRoles t).1.isSome) :=
  ⟨findByDeviceCodeHash_answers_iff exec env s deviceCodeHash,
    findByUserCode_answers_iff exec env s userCode,
    markApproved_answers_iff exec env s deviceCodeHash userId,
    isLastActiveAdmin_answers_iff adminExec adminEnv t targetUserId⟩

/-- One device code under the hash `HASH`. -/
def oneCode : DeviceStatements.DeviceStore (Storage.Postgres.clientRepository fun _ => "")
    Storage.Memory.tokenRepository where
  clients := (∅ : Storage.Postgres.Clients)
  tokens := Storage.Memory.Tokens.empty
  deviceCodes :=
    AList.insert "HASH"
      { userCode := "BCDFGHJK", clientId := "tv", scope := "openid", expiresAt := 600 } ∅

/-- Under either order one outcome of the lookup invokes an emptied function, and the guard invokes
an emptied `onError` when the query for the roles fails after the other lambda was evaluated. -/
theorem emptied_function_invoked :
    ¬ (Prog.eval DeviceStatements.DeviceStore.exec (fun _ => {}) 0
      (markApproved .rightFirst "HASH" "1") oneCode).1.Answers ∧
    ¬ (Prog.eval DeviceStatements.DeviceStore.exec (fun _ => { fails := true }) 0
      (findByUserCode .leftFirst "BCDFGHJK") oneCode).1.Answers ∧
    ¬ (Prog.eval IdentityStore.exec (fun _ => { fails := true }) 0
      (isLastActiveAdmin .leftFirst 1) { users := ∅ }).1.Answers := by
  decide +kernel

end AuthForge.ServiceCallbacks
