import AuthForge.Admin.UserAdmin
import AuthForge.Base.Captures
import AuthForge.Http.DeviceStatements

/-!
# Services that move their callback into two lambdas

The lookups of `DeviceCodeService`, `markApproved` and the guard `isLastActiveAdmin` hand a query one
lambda for its rows and one for its failure. Elsewhere they are programs that always answer; here
they end with the function object that they invoke, which depends on the order in which the two
lambdas were evaluated. The lambda for the rows is the left argument.
-/

namespace AuthForge.ServiceCallbacks

open Captures Http Identity Admin

/-- The function objects of a caller, under the names of the parameters. -/
inductive CallerFunction
  | callback
  | onDone
  | onError
  deriving DecidableEq, Repr

abbrev DeviceQuery (A : Type) :=
  Prog DeviceStatements.DeviceCall DeviceStatements.DeviceCall.Resp (Invocation CallerFunction A)

/-- Both lambdas capture by `cb = std::move(callback)`. -/
def heldCallback (order : Order) : Option CallerFunction × Option CallerFunction :=
  let held := arguments order [(CallerFunction.callback, .byMove)] [(.callback, .byMove)] some
  (held.1 .callback, held.2 .callback)

def findByDeviceCodeHash (order : Order) (deviceCodeHash : String) :
    DeviceQuery (Option DeviceCode) :=
  .call (.findOne deviceCodeHash) fun
    | some code => .ret ⟨(heldCallback order).1, some code⟩
    | none => .ret ⟨(heldCallback order).2, none⟩

def findByUserCode (order : Order) (userCode : String) :
    DeviceQuery (Option (String × DeviceCode)) :=
  .call (.findByUserCode userCode) fun
    | some code => .ret ⟨(heldCallback order).1, some code⟩
    | none => .ret ⟨(heldCallback order).2, none⟩

/-- The lambdas of the update copy what the lambda for the row holds. -/
def markApproved (order : Order) (deviceCodeHash userId : String) : DeviceQuery Bool :=
  .call (.findOne deviceCodeHash) fun
    | some _ =>
      .call (.setApproved deviceCodeHash userId) fun updated =>
        .ret ⟨(heldCallback order).1, updated⟩
    | none => .ret ⟨(heldCallback order).2, false⟩

/-- The lambda for the roles moves both functions, the one for the failure copies `onError`. -/
def heldByGuard (order : Order) :
    (CallerFunction → Option CallerFunction) × Option CallerFunction :=
  let held := arguments order [(CallerFunction.onDone, .byMove), (.onError, .byMove)]
    [(.onError, .byCopy)] some
  (held.1, held.2 .onError)

/-- The argument is the verdict for `onDone`, and nothing for `onError`. The lambdas of the later
queries share what the lambda for the roles holds. -/
def isLastActiveAdmin (order : Order) (targetUserId : Int) :
    Prog UserCall UserCall.Resp (Invocation CallerFunction (Option Bool)) :=
  let onDone (lastAdmin : Bool) : Invocation CallerFunction (Option Bool) :=
    ⟨(heldByGuard order).1 .onDone, some lastAdmin⟩
  let onError : Invocation CallerFunction (Option Bool) := ⟨(heldByGuard order).1 .onError, none⟩
  .call .findAdminRoles fun
    | none => .ret ⟨(heldByGuard order).2, none⟩
    | some [] => .ret (onDone false)
    | some (roleId :: roleIds) =>
      .call (.findRoleHolders (roleId :: roleIds)) fun
        | none => .ret onError
        | some adminIds =>
          if targetUserId ∉ adminIds then .ret (onDone false)
          else if adminIds.filter (· ≠ targetUserId) = [] then .ret (onDone true)
          else
            .call .nowSeconds fun now =>
            .call (.countActive (adminIds.filter (· ≠ targetUserId)) now) fun
              | none => .ret onError
              | some otherActiveAdmins => .ret (onDone (otherActiveAdmins = 0))

/-! ### The programs of the other modules -/

theorem markApproved_bind (order : Order) (deviceCodeHash userId : String)
    (cb : Bool → DeviceStatements.DeviceProg) :
    (markApproved order deviceCodeHash userId).bind (fun i => cb i.argument) =
      DeviceStatements.markApproved deviceCodeHash userId cb := by
  refine congrArg (Prog.call _) (funext fun code => ?_)
  cases code <;> rfl

/-- Forgetting the function object gives the guard that always answers. -/
theorem isLastActiveAdmin_bind (order : Order) (targetUserId : Int) (onDone : Bool → UserProg)
    (onError : UserProg) :
    (isLastActiveAdmin order targetUserId).bind (fun i => i.argument.elim onError onDone) =
      Admin.isLastActiveAdmin targetUserId onDone onError := by
  refine congrArg (Prog.call _) (funext fun roles => ?_)
  match roles with
  | none => rfl
  | some [] => rfl
  | some (roleId :: roleIds) =>
    refine congrArg (Prog.call _) (funext fun holders => ?_)
    cases holders with
    | none => rfl
    | some adminIds =>
      simp only
      split
      · rfl
      split
      · rfl
      refine congrArg (Prog.call _) (funext fun now => congrArg (Prog.call _) (funext fun n => ?_))
      cases n <;> rfl

/-! ### What the lambdas hold -/

theorem heldCallback_fst (order : Order) :
    (heldCallback order).1 = if order = .rightFirst then none else some .callback := by
  change (arguments order _ _ some).1 CallerFunction.callback = _
  rw [arguments_fst (by decide) (by decide)]
  simp

theorem heldCallback_snd (order : Order) :
    (heldCallback order).2 = if order = .leftFirst then none else some .callback := by
  change (arguments order _ _ some).2 CallerFunction.callback = _
  rw [arguments_snd (by decide) (by decide)]
  simp

theorem heldByGuard_fst (order : Order) {f : CallerFunction} (h : f = .onDone ∨ f = .onError) :
    (heldByGuard order).1 f = some f := by
  have hmem : f ∈ [(CallerFunction.onDone, Capture.byMove), (.onError, .byMove)].map Prod.fst := by
    simpa using h
  rw [heldByGuard, arguments_fst (by decide) hmem, if_neg (by simp)]

theorem heldByGuard_snd (order : Order) :
    (heldByGuard order).2 = if order = .leftFirst then none else some .onError := by
  rw [heldByGuard, arguments_snd (by decide) (by decide)]
  simp

end AuthForge.ServiceCallbacks
