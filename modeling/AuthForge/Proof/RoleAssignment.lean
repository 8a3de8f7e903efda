import AuthForge.Proof.LastAdmin
import Mathlib.Data.List.Perm.Basic
import Mathlib.Data.Set.Basic

/-!
# Assigning roles is atomic unless an insert goes its own way

`assignUserRoles` clears the roles of the user, looks the names up and inserts the roles found, all
without a transaction. The inserts run side by side and the one that completes last replies for all
of them. Every statement of the request meets one outcome, whenever it is executed; what is left
open is the order in which the inserts complete.
-/

namespace AuthForge.RoleAssignment

open Identity Admin

/-- What each statement meets in the database: the time, and whether it fails. -/
abbrev Outcomes := UserCall → StatementEnv

def execute (outcomes : Outcomes) (choice : Nat) (op : UserCall) (s : IdentityStore) :
    op.Resp × IdentityStore :=
  IdentityStore.exec { outcomes op with choice } op s

/-- The reply of a request and the tables it leaves. Its statements are counted from `n`; `order`
chooses which of the pending inserts completes next. -/
def outcome (outcomes : Outcomes) (order : Nat → Nat) (n : Nat) (p : UserProg)
    (s : IdentityStore) : UserReply × IdentityStore :=
  let r := p.eval (execute outcomes) order n s
  (r.1, r.2.1)

def assign (outcomes : Outcomes) (order : Nat → Nat) (userId : Int) (roleNames : List String)
    (s : IdentityStore) : UserReply × IdentityStore :=
  outcome outcomes order 0 (assignUserRoles userId roleNames) s

/-! ### What is claimed -/

def storedRoles (s : IdentityStore) (userId : Int) : Set Int :=
  { roleId | (userId, roleId) ∈ s.userRoles }

/-- The roles that exist under the requested names. -/
def existingRoles (s : IdentityStore) (roleNames : List String) : Set Int :=
  { roleId | ∃ name ∈ roleNames, s.roles.lookup roleId = some name }

def isError : UserReply → Bool
  | .error _ _ => true
  | _ => false

/-- The reply `r.1` is true of the tables `r.2`. -/
structure Honest (userId : Int) (roleNames : List String) (before : IdentityStore)
    (r : UserReply × IdentityStore) : Prop where
  success : isError r.1 = false → storedRoles r.2 userId = existingRoles before roleNames
  error : isError r.1 = true → storedRoles r.2 userId = storedRoles before userId

/-- Replies that differ at most in the order in which they list the roles. -/
inductive SameAnswer : UserReply → UserReply → Prop
  | refl (reply : UserReply) : SameAnswer reply reply
  | listed {roles roles' : List String} (h : roles.Perm roles') :
    SameAnswer (.rolesUpdated roles) (.rolesUpdated roles')

structure AtomicAssignment (outcomes : Outcomes) (userId : Int) (roleNames : List String)
    (s : IdentityStore) : Prop where
  honest : ∀ order, Honest userId roleNames s (assign outcomes order userId roleNames s)
  ordered : ∀ order order', SameAnswer (assign outcomes order userId roleNames s).1
    (assign outcomes order' userId roleNames s).1

/-! ### When it holds -/

/-- The guard lets the request pass: its queries do not fail, and the target is no admin or another
admin is active. -/
def GuardPasses (outcomes : Outcomes) (target : Int) (s : IdentityStore) : Prop :=
  let roleIds := (s.rolesNamed ["admin"]).map Prod.fst
  let others := (s.holders roleIds).filter (· ≠ target)
  let now := (outcomes .nowSeconds).now
  (outcomes .findAdminRoles).fails = false ∧
    (roleIds = [] ∨ (outcomes (.findRoleHolders roleIds)).fails = false ∧
      (target ∉ s.holders roleIds ∨ others ≠ [] ∧
        (outcomes (.countActive others now)).fails = false ∧ s.countActive others now ≠ 0))

/-- The request gets as far as to clear the roles of the user. -/
structure Clears (outcomes : Outcomes) (userId : Int) (roleNames : List String)
    (s : IdentityStore) : Prop where
  found : (outcomes (.findOne userId)).fails = false ∧
    ∃ u, s.users.lookup userId = some u ∧ u.deleted = false
  guard : "admin" ∈ roleNames ∨ GuardPasses outcomes userId s
  cleared : (outcomes (.deleteRoles userId)).fails = false

def insertFails (outcomes : Outcomes) (userId roleId : Int) : Bool :=
  (outcomes (.insertRole userId roleId)).fails

/-- The names are looked up once, before anything is inserted. -/
def LookupFails (outcomes : Outcomes) (roleNames : List String) : Prop :=
  roleNames ≠ [] ∧ (outcomes (.findRoles roleNames)).fails = true

/-- After the clear everything succeeds, or nothing does and there was nothing to clear. -/
def AllOrNothing (outcomes : Outcomes) (userId : Int) (roleNames : List String)
    (s : IdentityStore) : Prop :=
  (LookupFails outcomes roleNames → storedRoles s userId = ∅) ∧
    (¬LookupFails outcomes roleNames →
      (∀ roleId ∈ existingRoles s roleNames, insertFails outcomes userId roleId = false) ∨
        storedRoles s userId = ∅ ∧
          ∀ roleId ∈ existingRoles s roleNames, insertFails outcomes userId roleId = true)

/-! ### The statements before the inserts -/

variable {outcomes : Outcomes} {order : Nat → Nat} {n : Nat} {userId : Int}
  {roleNames : List String} {s : IdentityStore}

theorem outcome_call (op : UserCall) (k : op.Resp → UserProg) :
    outcome outcomes order n (.call op k) s =
      outcome outcomes order (n + 1) (k (execute outcomes (order n) op s).1)
        (execute outcomes (order n) op s).2 := rfl

/-- The guard only reads, and goes on in one of its three ways whatever the order. -/
theorem outcome_guard (target : Int) (onDone : Bool → UserProg) (onError : UserProg) (n : Nat)
    (s : IdentityStore) :
    ∃ m clock next, (GuardPasses outcomes target s ∧ next = onDone false ∨
        ¬GuardPasses outcomes target s ∧ (next = onDone true ∨ next = onError)) ∧
      ∀ order, outcome outcomes order n (isLastActiveAdmin target onDone onError) s =
        outcome outcomes order m next { s with clock } := by
  have hroles : ∀ c, execute outcomes c .findAdminRoles s =
      (if (outcomes .findAdminRoles).fails then none
        else some ((s.rolesNamed ["admin"]).map Prod.fst),
        { s with clock := (outcomes .findAdminRoles).now }) := fun _ => rfl
  have hholders : ∀ c clock ids, execute outcomes c (.findRoleHolders ids) { s with clock } =
      (if (outcomes (.findRoleHolders ids)).fails then none else some (s.holders ids),
        { s with clock := (outcomes (.findRoleHolders ids)).now }) := fun _ _ _ => rfl
  have hnow : ∀ c clock, execute outcomes c .nowSeconds { s with clock } =
      ((outcomes .nowSeconds).now, { s with clock := (outcomes .nowSeconds).now }) :=
    fun _ _ => rfl
  have hcount : ∀ c clock ids now, execute outcomes c (.countActive ids now) { s with clock } =
      (if (outcomes (.countActive ids now)).fails then none else some (s.countActive ids now),
        { s with clock := (outcomes (.countActive ids now)).now }) := fun _ _ _ _ => rfl
  unfold GuardPasses isLastActiveAdmin
  simp only [outcome_call, hroles]
  cases hfails : (outcomes .findAdminRoles).fails with
  | true => exact ⟨_, _, onError, .inr ⟨by simp, .inr rfl⟩, fun _ => rfl⟩
  | false =>
    generalize (s.rolesNamed ["admin"]).map Prod.fst = ids
    rcases ids with _ | ⟨roleId, roleIds⟩
    · exact ⟨_, _, onDone false, .inl ⟨by simp, rfl⟩, fun _ => rfl⟩
    simp only [Bool.false_eq_true, if_false, outcome_call, hholders, true_and]
    cases hheld : (outcomes (.findRoleHolders (roleId :: roleIds))).fails with
    | true => exact ⟨_, _, onError, .inr ⟨by simp, .inr rfl⟩, fun _ => rfl⟩
    | false =>
      simp only [Bool.false_eq_true, if_false, reduceCtorEq, false_or, true_and]
      by_cases hadmin : target ∉ s.holders (roleId :: roleIds)
      · simp only [if_pos hadmin]
        exact ⟨_, _, onDone false, .inl ⟨.inl hadmin, rfl⟩, fun _ => rfl⟩
      by_cases hothers : (s.holders (roleId :: roleIds)).filter (· ≠ target) = []
      · simp only [if_neg hadmin, if_pos hothers]
        exact ⟨_, _, onDone true, .inr ⟨fun h => h.elim hadmin fun h => h.1 hothers, .inl rfl⟩,
          fun _ => rfl⟩
      generalize (s.holders (roleId :: roleIds)).filter (· ≠ target) = others at hothers ⊢
      simp only [if_neg hadmin, if_neg hothers, outcome_call, hnow, hcount]
      cases hcounted : (outcomes (.countActive others (outcomes .nowSeconds).now)).fails with
      | true => exact ⟨_, _, onError, .inr ⟨by simp [hadmin], .inr rfl⟩, fun _ => rfl⟩
      | false =>
        by_cases hzero : s.countActive others (outcomes .nowSeconds).now = 0
        · exact ⟨_, _, onDone true, .inr ⟨by simp [hadmin, hzero], .inl rfl⟩,
            fun _ => by simp [hzero]; rfl⟩
        · exact ⟨_, _, onDone false, .inl ⟨.inr ⟨hothers, rfl, hzero⟩, rfl⟩,
            fun _ => by simp [hzero]; rfl⟩

/-! ### The inserts -/

/-- No pending role has been inserted, and none is pending twice. -/
structure Pending (userId : Int) (pending : List (Int × String)) (s : IdentityStore) : Prop where
  fresh : ∀ role ∈ pending, role.1 ∉ storedRoles s userId
  nodup : (pending.map Prod.fst).Nodup

def inserted (outcomes : Outcomes) (userId : Int) (pending : List (Int × String)) :
    List (Int × String) :=
  pending.filter fun role => !insertFails outcomes userId role.1

/-- What becomes of the inserts that are pending: those that do not fail are stored, and the last
one to complete replies. -/
structure Completed (outcomes : Outcomes) (userId : Int) (pending : List (Int × String))
    (assigned : List String) (s : IdentityStore) (r : UserReply × IdentityStore) : Prop where
  stored : storedRoles r.2 userId =
    storedRoles s userId ∪ { roleId | roleId ∈ (inserted outcomes userId pending).map Prod.fst }
  reply : (∃ last ∈ pending, insertFails outcomes userId last.1 = false ∧
      ∃ roles, r.1 = .rolesUpdated roles ∧
        roles.Perm (assigned ++ (inserted outcomes userId pending).map Prod.snd)) ∨
    ∃ last ∈ pending, insertFails outcomes userId last.1 = true ∧
      r.1 = .error "DB_QUERY_ERROR" "Failed to assign some roles: "

/-- The tables after one insert. -/
def afterInsert (outcomes : Outcomes) (userId roleId : Int) (s : IdentityStore) : IdentityStore :=
  { s with
    userRoles := if insertFails outcomes userId roleId then s.userRoles
      else s.userRoles ++ [(userId, roleId)]
    clock := (outcomes (.insertRole userId roleId)).now }

theorem execute_insertRole {roleId : Int} (hfresh : roleId ∉ storedRoles s userId) (c : Nat) :
    execute outcomes c (.insertRole userId roleId) s =
      (!insertFails outcomes userId roleId, afterInsert outcomes userId roleId s) := by
  have hnew : (userId, roleId) ∉ s.userRoles := hfresh
  simp only [execute, IdentityStore.exec, IdentityStore.statement, afterInsert, insertFails, hnew,
    or_false]
  split
  · rename_i hfails
    simp [hfails]
  · rename_i hfails
    simp [hfails]

theorem storedRoles_afterInsert {role : Int × String} :
    storedRoles (afterInsert outcomes userId role.1 s) userId = storedRoles s userId ∪
      { roleId | roleId ∈ (inserted outcomes userId [role]).map Prod.fst } := by
  ext roleId
  simp only [storedRoles, Set.mem_union, Set.mem_ofPred_eq]
  cases hfails : insertFails outcomes userId role.1 <;> simp [afterInsert, inserted, hfails]

theorem Pending.perm {pending pending' : List (Int × String)} (h : Pending userId pending s)
    (hperm : pending.Perm pending') : Pending userId pending' s :=
  ⟨fun role hmem => h.fresh role (hperm.mem_iff.mpr hmem), (hperm.map _).nodup_iff.mp h.nodup⟩

theorem Pending.tail {role : Int × String} {pending : List (Int × String)}
    (h : Pending userId (role :: pending) s) :
    Pending userId pending (afterInsert outcomes userId role.1 s) := by
  have hnodup := List.nodup_cons.mp h.nodup
  refine ⟨?_, hnodup.2⟩
  intro other hmem hstored
  rw [storedRoles_afterInsert] at hstored
  rcases hstored with hstored | hinserted
  · exact h.fresh other (List.mem_cons_of_mem _ hmem) hstored
  · obtain ⟨role', hrole', heq⟩ := List.mem_map.mp hinserted
    obtain rfl := List.mem_singleton.mp (List.mem_filter.mp hrole').1
    exact hnodup.1 (heq ▸ List.mem_map_of_mem hmem)

variable (outcomes order) in
/-- One insert completes. -/
theorem insertRoles_step {pending : List (Int × String)} (hlength : pending.length = n + 1)
    (m : Nat) (assigned : List String) (s : IdentityStore) (hpending : Pending userId pending s) :
    ∃ role, (role :: pending.eraseIdx (order m % pending.length)).Perm pending ∧
      pending[order m % pending.length]? = some role ∧
      outcome outcomes order m (insertRoles userId n pending assigned) s =
        let assigned' := assigned ++ (inserted outcomes userId [role]).map Prod.snd
        match n with
        | 0 =>
          (if insertFails outcomes userId role.1 then
              .error "DB_QUERY_ERROR" "Failed to assign some roles: "
            else .rolesUpdated assigned', afterInsert outcomes userId role.1 s)
        | n + 1 =>
          outcome outcomes order (m + 2) (insertRoles userId n
            (pending.eraseIdx (order m % pending.length)) assigned')
            (afterInsert outcomes userId role.1 s) := by
  have hlt : order m % pending.length < pending.length := Nat.mod_lt _ (by omega)
  have hget : pending[order m % pending.length]? = some pending[order m % pending.length] :=
    List.getElem?_eq_getElem hlt
  have hfresh := hpending.fresh _ (List.getElem_mem hlt)
  refine ⟨_, List.getElem_cons_eraseIdx_perm hlt, hget, ?_⟩
  generalize pending[order m % pending.length] = role at hget hfresh ⊢
  have hinsert : ∀ c, execute outcomes c (.insertRole userId role.1)
      { s with clock := (outcomes .choose).now } =
      (!insertFails outcomes userId role.1, afterInsert outcomes userId role.1 s) :=
    execute_insertRole hfresh
  have hchoose : execute outcomes (order m) .choose s =
    (order m, { s with clock := (outcomes .choose).now }) := rfl
  have hassigned :
      (if !insertFails outcomes userId role.1 then assigned ++ [role.2] else assigned) =
        assigned ++ (inserted outcomes userId [role]).map Prod.snd := by
    cases hfails : insertFails outcomes userId role.1 <;> simp [inserted, hfails]
  rw [insertRoles]
  simp only [outcome_call, hchoose, hget, hinsert, hassigned]
  cases n with
  | zero => cases insertFails outcomes userId role.1 <;> rfl
  | succ n => rfl

theorem inserted_cons (role : Int × String) (pending : List (Int × String)) :
    inserted outcomes userId (role :: pending) =
      inserted outcomes userId [role] ++ inserted outcomes userId pending :=
  List.filter_append [role] pending

section Completed

variable {pending pending' : List (Int × String)} {assigned : List String} {role : Int × String}
  {r : UserReply × IdentityStore}

theorem Completed.perm (h : Completed outcomes userId pending assigned s r)
    (hperm : pending.Perm pending') : Completed outcomes userId pending' assigned s r := by
  have hinserted : (inserted outcomes userId pending).Perm (inserted outcomes userId pending') :=
    hperm.filter _
  refine ⟨?_, ?_⟩
  · rw [h.stored]
    ext roleId
    simp only [Set.mem_union, Set.mem_ofPred_eq, (hinserted.map Prod.fst).mem_iff]
  · obtain ⟨last, hlast, hfails, roles, hreply, hroles⟩ | ⟨last, hlast, hfails, hreply⟩ := h.reply
    · exact .inl ⟨last, hperm.mem_iff.mp hlast, hfails, roles, hreply,
        hroles.trans ((hinserted.map Prod.snd).append_left assigned)⟩
    · exact .inr ⟨last, hperm.mem_iff.mp hlast, hfails, hreply⟩

theorem Completed.cons (h : Completed outcomes userId pending
    (assigned ++ (inserted outcomes userId [role]).map Prod.snd)
    (afterInsert outcomes userId role.1 s) r) :
    Completed outcomes userId (role :: pending) assigned s r := by
  refine ⟨?_, ?_⟩
  · rw [h.stored, storedRoles_afterInsert, inserted_cons role pending, Set.union_assoc]
    ext roleId
    simp only [Set.mem_union, Set.mem_ofPred_eq, List.map_append, List.mem_append]
  · rw [inserted_cons role pending, List.map_append, ← List.append_assoc]
    obtain ⟨last, hlast, hreply⟩ | ⟨last, hlast, hreply⟩ := h.reply
    · exact .inl ⟨last, List.mem_cons_of_mem _ hlast, hreply⟩
    · exact .inr ⟨last, List.mem_cons_of_mem _ hlast, hreply⟩

theorem completed_single : Completed outcomes userId [role] assigned s
    (if insertFails outcomes userId role.1 then
        .error "DB_QUERY_ERROR" "Failed to assign some roles: "
      else .rolesUpdated (assigned ++ (inserted outcomes userId [role]).map Prod.snd),
      afterInsert outcomes userId role.1 s) := by
  refine ⟨storedRoles_afterInsert, ?_⟩
  cases hfails : insertFails outcomes userId role.1 with
  | true => exact .inr ⟨role, List.mem_singleton_self _, hfails, rfl⟩
  | false => exact .inl ⟨role, List.mem_singleton_self _, hfails, _, rfl, List.Perm.refl _⟩

end Completed

/-- In every order all inserts are executed, and one of them completes last. -/
theorem completed_insertRoles {pending : List (Int × String)} (hlength : pending.length = n + 1)
    (m : Nat) (assigned : List String) (s : IdentityStore) (hpending : Pending userId pending s) :
    Completed outcomes userId pending assigned s
      (outcome outcomes order m (insertRoles userId n pending assigned) s) := by
  induction n generalizing pending m assigned s with
  | zero =>
    obtain ⟨role, hperm, hget, hrun⟩ :=
      insertRoles_step outcomes order hlength m assigned s hpending
    obtain ⟨only, rfl⟩ := List.length_eq_one_iff.mp hlength
    rw [hrun]
    have hrole : role = only := by simpa [Nat.mod_one] using hget.symm
    subst hrole
    exact completed_single
  | succ n ih =>
    obtain ⟨role, hperm, hget, hrun⟩ :=
      insertRoles_step outcomes order hlength m assigned s hpending
    rw [hrun]
    have hleft : (pending.eraseIdx (order m % pending.length)).length = n + 1 := by
      have := hperm.length_eq
      rw [List.length_cons] at this
      omega
    exact ((ih hleft _ _ _ (hpending.perm hperm.symm).tail).cons).perm hperm

/-- An order that completes the pending insert number `i` last: first what stands before it, then
what stands behind it. -/
structure CompletesLast (order : Nat → Nat) (m i : Nat) : Prop where
  before : ∀ k, m ≤ k → k < m + 2 * i → order k = 0
  behind : ∀ k, m + 2 * i ≤ k → order k = 1

theorem completesLast (m i : Nat) :
    CompletesLast (fun k => if k < m + 2 * i then 0 else 1) m i :=
  ⟨fun _ _ hlt => if_pos hlt, fun _ hle => if_neg (by omega)⟩

theorem insertRoles_last {pending : List (Int × String)} {i m : Nat} {role : Int × String}
    (hlength : pending.length = n + 1) (hrole : pending[i]? = some role)
    (hfails : insertFails outcomes userId role.1 = false) (horder : CompletesLast order m i)
    (assigned : List String) (s : IdentityStore) (hpending : Pending userId pending s) :
    isError (outcome outcomes order m (insertRoles userId n pending assigned) s).1 = false := by
  induction n generalizing pending i m assigned s with
  | zero =>
    obtain ⟨first, hperm, hget, hrun⟩ :=
      insertRoles_step outcomes order hlength m assigned s hpending
    obtain ⟨only, rfl⟩ := List.length_eq_one_iff.mp hlength
    obtain rfl : first = only := by simpa [Nat.mod_one] using hget.symm
    obtain rfl : role = first := by
      have := List.mem_of_getElem? hrole
      exact List.mem_singleton.mp this
    rw [hrun, hfails]
    rfl
  | succ n ih =>
    obtain ⟨first, hperm, hget, hrun⟩ :=
      insertRoles_step outcomes order hlength m assigned s hpending
    rw [hrun]
    have hleft : (pending.eraseIdx (order m % pending.length)).length = n + 1 := by
      have := hperm.length_eq
      rw [List.length_cons] at this
      omega
    have htail : Pending userId _ (afterInsert outcomes userId first.1 s) :=
      (hpending.perm hperm.symm).tail
    cases i with
    | zero =>
      have hchoice : order m % pending.length = 1 := by
        rw [horder.behind m (by omega), hlength]
        exact Nat.mod_eq_of_lt (by omega)
      have hnext : CompletesLast order (m + 2) 0 :=
        ⟨fun k _ _ => by omega, fun k hle => horder.behind k (by omega)⟩
      refine ih hleft ?_ hnext _ _ htail
      rw [hchoice, List.getElem?_eraseIdx_of_lt (by omega), hrole]
    | succ i =>
      have hchoice : order m % pending.length = 0 := by
        rw [horder.before m (by omega) (by omega), Nat.zero_mod]
      have hnext : CompletesLast order (m + 2) i :=
        ⟨fun k hle hlt => horder.before k (by omega) (by omega),
          fun k hle => horder.behind k (by omega)⟩
      refine ih hleft ?_ hnext _ _ htail
      rw [hchoice, List.getElem?_eraseIdx_of_ge (by omega), hrole]

/-! ### The request -/

theorem mem_map_rolesNamed {roleId : Int} :
    roleId ∈ (s.rolesNamed roleNames).map Prod.fst ↔ roleId ∈ existingRoles s roleNames := by
  simp only [List.mem_map, Prod.exists, exists_and_right, exists_eq_right, existingRoles,
    Set.mem_ofPred_eq, LastAdmin.mem_rolesNamed]
  constructor
  · intro h
    obtain ⟨name, hlookup, hname⟩ := h
    exact ⟨name, hname, hlookup⟩
  · intro h
    obtain ⟨name, hname, hlookup⟩ := h
    exact ⟨name, hlookup, hname⟩

theorem pending_rolesNamed (hnone : storedRoles s userId = ∅) :
    Pending userId (s.rolesNamed roleNames) s := by
  refine ⟨fun role _ => by simp [hnone], ?_⟩
  rw [IdentityStore.rolesNamed, List.map_map]
  exact s.roles.nodupKeys.sublist List.filter_sublist

/-- The tables when the roles of the user are cleared. -/
def cleared (userId now : Int) (s : IdentityStore) : IdentityStore :=
  { s with userRoles := s.userRoles.filter fun ur => ur.1 ≠ userId, clock := now }

theorem storedRoles_cleared (now : Int) : storedRoles (cleared userId now s) userId = ∅ := by
  ext roleId
  simp [storedRoles, cleared]

theorem outcome_proceedWithAssign (m : Nat) (clock : Int) :
    outcome outcomes order m (proceedWithAssign userId roleNames) { s with clock } =
      if (outcomes (.deleteRoles userId)).fails then
        (.error "DB_QUERY_ERROR" "Failed to clear existing roles: ",
          { s with clock := (outcomes (.deleteRoles userId)).now })
      else outcome outcomes order (m + 1) (insertNamed userId roleNames)
        (cleared userId (outcomes (.deleteRoles userId)).now s) := by
  have hdelete : execute outcomes (order m) (.deleteRoles userId) { s with clock } =
      if (outcomes (.deleteRoles userId)).fails then
        (false, { s with clock := (outcomes (.deleteRoles userId)).now })
      else (true, cleared userId (outcomes (.deleteRoles userId)).now s) := rfl
  simp only [proceedWithAssign, outcome_call, hdelete]
  cases (outcomes (.deleteRoles userId)).fails <;> rfl

/-- Whatever the order, the request clears the roles and goes on with looking the names up. -/
def GoesOn (outcomes : Outcomes) (userId : Int) (roleNames : List String)
    (s : IdentityStore) : Prop :=
  ∃ m now, ∀ order, assign outcomes order userId roleNames s =
    outcome outcomes order m (insertNamed userId roleNames) (cleared userId now s)

/-- Whatever the order, the request ends in one error and leaves the tables alone. -/
def Refused (outcomes : Outcomes) (userId : Int) (roleNames : List String)
    (s : IdentityStore) : Prop :=
  ∃ code detail clock, ∀ order,
    assign outcomes order userId roleNames s = (.error code detail, { s with clock })

theorem goesOn_or_refused {m : Nat} {clock : Int}
    (hfound : (outcomes (.findOne userId)).fails = false ∧
      ∃ u, s.users.lookup userId = some u ∧ u.deleted = false)
    (hguard : "admin" ∈ roleNames ∨ GuardPasses outcomes userId s)
    (hrun : ∀ order, assign outcomes order userId roleNames s =
      outcome outcomes order m (proceedWithAssign userId roleNames) { s with clock }) :
    Clears outcomes userId roleNames s ∧ GoesOn outcomes userId roleNames s ∨
      ¬Clears outcomes userId roleNames s ∧ Refused outcomes userId roleNames s := by
  cases hfails : (outcomes (.deleteRoles userId)).fails with
  | true =>
    refine .inr ⟨fun h => ?_, "DB_QUERY_ERROR", "Failed to clear existing roles: ",
      (outcomes (.deleteRoles userId)).now, fun order => ?_⟩
    · rw [h.cleared] at hfails
      cases hfails
    · rw [hrun, outcome_proceedWithAssign, if_pos hfails]
  | false =>
    refine .inl ⟨⟨hfound, hguard, hfails⟩, m + 1, (outcomes (.deleteRoles userId)).now,
      fun order => ?_⟩
    rw [hrun, outcome_proceedWithAssign, if_neg (by simp [hfails])]

theorem assign_cases (outcomes : Outcomes) (userId : Int) (roleNames : List String)
    (s : IdentityStore) :
    Clears outcomes userId roleNames s ∧ GoesOn outcomes userId roleNames s ∨
      ¬Clears outcomes userId roleNames s ∧ Refused outcomes userId roleNames s := by
  have hfind : ∀ c, execute outcomes c (.findOne userId) s =
      (if (outcomes (.findOne userId)).fails then none
        else (s.users.lookup userId).filter fun u => !u.deleted,
        { s with clock := (outcomes (.findOne userId)).now }) := fun _ => rfl
  have hrun : ∀ order, assign outcomes order userId roleNames s =
      outcome outcomes order 0 (assignUserRoles userId roleNames) s := fun _ => rfl
  simp only [assignUserRoles, outcome_call, hfind] at hrun
  by_cases hfound : (outcomes (.findOne userId)).fails = false ∧
      ∃ u, s.users.lookup userId = some u ∧ u.deleted = false
  · obtain ⟨u, hlookup, hdeleted⟩ := hfound.2
    have hrow : (s.users.lookup userId).filter (fun u => !u.deleted) = some u := by
      simp [hlookup, hdeleted]
    simp only [hfound.1, Bool.false_eq_true, if_false, hrow] at hrun
    by_cases hadmin : "admin" ∈ roleNames
    · simp only [if_pos hadmin] at hrun
      exact goesOn_or_refused hfound (.inl hadmin) hrun
    · simp only [if_neg hadmin] at hrun
      obtain ⟨m, clock, next, hnext, hguard⟩ := outcome_guard userId
        (fun lastAdmin => if lastAdmin then
            .ret (.error "VALIDATION_RESOURCE_CONFLICT"
              "Cannot remove the admin role from the last active admin")
          else proceedWithAssign userId roleNames)
        (guardFailed "Failed to evaluate last-admin guard") 1
        { s with clock := (outcomes (.findOne userId)).now }
      have hrun' := fun order => (hrun order).trans (hguard order)
      obtain ⟨hpasses, rfl⟩ | ⟨hstops, rfl | rfl⟩ := hnext
      · exact goesOn_or_refused hfound (.inr hpasses) hrun'
      · exact .inr ⟨fun h => h.guard.elim hadmin hstops, _, _, _, hrun'⟩
      · exact .inr ⟨fun h => h.guard.elim hadmin hstops, _, _, _, hrun'⟩
  · refine .inr ⟨fun h => hfound h.found, "VALIDATION_RESOURCE_NOT_FOUND", "User not found",
      (outcomes (.findOne userId)).now, fun order => (hrun order).trans ?_⟩
    have hnone : (if (outcomes (.findOne userId)).fails then none
        else (s.users.lookup userId).filter fun u => !u.deleted) = none := by
      split
      · rfl
      · rename_i hfails
        rw [Option.filter_eq_none_iff]
        intro u hlookup hdeleted
        exact hfound ⟨by simpa using hfails, u, hlookup, by simpa using hdeleted⟩
    rw [hnone]
    rfl

/-- What the inserts leave is what was asked for, nothing at all, or something between. -/
theorem stored_inserted_iff :
    (∀ roleId ∈ existingRoles s roleNames, insertFails outcomes userId roleId = false) ↔
      { roleId | roleId ∈ (inserted outcomes userId (s.rolesNamed roleNames)).map Prod.fst } =
        existingRoles s roleNames := by
  have hmem : ∀ roleId, roleId ∈ (inserted outcomes userId (s.rolesNamed roleNames)).map Prod.fst ↔
      roleId ∈ existingRoles s roleNames ∧ insertFails outcomes userId roleId = false := by
    intro roleId
    rw [← mem_map_rolesNamed]
    simp only [inserted, List.mem_map, List.mem_filter, Bool.not_eq_true']
    constructor
    · intro h
      obtain ⟨role, ⟨hrole, hstored⟩, rfl⟩ := h
      exact ⟨⟨role, hrole, rfl⟩, hstored⟩
    · intro h
      obtain ⟨⟨role, hrole, rfl⟩, hstored⟩ := h
      exact ⟨role, ⟨hrole, hstored⟩, rfl⟩
  constructor
  · intro h
    ext roleId
    rw [Set.mem_ofPred_eq, hmem]
    exact ⟨And.left, fun hrole => ⟨hrole, h roleId hrole⟩⟩
  · intro h roleId hrole
    rw [← h] at hrole
    exact ((hmem roleId).mp hrole).2

theorem insertNamed_cases (outcomes : Outcomes) (m : Nat) (userId : Int) (roleNames : List String)
    (s : IdentityStore) :
    (LookupFails outcomes roleNames ∧ ∃ detail clock, ∀ order,
        outcome outcomes order m (insertNamed userId roleNames) s =
          (.error "DB_QUERY_ERROR" detail, { s with clock })) ∨
      (¬LookupFails outcomes roleNames ∧ s.rolesNamed roleNames = [] ∧ ∃ clock, ∀ order,
        outcome outcomes order m (insertNamed userId roleNames) s =
          (.rolesUpdated [], { s with clock })) ∨
      (¬LookupFails outcomes roleNames ∧ ∃ n clock, (s.rolesNamed roleNames).length = n + 1 ∧
        ∀ order, outcome outcomes order m (insertNamed userId roleNames) s =
          outcome outcomes order (m + 1) (insertRoles userId n (s.rolesNamed roleNames) [])
            { s with clock }) := by
  have hfind : ∀ c, execute outcomes c (.findRoles roleNames) s =
      (if (outcomes (.findRoles roleNames)).fails then none else some (s.rolesNamed roleNames),
        { s with clock := (outcomes (.findRoles roleNames)).now }) := fun _ => rfl
  unfold insertNamed
  by_cases hnil : roleNames = []
  · subst hnil
    refine .inr (.inl ⟨fun h => h.1 rfl, ?_, s.clock, fun _ => rfl⟩)
    simp [IdentityStore.rolesNamed]
  simp only [if_neg hnil, outcome_call, hfind]
  cases hfails : (outcomes (.findRoles roleNames)).fails with
  | true =>
    exact .inl ⟨⟨hnil, hfails⟩, "Failed to resolve role names: ", _, fun _ => rfl⟩
  | false =>
    have hfound : ¬LookupFails outcomes roleNames := by simp [LookupFails, hfails]
    cases hresolved : s.rolesNamed roleNames with
    | nil => exact .inr (.inl ⟨hfound, rfl, _, fun _ => rfl⟩)
    | cons role resolved => exact .inr (.inr ⟨hfound, resolved.length, _, rfl, fun _ => rfl⟩)

theorem honest_of_all {now : Int} {assigned : List String} {r : UserReply × IdentityStore}
    (hcompleted :
      Completed outcomes userId (s.rolesNamed roleNames) assigned (cleared userId now s) r)
    (hall : ∀ roleId ∈ existingRoles s roleNames, insertFails outcomes userId roleId = false) :
    ∃ roles, r.1 = .rolesUpdated roles ∧
      roles.Perm (assigned ++
        (inserted outcomes userId (s.rolesNamed roleNames)).map Prod.snd) ∧
      storedRoles r.2 userId = existingRoles s roleNames := by
  have hstored := hcompleted.stored
  rw [storedRoles_cleared, Set.empty_union, stored_inserted_iff.mp hall] at hstored
  obtain ⟨-, -, -, roles, hreply, hperm⟩ | ⟨last, hlast, hfails, -⟩ := hcompleted.reply
  · exact ⟨roles, hreply, hperm, hstored⟩
  · rw [hall last.1 (mem_map_rolesNamed.mp (List.mem_map_of_mem hlast))] at hfails
    cases hfails

theorem honest_of_none {now : Int} {assigned : List String} {r : UserReply × IdentityStore}
    (hcompleted :
      Completed outcomes userId (s.rolesNamed roleNames) assigned (cleared userId now s) r)
    (hnone : ∀ roleId ∈ existingRoles s roleNames, insertFails outcomes userId roleId = true) :
    r.1 = .error "DB_QUERY_ERROR" "Failed to assign some roles: " ∧
      storedRoles r.2 userId = ∅ := by
  have hfails : ∀ role ∈ s.rolesNamed roleNames, insertFails outcomes userId role.1 = true :=
    fun role hrole => hnone role.1 (mem_map_rolesNamed.mp (List.mem_map_of_mem hrole))
  have hinserted : inserted outcomes userId (s.rolesNamed roleNames) = [] := by
    rw [inserted, List.filter_eq_nil_iff]
    intro role hrole
    simp [hfails role hrole]
  have hstored := hcompleted.stored
  rw [storedRoles_cleared, Set.empty_union, hinserted] at hstored
  refine ⟨?_, by simpa using hstored⟩
  obtain ⟨last, hlast, hstays, -⟩ | ⟨-, -, -, hreply⟩ := hcompleted.reply
  · rw [hfails last hlast] at hstays
    cases hstays
  · exact hreply

/-- Where one insert fails and another does not, an order that completes the other one last answers
success. -/
theorem all_of_honest {m : Nat} {now : Int} (hlength : (s.rolesNamed roleNames).length = n + 1)
    (hhonest : ∀ order, Honest userId roleNames s (outcome outcomes order m
      (insertRoles userId n (s.rolesNamed roleNames) []) (cleared userId now s))) :
    (∀ roleId ∈ existingRoles s roleNames, insertFails outcomes userId roleId = false) ∨
      storedRoles s userId = ∅ ∧
        ∀ roleId ∈ existingRoles s roleNames, insertFails outcomes userId roleId = true := by
  have hpending : Pending userId (s.rolesNamed roleNames) (cleared userId now s) :=
    pending_rolesNamed (storedRoles_cleared now)
  by_cases hnone : ∀ roleId ∈ existingRoles s roleNames, insertFails outcomes userId roleId = true
  · let order : Nat → Nat := fun _ => 0
    obtain ⟨hreply, hstored⟩ : (outcome outcomes order m _ _).1 = _ ∧ _ :=
      honest_of_none (completed_insertRoles hlength m [] _ hpending) hnone
    have herror := (hhonest order).error (by rw [hreply]; rfl)
    exact .inr ⟨herror.symm.trans hstored, hnone⟩
  · push Not at hnone
    obtain ⟨roleId, hrole, hstays⟩ := hnone
    obtain ⟨role, hmem, rfl⟩ := List.mem_map.mp (mem_map_rolesNamed.mpr hrole)
    obtain ⟨i, hi⟩ := List.getElem?_of_mem hmem
    have hsuccess := (hhonest _).success (insertRoles_last hlength hi (by simpa using hstays)
      (completesLast m i) [] _ hpending)
    rw [(completed_insertRoles hlength m [] _ hpending).stored, storedRoles_cleared,
      Set.empty_union] at hsuccess
    exact .inl (stored_inserted_iff.mpr hsuccess)

theorem SameAnswer.symm {reply reply' : UserReply} (h : SameAnswer reply reply') :
    SameAnswer reply' reply := by
  cases h with
  | refl => exact .refl _
  | listed hperm => exact .listed hperm.symm

theorem SameAnswer.trans {reply reply' reply'' : UserReply} (h : SameAnswer reply reply')
    (h' : SameAnswer reply' reply'') : SameAnswer reply reply'' := by
  cases h with
  | refl => exact h'
  | listed hperm =>
    cases h' with
    | refl => exact .listed hperm
    | listed hperm' => exact .listed (hperm.trans hperm')

theorem allOrNothing_of_honest {m : Nat} {now : Int}
    (hhonest : ∀ order, Honest userId roleNames s (outcome outcomes order m
      (insertNamed userId roleNames) (cleared userId now s))) :
    AllOrNothing outcomes userId roleNames s := by
  obtain ⟨hlookup, detail, clock, hrun⟩ | ⟨hlookup, hnone, -⟩ |
      ⟨hlookup, n, clock, hlength, hrun⟩ :=
    insertNamed_cases outcomes m userId roleNames (cleared userId now s)
  · refine ⟨fun _ => ?_, fun h => absurd hlookup h⟩
    have hstored := (hhonest fun _ => 0).error (by rw [hrun]; rfl)
    rw [hrun] at hstored
    exact hstored.symm.trans (storedRoles_cleared clock)
  · refine ⟨fun h => absurd h hlookup, fun _ => .inl fun roleId hrole => ?_⟩
    have hmem := mem_map_rolesNamed.mpr hrole
    change s.rolesNamed roleNames = [] at hnone
    rw [hnone] at hmem
    cases hmem
  · have hinserts : ∀ order, Honest userId roleNames s (outcome outcomes order (m + 1)
        (insertRoles userId n (s.rolesNamed roleNames) []) (cleared userId clock s)) :=
      fun order => (hrun order).symm ▸ hhonest order
    exact ⟨fun h => absurd h hlookup, fun _ => all_of_honest hlength hinserts⟩

/-- With everything or nothing inserted the reply is settled before the inserts complete. -/
theorem settled_of_allOrNothing (m : Nat) (now : Int)
    (h : AllOrNothing outcomes userId roleNames s) :
    ∃ reply, ∀ order, ∃ r, outcome outcomes order m (insertNamed userId roleNames)
        (cleared userId now s) = r ∧ SameAnswer reply r.1 ∧ Honest userId roleNames s r := by
  obtain ⟨hlookup, detail, clock, hrun⟩ | ⟨hlookup, hnone, clock, hrun⟩ |
      ⟨hlookup, n, clock, hlength, hrun⟩ :=
    insertNamed_cases outcomes m userId roleNames (cleared userId now s)
  · refine ⟨_, fun order => ⟨_, hrun order, .refl _, nofun, fun _ => ?_⟩⟩
    exact (storedRoles_cleared clock).trans (h.1 hlookup).symm
  · refine ⟨_, fun order => ⟨_, hrun order, .refl _, fun _ => ?_, nofun⟩⟩
    refine (storedRoles_cleared clock).trans ?_
    ext roleId
    rw [← mem_map_rolesNamed]
    change s.rolesNamed roleNames = [] at hnone
    simp [hnone]
  · have hcompleted : ∀ order, Completed outcomes userId (s.rolesNamed roleNames) []
        (cleared userId clock s) (outcome outcomes order (m + 1)
          (insertRoles userId n (s.rolesNamed roleNames) []) (cleared userId clock s)) :=
      fun _ => completed_insertRoles hlength (m + 1) [] _
        (pending_rolesNamed (storedRoles_cleared clock))
    obtain hall | ⟨hempty, hnone⟩ := h.2 hlookup
    · refine ⟨.rolesUpdated ((inserted outcomes userId (s.rolesNamed roleNames)).map Prod.snd),
        fun order => ⟨_, hrun order, ?_⟩⟩
      obtain ⟨roles, hreply, hperm, hstored⟩ := honest_of_all (hcompleted order) hall
      refine ⟨hreply.symm ▸ .listed hperm.symm, fun _ => hstored, fun herror => ?_⟩
      cases (congrArg isError hreply).symm.trans herror
    · refine ⟨.error "DB_QUERY_ERROR" "Failed to assign some roles: ",
        fun order => ⟨_, hrun order, ?_⟩⟩
      obtain ⟨hreply, hstored⟩ := honest_of_none (hcompleted order) hnone
      refine ⟨hreply.symm ▸ .refl _, fun hsuccess => ?_, fun _ => hstored.trans hempty.symm⟩
      cases (congrArg isError hreply).symm.trans hsuccess

/-- The assignment is atomic exactly when the clear is not reached, or everything after it succeeds,
or nothing does and the user had no role. -/
theorem assignUserRoles_atomic_iff (outcomes : Outcomes) (userId : Int) (roleNames : List String)
    (s : IdentityStore) :
    AtomicAssignment outcomes userId roleNames s ↔
      (Clears outcomes userId roleNames s → AllOrNothing outcomes userId roleNames s) := by
  obtain ⟨hclears, m, now, hrun⟩ | ⟨hclears, code, detail, clock, hrun⟩ :=
    assign_cases outcomes userId roleNames s
  · constructor
    · intro h _
      exact allOrNothing_of_honest fun order => hrun order ▸ h.honest order
    · intro h
      obtain ⟨reply, hreply⟩ := settled_of_allOrNothing m now (h hclears)
      have hsettled : ∀ order, SameAnswer reply (assign outcomes order userId roleNames s).1 ∧
          Honest userId roleNames s (assign outcomes order userId roleNames s) := by
        intro order
        obtain ⟨r, hr, hsettled⟩ := hreply order
        rw [hrun, hr]
        exact hsettled
      exact ⟨fun order => (hsettled order).2,
        fun order order' => (hsettled order).1.symm.trans (hsettled order').1⟩
  · refine ⟨fun _ h => absurd h hclears, fun _ => ⟨fun order => ?_, fun order order' => ?_⟩⟩
    · rw [hrun]
      exact ⟨nofun, fun _ => rfl⟩
    · rw [hrun, hrun]
      exact .refl _

/-! ### A request whose reply depends on the order -/

/-- The user holds the role `user`; the insert of `admin` fails. -/
def knownUser : IdentityStore where
  users :=
    AList.insert 7 { publicSub := "77777777-7777-4777-8777-777777777777", passwordHash := "" } ∅
  roles := AList.insert 1 "admin" (AList.insert 2 "auditor" (AList.insert 3 "user" ∅))
  userRoles := [(7, 3)]

def adminFails : Outcomes := fun op => { fails := decide (op = .insertRole 7 1) }

def knownAssignment (order : Nat → Nat) : UserReply × IdentityStore :=
  assign adminFails order 7 ["admin", "auditor"] knownUser

/-- Depending on the order the reply is success without the role `admin`, or an error after the old
role is gone. -/
theorem auditor_only :
    (knownAssignment fun _ => 0).1 = .rolesUpdated ["auditor"] ∧
    (knownAssignment fun _ => 1).1 =
      .error "DB_QUERY_ERROR" "Failed to assign some roles: " ∧
    (∀ order ∈ [0, 1], (knownAssignment fun _ => order).2.userRoles = [(7, 2)]) ∧
    ¬AtomicAssignment adminFails 7 ["admin", "auditor"] knownUser := by
  obtain ⟨hfirst, hsecond, hroles⟩ :
      (knownAssignment fun _ => 0).1 = .rolesUpdated ["auditor"] ∧
        (knownAssignment fun _ => 1).1 =
          .error "DB_QUERY_ERROR" "Failed to assign some roles: " ∧
        ∀ order ∈ [0, 1], (knownAssignment fun _ => order).2.userRoles = [(7, 2)] := by
    decide +kernel
  refine ⟨hfirst, hsecond, hroles, ?_⟩
  intro h
  have hstored := (h.honest fun _ => 0).success (congrArg isError hfirst)
  have hadmin : (1 : Int) ∈ existingRoles knownUser ["admin", "auditor"] :=
    ⟨"admin", by decide, by decide⟩
  rw [← hstored] at hadmin
  have hassigned : (7, 1) ∈ (knownAssignment fun _ => 0).2.userRoles := hadmin
  rw [hroles 0 List.mem_cons_self] at hassigned
  exact absurd hassigned (by decide)

end AuthForge.RoleAssignment
