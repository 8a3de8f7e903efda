import AuthForge.Admin.UserAdmin

/-!
# An active admin remains

The last-active-admin guard decides on three queries, and the write it protects is a later
statement. The result is about runs in which the guard, asked once more at the moment of such a
write, would still let it pass. An assignment that keeps the admin role is not guarded at all: it
clears the roles of the last active admin and puts them back, and between the two there is no
active admin. Nothing else may happen in that window.
-/

namespace AuthForge.LastAdmin

open Identity Admin
open Service hiding program

/-! ### Active admins -/

structure IsAdmin (s : IdentityStore) (user role : Int) : Prop where
  held : (user, role) ∈ s.userRoles
  named : s.roles.lookup role = some "admin"

def Active (s : IdentityStore) (user : Int) : Prop :=
  ∃ row, s.users.lookup user = some row ∧ row.deleted = false ∧ row.lockedUntil ≤ s.clock

def ActiveAdmin (s : IdentityStore) (user : Int) : Prop :=
  (∃ role, IsAdmin s user role) ∧ Active s user

def HasActiveAdmin (s : IdentityStore) : Prop := ∃ user, ActiveAdmin s user

/-- What the three queries of the guard say about the tables at one moment. -/
def lastActiveAdmin (s : IdentityStore) (target : Int) : Bool :=
  let adminIds := s.holders ((s.rolesNamed ["admin"]).map Prod.fst)
  target ∈ adminIds && s.countActive (adminIds.filter (· ≠ target)) s.clock = 0

variable {s : IdentityStore} {target : Int}

theorem mem_rolesNamed {names : List String} {role : Int} {name : String} :
    (role, name) ∈ s.rolesNamed names ↔ s.roles.lookup role = some name ∧ name ∈ names := by
  simp only [IdentityStore.rolesNamed, List.mem_map, List.mem_filter, decide_eq_true_eq]
  rw [← Option.mem_def, AList.mem_lookup_iff]
  constructor
  · intro h
    obtain ⟨e, ⟨hmem, hname⟩, heq⟩ := h
    obtain ⟨rfl, rfl⟩ := Prod.mk.inj heq
    exact ⟨hmem, hname⟩
  · intro h
    exact ⟨⟨role, name⟩, h, rfl⟩

theorem mem_adminIds {user : Int} :
    user ∈ s.holders ((s.rolesNamed ["admin"]).map Prod.fst) ↔ ∃ role, IsAdmin s user role := by
  simp only [IdentityStore.holders, List.mem_map, List.mem_filter, decide_eq_true_eq]
  constructor
  · intro h
    obtain ⟨⟨user', role⟩, ⟨hheld, ⟨role', name⟩, hnamed, rfl⟩, rfl⟩ := h
    obtain ⟨hlookup, hname⟩ := mem_rolesNamed.mp hnamed
    rw [List.mem_singleton.mp hname] at hlookup
    exact ⟨role', hheld, hlookup⟩
  · intro h
    obtain ⟨role, hrole⟩ := h
    exact ⟨(user, role), ⟨hrole.held, (role, "admin"),
      mem_rolesNamed.mpr ⟨hrole.named, List.mem_singleton_self _⟩, rfl⟩, rfl⟩

theorem countActive_eq_zero_iff {ids : List Int} :
    s.countActive ids s.clock = 0 ↔ ∀ user ∈ ids, ¬Active s user := by
  simp only [IdentityStore.countActive, List.countP_eq_zero, Bool.and_eq_true, decide_eq_true_eq,
    Bool.not_eq_true']
  constructor
  · intro h user hmem hactive
    obtain ⟨row, hlookup, hdeleted, hlocked⟩ := hactive
    exact h ⟨user, row⟩ (AList.mem_lookup_iff.mp hlookup) ⟨⟨hmem, hdeleted⟩, hlocked⟩
  · intro h e he hall
    obtain ⟨⟨hmem, hdeleted⟩, hlocked⟩ := hall
    exact h e.1 hmem ⟨e.2, AList.mem_lookup_iff.mpr he, hdeleted, hlocked⟩

theorem lastActiveAdmin_eq_false_iff :
    lastActiveAdmin s target = false ↔
      (∀ role, ¬IsAdmin s target role) ∨ ∃ user, user ≠ target ∧ ActiveAdmin s user := by
  rw [← Bool.not_eq_true, lastActiveAdmin, Bool.and_eq_true, decide_eq_true_eq, mem_adminIds,
    decide_eq_true_eq, countActive_eq_zero_iff, not_and_or, not_exists]
  refine or_congr Iff.rfl ?_
  constructor
  · intro h
    push Not at h
    obtain ⟨user, hmem, hactive⟩ := h
    rw [List.mem_filter, mem_adminIds] at hmem
    exact ⟨user, by simpa using hmem.2, hmem.1, hactive⟩
  · intro h hall
    obtain ⟨user, hne, hadmin, hactive⟩ := h
    refine hall user ?_ hactive
    rw [List.mem_filter, mem_adminIds]
    exact ⟨hadmin, by simpa using hne⟩

theorem hasActiveAdmin_iff :
    HasActiveAdmin s ↔ s.countActive (s.holders ((s.rolesNamed ["admin"]).map Prod.fst)) s.clock ≠ 0 := by
  rw [ne_eq, countActive_eq_zero_iff]
  constructor
  · intro h hnone
    obtain ⟨user, hadmin, hactive⟩ := h
    exact hnone user (mem_adminIds.mpr hadmin) hactive
  · intro h
    push Not at h
    obtain ⟨user, hmem, hactive⟩ := h
    exact ⟨user, mem_adminIds.mp hmem, hactive⟩

instance : Decidable (HasActiveAdmin s) := decidable_of_iff _ hasActiveAdmin_iff.symm

/-- The guard asked alone, without a failing query, answers what the tables say. -/
theorem eval_isLastActiveAdmin (s : IdentityStore) (target now : Int) (n : Nat)
    (reply : Bool → UserReply) (onError : UserProg) :
    (Prog.eval IdentityStore.exec (fun _ => { now }) n
      (isLastActiveAdmin target (fun lastAdmin => .ret (reply lastAdmin)) onError) s).1 =
      reply (lastActiveAdmin { s with clock := now } target) := by
  set s' : IdentityStore := { s with clock := now } with hs'
  have hroles : IdentityStore.exec { now } .findAdminRoles s =
      (some ((s'.rolesNamed ["admin"]).map Prod.fst), s') := rfl
  unfold isLastActiveAdmin
  simp only [Prog.eval, hroles, lastActiveAdmin]
  cases hids : (s'.rolesNamed ["admin"]).map Prod.fst with
  | nil => simp [Prog.eval, IdentityStore.holders]
  | cons roleId roleIds =>
    have hholders : IdentityStore.exec { now } (.findRoleHolders (roleId :: roleIds)) s' =
        (some (s'.holders (roleId :: roleIds)), s') := rfl
    simp only [Prog.eval, hholders]
    by_cases hadmin : target ∈ s'.holders (roleId :: roleIds)
    · by_cases hothers : (s'.holders (roleId :: roleIds)).filter (· ≠ target) = []
      · have hzero : s'.countActive [] s'.clock = 0 := by simp [IdentityStore.countActive]
        simp only [hadmin, not_true_eq_false, if_false, if_true, hothers, Prog.eval, hzero,
          decide_true, Bool.true_and]
      · simp only [hadmin, not_true_eq_false, if_false, hothers, Prog.eval, decide_true,
          Bool.true_and]
        rfl
    · simp [hadmin, Prog.eval]

/-! ### What a statement does to the admins -/

variable {env : StatementEnv} {op : UserCall}

theorem clock_exec : (IdentityStore.exec env op s).2.clock = env.now := by
  cases op <;> simp only [IdentityStore.exec, IdentityStore.statement] <;> split <;> rfl

/-- The update takes the user out of the active ones: it deletes the user or locks the user beyond
`now`. -/
def removes (now : Int) (c : Changes) : Bool := c.deleted || c.lockedUntil.any fun t => now < t

/-- The user whom the executed statement may take out of the active admins. -/
def removed (env : StatementEnv) (op : UserCall) : Option Int :=
  if env.fails then none
  else
    match op with
    | .update target c => if removes env.now c then some target else none
    | .deleteRoles target => some target
    | _ => none

def isUpdate : UserCall → Bool
  | .update _ _ => true
  | _ => false

theorem active_exec {user : Int} (h : Active s user) (hclock : s.clock ≤ env.now)
    (hremoved : isUpdate op = true → removed env op ≠ some user) :
    Active (IdentityStore.exec env op s).2 user := by
  obtain ⟨row, hlookup, hdeleted, hlocked⟩ := h
  refine ⟨IdentityStore.written env op user row, ?_, ?_⟩
  · rw [IdentityStore.lookup_exec, hlookup]
    rfl
  rw [clock_exec]
  have hkept : row.deleted = false ∧ row.lockedUntil ≤ env.now := ⟨hdeleted, hlocked.trans hclock⟩
  unfold IdentityStore.written
  split
  · rename_i userId c
    split
    · rename_i hexecuted
      obtain ⟨hfails, rfl⟩ := hexecuted
      have hkeeps : removes env.now c = false := by
        simpa [removed, hfails] using hremoved rfl
      simp only [removes, Bool.or_eq_false_iff] at hkeeps
      refine ⟨?_, ?_⟩
      · change (c.deleted || row.deleted) = false
        rw [hkeeps.1, hdeleted]
        rfl
      · change c.lockedUntil.getD row.lockedUntil ≤ env.now
        cases hset : c.lockedUntil with
        | none => exact hkept.2
        | some t =>
          have := hkeeps.2
          rw [hset] at this
          simpa using this
    · exact hkept
  · exact hkept

theorem isAdmin_exec {user role : Int} (h : IsAdmin s user role)
    (hremoved : op = .deleteRoles user → removed env op ≠ some user) :
    IsAdmin (IdentityStore.exec env op s).2 user role := by
  refine ⟨?_, by rw [IdentityStore.roles_exec]; exact h.named⟩
  cases op with
  | deleteRoles target =>
    simp only [IdentityStore.exec, IdentityStore.statement]
    split
    · exact h.held
    · rename_i hfails
      refine List.mem_filter.mpr ⟨h.held, ?_⟩
      rw [decide_eq_true_eq]
      intro htarget
      subst htarget
      exact hremoved rfl (by simp [removed, hfails])
  | insertRole userId roleId =>
    simp only [IdentityStore.exec, IdentityStore.statement]
    split
    · exact h.held
    · exact List.mem_append_left _ h.held
  | update userId c =>
    simp only [IdentityStore.exec, IdentityStore.statement]
    split <;> exact h.held
  | _ => exact h.held

theorem activeAdmin_exec {user : Int} (h : ActiveAdmin s user) (hclock : s.clock ≤ env.now)
    (hremoved : removed env op ≠ some user) :
    ActiveAdmin (IdentityStore.exec env op s).2 user := by
  obtain ⟨⟨role, hrole⟩, hactive⟩ := h
  exact ⟨⟨role, isAdmin_exec hrole fun _ => hremoved⟩, active_exec hactive hclock fun _ => hremoved⟩

/-- A statement that would still pass the guard leaves an active admin. -/
theorem hasActiveAdmin_exec (h : HasActiveAdmin s) (hclock : s.clock ≤ env.now)
    (hguard : ∀ target, removed env op = some target →
      lastActiveAdmin { s with clock := env.now } target = false) :
    HasActiveAdmin (IdentityStore.exec env op s).2 := by
  obtain ⟨user, hadmin⟩ := h
  by_cases hremoved : removed env op = some user
  · rcases lastActiveAdmin_eq_false_iff.mp (hguard user hremoved) with hnone | ⟨other, hne, hother⟩
    · obtain ⟨⟨role, hrole⟩, -⟩ := hadmin
      exact absurd ⟨hrole.held, hrole.named⟩ (hnone role)
    · refine ⟨other, activeAdmin_exec (s := { s with clock := env.now }) hother le_rfl ?_⟩
      rw [hremoved]
      intro heq
      exact hne (Option.some.inj heq).symm
  · exact ⟨user, activeAdmin_exec hadmin hclock hremoved⟩

/-! ### Putting the admin role back -/

/-- Executed without failures, what is left of the request gives the user an admin role. -/
def WillInsert (roles : Dict Int String) (user : Int) : UserProg → Prop
  | .call (.findRoles names) k => "admin" ∈ names ∧ ∀ resolved,
      (∃ role, (role, "admin") ∈ resolved ∧ roles.lookup role = some "admin") →
        WillInsert roles user (k (some resolved))
  | .call .choose k => ∀ c, WillInsert roles user (k c)
  | .call (.insertRole userId role) k => userId = user ∧
      (roles.lookup role = some "admin" ∨ ∀ ok, WillInsert roles user (k ok))
  | _ => False

variable {roles : Dict Int String} {user : Int}

theorem willInsert_insertRoles {n : Nat} {pending : List (Int × String)} {assigned : List String}
    {role : Int} (hlength : pending.length = n + 1) (hmem : (role, "admin") ∈ pending)
    (hrole : roles.lookup role = some "admin") :
    WillInsert roles user (insertRoles user n pending assigned) := by
  induction n generalizing pending assigned with
  | zero =>
    obtain ⟨first, rfl⟩ := List.length_eq_one_iff.mp hlength
    obtain rfl := List.mem_singleton.mp hmem
    unfold insertRoles
    intro c
    simp only [List.length_singleton, Nat.mod_one, List.getElem?_cons_zero]
    exact ⟨rfl, .inl hrole⟩
  | succ n ih =>
    unfold insertRoles
    intro c
    have hlt : c % pending.length < pending.length := Nat.mod_lt _ (by omega)
    simp only [List.getElem?_eq_getElem hlt]
    refine ⟨rfl, ?_⟩
    by_cases hchosen : pending[c % pending.length] = (role, "admin")
    · left
      rw [hchosen]
      exact hrole
    · right
      intro ok
      refine ih ?_ ?_
      · rw [List.length_eraseIdx_of_lt hlt]
        omega
      · obtain ⟨i, hi, hget⟩ := List.getElem_of_mem hmem
        refine List.mem_eraseIdx_iff_getElem.mpr ⟨i, hi, ?_, hget⟩
        intro heq
        subst heq
        exact hchosen hget

/-- An assignment that keeps the admin role puts it back. -/
theorem willInsert_insertNamed {roleNames : List String} (hkeeps : "admin" ∈ roleNames) :
    WillInsert roles user (insertNamed user roleNames) := by
  unfold insertNamed
  rw [if_neg (List.ne_nil_of_mem hkeeps)]
  refine ⟨hkeeps, ?_⟩
  intro resolved hresolved
  obtain ⟨role, hmem, hrole⟩ := hresolved
  cases resolved with
  | nil => cases hmem
  | cons first rest => exact willInsert_insertRoles rfl hmem hrole

/-! ### The course of an assignment -/

def isRefill : UserCall → Bool
  | .findRoles _ => true
  | .choose => true
  | .insertRole _ _ => true
  | _ => false

def isClear : UserCall → Bool
  | .deleteRoles _ => true
  | _ => false

/-- A program that is about to clear roles is the writing part of the assignment. -/
def ClearsFirst (user : Int) (roleNames : List String) (rest : UserProg) : Prop :=
  rest = proceedWithAssign user roleNames ∨ Prog.Next (fun op => isClear op = false) rest

theorem every_assignUserRoles {roleNames : List String} :
    (assignUserRoles user roleNames).Every (ClearsFirst user roleNames) := by
  have hassign : (proceedWithAssign user roleNames).Every (ClearsFirst user roleNames) := by
    refine ⟨.inl rfl, ?_⟩
    intro cleared
    cases cleared with
    | false => exact .inr trivial
    | true =>
      have honly : (insertNamed user roleNames).Only fun op => isClear op = false :=
        only_insertNamed rfl rfl fun _ => rfl
      refine honly.every ?_
      intro q hq
      cases q with
      | ret => exact .inr trivial
      | call op k => exact .inr hq.1
  refine ⟨.inr rfl, ?_⟩
  intro row
  rcases row with _ | row
  · exact .inr trivial
  dsimp only
  split
  · exact hassign
  refine every_isLastActiveAdmin ?_ ?_ (.inr trivial)
  · exact ⟨fun _ => .inr rfl, fun _ _ => .inr rfl, fun _ => .inr rfl, fun _ _ _ => .inr rfl⟩
  · intro lastAdmin
    split
    · exact .inr trivial
    · exact hassign

/-- An assignment that clears roles clears those of its user and inserts the named ones next. -/
theorem clearing_of_reached {roleNames : List String} {answers : List UserAnswer} {target : Int}
    {k : (UserCall.deleteRoles target).Resp → UserProg}
    (h : Prog.Reached (assignUserRoles user roleNames) answers (.call (.deleteRoles target) k)) :
    target = user ∧ k true = insertNamed user roleNames ∧ ∃ reply, k false = .ret reply := by
  rcases every_assignUserRoles.of_reached h with heq | hnext
  · cases heq
    exact ⟨rfl, rfl, _, rfl⟩
  · cases hnext

/-- After the clearing only lookups and inserts of roles are left. -/
theorem refills_of_cleared {roleNames : List String} {answers : List UserAnswer} {rest : UserProg}
    (h : Prog.Reached (assignUserRoles user roleNames) answers rest)
    (hcleared : answers.any (fun a => isClear a.op) = true) :
    rest.Only fun op => isRefill op = true := by
  obtain ⟨⟨op, r⟩, hmem, hclear⟩ := List.any_eq_true.mp hcleared
  cases op with
  | deleteRoles target =>
    obtain ⟨before, k, after, hbefore, hafter⟩ := h.of_mem hmem
    obtain ⟨rfl, htrue, reply, hfalse⟩ := clearing_of_reached hbefore
    refine (Prog.Only.of_reached hafter ?_).1
    cases r with
    | false =>
      rw [hfalse]
      trivial
    | true =>
      rw [htrue]
      exact only_insertNamed rfl rfl fun _ => rfl
  | _ => cases hclear

/-! ### Runs -/

def administers : UserRequest → Bool
  | .updateUser _ _ => true
  | .deleteUser _ _ => true
  | .disableUser _ => true
  | .assignUserRoles _ _ => true
  | .deleteAccount _ => true
  | _ => false

def keepsAdmin : UserRequest → Bool
  | .assignUserRoles _ roleNames => "admin" ∈ roleNames
  | _ => false

/-- The user whom the guard has to protect from the statement. -/
def protectedTarget (request : UserRequest) (env : StatementEnv) (op : UserCall) : Option Int :=
  if isClear op && keepsAdmin request then none else removed env op

variable {crypto : IdentityCrypto}

/-- The request keeps the admin role and has cleared the roles of its user. -/
def reassigning (t : Thread (service crypto)) : Bool :=
  keepsAdmin t.request && t.answers.any fun a => isClear a.op

/-- The clock does not go back. A protected statement is executed only while the guard would let it
pass; while there is no active admin only an assignment that puts the admin role back goes on, and
does not fail. -/
def heedsGuard (p : Pool (service crypto)) : Input StatementEnv UserRequest → Bool
  | .start request => administers request
  | .advance tid env =>
    p.shared.clock ≤ env.now &&
      match p.threads[tid]?, p.next tid with
      | some t, some op =>
        (protectedTarget t.request env op).all
          (fun target => !lastActiveAdmin { p.shared with clock := env.now } target) &&
        (HasActiveAdmin p.shared || (reassigning t && !env.fails))
      | _, _ => true

def GuardHeeded (crypto : IdentityCrypto) :
    Guard (Pool (service crypto)) (Input StatementEnv UserRequest) UserEvent :=
  fun _ p i => heedsGuard p i = true

instance (history : List UserEvent) (p : Pool (service crypto))
    (i : Input StatementEnv UserRequest) : Decidable (GuardHeeded crypto history p i) :=
  inferInstanceAs (Decidable (_ = true))

/-- Some assignment is about to put an admin role back for an active user. -/
def Refilling (p : Pool (service crypto)) : Prop :=
  ∃ (tid : Nat) (t : Thread (service crypto)) (user : Int), p.threads[tid]? = some t ∧
    WillInsert p.shared.roles user t.rest ∧ Active p.shared user ∧
    ∃ role, p.shared.roles.lookup role = some "admin"

variable {p : Pool (service crypto)} {tid : Nat} {t : Thread (service crypto)}
  {k : op.Resp → UserProg}

structure Heeded (p : Pool (service crypto)) (t : Thread (service crypto)) (env : StatementEnv)
    (op : UserCall) : Prop where
  clock : p.shared.clock ≤ env.now
  passes : ∀ target, protectedTarget t.request env op = some target →
    lastActiveAdmin { p.shared with clock := env.now } target = false
  alone : ¬HasActiveAdmin p.shared → reassigning t = true ∧ env.fails = false

theorem heeded_of_guard (h : heedsGuard p (.advance tid env) = true)
    (ht : p.threads[tid]? = some t) (hrest : t.rest = .call op k) : Heeded p t env op := by
  simp only [heedsGuard, ht, Pool.next_eq ht hrest, Bool.and_eq_true, decide_eq_true_eq,
    Bool.or_eq_true, Bool.not_eq_true'] at h
  obtain ⟨hclock, hpasses, halone⟩ := h
  refine ⟨hclock, ?_, ?_⟩
  · intro target htarget
    rw [htarget] at hpasses
    simpa using hpasses
  · intro hnone
    exact halone.resolve_left hnone

/-- Clearing the roles of a user by an assignment that keeps the admin role: another admin stays,
or the assignment is about to put the role back. -/
theorem kept_of_clear (hadmin : HasActiveAdmin p.shared) (hclock : p.shared.clock ≤ env.now)
    (ht : p.threads[tid]? = some t) {target : Int}
    {k : (UserCall.deleteRoles target).Resp → UserProg}
    (hrest : t.rest = .call (.deleteRoles target) k) (hkeeps : keepsAdmin t.request = true) :
    HasActiveAdmin (p.advanced tid env hrest).shared ∨ Refilling (p.advanced tid env hrest) := by
  obtain ⟨user, huser⟩ := hadmin
  by_cases hremoved : removed env (.deleteRoles target) = some user
  swap
  · exact .inl ⟨user, activeAdmin_exec huser hclock hremoved⟩
  right
  have hfails : env.fails = false := by
    cases hfails : env.fails with
    | false => rfl
    | true => simp [removed, hfails] at hremoved
  have htarget : target = user := by simpa [removed, hfails] using hremoved
  have hreached := t.reached
  rw [hrest] at hreached
  cases hrequest : t.request with
  | assignUserRoles userId roleNames =>
    rw [hrequest] at hreached hkeeps
    obtain ⟨hid, htrue, -⟩ := clearing_of_reached hreached
    obtain ⟨hlt, -⟩ := List.getElem?_eq_some_iff.mp ht
    have hresp : (IdentityStore.exec env (.deleteRoles target) p.shared).1 = true := by
      simp [IdentityStore.exec, IdentityStore.statement, hfails]
    subst hid
    subst htarget
    refine ⟨tid, _, target, List.getElem?_set_self hlt, ?_, ?_, ?_⟩
    · change WillInsert _ target (k (IdentityStore.exec env (.deleteRoles target) p.shared).1)
      rw [hresp, htrue]
      exact willInsert_insertNamed (by simpa [keepsAdmin] using hkeeps)
    · exact active_exec huser.2 hclock fun h => Bool.noConfusion h
    · obtain ⟨⟨role, hrole⟩, -⟩ := huser
      refine ⟨role, ?_⟩
      change (IdentityStore.exec env (.deleteRoles target) p.shared).2.roles.lookup role = _
      rw [IdentityStore.roles_exec]
      exact hrole.named
  | _ =>
    rw [hrequest] at hkeeps
    cases hkeeps

/-- The admins after the step, when there was an active one before. -/
theorem kept_of_active (hadmin : HasActiveAdmin p.shared) (hheeded : Heeded p t env op)
    (ht : p.threads[tid]? = some t) (hrest : t.rest = .call op k) :
    HasActiveAdmin (p.advanced tid env hrest).shared ∨ Refilling (p.advanced tid env hrest) := by
  by_cases hclears : (isClear op && keepsAdmin t.request) = true
  · rw [Bool.and_eq_true] at hclears
    cases op with
    | deleteRoles target => exact kept_of_clear hadmin hheeded.clock ht hrest hclears.2
    | _ => cases hclears.1
  · left
    refine hasActiveAdmin_exec hadmin hheeded.clock ?_
    intro target htarget
    refine hheeded.passes target ?_
    rw [protectedTarget, if_neg hclears]
    exact htarget

/-- The step of the assignment that puts the role back. -/
theorem kept_of_refill (hclock : p.shared.clock ≤ env.now) (hfails : env.fails = false)
    (ht : p.threads[tid]? = some t) (hrest : t.rest = .call op k)
    (hwill : WillInsert p.shared.roles user (.call op k)) (hactive : Active p.shared user)
    (hrole : ∃ role, p.shared.roles.lookup role = some "admin") :
    HasActiveAdmin (p.advanced tid env hrest).shared ∨ Refilling (p.advanced tid env hrest) := by
  obtain ⟨hlt, -⟩ := List.getElem?_eq_some_iff.mp ht
  have hroles : (IdentityStore.exec env op p.shared).2.roles = p.shared.roles := IdentityStore.roles_exec
  have hgoes : ∀ (_ : Active (IdentityStore.exec env op p.shared).2 user),
      WillInsert p.shared.roles user (k (IdentityStore.exec env op p.shared).1) →
      Refilling (p.advanced tid env hrest) := by
    intro hactive' hwill'
    refine ⟨tid, _, user, List.getElem?_set_self hlt, ?_, hactive', ?_⟩
    · change WillInsert (IdentityStore.exec env op p.shared).2.roles user _
      rw [hroles]
      exact hwill'
    · change ∃ role, (IdentityStore.exec env op p.shared).2.roles.lookup role = _
      rw [hroles]
      exact hrole
  cases op with
  | findRoles names =>
    right
    refine hgoes (active_exec hactive hclock fun h => Bool.noConfusion h) ?_
    have hresp : (IdentityStore.exec env (.findRoles names) p.shared).1 =
        some (({ p.shared with clock := env.now } : IdentityStore).rolesNamed names) := by
      simp [IdentityStore.exec, IdentityStore.statement, hfails]
    rw [hresp]
    obtain ⟨role, hnamed⟩ := hrole
    exact hwill.2 _ ⟨role, mem_rolesNamed.mpr ⟨hnamed, hwill.1⟩, hnamed⟩
  | choose =>
    right
    exact hgoes (active_exec hactive hclock fun h => Bool.noConfusion h) (hwill _)
  | insertRole userId role =>
    obtain ⟨rfl, hadmin | hlater⟩ := hwill
    · left
      refine ⟨userId, ⟨role, ?_, ?_⟩, active_exec hactive hclock fun h => Bool.noConfusion h⟩
      · change _ ∈ (IdentityStore.exec env (.insertRole userId role) p.shared).2.userRoles
        simp only [IdentityStore.exec, IdentityStore.statement, hfails, Bool.false_eq_true, false_or]
        split
        · assumption
        · simp
      · change (IdentityStore.exec env (.insertRole userId role) p.shared).2.roles.lookup role = _
        rw [hroles]
        exact hadmin
    · right
      exact hgoes (active_exec hactive hclock fun h => Bool.noConfusion h) (hlater _)
  | _ => exact hwill.elim

theorem isRefill_of_reassigning (hreassigning : reassigning t = true)
    (hrest : t.rest = .call op k) : isRefill op = true := by
  simp only [reassigning, Bool.and_eq_true] at hreassigning
  obtain ⟨hkeeps, hcleared⟩ := hreassigning
  have hreached := t.reached
  rw [hrest] at hreached
  cases hrequest : t.request with
  | assignUserRoles userId roleNames =>
    rw [hrequest] at hreached
    exact (refills_of_cleared hreached hcleared).1
  | _ =>
    rw [hrequest] at hkeeps
    cases hkeeps

/-- The admins after the step, when some assignment was about to put the role back. -/
theorem kept_of_refilling (hrefilling : Refilling p) (hclock : p.shared.clock ≤ env.now)
    (hfails : env.fails = false) (hreassigning : reassigning t = true)
    (ht : p.threads[tid]? = some t) (hrest : t.rest = .call op k) :
    HasActiveAdmin (p.advanced tid env hrest).shared ∨ Refilling (p.advanced tid env hrest) := by
  obtain ⟨tid₀, t₀, user, ht₀, hwill, hactive, hrole⟩ := hrefilling
  by_cases htid : tid = tid₀
  · subst htid
    obtain rfl := Option.some.inj (ht₀.symm.trans ht)
    rw [hrest] at hwill
    exact kept_of_refill hclock hfails ht hrest hwill hactive hrole
  · right
    have hrefill := isRefill_of_reassigning hreassigning hrest
    refine ⟨tid₀, t₀, user, ?_, ?_, ?_, ?_⟩
    · exact (List.getElem?_set_ne htid).trans ht₀
    · change WillInsert (IdentityStore.exec env op p.shared).2.roles user t₀.rest
      rw [IdentityStore.roles_exec]
      exact hwill
    · refine active_exec hactive hclock ?_
      intro hupdate
      cases op with
      | update => cases hrefill
      | _ => cases hupdate
    · change ∃ role, (IdentityStore.exec env op p.shared).2.roles.lookup role = _
      rw [IdentityStore.roles_exec]
      exact hrole

variable {s₀ : IdentityStore} {history : List UserEvent}

theorem kept_of_run (hadmin : HasActiveAdmin s₀)
    (hrun : (service crypto).machine.Run (GuardHeeded crypto) (start _ s₀) history p) :
    HasActiveAdmin p.shared ∨ Refilling p := by
  refine Machine.Run.invariant (fun _ p => HasActiveAdmin p.shared ∨ Refilling p) ?_ ?_ hrun
  · exact .inl hadmin
  · intro h q i _ hinv hguard
    change HasActiveAdmin (Service.step _ q i).1.shared ∨ Refilling (Service.step _ q i).1
    rcases step_cases q i with ⟨request, rfl, hs⟩ | ⟨tid, env, t, op, k, hrest, rfl, ht, hs⟩ | hs
    · rw [hs]
      refine hinv.imp_right ?_
      intro hrefilling
      obtain ⟨tid, t, user, ht, hrest⟩ := hrefilling
      obtain ⟨hlt, -⟩ := List.getElem?_eq_some_iff.mp ht
      exact ⟨tid, t, user, (List.getElem?_append_left hlt).trans ht, hrest⟩
    · rw [hs]
      have hheeded := heeded_of_guard hguard ht hrest
      by_cases hadmin : HasActiveAdmin q.shared
      · exact kept_of_active hadmin hheeded ht hrest
      · obtain ⟨hreassigning, hfails⟩ := hheeded.alone hadmin
        exact kept_of_refilling (hinv.resolve_left hadmin) hheeded.clock hfails hreassigning ht hrest
    · rw [hs]
      exact hinv

/-- In every run of administration requests that heeds the guard, with any pattern of failures, a
state in which no request is in progress has an active admin. -/
theorem active_admin_remains (crypto : IdentityCrypto) (s₀ : IdentityStore)
    (hadmin : HasActiveAdmin s₀) (history : List UserEvent) (p : Pool (service crypto))
    (hrun : (service crypto).machine.Run (GuardHeeded crypto) (start _ s₀) history p)
    (hquiet : ∀ t ∈ p.threads, t.finished = true) : HasActiveAdmin p.shared := by
  rcases kept_of_run hadmin hrun with h | hrefilling
  · exact h
  · obtain ⟨tid, t, user, ht, hwill, -, -⟩ := hrefilling
    obtain ⟨reply, hreply⟩ := Thread.exists_ret (hquiet t (List.mem_of_getElem? ht))
    rw [hreply] at hwill
    exact hwill.elim

/-! ### Runs of two admins -/

def knownCrypto : IdentityCrypto where
  sha256Hex _ := ""
  pbkdf2HmacSha256 _ _ _ _ := []
  hmacSha1 _ _ := []

def knownAdmins : IdentityStore where
  users := AList.insert 1 { publicSub := "11111111-1111-4111-8111-111111111111", passwordHash := "" }
    (AList.insert 2 { publicSub := "22222222-2222-4222-8222-222222222222", passwordHash := "" } ∅)
  roles := AList.insert 1 "admin" (AList.insert 2 "user" ∅)
  userRoles := [(1, 1), (2, 1)]

def steps (tid n : Nat) : List (Input StatementEnv UserRequest) :=
  List.replicate n (.advance tid { now := 100 })

def executed (inputs : List (Input StatementEnv UserRequest)) :
    List UserEvent × Pool (service knownCrypto) :=
  (service knownCrypto).machine.exec [] (start _ knownAdmins) inputs

/-- The second admin is disabled, the first one is refused, and the roles of the first are assigned
anew. -/
def disabledInTurn : List (Input StatementEnv UserRequest) :=
  .start (.disableUser 2) :: steps 0 6 ++ .start (.disableUser 1) :: steps 1 5 ++
    .start (.assignUserRoles 1 ["user", "admin"]) :: steps 2 7

theorem active_admin_remains_disabledInTurn :
    HasActiveAdmin knownAdmins ∧ HasActiveAdmin (executed disabledInTurn).2.shared ∧
    ((executed disabledInTurn).2.shared.users.lookup 2).map UserRow.lockedUntil =
      some kLockedForeverSentinel := by
  obtain ⟨hadmin, hguarded, hfinished, hlocked⟩ :
      HasActiveAdmin knownAdmins ∧
        (service knownCrypto).machine.Guarded (GuardHeeded knownCrypto) []
          (start _ knownAdmins) disabledInTurn ∧
        (∀ t ∈ (executed disabledInTurn).2.threads, t.finished = true) ∧
        ((executed disabledInTurn).2.shared.users.lookup 2).map UserRow.lockedUntil =
          some kLockedForeverSentinel := by
    decide +kernel
  refine ⟨hadmin, ?_, hlocked⟩
  exact active_admin_remains knownCrypto knownAdmins hadmin _ _
    (Machine.Run.exec_of_guarded .init disabledInTurn hguarded) hfinished

/-- Each of the two admins is disabled after a guard that still saw the other one. -/
def disabledAtOnce : List (Input StatementEnv UserRequest) :=
  .start (.disableUser 1) :: .start (.disableUser 2) :: steps 0 5 ++ steps 1 5 ++ steps 0 1 ++
    steps 1 1

theorem disabledAtOnce_no_admin :
    HasActiveAdmin knownAdmins ∧
    (service knownCrypto).machine.Run anyStep (start _ knownAdmins) (executed disabledAtOnce).1
      (executed disabledAtOnce).2 ∧
    (∀ t ∈ (executed disabledAtOnce).2.threads, administers t.request = true ∧ t.finished = true) ∧
    ¬HasActiveAdmin (executed disabledAtOnce).2.shared := by
  obtain ⟨hadmin, hfinished, hnone⟩ :
      HasActiveAdmin knownAdmins ∧
        (∀ t ∈ (executed disabledAtOnce).2.threads,
          administers t.request = true ∧ t.finished = true) ∧
        ¬HasActiveAdmin (executed disabledAtOnce).2.shared := by
    decide +kernel
  exact ⟨hadmin, Machine.run_exec _ _ _, hfinished, hnone⟩

end AuthForge.LastAdmin
