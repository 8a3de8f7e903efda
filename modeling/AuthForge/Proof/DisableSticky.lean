import AuthForge.Proof.FailedLogins

/-!
# A disabled user stays disabled

Disabling writes the locked-forever sentinel. A login that read the row before still resets or
increments the failure counter afterwards, and both write the lock as well. When no such login is
left over at the moment of the disabling update, every later login reads the sentinel and stops at
the lock check, so nothing writes the lock any more.
-/

namespace AuthForge.DisableSticky

open Identity Admin Statements
open Service hiding program

variable {crypto : IdentityCrypto} {u : Int}

/-! ### Writes of the lock -/

/-- The statement leaves the lock of the user alone or sets it to the sentinel. -/
def keepsLock (u : Int) : UserCall → Bool
  | .update userId c =>
    userId ≠ u || c.lockedUntil = none || c.lockedUntil = some kLockedForeverSentinel
  | _ => true

/-- The request is none of those that may unlock the user. -/
def permitted (u : Int) : UserRequest → Bool
  | .enableUser userId => userId ≠ u
  | .updateUser userId _ => userId ≠ u
  | _ => true

def isLogin : UserRequest → Bool
  | .validateUser _ _ => true
  | _ => false

theorem keepsLock_of_ne {userId : Int} (hne : userId ≠ u) (c : Changes) :
    keepsLock u (.update userId c) = true := by
  simp [keepsLock, hne]

theorem guardReads_keepsLock : GuardReads fun op => keepsLock u op = true :=
  ⟨rfl, fun _ => rfl, rfl, fun _ _ => rfl⟩

theorem only_proceedWithUpdate {userId : Int} {body : UserUpdate} (hne : userId ≠ u) :
    (proceedWithUpdate userId body).Only fun op => keepsLock u op = true := by
  refine ⟨keepsLock_of_ne hne _, ?_⟩
  intro ok
  cases ok <;> trivial

theorem only_updateUser {userId : Int} {body : UserUpdate} (hne : userId ≠ u) :
    (updateUser userId body).Only fun op => keepsLock u op = true := by
  unfold updateUser
  split
  · trivial
  refine ⟨rfl, ?_⟩
  intro row
  rcases row with _ | row
  · trivial
  dsimp only
  split
  · refine only_isLastActiveAdmin guardReads_keepsLock ?_ trivial
    intro lastAdmin
    split
    · trivial
    · exact only_proceedWithUpdate hne
  · exact only_proceedWithUpdate hne

theorem only_disableUser {P : UserCall → Prop} {userId : Int} (hreads : GuardReads P)
    (hfind : P (.findOne userId))
    (hupdate : P (.update userId { lockedUntil := some kLockedForeverSentinel })) :
    (disableUser userId).Only P := by
  refine ⟨hfind, ?_⟩
  intro row
  rcases row with _ | row
  · trivial
  refine only_isLastActiveAdmin hreads ?_ trivial
  intro lastAdmin
  split
  · trivial
  refine ⟨hupdate, ?_⟩
  intro ok
  cases ok <;> trivial

theorem only_enableUser {userId : Int} (hne : userId ≠ u) :
    (enableUser userId).Only fun op => keepsLock u op = true := by
  refine ⟨rfl, ?_⟩
  intro row
  rcases row with _ | row
  · trivial
  refine ⟨keepsLock_of_ne hne _, ?_⟩
  intro ok
  cases ok <;> trivial

theorem only_deleteUser {actorId : String} {userId : Int} :
    (deleteUser actorId userId).Only fun op => keepsLock u op = true := by
  refine ⟨rfl, ?_⟩
  intro row
  rcases row with _ | row
  · trivial
  dsimp only
  split
  · trivial
  refine only_isLastActiveAdmin guardReads_keepsLock ?_ trivial
  intro lastAdmin
  split
  · trivial
  refine ⟨by simp [keepsLock], ?_⟩
  intro ok
  cases ok with
  | false => trivial
  | true => exact ⟨rfl, fun _ => ⟨rfl, fun _ => trivial⟩⟩

theorem only_assignUserRoles {userId : Int} {roleNames : List String} :
    (assignUserRoles userId roleNames).Only fun op => keepsLock u op = true := by
  have hassign : (proceedWithAssign userId roleNames).Only fun op => keepsLock u op = true :=
    only_proceedWithAssign rfl rfl rfl fun _ => rfl
  refine ⟨rfl, ?_⟩
  intro row
  rcases row with _ | row
  · trivial
  dsimp only
  split
  · exact hassign
  refine only_isLastActiveAdmin guardReads_keepsLock ?_ trivial
  intro lastAdmin
  split
  · trivial
  · exact hassign

theorem only_deleteAccount {publicSub : String} :
    (deleteAccount publicSub).Only fun op => keepsLock u op = true := by
  refine ⟨rfl, ?_⟩
  intro users
  rcases users with _ | _ | ⟨user, users⟩
  · trivial
  · trivial
  refine only_isLastActiveAdmin guardReads_keepsLock ?_ trivial
  intro lastAdmin
  split
  · trivial
  refine only_proceedWithDelete rfl rfl rfl rfl ?_
  intro id c _ hlocked
  simp [keepsLock, hlocked]

/-- No permitted request other than a login ever unlocks the user. -/
theorem only_program {request : UserRequest} (hpermitted : permitted u request = true)
    (hlogin : isLogin request = false) :
    (program crypto request).Only fun op => keepsLock u op = true := by
  cases request with
  | validateUser identifier password => cases hlogin
  | updateUser userId body => exact only_updateUser (by simpa [permitted] using hpermitted)
  | deleteUser actorId userId => exact only_deleteUser
  | disableUser userId =>
    exact only_disableUser guardReads_keepsLock rfl (by simp [keepsLock])
  | enableUser userId => exact only_enableUser (by simpa [permitted] using hpermitted)
  | assignUserRoles userId roleNames => exact only_assignUserRoles
  | deleteAccount publicSub => exact only_deleteAccount

/-! ### Logins after the disabling -/

/-- What is left of the request cannot unlock a user whose row shows the sentinel. -/
inductive Calm (crypto : IdentityCrypto) (u : Int) : UserProg → Prop
  | only {rest : UserProg} (h : rest.Only fun op => keepsLock u op = true) : Calm crypto u rest
  | login {identifier password : String} : Calm crypto u (validateUser crypto identifier password)
  | found {password : String} {user : UserRow} (h : user.lockedUntil = kLockedForeverSentinel) :
      Calm crypto u (onFound crypto password u user)

theorem only_found_other {password : String} {id : Int} {user : UserRow} (hne : id ≠ u) :
    (onFound crypto password id user).Only fun op => keepsLock u op = true :=
  only_onFound rfl rfl rfl rfl fun c => keepsLock_of_ne hne c

theorem Calm.keepsLock {op : UserCall} {k : op.Resp → UserProg}
    (h : Calm crypto u (.call op k)) : keepsLock u op = true := by
  generalize hrest : Prog.call op k = rest at h
  cases h with
  | only h =>
    subst hrest
    exact h.1
  | login =>
    cases hrest
    rfl
  | found h =>
    cases hrest
    rfl

/-- Calm requests stay calm while the row shows the sentinel and its time has not come. -/
theorem Calm.next {op : UserCall} {k : op.Resp → UserProg} (h : Calm crypto u (.call op k))
    {s : IdentityStore} {row : UserRow} (hrow : s.users.lookup u = some row)
    (hlocked : row.lockedUntil = kLockedForeverSentinel) {env : StatementEnv}
    (hnow : env.now < kLockedForeverSentinel) :
    Calm crypto u (k (IdentityStore.exec env op s).1) := by
  generalize hrest : Prog.call op k = rest at h
  cases h with
  | only h =>
    subst hrest
    exact .only (h.2 _)
  | login =>
    cases hrest
    generalize hfound : (IdentityStore.exec env (.findLogin _) s).1 = found
    rcases found with _ | ⟨id, user⟩
    · exact .only trivial
    by_cases hid : id = u
    · subst hid
      change (if env.fails then none else _) = _ at hfound
      split at hfound
      · cases hfound
      obtain ⟨hlookup, -⟩ := IdentityStore.findUnique_eq_some hfound
      obtain rfl := Option.some.inj (hlookup.symm.trans hrow)
      exact .found hlocked
    · exact .only (only_found_other hid)
  | found h =>
    cases hrest
    change Calm crypto u (if _ > env.now then _ else _)
    rw [h, if_pos hnow]
    exact .only trivial

/-- A login that has not found the user either has not looked yet or never touches the user. -/
theorem calm_of_unfound {identifier password : String} {answers : List UserAnswer}
    {rest : UserProg}
    (h : Prog.Reached (validateUser crypto identifier password) answers rest)
    (hunfound : ∀ user, ⟨.findLogin identifier, some (u, user)⟩ ∉ answers) : Calm crypto u rest := by
  rcases Prog.reached_call_iff.mp h with ⟨-, rfl⟩ | ⟨found, later, rfl, hlater⟩
  · exact .login
  rcases found with _ | ⟨id, user⟩
  · obtain ⟨-, rfl⟩ := Prog.reached_ret_iff.mp hlater
    exact .only trivial
  · have hne : id ≠ u := by
      intro hid
      subst hid
      exact hunfound user List.mem_cons_self
    exact .only (Prog.Only.of_reached hlater (only_found_other hne)).1

/-! ### Runs -/

/-- The login has found the user. -/
def hasFound (u : Int) (answers : List UserAnswer) : Prop :=
  ∃ identifier user, ⟨.findLogin identifier, some (u, user)⟩ ∈ answers

def Disables (u : Int) (e : UserEvent) : Prop :=
  ∃ tid env c, e = .called tid (.disableUser u) env ⟨.update u c, true⟩

/-- No login that has found the user has a write of the lock left. -/
def Settled (u : Int) (p : Pool (service crypto)) : Prop :=
  ∀ t ∈ p.threads, isLogin t.request = true → hasFound u t.answers →
    t.rest.Only fun op => keepsLock u op = true

/-- The update of a disabling of the user is executed by the step. -/
def disablesNext (u : Int) (p : Pool (service crypto)) (tid : Nat) (env : StatementEnv) : Prop :=
  env.fails = false ∧ (∃ c, p.next tid = some (.update u c)) ∧
    ∃ t, p.threads[tid]? = some t ∧ t.request = .disableUser u

def DisabledSettled (crypto : IdentityCrypto) (u : Int) :
    Guard (Pool (service crypto)) (Input StatementEnv UserRequest) UserEvent
  | _, _, .start request => permitted u request = true
  | _, p, .advance tid env =>
    env.now < kLockedForeverSentinel ∧ (disablesNext u p tid env → Settled u p)

structure Disabled (u : Int) (p : Pool (service crypto)) : Prop where
  row : ∃ row, p.shared.users.lookup u = some row ∧ row.lockedUntil = kLockedForeverSentinel
  calm : ∀ t ∈ p.threads, Calm crypto u t.rest

structure StickyInv (u : Int) (history : List UserEvent) (p : Pool (service crypto)) : Prop where
  row : ∃ row, p.shared.users.lookup u = some row
  requests : ∀ t ∈ p.threads, permitted u t.request = true
  disabled : (∃ e ∈ history, Disables u e) → Disabled u p

variable {history : List UserEvent} {p : Pool (service crypto)} {tid : Nat} {env : StatementEnv}
  {t : Thread (service crypto)} {op : UserCall} {k : op.Resp → UserProg}

theorem lockedUntil_written {row : UserRow} (hkeeps : keepsLock u op = true)
    (hlocked : row.lockedUntil = kLockedForeverSentinel) :
    (IdentityStore.written env op u row).lockedUntil = kLockedForeverSentinel := by
  unfold IdentityStore.written
  split
  · rename_i userId c
    split
    · rename_i hwrites
      obtain ⟨-, rfl⟩ := hwrites
      have hc : c.lockedUntil = none ∨ c.lockedUntil = some kLockedForeverSentinel := by
        simpa [keepsLock] using hkeeps
      change c.lockedUntil.getD row.lockedUntil = _
      rcases hc with hc | hc
      · rw [hc]
        exact hlocked
      · rw [hc]
        rfl
    · exact hlocked
  · exact hlocked

def setsSentinel : UserCall → Bool
  | .update _ c => c.lockedUntil = some kLockedForeverSentinel
  | _ => true

/-- The update of a disabling sets the sentinel. -/
theorem sentinel_of_disable {c : Changes} {k : (UserCall.update u c).Resp → UserProg}
    (hrest : t.rest = .call (.update u c) k) (hrequest : t.request = .disableUser u) :
    c.lockedUntil = some kLockedForeverSentinel := by
  have hreached := t.reached
  rw [hrest, hrequest] at hreached
  have honly : (disableUser u).Only fun op => setsSentinel op = true :=
    only_disableUser ⟨rfl, fun _ => rfl, rfl, fun _ _ => rfl⟩ rfl (by simp [setsSentinel])
  have hsets := (Prog.Only.of_reached hreached honly).1.1
  simpa [setsSentinel] using hsets

/-- Every started request is calm when no login that has found the user is left over. -/
theorem calm_of_settled (hpermitted : permitted u t.request = true)
    (hsettled : isLogin t.request = true → hasFound u t.answers →
      t.rest.Only fun op => keepsLock u op = true) : Calm crypto u t.rest := by
  have hreached := t.reached
  cases hlogin : isLogin t.request with
  | false => exact .only (Prog.Only.of_reached hreached (only_program hpermitted hlogin)).1
  | true =>
    by_cases hfound : hasFound u t.answers
    · exact .only (hsettled hlogin hfound)
    · cases hrequest : t.request with
      | validateUser identifier password =>
        rw [hrequest] at hreached
        refine calm_of_unfound hreached ?_
        intro user hmem
        exact hfound ⟨identifier, user, hmem⟩
      | _ =>
        rw [hrequest] at hlogin
        cases hlogin

theorem Disabled.advanced (h : Disabled u p) (ht : p.threads[tid]? = some t)
    (hrest : t.rest = .call op k) (hnow : env.now < kLockedForeverSentinel) :
    Disabled u (p.advanced tid env hrest) := by
  obtain ⟨row, hrow, hlocked⟩ := h.row
  have hcalm := h.calm t (List.mem_of_getElem? ht)
  rw [hrest] at hcalm
  refine ⟨⟨IdentityStore.written env op u row, ?_, lockedUntil_written hcalm.keepsLock hlocked⟩, ?_⟩
  · change (IdentityStore.exec env op p.shared).2.users.lookup u = _
    rw [IdentityStore.lookup_exec, hrow]
    rfl
  · intro t' ht'
    rcases List.mem_or_eq_of_mem_set ht' with ht' | rfl
    · exact h.calm t' ht'
    · exact hcalm.next hrow hlocked hnow

/-- The disabling update itself. -/
theorem disabled_of_update (hinv : StickyInv u history p) (ht : p.threads[tid]? = some t)
    {c : Changes} {k : (UserCall.update u c).Resp → UserProg}
    (hrest : t.rest = .call (.update u c) k) (hrequest : t.request = .disableUser u)
    (hfails : env.fails = false) (hsettled : Settled u p) :
    Disabled u (p.advanced tid env hrest) := by
  obtain ⟨row, hrow⟩ := hinv.row
  have hsentinel := sentinel_of_disable hrest hrequest
  refine ⟨⟨c.apply row, ?_, ?_⟩, ?_⟩
  · change (IdentityStore.exec env (.update u c) p.shared).2.users.lookup u = _
    rw [IdentityStore.lookup_exec, hrow]
    simp [IdentityStore.written, hfails]
  · change c.lockedUntil.getD row.lockedUntil = _
    rw [hsentinel]
    rfl
  · intro t' ht'
    rcases List.mem_or_eq_of_mem_set ht' with ht' | rfl
    · exact calm_of_settled (hinv.requests t' ht') (hsettled t' ht')
    · refine calm_of_settled (hinv.requests t (List.mem_of_getElem? ht)) ?_
      intro hlogin
      change isLogin t.request = true at hlogin
      rw [hrequest] at hlogin
      cases hlogin

theorem StickyInv.advanced (h : StickyInv u history p)
    (hguard : DisabledSettled crypto u history p (.advance tid env))
    (ht : p.threads[tid]? = some t) (hrest : t.rest = .call op k) :
    StickyInv u
      (.called tid t.request env ⟨op, (IdentityStore.exec env op p.shared).1⟩ :: history)
      (p.advanced tid env hrest) where
  row := by
    obtain ⟨row, hrow⟩ := h.row
    refine ⟨IdentityStore.written env op u row, ?_⟩
    change (IdentityStore.exec env op p.shared).2.users.lookup u = _
    rw [IdentityStore.lookup_exec, hrow]
    rfl
  requests := by
    intro t' ht'
    rcases List.mem_or_eq_of_mem_set ht' with ht' | rfl
    · exact h.requests t' ht'
    · exact h.requests t (List.mem_of_getElem? ht)
  disabled := by
    intro hdisables
    obtain ⟨e, hmem, hdisables⟩ := hdisables
    rcases List.mem_cons.mp hmem with rfl | hmem
    · obtain ⟨_, _, c, heq⟩ := hdisables
      injection heq with _ hrequest _ hanswer
      obtain rfl : op = .update u c := congrArg Answer.op hanswer
      injection hanswer with _ hresp
      have hfails : env.fails = false := by
        cases hfails : env.fails with
        | false => rfl
        | true =>
          simp [IdentityStore.exec, IdentityStore.statement, hfails] at hresp
      exact disabled_of_update h ht hrest hrequest hfails
        (hguard.2 ⟨hfails, ⟨c, Pool.next_eq ht hrest⟩, t, ht, hrequest⟩)
    · exact (h.disabled ⟨e, hmem, hdisables⟩).advanced ht hrest hguard.1

theorem StickyInv.started (h : StickyInv u history p) {request : UserRequest}
    (hpermitted : permitted u request = true) :
    StickyInv u (.started p.threads.length request :: history)
      ({ p with threads := p.threads ++ [.fresh _ request] } : Pool (service crypto)) where
  row := h.row
  requests := by
    intro t ht
    rcases List.mem_append.mp ht with ht | ht
    · exact h.requests t ht
    · obtain rfl := List.mem_singleton.mp ht
      exact hpermitted
  disabled := by
    intro hdisables
    obtain ⟨e, hmem, hdisables⟩ := hdisables
    rcases List.mem_cons.mp hmem with rfl | hmem
    · obtain ⟨_, _, _, heq⟩ := hdisables
      cases heq
    have hold := h.disabled ⟨e, hmem, hdisables⟩
    refine ⟨hold.row, ?_⟩
    intro t ht
    rcases List.mem_append.mp ht with ht | ht
    · exact hold.calm t ht
    · obtain rfl := List.mem_singleton.mp ht
      refine calm_of_settled hpermitted ?_
      intro _ hfound
      obtain ⟨_, _, hmem⟩ := hfound
      cases hmem

variable {s₀ : IdentityStore} {row₀ : UserRow}

theorem stickyInv_of_run (hrow₀ : s₀.users.lookup u = some row₀)
    (hrun : (service crypto).machine.Run (DisabledSettled crypto u) (start _ s₀) history p) :
    StickyInv u history p := by
  refine Machine.Run.invariant (StickyInv u) ?_ ?_ hrun
  · refine ⟨⟨row₀, hrow₀⟩, ?_, ?_⟩
    · intro t ht
      cases ht
    · intro hdisables
      obtain ⟨e, hmem, -⟩ := hdisables
      cases hmem
  · intro h q i _ hinv hguard
    change StickyInv u ((Service.step _ q i).2 :: h) (Service.step _ q i).1
    rcases step_cases q i with ⟨request, rfl, hs⟩ | ⟨tid, env, t, op, k, hrest, rfl, ht, hs⟩ | hs
    · rw [hs]
      exact hinv.started hguard
    · rw [hs]
      exact hinv.advanced hguard ht hrest
    · rw [hs]
      refine ⟨hinv.row, hinv.requests, ?_⟩
      intro hdisables
      obtain ⟨e, hmem, hdisables⟩ := hdisables
      rcases List.mem_cons.mp hmem with rfl | hmem
      · obtain ⟨_, _, _, heq⟩ := hdisables
        cases heq
      · exact hinv.disabled ⟨e, hmem, hdisables⟩

/-- Once a disabling of the user has been written the lock keeps the sentinel, in every
interleaving of disablings with logins and with any requests that cannot enable the user, when no
login that found the user before has a write of the lock left at that moment and the clock stays
below the sentinel. -/
theorem disable_sticky (crypto : IdentityCrypto) (u : Int) (s₀ : IdentityStore) (row₀ : UserRow)
    (hrow₀ : s₀.users.lookup u = some row₀) (history : List UserEvent) (p : Pool (service crypto))
    (hrun : (service crypto).machine.Run (DisabledSettled crypto u) (start _ s₀) history p)
    (e : UserEvent) (hmem : e ∈ history) (hdisables : Disables u e) :
    ∃ row, p.shared.users.lookup u = some row ∧ row.lockedUntil = kLockedForeverSentinel :=
  ((stickyInv_of_run hrow₀ hrun).disabled ⟨e, hmem, hdisables⟩).row

/-! ### Two runs -/

def disablesEvent (u : Int) : UserEvent → Bool
  | .called _ (.disableUser userId) _ ⟨.update id _, true⟩ => userId = u && id = u
  | _ => false

theorem disables_of_disablesEvent {e : UserEvent} (h : disablesEvent u e = true) :
    Disables u e := by
  unfold disablesEvent at h
  split at h
  · rename_i tid userId env id c
    simp only [Bool.and_eq_true, decide_eq_true_eq] at h
    obtain ⟨rfl, rfl⟩ := h
    exact ⟨tid, env, c, rfl⟩
  · cases h

/-- A schedule in which administration waits until every login is finished. -/
def oneByOne (u : Int) (p : Pool (service crypto)) : Input StatementEnv UserRequest → Bool
  | .start request => permitted u request
  | .advance tid env =>
    env.now < kLockedForeverSentinel &&
      ((p.threads[tid]?.any fun t => isLogin t.request) ||
        p.threads.all fun t => !isLogin t.request || t.finished)

theorem disabledSettled_of_oneByOne {i : Input StatementEnv UserRequest}
    (h : oneByOne u p i = true) : DisabledSettled crypto u history p i := by
  cases i with
  | start request => exact h
  | advance tid env =>
    simp only [oneByOne, Bool.and_eq_true, decide_eq_true_eq, Bool.or_eq_true] at h
    refine ⟨h.1, ?_⟩
    intro hnext
    obtain ⟨-, -, t, ht, hrequest⟩ := hnext
    rcases h.2 with hlogin | hfinished
    · rw [ht, Option.any_some, hrequest] at hlogin
      cases hlogin
    · intro t' ht' hlogin _
      have := List.all_eq_true.mp hfinished t' ht'
      rw [hlogin] at this
      obtain ⟨reply, hreply⟩ := Thread.exists_ret (by simpa using this)
      rw [hreply]
      trivial

section KnownUser

open FailedLogins

def disabledAfterwards : List (Input StatementEnv UserRequest) :=
  .start guess :: steps 0 5 ++ .start (.disableUser 1) :: steps 1 3 ++ .start guess :: steps 2 2

theorem disable_sticky_disabledAfterwards :
    (executed disabledAfterwards).1.any (disablesEvent 1) = true ∧
    ∃ row, (executed disabledAfterwards).2.shared.users.lookup 1 = some row ∧
      row.lockedUntil = kLockedForeverSentinel := by
  obtain ⟨hmet, hdisables⟩ :
      (service knownCrypto).machine.Guarded (fun _ p i => oneByOne 1 p i = true) []
          (start _ knownStore) disabledAfterwards ∧
        (executed disabledAfterwards).1.any (disablesEvent 1) = true := by
    decide +kernel
  refine ⟨hdisables, ?_⟩
  obtain ⟨e, hmem, he⟩ := List.any_eq_true.mp hdisables
  exact disable_sticky knownCrypto 1 knownStore knownRow rfl _ _
    ((Machine.Run.exec_of_guarded .init disabledAfterwards hmet).mono
      fun _ _ _ h => disabledSettled_of_oneByOne h)
    e hmem (disables_of_disablesEvent he)

/-- The guess has read the counter when the user is disabled, and writes it back afterwards. -/
def disabledMeanwhile : List (Input StatementEnv UserRequest) :=
  .start guess :: steps 0 4 ++ .start (.disableUser 1) :: steps 1 3 ++ steps 0 1

theorem disabledMeanwhile_unlocked :
    knownStore.users.lookup 1 = some knownRow ∧
    (service knownCrypto).machine.Run anyStep (start _ knownStore) (executed disabledMeanwhile).1
      (executed disabledMeanwhile).2 ∧
    (∃ e ∈ (executed disabledMeanwhile).1, Disables 1 e) ∧
    (executed disabledMeanwhile).2.threads.map Thread.request = [guess, .disableUser 1] ∧
    ((executed disabledMeanwhile).2.shared.users.lookup 1).map UserRow.lockedUntil = some 0 := by
  obtain ⟨hdisables, hafter⟩ : (executed disabledMeanwhile).1.any (disablesEvent 1) = true ∧
      (executed disabledMeanwhile).2.threads.map Thread.request = [guess, .disableUser 1] ∧
      ((executed disabledMeanwhile).2.shared.users.lookup 1).map UserRow.lockedUntil = some 0 := by
    decide +kernel
  obtain ⟨e, hmem, he⟩ := List.any_eq_true.mp hdisables
  exact ⟨rfl, Machine.run_exec _ _ _, ⟨e, hmem, disables_of_disablesEvent he⟩, hafter⟩

end KnownUser

end AuthForge.DisableSticky
