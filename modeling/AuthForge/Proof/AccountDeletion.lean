import AuthForge.Base.Text
import AuthForge.Proof.LastAdmin

/-!
# Account deletions side by side

A deletion renames its user to a name made from the second at which it got that far, and usernames
are unique. Two deletions that take the same second, or one whose name somebody already has, do not
both go through. The guard in front refuses the last holder of the admin role, whether active or
not. In runs in which every name is free when it is taken and the guard lets the requesters pass,
every deletion succeeds.
-/

namespace AuthForge.AccountDeletion

open Identity Admin
open LastAdmin (IsAdmin Active ActiveAdmin lastActiveAdmin lastActiveAdmin_eq_false_iff mem_adminIds
  countActive_eq_zero_iff)
open Service hiding program

variable {crypto : IdentityCrypto} {s : IdentityStore} {sub : String} {id : Int}

/-! ### The course of a deletion -/

def anonUsername (now : Int) : String := "deleted_" ++ toString now

theorem anonUsername_injective {now now' : Int} (h : anonUsername now = anonUsername now') :
    now = now' := by
  refine intToString_injective (String.toList_inj.mp ?_)
  have hlists := congrArg String.toList h
  simp only [anonUsername, String.toList_append] at hlists
  exact List.append_cancel_left hlists

/-- What a deletion writes. -/
def renamed (now : Int) : Changes where
  username := some (anonUsername now)
  email := some none
  passwordHash := some "DELETED"
  deleted := true

def accountDeleted : UserReply := .success "Account deleted successfully"

/-- How far a request is: before the revocation, before the choice of the name, after it. -/
inductive Phase
  | asking
  | revoking
  | renaming (now : Int)
  deriving DecidableEq

def Phase.next : Phase → UserAnswer → Phase
  | .asking, ⟨.revokeAccessTokens _ _, _⟩ => .revoking
  | .revoking, ⟨.nowSeconds, now⟩ => .renaming now
  | phase, _ => phase

def phaseOf (answers : List UserAnswer) : Phase := answers.foldl Phase.next .asking

theorem phaseOf_snoc (answers : List UserAnswer) (a : UserAnswer) :
    phaseOf (answers ++ [a]) = (phaseOf answers).next a := List.foldl_concat ..

def guardError : UserProg := guardFailed "deleteAccount: failed to evaluate last-admin guard"

def afterGuard (sub : String) (id : Int) (lastAdmin : Bool) : UserProg :=
  if lastAdmin then
    .ret (.error "VALIDATION_RESOURCE_CONFLICT" "Cannot delete the last active admin account")
  else proceedWithDelete sub id

def countOthers (sub : String) (id : Int) (ids : List Int) (now : Int) : UserProg :=
  .call (.countActive (ids.filter (· ≠ id)) now) fun
    | none => guardError
    | some n => afterGuard sub id (n = 0)

def afterHolders (sub : String) (id : Int) (ids : List Int) : UserProg :=
  if id ∉ ids then afterGuard sub id false
  else if ids.filter (· ≠ id) = [] then afterGuard sub id true
  else .call .nowSeconds fun now => countOthers sub id ids now

def afterRoles (sub : String) (id : Int) : List Int → UserProg
  | [] => afterGuard sub id false
  | roleId :: roleIds =>
    .call (.findRoleHolders (roleId :: roleIds)) fun
      | none => guardError
      | some ids => afterHolders sub id ids

theorem isLastActiveAdmin_eq (sub : String) (id : Int) :
    isLastActiveAdmin id (afterGuard sub id) guardError =
      .call .findAdminRoles fun
        | none => guardError
        | some roleIds => afterRoles sub id roleIds := by
  unfold isLastActiveAdmin
  congr 1
  funext roleIds
  rcases roleIds with _ | _ | ⟨roleId, roleIds⟩ <;> rfl

theorem deleteAccount_eq (sub : String) :
    deleteAccount sub =
      .call (.findBySub sub) fun
        | none => .ret (.error "DB_QUERY_ERROR" "deleteAccount user lookup failed: ")
        | some [] => .ret (.error "VALIDATION_RESOURCE_NOT_FOUND" "deleteAccount: user not found")
        | some ((id, _) :: _) => isLastActiveAdmin id (afterGuard sub id) guardError := rfl

theorem within_afterGuard (lastAdmin : Bool) : (afterGuard sub id lastAdmin).Within 5 := by
  have hrename : ∀ now, (anonymizeAndSoftDelete sub (anonUsername now)).Within 2 := by
    intro now users
    rcases users with _ | _ | ⟨user, users⟩
    · trivial
    · trivial
    intro ok
    cases ok <;> trivial
  cases lastAdmin with
  | true => trivial
  | false =>
    intro ok
    cases ok with
    | false => exact fun now => (hrename now).mono (Nat.le_succ 2)
    | true => exact fun _ now => hrename now

/-- A deletion is answered after at most ten statements. -/
theorem within_deleteAccount (sub : String) : (deleteAccount sub).Within 10 := by
  rw [deleteAccount_eq]
  intro users
  rcases users with _ | _ | ⟨user, users⟩
  · trivial
  · trivial
  dsimp only
  rw [isLastActiveAdmin_eq]
  intro roleIds
  rcases roleIds with _ | _ | ⟨roleId, roleIds⟩
  · trivial
  · exact (within_afterGuard false).mono (by decide)
  intro ids
  rcases ids with _ | ids
  · trivial
  dsimp only
  unfold afterHolders
  split
  · exact (within_afterGuard false).mono (by decide)
  split
  · exact (within_afterGuard true).mono (by decide)
  intro now n
  rcases n with _ | n
  · trivial
  · exact within_afterGuard _

/-! ### Which runs -/

def adminIds (s : IdentityStore) : List Int := s.holders ((s.rolesNamed ["admin"]).map Prod.fst)

theorem activeAdmin_iff {user : Int} :
    ActiveAdmin s user ↔ user ∈ adminIds s ∧ s.countActive [user] s.clock ≠ 0 := by
  rw [adminIds, mem_adminIds, ne_eq, countActive_eq_zero_iff]
  simp only [List.mem_singleton, forall_eq, not_not]
  exact Iff.rfl

instance (user : Int) : Decidable (ActiveAdmin s user) := decidable_of_iff' _ activeAdmin_iff

abbrev atTime (s : IdentityStore) (now : Int) : IdentityStore := { s with clock := now }

/-- Each requester deletes the own account once and is no active admin, and no statement fails but
for the constraint. -/
def Deletions (requesters : List String) :
    Guard (Pool (constrainedService crypto)) (Input StatementEnv UserRequest) UserEvent
  | _, p, .start (.deleteAccount sub) =>
    sub ∈ requesters ∧ ∀ t ∈ p.threads, t.request ≠ .deleteAccount sub
  | _, _, .start _ => False
  | _, p, .advance _ env => env.fails = false ∧
    ∀ e ∈ p.shared.users.entries, e.2.publicSub ∈ requesters → ¬ActiveAdmin (atTime p.shared env.now) e.1

/-- The statement of the guard that decides about the target is executed while another user holds
the admin role, and is active. -/
def letsPass (s : IdentityStore) (target : Int) : UserCall → Bool
  | .findRoleHolders _ => target ∉ adminIds s || (adminIds s).filter (· ≠ target) ≠ []
  | .nowSeconds => !lastActiveAdmin s target
  | _ => true

/-- Nobody else has the name made from the second, and no other deletion is about to take it. -/
def NameFree (p : Pool (constrainedService crypto)) (target now : Int) : Prop :=
  (∀ e ∈ p.shared.users.entries, e.1 ≠ target → e.2.username ≠ some (anonUsername now)) ∧
  ∀ t ∈ p.threads, t.finished = false → phaseOf t.answers ≠ .renaming now

def StepFree (p : Pool (constrainedService crypto)) (target now : Int) (op : UserCall) :
    Phase → Prop
  | .asking => letsPass (atTime p.shared now) target op = true
  | .revoking => op = .nowSeconds → NameFree p target now
  | .renaming _ => True

/-- Deletions whose guard passes and whose names are free when they are taken. -/
def Undisturbed (requesters : List String) :
    Guard (Pool (constrainedService crypto)) (Input StatementEnv UserRequest) UserEvent
  | history, p, .start request => Deletions requesters history p (.start request)
  | history, p, .advance tid env => Deletions requesters history p (.advance tid env) ∧
    ∀ t ∈ p.threads[tid]?, ∀ op ∈ p.next tid, ∀ e ∈ p.shared.users.entries,
      t.request = .deleteAccount e.2.publicSub → StepFree p e.1 env.now op (phaseOf t.answers)

/-- Every request is answered after at most ten statements, by a success that leaves its user
deleted. -/
def AllSucceed (p : Pool (constrainedService crypto)) : Prop :=
  ∀ t ∈ p.threads, t.answers.length ≤ 10 ∧ ∀ reply, t.rest = .ret reply →
    reply = accountDeleted ∧ ∃ sub id u, t.request = .deleteAccount sub ∧
      p.shared.users.lookup id = some u ∧ u.publicSub = sub ∧ u.deleted = true

/-! ### The stages of a deletion -/

/-- Another user holds the admin role, is active at `now` and does not leave. -/
def Standing (s₀ : IdentityStore) (requesters : List String) (id now : Int) : Prop :=
  ∃ user row, user ∈ adminIds s₀ ∧ user ≠ id ∧ s₀.users.lookup user = some row ∧
    row.publicSub ∉ requesters ∧ row.deleted = false ∧ row.lockedUntil ≤ now

/-- What is left of an unanswered deletion, phase by phase. -/
inductive Stage (s₀ : IdentityStore) (requesters : List String) (sub : String) (id : Int) :
    Phase → UserProg → Prop
  | lookup {k : Option (List (Int × UserRow)) → UserProg}
      (hk : ∀ u, k (some [(id, u)]) = isLastActiveAdmin id (afterGuard sub id) guardError) :
      Stage s₀ requesters sub id .asking (.call (.findBySub sub) k)
  | roles {k : Option (List Int) → UserProg}
      (hk : ∀ roleIds, k (some roleIds) = afterRoles sub id roleIds) :
      Stage s₀ requesters sub id .asking (.call .findAdminRoles k)
  | holders {roleIds : List Int} {k : Option (List Int) → UserProg}
      (hids : s₀.holders roleIds = adminIds s₀)
      (hk : ∀ ids, k (some ids) = afterHolders sub id ids) :
      Stage s₀ requesters sub id .asking (.call (.findRoleHolders roleIds) k)
  | clock {k : Int → UserProg} (hid : id ∈ adminIds s₀)
      (hk : ∀ now, k now = countOthers sub id (adminIds s₀) now) :
      Stage s₀ requesters sub id .asking (.call .nowSeconds k)
  | count {now : Int} {k : Option Nat → UserProg} (hstanding : Standing s₀ requesters id now)
      (hk : ∀ n, k (some n) = afterGuard sub id (n = 0)) :
      Stage s₀ requesters sub id .asking
        (.call (.countActive ((adminIds s₀).filter (· ≠ id)) now) k)
  | access {k k' : Bool → UserProg} (hk : k true = .call (.revokeRefreshTokens sub id) k')
      (hk' : ∀ ok, k' ok =
        .call .nowSeconds fun now => anonymizeAndSoftDelete sub (anonUsername now)) :
      Stage s₀ requesters sub id .asking (.call (.revokeAccessTokens sub id) k)
  | refresh {k : Bool → UserProg} (hk : ∀ ok, k ok =
        .call .nowSeconds fun now => anonymizeAndSoftDelete sub (anonUsername now)) :
      Stage s₀ requesters sub id .revoking (.call (.revokeRefreshTokens sub id) k)
  | draw {k : Int → UserProg} (hk : ∀ now, k now = anonymizeAndSoftDelete sub (anonUsername now)) :
      Stage s₀ requesters sub id .revoking (.call .nowSeconds k)
  | find {now : Int} {k : Option (List (Int × UserRow)) → UserProg} {k' : Bool → UserProg}
      (hk : ∀ u, k (some [(id, u)]) = .call (.update id (renamed now)) k')
      (hk' : k' true = .ret accountDeleted) :
      Stage s₀ requesters sub id (.renaming now) (.call (.findBySub sub) k)
  | update {now : Int} {k : Bool → UserProg} (hk : k true = .ret accountDeleted) :
      Stage s₀ requesters sub id (.renaming now) (.call (.update id (renamed now)) k)

variable {s₀ : IdentityStore} {requesters : List String}

theorem stage_deleteAccount : Stage s₀ requesters sub id .asking (deleteAccount sub) := by
  rw [deleteAccount_eq]
  exact .lookup fun _ => rfl

theorem stage_anonymize (now : Int) :
    Stage s₀ requesters sub id (.renaming now) (anonymizeAndSoftDelete sub (anonUsername now)) :=
  .find (fun _ => rfl) rfl

theorem stage_afterGuard : Stage s₀ requesters sub id .asking (afterGuard sub id false) :=
  .access rfl fun _ => rfl

/-! ### One statement of a deletion -/

/-- What deletions by the requesters leave alone. -/
structure Kept (s₀ : IdentityStore) (requesters : List String) (s : IdentityStore) : Prop where
  roles : s.roles = s₀.roles
  userRoles : s.userRoles = s₀.userRoles
  subs : ∀ k, (s.users.lookup k).map (fun u => u.publicSub) =
    (s₀.users.lookup k).map fun u => u.publicSub
  others : ∀ {k u}, s₀.users.lookup k = some u → u.publicSub ∉ requesters →
    s.users.lookup k = some u

variable {env : StatementEnv}

theorem Kept.holders (h : Kept s₀ requesters s) (roleIds : List Int) :
    s.holders roleIds = s₀.holders roleIds := by
  rw [IdentityStore.holders, h.userRoles]
  rfl

theorem Kept.rolesNamed (h : Kept s₀ requesters s) (names : List String) :
    s.rolesNamed names = s₀.rolesNamed names := by
  rw [IdentityStore.rolesNamed, h.roles]
  rfl

theorem Kept.adminIds (h : Kept s₀ requesters s) : adminIds s = adminIds s₀ := by
  rw [AccountDeletion.adminIds, h.rolesNamed, h.holders]
  rfl

theorem Kept.publicSub {k : Int} {u : UserRow} (h : Kept s₀ requesters s)
    (hu : s.users.lookup k = some u) :
    ∃ u₀, s₀.users.lookup k = some u₀ ∧ u₀.publicSub = u.publicSub := by
  have hsub := h.subs k
  rw [hu] at hsub
  exact Option.map_eq_some_iff.mp hsub.symm

theorem matching_of_only {p : UserRow → Bool} {u : UserRow}
    (honly : ∀ k u, s.users.lookup k = some u → p u = true → k = id)
    (hu : s.users.lookup id = some u) (hp : p u = true) : s.matching p = [(id, u)] := by
  have hfound := IdentityStore.findUnique_of_only honly
  rw [Option.filter_eq_some_iff.mpr ⟨hu, hp⟩, Option.map_some] at hfound
  unfold IdentityStore.findUnique at hfound
  split at hfound
  · rename_i e hmatching
    rw [hmatching, Option.some.inj hfound]
  · cases hfound

/-- The statements that leave the tables alone. -/
def isRead : UserCall → Bool
  | .update _ _ | .deleteRoles _ | .insertRole _ _ => false
  | _ => true

theorem constrained_of_read {op : UserCall} (hread : isRead op = true) :
    IdentityStore.constrained env op s = IdentityStore.statement env op (atTime s env.now) := by
  have hviolates : s.violatesUnique op = false := by
    cases op with
    | update userId changes => cases hread
    | _ => rfl
  have henv : { env with fails := env.fails || s.violatesUnique op } = env := by
    rw [hviolates, Bool.or_false]
  rw [IdentityStore.constrained, henv, IdentityStore.exec]

theorem snd_constrained_of_read {op : UserCall} (hread : isRead op = true) :
    (IdentityStore.constrained env op s).2 = atTime s env.now := by
  rw [constrained_of_read hread]
  cases op with
  | update userId changes => cases hread
  | deleteRoles userId => cases hread
  | insertRole userId roleId => cases hread
  | _ => rfl

theorem constrained_renamed {now : Int} (hfails : env.fails = false)
    (hname : ∀ k u, s.users.lookup k = some u → k ≠ id → u.username ≠ some (anonUsername now)) :
    IdentityStore.constrained env (.update id (renamed now)) s =
      (true, (atTime s env.now).setColumns id (renamed now)) := by
  have hviolates : s.violatesUnique (.update id (renamed now)) = false := by
    have hnone : (s.users.entries.any fun e => e.1 ≠ id && e.2.username = some (anonUsername now)) =
        false := by
      rw [List.any_eq_false]
      intro e he hboth
      simp only [Bool.and_eq_true, decide_eq_true_eq] at hboth
      exact hname e.1 e.2 (AList.mem_lookup_iff.mpr he) hboth.1 hboth.2
    simp only [IdentityStore.violatesUnique, renamed, Option.any_some, hnone, Bool.and_false]
  rw [IdentityStore.constrained, hviolates, hfails]
  rfl

/-- What one deletion needs of the tables for its next statement. -/
structure Ready (s₀ : IdentityStore) (requesters : List String) (sub : String) (id : Int)
    (env : StatementEnv) (s : IdentityStore) (phase : Phase) (op : UserCall) : Prop where
  kept : Kept s₀ requesters s
  row : ∃ u, s.users.lookup id = some u ∧ u.publicSub = sub ∧ u.deleted = false
  only : ∀ k u, s.users.lookup k = some u → u.publicSub = sub → k = id
  fails : env.fails = false
  inactive : ∀ e ∈ s.users.entries, e.2.publicSub ∈ requesters →
    ¬ActiveAdmin (atTime s env.now) e.1
  passes : phase = .asking → letsPass (atTime s env.now) id op = true
  name : ∀ now, phase = .renaming now →
    ∀ k u, s.users.lookup k = some u → k ≠ id → u.username ≠ some (anonUsername now)

variable {phase : Phase} {op : UserCall}

theorem Ready.found (h : Ready s₀ requesters sub id env s phase (.findBySub sub)) :
    ∃ u, (IdentityStore.constrained env (.findBySub sub) s).1 = some [(id, u)] := by
  obtain ⟨u, hu, hsub, hlive⟩ := h.row
  refine ⟨u, ?_⟩
  rw [constrained_of_read rfl]
  have hmatching : (atTime s env.now).matching (fun u => u.publicSub = sub && !u.deleted) =
      [(id, u)] := by
    refine matching_of_only ?_ hu (by simp [hsub, hlive])
    intro k u' hu' hp
    simp only [Bool.and_eq_true, decide_eq_true_eq] at hp
    exact h.only k u' hu' hp.1
  simp only [IdentityStore.statement, h.fails, hmatching]
  rfl

theorem Ready.standing (h : Ready s₀ requesters sub id env s .asking .nowSeconds)
    (hid : id ∈ adminIds s₀) : Standing s₀ requesters id env.now := by
  have hpasses : lastActiveAdmin (atTime s env.now) id = false := by
    simpa [letsPass] using h.passes rfl
  rcases lastActiveAdmin_eq_false_iff.mp hpasses with hnone | ⟨user, hne, hactive⟩
  · rw [← h.kept.adminIds] at hid
    obtain ⟨role, hrole⟩ := mem_adminIds.mp hid
    exact absurd ⟨hrole.held, hrole.named⟩ (hnone role)
  · obtain ⟨hadmin, row, hrow, hlive, hlocked⟩ := hactive
    have hrequester := fun hmem => h.inactive ⟨user, row⟩ (AList.mem_lookup_iff.mp hrow) hmem
      ⟨hadmin, row, hrow, hlive, hlocked⟩
    obtain ⟨row₀, hrow₀, hsub⟩ := h.kept.publicSub hrow
    rw [← hsub] at hrequester
    obtain rfl := Option.some.inj (hrow.symm.trans (h.kept.others hrow₀ hrequester))
    have hmem : user ∈ adminIds (atTime s env.now) := mem_adminIds.mpr hadmin
    refine ⟨user, row, ?_, hne, hrow₀, hrequester, hlive, hlocked⟩
    rw [← h.kept.adminIds]
    exact hmem

theorem Standing.countActive {now : Int} (h : Standing s₀ requesters id now)
    (hkept : Kept s₀ requesters s) :
    s.countActive ((adminIds s₀).filter (· ≠ id)) now ≠ 0 := by
  obtain ⟨user, row, hadmin, hne, hrow₀, hsub, hlive, hlocked⟩ := h
  have hactive : Active (atTime s now) user := ⟨row, hkept.others hrow₀ hsub, hlive, hlocked⟩
  intro hzero
  refine countActive_eq_zero_iff (s := atTime s now).mp hzero user ?_ hactive
  rw [List.mem_filter]
  exact ⟨hadmin, by simpa using hne⟩

/-- The next stage, or the update that ends the deletion. -/
theorem Stage.next {k : op.Resp → UserProg}
    (h : Stage s₀ requesters sub id phase (.call op k))
    (hready : Ready s₀ requesters sub id env s phase op) :
    (isRead op = true ∧ Stage s₀ requesters sub id
      (phase.next ⟨op, (IdentityStore.constrained env op s).1⟩)
      (k (IdentityStore.constrained env op s).1)) ∨
    ∃ now, phase = .renaming now ∧ op = .update id (renamed now) ∧
      k (IdentityStore.constrained env op s).1 = .ret accountDeleted := by
  have hfails := hready.fails
  cases h with
  | lookup hk =>
    obtain ⟨u, hfound⟩ := hready.found
    rw [hfound, hk, isLastActiveAdmin_eq]
    refine .inl ⟨rfl, .roles fun _ => rfl⟩
  | roles hk =>
    have hresp : (IdentityStore.constrained env .findAdminRoles s).1 =
        some ((s₀.rolesNamed ["admin"]).map Prod.fst) := by
      rw [constrained_of_read rfl, ← hready.kept.rolesNamed]
      simp only [IdentityStore.statement, hfails]
      rfl
    rw [hresp, hk]
    refine .inl ⟨rfl, ?_⟩
    cases hroles : (s₀.rolesNamed ["admin"]).map Prod.fst with
    | nil => exact stage_afterGuard
    | cons roleId roleIds => exact .holders (by rw [← hroles]; rfl) fun _ => rfl
  | @holders roleIds k hids hk =>
    have hresp : (IdentityStore.constrained env (.findRoleHolders roleIds) s).1 =
        some (adminIds s₀) := by
      rw [constrained_of_read rfl, ← hids, ← hready.kept.holders]
      simp only [IdentityStore.statement, hfails]
      rfl
    rw [hresp, hk]
    refine .inl ⟨rfl, ?_⟩
    unfold afterHolders
    by_cases hid : id ∈ adminIds s₀
    · have hkept : adminIds (atTime s env.now) = adminIds s₀ := hready.kept.adminIds
      have hothers : (adminIds s₀).filter (· ≠ id) ≠ [] := by
        simpa [letsPass, hkept, hid] using hready.passes rfl
      rw [if_neg (not_not.mpr hid), if_neg hothers]
      exact .clock hid fun _ => rfl
    · rw [if_pos hid]
      exact stage_afterGuard
  | clock hid hk =>
    rw [hk]
    exact .inl ⟨rfl, .count (hready.standing hid) fun _ => rfl⟩
  | @count now k hstanding hk =>
    have hresp : (IdentityStore.constrained env
        (.countActive ((adminIds s₀).filter (· ≠ id)) now) s).1 =
        some (s.countActive ((adminIds s₀).filter (· ≠ id)) now) := by
      rw [constrained_of_read rfl]
      simp only [IdentityStore.statement, hfails]
      rfl
    rw [hresp, hk, decide_eq_false (hstanding.countActive hready.kept)]
    exact .inl ⟨rfl, stage_afterGuard⟩
  | access hk hk' =>
    have hresp : (IdentityStore.constrained env (.revokeAccessTokens sub id) s).1 = true := by
      rw [constrained_of_read rfl]
      simp only [IdentityStore.statement, hfails, Bool.not_false]
    rw [hresp, hk]
    exact .inl ⟨rfl, .refresh hk'⟩
  | refresh hk =>
    rw [hk]
    exact .inl ⟨rfl, .draw fun _ => rfl⟩
  | draw hk =>
    rw [hk]
    exact .inl ⟨rfl, stage_anonymize _⟩
  | find hk hk' =>
    obtain ⟨u, hfound⟩ := hready.found
    rw [hfound, hk]
    exact .inl ⟨rfl, .update hk'⟩
  | @update now k hk =>
    rw [constrained_renamed hfails (hready.name now rfl), hk]
    exact .inr ⟨now, rfl, rfl, rfl⟩

theorem Stage.open {rest : UserProg} (h : Stage s₀ requesters sub id phase rest) :
    ∃ op k, rest = .call op k := by
  cases h <;> exact ⟨_, _, rfl⟩

theorem Phase.next_eq_renaming {a : UserAnswer} {now : Int} (h : phase.next a = .renaming now) :
    phase = .renaming now ∨ (phase = .revoking ∧ a = ⟨.nowSeconds, now⟩) := by
  unfold Phase.next at h
  split at h
  · cases h
  · rename_i now'
    obtain rfl := Phase.renaming.inj h
    exact .inr ⟨rfl, rfl⟩
  · exact .inl h

/-! ### The invariant of a run of deletions -/

/-- Nobody else has the name that a deletion is about to take. -/
def NameKept (s : IdentityStore) (id : Int) (phase : Phase) : Prop :=
  ∀ now, phase = .renaming now →
    ∀ k u, s.users.lookup k = some u → k ≠ id → u.username ≠ some (anonUsername now)

/-- A deletion of the account of user `id` is under way, or has succeeded. -/
def Proceeds (s₀ : IdentityStore) (requesters : List String) (s : IdentityStore) (sub : String)
    (id : Int) (answers : List UserAnswer) (rest : UserProg) : Prop :=
  (Stage s₀ requesters sub id (phaseOf answers) rest ∧
    (∃ u, s.users.lookup id = some u ∧ u.deleted = false) ∧ NameKept s id (phaseOf answers)) ∨
  (rest = .ret accountDeleted ∧ ∃ u, s.users.lookup id = some u ∧ u.deleted = true)

structure Requested (s₀ : IdentityStore) (requesters : List String) (request : UserRequest)
    (sub : String) (id : Int) : Prop where
  request : request = .deleteAccount sub
  mem : sub ∈ requesters
  row : (s₀.users.lookup id).map (fun u => u.publicSub) = some sub

structure DeletionInv (s₀ : IdentityStore) (requesters : List String)
    (p : Pool (constrainedService crypto)) : Prop where
  kept : Kept s₀ requesters p.shared
  proceeds : ∀ t ∈ p.threads, ∃ sub id, Requested s₀ requesters t.request sub id ∧
    Proceeds s₀ requesters p.shared sub id t.answers t.rest
  distinct : ∀ {i j : Nat} {t u}, p.threads[i]? = some t → p.threads[j]? = some u →
    t.request = u.request → i = j
  live : ∀ sub ∈ requesters, (∀ t ∈ p.threads, t.request ≠ .deleteAccount sub) →
    ∃ id u, p.shared.users.lookup id = some u ∧ u.publicSub = sub ∧ u.deleted = false
  names : ∀ {i j : Nat} {t u}, p.threads[i]? = some t → p.threads[j]? = some u → i ≠ j →
    t.finished = false → u.finished = false → ∀ now, phaseOf t.answers = .renaming now →
    phaseOf u.answers ≠ .renaming now

/-- The database keeps the public subs unique. -/
def UniqueSubs (s : IdentityStore) : Prop :=
  ∀ k u k' u', s.users.lookup k = some u → s.users.lookup k' = some u' →
    u.publicSub = u'.publicSub → k = k'

variable {p : Pool (constrainedService crypto)} {tid : Nat} {request : UserRequest}

theorem DeletionInv.init (hlive : ∀ sub ∈ requesters, ∃ id u, s₀.users.lookup id = some u ∧
    u.publicSub = sub ∧ u.deleted = false) :
    DeletionInv s₀ requesters (start (constrainedService crypto) s₀) where
  kept := ⟨rfl, rfl, fun _ => rfl, fun hu _ => hu⟩
  proceeds := List.forall_mem_nil _
  distinct ht := by simp [start] at ht
  live sub hsub _ := hlive sub hsub
  names ht := by simp [start] at ht

theorem DeletionInv.started (h : DeletionInv s₀ requesters p) (hsub : sub ∈ requesters)
    (hnew : ∀ t ∈ p.threads, t.request ≠ .deleteAccount sub) :
    DeletionInv s₀ requesters
      ({ p with threads := p.threads ++ [.fresh _ (.deleteAccount sub)] } :
        Pool (constrainedService crypto)) := by
  have hphase : phaseOf (Thread.fresh (constrainedService crypto) (.deleteAccount sub)).answers =
      .asking := rfl
  refine ⟨h.kept, ?_, ?_, ?_, ?_⟩
  · intro t ht
    rcases List.mem_append.mp ht with ht | ht
    · exact h.proceeds t ht
    · obtain rfl := List.mem_singleton.mp ht
      obtain ⟨id, u, hu, rfl, hdeleted⟩ := h.live sub hsub hnew
      refine ⟨u.publicSub, id, ⟨rfl, hsub, ?_⟩, .inl ⟨stage_deleteAccount, ⟨u, hu, hdeleted⟩, ?_⟩⟩
      · rw [← h.kept.subs, hu]
        rfl
      · intro now hrenaming
        cases hrenaming
  · intro i j t u ht hu hrequest
    rcases getElem?_snoc ht with ht | ⟨rfl, rfl⟩ <;> rcases getElem?_snoc hu with hu | ⟨rfl, rfl⟩
    · exact h.distinct ht hu hrequest
    · exact absurd hrequest (hnew t (List.mem_of_getElem? ht))
    · exact absurd hrequest.symm (hnew u (List.mem_of_getElem? hu))
    · rfl
  · intro sub' hsub' hall
    exact h.live sub' hsub' fun t ht => hall t (List.mem_append_left _ ht)
  · intro i j t u ht hu hne hopen hopen' now hrenaming
    rcases getElem?_snoc ht with ht | ⟨rfl, rfl⟩
    · rcases getElem?_snoc hu with hu | ⟨rfl, rfl⟩
      · exact h.names ht hu hne hopen hopen' now hrenaming
      · rw [hphase]
        nofun
    · rw [hphase] at hrenaming
      cases hrenaming

section Called

variable {t : Thread (constrainedService crypto)} {k : op.Resp → UserProg}

/-- The thread that a statement is executed for, with what the guard says about it. -/
structure Advances (s₀ : IdentityStore) (requesters : List String)
    (p : Pool (constrainedService crypto)) (tid : Nat) (t : Thread (constrainedService crypto))
    (env : StatementEnv) (op : UserCall) (sub : String) (id : Int) : Prop where
  thread : p.threads[tid]? = some t
  requested : Requested s₀ requesters t.request sub id
  ready : Ready s₀ requesters sub id env p.shared (phaseOf t.answers) op
  free : StepFree p id env.now op (phaseOf t.answers)

theorem DeletionInv.advances (h : DeletionInv s₀ requesters p) (hunique : UniqueSubs s₀)
    (ht : p.threads[tid]? = some t) (hrest : t.rest = .call op k) {history : List UserEvent}
    (hok : Undisturbed requesters history p (.advance tid env)) :
    ∃ sub id, Advances s₀ requesters p tid t env op sub id ∧
      Stage s₀ requesters sub id (phaseOf t.answers) t.rest := by
  obtain ⟨sub, id, hrequested, hstage⟩ := h.proceeds t (List.mem_of_getElem? ht)
  rcases hstage with ⟨hstage, ⟨u, hu, hlive⟩, hname⟩ | ⟨hdone, -⟩
  swap
  · rw [hrest] at hdone
    cases hdone
  obtain ⟨⟨hfails, hinactive⟩, hfree⟩ := hok
  have hsub : u.publicSub = sub := by
    have hrow := h.kept.subs id
    rw [hu, hrequested.row] at hrow
    exact Option.some.inj hrow
  have hfree' := hfree t ht op (Pool.next_eq ht hrest) ⟨id, u⟩ (AList.mem_lookup_iff.mp hu) (by rw [hrequested.request, hsub])
  refine ⟨sub, id, ⟨ht, hrequested, ?_, hfree'⟩, hstage⟩
  refine ⟨h.kept, ⟨u, hu, hsub, hlive⟩, ?_, hfails, hinactive, ?_, hname⟩
  · intro k' u' hu' hsub'
    obtain ⟨u₀', hu₀', heq'⟩ := h.kept.publicSub hu'
    obtain ⟨u₀, hu₀, heq⟩ := h.kept.publicSub hu
    exact hunique k' u₀' id u₀ hu₀' hu₀ (by rw [heq', heq, hsub', hsub])
  · intro hasking
    rw [hasking] at hfree'
    exact hfree'

/-- A statement that only reads takes the deletion to its next stage. -/
theorem DeletionInv.read (h : DeletionInv s₀ requesters p)
    (hadvances : Advances s₀ requesters p tid t env op sub id) (hrest : t.rest = .call op k)
    (hread : isRead op = true)
    (hstage : Stage s₀ requesters sub id
      ((phaseOf t.answers).next ⟨op, (IdentityStore.constrained env op p.shared).1⟩)
      (k (IdentityStore.constrained env op p.shared).1)) :
    DeletionInv s₀ requesters (p.advanced tid env hrest) := by
  obtain ⟨ht, hrequested, hready, hfree⟩ := hadvances
  have hshared : (p.advanced tid env hrest).shared = atTime p.shared env.now :=
    snd_constrained_of_read hread
  have hopen := Thread.finished_of_call hrest
  have hphase : ∀ {now}, phaseOf (t.advance hrest
      (IdentityStore.constrained env op p.shared).1).answers = .renaming now →
      phaseOf t.answers = .renaming now ∨ NameFree p id now := by
    intro now hrenaming
    rw [Thread.advance, phaseOf_snoc] at hrenaming
    rcases Phase.next_eq_renaming hrenaming with hold | ⟨hrevoking, hdraw⟩
    · exact .inl hold
    · right
      rw [hrevoking] at hfree
      cases congrArg Answer.op hdraw
      injection hdraw with _ hnow
      obtain rfl : env.now = now := hnow
      exact hfree rfl
  have hrequest : ∀ {i : Nat} {u : Thread (constrainedService crypto)},
      (p.threads.set tid (t.advance hrest (IdentityStore.constrained env op p.shared).1))[i]? =
        some u → ∃ u', p.threads[i]? = some u' ∧ u'.request = u.request := by
    intro i u hu
    rcases getElem?_set_cases hu with ⟨rfl, rfl⟩ | ⟨-, hu⟩
    · exact ⟨t, ht, rfl⟩
    · exact ⟨u, hu, rfl⟩
  refine ⟨?_, ?_, ?_, ?_, ?_⟩
  · rw [hshared]
    exact ⟨h.kept.roles, h.kept.userRoles, h.kept.subs, h.kept.others⟩
  · rw [hshared]
    intro u hu
    rcases List.mem_or_eq_of_mem_set hu with hu | rfl
    · exact h.proceeds u hu
    · obtain ⟨row, hrow, -, hlive⟩ := hready.row
      refine ⟨sub, id, hrequested, .inl ⟨?_, ⟨row, hrow, hlive⟩, ?_⟩⟩
      · rw [Thread.advance, phaseOf_snoc]
        exact hstage
      · intro now hrenaming k' u' hu' hne
        rcases hphase hrenaming with hold | hnew
        · exact hready.name now hold k' u' hu' hne
        · exact hnew.1 ⟨k', u'⟩ (AList.mem_lookup_iff.mp hu') hne
  · intro i j u u' hu hu' heq
    obtain ⟨v, hv, hveq⟩ := hrequest hu
    obtain ⟨v', hv', hveq'⟩ := hrequest hu'
    exact h.distinct hv hv' (by rw [hveq, hveq', heq])
  · rw [hshared]
    intro sub' hsub' hall
    refine h.live sub' hsub' ?_
    intro u hu heq
    obtain ⟨i, hi, rfl⟩ := List.getElem_of_mem hu
    by_cases hself : i = tid
    · subst hself
      obtain rfl := Option.some.inj ((List.getElem?_eq_getElem hi).symm.trans ht)
      exact hall _ (List.mem_set hi _) heq
    · refine hall _ (List.mem_of_getElem? (i := i) ?_) heq
      rw [List.getElem?_set_ne (Ne.symm hself)]
      exact List.getElem?_eq_getElem hi
  · intro i j u u' hu hu' hne hopen' hopen'' now hrenaming hrenaming'
    rcases getElem?_set_cases hu with ⟨rfl, rfl⟩ | ⟨-, hold⟩ <;>
      rcases getElem?_set_cases hu' with ⟨rfl, rfl⟩ | ⟨-, hold'⟩
    · exact hne rfl
    · rcases hphase hrenaming with hbefore | hnew
      · exact h.names ht hold' hne hopen hopen'' now hbefore hrenaming'
      · exact hnew.2 u' (List.mem_of_getElem? hold') hopen'' hrenaming'
    · rcases hphase hrenaming' with hbefore | hnew
      · exact h.names hold ht hne hopen' hopen now hrenaming hbefore
      · exact hnew.2 u (List.mem_of_getElem? hold) hopen' hrenaming
    · exact h.names hold hold' hne hopen' hopen'' now hrenaming hrenaming'

/-- The update ends the deletion and touches nobody else. -/
theorem DeletionInv.ended (h : DeletionInv s₀ requesters p) {now : Int} {k : Bool → UserProg}
    (hadvances : Advances s₀ requesters p tid t env (.update id (renamed now)) sub id)
    (hrest : t.rest = .call (.update id (renamed now)) k)
    (hphase : phaseOf t.answers = .renaming now)
    (hk : k (IdentityStore.constrained env (.update id (renamed now)) p.shared).1 =
      .ret accountDeleted) : DeletionInv s₀ requesters (p.advanced tid env hrest) := by
  obtain ⟨ht, hrequested, hready, -⟩ := hadvances
  obtain ⟨row, hrow, hsub, hlive⟩ := hready.row
  have hopen := Thread.finished_of_call hrest
  have hshared : (p.advanced tid env hrest).shared =
      (atTime p.shared env.now).setColumns id (renamed now) :=
    congrArg Prod.snd (constrained_renamed hready.fails (hready.name now hphase))
  have hlookup : ∀ k, (p.advanced tid env hrest).shared.users.lookup k =
      (p.shared.users.lookup k).map fun u => if k = id then (renamed now).apply u else u := by
    intro k'
    rw [hshared]
    exact Dict.lookup_mapValues _ _ k'
  have hsame : ∀ {k}, k ≠ id →
      (p.advanced tid env hrest).shared.users.lookup k = p.shared.users.lookup k := by
    intro k' hne
    rw [hlookup]
    simp [hne]
  have hself : (p.advanced tid env hrest).shared.users.lookup id =
      some ((renamed now).apply row) := by
    rw [hlookup, hrow]
    simp
  refine ⟨⟨?_, ?_, ?_, ?_⟩, ?_, ?_, ?_, ?_⟩
  · rw [hshared]
    exact h.kept.roles
  · rw [hshared]
    exact h.kept.userRoles
  · intro k'
    rw [← h.kept.subs]
    by_cases hid : k' = id
    · subst hid
      rw [hself, hrow]
      rfl
    · rw [hsame hid]
  · intro k' u hu hother
    have hid : k' ≠ id := by
      rintro rfl
      have hsubs : some u.publicSub = some sub := by
        rw [← hrequested.row, hu]
        rfl
      rw [Option.some.inj hsubs] at hother
      exact hother hrequested.mem
    rw [hsame hid]
    exact h.kept.others hu hother
  · intro u hu
    obtain ⟨i, hi⟩ := List.mem_iff_getElem?.mp hu
    rcases getElem?_set_cases hi with ⟨rfl, rfl⟩ | ⟨hne, hold⟩
    · exact ⟨sub, id, hrequested, .inr ⟨hk, _, hself, rfl⟩⟩
    obtain ⟨sub', id', hrequested', hproceeds⟩ := h.proceeds u (List.mem_of_getElem? hold)
    have hid : id' ≠ id := by
      rintro rfl
      have hsubs : sub' = sub :=
        Option.some.inj (hrequested'.row.symm.trans hrequested.row)
      exact hne (h.distinct hold ht (by rw [hrequested'.request, hrequested.request, hsubs]))
    refine ⟨sub', id', hrequested', ?_⟩
    rcases hproceeds with ⟨hstage, hrow', hname⟩ | ⟨hdone, hdeleted⟩
    · refine .inl ⟨hstage, by rwa [hsame hid], ?_⟩
      intro now' hrenaming k' u' hu' hne'
      by_cases hk' : k' = id
      · subst hk'
        obtain rfl := Option.some.inj (hself.symm.trans hu')
        obtain ⟨op', k', hrest'⟩ := hstage.open
        have hopen' := Thread.finished_of_call hrest'
        have hnames := h.names ht hold (Ne.symm hne) hopen hopen' now hphase
        intro hequal
        have hnow := anonUsername_injective (Option.some.inj hequal)
        exact hnames (by rw [hrenaming, hnow])
      · rw [hsame hk'] at hu'
        exact hname now' hrenaming k' u' hu' hne'
    · exact .inr ⟨hdone, by rwa [hsame hid]⟩
  · intro i j u u' hu hu' heq
    rcases getElem?_set_cases hu with ⟨rfl, rfl⟩ | ⟨-, hold⟩ <;>
      rcases getElem?_set_cases hu' with ⟨rfl, rfl⟩ | ⟨-, hold'⟩
    · rfl
    · exact h.distinct ht hold' heq
    · exact h.distinct hold ht heq
    · exact h.distinct hold hold' heq
  · intro sub' hsub' hall
    have hne : sub' ≠ sub := by
      rintro rfl
      exact hall _ (List.mem_set (List.getElem?_eq_some_iff.mp ht).1 _) hrequested.request
    obtain ⟨id', u, hu, rfl, hlive'⟩ := h.live sub' hsub' fun u hu heq => by
      obtain ⟨i, hi⟩ := List.mem_iff_getElem?.mp hu
      have hi' : i ≠ tid := by
        rintro rfl
        obtain rfl := Option.some.inj (hi.symm.trans ht)
        exact hne (UserRequest.deleteAccount.inj (heq.symm.trans hrequested.request))
      refine hall u (List.mem_of_getElem? (i := i) ?_) heq
      rw [List.getElem?_set_ne (Ne.symm hi')]
      exact hi
    have hid : id' ≠ id := by
      rintro rfl
      obtain rfl := Option.some.inj (hu.symm.trans hrow)
      exact hne hsub
    exact ⟨id', u, by rwa [hsame hid], rfl, hlive'⟩
  · intro i j u u' hu hu' hne hopen' hopen'' now' hrenaming
    have hdone : (t.advance hrest ((constrainedService crypto).exec env
        (.update id (renamed now)) p.shared).1).finished = true := Thread.finished_of_ret hk
    rcases getElem?_set_cases hu with ⟨rfl, rfl⟩ | ⟨-, hold⟩
    · rw [hdone] at hopen'
      cases hopen'
    rcases getElem?_set_cases hu' with ⟨rfl, rfl⟩ | ⟨-, hold'⟩
    · rw [hdone] at hopen''
      cases hopen''
    exact h.names hold hold' hne hopen' hopen'' now' hrenaming

end Called

theorem deletionInv_of_run (hunique : UniqueSubs s₀)
    (hlive : ∀ sub ∈ requesters, ∃ id u, s₀.users.lookup id = some u ∧ u.publicSub = sub ∧
      u.deleted = false) {history : List UserEvent}
    (hrun : (constrainedService crypto).machine.Run (Undisturbed requesters) (start _ s₀) history p) :
    DeletionInv s₀ requesters p := by
  refine Machine.Run.invariant (fun _ q => DeletionInv s₀ requesters q) (.init hlive) ?_ hrun
  intro past q i _ hinv hok
  change DeletionInv s₀ requesters (Service.step _ q i).1
  rcases step_cases q i with ⟨request, rfl, hs⟩ | ⟨tid, env, t, op, k, hrest, rfl, ht, hs⟩ | hs
  · rw [hs]
    cases request with
    | deleteAccount sub => exact hinv.started hok.1 hok.2
    | _ => exact hok.elim
  · rw [hs]
    obtain ⟨sub, id, hadvances, hstage⟩ := hinv.advances hunique ht hrest hok
    rw [hrest] at hstage
    rcases hstage.next hadvances.ready with ⟨hread, hnext⟩ | ⟨now, hphase, rfl, hended⟩
    · exact hinv.read hadvances hrest hread hnext
    · exact hinv.ended hadvances hrest hphase hended
  · rw [hs]
    exact hinv

/-- In every interleaving of deletions by live users who are no active admins, in which the guard
lets them pass and every name is free when it is taken, each request is answered by a success and
its user ends soft-deleted. -/
theorem deletions_succeed (crypto : IdentityCrypto) (s₀ : IdentityStore) (hunique : UniqueSubs s₀)
    (requesters : List String)
    (hlive : ∀ sub ∈ requesters, ∃ id u, s₀.users.lookup id = some u ∧ u.publicSub = sub ∧
      u.deleted = false) (history : List UserEvent) (p : Pool (constrainedService crypto))
    (hrun : (constrainedService crypto).machine.Run (Undisturbed requesters) (start _ s₀)
      history p) : AllSucceed p := by
  have hinv := deletionInv_of_run hunique hlive hrun
  intro t ht
  obtain ⟨sub, id, hrequested, hproceeds⟩ := hinv.proceeds t ht
  refine ⟨?_, ?_⟩
  · have hwithin := within_deleteAccount sub
    have hreached := t.reached
    change Prog.Reached (program crypto t.request) _ _ at hreached
    rw [hrequested.request] at hreached
    exact hwithin.length_le hreached
  · intro reply hreply
    rcases hproceeds with ⟨hstage, -⟩ | ⟨hdone, u, hu, hdeleted⟩
    · obtain ⟨op, k, hrest⟩ := hstage.open
      rw [hrest] at hreply
      cases hreply
    · have hsub : some u.publicSub = some sub := by
        rw [← hrequested.row, ← hinv.kept.subs, hu]
        rfl
      rw [hdone] at hreply
      exact ⟨(Prog.ret.inj hreply).symm, sub, id, u, hrequested.request, hu,
        Option.some.inj hsub, hdeleted⟩

/-! ### Two deletions -/

instance (p : Pool (constrainedService crypto)) (target now : Int) :
    Decidable (NameFree p target now) := inferInstanceAs (Decidable (_ ∧ _))

instance (p : Pool (constrainedService crypto)) (target now : Int) (op : UserCall) :
    (phase : Phase) → Decidable (StepFree p target now op phase)
  | .asking => inferInstanceAs (Decidable (_ = true))
  | .revoking => inferInstanceAs (Decidable (_ → _))
  | .renaming _ => .isTrue trivial

instance (history : List UserEvent) (p : Pool (constrainedService crypto))
    (i : Input StatementEnv UserRequest) : Decidable (Deletions requesters history p i) :=
  match i with
  | .start (.deleteAccount _) => inferInstanceAs (Decidable (_ ∧ _))
  | .start (.validateUser _ _) | .start (.updateUser _ _) | .start (.deleteUser _ _)
  | .start (.disableUser _) | .start (.enableUser _) | .start (.assignUserRoles _ _) =>
    .isFalse False.elim
  | .advance _ _ => inferInstanceAs (Decidable (_ ∧ _))

instance (history : List UserEvent) (p : Pool (constrainedService crypto))
    (i : Input StatementEnv UserRequest) : Decidable (Undisturbed requesters history p i) :=
  match i with
  | .start request => inferInstanceAs (Decidable (Deletions requesters history p (.start request)))
  | .advance _ _ => inferInstanceAs (Decidable (_ ∧ _))

open LastAdmin (knownCrypto)

def knownSubs : List String :=
  ["11111111-1111-4111-8111-111111111111", "22222222-2222-4222-8222-222222222222"]

/-- Alice and Bob, who hold no role. -/
def knownUsers : IdentityStore where
  users :=
    AList.insert 1
      { publicSub := "11111111-1111-4111-8111-111111111111", username := some "alice"
        passwordHash := "" }
      (AList.insert 2
        { publicSub := "22222222-2222-4222-8222-222222222222", username := some "bob"
          passwordHash := "" } ∅)
  roles := AList.insert 1 "admin" ∅

abbrev knownAccounts := constrainedService knownCrypto

def advances (tid n : Nat) (now : Int) : List (Input StatementEnv UserRequest) :=
  List.replicate n (.advance tid { now })

def deletion (sub : String) : Input StatementEnv UserRequest := .start (.deleteAccount sub)

/-- Two deletions interleave and take the seconds 100 and 101. -/
def interleaved : List (Input StatementEnv UserRequest) :=
  knownSubs.map deletion ++ advances 0 6 100 ++ advances 1 6 101 ++ advances 0 2 101 ++
    advances 1 2 101

theorem uniqueSubs_of_nodup
    (h : (s.users.entries.map fun e => e.2.publicSub).Nodup) : UniqueSubs s := by
  intro k u k' u' hu hu' heq
  have hinj := List.inj_on_of_nodup_map h (AList.mem_lookup_iff.mp hu) (AList.mem_lookup_iff.mp hu')
    heq
  exact congrArg Sigma.fst hinj

theorem live_knownUsers : ∀ sub ∈ knownSubs, ∃ id u, knownUsers.users.lookup id = some u ∧
    u.publicSub = sub ∧ u.deleted = false := by
  intro sub hsub
  simp only [knownSubs, List.mem_cons, List.not_mem_nil, or_false] at hsub
  rcases hsub with rfl | rfl
  · exact ⟨1, _, AList.lookup_insert _, rfl, rfl⟩
  · exact ⟨2, _, by rw [knownUsers, AList.lookup_insert_ne (by decide), AList.lookup_insert], rfl, rfl⟩

theorem deletions_succeed_interleaved :
    AllSucceed (knownAccounts.machine.exec [] (start _ knownUsers) interleaved).2 ∧
    (knownAccounts.machine.exec [] (start _ knownUsers) interleaved).2.threads.map
      Thread.finished = [true, true] := by
  have hfacts : knownAccounts.machine.Guarded (Undisturbed knownSubs) [] (start _ knownUsers)
        interleaved ∧
      (knownAccounts.machine.exec [] (start _ knownUsers) interleaved).2.threads.map
        Thread.finished = [true, true] := by
    decide +kernel
  obtain ⟨hguarded, hfinished⟩ := hfacts
  refine ⟨?_, hfinished⟩
  exact deletions_succeed knownCrypto knownUsers (uniqueSubs_of_nodup (by decide)) knownSubs
    live_knownUsers _ _ (Machine.Run.exec_of_guarded .init interleaved hguarded)

/-- Both deletions get to their names within one second. -/
def sameSecond : List (Input StatementEnv UserRequest) :=
  knownSubs.map deletion ++ advances 0 6 100 ++ advances 1 6 100 ++ advances 0 2 100 ++
    advances 1 2 100

theorem sameSecond_fails :
    UniqueSubs knownUsers ∧ (∀ sub ∈ knownSubs, ∃ id u, knownUsers.users.lookup id = some u ∧
      u.publicSub = sub ∧ u.deleted = false) ∧
    knownAccounts.machine.Run (Deletions knownSubs) (start _ knownUsers)
      (knownAccounts.machine.exec [] (start _ knownUsers) sameSecond).1
      (knownAccounts.machine.exec [] (start _ knownUsers) sameSecond).2 ∧
    ¬AllSucceed (knownAccounts.machine.exec [] (start _ knownUsers) sameSecond).2 := by
  have hfacts : knownAccounts.machine.Guarded (Deletions knownSubs) [] (start _ knownUsers)
        sameSecond ∧
      (knownAccounts.machine.exec [] (start _ knownUsers) sameSecond).2.threads[1]?.bind
        Thread.result = some (.error "DB_QUERY_ERROR" "deleteAccount user update failed: ") := by
    decide +kernel
  obtain ⟨hguarded, hresult⟩ := hfacts
  refine ⟨uniqueSubs_of_nodup (by decide), live_knownUsers,
    Machine.Run.exec_of_guarded .init sameSecond hguarded, ?_⟩
  intro hsucceed
  obtain ⟨t, ht, hrest⟩ := Pool.thread_of_result hresult
  obtain ⟨hreply, -⟩ := (hsucceed t (List.mem_of_getElem? ht)).2 _ hrest
  cases hreply

end AuthForge.AccountDeletion
