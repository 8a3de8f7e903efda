import AuthForge.Base.Spawn
import AuthForge.Identity.Users

/-!
# The users table, statement by statement

What the identity repository and the user administration do to the tables of users and roles, one
SQL statement at a time. A mapper reads a row, the caller sets columns of its copy, and the update
writes exactly the columns set: between the two statements the row may have changed.
-/

namespace AuthForge.Identity

/-- The columns of a row that were set since it was read. -/
structure Changes where
  username : Option String := none
  email : Option (Option String) := none
  emailVerified : Option Bool := none
  mfaEnabled : Option Bool := none
  /-- `deleted_at` was set. -/
  deleted : Bool := false
  passwordHash : Option String := none
  salt : Option String := none
  failedLoginCount : Option Int := none
  lockedUntil : Option Int := none
  lastFailedLogin : Option Int := none
  deriving DecidableEq

def Changes.apply (c : Changes) (u : UserRow) : UserRow :=
  { u with
    username := c.username.or u.username
    email := c.email.getD u.email
    emailVerified := c.emailVerified.getD u.emailVerified
    mfaEnabled := c.mfaEnabled.getD u.mfaEnabled
    deleted := c.deleted || u.deleted
    passwordHash := c.passwordHash.getD u.passwordHash
    salt := c.salt.getD u.salt
    failedLoginCount := c.failedLoginCount.getD u.failedLoginCount
    lockedUntil := c.lockedUntil.getD u.lockedUntil
    lastFailedLogin := c.lastFailedLogin.getD u.lastFailedLogin }

inductive UserCall
  | nowSeconds
  | randomBytes
  /-- Which of several pending statements is executed next. -/
  | choose
  /-- `findByEmail` or `findByUsername`. -/
  | findLogin (identifier : String)
  /-- `findOne` on `id` and `deleted_at IS NULL`. -/
  | findOne (userId : Int)
  /-- `findBy` on `id` alone. -/
  | findBy (userId : Int)
  /-- `findBy` on `public_sub` and `deleted_at IS NULL`. -/
  | findBySub (publicSub : String)
  | update (userId : Int) (changes : Changes)
  | findAdminRoles
  | findRoleHolders (roleIds : List Int)
  /-- `count` of the users among `ids` that are neither deleted nor locked at `now`. -/
  | countActive (ids : List Int) (now : Int)
  | deleteRoles (userId : Int)
  | findRoles (names : List String)
  | insertRole (userId roleId : Int)
  | revokeAccessTokens (publicSub : String) (userId : Int)
  | revokeRefreshTokens (publicSub : String) (userId : Int)
  deriving DecidableEq

/-- Answers. `findLogin` and `findOne` answer `none` also when they throw; the other queries answer
`none` only then, and a write answers whether it was executed. -/
@[reducible] def UserCall.Resp : UserCall → Type
  | .nowSeconds => Int
  | .randomBytes => List UInt8
  | .choose => Nat
  | .findLogin _ => Option (Int × UserRow)
  | .findOne _ => Option UserRow
  | .findBy _ => Option (Option UserRow)
  | .findBySub _ => Option (List (Int × UserRow))
  | .update _ _ => Bool
  | .findAdminRoles => Option (List Int)
  | .findRoleHolders _ => Option (List Int)
  | .countActive _ _ => Option Nat
  | .deleteRoles _ => Bool
  | .findRoles _ => Option (List (Int × String))
  | .insertRole _ _ => Bool
  | .revokeAccessTokens _ _ => Bool
  | .revokeRefreshTokens _ _ => Bool

structure StatementEnv where
  now : Int := 0
  fails : Bool := false
  random : List UInt8 := []
  choice : Nat := 0

/-- The tables, with the time of the last statement. -/
structure IdentityStore where
  users : Dict Int UserRow
  roles : Dict Int String := ∅
  userRoles : List (Int × Int) := []
  clock : Int := 0

namespace IdentityStore

def matching (s : IdentityStore) (p : UserRow → Bool) : List (Int × UserRow) :=
  (s.users.entries.filter fun e => p e.2).map fun e => (e.1, e.2)

def findUnique (s : IdentityStore) (p : UserRow → Bool) : Option (Int × UserRow) :=
  match s.matching p with
  | [e] => some e
  | _ => none

def rolesNamed (s : IdentityStore) (names : List String) : List (Int × String) :=
  (s.roles.entries.filter fun e => e.2 ∈ names).map fun e => (e.1, e.2)

def holders (s : IdentityStore) (roleIds : List Int) : List Int :=
  (s.userRoles.filter fun ur => ur.2 ∈ roleIds).map Prod.fst

def countActive (s : IdentityStore) (ids : List Int) (now : Int) : Nat :=
  s.users.entries.countP fun e => e.1 ∈ ids && !e.2.deleted && e.2.lockedUntil ≤ now

def setColumns (s : IdentityStore) (userId : Int) (changes : Changes) : IdentityStore :=
  { s with
    users := s.users.mapValues fun id u => if id = userId then changes.apply u else u }

/-- One statement, on tables whose clock already shows the time of its execution. -/
def statement (env : StatementEnv) : (op : UserCall) → IdentityStore → op.Resp × IdentityStore
  | .nowSeconds, s => (env.now, s)
  | .randomBytes, s => (env.random, s)
  | .choose, s => (env.choice, s)
  | .findLogin identifier, s =>
    (if env.fails then none else s.findUnique (hasIdentifier identifier), s)
  | .findOne userId, s =>
    (if env.fails then none else (s.users.lookup userId).filter fun u => !u.deleted, s)
  | .findBy userId, s => (if env.fails then none else some (s.users.lookup userId), s)
  | .findBySub publicSub, s =>
    (if env.fails then none
      else some (s.matching fun u => u.publicSub = publicSub && !u.deleted), s)
  | .update userId changes, s =>
    if env.fails then (false, s) else (true, s.setColumns userId changes)
  | .findAdminRoles, s =>
    (if env.fails then none else some ((s.rolesNamed ["admin"]).map Prod.fst), s)
  | .findRoleHolders roleIds, s => (if env.fails then none else some (s.holders roleIds), s)
  | .countActive ids now, s => (if env.fails then none else some (s.countActive ids now), s)
  | .deleteRoles userId, s =>
    if env.fails then (false, s)
    else (true, { s with userRoles := s.userRoles.filter fun ur => ur.1 ≠ userId })
  | .findRoles names, s => (if env.fails then none else some (s.rolesNamed names), s)
  | .insertRole userId roleId, s =>
    -- the primary key of user_roles is the pair
    if env.fails = true ∨ (userId, roleId) ∈ s.userRoles then (false, s)
    else (true, { s with userRoles := s.userRoles ++ [(userId, roleId)] })
  | .revokeAccessTokens _ _, s => (!env.fails, s)
  | .revokeRefreshTokens _ _, s => (!env.fails, s)

def exec (env : StatementEnv) (op : UserCall) (s : IdentityStore) : op.Resp × IdentityStore :=
  statement env op { s with clock := env.now }

/-- `users.username` is UNIQUE, and NULL is no duplicate of NULL. -/
def violatesUnique (s : IdentityStore) : UserCall → Bool
  | .update userId changes =>
    changes.username.any fun name =>
      s.users.entries.any (fun e => e.1 = userId) &&
        s.users.entries.any fun e => e.1 ≠ userId && e.2.username = some name
  | _ => false

/-- A statement on tables with the constraint: one that violates it fails. -/
def constrained (env : StatementEnv) (op : UserCall) (s : IdentityStore) :
    op.Resp × IdentityStore :=
  exec { env with fails := env.fails || s.violatesUnique op } op s

/-- What a statement makes of the row of user `k`. -/
def written (env : StatementEnv) (op : UserCall) (k : Int) (u : UserRow) : UserRow :=
  match op with
  | .update userId changes => if env.fails = false ∧ k = userId then changes.apply u else u
  | _ => u

variable {s : IdentityStore} {env : StatementEnv} {op : UserCall}

theorem lookup_exec (k : Int) :
    (exec env op s).2.users.lookup k = (s.users.lookup k).map (written env op k) := by
  have hsame : s.users.lookup k = (s.users.lookup k).map fun u => u := Option.map_id'.symm
  cases op with
  | update userId changes =>
    simp only [exec, statement]
    split
    · rename_i hfails
      have hwritten : written env (.update userId changes) k = fun u => u := by
        funext u
        simp [written, hfails]
      rw [hwritten]
      exact hsame
    · rename_i hfails
      have hwritten : written env (.update userId changes) k =
          fun u => if k = userId then changes.apply u else u := by
        funext u
        simp [written, hfails]
      rw [hwritten, setColumns, Dict.lookup_mapValues]
  | deleteRoles userId =>
    simp only [exec, statement]
    split <;> exact hsame
  | insertRole userId roleId =>
    simp only [exec, statement]
    split <;> exact hsame
  | _ => exact hsame

theorem roles_exec : (exec env op s).2.roles = s.roles := by
  cases op <;> simp only [exec, statement] <;> split <;> rfl

theorem findUnique_eq_some {p : UserRow → Bool} {id : Int} {u : UserRow}
    (h : s.findUnique p = some (id, u)) : s.users.lookup id = some u ∧ p u = true := by
  unfold findUnique at h
  split at h
  · rename_i e hmatching
    obtain rfl := Option.some.inj h
    have hmem : (id, u) ∈ s.matching p := by simp [hmatching]
    obtain ⟨e, he, heq⟩ := List.mem_map.mp hmem
    obtain ⟨rfl, rfl⟩ := Prod.mk.inj heq
    rw [List.mem_filter] at he
    exact ⟨AList.mem_lookup_iff.mpr he.1, he.2⟩
  · cases h

/-- Where the condition can hold of one row only, that row is found by its key. -/
theorem findUnique_of_only {p : UserRow → Bool} {id : Int}
    (honly : ∀ k u, s.users.lookup k = some u → p u = true → k = id) :
    s.findUnique p = ((s.users.lookup id).filter p).map fun u => (id, u) := by
  have hkeys : ((s.users.entries.filter fun e => p e.2).map Sigma.fst).Nodup :=
    s.users.nodupKeys.sublist List.filter_sublist
  have hmem : ∀ e, e ∈ (s.users.entries.filter fun e => p e.2) ↔
      s.users.lookup e.1 = some e.2 ∧ p e.2 = true := by
    intro e
    rw [List.mem_filter, AList.mem_lookup_iff.symm]
    rfl
  unfold findUnique matching
  generalize (s.users.entries.filter fun e => p e.2) = found at hkeys hmem ⊢
  match found with
  | [] =>
    have hnone : (s.users.lookup id).filter p = none := by
      rw [Option.filter_eq_none_iff]
      intro u hu hp
      exact absurd ((hmem ⟨id, u⟩).mpr ⟨hu, hp⟩) List.not_mem_nil
    rw [hnone]
    rfl
  | [e] =>
    obtain ⟨hlookup, hp⟩ := (hmem e).mp List.mem_cons_self
    obtain rfl := honly _ _ hlookup hp
    rw [Option.filter_eq_some_iff.mpr ⟨hlookup, hp⟩]
    rfl
  | e :: e' :: _ =>
    obtain ⟨hlookup, hp⟩ := (hmem e).mp List.mem_cons_self
    obtain ⟨hlookup', hp'⟩ := (hmem e').mp (List.mem_cons_of_mem _ List.mem_cons_self)
    have hsame := (honly _ _ hlookup hp).trans (honly _ _ hlookup' hp').symm
    simp [hsame] at hkeys

end IdentityStore

/-! ### The identity service over the repository -/

inductive UserReply
  | validated (result : Validation)
  | success (message : String)
  | rolesUpdated (roles : List String)
  | deleted (tokensRevoked : Bool)
  | error (code detail : String)
  deriving DecidableEq

abbrev UserProg := Prog UserCall UserCall.Resp UserReply
abbrev UserTask := Prog UserCall UserCall.Resp Unit
abbrev UserAnswer := Answer UserCall UserCall.Resp

namespace Statements

def done : UserTask := .ret ()

/-- Start a task and go on without waiting for it. -/
def spawn (task : UserTask) (rest : UserProg) : UserProg :=
  Prog.spawn .choose (fun c => c = 0) task rest

/-- The repository's writes first read the row and stop when the query fails or finds nothing. -/
def withRow (userId : Int) (k : UserRow → UserTask) : UserTask :=
  .call (.findBy userId) fun
    | none => done
    | some none => done
    | some (some user) => k user

def resetFailedLogins (userId : Int) : UserTask :=
  withRow userId fun _ =>
    .call (.update userId { failedLoginCount := some 0, lockedUntil := some 0 }) fun _ => done

def incrementFailedLogins (userId : Int) : UserTask :=
  withRow userId fun user =>
    .call .nowSeconds fun now =>
    .call (.update userId
      { failedLoginCount := some (user.failedLoginCount + 1)
        lockedUntil := some (lockAfter now (user.failedLoginCount + 1))
        lastFailedLogin := some now }) fun _ => done

def updatePasswordHash (userId : Int) (newHash : String) : UserTask :=
  withRow userId fun _ =>
    .call (.update userId { passwordHash := some newHash, salt := some "" }) fun _ => done

def rehash (crypto : IdentityCrypto) (userId : Int) (password : String) : UserTask :=
  .call .randomBytes fun salt =>
    match hashPassword crypto password salt with
    | none => done
    | some newHash => updatePasswordHash userId newHash

/-- The continuation of `AuthService::validateUser`. The caller has its answer before the spawned
statements are executed; nothing here depends on when it got it. -/
def onFound (crypto : IdentityCrypto) (password : String) (id : Int) (user : UserRow) : UserProg :=
  .call .nowSeconds fun now =>
    if user.lockedUntil > now then .ret (.validated .rejected)
    else if verifyPassword crypto password user.passwordHash user.salt = false then
      spawn (incrementFailedLogins id) (.ret (.validated .rejected))
    else
      spawn (if user.failedLoginCount > 0 then resetFailedLogins id else done)
        (spawn (if isLegacyHash user.passwordHash then rehash crypto id password else done)
          (.ret (.validated (.accepted (authResultOf id user.toProfile)))))

def validateUser (crypto : IdentityCrypto) (identifier password : String) : UserProg :=
  .call (.findLogin identifier) fun
    | none => .ret (.validated .rejected)
    | some (id, user) => onFound crypto password id user

/-! ### Which statements a login issues -/

variable {P : UserCall → Prop} {id : Int}

theorem only_withRow {k : UserRow → UserTask} (hfind : P (.findBy id)) (hk : ∀ u, (k u).Only P) :
    (withRow id k).Only P := by
  refine ⟨hfind, ?_⟩
  intro found
  rcases found with _ | _ | row
  · trivial
  · trivial
  · exact hk row

theorem only_rehash {crypto : IdentityCrypto} {password : String} (hrandom : P .randomBytes)
    (hfind : P (.findBy id))
    (hupdate : ∀ newHash, P (.update id { passwordHash := some newHash, salt := some "" })) :
    (rehash crypto id password).Only P := by
  refine ⟨hrandom, ?_⟩
  intro salt
  dsimp only
  split
  · trivial
  · exact only_withRow hfind fun _ => ⟨hupdate _, fun _ => trivial⟩

/-- A login that found user `id` reads and updates that user only. -/
theorem only_onFound {crypto : IdentityCrypto} {password : String} {user : UserRow}
    (hnow : P .nowSeconds) (hrandom : P .randomBytes) (hchoose : P .choose)
    (hfind : P (.findBy id)) (hupdate : ∀ c, P (.update id c)) :
    (onFound crypto password id user).Only P := by
  refine ⟨hnow, ?_⟩
  intro now
  dsimp only
  split
  · trivial
  split
  · refine Prog.only_spawn hchoose ?_ trivial
    exact only_withRow hfind fun _ => ⟨hnow, fun _ => ⟨hupdate _, fun _ => trivial⟩⟩
  · refine Prog.only_spawn hchoose ?_ (Prog.only_spawn hchoose ?_ trivial)
    · split
      · exact only_withRow hfind fun _ => ⟨hupdate _, fun _ => trivial⟩
      · trivial
    · split
      · exact only_rehash hrandom hfind fun _ => hupdate _
      · trivial

end Statements

end AuthForge.Identity
