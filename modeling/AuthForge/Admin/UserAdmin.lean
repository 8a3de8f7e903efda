import AuthForge.Identity.Statements

/-!
# User administration

The requests of `UserAdminService` that change a user, self-service account deletion, and the
last-active-admin guard in front of them, as programs over single statements.
-/

namespace AuthForge.Admin

open Identity

def kLockedForeverSentinel : Int := 9999999999

/-- The guard: the target holds the admin role and no other holder is active. -/
def isLastActiveAdmin (targetUserId : Int) (onDone : Bool → UserProg) (onError : UserProg) :
    UserProg :=
  .call .findAdminRoles fun
    | none => onError
    | some [] => onDone false
    | some (roleId :: roleIds) =>
      .call (.findRoleHolders (roleId :: roleIds)) fun
        | none => onError
        | some adminIds =>
          if targetUserId ∉ adminIds then onDone false
          else if adminIds.filter (· ≠ targetUserId) = [] then onDone true
          else
            .call .nowSeconds fun now =>
            .call (.countActive (adminIds.filter (· ≠ targetUserId)) now) fun
              | none => onError
              | some otherActiveAdmins => onDone (otherActiveAdmins = 0)

def guardFailed (detail : String) : UserProg := .ret (.error "DB_QUERY_ERROR" detail)

def notFound : UserProg := .ret (.error "VALIDATION_RESOURCE_NOT_FOUND" "User not found")

/-! ### Updating, disabling and enabling -/

/-- The members of the body of `updateUser`. -/
structure UserUpdate where
  email : Option String := none
  emailVerified : Option Bool := none
  username : Option String := none
  mfaEnabled : Option Bool := none
  locked : Option Bool := none
  orgId : Option (Option Int) := none
  deriving DecidableEq

def UserUpdate.isEmpty (body : UserUpdate) : Bool :=
  body.email.isNone && body.emailVerified.isNone && body.username.isNone &&
    body.mfaEnabled.isNone && body.locked.isNone && body.orgId.isNone

def UserUpdate.changes (body : UserUpdate) : Changes where
  email := body.email.map fun email => some (normalizeEmail email)
  emailVerified := body.emailVerified
  username := body.username
  mfaEnabled := body.mfaEnabled
  lockedUntil := body.locked.map fun locked => if locked then kLockedForeverSentinel else 0

def proceedWithUpdate (userId : Int) (body : UserUpdate) : UserProg :=
  .call (.update userId body.changes) fun
    | true => .ret (.success "User updated successfully")
    | false => .ret (.error "DB_QUERY_ERROR" "Failed to update user: ")

def updateUser (userId : Int) (body : UserUpdate) : UserProg :=
  if body.isEmpty then .ret (.error "VALIDATION_INVALID_INPUT" "No updatable fields provided")
  else
    .call (.findOne userId) fun
      | none => notFound
      | some _ =>
        if body.locked = some true then
          isLastActiveAdmin userId
            (fun lastAdmin =>
              if lastAdmin then
                .ret (.error "VALIDATION_RESOURCE_CONFLICT" "Cannot lock the last active admin")
              else proceedWithUpdate userId body)
            (guardFailed "Failed to evaluate last-admin guard")
        else proceedWithUpdate userId body

def disableUser (userId : Int) : UserProg :=
  .call (.findOne userId) fun
    | none => notFound
    | some _ =>
      isLastActiveAdmin userId
        (fun lastAdmin =>
          if lastAdmin then
            .ret (.error "VALIDATION_RESOURCE_CONFLICT" "Cannot disable the last active admin")
          else
            .call (.update userId { lockedUntil := some kLockedForeverSentinel }) fun
              | true => .ret (.success "User disabled successfully")
              | false => .ret (.error "DB_QUERY_ERROR" "Failed to disable user: "))
        (guardFailed "Failed to evaluate last-admin guard")

def enableUser (userId : Int) : UserProg :=
  .call (.findOne userId) fun
    | none => notFound
    | some _ =>
      .call (.update userId { lockedUntil := some 0, failedLoginCount := some 0 }) fun
        | true => .ret (.success "User enabled successfully")
        | false => .ret (.error "DB_QUERY_ERROR" "Failed to enable user: ")

/-! ### Deleting -/

def deleteUser (actorId : String) (userId : Int) : UserProg :=
  .call (.findOne userId) fun
    | none => notFound
    | some row =>
      if row.publicSub = actorId then
        .ret (.error "VALIDATION_INVALID_INPUT" "Cannot delete your own account")
      else
        isLastActiveAdmin userId
          (fun lastAdmin =>
            if lastAdmin then
              .ret (.error "VALIDATION_RESOURCE_CONFLICT" "Cannot delete the last active admin")
            else
              .call (.update userId { deleted := true }) fun
                | false => .ret (.error "DB_QUERY_ERROR" "Failed to delete user: ")
                | true =>
                  .call (.revokeAccessTokens row.publicSub userId) fun accessOk =>
                  .call (.revokeRefreshTokens row.publicSub userId) fun refreshOk =>
                    .ret (.deleted (refreshOk && accessOk)))
          (guardFailed "Failed to evaluate last-admin guard")

def anonymizeAndSoftDelete (publicSub anonUsername : String) : UserProg :=
  .call (.findBySub publicSub) fun
    | none => .ret (.error "DB_QUERY_ERROR" "deleteAccount user lookup failed: ")
    | some [] => .ret (.error "VALIDATION_RESOURCE_NOT_FOUND" "deleteAccount: user not found")
    | some ((internalId, _) :: _) =>
      .call (.update internalId
        { username := some anonUsername, email := some none, passwordHash := some "DELETED"
          deleted := true }) fun
        | true => .ret (.success "Account deleted successfully")
        | false => .ret (.error "DB_QUERY_ERROR" "deleteAccount user update failed: ")

/-- Revoking tokens is best effort; when the access tokens cannot be revoked the refresh tokens are
left alone. -/
def proceedWithDelete (publicSub : String) (internalId : Int) : UserProg :=
  let anonymize : UserProg :=
    .call .nowSeconds fun now => anonymizeAndSoftDelete publicSub ("deleted_" ++ toString now)
  .call (.revokeAccessTokens publicSub internalId) fun
    | true => .call (.revokeRefreshTokens publicSub internalId) fun _ => anonymize
    | false => anonymize

def deleteAccount (publicSub : String) : UserProg :=
  .call (.findBySub publicSub) fun
    | none => .ret (.error "DB_QUERY_ERROR" "deleteAccount user lookup failed: ")
    | some [] => .ret (.error "VALIDATION_RESOURCE_NOT_FOUND" "deleteAccount: user not found")
    | some ((internalId, _) :: _) =>
      isLastActiveAdmin internalId
        (fun lastAdmin =>
          if lastAdmin then
            .ret (.error "VALIDATION_RESOURCE_CONFLICT"
              "Cannot delete the last active admin account")
          else proceedWithDelete publicSub internalId)
        (guardFailed "deleteAccount: failed to evaluate last-admin guard")

/-! ### Assigning roles -/

/-- The inserts run side by side and are answered in any order; the last answer decides the reply.
`n` is the number of inserts that are still open besides the next one. -/
def insertRoles (userId : Int) : Nat → List (Int × String) → List String → UserProg
  | n, pending, assigned =>
    .call .choose fun c =>
      match pending[c % pending.length]? with
      | none => .ret (.rolesUpdated assigned)
      | some role =>
        .call (.insertRole userId role.1) fun ok =>
          let assigned' := if ok then assigned ++ [role.2] else assigned
          match n with
          | 0 =>
            if ok then .ret (.rolesUpdated assigned')
            else .ret (.error "DB_QUERY_ERROR" "Failed to assign some roles: ")
          | n + 1 => insertRoles userId n (pending.eraseIdx (c % pending.length)) assigned'

/-- The roles that are known by the given names are inserted; unknown names are skipped. -/
def insertNamed (userId : Int) (roleNames : List String) : UserProg :=
  if roleNames = [] then .ret (.rolesUpdated [])
  else
    .call (.findRoles roleNames) fun
      | none => .ret (.error "DB_QUERY_ERROR" "Failed to resolve role names: ")
      | some [] => .ret (.rolesUpdated [])
      | some (role :: resolved) => insertRoles userId resolved.length (role :: resolved) []

def proceedWithAssign (userId : Int) (roleNames : List String) : UserProg :=
  .call (.deleteRoles userId) fun
    | false => .ret (.error "DB_QUERY_ERROR" "Failed to clear existing roles: ")
    | true => insertNamed userId roleNames

def assignUserRoles (userId : Int) (roleNames : List String) : UserProg :=
  .call (.findOne userId) fun
    | none => notFound
    | some _ =>
      if "admin" ∈ roleNames then proceedWithAssign userId roleNames
      else
        isLastActiveAdmin userId
          (fun lastAdmin =>
            if lastAdmin then
              .ret (.error "VALIDATION_RESOURCE_CONFLICT"
                "Cannot remove the admin role from the last active admin")
            else proceedWithAssign userId roleNames)
          (guardFailed "Failed to evaluate last-admin guard")

/-! ### Which statements the requests issue -/

section Only

variable {P : UserCall → Prop} {userId : Int}

/-- The statements of the guard, which only read. -/
structure GuardReads (P : UserCall → Prop) : Prop where
  roles : P .findAdminRoles
  holders : ∀ roleIds, P (.findRoleHolders roleIds)
  now : P .nowSeconds
  count : ∀ ids now, P (.countActive ids now)

theorem every_isLastActiveAdmin {Q : UserProg → Prop} {onDone : Bool → UserProg}
    {onError : UserProg} (hreads : GuardReads fun op => ∀ k : op.Resp → UserProg, Q (.call op k))
    (hdone : ∀ lastAdmin, (onDone lastAdmin).Every Q) (herror : onError.Every Q) :
    (isLastActiveAdmin userId onDone onError).Every Q := by
  refine ⟨hreads.roles _, ?_⟩
  intro roleIds
  rcases roleIds with _ | _ | ⟨roleId, roleIds⟩
  · exact herror
  · exact hdone false
  refine ⟨hreads.holders _ _, ?_⟩
  intro adminIds
  rcases adminIds with _ | adminIds
  · exact herror
  dsimp only
  split
  · exact hdone false
  split
  · exact hdone true
  refine ⟨hreads.now _, fun now => ⟨hreads.count _ _ _, ?_⟩⟩
  intro count
  rcases count with _ | count
  · exact herror
  · exact hdone _

theorem only_isLastActiveAdmin {onDone : Bool → UserProg} {onError : UserProg}
    (hreads : GuardReads P) (hdone : ∀ lastAdmin, (onDone lastAdmin).Only P)
    (herror : onError.Only P) : (isLastActiveAdmin userId onDone onError).Only P := by
  rw [Prog.only_iff_every] at herror ⊢
  refine every_isLastActiveAdmin ?_ (fun lastAdmin => Prog.only_iff_every.mp (hdone lastAdmin))
    herror
  exact ⟨fun _ => hreads.roles, fun roleIds _ => hreads.holders roleIds, fun _ => hreads.now,
    fun ids now _ => hreads.count ids now⟩

theorem only_insertRoles (hchoose : P .choose) (hinsert : ∀ roleId, P (.insertRole userId roleId))
    (n : Nat) (pending : List (Int × String)) (assigned : List String) :
    (insertRoles userId n pending assigned).Only P := by
  induction n generalizing pending assigned with
  | zero =>
    unfold insertRoles
    refine ⟨hchoose, ?_⟩
    intro c
    dsimp only
    split
    · trivial
    · refine ⟨hinsert _, ?_⟩
      intro ok
      dsimp only
      split <;> trivial
  | succ n ih =>
    unfold insertRoles
    refine ⟨hchoose, ?_⟩
    intro c
    dsimp only
    split
    · trivial
    · exact ⟨hinsert _, fun ok => ih _ _⟩

theorem only_insertNamed {roleNames : List String} (hchoose : P .choose)
    (hfind : P (.findRoles roleNames)) (hinsert : ∀ roleId, P (.insertRole userId roleId)) :
    (insertNamed userId roleNames).Only P := by
  unfold insertNamed
  split
  · trivial
  refine ⟨hfind, ?_⟩
  intro resolved
  rcases resolved with _ | _ | ⟨role, resolved⟩
  · trivial
  · trivial
  · exact only_insertRoles hchoose hinsert _ _ _

theorem only_proceedWithAssign {roleNames : List String} (hchoose : P .choose)
    (hdelete : P (.deleteRoles userId)) (hfind : P (.findRoles roleNames))
    (hinsert : ∀ roleId, P (.insertRole userId roleId)) :
    (proceedWithAssign userId roleNames).Only P := by
  refine ⟨hdelete, ?_⟩
  intro cleared
  cases cleared with
  | false => trivial
  | true => exact only_insertNamed hchoose hfind hinsert

theorem only_anonymizeAndSoftDelete {publicSub anonUsername : String}
    (hfind : P (.findBySub publicSub))
    (hupdate : ∀ id c, c.deleted = true → c.lockedUntil = none → P (.update id c)) :
    (anonymizeAndSoftDelete publicSub anonUsername).Only P := by
  refine ⟨hfind, ?_⟩
  intro users
  rcases users with _ | _ | ⟨user, users⟩
  · trivial
  · trivial
  refine ⟨hupdate _ _ rfl rfl, ?_⟩
  intro ok
  cases ok <;> trivial

theorem only_proceedWithDelete {publicSub : String}
    (haccess : P (.revokeAccessTokens publicSub userId))
    (hrefresh : P (.revokeRefreshTokens publicSub userId)) (hnow : P .nowSeconds)
    (hfind : P (.findBySub publicSub))
    (hupdate : ∀ id c, c.deleted = true → c.lockedUntil = none → P (.update id c)) :
    (proceedWithDelete publicSub userId).Only P := by
  refine ⟨haccess, ?_⟩
  intro ok
  cases ok with
  | false => exact ⟨hnow, fun _ => only_anonymizeAndSoftDelete hfind hupdate⟩
  | true =>
    exact ⟨hrefresh, fun _ => ⟨hnow, fun _ => only_anonymizeAndSoftDelete hfind hupdate⟩⟩

end Only

/-! ### The service -/

inductive UserRequest
  | validateUser (identifier password : String)
  | updateUser (userId : Int) (body : UserUpdate)
  | deleteUser (actorId : String) (userId : Int)
  | disableUser (userId : Int)
  | enableUser (userId : Int)
  | assignUserRoles (userId : Int) (roleNames : List String)
  | deleteAccount (publicSub : String)
  deriving DecidableEq

def program (crypto : IdentityCrypto) : UserRequest → UserProg
  | .validateUser identifier password => Statements.validateUser crypto identifier password
  | .updateUser userId body => updateUser userId body
  | .deleteUser actorId userId => deleteUser actorId userId
  | .disableUser userId => disableUser userId
  | .enableUser userId => enableUser userId
  | .assignUserRoles userId roleNames => assignUserRoles userId roleNames
  | .deleteAccount publicSub => deleteAccount publicSub

abbrev UserEvent := Service.Event StatementEnv UserCall UserCall.Resp UserRequest

/-- Logins and administration over the tables, at the granularity of statements. -/
def service (crypto : IdentityCrypto) :
    Service IdentityStore StatementEnv UserCall UserCall.Resp UserRequest UserReply where
  exec := IdentityStore.exec
  program := program crypto

/-- The same over tables that keep the usernames unique. -/
def constrainedService (crypto : IdentityCrypto) :
    Service IdentityStore StatementEnv UserCall UserCall.Resp UserRequest UserReply where
  exec := IdentityStore.constrained
  program := program crypto

end AuthForge.Admin
