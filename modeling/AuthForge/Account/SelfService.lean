import AuthForge.Identity.Statements
import AuthForge.Storage.Postgres

/-!
# Passwords and authorized apps

`PasswordResetService::confirmReset` and the requests `changePassword` and `revokeAuthorizedApp` of
the self-service controller, statement by statement, together with the login that may run beside
them. They write the users table, mark reset tokens as used, delete consents and revoke tokens by
owner. The text of a database exception is left out of the error details.
-/

namespace AuthForge.Account

open Identity OAuth2 Storage

/-- A row of `password_reset_tokens`, whose primary key is the hash. -/
structure ResetToken where
  userId : Int
  expiresAt : Int
  used : Bool := false
  deriving DecidableEq

inductive AccountCall
  /-- A statement of the identity repository. -/
  | user (op : UserCall)
  /-- `UPDATE password_reset_tokens SET used = true … RETURNING user_id`. -/
  | useResetToken (tokenHash : String) (now : Int)
  /-- `findOne` on `id` alone. -/
  | findUser (userId : Int)
  | deleteConsents (internalUserId : Int) (clientId : String)
  /-- `UPDATE oauth2_access_tokens SET revoked = true WHERE user_id = $1`. -/
  | revokeAccessTokens (userId : String)
  | revokeRefreshTokens (userId : String)
  /-- `UPDATE oauth2_access_tokens … WHERE user_id = $1 AND client_id = $2`. -/
  | revokeClientTokens (userId clientId : String)
  deriving DecidableEq

/-- Answers. A query that throws answers `none`, and `findUser` also when there is no row; a write
answers whether it was executed. -/
@[reducible] def AccountCall.Resp : AccountCall → Type
  | .user op => op.Resp
  | .useResetToken _ _ => Option (List Int)
  | .findUser _ => Option UserRow
  | .deleteConsents _ _ => Bool
  | .revokeAccessTokens _ => Bool
  | .revokeRefreshTokens _ => Bool
  | .revokeClientTokens _ _ => Bool

structure AccountStore where
  identity : IdentityStore
  resetTokens : Dict String ResetToken := ∅
  /-- `oauth2_user_consents`: internal user id and client id. -/
  consents : List (Int × String) := []
  tokens : Postgres.TokenTables

namespace AccountStore

def useResetToken (tokenHash : String) (now : Int) (s : AccountStore) : List Int × AccountStore :=
  match s.resetTokens.lookup tokenHash with
  | none => ([], s)
  | some row =>
    if row.used = false ∧ row.expiresAt > now then
      ([row.userId],
        { s with resetTokens := s.resetTokens.insert tokenHash { row with used := true } })
    else ([], s)

/-- A write of the tables that the environment may let fail. -/
def write (env : StatementEnv) (f : AccountStore → AccountStore) (s : AccountStore) :
    Bool × AccountStore :=
  if env.fails then (false, s) else (true, f s)

def exec (env : StatementEnv) : (op : AccountCall) → AccountStore → op.Resp × AccountStore
  | .user op, s =>
    let r := IdentityStore.exec env op s.identity
    (r.1, { s with identity := r.2 })
  | .useResetToken tokenHash now, s =>
    if env.fails then (none, s)
    else
      let r := useResetToken tokenHash now s
      (some r.1, r.2)
  | .findUser userId, s => (if env.fails then none else s.identity.users.lookup userId, s)
  | .deleteConsents internalUserId clientId, s =>
    write env (fun s => { s with consents := s.consents.filter (· ≠ (internalUserId, clientId)) }) s
  | .revokeAccessTokens userId, s =>
    write env (fun s =>
      { s with tokens := Postgres.revokeAccessWhere (fun row => row.userId = userId) s.tokens }) s
  | .revokeRefreshTokens userId, s =>
    write env (fun s =>
      { s with tokens := Postgres.revokeRefreshWhere (fun rt => rt.userId = userId) s.tokens }) s
  | .revokeClientTokens userId clientId, s =>
    let owned (row : OAuth2AccessToken) : Bool := row.userId = userId && row.clientId = clientId
    write env (fun s => { s with tokens := Postgres.revokeAccessWhere owned s.tokens }) s

variable {env : StatementEnv} {op : AccountCall} {s : AccountStore}

theorem write_same {β : Type} (field : AccountStore → β) {f : AccountStore → AccountStore}
    (hf : field (f s) = field s) : field (write env f s).2 = field s := by
  unfold write
  split
  · rfl
  · exact hf

/-- Users and roles change only by statements of the identity repository. -/
theorem identity_exec (hop : ∀ userCall, op ≠ .user userCall) :
    (exec env op s).2.identity = s.identity := by
  cases op with
  | user userCall => exact absurd rfl (hop userCall)
  | useResetToken tokenHash now =>
    simp only [exec, useResetToken]
    split
    · rfl
    split
    · rfl
    · split <;> rfl
  | findUser userId => rfl
  | deleteConsents | revokeAccessTokens | revokeRefreshTokens | revokeClientTokens =>
    exact write_same identity rfl

theorem resetTokens_exec (hop : ∀ tokenHash now, op ≠ .useResetToken tokenHash now) :
    (exec env op s).2.resetTokens = s.resetTokens := by
  cases op with
  | useResetToken tokenHash now => exact absurd rfl (hop tokenHash now)
  | user | findUser => rfl
  | deleteConsents | revokeAccessTokens | revokeRefreshTokens | revokeClientTokens =>
    exact write_same resetTokens rfl

end AccountStore

inductive AccountReply
  | login (reply : UserReply)
  | success (message : String) (note : Option String := none)
  | error (code detail : String)
  /-- An exception left the callback and nothing was answered. -/
  | thrown
  deriving DecidableEq

abbrev AccountProg := Prog AccountCall AccountCall.Resp AccountReply

/-! ### Programs -/

def validateUser (crypto : IdentityCrypto) (identifier password : String) : AccountProg :=
  ((Statements.validateUser crypto identifier password).embed .user fun _ r => r).bind fun reply =>
    .ret (.login reply)

/-- Both revocations by owner; the answer is a success in any case, with a note when both statements
were executed. -/
def revokeTokensOf (userId message : String) : AccountProg :=
  .call (.revokeAccessTokens userId) fun accessOk =>
  .call (.revokeRefreshTokens userId) fun refreshOk =>
    .ret (.success message
      (if accessOk && refreshOk then some "All existing sessions have been revoked" else none))

/-- Hash the new password, then go on; `PasswordHasher::hash` throws when the derivation fails. -/
def withNewHash (crypto : IdentityCrypto) (newPassword : String) (k : String → AccountProg) :
    AccountProg :=
  .call (.user .randomBytes) fun salt =>
    match hashPassword crypto newPassword salt with
    | none => .ret (.error "INTERNAL_ERROR" "Password hashing failed: PBKDF2 hashing failed")
    | some newHash => k newHash

def setPassword (userId : Int) (newHash : String) : AccountCall :=
  .user (.update userId { passwordHash := some newHash, salt := some "" })

/-- The stored form of a reset token: the hexadecimal digest in upper case. -/
def resetTokenHash (crypto : IdentityCrypto) (token : String) : String :=
  String.ofList ((crypto.sha256Hex token).toList.map Char.toUpper)

def confirmReset (crypto : IdentityCrypto) (token newPassword : String) : AccountProg :=
  if token = "" ∨ newPassword = "" then
    .ret (.error "VALIDATION_MISSING_REQUIRED_FIELD"
      "password-reset confirm: token and new_password are required")
  else if byteLength newPassword < 8 then
    .ret (.error "VALIDATION_FORMAT_ERROR"
      "password-reset confirm: password must be at least 8 characters")
  else
    .call (.user .nowSeconds) fun now =>
    .call (.useResetToken (resetTokenHash crypto token) now) fun
      | none => .ret (.error "DB_QUERY_ERROR" "Reset token lookup failed: ")
      | some [] =>
        .ret (.error "VALIDATION_RESET_TOKEN_INVALID"
          "password-reset confirm: token is invalid, expired, or already used")
      | some (userId :: _) =>
        withNewHash crypto newPassword fun newHash =>
        .call (.findUser userId) fun
          | none => .ret (.error "DB_QUERY_ERROR" "Failed to find user for password update: ")
          | some _ =>
            .call (setPassword userId newHash) fun
              | false => .ret (.error "DB_QUERY_ERROR" "Failed to update password: ")
              | true => revokeTokensOf (toString userId) "Password reset successful"

/-- The JSON body of `changePassword`. -/
structure PasswordChange where
  oldPassword : String := ""
  newPassword : String := ""
  deriving DecidableEq

/-- The old password is checked against the row that was found first. -/
def changeFound (crypto : IdentityCrypto) (userId : String) (body : PasswordChange) (id : Int)
    (user : UserRow) : AccountProg :=
  match PasswordHasher.verify crypto body.oldPassword user.passwordHash user.salt with
  | none => .ret .thrown
  | some false =>
    .ret (.error "AUTH_INVALID_CREDENTIALS" "changePassword: current password is incorrect")
  | some true =>
    withNewHash crypto body.newPassword fun newHash =>
    .call (setPassword id newHash) fun
      | false => .ret (.error "DB_QUERY_ERROR" "Password update failed: ")
      | true => revokeTokensOf userId "Password changed successfully"

def changePassword (crypto : IdentityCrypto) (userId : String) (body : Option PasswordChange) :
    AccountProg :=
  match body with
  | none => .ret (.error "VALIDATION_INVALID_INPUT" "changePassword: JSON body is required")
  | some body =>
    if body.oldPassword = "" ∨ body.newPassword = "" then
      .ret (.error "VALIDATION_MISSING_REQUIRED_FIELD"
        "changePassword: old_password and new_password are required")
    else if byteLength body.newPassword < 8 then
      .ret (.error "VALIDATION_FORMAT_ERROR"
        "changePassword: new password must be at least 8 characters")
    else
      .call (.user (.findBySub userId)) fun
        | none => .ret (.error "DB_QUERY_ERROR" "changePassword lookup failed: ")
        | some [] => .ret (.error "VALIDATION_RESOURCE_NOT_FOUND" "changePassword: user not found")
        | some ((id, user) :: _) => changeFound crypto userId body id user

/-- The consents go, then the client's access tokens; a failure there still answers success. -/
def revokeAuthorizedApp (userId clientId : String) : AccountProg :=
  if clientId = "" then
    .ret (.error "VALIDATION_MISSING_REQUIRED_FIELD" "revokeAuthorizedApp: clientId is required")
  else
    .call (.user (.findBySub userId)) fun
      | none => .ret (.error "DB_QUERY_ERROR" "revokeAuthorizedApp: user lookup failed: ")
      | some [] =>
        .ret (.error "VALIDATION_RESOURCE_NOT_FOUND" "revokeAuthorizedApp: user not found")
      | some ((internalUserId, _) :: _) =>
        .call (.deleteConsents internalUserId clientId) fun
          | false => .ret (.error "DB_QUERY_ERROR" "revokeAuthorizedApp: consent DELETE failed: ")
          | true =>
            .call (.revokeClientTokens userId clientId) fun _ =>
              .ret (.success "Authorization revoked successfully")

inductive AccountRequest
  | validateUser (identifier password : String)
  | confirmReset (token newPassword : String)
  | changePassword (userId : String) (body : Option PasswordChange)
  | revokeAuthorizedApp (userId clientId : String)
  deriving DecidableEq

def program (crypto : IdentityCrypto) : AccountRequest → AccountProg
  | .validateUser identifier password => validateUser crypto identifier password
  | .confirmReset token newPassword => confirmReset crypto token newPassword
  | .changePassword userId body => changePassword crypto userId body
  | .revokeAuthorizedApp userId clientId => revokeAuthorizedApp userId clientId

/-- Logins and self-service over the tables, at the granularity of statements. -/
def service (crypto : IdentityCrypto) :
    Service AccountStore StatementEnv AccountCall AccountCall.Resp AccountRequest AccountReply where
  exec := AccountStore.exec
  program := program crypto

abbrev AccountEvent := Service.Event StatementEnv AccountCall AccountCall.Resp AccountRequest

/-- The answer to a request that runs alone from the given tables, and the tables after it. -/
def handled (crypto : IdentityCrypto) (env : Nat → StatementEnv) (request : AccountRequest)
    (s : AccountStore) : AccountReply × AccountStore :=
  let r := Prog.eval AccountStore.exec env 0 (program crypto request) s
  (r.1, r.2.1)

/-! ### A provider and a user with known values

The provider agrees with SHA-256 and PBKDF2 on the two passwords under the known salt and on the
reset token; the stored hash of the user is in the legacy format. -/

def knownSalt : List UInt8 := [1, 2, 3, 4, 5, 6, 7, 8, 9, 10, 11, 12, 13, 14, 15, 16]

def knownKeys : List (String × List UInt8) :=
  [("old password",
    [56, 86, 0, 184, 232, 179, 66, 239, 150, 238, 136, 20, 3, 219, 137, 63, 250, 105, 117, 188,
     251, 241, 204, 103, 131, 219, 87, 199, 3, 83, 52, 169]),
   ("new password",
    [52, 19, 174, 94, 243, 68, 35, 108, 128, 234, 87, 49, 180, 235, 217, 40, 61, 151, 154, 180, 48,
     13, 201, 217, 121, 161, 32, 176, 165, 190, 188, 239])]

def knownHexDigests : List (String × String) :=
  [("old passwordsalt", "3a8d89cacc1ca1886efa3acb212923a9ea861a4c097d74a1317fad3904144d38"),
   ("reset token", "32e3fd8f6230d108fc6ff471b9f09e3b7053a72b1232014e8fdbaf4e50d96f0a")]

def knownCrypto : IdentityCrypto where
  sha256Hex s := (knownHexDigests.lookup s).getD ""
  pbkdf2HmacSha256 password salt iterations keyLength :=
    if salt = knownSalt ∧ iterations = kPbkdf2Iterations ∧ keyLength = kPbkdf2KeyLength then
      (knownKeys.lookup password).getD []
    else bytes password
  hmacSha1 _ _ := []

def knownUser : UserRow where
  publicSub := "11111111-1111-4111-8111-111111111111"
  username := some "alice"
  passwordHash := "3a8d89cacc1ca1886efa3acb212923a9ea861a4c097d74a1317fad3904144d38"
  salt := "salt"

/-- User 7 with a reset token, and the given tokens. -/
def knownAccount (tokens : Postgres.TokenTables) : AccountStore where
  identity := { users := AList.insert 7 knownUser ∅ }
  resetTokens :=
    AList.insert "32E3FD8F6230D108FC6FF471B9F09E3B7053A72B1232014E8FDBAF4E50D96F0A"
      { userId := 7, expiresAt := 2000 } ∅
  tokens := tokens

end AuthForge.Account
