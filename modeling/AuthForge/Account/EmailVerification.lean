import AuthForge.Admin.UserAdmin

/-!
# Registration and email verification

`AuthService::registerUser` in both of its implementations, `EmailVerificationService` and the
administrator's `updateUser`, statement by statement over the users table and
`email_verification_tokens`. The text of a database exception is left out of the error details.
-/

namespace AuthForge.Account

open Identity Admin

/-- A row of `email_verification_tokens`, whose primary key is the hash. -/
structure VerificationToken where
  userId : Int
  email : String
  expiresAt : Int
  deriving DecidableEq

/-- The constraint that an insert into `users` violates. -/
inductive UserConflict
  | usernameKey
  | emailUnique
  | other
  deriving DecidableEq

/-- The columns that a registration sets. -/
structure NewUser where
  username : Option String
  email : Option String
  passwordHash : String
  deriving DecidableEq

inductive MailCall
  /-- A statement of the user administration. -/
  | user (op : UserCall)
  | insertUser (row : NewUser)
  | generateSecureToken
  | insertToken (tokenHash : String) (row : VerificationToken)
  /-- `DELETE … WHERE token_hash = $1 AND expires_at > $2 RETURNING user_id, email`. -/
  | consumeToken (tokenHash : String) (now : Int)
  /-- `findOne` on `id` alone. -/
  | findUser (userId : Int)
  /-- `findOne` on `public_sub` alone. -/
  | findByPublicSub (publicSub : String)
  deriving DecidableEq

/-- Answers. A query that throws answers `none`, and `findUser` and `findByPublicSub` also when
there is no row; a write answers whether it was executed. -/
@[reducible] def MailCall.Resp : MailCall → Type
  | .user op => op.Resp
  | .insertUser _ => Except UserConflict Int
  | .generateSecureToken => String
  | .insertToken _ _ => Bool
  | .consumeToken _ _ => Option (Option (Int × String))
  | .findUser _ => Option UserRow
  | .findByPublicSub _ => Option (Int × UserRow)

structure MailEnv extends StatementEnv where
  token : String := ""
  /-- The default of `public_sub`, a fresh UUID. -/
  publicSub : String := ""

structure MailStore where
  identity : IdentityStore
  nextUserId : Int := 1
  tokens : Dict String VerificationToken := ∅

namespace MailStore

def insertUser (publicSub : String) (row : NewUser) (s : MailStore) :
    Except UserConflict Int × MailStore :=
  let taken (p : UserRow → Bool) : Bool := s.identity.users.entries.any fun e => p e.2
  if row.username ≠ none ∧ taken (fun u => u.username = row.username) then
    (.error .usernameKey, s)
  else if row.email ≠ none ∧ taken (fun u => u.email = row.email) then (.error .emailUnique, s)
  else
    let user : UserRow :=
      { publicSub, username := row.username, email := row.email, passwordHash := row.passwordHash }
    let identity := { s.identity with users := s.identity.users.insert s.nextUserId user }
    (.ok s.nextUserId, { s with identity, nextUserId := s.nextUserId + 1 })

def consumeToken (tokenHash : String) (now : Int) (s : MailStore) :
    Option (Int × String) × MailStore :=
  match s.tokens.lookup tokenHash with
  | none => (none, s)
  | some row =>
    if row.expiresAt > now then
      (some (row.userId, row.email), { s with tokens := s.tokens.erase tokenHash })
    else (none, s)

def exec (env : MailEnv) : (op : MailCall) → MailStore → op.Resp × MailStore
  | .user op, s =>
    let r := IdentityStore.exec env.toStatementEnv op s.identity
    (r.1, { s with identity := r.2 })
  | .insertUser row, s =>
    if env.fails then (.error .other, s) else s.insertUser env.publicSub row
  | .generateSecureToken, s => (env.token, s)
  | .insertToken tokenHash row, s =>
    if env.fails = true ∨ tokenHash ∈ s.tokens then (false, s)
    else (true, { s with tokens := s.tokens.insert tokenHash row })
  | .consumeToken tokenHash now, s =>
    if env.fails then (none, s)
    else
      let r := s.consumeToken tokenHash now
      (some r.1, r.2)
  | .findUser userId, s => (if env.fails then none else s.identity.users.lookup userId, s)
  | .findByPublicSub publicSub, s =>
    (if env.fails then none else s.identity.findUnique fun u => u.publicSub = publicSub, s)

variable {env : MailEnv} {op : MailCall} {s : MailStore}

theorem identity_exec (hop : ∀ userCall, op ≠ .user userCall) (hnew : ∀ row, op ≠ .insertUser row) :
    (exec env op s).2.identity = s.identity := by
  cases op with
  | user userCall => exact absurd rfl (hop userCall)
  | insertUser row => exact absurd rfl (hnew row)
  | insertToken tokenHash row =>
    simp only [exec]
    split <;> rfl
  | consumeToken tokenHash now =>
    simp only [exec]
    split
    · rfl
    · unfold consumeToken
      split
      · rfl
      · split <;> rfl
  | generateSecureToken | findUser | findByPublicSub => rfl

theorem tokens_exec (hinsert : ∀ tokenHash row, op ≠ .insertToken tokenHash row)
    (hconsume : ∀ tokenHash now, op ≠ .consumeToken tokenHash now) :
    (exec env op s).2.tokens = s.tokens := by
  cases op with
  | insertToken tokenHash row => exact absurd rfl (hinsert tokenHash row)
  | consumeToken tokenHash now => exact absurd rfl (hconsume tokenHash now)
  | insertUser row =>
    simp only [exec]
    split
    · rfl
    · unfold insertUser
      dsimp only
      split
      · rfl
      · split <;> rfl
  | user | generateSecureToken | findUser | findByPublicSub => rfl

end MailStore

inductive MailReply
  | user (reply : UserReply)
  /-- The error code of a registration, empty for success. -/
  | registered (errorCode : String)
  | success (message : String)
  | error (code detail : String)
  deriving DecidableEq

abbrev MailProg := Prog MailCall MailCall.Resp MailReply

/-! ### Registration -/

/-- The default role is a side effect: the registration succeeds without it. -/
def assignDefaultRole (userId : Int) : MailProg :=
  .call (.user (.findRoles ["user"])) fun
    | some [(roleId, _)] => .call (.user (.insertRole userId roleId)) fun _ => .ret (.registered "")
    | _ => .ret (.registered "")

def UserConflict.errorCode : UserConflict → String
  | .usernameKey => "VALIDATION_USERNAME_TAKEN"
  | .emailUnique => "VALIDATION_EMAIL_TAKEN"
  | .other => "VALIDATION_INVALID_INPUT"

/-- What both implementations do with the columns. -/
def insertRegistered (crypto : IdentityCrypto) (username password : String)
    (email : Option String) : MailProg :=
  .call (.user .randomBytes) fun salt =>
    match hashPassword crypto password salt with
    | none => .ret (.registered "INTERNAL_ERROR")
    | some passwordHash =>
      .call (.insertUser
        { username := if username = "" then none else some username
          email
          passwordHash }) fun
        | .ok userId => assignDefaultRole userId
        | .error conflict => .ret (.registered conflict.errorCode)

/-- The registration of the identity service, which stores the address as it is. -/
def registerUser (crypto : IdentityCrypto) (username password email : String) : MailProg :=
  insertRegistered crypto username password (if email = "" then none else some email)

/-- The registration that is used when no identity service was injected. -/
def legacyRegisterUser (crypto : IdentityCrypto) (username password email : String) : MailProg :=
  insertRegistered crypto username password
    (if email = "" then none else some (normalizeEmail email))

/-! ### Verification -/

def hashToken (crypto : IdentityCrypto) (rawToken : String) : String :=
  String.ofList ((crypto.sha256Hex rawToken).toList.map Char.toUpper)

/-- The answer of the insert is only logged. -/
def sendVerificationEmail (crypto : IdentityCrypto) (internalUserId : Int) (email : String)
    (k : MailProg) : MailProg :=
  if email = "" then k
  else
    .call .generateSecureToken fun rawToken =>
    .call (.user .nowSeconds) fun now =>
    .call (.insertToken (hashToken crypto rawToken)
      { userId := internalUserId, email, expiresAt := now + 86400 }) fun _ => k

def resendVerification (crypto : IdentityCrypto) (userId : String) : MailProg :=
  if userId = "" then .ret (.error "AUTH_TOKEN_INVALID" "resend: missing authenticated user")
  else
    .call (.findByPublicSub userId) fun
      | none => .ret (.error "DB_QUERY_ERROR" "Resend verification failed: ")
      | some (id, user) =>
        if user.emailVerified then .ret (.success "Email is already verified")
        else
          let email := user.email.getD ""
          if email = "" then
            .ret (.error "VALIDATION_INVALID_INPUT" "resend: no email address on file")
          else
            sendVerificationEmail crypto id email (.ret (.success "Verification email sent"))

/-- The address that the token was sent to comes back with the row and is not used. -/
def verifyToken (crypto : IdentityCrypto) (token : String) : MailProg :=
  if token = "" then
    .ret (.error "VALIDATION_MISSING_REQUIRED_FIELD" "verify: token parameter is required")
  else
    .call (.user .nowSeconds) fun now =>
    .call (.consumeToken (hashToken crypto token) now) fun
      | none => .ret (.error "DB_QUERY_ERROR" "Email verification failed: ")
      | some none =>
        .ret (.error "VALIDATION_VERIFICATION_TOKEN_INVALID"
          "verify: token is invalid or expired")
      | some (some (userId, _)) =>
        .call (.findUser userId) fun
          | none =>
            .ret (.error "DB_QUERY_ERROR" "Failed to find user for email_verified update: ")
          | some _ =>
            .call (.user (.update userId { emailVerified := some true })) fun
              | true => .ret (.success "Email verified successfully")
              | false => .ret (.error "DB_QUERY_ERROR" "Failed to update email_verified: ")

inductive MailRequest
  | registerUser (username password email : String)
  | legacyRegisterUser (username password email : String)
  | resendVerification (userId : String)
  | verifyToken (token : String)
  | updateUser (userId : Int) (body : UserUpdate)
  deriving DecidableEq

def mailProgram (crypto : IdentityCrypto) : MailRequest → MailProg
  | .registerUser username password email => registerUser crypto username password email
  | .legacyRegisterUser username password email => legacyRegisterUser crypto username password email
  | .resendVerification userId => resendVerification crypto userId
  | .verifyToken token => verifyToken crypto token
  | .updateUser userId body =>
    ((Admin.updateUser userId body).embed .user fun _ r => r).bind fun reply => .ret (.user reply)

abbrev MailEvent := Service.Event MailEnv MailCall MailCall.Resp MailRequest

def mailService (crypto : IdentityCrypto) :
    Service MailStore MailEnv MailCall MailCall.Resp MailRequest MailReply where
  exec := MailStore.exec
  program := mailProgram crypto

end AuthForge.Account
