import AuthForge.Account.EmailVerification
import AuthForge.Account.SelfService

/-!
# Reset and verification tokens side by side

`PasswordResetService` and `EmailVerificationService` over one users table, with the request that
creates a reset token. Both services issue their own statements; the two tables of tokens are apart.
-/

namespace AuthForge.Account

open Identity

inductive TokenCall
  /-- A statement of the password service. -/
  | account (op : AccountCall)
  /-- A statement of the verification service, or a fresh token. -/
  | mail (op : MailCall)
  /-- `findOne` on `email` alone. -/
  | findByEmail (email : String)
  | insertResetToken (tokenHash : String) (row : ResetToken)
  deriving DecidableEq

/-- Answers. `findByEmail` answers `none` also when there is no row, an insert whether it was
executed. -/
@[reducible] def TokenCall.Resp : TokenCall → Type
  | .account op => op.Resp
  | .mail op => op.Resp
  | .findByEmail _ => Option (Int × UserRow)
  | .insertResetToken _ _ => Bool

structure TokenStore extends AccountStore where
  nextUserId : Int := 1
  verificationTokens : Dict String VerificationToken := ∅

namespace TokenStore

def mail (s : TokenStore) : MailStore where
  identity := s.identity
  nextUserId := s.nextUserId
  tokens := s.verificationTokens

def withMail (s : TokenStore) (m : MailStore) : TokenStore :=
  { s with identity := m.identity, nextUserId := m.nextUserId, verificationTokens := m.tokens }

def exec (env : MailEnv) : (op : TokenCall) → TokenStore → op.Resp × TokenStore
  | .account op, s =>
    let r := AccountStore.exec env.toStatementEnv op s.toAccountStore
    (r.1, { s with toAccountStore := r.2 })
  | .mail op, s =>
    let r := MailStore.exec env op s.mail
    (r.1, s.withMail r.2)
  | .findByEmail email, s =>
    (if env.fails then none else s.identity.findUnique fun u => u.email = some email, s)
  | .insertResetToken tokenHash row, s =>
    if env.fails = true ∨ tokenHash ∈ s.resetTokens then (false, s)
    else (true, { s with resetTokens := s.resetTokens.insert tokenHash row })

end TokenStore

inductive TokenReply
  | account (reply : AccountReply)
  | mail (reply : MailReply)
  deriving DecidableEq

abbrev TokenProg := Prog TokenCall TokenCall.Resp TokenReply

/-- The same answer whether or not the address belongs to a user. -/
def resetRequested : TokenReply :=
  .account (.success "If the email exists, a reset link has been sent")

def requestReset (crypto : IdentityCrypto) (email : String) : TokenProg :=
  if email = "" then
    .ret (.account (.error "VALIDATION_MISSING_REQUIRED_FIELD"
      "password-reset request: email is required"))
  else
    .call (.findByEmail (normalizeEmail email)) fun
      | none => .ret resetRequested
      | some (userId, _) =>
        .call (.mail .generateSecureToken) fun rawToken =>
        .call (.account (.user .nowSeconds)) fun now =>
        .call (.insertResetToken (resetTokenHash crypto rawToken)
          { userId, expiresAt := now + 900 }) fun _ => .ret resetRequested

inductive TokenRequest
  | requestReset (email : String)
  | confirmReset (token newPassword : String)
  | sendVerificationEmail (internalUserId : Int) (email : String)
  | verifyToken (token : String)
  deriving DecidableEq

def ofAccount (p : AccountProg) : TokenProg :=
  (p.embed .account fun _ r => r).bind fun reply => .ret (.account reply)

def ofMail (p : MailProg) : TokenProg :=
  (p.embed .mail fun _ r => r).bind fun reply => .ret (.mail reply)

def tokenProgram (crypto : IdentityCrypto) : TokenRequest → TokenProg
  | .requestReset email => requestReset crypto email
  | .confirmReset token newPassword => ofAccount (confirmReset crypto token newPassword)
  | .sendVerificationEmail internalUserId email =>
    ofMail (sendVerificationEmail crypto internalUserId email
      (.ret (.success "Verification email sent")))
  | .verifyToken token => ofMail (verifyToken crypto token)

abbrev TokenEvent := Service.Event MailEnv TokenCall TokenCall.Resp TokenRequest

def tokenService (crypto : IdentityCrypto) :
    Service TokenStore MailEnv TokenCall TokenCall.Resp TokenRequest TokenReply where
  exec := TokenStore.exec
  program := tokenProgram crypto

end AuthForge.Account
