import AuthForge.Account.EmailVerification
import AuthForge.Account.SelfService
import AuthForge.Identity.Resolution
import AuthForge.Identity.SocialLinks
import AuthForge.Storage.UserReadCache

/-!
# Self-service over one database

The handlers that act for the user of the access token: `changePassword`, `deleteAccount`,
`resendVerification`, the credentials of the WebAuthn controller, and the social links. Each of them
is its own program, put over one set of tables; all of them start from the `userId` attribute of the
request, which is the `user_id` of the token.
-/

namespace AuthForge.Account

open Identity Admin Storage

/-- A row of `webauthn_credentials`. -/
structure Credential where
  userId : Int
  credentialId : String
  name : Option String := none
  signCount : Int := 0
  deriving DecidableEq

structure CredentialSummary where
  credentialId : String
  name : String
  signCount : Int
  deriving DecidableEq

def Credential.summary (c : Credential) : CredentialSummary :=
  ⟨c.credentialId, c.name.getD "", c.signCount⟩

inductive SelfCall
  | account (op : AccountCall)
  | mail (op : MailCall)
  | link (op : LinkCall)
  /-- `findByPublicSub` of the injected user repository. -/
  | findByPublicSub (publicSub : String)
  /-- `findBy` on `public_sub` alone. -/
  | findAllBySub (publicSub : String)
  /-- `findBy` on `public_sub` and `deleted_at IS NULL`, in `resolveInternalUserId`. -/
  | findLiveBySub (publicSub : String)
  /-- `findBy` on `id` and `deleted_at IS NULL`. -/
  | findLiveById (id : Int)
  | findCredentials (userId : Int)
  deriving DecidableEq

/-- Answers. A query that throws answers `none`, and `findByPublicSub` also when there is no row. -/
@[reducible] def SelfCall.Resp : SelfCall → Type
  | .account op => op.Resp
  | .mail op => op.Resp
  | .link op => op.Resp
  | .findByPublicSub _ => Option UserReadCache.UserInfo
  | .findAllBySub _ => Option (List (Int × UserRow))
  | .findLiveBySub _ => Option (List (Int × UserRow))
  | .findLiveById _ => Option (List (Int × UserRow))
  | .findCredentials _ => Option (List Credential)

structure SelfEnv extends MailEnv where
  errorCode : String := ""
  subject : String := ""

def SelfEnv.toLinkEnv (env : SelfEnv) : LinkEnv :=
  { fails := env.fails, now := env.now, errorCode := env.errorCode, subject := env.subject }

structure SelfStore where
  account : AccountStore
  verificationTokens : Dict String VerificationToken := ∅
  nextUserId : Int := 1
  links : List LinkRow := []
  credentials : List Credential := []

namespace SelfStore

def mailStore (s : SelfStore) : MailStore := ⟨s.account.identity, s.nextUserId, s.verificationTokens⟩

def linkStore (s : SelfStore) : LinkStore := ⟨s.account.identity.users, s.links⟩

def matching (s : SelfStore) (p : UserRow → Bool) : List (Int × UserRow) :=
  s.account.identity.matching p

def exec (env : SelfEnv) : (op : SelfCall) → SelfStore → op.Resp × SelfStore
  | .account op, s =>
    let r := AccountStore.exec env.toStatementEnv op s.account
    (r.1, { s with account := r.2 })
  | .mail op, s =>
    let r := MailStore.exec env.toMailEnv op s.mailStore
    (r.1, { s with
      account := { s.account with identity := r.2.identity }
      nextUserId := r.2.nextUserId
      verificationTokens := r.2.tokens })
  | .link op, s =>
    let r := LinkStore.exec env.toLinkEnv op s.linkStore
    (r.1, { s with links := r.2.links })
  | .findByPublicSub publicSub, s =>
    (UserReadCache.findByPublicSub env.toStatementEnv publicSub s.account.identity, s)
  | .findAllBySub publicSub, s =>
    (if env.fails then none else some (s.matching fun u => u.publicSub = publicSub), s)
  | .findLiveBySub publicSub, s =>
    (if env.fails then none
      else some (s.matching fun u => u.publicSub = publicSub && !u.deleted), s)
  | .findLiveById id, s =>
    (if env.fails then none
      else some (((s.account.identity.users.lookup id).filter fun u => !u.deleted).toList.map
        fun u => (id, u)), s)
  | .findCredentials userId, s =>
    (if env.fails then none else some (s.credentials.filter fun c => c.userId = userId), s)

end SelfStore

inductive SelfReply
  | account (reply : AccountReply)
  | user (reply : UserReply)
  | mail (reply : MailReply)
  | credentials (entries : List CredentialSummary)
  | socialLinks (entries : List SocialLinkEntry)
  | linked (provider subject message : String)
  | error (code detail : String)
  deriving DecidableEq

abbrev SelfProg := Prog SelfCall SelfCall.Resp SelfReply

/-! ### The handlers that have programs of their own -/

def accountHandler (p : AccountProg) : SelfProg :=
  (p.embed SelfCall.account fun _ r => r).bind fun reply => .ret (.account reply)

def userHandler (p : UserProg) : SelfProg :=
  (p.embed (fun op => SelfCall.account (.user op)) fun _ r => r).bind fun reply => .ret (.user reply)

def mailHandler (p : MailProg) : SelfProg :=
  (p.embed SelfCall.mail fun _ r => r).bind fun reply => .ret (.mail reply)

/-! ### Credentials -/

def noCredentials : SelfProg := .ret (.credentials [])

/-- The service answers nothing where the query fails, the legacy path an error. -/
def credentialsOf (injected : Bool) (userId : Int) : SelfProg :=
  .call (.findCredentials userId) fun
    | none =>
      if injected then noCredentials
      else .ret (.error "DB_QUERY_ERROR" "listCredentials: query failed: ")
    | some creds => .ret (.credentials (creds.map Credential.summary))

/-- `injected`: the service and the user repository were injected. -/
def listCredentials (injected : Bool) (userId : String) : SelfProg :=
  if injected then
    .call (.findByPublicSub userId) fun
      | none => noCredentials
      | some user => credentialsOf injected user.id
  else
    .call (.findAllBySub userId) fun
      | none => .ret (.error "DB_QUERY_ERROR" "listCredentials: user lookup failed: ")
      | some [] => noCredentials
      | some ((resolvedId, _) :: _) => credentialsOf injected resolvedId

/-! ### Social links -/

def onResolved (onUser : Int → SelfProg) : Option (List (Int × UserRow)) → SelfProg
  | none => .ret (.error "DB_QUERY_ERROR" "social links: user lookup failed: ")
  | some [] => .ret (.error "VALIDATION_RESOURCE_NOT_FOUND" "social links: user not found")
  | some ((internalId, _) :: _) => onUser internalId

/-- A number is taken for the internal id, anything else for the public subject. -/
def resolveInternalUserId (userId : String) (onUser : Int → SelfProg) : SelfProg :=
  match stoiWhole userId with
  | some numericId => .call (.findLiveById numericId) (onResolved onUser)
  | none => .call (.findLiveBySub userId) (onResolved onUser)

/-- The error for a result, `none` for `Ok`. -/
def respondLinkOpError (result : SocialLinkOpResult) (provider : String) :
    Option (String × String) :=
  match result.status with
  | .Ok => none
  | .InvalidProvider =>
    some ("VALIDATION_INVALID_INPUT", "social links: unsupported provider '" ++ provider ++ "'")
  | .NotConfigured => some ("INTERNAL_ERROR", "social links: social linking is not configured")
  | .ExchangeFailed =>
    some (if result.errorCode = "" then "NET_CONNECTION_FAILED" else result.errorCode,
      "social links: provider code verification failed")
  | .AlreadyLinkedToSelf =>
    some ("VALIDATION_RESOURCE_CONFLICT",
      "social links: this " ++ provider ++ " account is already linked to your account")
  | .AlreadyLinkedToOtherUser =>
    some ("VALIDATION_RESOURCE_CONFLICT",
      "social links: this " ++ provider ++ " account is already linked to another user")
  | .ProviderConflictForUser =>
    some ("VALIDATION_RESOURCE_CONFLICT",
      "social links: a different " ++ provider ++
        " account is linked; unlink it before linking a new one")
  | .NoLink =>
    some ("VALIDATION_RESOURCE_NOT_FOUND", "social links: no linked " ++ provider ++ " account")
  | .LastCredentialGuard =>
    some ("VALIDATION_RESOURCE_CONFLICT",
      "social links: cannot remove your last sign-in method (set a password first)")
  | .RepositoryError => some ("DB_QUERY_ERROR", "social links: repository failure")

def respondLinkOp (provider message : String) (result : SocialLinkOpResult) : SelfReply :=
  match respondLinkOpError result provider with
  | some (code, detail) => .error code detail
  | none => .linked result.entry.provider result.entry.subject message

def linkHandler (provider message : String) (p : LinkProg) : SelfProg :=
  (p.embed SelfCall.link fun _ r => r).bind fun result =>
    .ret (respondLinkOp provider message result)

def notConfigured : SelfProg :=
  .ret (.error "INTERNAL_ERROR" "social links: social linking is not configured")

def unsupportedProvider (provider : String) : SelfProg :=
  .ret (.error "VALIDATION_INVALID_INPUT"
    ("social links: unsupported provider '" ++ provider ++ "'"))

def repositoryFailure : SelfProg := .ret (.error "DB_QUERY_ERROR" "social links: repository failure")

/-- `SocialLinkService::listAccounts` and the answer to it. -/
def listAccounts (service : SocialLinkService) (internalUserId : Int) : SelfProg :=
  if service.hasAccountRepo = false then repositoryFailure
  else
    .call (.link (.listForUser internalUserId)) fun
      | none => repositoryFailure
      | some entries => .ret (.socialLinks entries)

variable (socialLinkService : Option SocialLinkService)

def listSocialLinks (userId : String) : SelfProg :=
  match socialLinkService with
  | none => notConfigured
  | some service => resolveInternalUserId userId (listAccounts service)

def linkFor (service : SocialLinkService) (provider code : String) (internalId : Int) : SelfProg :=
  linkHandler provider "Social account linked successfully"
    (service.linkAccount provider code internalId)

def linkSocialAccount (userId provider code : String) : SelfProg :=
  match socialLinkService with
  | none => notConfigured
  | some service =>
    if SocialLinkService.isValidProvider provider = false then unsupportedProvider provider
    else if code = "" then
      .ret (.error "VALIDATION_MISSING_REQUIRED_FIELD" "social links: code is required")
    else resolveInternalUserId userId (linkFor service provider code)

def unlinkFor (service : SocialLinkService) (provider : String) (internalId : Int) : SelfProg :=
  linkHandler provider "Social account unlinked successfully" (service.unlinkAccount provider internalId)

def unlinkSocialAccount (userId provider : String) : SelfProg :=
  match socialLinkService with
  | none => notConfigured
  | some service =>
    if SocialLinkService.isValidProvider provider = false then unsupportedProvider provider
    else resolveInternalUserId userId (unlinkFor service provider)

/-! ### Requests -/

inductive SelfRequest
  | changePassword (body : Option PasswordChange)
  | deleteAccount
  | resendVerification
  | listCredentials
  | listSocialLinks
  | linkSocialAccount (provider code : String)
  | unlinkSocialAccount (provider : String)
  deriving DecidableEq

/-- What the controllers were wired with. -/
structure SelfConfig where
  webAuthnInjected : Bool
  socialLinkService : Option SocialLinkService

def selfProgram (crypto : IdentityCrypto) (config : SelfConfig) (userId : String) :
    SelfRequest → SelfProg
  | .changePassword body => accountHandler (changePassword crypto userId body)
  | .deleteAccount => userHandler (deleteAccount userId)
  | .resendVerification => mailHandler (resendVerification crypto userId)
  | .listCredentials => listCredentials config.webAuthnInjected userId
  | .listSocialLinks => listSocialLinks config.socialLinkService userId
  | .linkSocialAccount provider code =>
    linkSocialAccount config.socialLinkService userId provider code
  | .unlinkSocialAccount provider => unlinkSocialAccount config.socialLinkService userId provider

end AuthForge.Account
