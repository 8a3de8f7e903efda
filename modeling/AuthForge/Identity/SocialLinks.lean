import AuthForge.Base.Prog
import AuthForge.Identity.Users

/-!
# Linking and unlinking social accounts

`SocialLinkService::linkAccount` and `unlinkAccount` over the repository calls of
`PostgresSocialAccountRepository`. A call is executed as a whole; the exchange of the provider's
code answers whatever the environment says.
-/

namespace AuthForge.Identity

/-- A row of `oauth2_subject_mappings`. -/
structure LinkRow where
  provider : String
  subject : String
  internalUserId : Int
  deriving DecidableEq, Repr

structure SocialLinkEntry where
  provider : String := ""
  subject : String := ""
  deriving DecidableEq, Repr

inductive SocialLinkStatus
  | Linked
  | NoMapping
  | AccountUnavailable
  | RepositoryError
  deriving DecidableEq, Repr

structure SocialAccountLookup where
  userId : Int := 0
  username : String := ""
  deriving DecidableEq, Repr

inductive LinkMutationStatus
  | Inserted
  | Conflict
  | Deleted
  | NoLink
  | Error
  deriving DecidableEq, Repr

/-! ### The repository -/

inductive LinkCall
  /-- Code exchange and profile of the provider: error code and subject. -/
  | exchange (provider code : String)
  | findLinkedUser (provider subject : String)
  | listForUser (internalUserId : Int)
  | insertLink (provider subject : String) (internalUserId : Int)
  | deleteLink (provider : String) (internalUserId : Int)
  | userHasUsablePassword (internalUserId : Int)
  deriving DecidableEq

@[reducible] def LinkCall.Resp : LinkCall → Type
  | .exchange _ _ => String × String
  | .findLinkedUser _ _ => SocialLinkStatus × SocialAccountLookup
  | .listForUser _ => Option (List SocialLinkEntry)
  | .insertLink _ _ _ => LinkMutationStatus
  | .deleteLink _ _ => LinkMutationStatus
  | .userHasUsablePassword _ => Option Bool

structure LinkEnv where
  fails : Bool := false
  now : Int := 0
  errorCode : String := ""
  subject : String := ""

structure LinkStore where
  users : Dict Int UserRow
  links : List LinkRow := []

namespace LinkStore

def findLinkedUser (s : LinkStore) (now : Int) (provider subject : String) :
    SocialLinkStatus × SocialAccountLookup :=
  match s.links.find? fun row => row.provider = provider ∧ row.subject = subject with
  | none => (.NoMapping, {})
  | some row =>
    match s.users.lookup row.internalUserId with
    | none => (.AccountUnavailable, {})
    | some user =>
      if user.deleted ∨ now < user.lockedUntil then (.AccountUnavailable, {})
      else (.Linked, ⟨row.internalUserId, user.username.getD ""⟩)

/-- The mapping `local` that each user gets from the seed is no social identity. -/
def socialLinks (s : LinkStore) (internalUserId : Int) : List LinkRow :=
  s.links.filter fun row => row.internalUserId = internalUserId ∧ row.provider ≠ "local"

def listForUser (s : LinkStore) (internalUserId : Int) : List SocialLinkEntry :=
  (s.socialLinks internalUserId).map fun row => ⟨row.provider, row.subject⟩

/-- `UNIQUE(provider, subject)` and the foreign key to `users`. -/
def insertLink (s : LinkStore) (provider subject : String) (internalUserId : Int) :
    LinkMutationStatus × LinkStore :=
  if ∃ row ∈ s.links, row.provider = provider ∧ row.subject = subject then (.Conflict, s)
  else
    match s.users.lookup internalUserId with
    | none => (.Error, s)
    | some _ => (.Inserted, { s with links := s.links ++ [⟨provider, subject, internalUserId⟩] })

def isLinkOf (provider : String) (internalUserId : Int) (row : LinkRow) : Bool :=
  row.provider = provider ∧ row.internalUserId = internalUserId

def deleteLink (s : LinkStore) (provider : String) (internalUserId : Int) :
    LinkMutationStatus × LinkStore :=
  (if s.links.any (isLinkOf provider internalUserId) then .Deleted else .NoLink,
    { s with links := s.links.filter fun row => !isLinkOf provider internalUserId row })

/-- `password_hash LIKE '$pbkdf2-sha256$%'` on a row that is not deleted. -/
def userHasUsablePassword (s : LinkStore) (internalUserId : Int) : Bool :=
  match s.users.lookup internalUserId with
  | none => false
  | some user => !user.deleted && pbkdf2Tag.toList.isPrefixOf user.passwordHash.toList

def exec (env : LinkEnv) : (op : LinkCall) → LinkStore → op.Resp × LinkStore
  | .exchange _ _, s => ((env.errorCode, env.subject), s)
  | .findLinkedUser provider subject, s =>
    (if env.fails then (.RepositoryError, {}) else s.findLinkedUser env.now provider subject, s)
  | .listForUser internalUserId, s =>
    (if env.fails then none else some (s.listForUser internalUserId), s)
  | .insertLink provider subject internalUserId, s =>
    if env.fails then (.Error, s) else s.insertLink provider subject internalUserId
  | .deleteLink provider internalUserId, s =>
    if env.fails then (.Error, s) else s.deleteLink provider internalUserId
  | .userHasUsablePassword internalUserId, s =>
    (if env.fails then none else some (s.userHasUsablePassword internalUserId), s)

end LinkStore

/-! ### The service -/

inductive SocialLinkOpStatus
  | Ok
  | InvalidProvider
  | NotConfigured
  | ExchangeFailed
  | AlreadyLinkedToSelf
  | AlreadyLinkedToOtherUser
  | ProviderConflictForUser
  | NoLink
  | LastCredentialGuard
  | RepositoryError
  deriving DecidableEq, Repr

structure SocialLinkOpResult where
  status : SocialLinkOpStatus := .RepositoryError
  errorCode : String := ""
  entry : SocialLinkEntry := {}
  deriving DecidableEq, Repr

/-- What the service was constructed with. -/
structure SocialLinkService where
  hasGitHub : Bool
  hasGoogle : Bool
  hasWeChat : Bool
  hasAccountRepo : Bool
  deriving DecidableEq, Repr

abbrev LinkProg := Prog LinkCall LinkCall.Resp SocialLinkOpResult

namespace SocialLinkService

variable (service : SocialLinkService)

def isValidProvider (provider : String) : Bool :=
  provider = "github" || provider = "google" || provider = "wechat"

def answer (status : SocialLinkOpStatus) : LinkProg := .ret { status }

def insert (provider subject : String) (internalUserId : Int) : LinkProg :=
  .call (.insertLink provider subject internalUserId) fun mutation =>
    match mutation with
    | .Inserted => .ret { status := .Ok, entry := ⟨provider, subject⟩ }
    | .Conflict => answer .AlreadyLinkedToOtherUser
    | .Deleted | .NoLink | .Error => answer .RepositoryError

def onSubject (provider : String) (internalUserId : Int) (errorCode subject : String) : LinkProg :=
  if errorCode ≠ "" ∨ subject = "" then
    .ret {
      status := .ExchangeFailed
      errorCode := if errorCode = "" then "VALIDATION_INVALID_INPUT" else errorCode }
  else
    .call (.findLinkedUser provider subject) fun (status, existing) =>
      match status with
      | .Linked =>
        answer (if existing.userId = internalUserId then .AlreadyLinkedToSelf
          else .AlreadyLinkedToOtherUser)
      | .AccountUnavailable => answer .AlreadyLinkedToOtherUser
      | .RepositoryError => answer .RepositoryError
      | .NoMapping =>
        .call (.listForUser internalUserId) fun entries =>
          match entries with
          | none => answer .RepositoryError
          | some entries =>
            if ∃ e ∈ entries, e.provider = provider then answer .ProviderConflictForUser
            else insert provider subject internalUserId

/-- Whether the service of the provider was injected. -/
def hasProvider (provider : String) : Bool :=
  if provider = "github" then service.hasGitHub
  else if provider = "google" then service.hasGoogle
  else service.hasWeChat

def linkAccount (provider code : String) (internalUserId : Int) : LinkProg :=
  if isValidProvider provider = false then answer .InvalidProvider
  else if service.hasAccountRepo = false then answer .NotConfigured
  else if service.hasProvider provider = false then answer .NotConfigured
  else
    .call (.exchange provider code) fun (errorCode, subject) =>
      onSubject provider internalUserId errorCode subject

def doDelete (provider : String) (internalUserId : Int) (targetSubject : String) : LinkProg :=
  .call (.deleteLink provider internalUserId) fun mutation =>
    match mutation with
    | .Deleted => .ret { status := .Ok, entry := ⟨provider, targetSubject⟩ }
    | .NoLink => answer .NoLink
    | .Inserted | .Conflict | .Error => answer .RepositoryError

/-- The guard against removing the last credential. -/
def onEntries (provider : String) (internalUserId : Int) (entries : List SocialLinkEntry) :
    LinkProg :=
  match entries.find? fun e => e.provider = provider with
  | none => answer .NoLink
  | some target =>
    if entries.length = 1 then
      .call (.userHasUsablePassword internalUserId) fun usable =>
        match usable with
        | none => answer .RepositoryError
        | some false => answer .LastCredentialGuard
        | some true => doDelete provider internalUserId target.subject
    else doDelete provider internalUserId target.subject

def unlinkAccount (provider : String) (internalUserId : Int) : LinkProg :=
  if isValidProvider provider = false then answer .InvalidProvider
  else if service.hasAccountRepo = false then answer .RepositoryError
  else
    .call (.listForUser internalUserId) fun entries =>
      match entries with
      | none => answer .RepositoryError
      | some entries => onEntries provider internalUserId entries

end SocialLinkService

inductive LinkRequest
  | linkAccount (provider code : String) (internalUserId : Int)
  | unlinkAccount (provider : String) (internalUserId : Int)
  deriving DecidableEq

abbrev LinkEvent := Service.Event LinkEnv LinkCall LinkCall.Resp LinkRequest

def socialLinkRequests (service : SocialLinkService) :
    Service LinkStore LinkEnv LinkCall LinkCall.Resp LinkRequest SocialLinkOpResult where
  exec := LinkStore.exec
  program
    | .linkAccount provider code internalUserId => service.linkAccount provider code internalUserId
    | .unlinkAccount provider internalUserId => service.unlinkAccount provider internalUserId

/-! ### What a call does to the links -/

namespace LinkStore

variable {s : LinkStore} {env : LinkEnv} {op : LinkCall} {row : LinkRow}

@[simp] theorem exec_users (env : LinkEnv) (op : LinkCall) (s : LinkStore) :
    (exec env op s).2.users = s.users := by
  cases op with
  | insertLink provider subject internalUserId =>
    simp only [exec]
    split
    · rfl
    · unfold insertLink
      split
      · rfl
      · split <;> rfl
  | deleteLink provider internalUserId =>
    simp only [exec]
    split <;> rfl
  | exchange | findLinkedUser | listForUser | userHasUsablePassword => rfl

/-- A link goes only with a `deleteLink` of its provider and its user. -/
theorem mem_exec (hrow : row ∈ s.links)
    (hop : op ≠ .deleteLink row.provider row.internalUserId) : row ∈ (exec env op s).2.links := by
  cases op with
  | insertLink provider subject internalUserId =>
    simp only [exec]
    split
    · exact hrow
    · unfold insertLink
      split
      · exact hrow
      · split
        · exact hrow
        · exact List.mem_append_left _ hrow
  | deleteLink provider internalUserId =>
    simp only [exec]
    split
    · exact hrow
    · refine List.mem_filter.mpr ⟨hrow, ?_⟩
      rw [Bool.not_eq_true', isLinkOf, decide_eq_false_iff_not]
      intro heq
      obtain ⟨rfl, rfl⟩ := heq
      exact hop rfl
  | exchange | findLinkedUser | listForUser | userHasUsablePassword => exact hrow

/-- The row that a call has added, by its answer. -/
def addedRow : Answer LinkCall LinkCall.Resp → Option LinkRow
  | ⟨.insertLink provider subject internalUserId, mutation⟩ =>
    if mutation = LinkMutationStatus.Inserted then some ⟨provider, subject, internalUserId⟩
    else none
  | _ => none

/-- A call adds a row only to a free slot, and keeps the order of the others. -/
theorem links_exec (env : LinkEnv) (op : LinkCall) (s : LinkStore) :
    (exec env op s).2.links.Sublist s.links ∧ addedRow ⟨op, (exec env op s).1⟩ = none ∨
      ∃ row, addedRow ⟨op, (exec env op s).1⟩ = some row ∧
        (exec env op s).2.links = s.links ++ [row] ∧
        ∀ row' ∈ s.links, ¬(row'.provider = row.provider ∧ row'.subject = row.subject) := by
  have hsame : s.links.Sublist s.links := List.Sublist.refl _
  cases op with
  | insertLink provider subject internalUserId =>
    simp only [exec]
    split
    · exact .inl ⟨hsame, rfl⟩
    · unfold insertLink
      split
      · exact .inl ⟨hsame, rfl⟩
      · rename_i hfree
        split
        · exact .inl ⟨hsame, rfl⟩
        · refine .inr ⟨_, rfl, rfl, ?_⟩
          intro row' hrow' heq
          exact hfree ⟨row', hrow', heq⟩
  | deleteLink provider internalUserId =>
    simp only [exec]
    split
    · exact .inl ⟨hsame, rfl⟩
    · exact .inl ⟨List.filter_sublist, rfl⟩
  | exchange | findLinkedUser | listForUser | userHasUsablePassword => exact .inl ⟨hsame, rfl⟩

theorem mem_listForUser {internalUserId : Int} {e : SocialLinkEntry} :
    e ∈ s.listForUser internalUserId ↔
      ⟨e.provider, e.subject, internalUserId⟩ ∈ s.links ∧ e.provider ≠ "local" := by
  simp only [listForUser, socialLinks, List.mem_map, List.mem_filter, decide_eq_true_eq]
  constructor
  · intro h
    obtain ⟨row, ⟨hrow, rfl, hsocial⟩, rfl⟩ := h
    exact ⟨hrow, hsocial⟩
  · intro h
    exact ⟨⟨e.provider, e.subject, internalUserId⟩, ⟨h.1, rfl, h.2⟩, rfl⟩

end LinkStore

end AuthForge.Identity
