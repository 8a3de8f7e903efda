import AuthForge.Identity.SocialLinks

/-!
# Signing up through a social account

`PostgresSocialAccountRepository::createLinkedUser` and the fallback
`GitHubController::createNewLinkedUser`, at the granularity of statements: the user, the subject
mapping and, as far as it works, the default role. No transaction holds them together.
-/

namespace AuthForge.Identity

inductive SignUpCall
  /-- A random password hash that no password verifies against. -/
  | drawPasswordHash
  /-- `INSERT INTO users … ON CONFLICT (username) DO NOTHING RETURNING id`. -/
  | insertUser (username passwordHash email : String)
  | insertMapping (provider subject : String) (internalUserId : Int)
  /-- `findOne` on the name of a role. -/
  | findRole (name : String)
  | insertUserRole (userId roleId : Int)
  deriving DecidableEq

/-- Answers; `none` and `false` where a statement fails. The insert of a user answers `some none` when
the name is taken. -/
@[reducible] def SignUpCall.Resp : SignUpCall → Type
  | .drawPasswordHash => String
  | .insertUser _ _ _ => Option (Option Int)
  | .insertMapping _ _ _ => Bool
  | .findRole _ => Option Int
  | .insertUserRole _ _ => Bool

structure SignUpEnv where
  fails : Bool := false
  passwordHash : String := ""
  /-- The default of `public_sub`, a fresh UUID. -/
  publicSub : String := ""

structure SignUpStore extends LinkStore where
  nextUserId : Int := 1
  roles : Dict String Int := ∅
  userRoles : List (Int × Int) := []

namespace SignUpStore

def taken (s : SignUpStore) (p : UserRow → Bool) : Bool := s.users.entries.any fun e => p e.2

def usernameTaken (s : SignUpStore) (username : String) : Bool :=
  s.taken fun u => u.username = some username

/-- What lets the insert fail besides the user name: the unique address and the key. -/
def rowRefused (s : SignUpStore) (email : String) : Bool :=
  s.taken (fun u => u.email = some email) || s.nextUserId ∈ s.users

def newUser (publicSub username passwordHash email : String) : UserRow :=
  { publicSub, username := some username, email := some email, emailVerified := true, passwordHash }

/-- The next id of the sequence is used up. -/
def withUser (publicSub username passwordHash email : String) (s : SignUpStore) : SignUpStore :=
  { s with
    users := s.users.insert s.nextUserId (newUser publicSub username passwordHash email)
    nextUserId := s.nextUserId + 1 }

def insertUser (publicSub username passwordHash email : String) (s : SignUpStore) :
    Option (Option Int) × SignUpStore :=
  if username = "" then (none, s)
  else if s.usernameTaken username then (some none, s)
  else if s.rowRefused email then (none, s)
  else (some (some s.nextUserId), s.withUser publicSub username passwordHash email)

/-- Equality of the pairs of `user_roles`. -/
theorem lawfulBEq_userRole : LawfulBEq (Int × Int) := inferInstance

attribute [local instance] lawfulBEq_userRole

def exec (env : SignUpEnv) : (op : SignUpCall) → SignUpStore → op.Resp × SignUpStore
  | .drawPasswordHash, s => (env.passwordHash, s)
  | .insertUser username passwordHash email, s =>
    if env.fails then (none, s) else s.insertUser env.publicSub username passwordHash email
  | .insertMapping provider subject internalUserId, s =>
    if env.fails then (false, s)
    else
      let r := s.toLinkStore.insertLink provider subject internalUserId
      (r.1 = .Inserted, { s with toLinkStore := r.2 })
  | .findRole name, s => (if env.fails then none else s.roles.lookup name, s)
  | .insertUserRole userId roleId, s =>
    if env.fails = true ∨ (userId, roleId) ∈ s.userRoles then (false, s)
    else (true, { s with userRoles := s.userRoles ++ [(userId, roleId)] })

end SignUpStore

/-! ### The two functions -/

abbrev SignUpProg (α : Type) := Prog SignUpCall SignUpCall.Resp α

section

variable {α : Type} (provider subject username email : String)

/-- What both do: the answers are those for a name that is taken, for a user and for a mapping that
could not be inserted, and for a new user. -/
def linkNewUser (usernameTaken notCreated notLinked : α) (linked : Int → α) : SignUpProg α :=
  .call .drawPasswordHash fun passwordHash =>
  .call (.insertUser username passwordHash email) fun
    | none => .ret notCreated
    | some none => .ret usernameTaken
    | some (some userId) =>
      .call (.insertMapping provider subject userId) fun
        | false => .ret notLinked
        | true =>
          .call (.findRole "user") fun
            | none => .ret (linked userId)
            | some roleId => .call (.insertUserRole userId roleId) fun _ => .ret (linked userId)

structure LinkNewSocialAccountResult where
  userId : Int
  username : String
  deriving DecidableEq

def createLinkedUser : SignUpProg (Option LinkNewSocialAccountResult) :=
  linkNewUser provider subject username email none none none fun userId => some ⟨userId, username⟩

inductive GitHubSignUp
  | error (code detail : String)
  /-- The login goes on with tokens for the new user. -/
  | issueTokens (userId : Int)
  deriving DecidableEq

/-- The fallback of the controller. -/
def createNewLinkedUser (githubLogin githubEmail : String) : SignUpProg GitHubSignUp :=
  linkNewUser provider subject ("gh_" ++ githubLogin) githubEmail
    (.error "AUTH_INVALID_CREDENTIALS" "github login: derived username is unavailable")
    (.error "DB_QUERY_ERROR" "github login: failed to create user account: ")
    (.error "DB_QUERY_ERROR" "github login: failed to link GitHub account: ") .issueTokens

end

end AuthForge.Identity
