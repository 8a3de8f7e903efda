import AuthForge.Http.Validation
import AuthForge.Identity.Users
import AuthForge.OAuth2.Authorization
import AuthForge.OAuth2.Trace
import AuthForge.Storage.Postgres

/-!
# The server's state and what a request does to it

Handlers are functions on a world: the repositories, the users with their subject mappings and
consents, the browser sessions and the device codes. One request is one step. What the results about
the server speak of (password steps, accepted one-time codes, issued codes and tokens) is recorded
in a log beside the answer.
-/

namespace AuthForge.Http

open OAuth2 Identity Storage

/-! ### State -/

structure Session where
  userId : Option String := none
  sub : Option String := none
  authTime : Option Int := none
  amr : Option String := none
  mfaCodeChallenge : Option String := none
  mfaCodeChallengeMethod : Option String := none
  deriving DecidableEq

inductive DeviceStatus
  | pending
  | approved
  | denied
  | consumed
  deriving DecidableEq, Repr

structure DeviceCode where
  userCode : String
  clientId : String
  scope : String
  status : DeviceStatus := .pending
  userId : String := ""
  expiresAt : Int
  intervalSeconds : Int := 5
  lastPolledAt : Int := 0
  deriving DecidableEq

/-- The storage behind the server: clients and users in PostgreSQL, grants and tokens in any
repository. -/
structure Backend where
  sha256Hex : String → String
  grants : GrantRepository
  tokens : TokenRepository

abbrev Backend.repos (b : Backend) : Repositories :=
  ⟨Postgres.clientRepository b.sha256Hex, b.grants, b.tokens⟩

structure World (b : Backend) where
  store : Store b.repos
  users : UserTable
  mappings : Dict (String × String) Int
  scopeNames : List String := []
  consents : List (Int × String × String) := []
  sessions : Nat → Session := fun _ => {}
  deviceCodes : Dict String DeviceCode := ∅

variable {b : Backend}

namespace World

def clients (w : World b) : Postgres.Clients := w.store.clients

def directory (w : World b) : Directory := ⟨w.users.profiles, w.mappings⟩

def hasConsent (w : World b) (userId : Int) (clientId scope : String) : Bool :=
  (userId, clientId, scope) ∈ w.consents

def setSession (w : World b) (sid : Nat) (s : Session) : World b :=
  { w with sessions := Function.update w.sessions sid s }

end World

/-! ### Configuration and environment -/

structure Config where
  tokenService : TokenService
  crypto : IdentityCrypto
  urlEncode : String → String
  /-- Whether `Session::insert` of the web framework replaces the value of an existing key. Its
  documentation says that it does not; nothing here depends on it. -/
  sessionOverwrites : Bool := false
  identityAuthServiceWired : Bool := true
  mfaServiceWired : Bool := true
  requireEmailVerification : Bool := false
  requirePkce : Bool := true
  allowHttpRedirectUri : Bool := false
  loginUrl : String := "/login"
  consentUrl : String := "/consent"
  verificationUri : String := ""
  adminScopes : List String := defaultAdminScopes

def Config.insertKey (cfg : Config) {α : Type} (old : Option α) (new : α) : Option α :=
  match old with
  | none => some new
  | some v => some (if cfg.sessionOverwrites then new else v)

def Config.pkceMissing (cfg : Config) (codeChallenge : String) : Bool :=
  cfg.requirePkce && codeChallenge = ""

inductive Statement
  | validateClient
  | validateRedirectUri
  | getClient
  | findPending
  | updatePending
  | clearPending
  | findMapping
  | findUser
  | getMfaData
  | getPendingBinding
  | getRoles
  | hasUserConsent (scope : String)
  | saveUserConsent (scope : String)
  | insertDeviceCode
  | findDeviceCode
  | updateDeviceCode
  | saveTokenPair
  deriving DecidableEq

/-- What one request reads from outside the server. -/
structure RequestEnv where
  now : Int := 0
  auth : AuthEnv := {}
  fails : Statement → Bool := fun _ => false
  what : String := ""
  random : Nat → String := fun _ => ""
  generate : Nat → Env := fun _ => {}
  exchange : Nat → Env := fun _ => {}

def RequestEnv.client (env : RequestEnv) (stmt : Statement) : Env := { fails := env.fails stmt }

/-! ### Answers -/

inductive Page
  | client (redirectUri : String)
  | login (url : String)
  | consent (url : String)
  deriving DecidableEq, Repr

structure Location where
  page : Page
  query : String
  deriving DecidableEq, Repr

inductive Response
  | invalidInput (errors : List String)
  | error (code detail : String)
  | plain (status : Nat) (body : String)
  | redirect (location : Location)
  | codeJson (code : String) (location : Location)
  | mfaRequired (mfaToken : String)
  | mfaVerified (response : TokenResponse)
  | oauthError (status : Nat) (error description : String)
  | slowDown (interval : Int)
  | deviceAuthorized (deviceCode userCode verificationUri : String) (expiresIn interval : Int)
  | deviceApproved (userCode : String)
  | deviceTokens (response : TokenResponse) (scope : String)
  /-- An exception left a callback and nothing was sent. -/
  | unanswered

/-- The locations an answer sends the browser to or names. -/
def Response.locations : Response → List Location
  | .redirect location => [location]
  | .codeJson _ location => [location]
  | _ => []

def optionalParam (name value encoded : String) : String :=
  if value = "" then "" else "&" ++ name ++ "=" ++ encoded

def codeLocation (cfg : Config) (redirectUri code state : String) : Location :=
  ⟨.client redirectUri,
    "?code=" ++ cfg.urlEncode code ++ optionalParam "state" state (cfg.urlEncode state)⟩

/-! ### The log -/

/-- What a request did, as far as properties of whole runs speak of it. -/
inductive Action
  | passwordValidated (session : Nat) (user : Int) (clientId redirectUri : String)
      (decision : LoginDecision)
  | bindingSaved (session : Nat) (user : Int) (clientId redirectUri : String)
  | totpAccepted (session : Nat) (user : Int)
  | codeIssued (session : Nat) (code : OAuth2AuthCode)
  | tokensReturned (session : Nat) (user : Int) (clientId redirectUri : String)
  | pairIssued (access : OAuth2AccessToken)
  deriving DecidableEq

/-- What a handler leaves behind; the log has the newest action first. -/
structure Outcome (b : Backend) where
  world : World b
  response : Response
  log : List Action := []

def Outcome.after (o : Outcome b) (earlier : List Action) : Outcome b :=
  { o with log := o.log ++ earlier }

def World.answer (w : World b) (response : Response) : Outcome b := { world := w, response }

/-! ### Client lookups and code issuance, as the plugin offers them -/

namespace World

variable (w : World b) (env : RequestEnv)

def getClient (stmt : Statement) (clientId : String) : Option OAuth2Client :=
  b.repos.clients.getClient (env.client stmt) clientId w.store.clients

def validateClient (clientId clientSecret : String) : Bool :=
  b.repos.clients.validateClient (env.client .validateClient) clientId clientSecret
    w.store.clients

def validateRedirectUri (clientId redirectUri : String) : Bool :=
  OAuth2.validateRedirectUri (w.getClient env .validateRedirectUri clientId) redirectUri

def getInternalUserId (subject : String) : Option Int :=
  if env.fails .findMapping then none else w.directory.getInternalUserId subject

end World

def codesIssued (session : Nat) (calls : List RepoCall) : List Action :=
  (calls.filterMap fun
    | .saveAuthCode c => some (.codeIssued session c)
    | _ => none).reverse

def generateAuthorizationCode (cfg : Config) (w : World b) (env : RequestEnv) (session : Nat)
    (r : CodeRequest) : Reply × World b × List Action :=
  let result := Prog.eval Store.exec env.generate 0 (cfg.tokenService.program (.generate r)) w.store
  (result.1, { w with store := result.2.1 }, codesIssued session result.2.2)

def exchangeCodeForToken (cfg : Config) (w : World b) (env : RequestEnv) (r : ExchangeRequest) :
    Reply × World b :=
  let result := Prog.eval Store.exec env.exchange 0 (cfg.tokenService.program (.exchange r)) w.store
  (result.1, { w with store := result.2.1 })

def RequestEnv.codeOf (env : RequestEnv) (cfg : Config) (r : CodeRequest) : OAuth2AuthCode :=
  cfg.tokenService.authCodeOf r (env.generate 0).random (env.generate 1).now

def World.saveCode (w : World b) (env : RequestEnv) (c : OAuth2AuthCode) : World b :=
  let grants := b.grants.saveAuthCode (env.generate 2) c w.store.grants
  { w with store := { w.store with grants } }

/-- Issuing a code always succeeds and saves the one record of the request. -/
theorem generateAuthorizationCode_eq (cfg : Config) (w : World b) (env : RequestEnv)
    (session : Nat) (r : CodeRequest) :
    generateAuthorizationCode cfg w env session r =
      (.code true (env.generate 0).random "", w.saveCode env (env.codeOf cfg r),
        [.codeIssued session (env.codeOf cfg r)]) :=
  rfl

theorem exchangeCodeForToken_eq (cfg : Config) (w : World b) (env : RequestEnv)
    (r : ExchangeRequest) : ∃ reply store, store.clients = w.store.clients ∧
      exchangeCodeForToken cfg w env r = (reply, { w with store }) := by
  have hstep : ∀ (e : Env) (op : RepoCall) (s : Store b.repos), s.clients = w.store.clients →
      (Store.exec e op s).2.clients = w.store.clients :=
    fun _ _ _ h => Store.exec_clients.trans h
  exact ⟨_, _, Prog.eval_invariant hstep (cfg.tokenService.program (.exchange r)) rfl, rfl⟩

/-! ### What requests leave alone -/

structure Frame (w w' : World b) : Prop where
  directory : w'.directory = w.directory
  clients : w'.clients = w.clients

theorem Frame.refl (w : World b) : Frame w w := ⟨rfl, rfl⟩

theorem Frame.trans {w w' w'' : World b} (h : Frame w w') (h' : Frame w' w'') : Frame w w'' :=
  ⟨h'.directory.trans h.directory, h'.clients.trans h.clients⟩

end AuthForge.Http
