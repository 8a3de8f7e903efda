import AuthForge.Http.World

/-!
# Login and consent

`SessionController::login` and `SessionController::consent`. The login handler fills the session
before it asks the login policy, and it hands client, redirect URI and scope of the request to the
token service as they are. The consent handler takes the user from a request parameter.
-/

namespace AuthForge.Http.SessionController

open OAuth2 Identity

variable {b : Backend}

def oauthErrorLocation (cfg : Config) (redirectUri error description state : String) : Location :=
  ⟨.client redirectUri,
    "?error=" ++ error ++ optionalParam "error_description" description (cfg.urlEncode description)
      ++ optionalParam "state" state (cfg.urlEncode state)⟩

/-! ### Login -/

structure LoginFields where
  username : String
  password : String
  clientId : String
  redirectUri : String
  scope : String
  state : String
  codeChallenge : String
  codeChallengeMethod : String
  nonce : String

def loginFields (req : HttpRequest) : LoginFields where
  username := req.bodyField "username"
  password := req.bodyField "password"
  clientId := req.bodyField "client_id"
  redirectUri := req.bodyField "redirect_uri"
  scope := req.bodyField "scope"
  state := req.bodyField "state"
  codeChallenge := req.bodyField "code_challenge"
  codeChallengeMethod := req.bodyField "code_challenge_method"
  nonce := req.bodyField "nonce"

/-- The injected identity service, or the older one where none is wired. -/
def passwordStep (cfg : Config) (env : RequestEnv) (f : LoginFields) (users : UserTable) :
    Validation × UserTable :=
  if cfg.identityAuthServiceWired then
    validateUser cfg.crypto env.auth f.username f.password users
  else legacyValidateUser cfg.crypto env.auth f.username f.password users

/-- The session keys that a correct password leaves. -/
def loggedIn (cfg : Config) (s : Session) (result : AuthResult) (now : Int) : Session :=
  { s with
    userId := cfg.insertKey s.userId (toString result.internalId)
    sub := cfg.insertKey s.sub result.publicSub
    authTime := cfg.insertKey s.authTime now
    amr := cfg.insertKey s.amr "pwd" }

/-- Client and redirect URI go to the user's row, the challenge to the session. -/
def saveBinding (cfg : Config) (w : World b) (sid : Nat) (f : LoginFields) (result : AuthResult) :
    World b :=
  let s := w.sessions sid
  World.setSession
    { w with users := w.users.setPendingBinding result.internalId f.clientId f.redirectUri } sid
    { s with
      mfaCodeChallenge := cfg.insertKey s.mfaCodeChallenge f.codeChallenge
      mfaCodeChallengeMethod := cfg.insertKey s.mfaCodeChallengeMethod f.codeChallengeMethod }

def requireMfa (cfg : Config) (w : World b) (env : RequestEnv) (sid : Nat) (f : LoginFields)
    (result : AuthResult) : Outcome b :=
  if env.fails .findPending = true ∨ env.fails .updatePending = true ∨
      result.internalId ∉ w.users.rows then
    w.answer (.error "DB_QUERY_ERROR"
      ("login: failed to persist MFA pending binding: " ++ env.what))
  else
    { world := saveBinding cfg w sid f result
      response := .mfaRequired (toString result.internalId)
      log := [.bindingSaved sid result.internalId f.clientId f.redirectUri] }

def loginCodeRequest (s : Session) (f : LoginFields) (result : AuthResult) : CodeRequest where
  clientId := f.clientId
  subject := result.publicSub
  scope := f.scope
  redirectUri := f.redirectUri
  codeChallenge := f.codeChallenge
  codeChallengeMethod := f.codeChallengeMethod
  nonce := f.nonce
  authTime := s.authTime.getD 0
  amr := s.amr.getD ""

def codeResponse (cfg : Config) (req : HttpRequest) (f : LoginFields) (code : String) : Response :=
  let location := codeLocation cfg f.redirectUri code f.state
  if req.getParameter "json" = "true" then .codeJson code location else .redirect location

def pkceError (cfg : Config) (w : World b) (env : RequestEnv) (f : LoginFields) : Response :=
  if f.clientId ≠ "" ∧ f.redirectUri ≠ "" ∧
      w.validateRedirectUri env f.clientId f.redirectUri = true then
    .redirect (oauthErrorLocation cfg f.redirectUri "invalid_request"
      "PKCE (code_challenge) is required for public clients" f.state)
  else
    .error "VALIDATION_MISSING_REQUIRED_FIELD"
      "login: PKCE (code_challenge) is required for public clients"

def issueAfterLogin (cfg : Config) (w : World b) (req : HttpRequest) (env : RequestEnv)
    (f : LoginFields) (result : AuthResult) : Outcome b :=
  if cfg.pkceMissing f.codeChallenge then w.answer (pkceError cfg w env f)
  else
    match generateAuthorizationCode cfg w env req.session
      (loginCodeRequest (w.sessions req.session) f result) with
    | (.code true code _, world, log) => { world, log, response := codeResponse cfg req f code }
    | (.code false _ error, world, log) =>
      { world, log
        response := .error "INTERNAL_ERROR"
          ("login: failed to generate authorization code: " ++ error) }
    | (_, world, log) => { world, log, response := .unanswered }

def proceed (cfg : Config) (w : World b) (req : HttpRequest) (env : RequestEnv) (f : LoginFields)
    (result : AuthResult) : LoginDecision → Outcome b
  | .DenyEmailNotVerified =>
    w.answer (.error "AUTHZ_ACCESS_DENIED" "login: email not verified")
  | .RequireMfa => requireMfa cfg w env req.session f result
  | .Proceed => issueAfterLogin cfg w req env f result

def entered (cfg : Config) (w : World b) (req : HttpRequest) (env : RequestEnv)
    (result : AuthResult) : World b :=
  w.setSession req.session (loggedIn cfg (w.sessions req.session) result env.now)

def passwordAction (cfg : Config) (req : HttpRequest) (f : LoginFields) (result : AuthResult) : Action :=
  .passwordValidated req.session result.internalId f.clientId f.redirectUri
    (evaluateLoginPolicy result cfg.requireEmailVerification)

/-- `onValidated` with success: the session is filled, then the policy decides. -/
def onValidated (cfg : Config) (w : World b) (req : HttpRequest) (env : RequestEnv)
    (f : LoginFields) (result : AuthResult) : Outcome b :=
  (proceed cfg (entered cfg w req env result) req env f result
    (evaluateLoginPolicy result cfg.requireEmailVerification)).after [passwordAction cfg req f result]

def login (cfg : Config) (w : World b) (req : HttpRequest) (env : RequestEnv) : Outcome b :=
  let errors := RuleSet.login req
  if errors ≠ [] then w.answer (.invalidInput errors)
  else
    let f := loginFields req
    match passwordStep cfg env f w.users with
    | (.accepted result, users) => onValidated cfg { w with users } req env f result
    | (.rejected, users) =>
      World.answer { w with users } (.error "AUTH_INVALID_CREDENTIALS" "login: invalid credentials")
    | (.thrown, users) => World.answer { w with users } .unanswered

/-! ### Consent -/

structure ConsentFields where
  clientId : String
  userId : String
  scope : String
  redirectUri : String
  state : String
  action : String
  codeChallenge : String
  codeChallengeMethod : String
  nonce : String

def consentFields (req : HttpRequest) : ConsentFields where
  clientId := req.getParameter "client_id"
  userId := req.getParameter "user_id"
  scope := req.getParameter "scope"
  redirectUri := req.getParameter "redirect_uri"
  state := req.getParameter "state"
  action := req.getParameter "action"
  codeChallenge := req.getParameter "code_challenge"
  codeChallengeMethod := req.getParameter "code_challenge_method"
  nonce := req.getParameter "nonce"

def consentKeysExist (w : World b) (userId : Int) (clientId scope : String) : Bool :=
  userId ∈ w.users.rows && clientId ∈ w.clients && scope ∈ w.scopeNames

/-- `saveUserConsent`: whether the row is there afterwards, and the rows. A duplicate counts as
success. -/
def saveUserConsent (w : World b) (env : RequestEnv) (userId : Int) (clientId scope : String) :
    Bool × World b :=
  if env.fails (.saveUserConsent scope) then (false, w)
  else if w.hasConsent userId clientId scope then (true, w)
  else if consentKeysExist w userId clientId scope then
    (true, { w with consents := (userId, clientId, scope) :: w.consents })
  else (false, w)

/-- The consents after the first one, whose outcome nobody waits for. -/
def saveOtherConsents (w : World b) (env : RequestEnv) (userId : Int) (clientId : String)
    (scopes : List String) : World b :=
  scopes.foldl (fun w scope => (saveUserConsent w env userId clientId scope).2) w

/-- The code that a consent asks for, with the parameter `user_id` as its subject. -/
def consentCodeRequest (s : Session) (f : ConsentFields) : CodeRequest where
  clientId := f.clientId
  subject := f.userId
  scope := f.scope
  redirectUri := f.redirectUri
  codeChallenge := f.codeChallenge
  codeChallengeMethod := f.codeChallengeMethod
  nonce := f.nonce
  authTime := s.authTime.getD 0
  amr := s.amr.getD ""

/-- Issue the code and redirect; the encoding of code and state differs between the two places
that call this. -/
def issueAfterConsent (cfg : Config) (w : World b) (sid : Nat) (env : RequestEnv)
    (f : ConsentFields) (encode : String → String) : Outcome b :=
  match generateAuthorizationCode cfg w env sid (consentCodeRequest (w.sessions sid) f) with
  | (.code true code _, world, log) =>
    { world, log
      response := .redirect ⟨.client f.redirectUri,
        "?code=" ++ encode code ++ optionalParam "state" f.state (encode f.state)⟩ }
  | (_, world, log) =>
    { world, log
      response := .redirect (oauthErrorLocation cfg f.redirectUri "server_error"
        "Failed to generate authorization code" f.state) }

def consent (cfg : Config) (w : World b) (req : HttpRequest) (env : RequestEnv) : Outcome b :=
  let f := consentFields req
  if f.action = "deny" then
    w.answer (.redirect ⟨.client f.redirectUri,
      "?error=access_denied&error_description=User+denied+consent" ++
        optionalParam "state" f.state (cfg.urlEncode f.state)⟩)
  else
    match w.getInternalUserId env f.userId with
    | none => w.answer (.error "INTERNAL_ERROR" "consent: failed to get user mapping")
    | some internalUserId =>
      match requestedScopes f.scope with
      | firstScope :: rest =>
        match saveUserConsent w env internalUserId f.clientId firstScope with
        | (false, w') =>
          w'.answer (.error "INTERNAL_ERROR"
            ("consent: failed to save user consent for scope: " ++ firstScope))
        | (true, w') =>
          issueAfterConsent cfg (saveOtherConsents w' env internalUserId f.clientId rest)
            req.session env f cfg.urlEncode
      | [] => issueAfterConsent cfg w req.session env f id

/-- The consent of the first scope is stored; nothing to store counts as well. -/
def firstConsentSaved (w : World b) (env : RequestEnv) (userId : Int) (f : ConsentFields) : Bool :=
  match requestedScopes f.scope with
  | [] => true
  | firstScope :: _ => (saveUserConsent w env userId f.clientId firstScope).1

/-! ### What a login does -/

structure Accepts (cfg : Config) (w : World b) (req : HttpRequest) (env : RequestEnv)
    (result : AuthResult) (users : UserTable) : Prop where
  valid : RuleSet.login req = []
  step : passwordStep cfg env (loginFields req) w.users = (.accepted result, users)

def loginCode (cfg : Config) (w : World b) (req : HttpRequest) (env : RequestEnv)
    (result : AuthResult) : OAuth2AuthCode :=
  env.codeOf cfg (loginCodeRequest (loggedIn cfg (w.sessions req.session) result env.now)
    (loginFields req) result)

/-- What a login can do: refuse, stop after the password step, save a pending binding, or issue a
code. -/
inductive LoginCase (cfg : Config) (w : World b) (req : HttpRequest) (env : RequestEnv) :
    Outcome b → Prop
  | refused {users : UserTable} {response : Response} (hkept : KeepsUsers w.users users)
      (hlocations : response.locations = []) :
      LoginCase cfg w req env (World.answer { w with users } response)
  | stopped {users : UserTable} {result : AuthResult} {response : Response}
      (haccepts : Accepts cfg w req env result users)
      (hlocations : ∀ l ∈ response.locations, l.page = .client (loginFields req).redirectUri ∧
        w.validateRedirectUri env (loginFields req).clientId (loginFields req).redirectUri = true) :
      LoginCase cfg w req env
        { world := entered cfg { w with users } req env result
          response
          log := [passwordAction cfg req (loginFields req) result] }
  | bound {users : UserTable} {result : AuthResult}
      (haccepts : Accepts cfg w req env result users)
      (hdecision : evaluateLoginPolicy result cfg.requireEmailVerification = .RequireMfa) :
      LoginCase cfg w req env
        { world := saveBinding cfg (entered cfg { w with users } req env result) req.session
            (loginFields req) result
          response := .mfaRequired (toString result.internalId)
          log := [.bindingSaved req.session result.internalId (loginFields req).clientId
            (loginFields req).redirectUri, passwordAction cfg req (loginFields req) result] }
  | issued {users : UserTable} {result : AuthResult} {response : Response}
      (haccepts : Accepts cfg w req env result users)
      (hdecision : evaluateLoginPolicy result cfg.requireEmailVerification = .Proceed)
      (hpkce : cfg.pkceMissing (loginFields req).codeChallenge = false)
      (hlocations : ∀ l ∈ response.locations, l.page = .client (loginFields req).redirectUri) :
      LoginCase cfg w req env
        { world := (entered cfg { w with users } req env result).saveCode env
            (loginCode cfg w req env result)
          response
          log := [.codeIssued req.session (loginCode cfg w req env result),
            passwordAction cfg req (loginFields req) result] }

variable {cfg : Config} {w : World b} {req : HttpRequest} {env : RequestEnv} {result : AuthResult}
  {users : UserTable}

theorem passwordStep_spec (f : LoginFields) :
    PasswordStep w.users (passwordStep cfg env f w.users) := by
  unfold passwordStep
  split
  · exact passwordStep_validateUser
  · exact passwordStep_legacyValidateUser

theorem Accepts.spec (h : Accepts cfg w req env result users) :
    KeepsUsers w.users users ∧
      ∃ id p, w.directory.users.table.lookup id = some p ∧ result = authResultOf id p := by
  have hspec : PasswordStep w.users (passwordStep cfg env (loginFields req) w.users) :=
    passwordStep_spec (loginFields req)
  rw [h.step] at hspec
  exact ⟨hspec.kept, hspec.accepted result rfl⟩

theorem sessions_entered : (entered cfg w req env result).sessions req.session =
    loggedIn cfg (w.sessions req.session) result env.now := by
  simp [entered, World.setSession]

theorem pkceError_locations {f : LoginFields} {l : Location}
    (hl : l ∈ (pkceError cfg w env f).locations) :
    l.page = .client f.redirectUri ∧ w.validateRedirectUri env f.clientId f.redirectUri = true := by
  unfold pkceError at hl
  split at hl
  · rename_i hchecked
    obtain rfl := List.mem_singleton.mp hl
    exact ⟨rfl, hchecked.2.2⟩
  · cases hl

theorem codeResponse_locations {f : LoginFields} {code : String} {l : Location}
    (hl : l ∈ (codeResponse cfg req f code).locations) : l.page = .client f.redirectUri := by
  unfold codeResponse at hl
  simp only at hl
  split at hl
  · obtain rfl := List.mem_singleton.mp hl
    rfl
  · obtain rfl := List.mem_singleton.mp hl
    rfl

theorem proceed_cases (haccepts : Accepts cfg w req env result users) :
    LoginCase cfg w req env (onValidated cfg { w with users } req env (loginFields req) result) := by
  unfold onValidated
  cases hdecision : evaluateLoginPolicy result cfg.requireEmailVerification with
  | DenyEmailNotVerified => exact .stopped haccepts nofun
  | RequireMfa =>
    rw [proceed, requireMfa]
    split
    · exact .stopped haccepts nofun
    · exact .bound haccepts hdecision
  | Proceed =>
    rw [proceed, issueAfterLogin]
    split
    · exact .stopped haccepts fun l hl => pkceError_locations hl
    · rename_i hpkce
      rw [sessions_entered]
      exact .issued haccepts hdecision (by simpa using hpkce) fun l hl => codeResponse_locations hl

theorem login_cases : LoginCase cfg w req env (login cfg w req env) := by
  unfold login
  have hspec : PasswordStep w.users (passwordStep cfg env (loginFields req) w.users) :=
    passwordStep_spec (loginFields req)
  by_cases hvalid : RuleSet.login req = []
  · simp only [hvalid, ne_eq, not_true_eq_false, if_false]
    cases hstep : passwordStep cfg env (loginFields req) w.users with
    | mk v users =>
      rw [hstep] at hspec
      cases v with
      | accepted result => exact proceed_cases ⟨hvalid, hstep⟩
      | rejected => exact .refused hspec.kept rfl
      | thrown => exact .refused hspec.kept rfl
  · rw [if_pos hvalid]
    exact .refused (.refl w.users) rfl

/-! ### What a consent does -/

def consentCode (cfg : Config) (w : World b) (req : HttpRequest) (env : RequestEnv) :
    OAuth2AuthCode :=
  env.codeOf cfg (consentCodeRequest (w.sessions req.session) (consentFields req))

/-- What a consent can do: send a denial back, fail, or issue a code. -/
inductive ConsentCase (cfg : Config) (w : World b) (req : HttpRequest) (env : RequestEnv) :
    Outcome b → Prop
  | denied {query : String} (haction : (consentFields req).action = "deny") :
      ConsentCase cfg w req env
        (w.answer (.redirect ⟨.client (consentFields req).redirectUri, query⟩))
  | failed {response : Response} (hlocations : response.locations = [])
      (haction : (consentFields req).action ≠ "deny")
      (hfailed : ∀ id, w.getInternalUserId env (consentFields req).userId = some id →
        firstConsentSaved w env id (consentFields req) = false) :
      ConsentCase cfg w req env (w.answer response)
  | issued {id : Int} {consents : List (Int × String × String)} {query : String}
      (haction : (consentFields req).action ≠ "deny")
      (huser : w.getInternalUserId env (consentFields req).userId = some id)
      (hsaved : firstConsentSaved w env id (consentFields req) = true) :
      ConsentCase cfg w req env
        { world := World.saveCode { w with consents } env (consentCode cfg w req env)
          response := .redirect ⟨.client (consentFields req).redirectUri, query⟩
          log := [.codeIssued req.session (consentCode cfg w req env)] }

theorem saveUserConsent_world (w : World b) (env : RequestEnv) (userId : Int)
    (clientId scope : String) :
    ∃ consents, (saveUserConsent w env userId clientId scope).2 = { w with consents } := by
  unfold saveUserConsent
  split
  · exact ⟨w.consents, rfl⟩
  split
  · exact ⟨w.consents, rfl⟩
  split
  · exact ⟨_, rfl⟩
  · exact ⟨w.consents, rfl⟩

theorem saveUserConsent_of_false {userId : Int} {clientId scope : String} {w' : World b}
    (h : saveUserConsent w env userId clientId scope = (false, w')) : w' = w := by
  unfold saveUserConsent at h
  split at h
  · exact (congrArg Prod.snd h).symm
  split at h
  · cases h
  split at h
  · cases h
  · exact (congrArg Prod.snd h).symm

theorem saveOtherConsents_world (w : World b) (env : RequestEnv) (userId : Int)
    (clientId : String) (scopes : List String) :
    ∃ consents, saveOtherConsents w env userId clientId scopes = { w with consents } := by
  induction scopes generalizing w with
  | nil => exact ⟨w.consents, rfl⟩
  | cons scope scopes ih =>
    obtain ⟨consents, hfirst⟩ := saveUserConsent_world w env userId clientId scope
    obtain ⟨consents', hrest⟩ := ih { w with consents }
    refine ⟨consents', ?_⟩
    rw [saveOtherConsents, List.foldl_cons, hfirst]
    exact hrest

theorem consent_cases : ConsentCase cfg w req env (consent cfg w req env) := by
  unfold consent
  by_cases haction : (consentFields req).action = "deny"
  · rw [if_pos haction]
    exact .denied haction
  rw [if_neg haction]
  cases huser : w.getInternalUserId env (consentFields req).userId with
  | none =>
    refine .failed rfl haction ?_
    intro id hid
    rw [huser] at hid
    cases hid
  | some id =>
    cases hscopes : requestedScopes (consentFields req).scope with
    | nil =>
      have hsaved : firstConsentSaved w env id (consentFields req) = true := by
        simp [firstConsentSaved, hscopes]
      exact .issued haction huser hsaved
    | cons firstScope rest =>
      simp only
      cases hsave : saveUserConsent w env id (consentFields req).clientId firstScope with
      | mk saved w' =>
        cases saved with
        | false =>
          obtain rfl := saveUserConsent_of_false hsave
          refine .failed rfl haction ?_
          intro id' hid
          obtain rfl := Option.some.inj (huser.symm.trans hid)
          simp [firstConsentSaved, hscopes, hsave]
        | true =>
          have hsaved : firstConsentSaved w env id (consentFields req) = true := by
            simp [firstConsentSaved, hscopes, hsave]
          obtain ⟨consents, hfirst⟩ :=
            saveUserConsent_world w env id (consentFields req).clientId firstScope
          rw [hsave] at hfirst
          obtain rfl : w' = { w with consents } := hfirst
          obtain ⟨consents', hrest⟩ :=
            saveOtherConsents_world { w with consents } env id (consentFields req).clientId rest
          simp only [hrest]
          exact .issued haction huser hsaved

end AuthForge.Http.SessionController
