import Mathlib.Data.List.Infix
import AuthForge.Http.World

/-!
# The authorization endpoint

`AuthorizationEndpointController::authorize`. Client and redirect URI are checked first; every later
error goes back to the client. A browser whose session names a user gets its code without any
interaction once the scope engine is satisfied. The handler asks the session for nothing but the
user id, the time and the method of the authentication.
-/

namespace AuthForge.Http.AuthorizationEndpoint

open OAuth2 Identity

variable {b : Backend}

/-! ### The request -/

structure AuthorizeFields where
  responseType : String
  clientId : String
  redirectUri : String
  scope : String
  state : String
  codeChallenge : String
  codeChallengeMethod : String
  nonce : String
  prompt : String
  maxAge : String

def authorizeFields (req : HttpRequest) : AuthorizeFields where
  responseType := req.getParameter "response_type"
  clientId := req.getParameter "client_id"
  redirectUri := req.getParameter "redirect_uri"
  scope := req.getParameter "scope"
  state := req.getParameter "state"
  codeChallenge := req.getParameter "code_challenge"
  codeChallengeMethod := req.getParameter "code_challenge_method"
  nonce := req.getParameter "nonce"
  prompt := req.getParameter "prompt"
  maxAge := req.getParameter "max_age"

namespace AuthorizeFields

def promptHas (f : AuthorizeFields) (value : String) : Bool := value ∈ splitNonEmpty ' ' f.prompt

def maxAgeSeconds (f : AuthorizeFields) : Int :=
  match stoll f.maxAge with
  | none => -1
  | some n => if n < 0 then -1 else n

/-- The method that is stored: `plain` when a challenge comes without one. -/
def challengeMethod (f : AuthorizeFields) : String :=
  if f.codeChallengeMethod = "" ∧ f.codeChallenge ≠ "" then "plain" else f.codeChallengeMethod

def problem (f : AuthorizeFields) : Option String :=
  if f.promptHas "none" = true ∧ (splitNonEmpty ' ' f.prompt).length > 1 then
    some "prompt=none cannot be combined with other prompt values (OIDC Core §3.1.2.1)"
  else if f.state = "" then
    some ("state parameter is required for CSRF protection. " ++
      "Please include a state parameter in your authorization request.")
  else if byteLength f.state < 8 ∨ byteLength f.state > 512 then
    some "state parameter must be between 8 and 512 characters."
  else if '?' ∈ f.state.toList ∨ '#' ∈ f.state.toList ∨ '&' ∈ f.state.toList then
    some "state parameter contains invalid characters."
  else none

end AuthorizeFields

/-! ### Locations -/

def buildAuthorizeErrorRedirect (cfg : Config) (f : AuthorizeFields) (error description : String) :
    Response :=
  .redirect ⟨.client f.redirectUri,
    "?error=" ++ cfg.urlEncode error ++
      optionalParam "error_description" description (cfg.urlEncode description) ++
      optionalParam "state" f.state (cfg.urlEncode f.state)⟩

def carriedParams (cfg : Config) (f : AuthorizeFields) : String :=
  optionalParam "code_challenge" f.codeChallenge
    (cfg.urlEncode f.codeChallenge ++ "&code_challenge_method=" ++
      cfg.urlEncode f.challengeMethod) ++
    optionalParam "nonce" f.nonce (cfg.urlEncode f.nonce)

def loginRedirect (cfg : Config) (f : AuthorizeFields) : Response :=
  .redirect ⟨.login cfg.loginUrl,
    "?client_id=" ++ cfg.urlEncode f.clientId ++ "&redirect_uri=" ++ cfg.urlEncode f.redirectUri ++
      "&scope=" ++ cfg.urlEncode f.scope ++ "&state=" ++ cfg.urlEncode f.state ++
      "&response_type=" ++ cfg.urlEncode f.responseType ++ carriedParams cfg f⟩

def consentRedirect (cfg : Config) (f : AuthorizeFields) (userId : String) : Response :=
  .redirect ⟨.consent cfg.consentUrl,
    "?client_id=" ++ cfg.urlEncode f.clientId ++ "&user_id=" ++ cfg.urlEncode userId ++
      "&scope=" ++ cfg.urlEncode f.scope ++ "&redirect_uri=" ++ cfg.urlEncode f.redirectUri ++
      "&state=" ++ cfg.urlEncode f.state ++ carriedParams cfg f⟩

def noSessionResponse (cfg : Config) (f : AuthorizeFields) : Response :=
  if f.promptHas "none" then
    buildAuthorizeErrorRedirect cfg f "login_required"
      "prompt=none requested but no active session"
  else loginRedirect cfg f

def needsConsentResponse (cfg : Config) (f : AuthorizeFields) (userId : String) : Response :=
  if f.promptHas "none" then
    buildAuthorizeErrorRedirect cfg f "consent_required"
      "prompt=none requested but user interaction (consent) is required"
  else consentRedirect cfg f userId

/-! ### The silent path -/

/-- The ports of the scope engine. The session's user id is resolved as a subject. -/
def scopePorts (w : World b) (env : RequestEnv) (clientId userId : String) : ScopePorts where
  client := w.getClient env .getClient clientId
  internalUserId := w.getInternalUserId env userId
  roles id := if env.fails .getRoles then [] else w.directory.roles id
  hasUserConsent id scope :=
    !env.fails (.hasUserConsent scope) && w.hasConsent id clientId scope

def reauthenticationNeeded (s : Session) (env : RequestEnv) (f : AuthorizeFields) : Bool :=
  let sessAuthTime := s.authTime.getD 0
  f.promptHas "login" ||
    f.maxAgeSeconds ≥ 0 && (sessAuthTime ≤ 0 || env.now - sessAuthTime > f.maxAgeSeconds)

def scopeErrorRedirect (cfg : Config) (f : AuthorizeFields) (summary : ScopeValidationSummary) :
    Response :=
  let desc := summary.invalidReasons.headD "scope validation failed"
  let error :=
    if "admin_role".toList <:+: desc.toList then "access_denied" else "invalid_scope"
  buildAuthorizeErrorRedirect cfg f error desc

/-- The code that the silent path asks for: its subject is the session's user id as it stands. -/
def silentCodeRequest (s : Session) (f : AuthorizeFields) (userId : String) : CodeRequest where
  clientId := f.clientId
  subject := userId
  scope := f.scope
  redirectUri := f.redirectUri
  codeChallenge := f.codeChallenge
  codeChallengeMethod := f.challengeMethod
  nonce := f.nonce
  authTime := s.authTime.getD 0
  amr := s.amr.getD ""

def issueSilently (cfg : Config) (w : World b) (sid : Nat) (env : RequestEnv)
    (f : AuthorizeFields) (userId : String) : Outcome b :=
  if cfg.pkceMissing f.codeChallenge then
    w.answer (buildAuthorizeErrorRedirect cfg f "invalid_request"
      "PKCE (code_challenge) is required for public clients")
  else
    match generateAuthorizationCode cfg w env sid
      (silentCodeRequest (w.sessions sid) f userId) with
    | (.code true code _, world, log) =>
      { world, log, response := .redirect (codeLocation cfg f.redirectUri code f.state) }
    | (_, world, log) =>
      { world, log
        response := buildAuthorizeErrorRedirect cfg f "server_error"
          "Failed to generate authorization code" }

def decideScopes (cfg : Config) (w : World b) (sid : Nat) (env : RequestEnv) (f : AuthorizeFields)
    (userId : String) : Outcome b :=
  let summary := AuthorizationService.evaluateScopes cfg.adminScopes
    (scopePorts w env f.clientId userId) (requestedScopes f.scope)
  if summary.hasErrors then w.answer (scopeErrorRedirect cfg f summary)
  else if summary.needsConsent || f.promptHas "consent" then
    w.answer (needsConsentResponse cfg f userId)
  else issueSilently cfg w sid env f userId

def withClient (cfg : Config) (w : World b) (sid : Nat) (env : RequestEnv) (f : AuthorizeFields) :
    Outcome b :=
  let userId := (w.sessions sid).userId.getD ""
  if f.codeChallengeMethod ∉ ["", "plain", "S256"] then
    w.answer (buildAuthorizeErrorRedirect cfg f "invalid_request"
      "code_challenge_method must be 'plain' or 'S256'")
  else if userId = "" then w.answer (noSessionResponse cfg f)
  else if reauthenticationNeeded (w.sessions sid) env f then w.answer (loginRedirect cfg f)
  else decideScopes cfg w sid env f userId

def authorize (cfg : Config) (w : World b) (req : HttpRequest) (env : RequestEnv) : Outcome b :=
  let errors := RuleSet.oauth2Authorize cfg.allowHttpRedirectUri req
  let f := authorizeFields req
  if errors ≠ [] then w.answer (.invalidInput errors)
  else
    match f.problem with
    | some text => w.answer (.plain 400 text)
    | none =>
      if w.validateClient env f.clientId "" = false then w.answer (.plain 400 "Invalid client_id")
      else if w.validateRedirectUri env f.clientId f.redirectUri = false then
        w.answer (.plain 400 "Invalid redirect_uri")
      else withClient cfg w req.session env f

/-! ### What an authorization request does -/

def silentCode (cfg : Config) (w : World b) (req : HttpRequest) (env : RequestEnv)
    (userId : String) : OAuth2AuthCode :=
  env.codeOf cfg (silentCodeRequest (w.sessions req.session) (authorizeFields req) userId)

def scopeSummary (cfg : Config) (w : World b) (req : HttpRequest) (env : RequestEnv)
    (userId : String) : ScopeValidationSummary :=
  AuthorizationService.evaluateScopes cfg.adminScopes
    (scopePorts w env (authorizeFields req).clientId userId)
    (requestedScopes (authorizeFields req).scope)

/-- What an authorization request can do: answer, or issue a code for the session's user. -/
inductive AuthorizeCase (cfg : Config) (w : World b) (req : HttpRequest) (env : RequestEnv) :
    Outcome b → Prop
  | answered {response : Response}
      (hlocations : ∀ l ∈ response.locations, ∀ uri, l.page = .client uri →
        uri = (authorizeFields req).redirectUri ∧ w.validateRedirectUri env
          (authorizeFields req).clientId (authorizeFields req).redirectUri = true) :
      AuthorizeCase cfg w req env (w.answer response)
  | issued {userId : String} (huser : (w.sessions req.session).userId = some userId)
      (huri : w.validateRedirectUri env (authorizeFields req).clientId
        (authorizeFields req).redirectUri = true)
      (hscopes : (scopeSummary cfg w req env userId).hasErrors = false) :
      AuthorizeCase cfg w req env
        { world := w.saveCode env (silentCode cfg w req env userId)
          response := .redirect (codeLocation cfg (authorizeFields req).redirectUri
            (env.generate 0).random (authorizeFields req).state)
          log := [.codeIssued req.session (silentCode cfg w req env userId)] }

variable {cfg : Config} {w : World b} {req : HttpRequest} {env : RequestEnv}

/-- An answer that sends the browser to the client only at the request's redirect URI. -/
def StaysAt (req : HttpRequest) (response : Response) : Prop :=
  ∀ l ∈ response.locations, ∀ uri, l.page = .client uri → uri = (authorizeFields req).redirectUri

theorem staysAt_redirect {page : Page} {query : String}
    (hpage : ∀ uri, page = .client uri → uri = (authorizeFields req).redirectUri) :
    StaysAt req (.redirect ⟨page, query⟩) := by
  intro l hl
  obtain rfl := List.mem_singleton.mp hl
  exact hpage

theorem staysAt_error {error description : String} :
    StaysAt req (buildAuthorizeErrorRedirect cfg (authorizeFields req) error description) := by
  refine staysAt_redirect ?_
  intro uri heq
  cases heq
  rfl

theorem staysAt_noSession : StaysAt req (noSessionResponse cfg (authorizeFields req)) := by
  unfold noSessionResponse
  split
  · exact staysAt_error
  · exact staysAt_redirect nofun

theorem staysAt_needsConsent {userId : String} :
    StaysAt req (needsConsentResponse cfg (authorizeFields req) userId) := by
  unfold needsConsentResponse
  split
  · exact staysAt_error
  · exact staysAt_redirect nofun

theorem AuthorizeCase.plain {response : Response} (h : response.locations = []) :
    AuthorizeCase cfg w req env (w.answer response) := by
  refine .answered ?_
  rw [h]
  nofun

section Checked

variable (huri : w.validateRedirectUri env (authorizeFields req).clientId
  (authorizeFields req).redirectUri = true)
include huri

theorem AuthorizeCase.of_staysAt {response : Response} (h : StaysAt req response) :
    AuthorizeCase cfg w req env (w.answer response) :=
  .answered fun l hl uri hpage => ⟨h l hl uri hpage, huri⟩

theorem decideScopes_cases {userId : String}
    (huser : (w.sessions req.session).userId = some userId) :
    AuthorizeCase cfg w req env
      (decideScopes cfg w req.session env (authorizeFields req) userId) := by
  unfold decideScopes
  simp only
  split
  · exact .of_staysAt huri staysAt_error
  rename_i hscopes
  split
  · exact .of_staysAt huri staysAt_needsConsent
  unfold issueSilently
  split
  · exact .of_staysAt huri staysAt_error
  · exact .issued huser huri (by simpa [scopeSummary] using hscopes)

theorem withClient_cases :
    AuthorizeCase cfg w req env (withClient cfg w req.session env (authorizeFields req)) := by
  unfold withClient
  simp only
  split
  · exact .of_staysAt huri staysAt_error
  split
  · exact .of_staysAt huri staysAt_noSession
  rename_i huser
  split
  · exact .of_staysAt huri (staysAt_redirect nofun)
  · refine decideScopes_cases huri ?_
    cases hkey : (w.sessions req.session).userId with
    | none => simp [hkey] at huser
    | some userId => rfl

end Checked

theorem authorize_cases : AuthorizeCase cfg w req env (authorize cfg w req env) := by
  unfold authorize
  simp only
  split
  · exact .plain rfl
  split
  · exact .plain rfl
  split
  · exact .plain rfl
  split
  · exact .plain rfl
  · rename_i huri
    exact withClient_cases (by simpa using huri)

end AuthForge.Http.AuthorizationEndpoint
