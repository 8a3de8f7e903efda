import AuthForge.Authz.ScopeRegistry
import AuthForge.Http.GitHubFlow

/-!
# Logging out

`SessionController::logout` and `SessionController::endSession`, and the notifier that posts a
logout token to every relying party where the user has an active access token. A logout is for the
user of its bearer token, an ended session for the subject of the session or else of the hint, whose
signature nobody checks. Tokens are in PostgreSQL, where the notifier reads them.
-/

namespace AuthForge.Http.Logout

open OAuth2 Identity Storage

/-! ### State and ports -/

abbrev postgres (sha256Hex : String → String) (grants : GrantRepository) : Backend :=
  ⟨sha256Hex, grants, Postgres.tokenRepository⟩

/-- The server with the column `backchannel_logout_uri` of `oauth2_clients`; `NULL` has no entry. -/
structure Site (sha256Hex : String → String) (grants : GrantRepository) where
  world : World (postgres sha256Hex grants)
  backchannelLogoutUris : Dict String String := ∅

variable {sha256Hex : String → String} {grants : GrantRepository}

namespace Site

def tokens (s : Site sha256Hex grants) : Postgres.TokenTables := s.world.store.tokens

def withTokens (s : Site sha256Hex grants) (tokens : Postgres.TokenTables) :
    Site sha256Hex grants :=
  { s with world := { s.world with store := { s.world.store with tokens } } }

def clearSession (s : Site sha256Hex grants) (sid : Nat) : Site sha256Hex grants :=
  { s with world := s.world.setSession sid {} }

def backchannelLogoutUri (s : Site sha256Hex grants) (clientId : String) : String :=
  (s.backchannelLogoutUris.lookup clientId).getD ""

end Site

/-- A member of a decoded payload; only strings are looked into. -/
inductive Member
  | string (value : String)
  | other
  deriving DecidableEq

inductive Payload
  | null
  | object (members : Dict String Member)
  /-- Any other JSON value; `isMember` throws on it. -/
  | other

def Payload.asString : Payload → String → Option String
  | .object members, name =>
    match members.lookup name with
    | some (.string value) => some value
    | _ => none
  | _, _ => none

def kBackchannelLogoutEventUrn : String := "http://schemas.openid.net/event/backchannel-logout"

structure LogoutTokenClaims where
  iss : String
  sub : String
  aud : String
  iat : Int
  exp : Int
  jti : String
  events : String := kBackchannelLogoutEventUrn
  deriving DecidableEq

structure Ports where
  issuer : String
  tokenTtlSeconds : Int := 120
  base64Decode : String → String
  parseFromStream : String → Option Payload
  /-- Empty when signing fails. -/
  signJwt : LogoutTokenClaims → String
  registry : Authz.Registry

structure LogoutRequest where
  session : Nat
  authorization : String := ""

/-- What one request reads from outside: the clocks of its parts and which statements fail. -/
structure LogoutEnv where
  validatedAt : Int := 0
  validation : Postgres.CallFaults := {}
  revokedAt : Int := 0
  revocation : Postgres.CallFaults := {}
  notifiedAt : Int := 0
  tokenQueryFails : Bool := false
  clientQueryFails : Bool := false
  dispatchedAt : Int := 0
  jti : Nat → String := fun _ => ""
  request : RequestEnv := {}

/-! ### The notifier -/

structure BackchannelRpTarget where
  clientId : String
  backchannelLogoutUri : String
  deriving DecidableEq

/-- A POST of a logout token. -/
structure Post where
  target : BackchannelRpTarget
  claims : LogoutTokenClaims
  logoutToken : String
  deriving DecidableEq

def buildLogoutTokenClaims (ports : Ports) (subject audience : String) (issuedAtSeconds : Int)
    (jti : String) : LogoutTokenClaims where
  iss := ports.issuer
  sub := subject
  aud := audience
  iat := issuedAtSeconds
  exp := issuedAtSeconds + ports.tokenTtlSeconds
  jti := jti

/-- Query 1: the row counts as an active session of the user. -/
def isActive (now : Int) (userId : String) (row : OAuth2AccessToken) : Bool :=
  now < row.expiresAt && !row.revoked && row.userId = userId

/-- The distinct clients of the rows of query 1. -/
def activeClientIds (now : Int) (userId : String) (tokens : Postgres.TokenTables) : List String :=
  ((tokens.oauth2AccessTokens.entries.filter fun e => isActive now userId e.2).map
    fun e => e.2.clientId).dedup

/-- Query 2, and what it leaves with a logout URI. -/
def targetsOf (s : Site sha256Hex grants) (clientIds : List String) : List BackchannelRpTarget :=
  (s.world.clients.keys.filter fun clientId =>
    clientId ∈ clientIds && s.backchannelLogoutUri clientId ≠ "").map
      fun clientId => ⟨clientId, s.backchannelLogoutUri clientId⟩

/-- The token for a target, if it can be signed. -/
def postTo (ports : Ports) (env : LogoutEnv) (subject : String) (target : BackchannelRpTarget)
    (n : Nat) : Option Post :=
  let claims :=
    buildLogoutTokenClaims ports subject target.clientId env.dispatchedAt (env.jti n)
  let jwt := ports.signJwt claims
  if jwt = "" then none else some ⟨target, claims, jwt⟩

def dispatch (ports : Ports) (env : LogoutEnv) (subject : String)
    (targets : List BackchannelRpTarget) : List Post :=
  targets.zipIdx.filterMap fun (target, n) =>
    if target.backchannelLogoutUri = "" then none else postTo ports env subject target n

def notify (ports : Ports) (s : Site sha256Hex grants) (env : LogoutEnv) (userId : String) :
    List Post :=
  if env.tokenQueryFails then []
  else
    let clientIds := activeClientIds env.notifiedAt userId s.tokens
    if clientIds = [] then []
    else if env.clientQueryFails then []
    else dispatch ports env userId (targetsOf s clientIds)

/-! ### The handlers -/

inductive Reply
  | error (code detail : String)
  | insufficientScope
  | plain (status : Nat) (body : String)
  | message (text : String)
  | redirect (location : String)
  /-- An exception left the handler. -/
  | thrown
  deriving DecidableEq

structure Outcome (sha256Hex : String → String) (grants : GrantRepository) where
  site : Site sha256Hex grants
  reply : Reply
  posts : List Post := []

def Site.answer (s : Site sha256Hex grants) (reply : Reply) : Outcome sha256Hex grants :=
  { site := s, reply }

def bearer (req : LogoutRequest) : String := String.ofList (req.authorization.toList.drop 7)

/-- The valid access token that the request presents. -/
def presented (cfg : Config) (s : Site sha256Hex grants) (req : LogoutRequest) (env : LogoutEnv) :
    Option OAuth2AccessToken :=
  cfg.tokenService.validateAccessToken
    (fun hash => Postgres.getAccessToken env.validation hash s.tokens) env.validatedAt (bearer req)

/-- `OAuth2AuthFilter` in front of the handler. -/
def filter (cfg : Config) (ports : Ports) (s : Site sha256Hex grants) (req : LogoutRequest)
    (env : LogoutEnv) : Authz.FilterResult :=
  Authz.doFilter ports.registry
    (fun token => (cfg.tokenService.validateAccessToken
      (fun hash => Postgres.getAccessToken env.validation hash s.tokens) env.validatedAt
        token).map OAuth2AccessToken.scope)
    { path := "/oauth2/logout", method := .Post, authorization := req.authorization }

/-- The session is cleared and the access token revoked. -/
def loggedOut (cfg : Config) (s : Site sha256Hex grants) (req : LogoutRequest) (env : LogoutEnv)
    (clientId : String) : Site sha256Hex grants :=
  (s.clearSession req.session).withTokens
    (Postgres.revokeAccessToken env.revokedAt env.revocation
      (hashToken cfg.tokenService.crypto (bearer req)) clientId s.tokens)

def logoutHandler (cfg : Config) (ports : Ports) (s : Site sha256Hex grants) (req : LogoutRequest)
    (env : LogoutEnv) : Outcome sha256Hex grants :=
  if byteLength req.authorization < 8 ∨
      ¬"Bearer ".toList.isPrefixOf req.authorization.toList then
    s.answer (.error "AUTH_TOKEN_INVALID" "logout: missing or invalid Authorization header")
  else
    let principal := presented cfg s req env
    let userId := (principal.map OAuth2AccessToken.userId).getD ""
    let clientId := (principal.map OAuth2AccessToken.clientId).getD ""
    let s' := loggedOut cfg s req env clientId
    { site := s'
      reply := .message "Logged out successfully"
      posts := notify ports s' env userId }

def logout (cfg : Config) (ports : Ports) (s : Site sha256Hex grants) (req : LogoutRequest)
    (env : LogoutEnv) : Outcome sha256Hex grants :=
  match filter cfg ports s req env with
  | .rejected code message => s.answer (.error code message)
  | .insufficientScope _ => s.answer .insufficientScope
  | .passed _ => logoutHandler cfg ports s req env

/-- The padding of a base64 text. -/
def padded (payloadB64 : String) : String :=
  payloadB64 ++ String.ofList (List.replicate ((4 - byteLength payloadB64 % 4) % 4) '=')

def fromBase64Url (c : Char) : Char := if c = '-' then '+' else if c = '_' then '/' else c

/-- The payload segment between the first two dots; no signature is checked. -/
def decodeJwtPayloadClaims (ports : Ports) (jwt : String) : Payload :=
  match cutFirst '.' jwt with
  | none => .null
  | some (_, rest) =>
    match cutFirst '.' rest with
    | none => .null
    | some (payloadB64, _) =>
      let base64 := String.ofList ((padded payloadB64).toList.map fromBase64Url)
      (ports.parseFromStream (ports.base64Decode base64)).getD .null

def hintPayload (ports : Ports) (req : HttpRequest) : Payload :=
  let idTokenHint := req.getParameter "id_token_hint"
  if idTokenHint = "" then .null else decodeJwtPayloadClaims ports idTokenHint

/-- The subject of the session, or else the one that the hint names. -/
def subjectOf (s : Site sha256Hex grants) (ports : Ports) (req : HttpRequest) : String :=
  let sub := ((s.world.sessions req.session).sub).getD ""
  if sub = "" then ((hintPayload ports req).asString "sub").getD "" else sub

/-- The end of a session that is terminated. -/
def finish (ports : Ports) (s : Site sha256Hex grants) (req : HttpRequest) (env : LogoutEnv)
    (subject : String) (reply : Reply) : Outcome sha256Hex grants :=
  let s' := s.clearSession req.session
  { site := s'
    reply
    posts := if subject = "" then [] else notify ports s' env subject }

def postLogoutLocation (cfg : Config) (postLogoutRedirectUri state : String) : String :=
  if state = "" then postLogoutRedirectUri
  else
    postLogoutRedirectUri ++ (if '?' ∈ postLogoutRedirectUri.toList then "&" else "?") ++
      "state=" ++ cfg.urlEncode state

def endSession (cfg : Config) (ports : Ports) (s : Site sha256Hex grants) (req : HttpRequest)
    (env : LogoutEnv) : Outcome sha256Hex grants :=
  match hintPayload ports req with
  | .other => s.answer .thrown
  | payload =>
    let hintClientId := (payload.asString "aud").getD ""
    let subject := subjectOf s ports req
    let postLogoutRedirectUri := req.getParameter "post_logout_redirect_uri"
    if postLogoutRedirectUri = "" then
      finish ports s req env subject (.message "Logged out successfully")
    else if hintClientId = "" then
      s.answer (.plain 400
        "post_logout_redirect_uri requires a valid id_token_hint for client identification")
    else if s.world.validateRedirectUri env.request hintClientId postLogoutRedirectUri = false then
      s.answer (.plain 400
        "post_logout_redirect_uri is not registered for the id_token_hint client")
    else
      finish ports s req env subject
        (.redirect (postLogoutLocation cfg postLogoutRedirectUri (req.getParameter "state")))

/-! ### What the handlers do -/

variable {cfg : Config} {ports : Ports} {s : Site sha256Hex grants} {env : LogoutEnv}

/-- The reply tells whether the session was cleared. -/
def Reply.completes : Reply → Bool
  | .message _ | .redirect _ => true
  | _ => false

/-- A logout is refused and changes nothing, or it is one of the user of a valid token. -/
inductive LogoutCase (cfg : Config) (ports : Ports) (s : Site sha256Hex grants)
    (req : LogoutRequest) (env : LogoutEnv) : Outcome sha256Hex grants → Prop
  | refused {reply : Reply} (hreply : reply.completes = false) :
      LogoutCase cfg ports s req env (s.answer reply)
  | done {token : OAuth2AccessToken} (htoken : presented cfg s req env = some token) :
      LogoutCase cfg ports s req env
        { site := loggedOut cfg s req env token.clientId
          reply := .message "Logged out successfully"
          posts := notify ports (loggedOut cfg s req env token.clientId) env token.userId }

/-- Whoever passes the filter has presented a valid token. -/
theorem presented_of_passed {req : LogoutRequest}
    {checked : Option Authz.ResourceScopeRequirement}
    (h : filter cfg ports s req env = .passed checked) :
    ∃ token, presented cfg s req env = some token := by
  unfold filter Authz.doFilter at h
  split at h
  · rename_i hmethod
    cases hmethod
  · split at h
    · cases h
    · split at h
      · cases h
      · rename_i scope hvalid
        obtain ⟨token, htoken, -⟩ := Option.map_eq_some_iff.mp hvalid
        exact ⟨token, htoken⟩

theorem logout_cases {req : LogoutRequest} :
    LogoutCase cfg ports s req env (logout cfg ports s req env) := by
  unfold logout
  split
  · exact .refused rfl
  · exact .refused rfl
  · rename_i hpassed
    obtain ⟨token, htoken⟩ := presented_of_passed hpassed
    unfold logoutHandler
    split
    · exact .refused rfl
    · rw [htoken]
      exact .done htoken

/-- An end of a session is refused and changes nothing, or the session is cleared and the notifier
called for its subject. -/
inductive EndSessionCase (ports : Ports) (s : Site sha256Hex grants) (req : HttpRequest)
    (env : LogoutEnv) : Outcome sha256Hex grants → Prop
  | refused {reply : Reply} (hreply : reply.completes = false) :
      EndSessionCase ports s req env (s.answer reply)
  | finished {reply : Reply} (hreply : reply.completes = true) :
      EndSessionCase ports s req env (finish ports s req env (subjectOf s ports req) reply)

theorem endSession_cases {req : HttpRequest} :
    EndSessionCase ports s req env (endSession cfg ports s req env) := by
  unfold endSession
  split
  · exact .refused rfl
  · dsimp only
    split
    · exact .finished rfl
    · split
      · exact .refused rfl
      · split
        · exact .refused rfl
        · exact .finished rfl

/-! ### The machine -/

inductive Input
  | signIn (i : SignInInput)
  | logout (req : LogoutRequest) (env : LogoutEnv)
  | endSession (req : HttpRequest) (env : LogoutEnv)

/-- What a step did: the event of a sign-in, the session that it cleared, the tokens it posted. -/
structure Event where
  flow : FlowEvent := {}
  cleared : Option Nat := none
  posts : List Post := []
  deriving DecidableEq

def Outcome.event (o : Outcome sha256Hex grants) (sid : Nat) : Event where
  cleared := if o.reply.completes then some sid else none
  posts := o.posts

def step (cfg : Config) (ports : Ports) (s : Site sha256Hex grants) :
    Input → Site sha256Hex grants × Event
  | .signIn i =>
    let r := signInStep cfg s.world i
    ({ s with world := r.1 }, { flow := r.2 })
  | .logout req env =>
    let o := logout cfg ports s req env
    (o.site, o.event req.session)
  | .endSession req env =>
    let o := endSession cfg ports s req env
    (o.site, o.event req.session)

def machine (sha256Hex : String → String) (grants : GrantRepository) (cfg : Config)
    (ports : Ports) : Machine (Site sha256Hex grants) Input Event where
  step := step cfg ports

abbrev SiteRun (cfg : Config) (ports : Ports) (s₀ : Site sha256Hex grants) :
    List Event → Site sha256Hex grants → Prop :=
  (machine sha256Hex grants cfg ports).Run anyStep s₀

/-! ### A known deployment -/

/-- The claims that only name the user 1, as JSON and in base64url. -/
def knownHintText : String := "\x7b\"sub\":\"1\"\x7d"

def knownHint : String := "eyJhbGciOiJub25lIn0.eyJzdWIiOiIxIn0."

/-- The ports agree with base64, JSON and the signer on the values of the runs below. -/
def knownPorts : Ports where
  issuer := "https://auth.example.com"
  base64Decode s := if s = "eyJzdWIiOiIxIn0=" then knownHintText else ""
  parseFromStream text :=
    if text = knownHintText then some (.object (AList.insert "sub" (.string "1") ∅)) else none
  signJwt _ := "header.claims.signature"
  registry := ⟨[], []⟩

/-- Two clients that want to hear of logouts. -/
def knownSite : Site (fun _ => "") Memory.grantRepository where
  world :=
    { store :=
        ⟨(AList.insert "spa" knownClient (AList.insert "vue-client"
          { knownClient with clientId := "vue-client" } ∅) : Postgres.Clients),
          (∅ : Memory.AuthCodes), (⟨∅, ∅⟩ : Postgres.TokenTables)⟩
      users := knownUsers
      mappings := AList.insert ("local", "alice") 1 ∅
      scopeNames := ["openid"] }
  backchannelLogoutUris :=
    AList.insert "spa" "https://spa.example.com/logout"
      (AList.insert "vue-client" "https://app.example.com/logout" ∅)

def knownLogoutEnv (now : Int) : LogoutEnv :=
  { validatedAt := now, revokedAt := now, notifiedAt := now, dispatchedAt := now }

def siteExecuted (inputs : List Input) :
    List Event × Site (fun _ => "") Memory.grantRepository :=
  (machine _ _ knownConfig knownPorts).exec [] knownSite inputs

theorem siteRun_executed (inputs : List Input) :
    SiteRun knownConfig knownPorts knownSite (siteExecuted inputs).1 (siteExecuted inputs).2 :=
  Machine.run_exec _ _ _

end AuthForge.Http.Logout
