import AuthForge.Http.World
import AuthForge.Identity.Totp

/-!
# The second factor

`MfaController::verifyLogin`. The `mfa_token` of the request is the internal user id in decimal, and
the client and redirect URI of the login are read back from the user's row. After an accepted
one-time code the handler issues an authorization code and exchanges it itself.
-/

namespace AuthForge.Http.MfaController

open OAuth2 Identity

variable {b : Backend}

structure VerifyFields where
  mfaToken : String
  code : String
  clientId : String
  redirectUri : String
  scope : String
  nonce : String
  codeVerifier : String

def verifyFields (req : HttpRequest) : VerifyFields where
  mfaToken := req.bodyField "mfa_token"
  code := req.bodyField "code"
  clientId := req.bodyField "client_id"
  redirectUri := req.bodyField "redirect_uri"
  scope :=
    if req.bodyField "scope" = "" then "openid profile email" else req.bodyField "scope"
  nonce := req.bodyField "nonce"
  codeVerifier := req.bodyField "code_verifier"

/-! ### The one-time code -/

def findById (w : World b) (userId : Int) : Option UserRow :=
  (w.users.rows.lookup userId).filter fun u => !u.deleted

def verifyLoginCode (cfg : Config) (w : World b) (env : RequestEnv) (userId : Int) (code : String) :
    Bool :=
  match if env.fails .getMfaData then none else w.users.rows.lookup userId with
  | none => false
  | some u =>
    u.mfaEnabled && u.mfaSecret ≠ "" && Totp.verifyCode cfg.crypto u.mfaSecret code env.now

/-- `MfaService::getPendingBinding`; what cannot be read is empty. -/
def pendingBinding (w : World b) (env : RequestEnv) (userId : Int) : String × String :=
  if env.fails .getPendingBinding then ("", "")
  else (w.users.getPendingBinding userId).getD ("", "")

structure TotpVerified where
  userId : Int
  publicSub : String
  pendingClientId : String
  pendingRedirectUri : String

abbrev Refusal := String × String

def invalidSession : Refusal := ("AUTH_INVALID_CREDENTIALS", "verifyLogin: invalid MFA session")

def accountLocked : Refusal := ("AUTH_INVALID_CREDENTIALS", "verifyLogin: account is locked")

def totpIncorrect : Refusal := ("AUTH_INVALID_CREDENTIALS", "verifyLogin: TOTP code is incorrect")

def serviceTotp (cfg : Config) (w : World b) (env : RequestEnv) (userId : Int) (code : String) :
    Except Refusal TotpVerified :=
  match if env.fails .findUser then none else findById w userId with
  | none => .error invalidSession
  | some user =>
    if user.lockedUntil > env.now then .error accountLocked
    else if verifyLoginCode cfg w env userId code = false then .error totpIncorrect
    else
      .ok ⟨userId, user.publicSub, (pendingBinding w env userId).1, (pendingBinding w env userId).2⟩

/-- The path without the services: one row is read, and its `mfa_enabled` is not looked at. -/
def fallbackTotp (cfg : Config) (w : World b) (env : RequestEnv) (userId : Int) (code : String) :
    Except Refusal TotpVerified :=
  if env.fails .findUser then .error ("DB_QUERY_ERROR", "MFA login verify failed: " ++ env.what)
  else
    match findById w userId with
    | none => .error invalidSession
    | some user =>
      if user.lockedUntil > env.now then .error accountLocked
      else if Totp.verifyCode cfg.crypto user.mfaSecret code env.now = false then
        .error totpIncorrect
      else
        .ok ⟨userId, user.publicSub, user.mfaPendingClientId.getD "",
          user.mfaPendingRedirectUri.getD ""⟩

def verifyTotp (cfg : Config) (w : World b) (env : RequestEnv) (f : VerifyFields) :
    Except Refusal TotpVerified :=
  match stoi f.mfaToken with
  | none => .error invalidSession
  | some userId =>
    if cfg.mfaServiceWired then serviceTotp cfg w env userId f.code
    else fallbackTotp cfg w env userId f.code

/-! ### Completing the login -/

def secondFactorKeys (cfg : Config) (s : Session) (now : Int) : Session :=
  { s with authTime := cfg.insertKey s.authTime now, amr := cfg.insertKey s.amr "pwd mfa" }

/-- The code of a completed login. Only the wired path carries the challenge of the login. -/
def mfaCodeRequest (cfg : Config) (s : Session) (env : RequestEnv) (f : VerifyFields)
    (v : TotpVerified) : CodeRequest where
  clientId := f.clientId
  subject := v.publicSub
  scope := f.scope
  redirectUri := f.redirectUri
  codeChallenge := if cfg.mfaServiceWired then s.mfaCodeChallenge.getD "" else ""
  codeChallengeMethod := if cfg.mfaServiceWired then s.mfaCodeChallengeMethod.getD "" else ""
  nonce := f.nonce
  authTime := env.now
  amr := "pwd mfa"

def mfaExchangeRequest (cfg : Config) (f : VerifyFields) (code : String) : ExchangeRequest where
  code := code
  clientId := f.clientId
  clientSecret := ""
  redirectUri := f.redirectUri
  codeVerifier := if cfg.mfaServiceWired then f.codeVerifier else ""

/-- Forget the pending binding; a failure is only logged. -/
def clearPending (w : World b) (env : RequestEnv) (userId : Int) : World b :=
  if env.fails .clearPending then w else { w with users := w.users.clearPendingBinding userId }

def exchangeIssued (cfg : Config) (w : World b) (sid : Nat) (env : RequestEnv) (f : VerifyFields)
    (v : TotpVerified) (code : String) : Outcome b :=
  match exchangeCodeForToken cfg w env (mfaExchangeRequest cfg f code) with
  | (.tokens response, world) =>
    { world := clearPending world env v.userId
      response := .mfaVerified response
      log := [.tokensReturned sid v.userId f.clientId f.redirectUri] }
  | (.error _ description, world) =>
    world.answer (.error "INTERNAL_ERROR"
      ("verifyLogin: failed to exchange authorization code: " ++ description))
  | (_, world) => world.answer .unanswered

/-- `onTotpVerified`: the client and the binding are checked, then code and tokens are issued. -/
def onTotpVerified (cfg : Config) (w : World b) (sid : Nat) (env : RequestEnv) (f : VerifyFields)
    (v : TotpVerified) : Outcome b :=
  if w.validateClient env f.clientId "" = false then
    w.answer (.error "AUTH_INVALID_CREDENTIALS" "verifyLogin: unknown or invalid client")
  else if w.validateRedirectUri env f.clientId f.redirectUri = false then
    w.answer (.error "AUTH_INVALID_CREDENTIALS"
      "verifyLogin: redirect_uri not registered for client")
  else if f.clientId ≠ v.pendingClientId ∨ f.redirectUri ≠ v.pendingRedirectUri then
    w.answer (.error "AUTH_INVALID_CREDENTIALS"
      "verifyLogin: client/redirect_uri does not match login session")
  else
    match generateAuthorizationCode cfg w env sid
      (mfaCodeRequest cfg (w.sessions sid) env f v) with
    | (.code true code _, world, log) => (exchangeIssued cfg world sid env f v code).after log
    | (.code false _ error, world, log) =>
      { world, log
        response := .error "INTERNAL_ERROR"
          ("verifyLogin: failed to generate authorization code: " ++ error) }
    | (_, world, log) => { world, log, response := .unanswered }

def keyed (cfg : Config) (w : World b) (req : HttpRequest) (env : RequestEnv) : World b :=
  w.setSession req.session (secondFactorKeys cfg (w.sessions req.session) env.now)

def verifyLogin (cfg : Config) (w : World b) (req : HttpRequest) (env : RequestEnv) : Outcome b :=
  let f := verifyFields req
  if f.mfaToken = "" ∨ f.code = "" then
    w.answer (.error "VALIDATION_MISSING_REQUIRED_FIELD"
      "verifyLogin: mfa_token and code are required")
  else if f.clientId = "" ∨ f.redirectUri = "" then
    w.answer (.error "VALIDATION_MISSING_REQUIRED_FIELD"
      "verifyLogin: client_id and redirect_uri are required to issue tokens after MFA")
  else
    let w' := keyed cfg w req env
    match verifyTotp cfg w' env f with
    | .error (code, detail) => w'.answer (.error code detail)
    | .ok v =>
      (onTotpVerified cfg w' req.session env f v).after [.totpAccepted req.session v.userId]

/-! ### What the second factor does -/

/-- An accepted one-time code belongs to the stored user that the token names, and the binding it
hands on is empty or the one in that user's row. -/
structure AcceptedTotp (w : World b) (f : VerifyFields) (v : TotpVerified) : Prop where
  token : stoi f.mfaToken = some v.userId
  user : ∃ u, w.users.rows.lookup v.userId = some u ∧ v.publicSub = u.publicSub
  binding : (v.pendingClientId, v.pendingRedirectUri) = ("", "") ∨
    w.users.getPendingBinding v.userId = some (v.pendingClientId, v.pendingRedirectUri)

variable {cfg : Config} {w : World b} {env : RequestEnv} {f : VerifyFields} {v : TotpVerified}
  {userId : Int} {code : String}

theorem findById_eq_some {u : UserRow} (h : findById w userId = some u) :
    w.users.rows.lookup userId = some u :=
  (Option.filter_eq_some_iff.mp h).1

theorem pendingBinding_spec (hrow : ∃ u, w.users.rows.lookup userId = some u) :
    pendingBinding w env userId = ("", "") ∨
      w.users.getPendingBinding userId = some (pendingBinding w env userId) := by
  obtain ⟨u, hrow⟩ := hrow
  unfold pendingBinding
  split
  · exact .inl rfl
  · exact .inr (by simp [UserTable.getPendingBinding, hrow])

theorem serviceTotp_ok (h : serviceTotp cfg w env userId code = .ok v) :
    ∃ u, w.users.rows.lookup userId = some u ∧ v = ⟨userId, u.publicSub,
      (pendingBinding w env userId).1, (pendingBinding w env userId).2⟩ := by
  unfold serviceTotp at h
  split at h
  · cases h
  · rename_i u hfound
    split at h
    · cases h
    split at h
    · cases h
    refine ⟨u, ?_, by cases h; rfl⟩
    split at hfound
    · cases hfound
    · exact findById_eq_some hfound

theorem fallbackTotp_ok (h : fallbackTotp cfg w env userId code = .ok v) :
    ∃ u, w.users.rows.lookup userId = some u ∧ v = ⟨userId, u.publicSub,
      u.mfaPendingClientId.getD "", u.mfaPendingRedirectUri.getD ""⟩ := by
  unfold fallbackTotp at h
  split at h
  · cases h
  split at h
  · cases h
  · rename_i u hfound
    split at h
    · cases h
    split at h
    · cases h
    exact ⟨u, findById_eq_some hfound, by cases h; rfl⟩

theorem verifyTotp_ok (h : verifyTotp cfg w env f = .ok v) : AcceptedTotp w f v := by
  unfold verifyTotp at h
  split at h
  · cases h
  · rename_i userId htoken
    split at h
    · obtain ⟨u, hrow, rfl⟩ := serviceTotp_ok h
      exact ⟨htoken, ⟨u, hrow, rfl⟩, pendingBinding_spec ⟨u, hrow⟩⟩
    · obtain ⟨u, hrow, rfl⟩ := fallbackTotp_ok h
      exact ⟨htoken, ⟨u, hrow, rfl⟩, .inr (by simp [UserTable.getPendingBinding, hrow])⟩

theorem acceptedTotp_of_keyed {req : HttpRequest}
    (h : verifyTotp cfg (keyed cfg w req env) env (verifyFields req) = .ok v) :
    AcceptedTotp w (verifyFields req) v := by
  obtain ⟨htoken, huser, hbinding⟩ := verifyTotp_ok h
  exact ⟨htoken, huser, hbinding⟩

def mfaCode (cfg : Config) (w : World b) (req : HttpRequest) (env : RequestEnv) (v : TotpVerified) :
    OAuth2AuthCode :=
  env.codeOf cfg (mfaCodeRequest cfg ((keyed cfg w req env).sessions req.session) env
    (verifyFields req) v)

/-- What the second factor can do: refuse, stop after an accepted code, issue a code without
redeeming it, or hand out tokens. -/
inductive VerifyCase (cfg : Config) (w : World b) (req : HttpRequest) (env : RequestEnv) :
    Outcome b → Prop
  | refused {response : Response} : VerifyCase cfg w req env (w.answer response)
  | rejected {response : Response} :
      VerifyCase cfg w req env ((keyed cfg w req env).answer response)
  | stopped {v : TotpVerified} {response : Response}
      (htotp : verifyTotp cfg (keyed cfg w req env) env (verifyFields req) = .ok v) :
      VerifyCase cfg w req env
        { world := keyed cfg w req env, response, log := [.totpAccepted req.session v.userId] }
  | issued {v : TotpVerified} {response : Response} {store : Store b.repos} {users : UserTable}
      {returned : List Action}
      (htotp : verifyTotp cfg (keyed cfg w req env) env (verifyFields req) = .ok v)
      (hclient : (verifyFields req).clientId ≠ "")
      (hbound : ((verifyFields req).clientId, (verifyFields req).redirectUri) =
        (v.pendingClientId, v.pendingRedirectUri))
      (hclients : store.clients = w.clients)
      (husers : users = w.users ∨ users = w.users.clearPendingBinding v.userId)
      (hreturned : returned = [] ∨ returned = [.tokensReturned req.session v.userId
        (verifyFields req).clientId (verifyFields req).redirectUri]) :
      VerifyCase cfg w req env
        { world := { keyed cfg w req env with store, users }
          response
          log := returned ++ [.codeIssued req.session (mfaCode cfg w req env v),
            .totpAccepted req.session v.userId] }

variable {req : HttpRequest}

theorem clearPending_eq (w : World b) (env : RequestEnv) (userId : Int) :
    ∃ users, (users = w.users ∨ users = w.users.clearPendingBinding userId) ∧
      clearPending w env userId = { w with users } := by
  unfold clearPending
  split
  · exact ⟨w.users, .inl rfl, rfl⟩
  · exact ⟨_, .inr rfl, rfl⟩

theorem exchangeIssued_eq (cfg : Config) (w : World b) (sid : Nat) (env : RequestEnv)
    (f : VerifyFields) (v : TotpVerified) (code : String) :
    ∃ (store : Store b.repos) (users : UserTable) (returned : List Action) (response : Response),
      store.clients = w.clients ∧
      (users = w.users ∨ users = w.users.clearPendingBinding v.userId) ∧
      (returned = [] ∨ returned = [.tokensReturned sid v.userId f.clientId f.redirectUri]) ∧
      exchangeIssued cfg w sid env f v code =
        { world := { w with store, users }, response, log := returned } := by
  obtain ⟨reply, store, hclients, hexchange⟩ :=
    exchangeCodeForToken_eq cfg w env (mfaExchangeRequest cfg f code)
  unfold exchangeIssued
  rw [hexchange]
  cases reply with
  | tokens response =>
    obtain ⟨users, husers, hclear⟩ := clearPending_eq { w with store } env v.userId
    refine ⟨store, users, _, .mfaVerified response, hclients, husers, .inr rfl, ?_⟩
    simp only [hclear]
  | _ => exact ⟨store, w.users, [], _, hclients, .inl rfl, .inl rfl, rfl⟩

theorem verifyLogin_cases : VerifyCase cfg w req env (verifyLogin cfg w req env) := by
  unfold verifyLogin
  simp only
  split
  · exact .refused
  split
  · exact .refused
  rename_i hfields
  split
  · exact .rejected
  · rename_i v htotp
    unfold onTotpVerified
    split
    · exact .stopped htotp
    split
    · exact .stopped htotp
    split
    · exact .stopped htotp
    · rename_i hbound
      rw [not_or, not_not, not_not] at hbound
      rw [generateAuthorizationCode_eq]
      obtain ⟨store, users, returned, response, hclients, husers, hreturned, heq⟩ :=
        exchangeIssued_eq cfg ((keyed cfg w req env).saveCode env (mfaCode cfg w req env v))
          req.session env (verifyFields req) v (env.generate 0).random
      rw [mfaCode] at heq
      simp only [heq, Outcome.after, List.append_assoc]
      exact .issued htotp (not_or.mp hfields).1 (Prod.ext hbound.1 hbound.2) hclients husers
        hreturned

/-! ### The requests that get as far as a code -/

def fieldsPresent (f : VerifyFields) : Bool :=
  f.mfaToken ≠ "" && f.code ≠ "" && f.clientId ≠ "" && f.redirectUri ≠ ""

/-- The client and redirect URI are valid and those of the pending login. -/
def boundToPending (w : World b) (env : RequestEnv) (f : VerifyFields) (v : TotpVerified) : Bool :=
  w.validateClient env f.clientId "" && w.validateRedirectUri env f.clientId f.redirectUri &&
    f.clientId = v.pendingClientId && f.redirectUri = v.pendingRedirectUri

/-- The user a code is issued for: the one-time code is accepted and the request belongs to the
pending login. -/
def issuing (cfg : Config) (w : World b) (req : HttpRequest) (env : RequestEnv) :
    Option TotpVerified :=
  match verifyTotp cfg (keyed cfg w req env) env (verifyFields req) with
  | .error _ => none
  | .ok v =>
    if fieldsPresent (verifyFields req) && boundToPending w env (verifyFields req) v then some v
    else none

theorem issuing_eq_some :
    issuing cfg w req env = some v ↔
      verifyTotp cfg (keyed cfg w req env) env (verifyFields req) = .ok v ∧
        fieldsPresent (verifyFields req) = true ∧
        boundToPending w env (verifyFields req) v = true := by
  unfold issuing
  split
  · rename_i htotp
    simp [htotp]
  · rename_i v' htotp
    rw [htotp]
    constructor
    · intro h
      split at h
      · rename_i hissues
        obtain rfl := Option.some.inj h
        exact ⟨rfl, Bool.and_eq_true _ _ |>.mp hissues⟩
      · cases h
    · intro h
      obtain ⟨heq, hfields, hbound⟩ := h
      cases heq
      rw [hfields, hbound]
      rfl

/-- The world in which the second factor redeems its own code. -/
def codeSaved (cfg : Config) (w : World b) (req : HttpRequest) (env : RequestEnv)
    (v : TotpVerified) : World b :=
  (keyed cfg w req env).saveCode env (mfaCode cfg w req env v)

theorem onTotpVerified_of_bound (hbound : boundToPending w env (verifyFields req) v = true) :
    onTotpVerified cfg (keyed cfg w req env) req.session env (verifyFields req) v =
      (exchangeIssued cfg (codeSaved cfg w req env v) req.session env (verifyFields req) v
        (env.generate 0).random).after [.codeIssued req.session (mfaCode cfg w req env v)] := by
  have hclient : (keyed cfg w req env).validateClient env (verifyFields req).clientId "" =
    w.validateClient env (verifyFields req).clientId "" := rfl
  have huri : (keyed cfg w req env).validateRedirectUri env (verifyFields req).clientId
      (verifyFields req).redirectUri =
    w.validateRedirectUri env (verifyFields req).clientId (verifyFields req).redirectUri := rfl
  simp only [boundToPending, Bool.and_eq_true, decide_eq_true_eq] at hbound
  obtain ⟨⟨⟨hvalid, hregistered⟩, hsame⟩, hsameUri⟩ := hbound
  unfold onTotpVerified
  rw [hclient, huri, hvalid, hregistered, if_neg (by simp), if_neg (by simp),
    if_neg (by simp [hsame, hsameUri]), generateAuthorizationCode_eq]
  rfl

theorem verifyLogin_of_issuing (h : issuing cfg w req env = some v) :
    verifyLogin cfg w req env =
      ((exchangeIssued cfg (codeSaved cfg w req env v) req.session env (verifyFields req) v
        (env.generate 0).random).after
          [.codeIssued req.session (mfaCode cfg w req env v)]).after
            [.totpAccepted req.session v.userId] := by
  obtain ⟨htotp, hfields, hbound⟩ := issuing_eq_some.mp h
  simp only [fieldsPresent, Bool.and_eq_true, decide_eq_true_eq] at hfields
  unfold verifyLogin
  simp only
  rw [if_neg (by simp [hfields.1.1.1, hfields.1.1.2]), if_neg (by simp [hfields.1.2, hfields.2]),
    htotp]
  simp only [onTotpVerified_of_bound hbound]

theorem onTotpVerified_of_unbound (hbound : boundToPending w env (verifyFields req) v = false) :
    ∃ response, onTotpVerified cfg (keyed cfg w req env) req.session env (verifyFields req) v =
      (keyed cfg w req env).answer response := by
  have hclient : (keyed cfg w req env).validateClient env (verifyFields req).clientId "" =
    w.validateClient env (verifyFields req).clientId "" := rfl
  have huri : (keyed cfg w req env).validateRedirectUri env (verifyFields req).clientId
      (verifyFields req).redirectUri =
    w.validateRedirectUri env (verifyFields req).clientId (verifyFields req).redirectUri := rfl
  unfold onTotpVerified
  rw [hclient, huri]
  split
  · exact ⟨_, rfl⟩
  split
  · exact ⟨_, rfl⟩
  rename_i hvalid hregistered
  split
  · exact ⟨_, rfl⟩
  · rename_i hsame
    rw [not_or, not_not, not_not] at hsame
    simp only [Bool.not_eq_false] at hvalid hregistered
    rw [boundToPending, hvalid, hregistered, hsame.1, hsame.2] at hbound
    simp at hbound

/-- A request that does not get as far as a code leaves the store alone and issues nothing. -/
theorem verifyLogin_of_not_issuing (h : issuing cfg w req env = none) :
    (verifyLogin cfg w req env).world.store = w.store ∧
      ∀ sid code, .codeIssued sid code ∉ (verifyLogin cfg w req env).log := by
  unfold verifyLogin
  simp only
  split
  · exact ⟨rfl, fun _ _ hmem => by cases hmem⟩
  split
  · exact ⟨rfl, fun _ _ hmem => by cases hmem⟩
  rename_i hfirst hsecond
  rw [not_or] at hfirst hsecond
  have hfields : fieldsPresent (verifyFields req) = true := by
    simp [fieldsPresent, hfirst.1, hfirst.2, hsecond.1, hsecond.2]
  split
  · exact ⟨rfl, fun _ _ hmem => by cases hmem⟩
  · rename_i v htotp
    have hbound : boundToPending w env (verifyFields req) v = false := by
      simpa [issuing, htotp, hfields] using h
    obtain ⟨response, hstopped⟩ := onTotpVerified_of_unbound hbound
    rw [hstopped]
    refine ⟨rfl, ?_⟩
    intro sid code hmem
    cases List.mem_singleton.mp hmem

end AuthForge.Http.MfaController
