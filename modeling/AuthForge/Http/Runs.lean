import AuthForge.Http.Server
import AuthForge.Storage.Memory

/-!
# Runs of the server

Where the issued codes and tokens of a request come from, and what every run from an initial world
guarantees: the user of a session has passed the password step there, and a pending binding was
written by a login. A guard restricts the requests of a run by what happened before them.
-/

namespace AuthForge.Http

open OAuth2 Identity

variable {b : Backend}

/-! ### Where codes and tokens come from -/

/-- Where an issued code comes from, with what its request did before. -/
inductive CodeSource (cfg : Config) (w : World b) (i : Input) :
    OAuth2AuthCode → List Action → Prop
  | login {result : AuthResult} {users : UserTable} (hendpoint : i.endpoint = .login)
      (haccepts : SessionController.Accepts cfg w i.req i.env result users)
      (hdecision : evaluateLoginPolicy result cfg.requireEmailVerification = .Proceed) :
      CodeSource cfg w i (SessionController.loginCode cfg w i.req i.env result)
        [SessionController.passwordAction cfg i.req (SessionController.loginFields i.req) result]
  | silent {userId : String} (hendpoint : i.endpoint = .authorize)
      (huser : (w.sessions i.req.session).userId = some userId)
      (hscopes :
        (AuthorizationEndpoint.scopeSummary cfg w i.req i.env userId).hasErrors = false) :
      CodeSource cfg w i (AuthorizationEndpoint.silentCode cfg w i.req i.env userId) []
  | consent {id : Int} (hendpoint : i.endpoint = .consent)
      (haction : (SessionController.consentFields i.req).action ≠ "deny")
      (huser : w.getInternalUserId i.env (SessionController.consentFields i.req).userId = some id) :
      CodeSource cfg w i (SessionController.consentCode cfg w i.req i.env) []
  | secondFactor {v : MfaController.TotpVerified} (hendpoint : i.endpoint = .verifyLogin)
      (htotp : MfaController.verifyTotp cfg (MfaController.keyed cfg w i.req i.env) i.env
        (MfaController.verifyFields i.req) = .ok v)
      (hclient : (MfaController.verifyFields i.req).clientId ≠ "")
      (hbound : ((MfaController.verifyFields i.req).clientId,
        (MfaController.verifyFields i.req).redirectUri) =
          (v.pendingClientId, v.pendingRedirectUri)) :
      CodeSource cfg w i (MfaController.mfaCode cfg w i.req i.env v)
        [.totpAccepted i.req.session v.userId]

/-- Where an action comes from: the issued code, the returned tokens and the device pair are
traced, the others speak for themselves. -/
inductive Sourced (cfg : Config) (w : World b) (i : Input) : List Action → Action → Prop
  | code {c : OAuth2AuthCode} {earlier : List Action} (hsource : CodeSource cfg w i c earlier) :
      Sourced cfg w i earlier (.codeIssued i.req.session c)
  | tokens {v : MfaController.TotpVerified} {earlier : List Action}
      (hendpoint : i.endpoint = .verifyLogin)
      (htotp : MfaController.verifyTotp cfg (MfaController.keyed cfg w i.req i.env) i.env
        (MfaController.verifyFields i.req) = .ok v)
      (hclient : v.pendingClientId ≠ "") :
      Sourced cfg w i earlier
        (.tokensReturned i.req.session v.userId v.pendingClientId v.pendingRedirectUri)
  | pair {deviceCodeHash : String} {row : DeviceCode} {earlier : List Action}
      (hrow : w.deviceCodes.lookup deviceCodeHash = some row) (happroved : row.status = .approved) :
      Sourced cfg w i earlier (.pairIssued (DeviceGrant.deviceAccessToken cfg i.env row))
  | password {k : Nat} {id : Int} {c r : String} {d : LoginDecision} {earlier : List Action} :
      Sourced cfg w i earlier (.passwordValidated k id c r d)
  | binding {k : Nat} {id : Int} {c r : String} {earlier : List Action} :
      Sourced cfg w i earlier (.bindingSaved k id c r)
  | totp {k : Nat} {id : Int} {earlier : List Action} :
      Sourced cfg w i earlier (.totpAccepted k id)

variable {cfg : Config} {w : World b} {i : Input} {o : Outcome b}

section Handlers

open SessionController MfaController

theorem LoginCase.sourced (hendpoint : i.endpoint = .login)
    (h : LoginCase cfg w i.req i.env o) : Always (Sourced cfg w i) o.log := by
  cases h with
  | refused => trivial
  | stopped => exact ⟨.password, trivial⟩
  | bound => exact ⟨.binding, .password, trivial⟩
  | issued haccepts hdecision => exact ⟨.code (.login hendpoint haccepts hdecision), .password, trivial⟩

theorem ConsentCase.sourced (hendpoint : i.endpoint = .consent)
    (h : ConsentCase cfg w i.req i.env o) : Always (Sourced cfg w i) o.log := by
  cases h with
  | denied => trivial
  | failed => trivial
  | issued haction huser => exact ⟨.code (.consent hendpoint haction huser), trivial⟩

theorem AuthorizeCase.sourced (hendpoint : i.endpoint = .authorize)
    (h : AuthorizationEndpoint.AuthorizeCase cfg w i.req i.env o) :
    Always (Sourced cfg w i) o.log := by
  cases h with
  | answered => trivial
  | issued huser _ hscopes => exact ⟨.code (.silent hendpoint huser hscopes), trivial⟩

theorem VerifyCase.sourced (hendpoint : i.endpoint = .verifyLogin)
    (h : VerifyCase cfg w i.req i.env o) : Always (Sourced cfg w i) o.log := by
  cases h with
  | refused => trivial
  | rejected => trivial
  | stopped => exact ⟨.totp, trivial⟩
  | @issued v _ _ _ returned htotp hclient hbound _ _ hreturned =>
    have hcode : Always (Sourced cfg w i) [.codeIssued i.req.session (mfaCode cfg w i.req i.env v),
        .totpAccepted i.req.session v.userId] :=
      ⟨.code (.secondFactor hendpoint htotp hclient hbound), .totp, trivial⟩
    rcases hreturned with rfl | rfl
    · exact hcode
    · obtain ⟨hclientId, hredirectUri⟩ := Prod.mk.inj hbound
      rw [hclientId] at hclient
      rw [hclientId, hredirectUri]
      exact ⟨.tokens hendpoint htotp hclient, hcode⟩

end Handlers

theorem PollCase.sourced (h : DeviceGrant.PollCase cfg w i.env o) :
    Always (Sourced cfg w i) o.log := by
  cases h with
  | answered => trivial
  | polled => trivial
  | redeemed hrow happroved hlog =>
    rcases hlog with rfl | rfl
    · trivial
    · exact ⟨.pair hrow happroved, trivial⟩

theorem log_nil_of_deviceAuthorization {req : HttpRequest} {env : RequestEnv}
    (h : DeviceGrant.DeviceAuthorizationCase w req env o) : o.log = [] := by
  cases h <;> rfl

theorem log_nil_of_approve {req : HttpRequest} (h : DeviceGrant.ApproveCase w req o) :
    o.log = [] := by
  cases h <;> rfl

theorem handle_sourced (cfg : Config) (w : World b) (i : Input) :
    Always (Sourced cfg w i) (handle cfg w i).log := by
  unfold handle
  cases hendpoint : i.endpoint with
  | login => exact LoginCase.sourced hendpoint SessionController.login_cases
  | authorize => exact AuthorizeCase.sourced hendpoint AuthorizationEndpoint.authorize_cases
  | consent => exact ConsentCase.sourced hendpoint SessionController.consent_cases
  | verifyLogin => exact VerifyCase.sourced hendpoint MfaController.verifyLogin_cases
  | deviceAuthorization =>
    rw [log_nil_of_deviceAuthorization DeviceGrant.deviceAuthorization_cases]
    trivial
  | approveDevice =>
    rw [log_nil_of_approve DeviceGrant.approveDevice_cases]
    trivial
  | deviceToken => exact PollCase.sourced DeviceGrant.deviceToken_cases

/-! ### Runs -/

/-- A world in which no request has been handled yet. -/
structure Initial (w : World b) : Prop where
  sessions : ∀ k, w.sessions k = {}
  pending : ∀ e ∈ w.users.rows.entries,
    e.2.mfaPendingClientId = none ∧ e.2.mfaPendingRedirectUri = none
  deviceCodes : w.deviceCodes = ∅

abbrev RequestGuard (b : Backend) := List Action → World b → Input → Prop

def anyRequest : RequestGuard b := fun _ _ _ => True

/-- The runs of the server whose requests all meet a guard: their logs and the world reached. -/
abbrev ServerRun (cfg : Config) (ok : RequestGuard b) (w₀ : World b) :
    List (List Action) → World b → Prop :=
  (server b cfg).Run (fun history w i => ok history.flatten w i) w₀

/-- What every run from an initial world has established. -/
structure Established (cfg : Config) (w₀ : World b) (past : List Action) (w : World b) : Prop where
  frame : Frame w₀ w
  userId : ∀ k s, (w.sessions k).userId = some s →
    ∃ id c r d, .passwordValidated k id c r d ∈ past ∧ s = toString id
  validated : ∀ k id c r d, .passwordValidated k id c r d ∈ past →
    ∃ p, w₀.directory.users.table.lookup id = some p ∧
      d = evaluateLoginPolicy (authResultOf id p) cfg.requireEmailVerification
  bound : ∀ k id c r, .bindingSaved k id c r ∈ past →
    .passwordValidated k id c r .RequireMfa ∈ past
  pending : ∀ id c r, w.users.getPendingBinding id = some (c, r) →
    (c, r) = ("", "") ∨ ∃ k, .bindingSaved k id c r ∈ past

variable {w₀ : World b} {past : List Action}

theorem Initial.established (h : Initial w₀) : Established cfg w₀ [] w₀ where
  frame := .refl w₀
  userId k s hs := by
    rw [h.sessions] at hs
    cases hs
  validated k id c r d hmem := by cases hmem
  bound k id c r hmem := by cases hmem
  pending id c r hbinding := by
    obtain ⟨u, hrow, heq⟩ := Option.map_eq_some_iff.mp hbinding
    obtain ⟨hclient, huri⟩ := h.pending _ (AList.mem_lookup_iff.mp hrow)
    have hempty : (u.mfaPendingClientId.getD "", u.mfaPendingRedirectUri.getD "") = ("", "") := by
      rw [hclient, huri]
      rfl
    exact .inl (heq.symm.trans hempty)

theorem Established.step (h : Established cfg w₀ past w) (i : Input) :
    Established cfg w₀ ((handle cfg w i).log ++ past) (handle cfg w i).world := by
  obtain ⟨hframe, huserId, hvalidated, hbound, hpending⟩ := handle_effect cfg w i
  refine ⟨h.frame.trans hframe, ?_, ?_, ?_, ?_⟩
  · intro k s hs
    rcases huserId k s hs with hold | ⟨id, c, r, d, hmem, rfl⟩
    · obtain ⟨id, c, r, d, hmem, rfl⟩ := h.userId k s hold
      exact ⟨id, c, r, d, List.mem_append_right _ hmem, rfl⟩
    · exact ⟨id, c, r, d, List.mem_append_left _ hmem, rfl⟩
  · intro k id c r d hmem
    rcases List.mem_append.mp hmem with hnew | hold
    · rw [← h.frame.directory]
      exact hvalidated k id c r d hnew
    · exact h.validated k id c r d hold
  · intro k id c r hmem
    rcases List.mem_append.mp hmem with hnew | hold
    · exact List.mem_append_left _ (hbound k id c r hnew)
    · exact List.mem_append_right _ (h.bound k id c r hold)
  · intro id c r hbinding
    rcases hpending id c r hbinding with hold | hempty | ⟨k, hnew⟩
    · rcases h.pending id c r hold with hempty | ⟨k, hmem⟩
      · exact .inl hempty
      · exact .inr ⟨k, List.mem_append_right _ hmem⟩
    · exact .inl hempty
    · exact .inr ⟨k, List.mem_append_left _ hnew⟩

def World.sessionUser (w : World b) (sid : Nat) : Option Int :=
  (w.sessions sid).userId.bind w.directory.subjectUser

theorem Established.directory (h : Established cfg w₀ past w) : w.directory = w₀.directory :=
  h.frame.directory

theorem Established.sessionUser (h : Established cfg w₀ past w) {k : Nat} {id : Int}
    (huser : w.sessionUser k = some id) :
    (∃ c r d, .passwordValidated k id c r d ∈ past) ∧
      ∃ p, w₀.directory.users.table.lookup id = some p := by
  obtain ⟨s, hs, hsubject⟩ := Option.bind_eq_some_iff.mp huser
  obtain ⟨id', c, r, d, hmem, rfl⟩ := h.userId k s hs
  obtain ⟨p, hrow, -⟩ := h.validated k id' c r d hmem
  rw [h.directory, Directory.subjectUser_toString hrow] at hsubject
  obtain rfl := Option.some.inj hsubject
  exact ⟨⟨c, r, d, hmem⟩, p, hrow⟩

theorem Established.sessionUser_of_userId (h : Established cfg w₀ past w) {k : Nat} {s : String}
    (hs : (w.sessions k).userId = some s) :
    ∃ id, w.sessionUser k = some id ∧ w₀.directory.subjectUser s = some id := by
  obtain ⟨id, c, r, d, hmem, rfl⟩ := h.userId k s hs
  obtain ⟨p, hrow, -⟩ := h.validated k id c r d hmem
  have hsubject := Directory.subjectUser_toString hrow
  refine ⟨id, ?_, hsubject⟩
  rw [World.sessionUser, hs, h.directory]
  exact hsubject

theorem Established.subjectUser_totp (h : Established cfg w₀ past w)
    {v : MfaController.TotpVerified} {f : MfaController.VerifyFields}
    (htotp : MfaController.AcceptedTotp w f v) :
    w₀.directory.subjectUser v.publicSub = some v.userId := by
  obtain ⟨u, hrow, hsub⟩ := htotp.user
  have hprofile : w₀.directory.users.table.lookup v.userId = some u.toProfile := by
    rw [← h.directory]
    exact (UserTable.lookup_profiles v.userId).trans (congrArg (Option.map _) hrow)
  rw [hsub]
  exact Directory.subjectUser_publicSub hprofile

/-- The run rule: an extra invariant that guarded requests keep, and a property of every action
that the invariants, the guard and the action's source give, hold in every run. -/
theorem ServerRun.always {ok : RequestGuard b} (Inv : List Action → World b → Prop)
    {P : List Action → Action → Prop} {history : List (List Action)} (hinitial : Initial w₀)
    (hinit : Inv [] w₀)
    (hinv : ∀ past w i, Established cfg w₀ past w → Inv past w → ok past w i →
      Inv ((handle cfg w i).log ++ past) (handle cfg w i).world)
    (haction : ∀ past w i earlier a, Established cfg w₀ past w → Inv past w → ok past w i →
      Sourced cfg w i earlier a → P (earlier ++ past) a)
    (hrun : ServerRun cfg ok w₀ history w) : Always P history.flatten := by
  have hall : (Established cfg w₀ history.flatten w ∧ Inv history.flatten w) ∧
      Always P history.flatten := by
    refine Machine.Run.invariant
      (fun h w => (Established cfg w₀ h.flatten w ∧ Inv h.flatten w) ∧ Always P h.flatten)
      ⟨⟨hinitial.established, hinit⟩, trivial⟩ ?_ hrun
    intro h w i _ h' hok
    obtain ⟨⟨hest, hi⟩, halways⟩ := h'
    refine ⟨⟨hest.step i, hinv _ w i hest hi hok⟩, ?_⟩
    refine Always.append ?_ halways
    exact (handle_sourced cfg w i).imp fun earlier a => haction _ w i earlier a hest hi hok
  exact hall.2

/-! ### A known deployment

Concrete runs need a deployment. Its ports agree with PBKDF2, HMAC-SHA-1 and URL encoding on the
values that the runs below use. -/

def knownIdentityCrypto : IdentityCrypto where
  sha256Hex _ := ""
  pbkdf2HmacSha256 password salt _ _ :=
    if password = "correct-horse" ∧ salt = List.replicate 16 1 then
      [131, 253, 136, 240, 67, 193, 209, 36, 213, 249, 78, 233, 160, 98, 160, 167, 83, 205, 79,
       248, 153, 251, 85, 131, 153, 205, 37, 126, 187, 39, 10, 196]
    else if password = "battery-staple" ∧ salt = List.replicate 16 2 then
      [82, 38, 132, 194, 43, 200, 240, 1, 114, 115, 61, 34, 251, 59, 54, 191, 66, 33, 48, 80, 249,
       188, 181, 242, 38, 8, 76, 100, 90, 94, 149, 180]
    else []
  hmacSha1 key message :=
    if key ≠ bytes "12345678901234567890" then []
    else if message.getLast? = some 0 then
      [204, 147, 207, 24, 80, 141, 148, 147, 76, 100, 182, 93, 139, 167, 102, 127, 183, 205, 228,
       176]
    else if message.getLast? = some 1 then
      [117, 164, 138, 25, 212, 203, 225, 0, 100, 78, 138, 193, 57, 126, 234, 116, 122, 45, 51, 171]
    else [11, 172, 183, 250, 8, 47, 239, 48, 120, 34, 17, 147, 139, 193, 197, 231, 4, 22, 255, 68]

def knownConfig : Config where
  tokenService := knownService
  crypto := knownIdentityCrypto
  urlEncode s := s

/-- Alice with a password only, Bob with a second factor, Carol with an unverified address. -/
def knownUsers : UserTable where
  rows :=
    AList.insert 1
      { publicSub := "11111111-1111-4111-8111-111111111111", username := some "alice"
        emailVerified := true
        passwordHash := "$pbkdf2-sha256$310000$01010101010101010101010101010101$" ++
          "83fd88f043c1d124d5f94ee9a062a0a753cd4ff899fb558399cd257ebb270ac4" }
    (AList.insert 2
      { publicSub := "22222222-2222-4222-8222-222222222222", username := some "bob"
        emailVerified := true, mfaEnabled := true
        mfaSecret := "GEZDGNBVGY3TQOJQGEZDGNBVGY3TQOJQ"
        passwordHash := "$pbkdf2-sha256$310000$02020202020202020202020202020202$" ++
          "522684c22bc8f00172733d22fb3b36bf42213050f9bcb5f226084c645a5e95b4" }
    (AList.insert 3
      { publicSub := "33333333-3333-4333-8333-333333333333", username := some "carol"
        passwordHash := "$pbkdf2-sha256$310000$01010101010101010101010101010101$" ++
          "83fd88f043c1d124d5f94ee9a062a0a753cd4ff899fb558399cd257ebb270ac4" } ∅))
  publicSubs_uuid := by decide +kernel
  publicSubs_nodup := by decide +kernel

def knownClient : OAuth2Client where
  clientId := "spa"
  clientType := .PUBLIC
  clientSecretHash := ""
  salt := ""
  redirectUris := ["https://spa.example.com/callback"]
  allowedScopes := ["openid"]

def knownBackend : Backend where
  sha256Hex _ := ""
  grants := Storage.Memory.grantRepository
  tokens := Storage.Memory.tokenRepository

def knownWorld : World knownBackend where
  store := ⟨(AList.insert "spa" knownClient ∅ : Storage.Postgres.Clients),
    (∅ : Storage.Memory.AuthCodes), Storage.Memory.Tokens.empty⟩
  users := knownUsers
  mappings := AList.insert ("local", "alice") 1 (AList.insert ("local", "bob") 2
    (AList.insert ("local", "carol") 3 ∅))
  scopeNames := ["openid", "admin"]

theorem initial_knownWorld : Initial knownWorld :=
  ⟨fun _ => rfl, by decide +kernel, rfl⟩

def paramsOf (params : List (String × String)) : Params :=
  params.foldl (fun d p => d.insert p.1 p.2) ∅

def knownEnv (now : Int) (token : Nat) : RequestEnv where
  now := now
  auth := { now := now }
  generate _ := { now := now, random := knownToken token }
  exchange n :=
    { now := now, random := if n = 6 then knownFamily else knownToken (token + n - 3) }

def knownLogin (session : Nat) (username password : String) (env : RequestEnv) : Input where
  endpoint := .login
  req :=
    { session
      params := paramsOf
        [("username", username), ("password", password), ("client_id", "spa"),
         ("redirect_uri", "https://spa.example.com/callback"), ("scope", "openid"),
         ("state", "state123"), ("code_challenge", knownChallenge),
         ("code_challenge_method", "S256")] }
  env := env

def knownVerify (session : Nat) (env : RequestEnv) : Input where
  endpoint := .verifyLogin
  req :=
    { session
      params := paramsOf
        [("mfa_token", "2"), ("code", "287082"), ("client_id", "spa"),
         ("redirect_uri", "https://spa.example.com/callback"), ("scope", "openid"),
         ("code_verifier", knownVerifier)] }
  env := env

def knownConsent (session : Nat) (userId : String) (env : RequestEnv) : Input where
  endpoint := .consent
  req :=
    { session
      params := paramsOf
        [("client_id", "spa"), ("user_id", userId), ("action", "approve"),
         ("redirect_uri", "https://spa.example.com/callback"), ("state", "state123")] }
  env := env

def knownAuthorize (session : Nat) (env : RequestEnv) : Input where
  endpoint := .authorize
  req :=
    { session
      params := paramsOf
        [("response_type", "code"), ("client_id", "spa"),
         ("redirect_uri", "https://spa.example.com/callback"), ("state", "state123"),
         ("code_challenge", knownChallenge), ("code_challenge_method", "S256")] }
  env := env

def issuedTo (trace : List Action) : List (Nat × String) :=
  trace.filterMap fun
    | .codeIssued sid code => some (sid, code.userId)
    | _ => none

def executed (cfg : Config) (inputs : List Input) : List (List Action) × World knownBackend :=
  (server knownBackend cfg).exec [] knownWorld inputs

theorem serverRun_executed (cfg : Config) (inputs : List Input) :
    ServerRun cfg anyRequest knownWorld (executed cfg inputs).1 (executed cfg inputs).2 :=
  Machine.run_exec _ _ _

abbrev Meets (cfg : Config) (ok : RequestGuard knownBackend) (inputs : List Input) : Prop :=
  (server knownBackend cfg).Guarded (fun history w i => ok history.flatten w i) [] knownWorld inputs

theorem serverRun_of_meets {cfg : Config} {ok : RequestGuard knownBackend} {inputs : List Input}
    (h : Meets cfg ok inputs) :
    ServerRun cfg ok knownWorld (executed cfg inputs).1 (executed cfg inputs).2 :=
  Machine.Run.exec_of_guarded .init inputs h

end AuthForge.Http
