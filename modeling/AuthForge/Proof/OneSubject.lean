import AuthForge.Http.GitHubFlow
import AuthForge.Proof.DisabledUsers
import AuthForge.Proof.PkceGate
import AuthForge.Storage.Subjects

/-!
# Under which subjects a user is issued codes and tokens

A login and the second factor put the user's public subject into the codes they issue, a GitHub login
puts the internal id in decimal into its tokens, and so does the silent path, which takes the user id
of the session. The consent and the device approval take the subject from their request. An exchange
and a refresh pass on what is on record. A set of subjects that has every public subject therefore
covers what a flow issues exactly where these requests stay inside it.
-/

namespace AuthForge.OneSubject

open Http OAuth2 Identity Storage SessionController AuthorizationEndpoint MfaController DeviceGrant

variable {b : Backend}

/-! ### Subjects of a user -/

/-- The subjects of everything that a step issues: codes, both tokens of a pair, and id_tokens. -/
def subjects (e : FlowEvent) : List String :=
  DisabledUsers.issuedSubjects e ++ e.idTokens.map fun t => t.2.sub

/-- Every subject that stands for a user meets a condition on the user's id and profile. -/
def holdsOf (d : Directory) (good : Int → Profile → Bool) (sub : String) : Bool :=
  match d.subjectUser sub with
  | none => true
  | some id => (d.users.table.lookup id).all (good id)

/-- The subject is public, or it stands for no user. -/
def isPublic (d : Directory) (sub : String) : Bool := holdsOf d (fun _ p => p.publicSub = sub) sub

/-- The subject is public or the internal id in decimal, or it stands for no user. -/
def isKey (d : Directory) (sub : String) : Bool :=
  holdsOf d (fun id p => p.publicSub = sub || toString id = sub) sub

/-- The subject is public, or it is the internal id of one of the accounts in decimal. -/
def isPublicBut (d : Directory) (accounts : List Int) (sub : String) : Bool :=
  isPublic d sub || accounts.any fun id => toString id = sub

def Accepted (good : String → Bool) (e : FlowEvent) : Prop := ∀ sub ∈ subjects e, good sub = true

variable {d : Directory} {sub : String} {id : Int} {p : Profile}

theorem holdsOf_iff {good : Int → Profile → Bool} : holdsOf d good sub = true ↔
    ∀ id p, d.subjectUser sub = some id → d.users.table.lookup id = some p → good id p = true := by
  unfold holdsOf
  split
  · rename_i hnone
    simp [hnone]
  · rename_i id hsubject
    rw [Option.all_eq_true]
    constructor
    · intro h id' p hsubject' hlookup
      obtain rfl := Option.some.inj (hsubject.symm.trans hsubject')
      exact h p hlookup
    · intro h p hlookup
      exact h id p hsubject hlookup

theorem isPublic_publicSub (h : d.users.table.lookup id = some p) :
    isPublic d p.publicSub = true := by
  simp [isPublic, holdsOf, Directory.subjectUser_publicSub h, h]

theorem isKey_toString (h : d.users.table.lookup id = some p) : isKey d (toString id) = true := by
  rw [isKey, holdsOf, Directory.subjectUser_toString h]
  simp [h]

theorem isKey_of_isPublic (h : isPublic d sub = true) : isKey d sub = true := by
  refine holdsOf_iff.mpr ?_
  intro id p hsubject hlookup
  rw [holdsOf_iff.mp h id p hsubject hlookup]
  rfl

/-! ### The steps that issue under a given subject -/

/-- The scope engine is satisfied, and so is the check of the code challenge. -/
def scopesPass (cfg : Config) (w : World b) (env : RequestEnv) (f : AuthorizeFields)
    (userId : String) : Bool :=
  let summary := AuthorizationService.evaluateScopes cfg.adminScopes
    (scopePorts w env f.clientId userId) (requestedScopes f.scope)
  !summary.hasErrors && !(summary.needsConsent || f.promptHas "consent") &&
    !cfg.pkceMissing f.codeChallenge

/-- The request passes the checks of client and redirect URI, and the session is good enough. -/
def sessionAccepted (cfg : Config) (w : World b) (req : HttpRequest) (env : RequestEnv) : Bool :=
  let f := authorizeFields req
  let s := w.sessions req.session
  RuleSet.oauth2Authorize cfg.allowHttpRedirectUri req = [] && f.problem.isNone &&
    w.validateClient env f.clientId "" && w.validateRedirectUri env f.clientId f.redirectUri &&
    f.codeChallengeMethod ∈ ["", "plain", "S256"] && s.userId.getD "" ≠ "" &&
    !reauthenticationNeeded s env f

/-- The authorization request gets its code without any interaction. -/
def silentlyIssues (cfg : Config) (w : World b) (req : HttpRequest) (env : RequestEnv) : Bool :=
  sessionAccepted cfg w req env &&
    scopesPass cfg w env (authorizeFields req) ((w.sessions req.session).userId.getD "")

/-- The poll passes the checks of the token endpoint. -/
def pollAccepted (w : World b) (req : HttpRequest) (env : RequestEnv) : Bool :=
  let clientId := (tokenCredentials req).1
  let clientSecret := (tokenCredentials req).2
  methodErr w req env clientId clientSecret = "" && req.getParameter "device_code" ≠ "" &&
    clientId ≠ "" && (w.getClient env .getClient clientId).any fun client =>
      !(client.clientType = .CONFIDENTIAL && !w.validateClient env clientId clientSecret)

/-- The approved device code that a poll redeems for a pair of tokens. -/
def redeemedRow (cfg : Config) (w : World b) (req : HttpRequest) (env : RequestEnv) :
    Option DeviceCode :=
  if pollAccepted w req env && !env.fails .findDeviceCode && !env.fails .updateDeviceCode then
    (DisabledUsers.approvedRow cfg w req).filter fun row =>
      row.clientId = (tokenCredentials req).1 && env.now < row.expiresAt &&
        (b.tokens.saveTokenPair (env.client .saveTokenPair) (deviceAccessToken cfg env row)
          (deviceRefreshToken cfg env row) w.store.tokens).1
  else none

/-- What the step issues for a subject that neither a password nor a one-time code has vouched for is
issued for a good one: the subject of a session, of a request, or of a GitHub account. -/
def staysIn (good : String → Bool) (cfg : Config) (w : World b) : SignInInput → Bool
  | .flow (.http i) =>
    match i.endpoint with
    | .authorize =>
      !silentlyIssues cfg w i.req i.env || good ((w.sessions i.req.session).userId.getD "")
    | .consent => !PkceGate.consentIssues w i.req i.env || good (consentFields i.req).userId
    | .deviceToken => (redeemedRow cfg w i.req i.env).all fun row => good row.userId
    | _ => true
  | .gitHub (.ok userId) env =>
    !(saveGitHubPair cfg.tokenService userId env w).1 || good (toString userId)
  | _ => true

/-! ### What these steps log -/

variable {cfg : Config} {w : World b} {req : HttpRequest} {env : RequestEnv}

theorem decideScopes_log {sid : Nat} {f : AuthorizeFields} {userId : String} :
    (decideScopes cfg w sid env f userId).log =
      if scopesPass cfg w env f userId then
        [.codeIssued sid (env.codeOf cfg (silentCodeRequest (w.sessions sid) f userId))]
      else [] := by
  unfold decideScopes scopesPass
  simp only
  split
  · rename_i herrors
    simp [herrors, World.answer]
  rename_i herrors
  split
  · rename_i hconsent
    simp [hconsent, World.answer]
  rename_i hconsent
  unfold issueSilently
  split
  · rename_i hpkce
    simp [hpkce, World.answer]
  · rename_i hpkce
    simp [herrors, hconsent, hpkce, generateAuthorizationCode_eq]

theorem authorize_log : (authorize cfg w req env).log =
    if silentlyIssues cfg w req env then
      [.codeIssued req.session (silentCode cfg w req env ((w.sessions req.session).userId.getD ""))]
    else [] := by
  unfold authorize silentlyIssues sessionAccepted
  simp only
  split
  · rename_i herrors
    simp [herrors, World.answer]
  rename_i herrors
  have hvalid : RuleSet.oauth2Authorize cfg.allowHttpRedirectUri req = [] := not_not.mp herrors
  split
  · rename_i hproblem
    simp [hproblem, World.answer]
  rename_i hproblem
  split
  · rename_i hclient
    simp [hclient, World.answer]
  rename_i hclient
  split
  · rename_i huri
    simp [huri, World.answer]
  rename_i huri
  unfold withClient
  simp only
  split
  · rename_i hmethod
    simp [hmethod, World.answer]
  rename_i hmethod
  have hsupported : (authorizeFields req).codeChallengeMethod ∈ ["", "plain", "S256"] :=
    not_not.mp hmethod
  split
  · rename_i huser
    simp [huser, World.answer]
  rename_i huser
  split
  · rename_i hreauth
    simp [hreauth, World.answer]
  rename_i hreauth
  rw [decideScopes_log]
  simp only [hvalid, hproblem, hclient, huri, hsupported, hreauth]
  simp [huser, silentCode]

theorem consent_log : (consent cfg w req env).log =
    if PkceGate.consentIssues w req env then [.codeIssued req.session (consentCode cfg w req env)]
    else [] := by
  generalize ho : consent cfg w req env = o
  have hcase : ConsentCase cfg w req env o := ho ▸ consent_cases
  cases hcase with
  | denied haction => simp [PkceGate.consentIssues, haction, World.answer]
  | failed _ haction hfailed =>
    cases huser : w.getInternalUserId env (consentFields req).userId with
    | none => simp [PkceGate.consentIssues, huser, World.answer]
    | some id => simp [PkceGate.consentIssues, huser, hfailed id huser, World.answer]
  | issued haction huser hsaved => simp [PkceGate.consentIssues, haction, huser, hsaved]

/-- The actions of a poll that redeems the given device code, if it does. -/
def redeemedLog (cfg : Config) (env : RequestEnv) (row : Option DeviceCode) : List Action :=
  row.toList.map fun row => .pairIssued (deviceAccessToken cfg env row)

theorem redeem_log {deviceCodeHash : String} {row : DeviceCode} :
    (redeem cfg w env deviceCodeHash row).log = redeemedLog cfg env
      (if !env.fails .updateDeviceCode && (b.tokens.saveTokenPair (env.client .saveTokenPair)
          (deviceAccessToken cfg env row) (deviceRefreshToken cfg env row) w.store.tokens).1 then
        some row
      else none) := by
  unfold redeem
  split
  · rename_i hfails
    simp [hfails, redeemedLog, World.answer]
  rename_i hfails
  simp only
  split
  · rename_i tokens hsaved
    have hok : (b.tokens.saveTokenPair (env.client .saveTokenPair) (deviceAccessToken cfg env row)
        (deviceRefreshToken cfg env row) w.store.tokens).1 = false := congrArg Prod.fst hsaved
    simp [hok, redeemedLog, World.answer]
  · rename_i tokens hsaved
    have hok : (b.tokens.saveTokenPair (env.client .saveTokenPair) (deviceAccessToken cfg env row)
        (deviceRefreshToken cfg env row) w.store.tokens).1 = true := congrArg Prod.fst hsaved
    simp [hok, hfails, redeemedLog]

theorem deviceToken_log :
    (deviceToken cfg w req env).log = redeemedLog cfg env (redeemedRow cfg w req env) := by
  unfold deviceToken redeemedRow
  simp only
  split
  · rename_i hmethod
    simp [pollAccepted, hmethod, redeemedLog, World.answer]
  rename_i hmethod
  unfold deviceCodeGrant
  simp only
  split
  · rename_i hmissing
    rcases hmissing with hmissing | hmissing
    · simp [pollAccepted, hmissing, redeemedLog, World.answer]
    · simp [pollAccepted, hmissing, redeemedLog, World.answer]
  rename_i hmissing
  split
  · rename_i hclient
    simp [pollAccepted, hclient, redeemedLog, World.answer]
  rename_i client hclient
  split
  · rename_i hauth
    simp [pollAccepted, hclient, hauth, redeemedLog, World.answer]
  rename_i hauth
  unfold deviceCodeLookup
  split
  · rename_i hfails
    simp [hfails, redeemedLog, World.answer]
  rename_i hfails
  split
  · rename_i hlookup
    simp [DisabledUsers.approvedRow, hlookup, redeemedLog, World.answer]
  rename_i row hlookup
  split
  · rename_i hforeign
    simp [DisabledUsers.approvedRow, hlookup, hforeign, redeemedLog, World.answer]
  rename_i hforeign
  split
  · rename_i hexpired
    simp [DisabledUsers.approvedRow, hlookup, hexpired, redeemedLog, World.answer]
  rename_i hexpired
  split
  · rename_i hstatus
    simp [DisabledUsers.approvedRow, hlookup, hstatus, redeemedLog, pollPending, World.answer]
  · rename_i hstatus
    simp [DisabledUsers.approvedRow, hlookup, hstatus, redeemedLog, World.answer]
  · rename_i hstatus
    simp [DisabledUsers.approvedRow, hlookup, hstatus, redeemedLog, World.answer]
  rename_i hstatus
  rw [redeem_log]
  have happroved : DisabledUsers.approvedRow cfg w req = some row := by
    simp [DisabledUsers.approvedRow, hlookup, hstatus]
  rw [happroved]
  simp only [not_or] at hmissing
  simp only [not_and, Bool.not_eq_false] at hauth
  have haccepted : pollAccepted w req env = true := by
    simp [pollAccepted, not_not.mp hmethod, hmissing, hclient, ← imp_iff_not_or]
    exact hauth
  have hmine : row.clientId = (tokenCredentials req).1 := not_not.mp hforeign
  have hlive : env.now < row.expiresAt := not_le.mp hexpired
  simp only [haccepted, hfails, hmine, hlive, Option.filter_some, decide_true, Bool.true_and,
    Bool.not_false]
  cases env.fails .updateDeviceCode with
  | true => rfl
  | false => rfl

/-! ### What is on record -/

/-- Every subject that the repositories have on record is a good one. -/
structure Records (codes : CodeSubjects b.grants) (tokens : TokenSubjects b.tokens)
    (good : String → Bool) (w : World b) : Prop where
  codes : ∀ sub, codes.onRecord w.store.grants sub → good sub = true
  tokens : ∀ sub, tokens.onRecord w.store.tokens sub → good sub = true

/-- Every public subject is a good one. -/
def HasPublic (good : String → Bool) (d : Directory) : Prop :=
  ∀ id p, d.users.table.lookup id = some p → good p.publicSub = true

variable {codes : CodeSubjects b.grants} {tokens : TokenSubjects b.tokens}

theorem mem_subjects_of_code {e : FlowEvent} {sid : Nat} {c : OAuth2AuthCode}
    (h : .codeIssued sid c ∈ e.log) : c.userId ∈ subjects e := by
  refine List.mem_append_left _ (List.mem_append_left _ ?_)
  exact List.mem_filterMap.mpr ⟨_, h, rfl⟩

theorem mem_subjects_of_device {e : FlowEvent} {access : OAuth2AccessToken}
    (h : .pairIssued access ∈ e.log) : access.userId ∈ subjects e := by
  refine List.mem_append_left _ (List.mem_append_left _ ?_)
  exact List.mem_filterMap.mpr ⟨_, h, rfl⟩

theorem mem_subjects_of_pair {e : FlowEvent} {pair : OAuth2AccessToken × OAuth2RefreshToken}
    (h : pair ∈ e.pairs) : pair.1.userId ∈ subjects e ∧ pair.2.userId ∈ subjects e := by
  have hpair : ∀ s ∈ [pair.1.userId, pair.2.userId], s ∈ subjects e := by
    intro s hs
    refine List.mem_append_left _ (List.mem_append_right _ ?_)
    exact List.mem_flatMap.mpr ⟨pair, h, hs⟩
  exact ⟨hpair _ List.mem_cons_self, hpair _ (List.mem_cons_of_mem _ List.mem_cons_self)⟩

theorem codes_signInStep {i : SignInInput}
    (h : codes.onRecord (signInStep cfg w i).1.store.grants sub) :
    codes.onRecord w.store.grants sub ∨ sub ∈ subjects (signInStep cfg w i).2 := by
  cases i with
  | flow i =>
    cases i with
    | http i =>
      rcases handle_grants (codes.savedOnly sub) h with hold | ⟨sid, c, _, _, hmem, hnew, hnot⟩
      · exact .inl hold
      · rw [(codes.save hnew).resolve_left hnot]
        exact .inr (mem_subjects_of_code hmem)
    | exchange r env =>
      have hsaved : SavedOnly b.repos.grants fun s => codes.onRecord s sub := codes.savedOnly sub
      exact .inl (hsaved.eval (onlyExchange_noSave r) h)
    | refresh r env =>
      have hsaved : SavedOnly b.repos.grants fun s => codes.onRecord s sub := codes.savedOnly sub
      exact .inl (hsaved.eval (onlyRefresh_noSave r) h)
  | gitHub account env =>
    cases account with
    | error _ => exact .inl h
    | ok userId => exact .inl h

/-- A program of the token service puts on record what its saved pairs name. -/
theorem tokens_program {svc : TokenService} {request : Request} {env : Nat → Env}
    {s : Store b.repos}
    (h : tokens.onRecord (Prog.eval Store.exec env 0 (svc.program request) s).2.1.tokens sub) :
    tokens.onRecord s.tokens sub ∨
      ∃ pair ∈ savedPairs (Prog.eval Store.exec env 0 (svc.program request) s).2.2,
        sub = pair.2.userId := by
  rcases (show TokenSubjects b.repos.tokens from tokens).eval h with
    hold | ⟨access, refresh, hmem, hsub⟩
  · exact .inl hold
  · exact .inr ⟨(access, refresh), List.mem_filterMap.mpr ⟨_, hmem, rfl⟩, hsub⟩

/-- A poll puts on record what it logs. -/
def RecordsLogged (tokens : TokenSubjects b.tokens) (w : World b) (o : Outcome b) : Prop :=
  ∀ sub, tokens.onRecord o.world.store.tokens sub → tokens.onRecord w.store.tokens sub ∨
    ∃ access, .pairIssued access ∈ o.log ∧ sub = access.userId

theorem redeem_recordsLogged {deviceCodeHash : String} {row : DeviceCode} :
    RecordsLogged tokens w (redeem cfg w env deviceCodeHash row) := by
  unfold redeem
  split
  · exact fun _ h => .inl h
  simp only
  split
  · rename_i saved hsaved
    intro sub h
    have hsave : tokens.onRecord (b.tokens.saveTokenPair (env.client .saveTokenPair)
        (deviceAccessToken cfg env row) (deviceRefreshToken cfg env row) w.store.tokens).2 sub := by
      rw [show b.tokens.saveTokenPair _ _ _ _ = _ from hsaved]
      exact h
    rcases tokens.save hsave with hold | ⟨hok, -⟩
    · exact .inl hold
    · rw [show b.tokens.saveTokenPair _ _ _ _ = _ from hsaved] at hok
      cases hok
  · rename_i saved hsaved
    intro sub h
    have hsave : tokens.onRecord (b.tokens.saveTokenPair (env.client .saveTokenPair)
        (deviceAccessToken cfg env row) (deviceRefreshToken cfg env row) w.store.tokens).2 sub := by
      rw [show b.tokens.saveTokenPair _ _ _ _ = _ from hsaved]
      exact h
    rcases tokens.save hsave with hold | ⟨-, hsub⟩
    · exact .inl hold
    · exact .inr ⟨deviceAccessToken cfg env row, List.mem_singleton_self _, hsub⟩

theorem deviceToken_recordsLogged : RecordsLogged tokens w (deviceToken cfg w req env) := by
  unfold deviceToken
  simp only
  split
  · exact fun _ h => .inl h
  unfold deviceCodeGrant
  simp only
  split
  · exact fun _ h => .inl h
  split
  · exact fun _ h => .inl h
  split
  · exact fun _ h => .inl h
  unfold deviceCodeLookup
  split
  · exact fun _ h => .inl h
  split
  · exact fun _ h => .inl h
  split
  · exact fun _ h => .inl h
  split
  · exact fun _ h => .inl h
  split
  · intro _ h
    refine .inl ?_
    unfold pollPending World.answer at h
    cases hupdate : env.fails .updateDeviceCode with
    | true => simpa [hupdate] using h
    | false => simpa [hupdate] using h
  · exact fun _ h => .inl h
  · exact fun _ h => .inl h
  · exact redeem_recordsLogged

theorem tokens_verifyLogin (h : tokens.onRecord (verifyLogin cfg w req env).world.store.tokens sub) :
    tokens.onRecord w.store.tokens sub ∨
      ∃ pair ∈ exchangePairs cfg.tokenService (secondFactorExchange cfg w req env),
        sub = pair.2.userId := by
  cases hissuing : MfaController.issuing cfg w req env with
  | none =>
    rw [(verifyLogin_of_not_issuing hissuing).1] at h
    exact .inl h
  | some totp =>
    rw [verifyLogin_of_issuing hissuing] at h
    have h' : tokens.onRecord (exchangeCodeForToken cfg (codeSaved cfg w req env totp) env
        (mfaExchangeRequest cfg (verifyFields req) (env.generate 0).random)).2.store.tokens sub := by
      rw [← store_exchangeIssued]
      exact h
    rcases tokens_program h' with hold | ⟨pair, hpair, hsub⟩
    · exact .inl hold
    · refine .inr ⟨pair, ?_, hsub⟩
      rw [secondFactorExchange, hissuing]
      exact hpair

theorem tokens_handle {i : Http.Input}
    (h : tokens.onRecord (handle cfg w i).world.store.tokens sub) :
    tokens.onRecord w.store.tokens sub ∨
      (∃ access, .pairIssued access ∈ (handle cfg w i).log ∧ sub = access.userId) ∨
      ∃ pair ∈ exchangePairs cfg.tokenService (exchangeOf cfg w (.http i)),
        sub = pair.2.userId := by
  unfold handle at h ⊢
  unfold exchangeOf
  cases hendpoint : i.endpoint with
  | login =>
    simp only [hendpoint] at h
    generalize ho : login cfg w i.req i.env = o at h
    have hcase : LoginCase cfg w i.req i.env o := ho ▸ login_cases
    cases hcase <;> exact .inl h
  | authorize =>
    simp only [hendpoint] at h
    generalize ho : authorize cfg w i.req i.env = o at h
    have hcase : AuthorizeCase cfg w i.req i.env o := ho ▸ authorize_cases
    cases hcase <;> exact .inl h
  | consent =>
    simp only [hendpoint] at h
    generalize ho : consent cfg w i.req i.env = o at h
    have hcase : ConsentCase cfg w i.req i.env o := ho ▸ consent_cases
    cases hcase <;> exact .inl h
  | verifyLogin =>
    simp only [hendpoint] at h ⊢
    rcases tokens_verifyLogin h with hold | hpair
    · exact .inl hold
    · exact .inr (.inr hpair)
  | deviceAuthorization =>
    simp only [hendpoint] at h
    generalize ho : deviceAuthorization cfg w i.req i.env = o at h
    have hcase : DeviceAuthorizationCase w i.req i.env o := ho ▸ deviceAuthorization_cases
    cases hcase <;> exact .inl h
  | approveDevice =>
    simp only [hendpoint] at h
    generalize ho : approveDevice w i.req i.env = o at h
    have hcase : ApproveCase w i.req o := ho ▸ approveDevice_cases
    cases hcase <;> exact .inl h
  | deviceToken =>
    simp only [hendpoint] at h ⊢
    rcases deviceToken_recordsLogged sub h with hold | hlogged
    · exact .inl hold
    · exact .inr (.inl hlogged)

theorem tokens_signInStep {i : SignInInput}
    (h : tokens.onRecord (signInStep cfg w i).1.store.tokens sub) :
    tokens.onRecord w.store.tokens sub ∨ sub ∈ subjects (signInStep cfg w i).2 := by
  cases i with
  | flow i =>
    cases i with
    | http i =>
      rcases tokens_handle h with hold | ⟨access, hlogged, rfl⟩ | ⟨pair, hpair, rfl⟩
      · exact .inl hold
      · exact .inr (mem_subjects_of_device hlogged)
      · exact .inr (mem_subjects_of_pair hpair).2
    | exchange r env =>
      rcases tokens_program h with hold | ⟨pair, hpair, rfl⟩
      · exact .inl hold
      · exact .inr (mem_subjects_of_pair hpair).2
    | refresh r env =>
      rcases tokens_program h with hold | ⟨pair, hpair, rfl⟩
      · exact .inl hold
      · exact .inr (mem_subjects_of_pair hpair).2
  | gitHub account env =>
    cases account with
    | error _ => exact .inl h
    | ok userId =>
      rcases tokens.save h with hold | ⟨hok, hsub⟩
      · exact .inl hold
      · have hpair : gitHubPair cfg.tokenService userId env ∈
            (signInStep cfg w (.gitHub (.ok userId) env)).2.pairs := by
          have hsaved : (saveGitHubPair cfg.tokenService userId env w).1 = true := hok
          simp [signInStep, gitHubStep, hsaved]
        rw [hsub]
        exact .inr (mem_subjects_of_pair hpair).2

/-! ### One step -/

variable {good : String → Bool}

theorem directory_signInStep {i : SignInInput} :
    (signInStep cfg w i).1.directory = w.directory := by
  cases i with
  | flow i => exact DisabledUsers.directory_flowStep
  | gitHub account env => cases account <;> rfl

theorem Records.signInStep {i : SignInInput} (h : Records codes tokens good w)
    (haccepted : Accepted good (signInStep cfg w i).2) :
    Records codes tokens good (signInStep cfg w i).1 where
  codes sub hrecord := by
    rcases codes_signInStep hrecord with hold | hnew
    · exact h.codes sub hold
    · exact haccepted sub hnew
  tokens sub hrecord := by
    rcases tokens_signInStep hrecord with hold | hnew
    · exact h.tokens sub hold
    · exact haccepted sub hnew

section Step

variable (hall : HasPublic good w.directory)
include hall

theorem good_of_totp {v : TotpVerified}
    (htotp : verifyTotp cfg (keyed cfg w req env) env (verifyFields req) = .ok v) :
    good v.publicSub = true := by
  obtain ⟨row, hrow, hsub⟩ := (acceptedTotp_of_keyed htotp).user
  have hprofile : w.directory.users.table.lookup v.userId = some row.toProfile :=
    (UserTable.lookup_profiles v.userId).trans (congrArg (Option.map _) hrow)
  rw [hsub]
  exact hall _ _ hprofile

/-- An exchange consumes a code with a good subject, also the exchange of the second factor, which
meets the code that has just been saved. -/
theorem good_of_consumed {i : FlowInput} {x : PendingExchange b} (h : Records codes tokens good w)
    (hx : exchangeOf cfg w i = some x) {authCode : OAuth2AuthCode}
    (hconsumed : x.consumed cfg.tokenService = some authCode) : good authCode.userId = true := by
  have hrecord : codes.onRecord x.store.grants authCode.userId := codes.consumed hconsumed
  cases i with
  | http i =>
    unfold exchangeOf at hx
    cases hendpoint : i.endpoint with
    | verifyLogin =>
      simp only [hendpoint] at hx
      obtain ⟨v, hissuing, rfl⟩ := Option.map_eq_some_iff.mp hx
      obtain ⟨htotp, -, -⟩ := issuing_eq_some.mp hissuing
      rcases codes.save hrecord with hold | hnew
      · exact h.codes _ hold
      · rw [hnew]
        exact good_of_totp hall htotp
    | _ => simp [hendpoint] at hx
  | exchange r env =>
    cases hx
    exact h.codes _ hrecord
  | refresh r env => cases hx

theorem good_of_idToken {i : FlowInput} (h : Records codes tokens good w)
    (hsub : sub ∈ (idTokensOf cfg.tokenService (exchangeOf cfg w i)).map fun t => t.2.sub) :
    good sub = true := by
  obtain ⟨t, hmem, rfl⟩ := List.mem_map.mp hsub
  obtain ⟨x, authCode, hx, -, hconsumed, hclaims⟩ := mem_idTokensOf hmem
  rw [hclaims]
  exact good_of_consumed hall h hx hconsumed

theorem good_of_exchangePair {i : FlowInput} (h : Records codes tokens good w)
    {pair : OAuth2AccessToken × OAuth2RefreshToken}
    (hpair : pair ∈ exchangePairs cfg.tokenService (exchangeOf cfg w i)) :
    good pair.1.userId = true ∧ good pair.2.userId = true := by
  have hconsumed : ∀ sub ∈ DisabledUsers.consumedSubjects cfg (exchangeOf cfg w i),
      good sub = true := by
    intro sub hsub
    obtain ⟨authCode, hcode, rfl⟩ := Option.map_eq_some_iff.mp (Option.mem_toList.mp hsub)
    obtain ⟨x, hx, hcode⟩ := Option.bind_eq_some_iff.mp hcode
    exact good_of_consumed hall h hx hcode
  obtain ⟨haccess, hrefresh⟩ := DisabledUsers.mem_consumedSubjects hpair
  exact ⟨hconsumed _ haccess, hconsumed _ hrefresh⟩

omit hall in
theorem good_of_refreshed {r : RefreshRequest} {env : Nat → Env} (h : Records codes tokens good w)
    {pair : OAuth2AccessToken × OAuth2RefreshToken}
    (hpair : pair ∈ savedPairs (refreshed cfg.tokenService w r env).2.2) :
    good pair.1.userId = true ∧ good pair.2.userId = true := by
  have hrotated : ∀ sub ∈ ((DisabledUsers.rotatedToken cfg w r env).map
      OAuth2RefreshToken.userId).toList, good sub = true := by
    intro sub hsub
    obtain ⟨rt, hrt, rfl⟩ := Option.map_eq_some_iff.mp (Option.mem_toList.mp hsub)
    exact h.tokens _ (tokens.rotated hrt)
  obtain ⟨haccess, hrefresh⟩ := DisabledUsers.refresh_pairs hpair
  exact ⟨hrotated _ haccess, hrotated _ hrefresh⟩

theorem good_of_log {i : Http.Input} (hok : staysIn good cfg w (.flow (.http i)) = true)
    (h : sub ∈ (handle cfg w i).log.filterMap DisabledUsers.subjectOf) : good sub = true := by
  unfold handle at h
  unfold staysIn at hok
  cases hendpoint : i.endpoint with
  | login =>
    simp only [hendpoint] at h
    obtain ⟨result, users, haccepts, rfl⟩ := DisabledUsers.subjects_login h
    obtain ⟨-, id, p, hlookup, rfl⟩ := haccepts.spec
    exact hall _ _ hlookup
  | authorize =>
    simp only [hendpoint] at h hok
    rw [authorize_log] at h
    cases hissues : silentlyIssues cfg w i.req i.env with
    | false =>
      rw [hissues] at h
      cases h
    | true =>
      rw [hissues] at h hok
      obtain rfl := List.mem_singleton.mp h
      exact hok
  | consent =>
    simp only [hendpoint] at h hok
    rw [consent_log] at h
    cases hissues : PkceGate.consentIssues w i.req i.env with
    | false =>
      rw [hissues] at h
      cases h
    | true =>
      rw [hissues] at h hok
      obtain rfl := List.mem_singleton.mp h
      exact hok
  | verifyLogin =>
    simp only [hendpoint] at h
    obtain ⟨v, htotp, rfl⟩ := DisabledUsers.subjects_verifyLogin h
    exact good_of_totp hall htotp
  | deviceAuthorization =>
    simp only [hendpoint] at h
    rw [log_nil_of_deviceAuthorization deviceAuthorization_cases] at h
    cases h
  | approveDevice =>
    simp only [hendpoint] at h
    rw [log_nil_of_approve approveDevice_cases] at h
    cases h
  | deviceToken =>
    simp only [hendpoint] at h hok
    rw [deviceToken_log] at h
    cases hredeemed : redeemedRow cfg w i.req i.env with
    | none =>
      rw [hredeemed] at h
      cases h
    | some row =>
      rw [hredeemed] at h hok
      obtain rfl := List.mem_singleton.mp h
      exact hok

/-- A step that stays inside the good subjects issues for no other. -/
theorem accepted_of_staysIn {i : SignInInput} (h : Records codes tokens good w)
    (hok : staysIn good cfg w i = true) : Accepted good (signInStep cfg w i).2 := by
  intro sub hsub
  rcases List.mem_append.mp hsub with hissued | hid
  · rcases List.mem_append.mp hissued with hlog | hpairs
    · cases i with
      | flow i =>
        cases i with
        | http i => exact good_of_log hall hok hlog
        | exchange r env => cases hlog
        | refresh r env => cases hlog
      | gitHub account env => cases account <;> cases hlog
    · obtain ⟨pair, hpair, hmem⟩ := List.mem_flatMap.mp hpairs
      have hboth : good pair.1.userId = true ∧ good pair.2.userId = true := by
        cases i with
        | flow i =>
          cases i with
          | http i => exact good_of_exchangePair hall h hpair
          | exchange r env => exact good_of_exchangePair (i := .exchange r env) hall h hpair
          | refresh r env => exact good_of_refreshed h hpair
        | gitHub account env =>
          cases account with
          | error _ => cases hpair
          | ok userId =>
            simp only [signInStep, gitHubStep] at hpair
            split at hpair
            · rename_i hsaved
              obtain rfl := List.mem_singleton.mp hpair
              have hid : good (toString userId) = true := by
                rw [staysIn, hsaved] at hok
                exact hok
              exact ⟨hid, hid⟩
            · cases hpair
      simp only [List.mem_cons, List.not_mem_nil, or_false] at hmem
      rcases hmem with rfl | rfl
      · exact hboth.1
      · exact hboth.2
  · cases i with
    | flow i =>
      cases i with
      | http i => exact good_of_idToken hall h hid
      | exchange r env => exact good_of_idToken (i := .exchange r env) hall h hid
      | refresh r env => cases hid
    | gitHub account env => cases account <;> cases hid

end Step

/-- A step that issues for good subjects only stays inside them. -/
theorem staysIn_of_accepted {i : SignInInput} (haccepted : Accepted good (signInStep cfg w i).2) :
    staysIn good cfg w i = true := by
  cases i with
  | flow i =>
    cases i with
    | http i =>
      have hcode : ∀ sid c, .codeIssued sid c ∈ (handle cfg w i).log → good c.userId = true :=
        fun sid c hmem => haccepted _ (mem_subjects_of_code hmem)
      have hdevice : ∀ access, .pairIssued access ∈ (handle cfg w i).log →
          good access.userId = true :=
        fun access hmem => haccepted _ (mem_subjects_of_device hmem)
      unfold staysIn
      unfold handle at hcode hdevice
      cases hendpoint : i.endpoint with
      | authorize =>
        simp only [hendpoint] at hcode ⊢
        cases hissues : silentlyIssues cfg w i.req i.env with
        | false => rfl
        | true =>
          rw [authorize_log, hissues] at hcode
          exact hcode _ _ (List.mem_singleton_self _)
      | consent =>
        simp only [hendpoint] at hcode ⊢
        cases hissues : PkceGate.consentIssues w i.req i.env with
        | false => rfl
        | true =>
          rw [consent_log, hissues] at hcode
          exact hcode _ _ (List.mem_singleton_self _)
      | deviceToken =>
        simp only [hendpoint] at hdevice ⊢
        cases hredeemed : redeemedRow cfg w i.req i.env with
        | none => rfl
        | some row =>
          rw [deviceToken_log, hredeemed] at hdevice
          exact hdevice _ (List.mem_singleton_self _)
      | _ => simp only [hendpoint]
    | _ => rfl
  | gitHub account env =>
    cases account with
    | error _ => rfl
    | ok userId =>
      cases hsaved : (saveGitHubPair cfg.tokenService userId env w).1 with
      | false =>
        rw [staysIn, hsaved]
        rfl
      | true =>
        have hpair : gitHubPair cfg.tokenService userId env ∈
            (signInStep cfg w (.gitHub (.ok userId) env)).2.pairs := by
          simp [signInStep, gitHubStep, hsaved]
        have hid : good (toString userId) = true := haccepted _ (mem_subjects_of_pair hpair).1
        rw [staysIn, hid, Bool.or_true]

/-! ### Every flow -/

/-- A flow issues for good subjects only if and only if all its steps stay inside them. -/
theorem accepted_exec_iff {inputs : List SignInInput} {past : List FlowEvent}
    (hall : HasPublic good w.directory) (hrecords : Records codes tokens good w)
    (hpast : ∀ e ∈ past, Accepted good e) :
    (∀ e ∈ ((signIn b cfg).exec past w inputs).1, Accepted good e) ↔
      (signIn b cfg).Guarded (fun _ w i => staysIn good cfg w i = true) past w inputs := by
  induction inputs generalizing past w with
  | nil => exact iff_of_true hpast trivial
  | cons i inputs ih =>
    have hstep : staysIn good cfg w i = true → ((∀ e ∈ ((signIn b cfg).exec
        ((signInStep cfg w i).2 :: past) (signInStep cfg w i).1 inputs).1, Accepted good e) ↔
        (signIn b cfg).Guarded (fun _ w i => staysIn good cfg w i = true)
          ((signInStep cfg w i).2 :: past) (signInStep cfg w i).1 inputs) := by
      intro hok
      have haccepted := accepted_of_staysIn hall hrecords hok
      refine ih (directory_signInStep.symm ▸ hall) (hrecords.signInStep haccepted) ?_
      exact List.forall_mem_cons.mpr ⟨haccepted, hpast⟩
    constructor
    · intro hevents
      have hmem : (signInStep cfg w i).2 ∈ ((signIn b cfg).exec ((signInStep cfg w i).2 :: past)
          (signInStep cfg w i).1 inputs).1 :=
        Machine.mem_exec List.mem_cons_self
      have hok : staysIn good cfg w i = true := staysIn_of_accepted (hevents _ hmem)
      exact ⟨hok, (hstep hok).mp hevents⟩
    · intro hguarded
      exact (hstep hguarded.1).mpr hguarded.2

/-! ### The subjects by path -/

/-- The consents and the redeemed device codes of a flow name good subjects. -/
def namesOnly (good : String → Bool) (cfg : Config) (w : World b) : SignInInput → Bool
  | .flow (.http i) =>
    match i.endpoint with
    | .consent => !PkceGate.consentIssues w i.req i.env || good (consentFields i.req).userId
    | .deviceToken => (redeemedRow cfg w i.req i.env).all fun row => good row.userId
    | _ => true
  | _ => true

/-- The step is an authorization request that gets its code silently. -/
def isSilent (cfg : Config) (w : World b) : SignInInput → Bool
  | .flow (.http i) => i.endpoint = .authorize && silentlyIssues cfg w i.req i.env
  | _ => false

def gitHubAccounts (inputs : List SignInInput) : List Int :=
  inputs.filterMap fun
    | .gitHub (.ok id) _ => some id
    | _ => none

/-- Everything that the history issues for a user carries a subject that fits the user. -/
def SubjectsFit (d : Directory) (fits : Int → Profile → String → Prop)
    (history : List FlowEvent) : Prop :=
  ∀ e ∈ history, ∀ sub ∈ subjects e, ∀ id p, d.subjectUser sub = some id →
    d.users.table.lookup id = some p → fits id p sub

theorem staysIn_of_namesOnly {i : SignInInput} (hnames : namesOnly good cfg w i = true)
    (hsilent : ∀ r, i = .flow (.http r) → r.endpoint = .authorize →
      silentlyIssues cfg w r.req r.env = true →
        good ((w.sessions r.req.session).userId.getD "") = true)
    (hgitHub : ∀ id env, i = .gitHub (.ok id) env → good (toString id) = true) :
    staysIn good cfg w i = true := by
  cases i with
  | flow i =>
    cases i with
    | http r =>
      unfold namesOnly at hnames
      unfold staysIn
      cases hendpoint : r.endpoint with
      | authorize =>
        simp only [hendpoint]
        cases hissues : silentlyIssues cfg w r.req r.env with
        | false => rfl
        | true => exact hsilent r rfl hendpoint hissues
      | consent =>
        simp only [hendpoint] at hnames ⊢
        exact hnames
      | deviceToken =>
        simp only [hendpoint] at hnames ⊢
        exact hnames
      | _ => simp only [hendpoint]
    | _ => rfl
  | gitHub account env =>
    cases account with
    | error _ => rfl
    | ok id => rw [staysIn, hgitHub id env rfl, Bool.or_true]

/-- The user id of a session is the decimal id of a user. -/
theorem isKey_of_session {w₀ : World b} {trace : List Action} (hest : Established cfg w₀ trace w)
    (hissues : silentlyIssues cfg w req env = true) :
    isKey w₀.directory ((w.sessions req.session).userId.getD "") = true := by
  cases huser : (w.sessions req.session).userId with
  | none => simp [silentlyIssues, sessionAccepted, huser] at hissues
  | some s =>
    obtain ⟨id, c, r, decision, hvalidated, rfl⟩ := hest.userId _ s huser
    obtain ⟨p, hlookup, -⟩ := hest.validated _ id c r decision hvalidated
    exact isKey_toString hlookup

theorem Records.imp {stronger : String → Bool} (h : Records codes tokens stronger w)
    (himp : ∀ sub, stronger sub = true → good sub = true) : Records codes tokens good w :=
  ⟨fun sub hrecord => himp sub (h.codes sub hrecord),
    fun sub hrecord => himp sub (h.tokens sub hrecord)⟩

/-- The silent path adds the decimal id at most. -/
theorem fit_of_namesKey {w₀ : World b} (hinitial : Initial w₀)
    (hrecords : Records codes tokens (isPublic w₀.directory) w₀) {inputs : List SignInInput}
    (haccounts : ∀ a ∈ gitHubAccounts inputs, ∃ p, w₀.directory.users.table.lookup a = some p)
    (hnames : (signIn b cfg).Guarded
      (fun _ w i => namesOnly (isKey w₀.directory) cfg w i = true) [] w₀ inputs) :
    SubjectsFit w₀.directory (fun id p sub => sub = p.publicSub ∨ sub = toString id)
      ((signIn b cfg).exec [] w₀ inputs).1 := by
  have hguarded : (signIn b cfg).Guarded
      (fun _ w i => staysIn (isKey w₀.directory) cfg w i = true) [] w₀ inputs := by
    refine Machine.guarded_imp (P := fun past w => Established cfg w₀ (logOf past) w)
      (fun _ _ i hest => hest.signInStep i) ?_ hinitial.established hnames
    intro past w i hmem hest hok
    refine staysIn_of_namesOnly hok ?_ ?_
    · intro r _ _ hissues
      exact isKey_of_session hest hissues
    · intro id env heq
      obtain ⟨p, hlookup⟩ := haccounts id (List.mem_filterMap.mpr ⟨i, hmem, by rw [heq]⟩)
      exact isKey_toString hlookup
  have hkey : HasPublic (isKey w₀.directory) w₀.directory :=
    fun id p hlookup => isKey_of_isPublic (isPublic_publicSub hlookup)
  have haccepted := (accepted_exec_iff hkey (hrecords.imp fun _ => isKey_of_isPublic)
    (List.forall_mem_nil _)).mpr hguarded
  intro e he sub hsub id p hsubject hlookup
  have hfits := holdsOf_iff.mp (haccepted e he sub hsub) id p hsubject hlookup
  simp only [Bool.or_eq_true, decide_eq_true_eq] at hfits
  exact hfits.imp Eq.symm Eq.symm

/-- Without the silent path only a GitHub login adds the decimal id. -/
theorem fit_of_namesPublic {w₀ : World b}
    (hrecords : Records codes tokens (isPublic w₀.directory) w₀) {inputs : List SignInInput}
    (haccounts : ∀ a ∈ gitHubAccounts inputs, ∃ p, w₀.directory.users.table.lookup a = some p)
    (hnames : (signIn b cfg).Guarded
      (fun _ w i => namesOnly (isPublicBut w₀.directory (gitHubAccounts inputs)) cfg w i = true ∧
        isSilent cfg w i = false) [] w₀ inputs) :
    SubjectsFit w₀.directory
      (fun id p sub => sub = p.publicSub ∨ sub = toString id ∧ id ∈ gitHubAccounts inputs)
      ((signIn b cfg).exec [] w₀ inputs).1 := by
  have hguarded : (signIn b cfg).Guarded
      (fun _ w i => staysIn (isPublicBut w₀.directory (gitHubAccounts inputs)) cfg w i = true)
      [] w₀ inputs := by
    refine Machine.guarded_imp (P := fun _ _ => True) (fun _ _ _ h => h) ?_ trivial hnames
    intro past w i hmem _ hok
    refine staysIn_of_namesOnly hok.1 ?_ ?_
    · intro r heq hendpoint hissues
      simp [heq, isSilent, hendpoint, hissues] at hok
    · intro id env heq
      have haccount : id ∈ gitHubAccounts inputs :=
        List.mem_filterMap.mpr ⟨i, hmem, by rw [heq]⟩
      rw [isPublicBut, List.any_eq_true.mpr ⟨id, haccount, decide_eq_true rfl⟩, Bool.or_true]
  have hpublic : ∀ sub, isPublic w₀.directory sub = true →
      isPublicBut w₀.directory (gitHubAccounts inputs) sub = true := by
    intro sub h
    rw [isPublicBut, h, Bool.true_or]
  have haccepted := (accepted_exec_iff (fun id p hlookup => hpublic _ (isPublic_publicSub hlookup))
    (hrecords.imp hpublic) (List.forall_mem_nil _)).mpr hguarded
  intro e he sub hsub id p hsubject hlookup
  rcases Bool.or_eq_true _ _ |>.mp (haccepted e he sub hsub) with hpub | haccount
  · exact .inl (of_decide_eq_true (holdsOf_iff.mp hpub id p hsubject hlookup)).symm
  · obtain ⟨a, hmem, heq⟩ := List.any_eq_true.mp haccount
    obtain rfl := of_decide_eq_true heq
    obtain ⟨q, hrow⟩ := haccounts a hmem
    obtain rfl := Option.some.inj ((Directory.subjectUser_toString hrow).symm.trans hsubject)
    exact .inr ⟨rfl, hmem⟩

/-- From an initial world whose records have public subjects only, and with GitHub logins of known
users: everything that a flow issues for a user carries the public subject or the internal id in
decimal, if the consents and the redeemed device codes name one of them. Without silent
authorizations it carries the public subject, but for the users of the GitHub logins. -/
theorem two_subjects_by_path (codes : CodeSubjects b.grants) (tokens : TokenSubjects b.tokens)
    (cfg : Config) {w₀ : World b} (hinitial : Initial w₀)
    (hrecords : Records codes tokens (isPublic w₀.directory) w₀) (inputs : List SignInInput)
    (haccounts : ∀ a ∈ gitHubAccounts inputs, ∃ p, w₀.directory.users.table.lookup a = some p) :
    ((signIn b cfg).Guarded
        (fun _ w i => namesOnly (isKey w₀.directory) cfg w i = true) [] w₀ inputs →
      SubjectsFit w₀.directory (fun id p sub => sub = p.publicSub ∨ sub = toString id)
        ((signIn b cfg).exec [] w₀ inputs).1) ∧
    ((signIn b cfg).Guarded
        (fun _ w i => namesOnly (isPublicBut w₀.directory (gitHubAccounts inputs)) cfg w i = true ∧
          isSilent cfg w i = false) [] w₀ inputs →
      SubjectsFit w₀.directory
        (fun id p sub => sub = p.publicSub ∨ sub = toString id ∧ id ∈ gitHubAccounts inputs)
        ((signIn b cfg).exec [] w₀ inputs).1) :=
  ⟨fit_of_namesKey hinitial hrecords haccounts, fit_of_namesPublic hrecords haccounts⟩

/-! ### Alice comes three times -/

abbrev signedIn (inputs : List SignInInput) : List FlowEvent :=
  ((signIn knownBackend knownConfig).exec [] knownWorld inputs).1

theorem records_knownWorld :
    Records Memory.codeSubjects Memory.tokenSubjects (isPublic knownWorld.directory)
      knownWorld where
  codes sub h := by
    obtain ⟨k, amr, hstored⟩ := h
    cases hstored
  tokens sub h := by
    obtain ⟨k, rt, hlookup, -⟩ := h
    cases hlookup

/-- She logs in, her client asks for another code, and later she comes back through GitHub. -/
def aliceThreeTimes : List SignInInput :=
  [.flow (.http (knownLogin 0 "alice" "correct-horse" (knownEnv 59 0))),
   .flow (.http (knownAuthorize 0 (knownEnv 60 1))),
   .gitHub (.ok 1) (knownEnv 61 2).exchange]

/-- All three times she gets what is hers, but not under one subject. -/
theorem aliceThreeTimes_subjects :
    Initial knownWorld ∧
    Records Memory.codeSubjects Memory.tokenSubjects (isPublic knownWorld.directory) knownWorld ∧
    (signedIn aliceThreeTimes).map subjects =
      [["1", "1"], ["1"], ["11111111-1111-4111-8111-111111111111"]] ∧
    knownWorld.directory.subjectUser "1" = some 1 ∧
    knownWorld.directory.subjectUser "11111111-1111-4111-8111-111111111111" = some 1 ∧
    ¬SubjectsFit knownWorld.directory (fun _ p sub => sub = p.publicSub)
      (signedIn aliceThreeTimes) := by
  obtain ⟨hsubjects, huser, hpublicUser⟩ :
      (signedIn aliceThreeTimes).map subjects =
          [["1", "1"], ["1"], ["11111111-1111-4111-8111-111111111111"]] ∧
        knownWorld.directory.subjectUser "1" = some 1 ∧
        knownWorld.directory.subjectUser "11111111-1111-4111-8111-111111111111" = some 1 := by
    decide +kernel
  refine ⟨initial_knownWorld, records_knownWorld, hsubjects, huser, hpublicUser, ?_⟩
  intro hfits
  obtain ⟨e, hmem, hsub⟩ : ∃ e ∈ signedIn aliceThreeTimes, subjects e = ["1"] :=
    List.mem_map.mp (by rw [hsubjects]; decide)
  obtain ⟨p, hlookup⟩ : ∃ p, knownWorld.directory.users.table.lookup 1 = some p := ⟨_, rfl⟩
  have hpublic := hfits e hmem "1" (by rw [hsub]; decide) 1 p huser hlookup
  have huuid := knownWorld.directory.users.publicSubs_uuid _ (AList.mem_lookup_iff.mp hlookup)
  exact ne_toString_of_isUuid huuid 1 hpublic

/-- Alice's code becomes a pair of tokens, Bob signs in with a second factor, a browser without a
session is sent to the login page, and Carol comes through GitHub. -/
def threeUsers : List SignInInput :=
  [.flow (.http (knownLogin 0 "alice" "correct-horse" (knownEnv 59 0))),
   .flow (.exchange (knownExchange 0) (knownEnv 60 1).exchange),
   .flow (.http (knownAuthorize 7 (knownEnv 60 5))),
   .flow (.http (knownLogin 1 "bob" "battery-staple" (knownEnv 59 6))),
   .flow (.http (knownVerify 1 (knownEnv 59 7))),
   .gitHub (.ok 3) (knownEnv 61 8).exchange]

theorem two_subjects_by_path_threeUsers :
    (signedIn threeUsers).map subjects =
      [["3", "3"],
       ["22222222-2222-4222-8222-222222222222", "22222222-2222-4222-8222-222222222222",
        "22222222-2222-4222-8222-222222222222"], [], [],
       ["11111111-1111-4111-8111-111111111111", "11111111-1111-4111-8111-111111111111"],
       ["11111111-1111-4111-8111-111111111111"]] ∧
    SubjectsFit knownWorld.directory (fun id p sub => sub = p.publicSub ∨ sub = toString id)
      (signedIn threeUsers) ∧
    SubjectsFit knownWorld.directory
      (fun id p sub => sub = p.publicSub ∨ sub = toString id ∧ id ∈ [3])
      (signedIn threeUsers) := by
  have hfits := two_subjects_by_path Memory.codeSubjects Memory.tokenSubjects knownConfig
    initial_knownWorld records_knownWorld threeUsers (by
      intro a ha
      obtain rfl := List.mem_singleton.mp ha
      exact ⟨_, rfl⟩)
  -- one evaluation of the run for its history and both guards
  refine And.imp_right (And.imp hfits.1 hfits.2) ?_
  decide +kernel

end AuthForge.OneSubject
