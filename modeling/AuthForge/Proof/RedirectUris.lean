import AuthForge.Http.Runs

/-!
# Where answers and codes are delivered

The authorization endpoint checks the redirect URI before anything leaves for the client. The login
checks it for its PKCE error only, and the consent handler never does: a login that issues a code and
a consent that denies or issues send the browser wherever the request says.
-/

namespace AuthForge.RedirectUris

open Http OAuth2 Identity SessionController AuthorizationEndpoint

variable {b : Backend}

def Registered (w : World b) (clientId redirectUri : String) : Prop :=
  ∃ client, w.clients.lookup clientId = some client ∧ redirectUri ∈ client.redirectUris

/-- The answer sends the browser to registered redirect URIs of the client only, and codes are
stored with such URIs only. -/
structure DeliversRegistered (w : World b) (clientId : String) (o : Outcome b) : Prop where
  locations : ∀ l ∈ o.response.locations, ∀ uri, l.page = .client uri → Registered w clientId uri
  codes : ∀ sid code, .codeIssued sid code ∈ o.log → Registered w clientId code.redirectUri

/-! ### The exits that do not check -/

/-- The login gets as far as issuing a code: valid input, a password that is accepted, a policy that
lets it proceed, and a challenge where one is required. -/
def loginProceeds (cfg : Config) (w : World b) (req : HttpRequest) (env : RequestEnv) : Bool :=
  RuleSet.login req = [] && !cfg.pkceMissing (loginFields req).codeChallenge &&
    match (passwordStep cfg env (loginFields req) w.users).1 with
    | .accepted result => evaluateLoginPolicy result cfg.requireEmailVerification = .Proceed
    | _ => false

/-- The consent is a denial, or it finds a user and can store the consent for the first scope. -/
def consentSendsBack (w : World b) (req : HttpRequest) (env : RequestEnv) : Bool :=
  (consentFields req).action = "deny" ||
    match w.getInternalUserId env (consentFields req).userId with
    | none => false
    | some id => firstConsentSaved w env id (consentFields req)

variable {cfg : Config} {w : World b} {req : HttpRequest} {env : RequestEnv} {o : Outcome b}
  {clientId redirectUri : String}

theorem registered_of_validateRedirectUri (h : w.validateRedirectUri env clientId redirectUri = true) :
    Registered w clientId redirectUri := by
  unfold World.validateRedirectUri OAuth2.validateRedirectUri at h
  split at h
  · cases h
  · rename_i client hclient
    refine ⟨client, ?_, by simpa [OAuth2Client.isRegisteredRedirectUri] using h⟩
    have hlookup : (if env.fails .validateRedirectUri then none
      else w.clients.lookup clientId) = some client := hclient
    split at hlookup
    · cases hlookup
    · exact hlookup

theorem DeliversRegistered.of_registered (hregistered : Registered w clientId redirectUri)
    (hlocations : ∀ l ∈ o.response.locations, ∀ uri, l.page = .client uri → uri = redirectUri)
    (hcodes : ∀ sid code, .codeIssued sid code ∈ o.log → code.redirectUri = redirectUri) :
    DeliversRegistered w clientId o where
  locations l hl uri hpage := by
    rw [hlocations l hl uri hpage]
    exact hregistered
  codes sid code hmem := by
    rw [hcodes sid code hmem]
    exact hregistered

theorem DeliversRegistered.of_nothing (hlocations : o.response.locations = [])
    (hcodes : ∀ sid code, .codeIssued sid code ∉ o.log) : DeliversRegistered w clientId o where
  locations l hl := by
    rw [hlocations] at hl
    cases hl
  codes sid code hmem := absurd hmem (hcodes sid code)

/-! ### The three endpoints -/

theorem codeIssued_of_loginProceeds (h : loginProceeds cfg w req env = true) :
    ∃ sid code, .codeIssued sid code ∈ (login cfg w req env).log ∧
      code.redirectUri = (loginFields req).redirectUri := by
  simp only [loginProceeds, Bool.and_eq_true, decide_eq_true_eq, Bool.not_eq_true'] at h
  obtain ⟨⟨hvalid, hpkce⟩, hstep⟩ := h
  split at hstep
  · rename_i result haccepted
    have hdecision : evaluateLoginPolicy result cfg.requireEmailVerification = .Proceed := by
      simpa using hstep
    cases hpassword : passwordStep cfg env (loginFields req) w.users with
    | mk v users =>
      rw [hpassword] at haccepted
      obtain rfl : v = .accepted result := haccepted
      refine ⟨req.session, loginCode cfg w req env result, ?_, rfl⟩
      simp only [login, hvalid, ne_eq, not_true_eq_false, if_false, hpassword, onValidated,
        hdecision, proceed, issueAfterLogin, hpkce, Bool.false_eq_true, sessions_entered,
        generateAuthorizationCode_eq]
      exact List.mem_cons_self
  · cases hstep

theorem login_delivers_iff :
    DeliversRegistered w (loginFields req).clientId (login cfg w req env) ↔
      Registered w (loginFields req).clientId (loginFields req).redirectUri ∨
        loginProceeds cfg w req env = false := by
  constructor
  · intro hdelivers
    by_cases hproceeds : loginProceeds cfg w req env = true
    · obtain ⟨sid, code, hmem, huri⟩ := codeIssued_of_loginProceeds hproceeds
      exact .inl (huri ▸ hdelivers.codes sid code hmem)
    · exact .inr (by simpa using hproceeds)
  · intro hcondition
    generalize ho : login cfg w req env = o
    have hcase : LoginCase cfg w req env o := ho ▸ login_cases
    cases hcase with
    | refused _ hlocations => exact .of_nothing hlocations (fun _ _ hmem => by cases hmem)
    | stopped _ hlocations =>
      refine ⟨fun l hl uri hpage => ?_, fun _ _ hmem => ?_⟩
      · obtain ⟨hclient, hchecked⟩ := hlocations l hl
        obtain rfl := Page.client.inj (hpage.symm.trans hclient)
        exact registered_of_validateRedirectUri hchecked
      · cases List.mem_singleton.mp hmem
    | bound => exact .of_nothing rfl (by simp [passwordAction])
    | issued haccepts hdecision hpkce hlocations =>
      have hproceeds : loginProceeds cfg w req env = true := by
        simp [loginProceeds, haccepts.valid, hpkce, haccepts.step, hdecision]
      have hregistered := hcondition.resolve_right (by simp [hproceeds])
      refine .of_registered hregistered ?_ ?_
      · intro l hl uri hpage
        exact Page.client.inj (hpage.symm.trans (hlocations l hl))
      · intro sid code hmem
        simp only [passwordAction, List.mem_cons, Action.codeIssued.injEq, reduceCtorEq,
          List.not_mem_nil, or_false] at hmem
        rw [hmem.2]
        rfl

theorem consent_delivers_iff :
    DeliversRegistered w (consentFields req).clientId (consent cfg w req env) ↔
      Registered w (consentFields req).clientId (consentFields req).redirectUri ∨
        consentSendsBack w req env = false := by
  generalize ho : consent cfg w req env = o
  have hcase : ConsentCase cfg w req env o := ho ▸ consent_cases
  have hback : ∀ {query : String} {log : List Action} {w' : World b},
      (∀ sid code, .codeIssued sid code ∈ log → code.redirectUri = (consentFields req).redirectUri) →
      consentSendsBack w req env = true →
      (DeliversRegistered w (consentFields req).clientId
        { world := w', response := .redirect ⟨.client (consentFields req).redirectUri, query⟩, log } ↔
        Registered w (consentFields req).clientId (consentFields req).redirectUri ∨
          consentSendsBack w req env = false) := by
    intro query log w' hcodes hsends
    constructor
    · intro hdelivers
      exact .inl (hdelivers.locations _ (List.mem_singleton_self _) _ rfl)
    · intro hcondition
      refine .of_registered (hcondition.resolve_right (by simp [hsends])) ?_ hcodes
      intro l hl uri hpage
      obtain rfl := List.mem_singleton.mp hl
      exact (Page.client.inj hpage).symm
  cases hcase with
  | denied haction =>
    exact hback (fun _ _ hmem => by cases hmem) (by simp [consentSendsBack, haction])
  | failed hlocations haction hfailed =>
    have hsends : consentSendsBack w req env = false := by
      cases huser : w.getInternalUserId env (consentFields req).userId with
      | none => simp [consentSendsBack, haction, huser]
      | some id => simp [consentSendsBack, haction, huser, hfailed id huser]
    exact iff_of_true (.of_nothing hlocations (fun _ _ hmem => by cases hmem)) (.inr hsends)
  | issued haction huser hsaved =>
    refine hback ?_ (by simp [consentSendsBack, haction, huser, hsaved])
    intro sid code hmem
    cases List.mem_singleton.mp hmem
    rfl

theorem authorize_delivers :
    DeliversRegistered w (authorizeFields req).clientId (authorize cfg w req env) := by
  generalize ho : authorize cfg w req env = o
  have hcase : AuthorizeCase cfg w req env o := ho ▸ authorize_cases
  cases hcase with
  | answered hlocations =>
    refine ⟨fun l hl uri hpage => ?_, fun _ _ hmem => by cases hmem⟩
    obtain ⟨rfl, hchecked⟩ := hlocations l hl uri hpage
    exact registered_of_validateRedirectUri hchecked
  | issued _ huri _ =>
    refine .of_registered (registered_of_validateRedirectUri huri) ?_ ?_
    · intro l hl uri hpage
      obtain rfl := List.mem_singleton.mp hl
      exact (Page.client.inj hpage).symm
    · intro sid code hmem
      cases List.mem_singleton.mp hmem
      rfl

/-- Redirects and codes go to registered URIs exactly when the redirect URI is registered or the
request does not reach an exit that trusts it; the authorization endpoint has no such exit. -/
theorem delivers_registered_iff (cfg : Config) (w : World b) (req : HttpRequest)
    (env : RequestEnv) :
    (DeliversRegistered w (loginFields req).clientId (login cfg w req env) ↔
      Registered w (loginFields req).clientId (loginFields req).redirectUri ∨
        loginProceeds cfg w req env = false) ∧
    (DeliversRegistered w (consentFields req).clientId (consent cfg w req env) ↔
      Registered w (consentFields req).clientId (consentFields req).redirectUri ∨
        consentSendsBack w req env = false) ∧
    DeliversRegistered w (authorizeFields req).clientId (authorize cfg w req env) :=
  ⟨login_delivers_iff, consent_delivers_iff, authorize_delivers⟩

def strayConsent : HttpRequest where
  session := 0
  params := paramsOf
    [("client_id", "spa"), ("user_id", "alice"), ("action", "approve"),
     ("redirect_uri", "https://evil.example.com/"), ("state", "state123")]

/-- The browser is sent there with the code. -/
theorem strayConsent_not_registered :
    ¬DeliversRegistered knownWorld (consentFields strayConsent).clientId
      (consent knownConfig knownWorld strayConsent (knownEnv 59 0)) := by
  intro hdelivers
  obtain ⟨hlocation, hspa, hstray⟩ :
      (consent knownConfig knownWorld strayConsent
          (knownEnv 59 0)).response.locations.head?.map Location.page =
          some (.client "https://evil.example.com/") ∧
        knownWorld.clients.lookup (consentFields strayConsent).clientId = some knownClient ∧
        "https://evil.example.com/" ∉ knownClient.redirectUris := by
    decide +kernel
  obtain ⟨l, hl, hpage⟩ := Option.map_eq_some_iff.mp hlocation
  obtain ⟨client, hclient, hmem⟩ :=
    hdelivers.locations l (List.mem_of_mem_head? hl) _ hpage
  obtain rfl := Option.some.inj (hclient.symm.trans hspa)
  exact hstray hmem

end AuthForge.RedirectUris
