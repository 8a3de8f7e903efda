import AuthForge.Http.Runs

/-!
# Where a code challenge is required

With `auth.require_pkce_for_public` the login and the authorization endpoint refuse a request
without a code challenge before they issue a code. The consent handler and the second factor have
no such check: the first stores what its request says, the second what the session holds, or an
empty challenge where no service is wired.
-/

namespace AuthForge.PkceGate

open Http OAuth2 Identity SessionController AuthorizationEndpoint MfaController

variable {b : Backend}

/-- Every code that a request hands to the repository has a code challenge. -/
def ChallengesStored (o : Outcome b) : Prop :=
  ∀ sid code, .codeIssued sid code ∈ o.log → code.codeChallenge ≠ ""

/-! ### The requests that get as far as a code -/

/-- The consent is not a denial, it finds a user, and the consent for the first scope is stored. -/
def consentIssues (w : World b) (req : HttpRequest) (env : RequestEnv) : Bool :=
  (consentFields req).action ≠ "deny" &&
    match w.getInternalUserId env (consentFields req).userId with
    | none => false
    | some id => firstConsentSaved w env id (consentFields req)

/-- The second factor carries a challenge only on the wired path, and only the session's. -/
def sessionChallenge (cfg : Config) (w : World b) (req : HttpRequest) : String :=
  if cfg.mfaServiceWired then (w.sessions req.session).mfaCodeChallenge.getD "" else ""

variable {cfg : Config} {w : World b} {req : HttpRequest} {env : RequestEnv} {o : Outcome b}
  {f : AuthorizeFields} {userId : String}

theorem ChallengesStored.of_nothing (h : o.log = []) : ChallengesStored o := by
  intro sid code hmem
  rw [h] at hmem
  cases hmem

/-! ### The endpoints that check -/

section Checked

variable (hpkce : cfg.requirePkce = true)
include hpkce

theorem ne_empty_of_pkce {codeChallenge : String} (h : cfg.pkceMissing codeChallenge = false) :
    codeChallenge ≠ "" := by
  simpa [Config.pkceMissing, hpkce] using h

theorem login_stores_challenges : ChallengesStored (login cfg w req env) := by
  generalize ho : login cfg w req env = o
  have hcase : LoginCase cfg w req env o := ho ▸ login_cases
  intro sid code hmem
  cases hcase with
  | refused => cases hmem
  | stopped => cases List.mem_singleton.mp hmem
  | bound => simp [passwordAction] at hmem
  | issued _ _ hchallenge _ =>
    rcases List.mem_cons.mp hmem with heq | hlast
    · cases heq
      exact ne_empty_of_pkce hpkce hchallenge
    · cases List.mem_singleton.mp hlast

theorem issueSilently_stores_challenges {sid : Nat} :
    ChallengesStored (issueSilently cfg w sid env f userId) := by
  unfold issueSilently
  split
  · exact .of_nothing rfl
  · rename_i hchallenge
    intro sid' code hmem
    have hne : f.codeChallenge ≠ "" := ne_empty_of_pkce hpkce (by simpa using hchallenge)
    cases List.mem_singleton.mp hmem
    exact hne

theorem withClient_stores_challenges {sid : Nat} :
    ChallengesStored (withClient cfg w sid env f) := by
  unfold withClient
  simp only
  split
  · exact .of_nothing rfl
  split
  · exact .of_nothing rfl
  split
  · exact .of_nothing rfl
  unfold decideScopes
  simp only
  split
  · exact .of_nothing rfl
  split
  · exact .of_nothing rfl
  · exact issueSilently_stores_challenges hpkce

theorem authorize_stores_challenges : ChallengesStored (authorize cfg w req env) := by
  unfold authorize
  simp only
  split
  · exact .of_nothing rfl
  split
  · exact .of_nothing rfl
  split
  · exact .of_nothing rfl
  split
  · exact .of_nothing rfl
  · exact withClient_stores_challenges hpkce

end Checked

/-! ### The endpoints that do not -/

theorem challengesStored_iff_of_issued {sid : Nat} {code : OAuth2AuthCode} {condition : Prop}
    (hmem : .codeIssued sid code ∈ o.log)
    (honly : ∀ sid' code', .codeIssued sid' code' ∈ o.log → code' = code)
    (hcondition : condition ↔ code.codeChallenge ≠ "") : ChallengesStored o ↔ condition := by
  rw [hcondition]
  constructor
  · intro hstored
    exact hstored sid code hmem
  · intro hchallenge sid' code' hmem'
    rw [honly sid' code' hmem']
    exact hchallenge

theorem consent_stores_challenges_iff :
    ChallengesStored (consent cfg w req env) ↔
      (consentFields req).codeChallenge ≠ "" ∨ consentIssues w req env = false := by
  generalize ho : consent cfg w req env = o
  have hcase : ConsentCase cfg w req env o := ho ▸ consent_cases
  cases hcase with
  | denied haction =>
    exact iff_of_true (.of_nothing rfl) (.inr (by simp [consentIssues, haction]))
  | failed _ haction hfailed =>
    refine iff_of_true (.of_nothing rfl) (.inr ?_)
    cases huser : w.getInternalUserId env (consentFields req).userId with
    | none => simp [consentIssues, huser]
    | some id => simp [consentIssues, huser, hfailed id huser]
  | issued haction huser hsaved =>
    have hissues : consentIssues w req env = true := by
      simp [consentIssues, haction, huser, hsaved]
    refine challengesStored_iff_of_issued List.mem_cons_self ?_ ?_
    · intro sid' code' hmem
      cases List.mem_singleton.mp hmem
      rfl
    · rw [hissues]
      exact or_iff_left (by simp)

theorem mfaCodeChallenge_keyed :
    ((keyed cfg w req env).sessions req.session).mfaCodeChallenge =
      (w.sessions req.session).mfaCodeChallenge := by
  simp [keyed, World.setSession, secondFactorKeys]

theorem codeChallenge_mfaCode {v : TotpVerified} :
    (mfaCode cfg w req env v).codeChallenge = sessionChallenge cfg w req := by
  show (mfaCodeRequest cfg ((keyed cfg w req env).sessions req.session) env
    (verifyFields req) v).codeChallenge = _
  rw [mfaCodeRequest, mfaCodeChallenge_keyed]
  rfl

theorem verifyLogin_codes_of_issuing {v : TotpVerified} (h : issuing cfg w req env = some v) :
    .codeIssued req.session (mfaCode cfg w req env v) ∈ (verifyLogin cfg w req env).log ∧
      ∀ sid code, .codeIssued sid code ∈ (verifyLogin cfg w req env).log →
        code = mfaCode cfg w req env v := by
  obtain ⟨store, users, returned, response, -, -, hreturned, heq⟩ :=
    exchangeIssued_eq cfg (codeSaved cfg w req env v) req.session env (verifyFields req) v
      (env.generate 0).random
  rw [verifyLogin_of_issuing h, heq]
  refine ⟨by simp [Outcome.after], ?_⟩
  intro sid code hmem
  rcases hreturned with rfl | rfl
  · simp only [Outcome.after, List.nil_append, List.mem_cons, Action.codeIssued.injEq, reduceCtorEq,
      List.not_mem_nil, List.cons_append, or_false] at hmem
    exact hmem.2
  · simp only [Outcome.after, List.cons_append, List.nil_append, List.mem_cons,
      Action.codeIssued.injEq, reduceCtorEq, List.not_mem_nil, false_or, or_false] at hmem
    exact hmem.2

theorem verifyLogin_stores_challenges_iff :
    ChallengesStored (verifyLogin cfg w req env) ↔
      sessionChallenge cfg w req ≠ "" ∨ issuing cfg w req env = none := by
  cases hissuing : issuing cfg w req env with
  | none =>
    refine iff_of_true ?_ (.inr rfl)
    intro sid code hmem
    exact absurd hmem ((verifyLogin_of_not_issuing hissuing).2 sid code)
  | some v =>
    obtain ⟨hmem, honly⟩ := verifyLogin_codes_of_issuing hissuing
    refine challengesStored_iff_of_issued hmem honly ?_
    rw [codeChallenge_mfaCode]
    exact or_iff_left (by simp)

/-- Where a challenge is required, login and authorization endpoint store no code without one. A
consent does so exactly when it issues a code without a `code_challenge` of its own, the second
factor exactly when it issues a code while the session holds no challenge or no service is wired. -/
theorem challenges_stored_iff (cfg : Config) (hpkce : cfg.requirePkce = true) (w : World b)
    (req : HttpRequest) (env : RequestEnv) :
    ChallengesStored (login cfg w req env) ∧
    ChallengesStored (authorize cfg w req env) ∧
    (ChallengesStored (consent cfg w req env) ↔
      (consentFields req).codeChallenge ≠ "" ∨ consentIssues w req env = false) ∧
    (ChallengesStored (verifyLogin cfg w req env) ↔
      sessionChallenge cfg w req ≠ "" ∨ issuing cfg w req env = none) :=
  ⟨login_stores_challenges hpkce, authorize_stores_challenges hpkce, consent_stores_challenges_iff,
    verifyLogin_stores_challenges_iff⟩

/-! ### The endpoints at work -/

theorem challenges_stored_iff_bareConsent :
    knownConfig.requirePkce = true ∧
    ((consentFields (knownConsent 1 "alice" (knownEnv 59 0)).req).codeChallenge = "" ∧
      consentIssues knownWorld (knownConsent 1 "alice" (knownEnv 59 0)).req (knownEnv 59 0) = true) ∧
    ¬ChallengesStored
      (consent knownConfig knownWorld (knownConsent 1 "alice" (knownEnv 59 0)).req
        (knownEnv 59 0)) := by
  have hrequest : (consentFields (knownConsent 1 "alice" (knownEnv 59 0)).req).codeChallenge = "" ∧
      consentIssues knownWorld (knownConsent 1 "alice" (knownEnv 59 0)).req (knownEnv 59 0) =
        true := by
    decide +kernel
  refine ⟨rfl, hrequest, ?_⟩
  rw [(challenges_stored_iff knownConfig rfl knownWorld _ (knownEnv 59 0)).2.2.1, hrequest.2]
  simp [hrequest.1]

/-- A login without a challenge is told to bring its second factor, and that stores a code without
one. -/
def bareLogin : Input where
  endpoint := .login
  req :=
    { session := 1
      params := paramsOf
        [("username", "bob"), ("password", "battery-staple"), ("client_id", "spa"),
         ("redirect_uri", "https://spa.example.com/callback"), ("scope", "openid"),
         ("state", "state123")] }
  env := knownEnv 59 0

def challengesIssued (log : List Action) : List String :=
  log.filterMap fun
    | .codeIssued _ code => some code.codeChallenge
    | _ => none

theorem mem_challengesIssued {log : List Action} {challenge : String}
    (h : challenge ∈ challengesIssued log) :
    ∃ sid code, .codeIssued sid code ∈ log ∧ code.codeChallenge = challenge := by
  obtain ⟨action, hmem, hcode⟩ := List.mem_filterMap.mp h
  cases action with
  | codeIssued sid code => exact ⟨sid, code, hmem, Option.some.inj hcode⟩
  | _ => cases hcode

def knownWired (wired : Bool) : Config := { knownConfig with mfaServiceWired := wired }

def factorAfterBareLogin (wired : Bool) : Outcome knownBackend :=
  handle (knownWired wired) (executed (knownWired wired) [bareLogin]).2
    (knownVerify 1 (knownEnv 59 0))

theorem factorAfterBareLogin_issues (wired : Bool) :
    "" ∈ challengesIssued (factorAfterBareLogin wired).log := by
  revert wired
  decide +kernel

theorem not_stored_of_empty {o : Outcome b} (h : "" ∈ challengesIssued o.log) :
    ¬ChallengesStored o := by
  intro hstored
  obtain ⟨sid, code, hmem, hempty⟩ := mem_challengesIssued h
  exact hstored sid code hmem hempty

/-- The code has no challenge on the wired path and on the fallback alike. -/
theorem factorAfterBareLogin_not_stored :
    (knownWired true).requirePkce = true ∧ (knownWired false).requirePkce = true ∧
    ¬ChallengesStored (factorAfterBareLogin true) ∧ ¬ChallengesStored (factorAfterBareLogin false) :=
  ⟨rfl, rfl, not_stored_of_empty (factorAfterBareLogin_issues true),
    not_stored_of_empty (factorAfterBareLogin_issues false)⟩

end AuthForge.PkceGate
