import AuthForge.Http.Flow

/-!
# When the code exchange answers

The exchange consumes the code before it looks at the challenge, and the constructor of a challenge
throws on every method but `S256` and `plain`. The authorization endpoint refuses other methods;
the login stores whatever it is sent. Behind the challenge there is one more constructor that
throws: where the roles come over the subject resolver, the one of the subject.
-/

namespace AuthForge.AnsweredExchange

open OAuth2 Http

/-- How often the callback was invoked when the program ended with this reply. -/
def callbacks : Reply → Nat
  | .thrown _ => 0
  | _ => 1

/-- What left the outermost callback. -/
def escaped : Reply → Option String
  | .thrown what => some what
  | _ => none

def AnsweredOnce (reply : Reply) : Prop := callbacks reply = 1 ∧ escaped reply = none

instance (reply : Reply) : Decidable (AnsweredOnce reply) := inferInstanceAs (Decidable (_ ∧ _))

/-- What the constructor of a challenge accepts, and the empty method that stands for `plain`. -/
def supportedMethods : List String := ["", "plain", "S256"]

/-- The roles come over the subject resolver. -/
def asksResolver (svc : TokenService) : Bool :=
  svc.hasRoleProvider && !svc.supportsSubjectLookup && svc.hasSubjectResolver

variable {ε σ : Type} {svc : TokenService} {exec : ε → (op : RepoCall) → σ → op.Resp × σ}
  {env : Nat → ε} {s : σ} {authCode : OAuth2AuthCode} {codeVerifier : String}

/-- The record that the repositories hand to the exchange. -/
def redeemed (svc : TokenService) (exec : ε → (op : RepoCall) → σ → op.Resp × σ) (env : Nat → ε)
    (s : σ) (r : ExchangeRequest) : Option OAuth2AuthCode :=
  let valid := exec (env 0) (.validateClient r.clientId r.clientSecret) s
  if valid.1 = true then
    (exec (env 1) (.consumeAuthCode (hashToken svc.crypto r.code) r.redirectUri) valid.2).1
  else none

/-- The clock as the exchange reads it after the challenge. -/
def clockRead (svc : TokenService) (exec : ε → (op : RepoCall) → σ → op.Resp × σ) (env : Nat → ε)
    (s : σ) (r : ExchangeRequest) : Int :=
  let valid := exec (env 0) (.validateClient r.clientId r.clientSecret) s
  let consumed :=
    exec (env 1) (.consumeAuthCode (hashToken svc.crypto r.code) r.redirectUri) valid.2
  (exec (env 2) .nowSeconds consumed.2).1

theorem answeredOnce_iff {reply : Reply} : AnsweredOnce reply ↔ ∀ what, reply ≠ .thrown what := by
  cases reply with
  | thrown what => exact iff_of_false (fun h => by cases h.1) fun h => h what rfl
  | _ => exact iff_of_true ⟨rfl, rfl⟩ fun _ h => by cases h

theorem validatePkceCodeVerifier_throws_iff {crypto : CryptoProvider}
    {codeChallenge codeChallengeMethod : String} (hchallenge : codeChallenge ≠ "") :
    (∃ what, validatePkceCodeVerifier crypto codeVerifier codeChallenge codeChallengeMethod =
      .error what) ↔ codeChallengeMethod ∉ supportedMethods := by
  unfold validatePkceCodeVerifier PkceChallenge.make supportedMethods
  by_cases hempty : codeChallengeMethod = ""
  · simp [hchallenge, hempty, Except.map]
  by_cases hvalid : codeChallengeMethod = "S256" ∨ codeChallengeMethod = "plain"
  · simp only [if_neg hempty, dif_neg hchallenge, dif_pos hvalid, Except.map]
    refine iff_of_false ?_ fun h => h (by simpa [or_comm] using .inr hvalid)
    intro h
    obtain ⟨what, h⟩ := h
    cases h
  · simp only [if_neg hempty, dif_neg hchallenge, dif_neg hvalid, Except.map]
    exact iff_of_true ⟨_, rfl⟩ (by simpa [hempty, and_comm, not_or] using hvalid)

theorem pkceFailure_thrown_iff :
    (∃ what, svc.pkceFailure authCode codeVerifier = some (.thrown what)) ↔
      authCode.codeChallenge ≠ "" ∧ codeVerifier ≠ "" ∧
        authCode.codeChallengeMethod ∉ supportedMethods := by
  unfold TokenService.pkceFailure
  by_cases hchallenge : authCode.codeChallenge = ""
  · simp [hchallenge]
  by_cases hverifier : codeVerifier = ""
  · simp [hverifier, TokenService.makeError]
  have hthrows := @validatePkceCodeVerifier_throws_iff codeVerifier svc.crypto
    authCode.codeChallenge authCode.codeChallengeMethod hchallenge
  rw [if_neg hchallenge, if_neg hverifier, ← hthrows]
  cases validatePkceCodeVerifier svc.crypto codeVerifier authCode.codeChallenge
      authCode.codeChallengeMethod with
  | ok matched => cases matched <;> simp [TokenService.makeError]
  | error what => simp [hchallenge, hverifier]

/-- Before its continuation `resolveRoles` throws on the empty subject, and on that one only where
it asks the resolver. -/
theorem answeredOnce_resolveRoles {n : Nat} {subject : String} {cb : List String → RepoProg}
    (hcb : ∀ m roles t, AnsweredOnce (Prog.eval exec env m (cb roles) t).1) :
    AnsweredOnce (Prog.eval exec env n (svc.resolveRoles subject cb) s).1 ↔
      (asksResolver svc = true → subject ≠ "") := by
  unfold TokenService.resolveRoles asksResolver
  by_cases hprovider : svc.hasRoleProvider = false
  · simp [hprovider, hcb]
  by_cases hlookup : svc.supportsSubjectLookup = true
  · simp [hprovider, hlookup, Prog.eval, hcb]
  by_cases hresolver : svc.hasSubjectResolver = false
  · simp [hprovider, hlookup, hresolver, hcb]
  rw [if_neg hprovider, if_neg hlookup, if_neg hresolver]
  by_cases hsubject : subject = ""
  · subst hsubject
    refine iff_of_false (fun h => by cases h.1) fun h => h ?_ rfl
    simp [hprovider, hlookup, hresolver]
  · refine iff_of_true ?_ fun _ => hsubject
    rw [Subject.make_of_ne hsubject]
    simp only [Prog.eval]
    split
    · exact hcb _ _ _
    · exact hcb _ _ _

/-- After the challenge only the subject can throw. -/
theorem answeredOnce_afterChallenge {n : Nat} {code clientId clientSecret redirectUri : String}
    {now : Int} (hvalid : (exec (env n) (.validateClient clientId clientSecret) s).1 = true)
    (hfound : (exec (env (n + 1)) (.consumeAuthCode (hashToken svc.crypto code) redirectUri)
      (exec (env n) (.validateClient clientId clientSecret) s).2).1 = some authCode)
    (hnow : (exec (env (n + 1 + 1)) .nowSeconds (exec (env (n + 1))
      (.consumeAuthCode (hashToken svc.crypto code) redirectUri)
      (exec (env n) (.validateClient clientId clientSecret) s).2).2).1 = now)
    (hclient : authCode.clientId = clientId) :
    AnsweredOnce (Prog.eval exec env n
      (svc.exchangeCodeForToken code clientId clientSecret redirectUri codeVerifier) s).1 ↔
      (∀ what, svc.pkceFailure authCode codeVerifier ≠ some (.thrown what)) ∧
        (svc.pkceFailure authCode codeVerifier = none → now ≤ authCode.expiresAt →
          asksResolver svc = true → authCode.userId ≠ "") := by
  simp only [TokenService.exchangeCodeForToken, Prog.eval, hvalid, Bool.true_eq_false, if_false,
    hfound, hclient, ne_eq, not_true_eq_false]
  cases hpkce : svc.pkceFailure authCode codeVerifier with
  | some reply => simp [Prog.eval, answeredOnce_iff]
  | none =>
    simp only [Prog.eval, hnow, reduceCtorEq, not_false_eq_true, implies_true, true_and,
      forall_const]
    by_cases hlive : now ≤ authCode.expiresAt
    · rw [if_neg (not_lt.mpr hlive), answeredOnce_resolveRoles]
      · simp [hlive]
      · intro m roles t
        rw [answeredOnce_iff]
        intro what
        simp only [Prog.eval]
        split <;> exact fun h => by cases h
    · rw [if_pos (not_le.mp hlive)]
      exact iff_of_true (answeredOnce_iff.mpr fun what h => by cases h) fun h => absurd h hlive

/-- The exchange invokes its callback once and lets no exception escape exactly when a code that it
redeems for its own client, with a challenge and a verifier, was stored with a supported method;
and, where it gets past the challenge and the expiry to roles that come over the subject resolver,
with a subject. -/
theorem exchange_answers_iff (svc : TokenService)
    (exec : ε → (op : RepoCall) → σ → op.Resp × σ) (env : Nat → ε) (s : σ) (r : ExchangeRequest) :
    AnsweredOnce (Prog.eval exec env 0 (svc.program (.exchange r)) s).1 ↔
      ∀ authCode, redeemed svc exec env s r = some authCode → authCode.clientId = r.clientId →
        (authCode.codeChallenge ≠ "" → r.codeVerifier ≠ "" →
          authCode.codeChallengeMethod ∈ supportedMethods) ∧
        (svc.pkceFailure authCode r.codeVerifier = none →
          clockRead svc exec env s r ≤ authCode.expiresAt → asksResolver svc = true →
          authCode.userId ≠ "") := by
  rw [TokenService.program, redeemed]
  by_cases hvalid : (exec (env 0) (.validateClient r.clientId r.clientSecret) s).1 = true
  case neg =>
    refine iff_of_true ?_ fun authCode h => by simp [hvalid] at h
    rw [answeredOnce_iff]
    intro what
    simp only [TokenService.exchangeCodeForToken, Prog.eval, Bool.eq_false_iff.mpr hvalid, if_true]
    exact fun h => by cases h
  cases hfound : (exec (env 1) (.consumeAuthCode (hashToken svc.crypto r.code) r.redirectUri)
      (exec (env 0) (.validateClient r.clientId r.clientSecret) s).2).1 with
  | none =>
    refine iff_of_true ?_ fun authCode h => by simp [hvalid] at h
    rw [answeredOnce_iff]
    intro what
    simp only [TokenService.exchangeCodeForToken, Prog.eval, hvalid, Bool.true_eq_false, if_false,
      hfound]
    exact fun h => by cases h
  | some stored =>
    simp only [hvalid, if_true, Option.some.injEq, forall_eq']
    by_cases hclient : stored.clientId = r.clientId
    · rw [answeredOnce_afterChallenge hvalid hfound rfl hclient, ← not_exists,
        pkceFailure_thrown_iff]
      simp [hclient, clockRead]
    · refine iff_of_true ?_ fun h => absurd h hclient
      rw [answeredOnce_iff]
      intro what
      simp only [TokenService.exchangeCodeForToken, Prog.eval, hvalid, Bool.true_eq_false,
        if_false, hfound, ne_eq, hclient, not_false_eq_true, if_true]
      exact fun h => by cases h

/-! ### A login with a method that no challenge has -/

/-- Alice's login, with the method `S512`. -/
def unsupportedLogin : Input :=
  let login := knownLogin 1 "alice" "correct-horse" (knownEnv 0 0)
  { login with
    req := { login.req with params := login.req.params.insert "code_challenge_method" "S512" } }

/-- The exchange of the code that this login hands out. -/
def unsupportedExchange : PendingExchange knownBackend where
  request := knownExchange 0
  env _ := { now := 60 }
  store := (executed knownConfig [unsupportedLogin]).2.store

/-- The code is consumed, the callback is never invoked and the exception escapes. -/
theorem unsupportedLogin_unanswered :
    (unsupportedExchange.consumed knownService).map (·.codeChallengeMethod) = some "S512" ∧
    (unsupportedExchange.result knownService).1 =
      .thrown "PkceChallenge: method must be 'S256' or 'plain', got 'S512'" ∧
    ¬ AnsweredOnce (unsupportedExchange.result knownService).1 := by
  decide +kernel

end AuthForge.AnsweredExchange
