import AuthForge.Http.Runs

/-!
# Codes on their way to tokens

The server together with the token endpoint: besides the requests of `handle`, a step exchanges a
code or refreshes a token. The second factor redeems its own code, so the exchange a step runs, the
id_token it signs and the pairs it saves are read off the step whichever endpoint it came to. A
ledger says what a grant repository has on record for a code.
-/

namespace AuthForge.Http

open OAuth2 Identity

variable {b : Backend}

/-! ### Exchanges -/

/-- An exchange with the store it meets. -/
structure PendingExchange (b : Backend) where
  request : ExchangeRequest
  env : Nat → Env
  store : Store b.repos

namespace PendingExchange

variable (x : PendingExchange b) (svc : TokenService)

def result : Reply × Store b.repos × List RepoCall :=
  Prog.eval Store.exec x.env 0 (svc.program (.exchange x.request)) x.store

def codeHash : String := hashToken svc.crypto x.request.code

/-- The record that the exchange consumes, if it gets that far. -/
def consumed : Option OAuth2AuthCode :=
  (b.grants.consumeAuthCode (x.env 1) (x.codeHash svc) x.request.redirectUri x.store.grants).1

/-- The claims of the id_token that the exchange answers with. -/
def claims : Option IdTokenClaims :=
  match (x.result svc).1 with
  | .tokens response =>
    if response.idToken.isSome then
      (x.consumed svc).map fun authCode => svc.codeIdTokenClaims authCode (x.env 2).now
    else none
  | _ => none

end PendingExchange

/-! ### The machine -/

inductive FlowInput
  | http (i : Input)
  | exchange (r : ExchangeRequest) (env : Nat → Env)
  | refresh (r : RefreshRequest) (env : Nat → Env)

/-- What a step did: its actions, the id_token with the hash of its code, and the saved pairs. -/
structure FlowEvent where
  log : List Action := []
  idTokens : List (String × IdTokenClaims) := []
  pairs : List (OAuth2AccessToken × OAuth2RefreshToken) := []
  deriving DecidableEq

/-- The exchange that the second factor runs with the code it has just saved. -/
def secondFactorExchange (cfg : Config) (w : World b) (req : HttpRequest) (env : RequestEnv) :
    Option (PendingExchange b) :=
  (MfaController.issuing cfg w req env).map fun v =>
    { request := MfaController.mfaExchangeRequest cfg (MfaController.verifyFields req)
        (env.generate 0).random
      env := env.exchange
      store := (MfaController.codeSaved cfg w req env v).store }

def exchangeOf (cfg : Config) (w : World b) : FlowInput → Option (PendingExchange b)
  | .http i =>
    match i.endpoint with
    | .verifyLogin => secondFactorExchange cfg w i.req i.env
    | _ => none
  | .exchange request env => some { request, env, store := w.store }
  | .refresh _ _ => none

def savedPairs (calls : List RepoCall) : List (OAuth2AccessToken × OAuth2RefreshToken) :=
  calls.filterMap fun
    | .saveTokenPair access refresh => some (access, refresh)
    | _ => none

def idTokensOf (svc : TokenService) (x : Option (PendingExchange b)) :
    List (String × IdTokenClaims) :=
  match x with
  | none => []
  | some x => (x.claims svc).toList.map fun claims => (x.codeHash svc, claims)

theorem mem_idTokensOf {svc : TokenService} {x? : Option (PendingExchange b)} {codeHash : String}
    {claims : IdTokenClaims} (h : (codeHash, claims) ∈ idTokensOf svc x?) :
    ∃ x authCode, x? = some x ∧ codeHash = x.codeHash svc ∧ x.consumed svc = some authCode ∧
      claims = svc.codeIdTokenClaims authCode (x.env 2).now := by
  unfold idTokensOf at h
  split at h
  · cases h
  · rename_i x
    obtain ⟨claims', hclaims, heq⟩ := List.mem_map.mp h
    cases heq
    rw [Option.mem_toList, PendingExchange.claims] at hclaims
    split at hclaims
    · split at hclaims
      · obtain ⟨authCode, hconsumed, rfl⟩ := Option.map_eq_some_iff.mp hclaims
        exact ⟨x, authCode, rfl, rfl, hconsumed, rfl⟩
      · cases hclaims
    · cases hclaims

def exchangePairs (svc : TokenService) (x : Option (PendingExchange b)) :
    List (OAuth2AccessToken × OAuth2RefreshToken) :=
  match x with
  | none => []
  | some x => savedPairs (x.result svc).2.2

def refreshed (svc : TokenService) (w : World b) (r : RefreshRequest) (env : Nat → Env) :
    Reply × Store b.repos × List RepoCall :=
  Prog.eval Store.exec env 0 (svc.program (.refresh r)) w.store

def flowStep (cfg : Config) (w : World b) (i : FlowInput) : World b × FlowEvent :=
  let x := exchangeOf cfg w i
  match i with
  | .http i =>
    ((handle cfg w i).world,
      { log := (handle cfg w i).log
        idTokens := idTokensOf cfg.tokenService x
        pairs := exchangePairs cfg.tokenService x })
  | .exchange request env =>
    ({ w with store := (PendingExchange.result ⟨request, env, w.store⟩ cfg.tokenService).2.1 },
      { idTokens := idTokensOf cfg.tokenService x
        pairs := exchangePairs cfg.tokenService x })
  | .refresh r env =>
    ({ w with store := (refreshed cfg.tokenService w r env).2.1 },
      { pairs := savedPairs (refreshed cfg.tokenService w r env).2.2 })

def flow (b : Backend) (cfg : Config) : Machine (World b) FlowInput FlowEvent where
  step := flowStep cfg

def logOf (history : List FlowEvent) : List Action := history.flatMap FlowEvent.log

abbrev FlowGuard (b : Backend) := List FlowEvent → World b → FlowInput → Prop

abbrev FlowRun (cfg : Config) (ok : FlowGuard b) (w₀ : World b) :
    List FlowEvent → World b → Prop :=
  (flow b cfg).Run ok w₀

variable {cfg : Config} {w w₀ : World b} {past : List FlowEvent}

theorem clients_eval {req : Request} {env : Nat → Env} {s : Store b.repos} {svc : TokenService} :
    (Prog.eval Store.exec env 0 (svc.program req) s).2.1.clients = s.clients := by
  have hstep : ∀ (e : Env) (op : RepoCall) (t : Store b.repos), t.clients = s.clients →
      (Store.exec e op t).2.clients = s.clients :=
    fun _ _ _ h => Store.exec_clients.trans h
  exact Prog.eval_invariant hstep (svc.program req) rfl

theorem Established.withStore {trace : List Action} (h : Established cfg w₀ trace w)
    {store : Store b.repos} (hclients : store.clients = w.store.clients) :
    Established cfg w₀ trace { w with store } where
  frame := h.frame.trans ⟨rfl, hclients⟩
  userId := h.userId
  validated := h.validated
  bound := h.bound
  pending := h.pending

theorem Established.flowStep (h : Established cfg w₀ (logOf past) w) (i : FlowInput) :
    Established cfg w₀ (logOf ((flowStep cfg w i).2 :: past)) (flowStep cfg w i).1 := by
  cases i with
  | http i => exact h.step i
  | exchange r env => exact h.withStore clients_eval
  | refresh r env => exact h.withStore clients_eval

/-! ### What a request puts on record -/

section Handlers

variable {i : Input} {k : String} {v : String × String}

theorem stored_saveCode (ledger : CodeLedger b.grants) {env : RequestEnv} {c : OAuth2AuthCode}
    (h : ledger.stored (w.saveCode env c).store.grants k = some v) :
    ledger.stored w.store.grants k = some v ∨ (k = c.code ∧ v = (c.userId, c.amr)) :=
  ledger.save h

/-- Codes that the log names are saved on the way from one state of the grants to another. -/
def SavedBy (R : b.grants.State → Prop) (s : b.grants.State) (log : List Action) : Prop :=
  R s ∨ ∃ sid c env t, .codeIssued sid c ∈ log ∧ R (b.grants.saveAuthCode env c t) ∧ ¬R t

theorem savedBy_saveCode {R : b.grants.State → Prop} {env : RequestEnv} {c : OAuth2AuthCode}
    {log : List Action} (sid : Nat) (hmem : .codeIssued sid c ∈ log)
    (h : R (w.saveCode env c).store.grants) : SavedBy R w.store.grants log := by
  by_cases hold : R w.store.grants
  · exact .inl hold
  · exact .inr ⟨sid, c, env.generate 2, w.store.grants, hmem, h, hold⟩

theorem onlyExchange_noSave {svc : TokenService} (r : ExchangeRequest) :
    (svc.program (.exchange r)).Only fun op => ∀ c, op ≠ .saveAuthCode c := by
  refine (TokenService.only_exchange r).imp ?_
  intro op hop c heq
  subst heq
  exact hop

theorem onlyRefresh_noSave {svc : TokenService} (r : RefreshRequest) :
    (svc.program (.refresh r)).Only fun op => ∀ c, op ≠ .saveAuthCode c := by
  refine (TokenService.only_refresh r).imp ?_
  intro op hop c heq
  subst heq
  exact hop

theorem store_exchangeIssued {sid : Nat} {env : RequestEnv} {f : MfaController.VerifyFields}
    {totp : MfaController.TotpVerified} {code : String} :
    (MfaController.exchangeIssued cfg w sid env f totp code).world.store =
      (exchangeCodeForToken cfg w env (MfaController.mfaExchangeRequest cfg f code)).2.store := by
  unfold MfaController.exchangeIssued
  split
  · rename_i response world hexchange
    rw [hexchange, MfaController.clearPending]
    split <;> rfl
  · rename_i hexchange
    rw [hexchange]
    rfl
  · rename_i hexchange
    rw [hexchange]
    rfl

/-- What holds of the grants after a request held before, or came about when one of its codes was
saved. -/
theorem handle_grants {R : b.grants.State → Prop} (hR : SavedOnly b.grants R)
    (h : R (handle cfg w i).world.store.grants) :
    SavedBy R w.store.grants (handle cfg w i).log := by
  unfold handle at h ⊢
  cases hendpoint : i.endpoint with
  | login =>
    simp only [hendpoint] at h ⊢
    generalize ho : SessionController.login cfg w i.req i.env = o at h ⊢
    have hcase : SessionController.LoginCase cfg w i.req i.env o :=
      ho ▸ SessionController.login_cases
    cases hcase with
    | refused => exact .inl h
    | stopped => exact .inl h
    | bound => exact .inl h
    | issued => exact savedBy_saveCode _ List.mem_cons_self h
  | authorize =>
    simp only [hendpoint] at h ⊢
    generalize ho : AuthorizationEndpoint.authorize cfg w i.req i.env = o at h ⊢
    have hcase : AuthorizationEndpoint.AuthorizeCase cfg w i.req i.env o :=
      ho ▸ AuthorizationEndpoint.authorize_cases
    cases hcase with
    | answered => exact .inl h
    | issued => exact savedBy_saveCode _ List.mem_cons_self h
  | consent =>
    simp only [hendpoint] at h ⊢
    generalize ho : SessionController.consent cfg w i.req i.env = o at h ⊢
    have hcase : SessionController.ConsentCase cfg w i.req i.env o :=
      ho ▸ SessionController.consent_cases
    cases hcase with
    | denied => exact .inl h
    | failed => exact .inl h
    | issued => exact savedBy_saveCode _ List.mem_cons_self h
  | verifyLogin =>
    simp only [hendpoint] at h ⊢
    cases hissuing : MfaController.issuing cfg w i.req i.env with
    | none =>
      rw [(MfaController.verifyLogin_of_not_issuing hissuing).1] at h
      exact .inl h
    | some totp =>
      rw [MfaController.verifyLogin_of_issuing hissuing] at h ⊢
      have h' : R (exchangeCodeForToken cfg (MfaController.codeSaved cfg w i.req i.env totp) i.env
          (MfaController.mfaExchangeRequest cfg (MfaController.verifyFields i.req)
            (i.env.generate 0).random)).2.store.grants := by
        rw [← store_exchangeIssued]
        exact h
      have hsaved : R (MfaController.codeSaved cfg w i.req i.env totp).store.grants :=
        (show SavedOnly b.repos.grants R from hR).eval (onlyExchange_noSave _) h'
      refine savedBy_saveCode i.req.session ?_ hsaved
      simp [Outcome.after]
  | deviceAuthorization =>
    simp only [hendpoint] at h ⊢
    generalize ho : DeviceGrant.deviceAuthorization cfg w i.req i.env = o at h ⊢
    have hcase : DeviceGrant.DeviceAuthorizationCase w i.req i.env o :=
      ho ▸ DeviceGrant.deviceAuthorization_cases
    cases hcase <;> exact .inl h
  | approveDevice =>
    simp only [hendpoint] at h ⊢
    generalize ho : DeviceGrant.approveDevice w i.req i.env = o at h ⊢
    have hcase : DeviceGrant.ApproveCase w i.req o := ho ▸ DeviceGrant.approveDevice_cases
    cases hcase <;> exact .inl h
  | deviceToken =>
    simp only [hendpoint] at h ⊢
    generalize ho : DeviceGrant.deviceToken cfg w i.req i.env = o at h ⊢
    have hcase : DeviceGrant.PollCase cfg w i.env o := ho ▸ DeviceGrant.deviceToken_cases
    cases hcase <;> exact .inl h

/-- What is on record after a request was there before, or belongs to a code it issued. -/
theorem handle_ledger (ledger : CodeLedger b.grants)
    (h : ledger.stored (handle cfg w i).world.store.grants k = some v) :
    ledger.stored w.store.grants k = some v ∨
      ∃ sid c, .codeIssued sid c ∈ (handle cfg w i).log ∧ k = c.code ∧ v = (c.userId, c.amr) := by
  rcases handle_grants (ledger.savedOnly k v) h with hold | ⟨sid, c, _, _, hmem, hnew, hnot⟩
  · exact .inl hold
  · exact .inr ⟨sid, c, hmem, (ledger.save hnew).resolve_left hnot⟩

end Handlers

/-! ### Flows of the known deployment -/

def flowExecuted (cfg : Config) (w : World knownBackend) (inputs : List FlowInput) :
    List FlowEvent × World knownBackend :=
  (flow knownBackend cfg).exec [] w inputs

theorem flowRun_executed (cfg : Config) (w : World knownBackend) (inputs : List FlowInput) :
    FlowRun cfg anyStep w (flowExecuted cfg w inputs).1 (flowExecuted cfg w inputs).2 :=
  Machine.run_exec _ _ _

theorem flowRun_of_guarded {cfg : Config} {ok : FlowGuard knownBackend} {w : World knownBackend}
    {inputs : List FlowInput} (h : (flow knownBackend cfg).Guarded ok [] w inputs) :
    FlowRun cfg ok w (flowExecuted cfg w inputs).1 (flowExecuted cfg w inputs).2 :=
  Machine.Run.exec_of_guarded .init inputs h

def knownExchange (token : Nat) : ExchangeRequest where
  code := knownToken token
  clientId := "spa"
  redirectUri := "https://spa.example.com/callback"
  codeVerifier := knownVerifier

end AuthForge.Http
