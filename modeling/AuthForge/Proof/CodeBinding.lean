import AuthForge.OAuth2.Trace
import AuthForge.Storage.Memory

/-!
# Single use and binding of authorization codes

Code requests, exchanges, refreshes and sweeps run interleaved over the in-memory grant store;
clients and tokens may be stored anywhere. Two facts carry the result. A code that some exchange
consumed is marked used or swept for good, because no later code request can save under the same
hash. And an exchange reaches its save only behind its own successful consumption, so the checks
of the exchange speak about the record that was saved when the code was issued.
-/

namespace AuthForge.CodeBinding

open OAuth2 Service Storage

variable {svc : TokenService} {clients : ClientRepository} {tokens : TokenRepository}

abbrev memoryGrants (clients : ClientRepository) (tokens : TokenRepository) : Repositories :=
  ⟨clients, Memory.grantRepository, tokens⟩

def noCodes (cs : clients.State) (ts : tokens.State) : Store (memoryGrants clients tokens) :=
  ⟨cs, (∅ : Memory.AuthCodes), ts⟩

def codeDrawn : RepoEvent → Option String
  | .called _ (.generate _) _ ⟨.generateSecureToken _, v⟩ => some v
  | _ => none

/-- The generated codes and their hashes never repeat. -/
def CodesFresh (svc : TokenService) (history : List RepoEvent) : Prop :=
  (history.filterMap fun e => (codeDrawn e).map (hashToken svc.crypto)).Nodup

def Saved (history : List RepoEvent) (c : OAuth2AuthCode) : Prop :=
  ∃ tid r env, Event.called tid (.generate r) env ⟨.saveAuthCode c, ()⟩ ∈ history

def Consumes (key : String) (e : RepoEvent) : Prop :=
  ∃ tid req env uri c, e = .called tid req env ⟨.consumeAuthCode key uri, some c⟩

/-- What the history says about the stored codes. -/
structure CodeInv (history : List RepoEvent) (authCodes : Memory.AuthCodes) : Prop where
  stored : ∀ {key c}, authCodes.lookup key = some c →
    ∃ c₀, Saved history c₀ ∧ c₀.code = key ∧ c = { c₀ with used := c.used }
  consumed : ∀ {tid req env key uri c},
    Event.called tid req env ⟨.consumeAuthCode key uri, some c⟩ ∈ history →
    ∃ c₀, Saved history c₀ ∧ c₀.code = key ∧ c = { c₀ with used := true } ∧
      (c₀.redirectUri ≠ "" → uri = c₀.redirectUri)
  dead : ∀ {key e}, e ∈ history → Consumes key e → ∀ {c}, authCodes.lookup key = some c →
    c.used = true
  once : history.Pairwise fun e e' => ∀ key, Consumes key e → ¬Consumes key e'

theorem Saved.cons {history : List RepoEvent} {c : OAuth2AuthCode} (h : Saved history c)
    (e : RepoEvent) : Saved (e :: history) c := by
  obtain ⟨tid, r, env, hmem⟩ := h
  exact ⟨tid, r, env, List.mem_cons_of_mem e hmem⟩

theorem CodeInv.frame {history : List RepoEvent} {authCodes : Memory.AuthCodes} {e : RepoEvent}
    (h : CodeInv history authCodes) (hno : ∀ key, ¬Consumes key e) :
    CodeInv (e :: history) authCodes where
  stored hlookup := by
    obtain ⟨c₀, hsaved, hkey, hc⟩ := h.stored hlookup
    exact ⟨c₀, hsaved.cons e, hkey, hc⟩
  consumed hmem := by
    rcases List.mem_cons.mp hmem with rfl | hmem
    · exact absurd ⟨_, _, _, _, _, rfl⟩ (hno _)
    · obtain ⟨c₀, hsaved, hrest⟩ := h.consumed hmem
      exact ⟨c₀, hsaved.cons e, hrest⟩
  dead hmem hcons := by
    rcases List.mem_cons.mp hmem with rfl | hmem
    · exact absurd hcons (hno _)
    · exact h.dead hmem hcons
  once := List.pairwise_cons.mpr ⟨fun _ _ key hcons => absurd hcons (hno key), h.once⟩

theorem CodeInv.purge {history : List RepoEvent} {authCodes : Memory.AuthCodes}
    (h : CodeInv history authCodes) (now : Int) :
    CodeInv history (Memory.purgeExpiredCodes now authCodes) where
  stored hlookup := by
    rw [Memory.purgeExpiredCodes, Dict.lookup_keepValues, Option.filter_eq_some_iff] at hlookup
    exact h.stored hlookup.1
  consumed := h.consumed
  dead hmem hcons := by
    intro c hlookup
    rw [Memory.purgeExpiredCodes, Dict.lookup_keepValues, Option.filter_eq_some_iff] at hlookup
    exact h.dead hmem hcons hlookup.1
  once := h.once

theorem CodeInv.consume {history : List RepoEvent} {authCodes : Memory.AuthCodes}
    (h : CodeInv history authCodes) (tid : Nat) (req : Request) (env : Env) (key uri : String) :
    CodeInv
      (.called tid req env
        ⟨.consumeAuthCode key uri, (Memory.consumeAuthCode key uri authCodes).1⟩ :: history)
      (Memory.consumeAuthCode key uri authCodes).2 := by
  cases hres : (Memory.consumeAuthCode key uri authCodes).1 with
  | none =>
    rw [Memory.consumeAuthCode_eq_none hres]
    refine h.frame ?_
    intro key' h
    obtain ⟨tid', req', env', uri', c', heq⟩ := h
    cases heq
  | some c =>
    obtain ⟨it, hlookup, hunused, huri, hc, hcodes⟩ := Memory.consumeAuthCode_eq_some hres
    obtain ⟨c₀, hsaved, hkey, hit⟩ := h.stored hlookup
    have hc₀ : c = { c₀ with used := true } := by rw [hc, hit]
    have huri₀ : it.redirectUri = c₀.redirectUri := by rw [hit]
    have hfirst : ∀ e' ∈ history, ¬Consumes key e' := by
      intro e' hmem hcons
      have := h.dead hmem hcons hlookup
      rw [hunused] at this
      cases this
    rw [hcodes]
    refine ⟨?_, ?_, ?_, ?_⟩
    · intro key' c' hlookup'
      by_cases heq : key' = key
      · subst heq
        rw [AList.lookup_insert] at hlookup'
        obtain rfl := Option.some.inj hlookup'
        exact ⟨c₀, hsaved.cons _, hkey, by rw [hc₀]⟩
      · rw [AList.lookup_insert_ne heq] at hlookup'
        obtain ⟨c₁, hsaved₁, hrest⟩ := h.stored hlookup'
        exact ⟨c₁, hsaved₁.cons _, hrest⟩
    · intro tid' req' env' key' uri' c' hmem
      rcases List.mem_cons.mp hmem with heq | hmem
      · cases heq
        exact ⟨c₀, hsaved.cons _, hkey, hc₀, huri₀ ▸ huri⟩
      · obtain ⟨c₁, hsaved₁, hrest⟩ := h.consumed hmem
        exact ⟨c₁, hsaved₁.cons _, hrest⟩
    · intro key' e' hmem hcons c' hlookup'
      by_cases heq : key' = key
      · subst heq
        rw [AList.lookup_insert] at hlookup'
        obtain rfl := Option.some.inj hlookup'
        rw [hc₀]
      · rw [AList.lookup_insert_ne heq] at hlookup'
        rcases List.mem_cons.mp hmem with rfl | hmem
        · obtain ⟨_, _, _, _, _, hcall⟩ := hcons
          cases hcall
          exact absurd rfl heq
        · exact h.dead hmem hcons hlookup'
    · refine List.pairwise_cons.mpr ⟨?_, h.once⟩
      intro e' hmem key' h
      obtain ⟨_, _, _, _, _, hcall⟩ := h
      cases hcall
      exact hfirst e' hmem

theorem CodeInv.save {history : List RepoEvent} {authCodes : Memory.AuthCodes}
    (h : CodeInv history authCodes) (tid : Nat) (r : CodeRequest) (env : Env)
    {c : OAuth2AuthCode} (hfresh : ∀ e ∈ history, ¬Consumes c.code e) :
    CodeInv (.called tid (.generate r) env ⟨.saveAuthCode c, ()⟩ :: history)
      (Memory.saveAuthCode c authCodes) := by
  have hno : ∀ key, ¬Consumes key
      (.called tid (.generate r) env ⟨.saveAuthCode c, ()⟩ : RepoEvent) := by
    intro key h
    obtain ⟨_, _, _, _, _, heq⟩ := h
    cases heq
  have hframe := h.frame hno
  refine ⟨?_, hframe.consumed, ?_, hframe.once⟩
  · intro key c' hlookup
    by_cases heq : key = c.code
    · subst heq
      rw [Memory.saveAuthCode, AList.lookup_insert] at hlookup
      obtain rfl := Option.some.inj hlookup
      exact ⟨c, ⟨tid, r, env, List.mem_cons_self⟩, rfl, rfl⟩
    · rw [Memory.saveAuthCode, AList.lookup_insert_ne heq] at hlookup
      exact hframe.stored hlookup
  · intro key e hmem hcons c' hlookup
    by_cases heq : key = c.code
    · subst heq
      rcases List.mem_cons.mp hmem with rfl | hmem
      · exact absurd hcons (hno _)
      · exact absurd hcons (hfresh e hmem)
    · rw [Memory.saveAuthCode, AList.lookup_insert_ne heq] at hlookup
      exact hframe.dead hmem hcons hlookup

/-! ### The invariant along a run -/

variable {cs : clients.State} {ts : tokens.State} {history : List RepoEvent}
  {p : Pool (svc.over (memoryGrants clients tokens))}

theorem drawn_of_saved (hrun : svc.Interleaving (noCodes cs ts) history p) {tid : Nat}
    {r : CodeRequest} {env : Env} {c : OAuth2AuthCode}
    (hmem : Event.called tid (.generate r) env ⟨.saveAuthCode c, ()⟩ ∈ history) :
    ∃ code now env', c = svc.authCodeOf r code now ∧
      Event.called tid (.generate r) env' ⟨.generateSecureToken 32, code⟩ ∈ history := by
  obtain ⟨post, past, rfl⟩ := List.append_of_mem hmem
  obtain ⟨k, hreached⟩ := TokenService.reached_of_event hrun
  obtain ⟨r', code, now, hreq, hanswers, hc⟩ := TokenService.saveAuthCode_of_reached hreached
  obtain rfl := Request.generate.inj hreq
  have hdraw : (⟨.generateSecureToken 32, code⟩ : RepoAnswer) ∈ answersOf tid past := by
    rw [hanswers]
    simp
  obtain ⟨req, env', hmem'⟩ := mem_answersOf.mp hdraw
  have hmem'' : Event.called tid req env' ⟨.generateSecureToken 32, code⟩ ∈
      post ++ Event.called tid (.generate r) env ⟨.saveAuthCode c, ()⟩ :: past :=
    List.mem_append_right _ (List.mem_cons_of_mem _ hmem')
  obtain rfl := request_unique hrun hmem hmem''
  exact ⟨code, now, env', hc, hmem''⟩

/-- A request that is about to save a code saves under a key that was never consumed. -/
theorem save_unconsumed (hrun : svc.Interleaving (noCodes cs ts) history p)
    (hfresh : CodesFresh svc history) (hinv : CodeInv history p.shared.grants)
    {tid : Nat} {t : Thread (svc.over (memoryGrants clients tokens))}
    (ht : p.threads[tid]? = some t) {r : CodeRequest} {code : String} {now : Int}
    (hreq : t.request = .generate r)
    (hanswers : t.answers = [⟨.generateSecureToken 32, code⟩, ⟨.nowSeconds, now⟩]) :
    ∀ e ∈ history, ¬Consumes (svc.authCodeOf r code now).code e := by
  intro e hmem h
  obtain ⟨tid', req', env', uri, c, rfl⟩ := h
  obtain ⟨c₀, ⟨gtid, r₀, genv, hsaved⟩, hkey, -⟩ := hinv.consumed hmem
  obtain ⟨code₀, now₀, denv₀, rfl, hdrawn₀⟩ := drawn_of_saved hrun hsaved
  have hdesc := described_of_run hrun
  rw [hdesc.answers ht] at hanswers
  have hdraw : (⟨.generateSecureToken 32, code⟩ : RepoAnswer) ∈ answersOf tid history := by
    rw [hanswers]
    simp
  obtain ⟨req, denv, hdrawn⟩ := mem_answersOf.mp hdraw
  obtain rfl : req = .generate r := (hdesc.request ht hdrawn).trans hreq
  -- the two draws have one hash, so they are one event of one request
  have hsame := eq_of_nodup_filterMap hfresh hdrawn₀ hdrawn rfl (by
    change some (hashToken svc.crypto code) = some (hashToken svc.crypto code₀)
    exact congrArg some hkey.symm)
  cases hsame
  have hagain : (⟨.saveAuthCode (svc.authCodeOf r code now₀), ()⟩ : RepoAnswer) ∈
      answersOf tid history := mem_answersOf.mpr ⟨_, _, hsaved⟩
  rw [hanswers] at hagain
  simp at hagain

theorem codesFresh_of_sublist {history' : List RepoEvent} (h : CodesFresh svc history)
    (hsub : history'.Sublist history) : CodesFresh svc history' :=
  h.sublist (hsub.filterMap _)

theorem codeInv_of_run (hrun : svc.Interleaving (noCodes cs ts) history p)
    (hfresh : CodesFresh svc history) : CodeInv history p.shared.grants := by
  revert hfresh
  refine Machine.Run.invariant (fun h q => CodesFresh svc h → CodeInv h q.shared.grants) ?_ ?_ hrun
  · intro _
    refine ⟨?_, ?_, ?_, List.Pairwise.nil⟩
    · intro key c hlookup
      cases hlookup
    · intro tid req env key uri c hmem
      cases hmem
    · intro key e hmem
      cases hmem
  · intro h q i hq ih _ hfresh
    have hfresh' := codesFresh_of_sublist hfresh (List.sublist_cons_self _ _)
    have hinv := ih hfresh'
    change CodeInv ((Service.step _ q i).2 :: h) (Service.step _ q i).1.shared.grants
    rcases step_cases q i with ⟨request, -, hs⟩ | ⟨tid, env, t, op, k, hrest, -, ht, hs⟩ | hs
    · rw [hs]
      refine hinv.frame ?_
      intro key h
      obtain ⟨_, _, _, _, _, heq⟩ := h
      cases heq
    · rw [hs]
      have hreached := TokenService.reached_of_thread t hrest
      cases op with
      | saveAuthCode c =>
        obtain ⟨r, code, now, hreq, hanswers, rfl⟩ :=
          TokenService.saveAuthCode_of_reached hreached
        rw [hreq]
        exact hinv.save tid r env
          (save_unconsumed hq hfresh' hinv ht hreq hanswers)
      | consumeAuthCode key uri => exact hinv.consume tid t.request env key uri
      | purgeExpired =>
        refine (hinv.purge env.now).frame ?_
        intro key h
        obtain ⟨_, _, _, _, _, heq⟩ := h
        cases heq
      | _ =>
        refine hinv.frame ?_
        intro key h
        obtain ⟨_, _, _, _, _, heq⟩ := h
        cases heq
    · rw [hs]
      refine hinv.frame ?_
      intro key h
      obtain ⟨_, _, _, _, _, heq⟩ := h
      cases heq

/-! ### Every saved pair -/

/-- The event saves a pair on behalf of the code stored under `key`. -/
def SavesFor (svc : TokenService) (key : String) (e : RepoEvent) : Prop :=
  ∃ tid r env access refresh ok,
    e = .called tid (.exchange r) env ⟨.saveTokenPair access refresh, ok⟩ ∧
      hashToken svc.crypto r.code = key

/-- The pair that request `tid` saves for the exchange `r` is bound to the record `c`. -/
structure Bound (svc : TokenService) (past : List RepoEvent) (tid : Nat) (r : ExchangeRequest)
    (access : OAuth2AccessToken) (refresh : OAuth2RefreshToken) (c : OAuth2AuthCode) : Prop where
  issued : Saved past c
  presented : c.code = hashToken svc.crypto r.code
  authenticated : ∃ env, Event.called tid (.exchange r) env
    ⟨.validateClient r.clientId r.clientSecret, true⟩ ∈ past
  client : r.clientId = c.clientId
  redirectUri : c.redirectUri ≠ "" → r.redirectUri = c.redirectUri
  verifier : c.codeChallenge ≠ "" →
    MatchesChallenge svc.crypto r.codeVerifier c.codeChallenge c.codeChallengeMethod
  inTime : ∃ env now, Event.called tid (.exchange r) env ⟨.nowSeconds, now⟩ ∈ past ∧
    now ≤ c.expiresAt
  userId : access.userId = c.userId ∧ refresh.userId = c.userId
  scope : access.scope = c.scope ∧ refresh.scope = c.scope

theorem event_of_answer {tid : Nat} {req : Request} {env : Env} {a b : RepoAnswer}
    {post past : List RepoEvent}
    (hrun : svc.Interleaving (noCodes cs ts) (post ++ .called tid req env b :: past) p)
    (ha : a ∈ answersOf tid past) : ∃ env', Event.called tid req env' a ∈ past := by
  obtain ⟨req', env', hmem⟩ := mem_answersOf.mp ha
  have hunique : req = req' := request_unique hrun
    (List.mem_append_right post List.mem_cons_self)
    (List.mem_append_right post (List.mem_cons_of_mem _ hmem))
  exact ⟨env', hunique ▸ hmem⟩

theorem saving_exchange {post past : List RepoEvent} {tid : Nat} {r : ExchangeRequest} {env : Env}
    {access : OAuth2AccessToken} {refresh : OAuth2RefreshToken} {ok : Bool}
    (hrun : svc.Interleaving (noCodes cs ts)
      (post ++ .called tid (.exchange r) env ⟨.saveTokenPair access refresh, ok⟩ :: past) p) :
    ∃ authCode now roles tokenStr refreshTokenStr familyId,
      TokenService.ExchangeChecked svc r (answersOf tid past) access refresh authCode now roles
        tokenStr refreshTokenStr familyId := by
  obtain ⟨k, hreached⟩ := TokenService.reached_of_event hrun
  exact TokenService.exchange_saving hreached

theorem consumes_of_saving {post past : List RepoEvent} {tid : Nat} {r : ExchangeRequest}
    {env : Env} {access : OAuth2AccessToken} {refresh : OAuth2RefreshToken} {ok : Bool}
    (hrun : svc.Interleaving (noCodes cs ts)
      (post ++ .called tid (.exchange r) env ⟨.saveTokenPair access refresh, ok⟩ :: past) p) :
    ∃ env' c, Event.called tid (.exchange r) env'
      ⟨.consumeAuthCode (hashToken svc.crypto r.code) r.redirectUri, some c⟩ ∈ past := by
  obtain ⟨authCode, now, roles, tokenStr, refreshTokenStr, familyId, hchecked⟩ :=
    saving_exchange hrun
  have hanswer : (⟨.consumeAuthCode (hashToken svc.crypto r.code) r.redirectUri,
      some authCode⟩ : RepoAnswer) ∈ answersOf tid past := by
    obtain ⟨asked, -, hanswers⟩ := hchecked.answers_eq
    rw [hanswers]
    simp
  obtain ⟨env', hmem⟩ := event_of_answer hrun hanswer
  exact ⟨env', authCode, hmem⟩

theorem bound_of_saving {post past : List RepoEvent} {tid : Nat} {r : ExchangeRequest} {env : Env}
    {access : OAuth2AccessToken} {refresh : OAuth2RefreshToken} {ok : Bool}
    (hrun : svc.Interleaving (noCodes cs ts)
      (post ++ .called tid (.exchange r) env ⟨.saveTokenPair access refresh, ok⟩ :: past) p)
    {q : Pool (svc.over (memoryGrants clients tokens))} (hinv : CodeInv past q.shared.grants) :
    ∃ c, Bound svc past tid r access refresh c := by
  obtain ⟨authCode, now, roles, tokenStr, refreshTokenStr, familyId, hchecked⟩ :=
    saving_exchange hrun
  have hevent : ∀ a ∈ answersOf tid past, ∃ env', Event.called tid (.exchange r) env' a ∈ past :=
    fun a ha => event_of_answer hrun ha
  obtain ⟨asked, -, hanswers⟩ := hchecked.answers_eq
  rw [hanswers] at hevent
  obtain ⟨cenv, hconsume⟩ := hevent
    ⟨.consumeAuthCode (hashToken svc.crypto r.code) r.redirectUri, some authCode⟩ (by simp)
  obtain ⟨c, hsaved, hkey, rfl, huri⟩ := hinv.consumed hconsume
  have hverifier := TokenService.pkceFailure_eq_none_iff.mp hchecked.pkce
  obtain ⟨nenv, hnow⟩ := hevent ⟨.nowSeconds, now⟩ (by simp)
  refine ⟨c, ?_⟩
  rw [hchecked.access_eq, hchecked.refresh_eq]
  exact
    { issued := hsaved
      presented := hkey
      authenticated := hevent ⟨.validateClient r.clientId r.clientSecret, true⟩ (by simp)
      client := hchecked.client.symm
      redirectUri := huri
      verifier := hverifier
      inTime := ⟨nenv, now, hnow, hchecked.live⟩
      userId := ⟨rfl, rfl⟩
      scope := ⟨rfl, rfl⟩ }

/-- The event, if it saves the pair of an exchange, is the first one for the presented code and
the pair is bound to a record issued before. -/
def OnceAndBound (svc : TokenService) (past : List RepoEvent) (e : RepoEvent) : Prop :=
  ∀ tid r env access refresh ok,
    e = .called tid (.exchange r) env ⟨.saveTokenPair access refresh, ok⟩ →
    (∀ e' ∈ past, ¬SavesFor svc (hashToken svc.crypto r.code) e') ∧
    ∃ c, Bound svc past tid r access refresh c

/-- Whatever the interleaving, a pair is saved for an authorization code at most once, and only
for the authenticated client, redirect URI, verifier and lifetime recorded with the code, with the
code's user and scope. -/
theorem saved_once_and_bound (hrun : svc.Interleaving (noCodes cs ts) history p)
    (hfresh : CodesFresh svc history) :
    Always (OnceAndBound svc) history := by
  refine always_of_split ?_
  intro post e past heq tid r env access refresh ok heq'
  obtain rfl := heq
  obtain rfl := heq'
  obtain ⟨q, hq⟩ := hrun.before
  have hsub : past.Sublist (post ++ Event.called tid (.exchange r) env
      ⟨.saveTokenPair access refresh, ok⟩ :: past) :=
    (List.sublist_cons_self _ past).trans (List.sublist_append_right post _)
  have hinvPast := codeInv_of_run hq (codesFresh_of_sublist hfresh hsub)
  refine ⟨?_, bound_of_saving hrun hinvPast⟩
  obtain ⟨cenv, c, hconsume⟩ := consumes_of_saving hrun
  intro _ hmem h
  obtain ⟨tid', r', env', access', refresh', ok', rfl, hkey⟩ := h
  by_cases htid : tid' = tid
  · subst htid
    exact TokenService.not_saved_before hrun _ _ _ _ _ hmem
  · -- two exchanges, each with its own successful consumption of one key
    obtain ⟨post', past', rfl⟩ := List.append_of_mem hmem
    obtain ⟨cenv', c', hconsume'⟩ := consumes_of_saving hq
    rw [hkey] at hconsume'
    have hmem' : Event.called tid' (.exchange r') cenv'
        ⟨.consumeAuthCode (hashToken svc.crypto r.code) r'.redirectUri, some c'⟩ ∈
        post' ++ Event.called tid' (.exchange r') env' ⟨.saveTokenPair access' refresh', ok'⟩ ::
          past' := List.mem_append_right _ (List.mem_cons_of_mem _ hconsume')
    refine pairwise_forall_of_symm ?_ hinvPast.once hconsume hmem' ?_ _
      ⟨_, _, _, _, _, rfl⟩ ⟨_, _, _, _, _, rfl⟩
    · intro x y hxy key hy hx
      exact hxy key hx hy
    · intro heq
      cases heq
      exact htid rfl

def sampleExchange : List RepoEvent × Pool
    (knownService.over (memoryGrants Memory.clientRepository Memory.tokenRepository)) :=
  let client : OAuth2Client :=
    { clientId := "spa", clientType := .PUBLIC, clientSecretHash := "", salt := ""
      redirectUris := ["https://spa.example.com/callback"], allowedScopes := ["openid"] }
  Machine.exec (Service.machine _) []
    (Service.start _ (noCodes (AList.insert "spa" client ∅) Memory.Tokens.empty))
    [.start (.generate
      { clientId := "spa", subject := "1", scope := "openid"
        redirectUri := "https://spa.example.com/callback"
        codeChallenge := knownChallenge, codeChallengeMethod := "S256" }),
     .advance 0 { random := knownToken 0 }, .advance 0 { now := 1000 }, .advance 0 {},
     .start (.exchange
      { code := knownToken 0, clientId := "spa"
        redirectUri := "https://spa.example.com/callback", codeVerifier := knownVerifier }),
     .advance 1 {}, .advance 1 {}, .advance 1 { now := 1010 }, .advance 1 {},
     .advance 1 { random := knownToken 1 }, .advance 1 { random := knownToken 2 },
     .advance 1 { random := knownFamily }, .advance 1 { now := 1010 }]

theorem saved_once_and_bound_sample :
    CodesFresh knownService sampleExchange.1 ∧
    sampleExchange.2.shared.tokens.refreshTokens.entries.length = 1 ∧
    Always (OnceAndBound knownService) sampleExchange.1 := by
  have hrun : (sampleExchange.1.filterMap fun e =>
        (codeDrawn e).map (hashToken knownService.crypto)).Nodup ∧
      sampleExchange.2.shared.tokens.refreshTokens.entries.length = 1 := by
    decide +kernel
  exact ⟨hrun.1, hrun.2, saved_once_and_bound (Machine.run_exec _ _ _) hrun.1⟩

end AuthForge.CodeBinding
