import AuthForge.OAuth2.Trace
import AuthForge.Storage.Memory
import AuthForge.Storage.Redis

/-!
# PKCE and redirect binding in the grant stores

A code is saved with a challenge and a redirect URI; later, after any calls by anyone, an exchange
presents it. With the in-memory store a pair is issued only for a matching verifier and the same
redirect URI. The Redis store does not write the challenge, and its script compares the redirect
URI only when one is presented, so there an otherwise redeemable code is redeemed regardless.
-/

namespace AuthForge.RedisBinding

open OAuth2 Storage

variable {svc : TokenService} {clients : ClientRepository} {tokens : TokenRepository}

abbrev redisGrants (clients : ClientRepository) (tokens : TokenRepository) : Repositories :=
  ⟨clients, Redis.grantRepository, tokens⟩

abbrev memoryGrants (clients : ClientRepository) (tokens : TokenRepository) : Repositories :=
  ⟨clients, Memory.grantRepository, tokens⟩

/-- The exchange presents what was recorded with the code. -/
def Agrees (svc : TokenService) (c : OAuth2AuthCode) (r : ExchangeRequest) : Prop :=
  (c.codeChallenge ≠ "" →
    MatchesChallenge svc.crypto r.codeVerifier c.codeChallenge c.codeChallengeMethod) ∧
  (c.redirectUri ≠ "" → r.redirectUri = c.redirectUri)

/-- The store in which an exchange finds the code: the record was saved, then calls were made. -/
def afterSave {repos : Repositories} (s : Store repos) (env : Env) (c : OAuth2AuthCode)
    (calls : List (Env × RepoCall)) : Store repos :=
  (Store.exec env (.saveAuthCode c) s).2.execAll calls

/-! ### The in-memory store -/

def MemoryKeeps (c : OAuth2AuthCode) (authCodes : Memory.AuthCodes) : Prop :=
  ∀ it, authCodes.lookup c.code = some it → ∃ b, it = { c with used := b }

theorem MemoryKeeps.save {c c' : OAuth2AuthCode} {authCodes : Memory.AuthCodes}
    (h : MemoryKeeps c authCodes) (hother : c'.code ≠ c.code) :
    MemoryKeeps c (Memory.saveAuthCode c' authCodes) := by
  intro it hlookup
  rw [Memory.saveAuthCode, AList.lookup_insert_ne hother.symm] at hlookup
  exact h it hlookup

theorem MemoryKeeps.consume {c : OAuth2AuthCode} {authCodes : Memory.AuthCodes}
    (h : MemoryKeeps c authCodes) (key uri : String) :
    MemoryKeeps c (Memory.consumeAuthCode key uri authCodes).2 := by
  intro it hlookup
  cases hres : (Memory.consumeAuthCode key uri authCodes).1 with
  | none =>
    rw [Memory.consumeAuthCode_eq_none hres] at hlookup
    exact h it hlookup
  | some c' =>
    obtain ⟨it', hlookup', -, -, hc', hcodes⟩ := Memory.consumeAuthCode_eq_some hres
    rw [hcodes] at hlookup
    by_cases hkey : c.code = key
    · subst hkey
      rw [AList.lookup_insert] at hlookup
      obtain ⟨b, rfl⟩ := h it' hlookup'
      exact ⟨true, by rw [← Option.some.inj hlookup, hc']⟩
    · rw [AList.lookup_insert_ne hkey] at hlookup
      exact h it hlookup

theorem MemoryKeeps.purge {c : OAuth2AuthCode} {authCodes : Memory.AuthCodes}
    (h : MemoryKeeps c authCodes) (now : Int) :
    MemoryKeeps c (Memory.purgeExpiredCodes now authCodes) := by
  intro it hlookup
  rw [Memory.purgeExpiredCodes, Dict.lookup_keepValues, Option.filter_eq_some_iff] at hlookup
  exact h it hlookup.1

theorem memoryKeeps_exec {c : OAuth2AuthCode} {env : Env} {op : RepoCall}
    (hother : ∀ c', op = .saveAuthCode c' → c'.code ≠ c.code)
    {s : Store (memoryGrants clients tokens)} (h : MemoryKeeps c s.grants) :
    MemoryKeeps c (Store.exec env op s).2.grants := by
  cases op with
  | saveAuthCode c' => exact h.save (hother c' rfl)
  | consumeAuthCode key uri => exact h.consume key uri
  | purgeExpired => exact h.purge env.now
  | _ => exact h

theorem memoryKeeps_saved (c : OAuth2AuthCode) (authCodes : Memory.AuthCodes) :
    MemoryKeeps c (Memory.saveAuthCode c authCodes) := by
  intro it hlookup
  rw [Memory.saveAuthCode, AList.lookup_insert] at hlookup
  exact ⟨c.used, (Option.some.inj hlookup).symm⟩

/-- With the in-memory store an exchange that is given a pair agrees with the record. -/
theorem memory_agrees {c : OAuth2AuthCode} {s₀ : Store (memoryGrants clients tokens)} {env₀ : Env}
    {calls : List (Env × RepoCall)} {env : Nat → Env} {r : ExchangeRequest}
    (hcode : hashToken svc.crypto r.code = c.code)
    (hother : ∀ call ∈ calls, ∀ c', call.2 = .saveAuthCode c' → c'.code ≠ c.code)
    (hissues : TokenService.ExchangeIssues svc env r (afterSave s₀ env₀ c calls)) :
    Agrees svc c r := by
  have hkeeps : MemoryKeeps c (afterSave s₀ env₀ c calls).grants := by
    refine Store.execAll_invariant (P := fun s : Store (memoryGrants clients tokens) =>
      MemoryKeeps c s.grants) ?_ ?_
    · exact fun call hcall s h => memoryKeeps_exec (hother call hcall) h
    · exact memoryKeeps_saved c s₀.grants
  obtain ⟨-, authCode, hconsume, -, hpkce, -⟩ := TokenService.exchangeIssues_iff.mp hissues
  rw [hcode] at hconsume
  obtain ⟨it, hlookup, -, huri, rfl, -⟩ := Memory.consumeAuthCode_eq_some hconsume
  obtain ⟨b, rfl⟩ := hkeeps it hlookup
  exact ⟨TokenService.pkceFailure_eq_none_iff.mp hpkce, huri⟩

/-! ### The Redis store -/

def RedisKeeps (c : OAuth2AuthCode) (s : Redis.Keyspace) : Prop :=
  ∀ e, s.lookup (Redis.codeKey c.code) = some e →
    ∃ b, e.value = Redis.authCodeJson { c with used := b }

theorem redis_get_eq_some {now : Int} {key : String} {s : Redis.Keyspace} {json : Redis.Json}
    (h : Redis.get now key s = some json) : ∃ e, s.lookup key = some e ∧ e.value = json := by
  unfold Redis.get at h
  split at h
  · cases h
  · rename_i e hlookup
    refine ⟨e, hlookup, ?_⟩
    split at h
    · exact Option.some.inj h
    · split at h
      · exact Option.some.inj h
      · cases h

theorem consumeScript_lookup {now : Int} {key uri k : String} {s : Redis.Keyspace}
    {e : Redis.Entry} (h : (Redis.consumeScript now key uri s).2.lookup k = some e) :
    s.lookup k = some e ∨
      (k = key ∧ ∃ e₀, s.lookup key = some e₀ ∧ e.value = e₀.value.set "used" (.bool true)) := by
  unfold Redis.consumeScript at h
  split at h
  · exact .inl h
  · rename_i json hget
    obtain ⟨e₀, hlookup₀, rfl⟩ := redis_get_eq_some hget
    split at h
    · exact .inl h
    split at h
    · exact .inl h
    dsimp only at h
    by_cases hk : k = key
    · subst hk
      refine .inr ⟨rfl, e₀, hlookup₀, ?_⟩
      split at h
      · rw [Redis.setex, AList.lookup_insert] at h
        rw [← Option.some.inj h]
      · rw [Redis.set, AList.lookup_insert] at h
        rw [← Option.some.inj h]
    · left
      split at h
      · rwa [Redis.setex, AList.lookup_insert_ne hk] at h
      · rwa [Redis.set, AList.lookup_insert_ne hk] at h

theorem RedisKeeps.save {c c' : OAuth2AuthCode} {s : Redis.Keyspace} (h : RedisKeeps c s)
    (env : Env) (hother : Redis.codeKey c'.code ≠ Redis.codeKey c.code) :
    RedisKeeps c (Redis.saveAuthCode env c' s) := by
  intro e hlookup
  unfold Redis.saveAuthCode at hlookup
  split at hlookup
  · exact h e hlookup
  · rw [Redis.setex, AList.lookup_insert_ne hother.symm] at hlookup
    exact h e hlookup

theorem RedisKeeps.consume {c : OAuth2AuthCode} {s : Redis.Keyspace} (h : RedisKeeps c s)
    (env : Env) (code uri : String) : RedisKeeps c (Redis.consumeAuthCode env code uri s).2 := by
  intro e hlookup
  unfold Redis.consumeAuthCode at hlookup
  split at hlookup
  · exact h e hlookup
  · rcases consumeScript_lookup hlookup with hlookup | ⟨hkey, e₀, hlookup₀, hvalue⟩
    · exact h e hlookup
    · rw [← hkey] at hlookup₀
      obtain ⟨b, hjson⟩ := h e₀ hlookup₀
      exact ⟨true, by rw [hvalue, hjson, Redis.authCodeJson_set_used]⟩

theorem redisKeeps_exec {c : OAuth2AuthCode} {env : Env} {op : RepoCall}
    (hother : ∀ c', op = .saveAuthCode c' → Redis.codeKey c'.code ≠ Redis.codeKey c.code)
    {s : Store (redisGrants clients tokens)} (h : RedisKeeps c s.grants) :
    RedisKeeps c (Store.exec env op s).2.grants := by
  cases op with
  | saveAuthCode c' => exact h.save env (hother c' rfl)
  | consumeAuthCode code uri => exact h.consume env code uri
  | _ => exact h

theorem redisKeeps_saved (c : OAuth2AuthCode) {env : Env} (henv : env.fails = false)
    (s : Redis.Keyspace) : RedisKeeps c (Redis.saveAuthCode env c s) := by
  intro e hlookup
  rw [Redis.saveAuthCode, henv, if_neg Bool.false_ne_true] at hlookup
  simp only [Redis.setex, AList.lookup_insert] at hlookup
  exact ⟨c.used, by rw [← Option.some.inj hlookup]⟩

/-- Where the key holds the record, the store hands it out exactly when Redis answers, the key is
there and unused and the redirect URI is absent or the recorded one; the challenge is lost. -/
theorem consumeAuthCode_iff {c authCode : OAuth2AuthCode} {s : Redis.Keyspace} {env : Env}
    {uri : String} (hkeeps : RedisKeeps c s) :
    (Redis.consumeAuthCode env c.code uri s).1 = some authCode ↔
      env.fails = false ∧
      (∃ json, Redis.get env.now (Redis.codeKey c.code) s = some json ∧
        json.asBool "used" = false) ∧
      (cStr uri = "" ∨ cStr uri = c.redirectUri) ∧
      authCode = { c with
        codeChallenge := "", codeChallengeMethod := "", nonce := "", used := true
        authTime := 0, amr := "" } := by
  unfold Redis.consumeAuthCode Redis.consumeScript
  cases hfails : env.fails with
  | true => simp
  | false =>
  cases hget : Redis.get env.now (Redis.codeKey c.code) s with
  | none => simp
  | some json =>
  obtain ⟨e, hlookup, rfl⟩ := redis_get_eq_some hget
  obtain ⟨b, hjson⟩ := hkeeps e hlookup
  simp only [hjson, Redis.authCodeJson_used, Redis.authCodeJson_redirectUri]
  cases b with
  | true => simp [Redis.authCodeJson_used]
  | false =>
  by_cases huri : cStr uri = "" ∨ cStr uri = c.redirectUri
  · have hpass : ¬(cStr uri ≠ "" ∧ cStr uri ≠ c.redirectUri) := by tauto
    simp only [Bool.false_eq_true, if_false, hpass, Redis.authCodeJson_set_used, Option.map_some,
      Redis.consumedAuthCode_authCodeJson, Option.some.injEq, true_and, huri]
    constructor
    · intro heq
      obtain rfl := heq
      exact ⟨⟨_, rfl, rfl⟩, rfl⟩
    · intro h
      obtain ⟨-, rfl⟩ := h
      rfl
  · have hfail : cStr uri ≠ "" ∧ cStr uri ≠ c.redirectUri := by tauto
    simp [hfail]

/-- The code can be redeemed as far as the Redis store and the exchange look: the client
authenticates, Redis answers, the key is there and unused, the redirect URI is absent or the
recorded one as C strings, the client is the code's, the code has not expired and the pair
persists. -/
structure Redeemable (svc : TokenService) (env : Nat → Env) (c : OAuth2AuthCode)
    (r : ExchangeRequest) (s : Store (redisGrants clients tokens)) : Prop where
  client : clients.validateClient (env 0) r.clientId r.clientSecret s.clients = true
  answers : (env 1).fails = false
  unused : ∃ json, Redis.get (env 1).now (Redis.codeKey c.code) s.grants = some json ∧
    json.asBool "used" = false
  redirectUri : cStr r.redirectUri = "" ∨ cStr r.redirectUri = c.redirectUri
  sameClient : c.clientId = r.clientId
  live : (env 2).now ≤ c.expiresAt
  persists : svc.PairPersists env c s

variable {c : OAuth2AuthCode} {s₀ : Store (redisGrants clients tokens)} {env₀ : Env}
  {calls : List (Env × RepoCall)} {env : Nat → Env} {r : ExchangeRequest}

theorem exchangeIssues_iff_redeemable (henv : env₀.fails = false)
    (hcode : hashToken svc.crypto r.code = c.code)
    (hother : ∀ call ∈ calls, ∀ c', call.2 = .saveAuthCode c' →
      Redis.codeKey c'.code ≠ Redis.codeKey c.code) :
    TokenService.ExchangeIssues svc env r (afterSave s₀ env₀ c calls) ↔
      Redeemable svc env c r (afterSave s₀ env₀ c calls) := by
  have hkeeps : RedisKeeps c (afterSave s₀ env₀ c calls).grants := by
    refine Store.execAll_invariant (P := fun s : Store (redisGrants clients tokens) =>
      RedisKeeps c s.grants) ?_ ?_
    · exact fun call hcall s h => redisKeeps_exec (hother call hcall) h
    · exact redisKeeps_saved c henv s₀.grants
  rw [TokenService.exchangeIssues_iff, hcode]
  constructor
  · intro h
    obtain ⟨hclient, authCode, hconsume, hsame, -, hlive, hpersists⟩ := h
    obtain ⟨hfails, hunused, huri, rfl⟩ := (consumeAuthCode_iff hkeeps).mp hconsume
    exact ⟨hclient, hfails, hunused, huri, hsame, hlive, hpersists⟩
  · intro h
    refine ⟨h.client, _, (consumeAuthCode_iff hkeeps).mpr
      ⟨h.answers, h.unused, h.redirectUri, rfl⟩, h.sameClient, ?_, h.live, h.persists⟩
    -- the challenge that comes back is empty, so no verifier is asked for
    rw [TokenService.pkceFailure_eq_none_iff]
    intro hchallenge
    exact absurd rfl hchallenge

/-- With the Redis store the saved binding is enforced exactly when the presented code is not
redeemable or the exchange agrees with the record anyway. -/
theorem redis_binding_iff (henv : env₀.fails = false)
    (hcode : hashToken svc.crypto r.code = c.code)
    (hother : ∀ call ∈ calls, ∀ c', call.2 = .saveAuthCode c' →
      Redis.codeKey c'.code ≠ Redis.codeKey c.code) :
    (TokenService.ExchangeIssues svc env r (afterSave s₀ env₀ c calls) → Agrees svc c r) ↔
      ¬(Redeemable svc env c r (afterSave s₀ env₀ c calls) ∧ ¬Agrees svc c r) := by
  rw [exchangeIssues_iff_redeemable henv hcode hother]
  tauto

/-! ### A code with a challenge and a redirect URI -/

def boundCode : OAuth2AuthCode :=
  knownService.authCodeOf
    { clientId := "spa", subject := "1", scope := "openid"
      redirectUri := "https://spa.example.com/callback"
      codeChallenge := knownChallenge, codeChallengeMethod := "S256" } (knownToken 0) 1000

def spaStore : Store (redisGrants Memory.clientRepository Memory.tokenRepository) :=
  let client : OAuth2Client :=
    { clientId := "spa", clientType := .PUBLIC, clientSecretHash := "", salt := ""
      redirectUris := ["https://spa.example.com/callback"], allowedScopes := ["openid"] }
  ⟨AList.insert "spa" client ∅, (∅ : Redis.Keyspace), Memory.Tokens.empty⟩

def bareExchange : ExchangeRequest := { code := knownToken 0, clientId := "spa" }

def fullExchange : ExchangeRequest :=
  { code := knownToken 0, clientId := "spa"
    redirectUri := "https://spa.example.com/callback", codeVerifier := knownVerifier }

theorem boundCode_redeemable (r : ExchangeRequest) (hclient : r.clientId = "spa")
    (huri : cStr r.redirectUri = "" ∨ cStr r.redirectUri = boundCode.redirectUri) :
    Redeemable knownService (fun _ => { now := 1010 }) boundCode r
      (afterSave spaStore { now := 1000 } boundCode []) where
  client := by
    rw [hclient]
    rfl
  answers := rfl
  unused := ⟨Redis.authCodeJson boundCode, by decide +kernel, rfl⟩
  redirectUri := huri
  sameClient := hclient.symm
  live := by decide
  persists := ⟨_, _, rfl, rfl⟩

/-- Ten seconds after the code was saved, a client that presents neither verifier nor redirect URI
is given a pair. -/
theorem redis_bare_exchange_issues :
    TokenService.ExchangeIssues knownService (fun _ => { now := 1010 }) bareExchange
      (afterSave spaStore { now := 1000 } boundCode []) ∧
    ¬Agrees knownService boundCode bareExchange := by
  constructor
  · refine (exchangeIssues_iff_redeemable rfl rfl (by simp)).mpr ?_
    exact boundCode_redeemable bareExchange rfl (.inl (by decide +kernel))
  · intro h
    exact absurd (h.2 (by decide)) (by decide)

theorem redis_binding_iff_fullExchange :
    Redeemable knownService (fun _ => { now := 1010 }) boundCode fullExchange
      (afterSave spaStore { now := 1000 } boundCode []) ∧
    (TokenService.ExchangeIssues knownService (fun _ => { now := 1010 }) fullExchange
        (afterSave spaStore { now := 1000 } boundCode []) →
      Agrees knownService boundCode fullExchange) := by
  refine ⟨boundCode_redeemable fullExchange rfl (.inr (by decide +kernel)), ?_⟩
  refine (redis_binding_iff rfl rfl (by simp)).mpr ?_
  intro h
  obtain ⟨-, hdisagrees⟩ := h
  refine hdisagrees ⟨fun _ => ?_, fun _ => rfl⟩
  decide +kernel

end AuthForge.RedisBinding
