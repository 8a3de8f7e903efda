import AuthForge.Storage.TokenCache

/-!
# Introspections of refresh tokens are not cached

An introspection is cached only behind an `EXISTS` of the access key. Access keys are set from rows of
the access token table and from saved access tokens, so whatever has one was saved as an access token
once, in every interleaving and whichever commands fail.
-/

namespace AuthForge.CacheDiscriminator

open OAuth2 Storage Storage.TokenCache Service

variable {accessTokenMaxTtlSeconds : Int} {s₀ s : CacheStore} {history : List CacheEvent}

def savedToken : CacheCall → Option String
  | .backing (.saveAccessToken token) => some token.token
  | .backing (.saveTokenPair access _) => some access.token
  | _ => none

def savedIn : CacheEvent → Option String
  | .called _ _ _ a => savedToken a.op
  | _ => none

/-- The token was an access token at the start or was saved as one. -/
def EverSaved (s₀ : CacheStore) (history : List CacheEvent) (token : String) : Prop :=
  token ∈ s₀.tables.oauth2AccessTokens ∨ token ∈ history.filterMap savedIn

instance (s₀ : CacheStore) (history : List CacheEvent) (token : String) :
    Decidable (EverSaved s₀ history token) :=
  inferInstanceAs (Decidable (_ ∨ _))

theorem EverSaved.cons {token : String} (h : EverSaved s₀ history token) (e : CacheEvent) :
    EverSaved s₀ (e :: history) token := by
  rcases h with h | h
  · exact .inl h
  · obtain ⟨e', he', hsaved⟩ := List.mem_filterMap.mp h
    exact .inr (List.mem_filterMap.mpr ⟨e', List.mem_cons_of_mem e he', hsaved⟩)

theorem EverSaved.of_event {token : String} {tid : Nat} {req : CacheRequest} {env : CacheEnv}
    {a : CacheAnswer} (h : .called tid req env a ∈ history) (ha : savedToken a.op = some token) :
    EverSaved s₀ history token :=
  .inr (List.mem_filterMap.mpr ⟨_, h, ha⟩)

/-! ### One step -/

/-- Only a save adds a row to the access tokens. -/
theorem lookup_execBacking {env : CacheEnv} {call : TokenCall} {tables : Postgres.TokenTables}
    {token : String} {row : OAuth2AccessToken}
    (h : (execBacking env call tables).2.oauth2AccessTokens.lookup token = some row) :
    (∃ row, tables.oauth2AccessTokens.lookup token = some row) ∨
      savedToken (.backing call) = some token := by
  cases call with
  | saveAccessToken t =>
    simp only [execBacking, Postgres.saveAccessToken] at h
    split at h
    · exact .inl ⟨row, h⟩
    · by_cases hk : token = t.token
      · exact .inr (by rw [hk]; rfl)
      · rw [AList.lookup_insert_ne hk] at h
        exact .inl ⟨row, h⟩
  | saveTokenPair access refresh =>
    simp only [execBacking, Postgres.saveTokenPair] at h
    split at h
    · exact .inl ⟨row, h⟩
    · by_cases hk : token = access.token
      · exact .inr (by rw [hk]; rfl)
      · rw [AList.lookup_insert_ne hk] at h
        exact .inl ⟨row, h⟩
  | revokeTokenFamily familyId =>
    simp only [execBacking, Postgres.revokeTokenFamily] at h
    split at h
    · exact .inl ⟨row, h⟩
    split at h
    · exact .inl ⟨row, h⟩
    · rw [Dict.lookup_mapValues, Option.map_eq_some_iff] at h
      obtain ⟨row', hrow', -⟩ := h
      exact .inl ⟨row', hrow'⟩
  | atomicRevokeRefreshToken t =>
    have hsame : (Postgres.atomicRevokeRefreshToken env.toEnv t tables).2.oauth2AccessTokens =
        tables.oauth2AccessTokens := by
      cases hlost : (Postgres.atomicRevokeRefreshToken env.toEnv t tables).1 with
      | none => rw [Postgres.atomicRevokeRefreshToken_lost hlost]
      | some rt =>
        obtain ⟨_, _, _, _, hafter⟩ := Postgres.atomicRevokeRefreshToken_won hlost
        rw [hafter]
    exact .inl ⟨row, by rw [← hsame]; exact h⟩
  | saveRefreshToken t =>
    simp only [execBacking, Postgres.saveRefreshToken] at h
    split at h
    · exact .inl ⟨row, h⟩
    · exact .inl ⟨row, h⟩
  | revokeRefreshToken t =>
    simp only [execBacking, Postgres.revokeRefreshToken] at h
    split at h
    · exact .inl ⟨row, h⟩
    · exact .inl ⟨row, h⟩
  | incrementIntrospectCount t =>
    simp only [execBacking, Postgres.incrementIntrospectCount] at h
    split at h
    · exact .inl ⟨row, h⟩
    split at h
    · exact .inl ⟨row, h⟩
    · rw [Dict.lookup_mapValues, Option.map_eq_some_iff] at h
      obtain ⟨row', hrow', -⟩ := h
      exact .inl ⟨row', hrow'⟩
  | revokeAccessToken t revokedBy =>
    simp only [execBacking, Postgres.revokeAccessToken] at h
    split at h
    · exact .inl ⟨row, h⟩
    split at h
    · rw [Postgres.revokeBoth, Dict.lookup_mapValues, Option.map_eq_some_iff] at h
      obtain ⟨row', hrow', -⟩ := h
      exact .inl ⟨row', hrow'⟩
    split at h
    · rw [Postgres.revokeBoth, Dict.lookup_mapValues, Option.map_eq_some_iff] at h
      obtain ⟨row', hrow', -⟩ := h
      exact .inl ⟨row', hrow'⟩
    · exact .inl ⟨row, h⟩
  | purgeExpired =>
    simp only [execBacking, Postgres.purgeExpired] at h
    have hswept : (if env.faults.access then tables.oauth2AccessTokens
        else tables.oauth2AccessTokens.keepValues fun row => ¬row.expiresAt < env.now).lookup token =
          some row := by
      split at h
      · exact h
      · rw [Dict.lookup_keepValues] at h
        exact (Option.filter_eq_some_iff.mp h).1
    split at hswept
    · exact .inl ⟨row, hswept⟩
    · rw [Dict.lookup_keepValues] at hswept
      exact .inl ⟨row, (Option.filter_eq_some_iff.mp hswept).1⟩
  | getAccessToken t => exact .inl ⟨row, h⟩
  | getRefreshToken t => exact .inl ⟨row, h⟩
  | introspectToken t => exact .inl ⟨row, h⟩

/-- An answer that shows a row of the access tokens or an access key. -/
def Shows (token : String) : CacheAnswer → Prop
  | ⟨.backing (.getAccessToken token'), r⟩ => token' = token ∧ r ≠ none
  | ⟨.keyExists key, r⟩ => key = accessKey token ∧ r = some true
  | _ => False

/-- Whatever points to an access token points to one that was saved. -/
structure Discriminated (s₀ : CacheStore) (history : List CacheEvent) (s : CacheStore) : Prop where
  row : ∀ token row, s.tables.oauth2AccessTokens.lookup token = some row →
    EverSaved s₀ history token
  access : ∀ token e, s.redis.lookup (accessKey token) = some e → EverSaved s₀ history token
  intro : ∀ token e, s.redis.lookup (introKey token) = some e → EverSaved s₀ history token
  shown : ∀ token tid req env a, .called tid req env a ∈ history → Shows token a →
    EverSaved s₀ history token

theorem Discriminated.shows (h : Discriminated s₀ history s) {env : CacheEnv} {op : CacheCall}
    {token : String} (hshows : Shows token ⟨op, (CacheStore.exec env op s).1⟩) :
    EverSaved s₀ history token := by
  unfold Shows at hshows
  split at hshows
  · rename_i heq
    cases heq
    obtain ⟨rfl, hne⟩ := hshows
    obtain ⟨t, ht⟩ := Option.ne_none_iff_exists'.mp hne
    obtain ⟨row, hrow, -⟩ := Option.map_eq_some_iff.mp ht
    unfold Postgres.findAccessToken at hrow
    split at hrow
    · cases hrow
    · exact h.row _ row hrow
  · rename_i heq
    cases heq
    obtain ⟨rfl, htrue⟩ := hshows
    simp only [CacheStore.exec, CacheStore.execAt] at htrue
    split at htrue
    · cases htrue
    · obtain ⟨e, he, -⟩ := TimedStore.contains_eq_true_iff.mp (Option.some.inj htrue)
      exact h.access _ e he
  · exact hshows.elim

/-- What a `SET` writes under the key of an access token or of an introspection. -/
theorem Discriminated.setEx (h : Discriminated s₀ history s) {tid : Nat} {maxTtl ttl : Int}
    {key token : String} {payload : Payload}
    (hseen : SetSeen maxTtl (answersOf tid history) key payload ttl)
    (hkey : key = accessKey token ∨ key = introKey token) : EverSaved s₀ history token := by
  cases hseen with
  | @fetched token' t ttl hget =>
    have htoken : token' = token := by simpa using hkey
    obtain ⟨req, env, hmem⟩ := mem_answersOf.mp hget
    exact h.shown token tid req env _ hmem ⟨htoken, nofun⟩
  | @warmed t ttl hsave =>
    have htoken : t.token = token := by simpa using hkey
    obtain ⟨req, env, hmem⟩ := mem_answersOf.mp hsave
    exact .of_event hmem (congrArg some htoken)
  | @introspected token' res ttl hexists =>
    have htoken : token' = token := by simpa using hkey
    obtain ⟨req, env, hmem⟩ := mem_answersOf.mp hexists
    exact h.shown token tid req env _ hmem ⟨congrArg accessKey htoken, rfl⟩
  | revoked => simp at hkey

theorem Discriminated.step (h : Discriminated s₀ history s) {tid : Nat} {req : CacheRequest}
    {env : CacheEnv} {op : CacheCall} {maxTtl : Int}
    (hseen : WriteSeen maxTtl req (answersOf tid history) op) :
    Discriminated s₀ (.called tid req env ⟨op, (CacheStore.exec env op s).1⟩ :: history)
      (CacheStore.exec env op s).2 := by
  have hset : ∀ token key e, (key = accessKey token ∨ key = introKey token) →
      (CacheStore.exec env op s).2.redis.lookup key = some e →
      s.redis.lookup key = some e ∨ EverSaved s₀ history token := by
    intro token key e hkey he
    rcases lookup_exec he with he | ⟨payload, ttl, rfl, -⟩
    · exact .inl he
    · exact .inr (h.setEx hseen hkey)
  refine ⟨?_, ?_, ?_, ?_⟩
  · intro token row hrow
    by_cases hop : ∃ call, op = .backing call
    · obtain ⟨call, rfl⟩ := hop
      rcases lookup_execBacking hrow with ⟨row', hrow'⟩ | hsaved
      · exact (h.row token row' hrow').cons _
      · exact .of_event List.mem_cons_self hsaved
    · rw [tables_exec fun call heq => hop ⟨call, heq⟩] at hrow
      exact (h.row token row hrow).cons _
  · intro token e he
    rcases hset token _ e (.inl rfl) he with he | hsaved
    · exact (h.access token e he).cons _
    · exact hsaved.cons _
  · intro token e he
    rcases hset token _ e (.inr rfl) he with he | hsaved
    · exact (h.intro token e he).cons _
    · exact hsaved.cons _
  · intro token tid' req' env' a hmem hshows
    rcases List.mem_cons.mp hmem with heq | hmem
    · cases heq
      exact (h.shows hshows).cons _
    · exact (h.shown token tid' req' env' a hmem hshows).cons _

/-! ### Every run -/

theorem discriminated_of_run {ok : Guard _ _ _} {p : Pool (service accessTokenMaxTtlSeconds)}
    (hempty : s₀.redis = ∅)
    (hrun : (service accessTokenMaxTtlSeconds).machine.Run ok
      ((service accessTokenMaxTtlSeconds).start s₀) history p) :
    Discriminated s₀ history p.shared := by
  induction hrun with
  | init =>
    refine ⟨?_, ?_, ?_, ?_⟩
    · intro token row hrow
      exact .inl (AList.lookup_isSome.mp (Option.isSome_iff_exists.mpr ⟨row, hrow⟩))
    · intro token e he
      change s₀.redis.lookup _ = _ at he
      rw [hempty] at he
      cases he
    · intro token e he
      change s₀.redis.lookup _ = _ at he
      rw [hempty] at he
      cases he
    · intro token tid req env a hmem
      cases hmem
  | @next history p i hrun hok ih =>
    have hkeep : ∀ e : CacheEvent, (∀ tid req env a, e ≠ .called tid req env a) →
        Discriminated s₀ (e :: history) p.shared := by
      intro e he
      refine ⟨?_, ?_, ?_, ?_⟩
      · exact fun token row h => (ih.row token row h).cons e
      · exact fun token x h => (ih.access token x h).cons e
      · exact fun token x h => (ih.intro token x h).cons e
      intro token tid req env a hmem hshows
      rcases List.mem_cons.mp hmem with heq | hmem
      · exact absurd heq.symm (he tid req env a)
      · exact (ih.shown token tid req env a hmem hshows).cons e
    change Discriminated s₀ (((service accessTokenMaxTtlSeconds).step p i).2 :: history)
      ((service accessTokenMaxTtlSeconds).step p i).1.shared
    rcases step_cases p i with ⟨request, -, hs⟩ | ⟨tid, env, t, op, k, hrest, -, ht, hs⟩ | hs
    · rw [hs]
      exact hkeep _ fun _ _ _ _ h => by cases h
    · rw [hs]
      have hseen := traced_of_thread (S := service accessTokenMaxTtlSeconds)
        (traced_program accessTokenMaxTtlSeconds) t hrest
      rw [(described_of_run hrun).answers ht] at hseen
      exact ih.step hseen
    · rw [hs]
      exact hkeep _ fun _ _ _ _ h => by cases h

/-- In every interleaving of the repository's operations from an empty cache, with any failures: no
introspection is held for a stored refresh token that was never an access token. -/
theorem refresh_introspection_never_cached (accessTokenMaxTtlSeconds : Int) (s₀ : CacheStore)
    (hempty : s₀.redis = ∅) (history : List CacheEvent)
    (p : Pool (service accessTokenMaxTtlSeconds))
    (hrun : (service accessTokenMaxTtlSeconds).machine.Run anyStep
      ((service accessTokenMaxTtlSeconds).start s₀) history p) :
    ¬∃ token, token ∈ p.shared.tables.oauth2RefreshTokens ∧ ¬EverSaved s₀ history token ∧
      introKey token ∈ p.shared.redis := by
  intro h
  obtain ⟨token, -, hnever, hcached⟩ := h
  obtain ⟨e, he⟩ := Option.isSome_iff_exists.mp (AList.lookup_isSome.mpr hcached)
  exact hnever ((discriminated_of_run hempty hrun).intro token e he)

/-! ### A run that caches one introspection -/

def knownAccess : OAuth2AccessToken where
  token := hashToken knownCrypto (knownToken 0)
  clientId := "spa"
  userId := "1"
  scope := "openid"
  expiresAt := 4600

def knownRefresh : OAuth2RefreshToken where
  token := hashToken knownCrypto (knownToken 1)
  accessToken := hashToken knownCrypto (knownToken 0)
  clientId := "spa"
  userId := "1"
  scope := "openid"
  expiresAt := 9000

def emptyStore : CacheStore := ⟨0, ∅, ⟨∅, ∅⟩⟩

/-- Save a pair, read the access token and introspect both tokens, one after another; each request is
given more steps than it takes. -/
def introspecting : List (Input CacheEnv CacheRequest) :=
  ([.saveTokenPair knownAccess knownRefresh, .getAccessToken knownAccess.token,
    .introspectToken knownAccess.token, .introspectToken knownRefresh.token].mapIdx
      fun tid req => .start req :: List.replicate 8 (.advance tid { now := 1000 })).flatten

def introspected : List CacheEvent × Pool (service 60) :=
  (service 60).machine.exec [] ((service 60).start emptyStore) introspecting

theorem refresh_introspection_never_cached_introspected :
    introKey knownAccess.token ∈ introspected.2.shared.redis ∧
    knownRefresh.token ∈ introspected.2.shared.tables.oauth2RefreshTokens ∧
    ¬EverSaved emptyStore introspected.1 knownRefresh.token ∧
    introKey knownRefresh.token ∉ introspected.2.shared.redis := by
  have hfacts : introKey knownAccess.token ∈ introspected.2.shared.redis ∧
      knownRefresh.token ∈ introspected.2.shared.tables.oauth2RefreshTokens ∧
      ¬EverSaved emptyStore introspected.1 knownRefresh.token := by
    decide +kernel
  obtain ⟨hcached, hstored, hnever⟩ := hfacts
  have hnone := refresh_introspection_never_cached 60 emptyStore rfl introspected.1 introspected.2
    (Machine.run_exec _ _ _)
  exact ⟨hcached, hstored, hnever, fun hintro => hnone ⟨_, hstored, hnever, hintro⟩⟩

end AuthForge.CacheDiscriminator
