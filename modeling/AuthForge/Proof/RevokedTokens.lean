import AuthForge.Storage.TokenCache

/-!
# Revoked tokens and the cache

A read that started before a revocation may fill the cache after it. The negative entry hides such a
fill for as long as it lives itself, so a revoked token is served again exactly when a late fill
outlives it. Where no late fill does, and the revocation leaves no live row, nothing that starts after
the revocation reports the token as live.
-/

namespace AuthForge.RevokedTokens

open OAuth2 Storage Storage.TokenCache Service

variable {accessTokenMaxTtlSeconds : Int} {token : String} {s₀ s : CacheStore}
  {history : List CacheEvent}

/-! ### The property -/

/-- A reply that reports a token as un-revoked or active. -/
def Reports : CacheReply → Prop
  | .access (some t) => t.revoked = false
  | .introspection res => res.active = true
  | _ => False

/-- The request that has set the negative entry of the token. -/
def marks (token : String) : CacheEvent → Option Nat
  | .called tid _ _ ⟨.setEx key _ _, _⟩ => if key = revokedKey token then some tid else none
  | _ => none

/-- The request that has deleted the token's other entries. -/
def drops (token : String) : CacheEvent → Option Nat
  | .called tid _ _ ⟨.del key _, _⟩ => if key = accessKey token then some tid else none
  | _ => none

/-- The revocation of the token that has called back. -/
def acknowledges (token : String) : CacheEvent → Option Nat
  | .called tid (.revokeAccessToken token' _) _ ⟨.callback _, _⟩ =>
    if token' = token then some tid else none
  | _ => none

/-- Both Redis commands of one revocation of the token have been executed. -/
def Invalidated (token : String) (history : List CacheEvent) : Prop :=
  ∃ tid ∈ history.filterMap (marks token), tid ∈ history.filterMap (drops token)

/-- A revocation has called back and its Redis commands have been executed. -/
def Revoked (token : String) (history : List CacheEvent) : Prop :=
  ∃ tid ∈ history.filterMap (marks token), tid ∈ history.filterMap (drops token) ∧
    tid ∈ history.filterMap (acknowledges token)

instance (token : String) (history : List CacheEvent) : Decidable (Invalidated token history) :=
  inferInstanceAs (Decidable (∃ _ ∈ _, _))

instance (token : String) (history : List CacheEvent) : Decidable (Revoked token history) :=
  inferInstanceAs (Decidable (∃ _ ∈ _, _))

def Reads (token : String) (req : CacheRequest) : Prop :=
  req = .getAccessToken token ∨ req = .introspectToken token

/-- No read of the token that started after its revocation reports it as live. -/
def NeverServed (token : String) (history : List CacheEvent) : Prop :=
  ∀ later tid req past, history = later ++ .started tid req :: past → Reads token req →
    Revoked token past →
    ∀ env reply, .called tid req env ⟨.callback reply, ()⟩ ∈ later → ¬Reports reply

/-! ### The steps -/

/-- The operations that use the cache. -/
def usesCache : CacheRequest → Bool
  | .getAccessToken _ | .introspectToken _ | .saveAccessToken _ | .revokeAccessToken _ _ => true
  | _ => false

/-- Those four operations, with every Redis command succeeding. -/
def CacheSteps : Input CacheEnv CacheRequest → Prop
  | .start req => usesCache req = true
  | .advance _ env => env.redisFails = false

/-- A payload that reports a token as live when it is read. -/
def live : Payload → Bool
  | .marker => false
  | .access t => !t.revoked
  | .introspection res => res.active

/-- The negative entry of the token lives at least until then. -/
def Covered (token : String) (redis : Keyspace) (expireAt : Int) : Prop :=
  ∃ n ∈ redis.lookup (revokedKey token), expireAt ≤ n.expireAt

/-- The statements of a revocation succeed on every live row of the token: a row of the access tokens
is updated with or without the audit columns, and one of the refresh tokens after it. -/
structure Reaches (token : String) (env : CacheEnv) (tables : Postgres.TokenTables) : Prop where
  access : ∀ row ∈ tables.oauth2AccessTokens.lookup token, row.revoked = false →
    env.faults.access = false ∧ (env.faults.audit = false ∨ env.faults.simple = false)
  refresh : ∀ rt ∈ tables.oauth2RefreshTokens.lookup token, rt.revoked = false →
    token ∈ tables.oauth2AccessTokens ∧ env.faults.access = false ∧
      (env.faults.audit = false ∨ env.faults.simple = false) ∧ env.faults.refresh = false

/-- The request that has revoked the token in the database. -/
def revokes (token : String) : CacheEvent → Option Nat
  | .called tid _ _ ⟨.backing (.revokeAccessToken token' _), _⟩ =>
    if token' = token then some tid else none
  | _ => none

def RevokedBefore (token : String) (history : List CacheEvent) : Prop :=
  history.filterMap (revokes token) ≠ []

/-- Once both commands of a revocation have been executed, a fill with a live value does not outlive
the negative entry; every revocation reaches the live rows of the token, and no save adds one after
it. -/
def FillsCovered (token : String) (history : List CacheEvent) (s : CacheStore) (env : CacheEnv) :
    CacheCall → Prop
  | .setEx key payload ttl =>
    (key = accessKey token ∨ key = introKey token) → live payload = true → Invalidated token history →
      Covered token s.redis (s.clock + env.elapsed + 1000 * ttl)
  | .backing (.revokeAccessToken token' _) => token' = token → Reaches token env s.tables
  | .backing (.saveAccessToken t) =>
    t.token = token → RevokedBefore token history → t.revoked = true ∨ env.faults.access = true ∨
      token ∈ s.tables.oauth2AccessTokens
  | _ => True

def NoLateFill (accessTokenMaxTtlSeconds : Int) (token : String) :
    Guard (Pool (service accessTokenMaxTtlSeconds)) (Input CacheEnv CacheRequest) CacheEvent :=
  fun history p i => CacheSteps i ∧
    match i with
    | .start _ => True
    | .advance tid env => ∀ op ∈ p.next tid, FillsCovered token history p.shared env op

/-! ### The conditions are decidable -/

theorem reaches_iff {env : CacheEnv} {tables : Postgres.TokenTables} :
    Reaches token env tables ↔
      (∀ row ∈ tables.oauth2AccessTokens.lookup token, row.revoked = false →
        env.faults.access = false ∧ (env.faults.audit = false ∨ env.faults.simple = false)) ∧
      ∀ rt ∈ tables.oauth2RefreshTokens.lookup token, rt.revoked = false →
        token ∈ tables.oauth2AccessTokens ∧ env.faults.access = false ∧
          (env.faults.audit = false ∨ env.faults.simple = false) ∧ env.faults.refresh = false :=
  ⟨fun h => ⟨h.access, h.refresh⟩, fun h => ⟨h.1, h.2⟩⟩

instance (env : CacheEnv) (tables : Postgres.TokenTables) : Decidable (Reaches token env tables) :=
  decidable_of_iff _ reaches_iff.symm

instance (redis : Keyspace) (expireAt : Int) : Decidable (Covered token redis expireAt) :=
  inferInstanceAs (Decidable (∃ _ ∈ _, _))

instance : Decidable (RevokedBefore token history) :=
  inferInstanceAs (Decidable (_ ≠ []))

instance : DecidablePred CacheSteps
  | .start _ => inferInstanceAs (Decidable (_ = true))
  | .advance _ _ => inferInstanceAs (Decidable (_ = false))

instance (env : CacheEnv) : (op : CacheCall) → Decidable (FillsCovered token history s env op)
  | .setEx _ _ _ => inferInstanceAs (Decidable (_ → _ → _ → _))
  | .backing (.revokeAccessToken _ _) => inferInstanceAs (Decidable (_ → _))
  | .backing (.saveAccessToken _) => inferInstanceAs (Decidable (_ → _ → _))
  | .backing (.getAccessToken _) | .backing (.saveTokenPair _ _) | .backing (.saveRefreshToken _)
  | .backing (.getRefreshToken _) | .backing (.revokeRefreshToken _)
  | .backing (.atomicRevokeRefreshToken _) | .backing (.revokeTokenFamily _)
  | .backing (.introspectToken _) | .backing (.incrementIntrospectCount _) | .backing .purgeExpired
  | .nowSeconds | .choose | .revokedThenGet _ _ | .del _ _ | .keyExists _ | .callback _ =>
    .isTrue trivial

instance (history : List CacheEvent) (p : Pool (service accessTokenMaxTtlSeconds)) :
    (i : Input CacheEnv CacheRequest) → Decidable (NoLateFill accessTokenMaxTtlSeconds token history p i)
  | .start _ => inferInstanceAs (Decidable (_ ∧ True))
  | .advance _ _ => inferInstanceAs (Decidable (_ ∧ ∀ _ ∈ _, _))

/-! ### The tables -/

/-- No row of the token is live. -/
structure Dead (token : String) (tables : Postgres.TokenTables) : Prop where
  access : ∀ row, tables.oauth2AccessTokens.lookup token = some row → row.revoked = true
  refresh : ∀ rt, tables.oauth2RefreshTokens.lookup token = some rt → rt.revoked = true

theorem lookup_revokeBoth_refresh {tables : Postgres.TokenTables} {faults : Postgres.CallFaults}
    {token' : String} {access : OAuth2AccessToken → OAuth2AccessToken}
    {refresh : OAuth2RefreshToken → OAuth2RefreshToken} {rt : OAuth2RefreshToken}
    (h : (Postgres.revokeBoth faults token' access refresh tables).oauth2RefreshTokens.lookup token =
      some rt) :
    ∃ rt₀, tables.oauth2RefreshTokens.lookup token = some rt₀ ∧
      (rt = rt₀ ∧ (faults.refresh = true ∨ token ≠ token') ∨ rt = refresh rt₀) := by
  simp only [Postgres.revokeBoth] at h
  split at h
  · rename_i hfault
    exact ⟨rt, h, .inl ⟨rfl, .inl hfault⟩⟩
  · rw [Dict.lookup_mapValues, Option.map_eq_some_iff] at h
    obtain ⟨rt₀, hrt₀, rfl⟩ := h
    refine ⟨rt₀, hrt₀, ?_⟩
    split
    · exact .inr rfl
    · rename_i hne
      exact .inl ⟨rfl, .inr hne⟩

theorem dead_revokeBoth {tables : Postgres.TokenTables} {faults : Postgres.CallFaults}
    {access : OAuth2AccessToken → OAuth2AccessToken}
    {refresh : OAuth2RefreshToken → OAuth2RefreshToken}
    (haccess : ∀ row, (access row).revoked = true) (hrefresh : ∀ rt, (refresh rt).revoked = true)
    (hlive : ∀ rt, tables.oauth2RefreshTokens.lookup token = some rt → rt.revoked = false →
      faults.refresh = false) :
    Dead token (Postgres.revokeBoth faults token access refresh tables) := by
  constructor
  · intro row hrow
    rw [Postgres.revokeBoth, Dict.lookup_mapValues, Option.map_eq_some_iff] at hrow
    obtain ⟨row₀, -, rfl⟩ := hrow
    rw [if_pos rfl]
    exact haccess row₀
  · intro rt hrt
    obtain ⟨rt₀, hrt₀, ⟨rfl, hkept⟩ | rfl⟩ := lookup_revokeBoth_refresh hrt
    · by_contra hrevoked
      have hreached := hlive rt hrt₀ (by simpa using hrevoked)
      rcases hkept with hfault | hne
      · rw [hreached] at hfault
        cases hfault
      · exact hne rfl
    · exact hrefresh rt₀

theorem Dead.revokeBoth {tables : Postgres.TokenTables} (h : Dead token tables)
    {faults : Postgres.CallFaults} {token' : String}
    {access : OAuth2AccessToken → OAuth2AccessToken}
    {refresh : OAuth2RefreshToken → OAuth2RefreshToken}
    (haccess : ∀ row, (access row).revoked = true) (hrefresh : ∀ rt, (refresh rt).revoked = true) :
    Dead token (Postgres.revokeBoth faults token' access refresh tables) := by
  constructor
  · intro row hrow
    rw [Postgres.revokeBoth, Dict.lookup_mapValues, Option.map_eq_some_iff] at hrow
    obtain ⟨row₀, hrow₀, rfl⟩ := hrow
    split
    · exact haccess row₀
    · exact h.access row₀ hrow₀
  · intro rt hrt
    obtain ⟨rt₀, hrt₀, ⟨rfl, -⟩ | rfl⟩ := lookup_revokeBoth_refresh hrt
    · exact h.refresh rt hrt₀
    · exact hrefresh rt₀

theorem Dead.revokeAccessToken {tables : Postgres.TokenTables} (h : Dead token tables) {now : Int}
    {faults : Postgres.CallFaults} {token' revokedBy : String} :
    Dead token (Postgres.revokeAccessToken now faults token' revokedBy tables) := by
  unfold Postgres.revokeAccessToken
  split
  · exact h
  split
  · exact h.revokeBoth (fun _ => rfl) (fun _ => rfl)
  split
  · exact h.revokeBoth (fun _ => rfl) (fun _ => rfl)
  · exact h

theorem Reaches.dead {env : CacheEnv} {tables : Postgres.TokenTables}
    (h : Reaches token env tables) (revokedBy : String) :
    Dead token (Postgres.revokeAccessToken env.now env.faults token revokedBy tables) := by
  by_cases hmade : token ∈ tables.oauth2AccessTokens ∧ env.faults.access = false ∧
      (env.faults.audit = false ∨ env.faults.simple = false)
  · obtain ⟨hfound, haccess, hupdate⟩ := hmade
    obtain ⟨row, hrow⟩ := Option.isSome_iff_exists.mp (AList.lookup_isSome.mpr hfound)
    have hfind : Postgres.findAccessToken env.faults token tables = some row := by
      simp [Postgres.findAccessToken, haccess, hrow]
    have hrefresh : ∀ rt, tables.oauth2RefreshTokens.lookup token = some rt → rt.revoked = false →
        env.faults.refresh = false := fun rt hrt hlive => (h.refresh rt hrt hlive).2.2.2
    simp only [Postgres.revokeAccessToken, hfind]
    split
    · exact dead_revokeBoth (fun _ => rfl) (fun _ => rfl) hrefresh
    · rename_i haudit
      rw [if_pos (hupdate.resolve_left haudit)]
      exact dead_revokeBoth (fun _ => rfl) (fun _ => rfl) hrefresh
  · -- Nothing is updated, and nothing has to be.
    have hdead : Dead token tables := by
      constructor
      · intro row hrow
        by_contra hlive
        obtain ⟨haccess, hupdate⟩ := h.access row hrow (by simpa using hlive)
        exact hmade ⟨AList.lookup_isSome.mp (by rw [hrow]; rfl), haccess, hupdate⟩
      · intro rt hrt
        by_contra hlive
        obtain ⟨hfound, haccess, hupdate, -⟩ := h.refresh rt hrt (by simpa using hlive)
        exact hmade ⟨hfound, haccess, hupdate⟩
    exact hdead.revokeAccessToken

theorem Dead.saveAccessToken {tables : Postgres.TokenTables} (h : Dead token tables) {now : Int}
    {faults : Postgres.CallFaults} {t : OAuth2AccessToken}
    (ht : t.token = token → t.revoked = true ∨ faults.access = true ∨
      token ∈ tables.oauth2AccessTokens) :
    Dead token (Postgres.saveAccessToken now faults t tables) := by
  unfold Postgres.saveAccessToken
  split
  · exact h
  · rename_i hadded
    refine ⟨?_, h.refresh⟩
    intro row hrow
    by_cases htoken : token = t.token
    · subst htoken
      rw [AList.lookup_insert] at hrow
      obtain rfl := Option.some.inj hrow
      rcases ht rfl with hrevoked | hfault | hfound
      · exact hrevoked
      · exact absurd (.inl hfault) hadded
      · exact absurd (.inr hfound) hadded
    · rw [AList.lookup_insert_ne htoken] at hrow
      exact h.access row hrow

theorem Dead.getAccessToken {tables : Postgres.TokenTables} (h : Dead token tables)
    {faults : Postgres.CallFaults} {t : OAuth2AccessToken}
    (ht : Postgres.getAccessToken faults token tables = some t) : t.revoked = true := by
  obtain ⟨row, hfind, rfl⟩ := Option.map_eq_some_iff.mp ht
  unfold Postgres.findAccessToken at hfind
  split at hfind
  · cases hfind
  · exact h.access row hfind

theorem Dead.introspectToken {tables : Postgres.TokenTables} (h : Dead token tables) {now : Int}
    {faults : Postgres.CallFaults} :
    (Postgres.introspectToken now faults token tables).active = false := by
  unfold Postgres.introspectToken
  split
  · rename_i row hfind
    unfold Postgres.findAccessToken at hfind
    split at hfind
    · cases hfind
    · rw [if_pos (.inl (h.access row hfind))]
  · split
    · rfl
    · rename_i rt hfind
      unfold Postgres.findRefreshToken at hfind
      split at hfind
      · cases hfind
      · rw [if_pos (.inl (h.refresh rt hfind))]

/-! ### One step -/

structure Settled (token : String) (history : List CacheEvent) (s : CacheStore) : Prop where
  dead : RevokedBefore token history → Dead token s.tables
  marked : ∀ tid ∈ history.filterMap (marks token), RevokedBefore token history
  short : ∀ key e, s.redis.lookup key = some e → e.expireAt ≤ s.clock + 60000
  covered : Invalidated token history →
    ∀ key e, (key = accessKey token ∨ key = introKey token) → s.redis.lookup key = some e →
      live e.value = true → Covered token s.redis e.expireAt

theorem RevokedBefore.of_mem {e : CacheEvent} {tid : Nat} (hmem : e ∈ history)
    (he : revokes token e = some tid) : RevokedBefore token history :=
  List.ne_nil_of_mem (List.mem_filterMap.mpr ⟨e, hmem, he⟩)

theorem RevokedBefore.cons (h : RevokedBefore token history) (e : CacheEvent) :
    RevokedBefore token (e :: history) := by
  obtain ⟨tid, htid⟩ := List.exists_mem_of_ne_nil _ h
  obtain ⟨e', he', hrevokes⟩ := List.mem_filterMap.mp htid
  exact .of_mem (List.mem_cons_of_mem e he') hrevokes

theorem RevokedBefore.of_cons {e : CacheEvent} (h : RevokedBefore token (e :: history))
    (he : revokes token e = none) : RevokedBefore token history := by
  rw [RevokedBefore, List.filterMap_cons_none he] at h
  exact h

theorem Invalidated.of_cons {e : CacheEvent} (h : Invalidated token (e :: history))
    (hmarks : marks token e = none) (hdrops : drops token e = none) :
    Invalidated token history := by
  obtain ⟨tid, hset, hdel⟩ := h
  rw [List.filterMap_cons_none hmarks] at hset
  rw [List.filterMap_cons_none hdrops] at hdel
  exact ⟨tid, hset, hdel⟩

theorem RevokedBefore.of_answer {tid : Nat} {revokedBy : String}
    (h : ⟨.backing (.revokeAccessToken token revokedBy), ()⟩ ∈ answersOf tid history) :
    RevokedBefore token history := by
  obtain ⟨req, env, hmem⟩ := mem_answersOf.mp h
  exact .of_mem hmem (if_pos rfl)

/-- An event that sets and deletes no entry. -/
theorem Settled.keep {s' : CacheStore} {e : CacheEvent} (h : Settled token history s)
    (hredis : s'.redis = s.redis) (hclock : s.clock ≤ s'.clock) (hmarks : marks token e = none)
    (hdrops : drops token e = none)
    (hdead : RevokedBefore token (e :: history) → Dead token s'.tables) :
    Settled token (e :: history) s' where
  dead := hdead
  marked tid htid := by
    rw [List.filterMap_cons_none hmarks] at htid
    exact (h.marked tid htid).cons e
  short key x hx := by
    rw [hredis] at hx
    have := h.short key x hx
    omega
  covered hinv := by
    rw [hredis]
    exact h.covered (hinv.of_cons hmarks hdrops)

theorem Settled.setEx (h : Settled token history s) {tid : Nat} {req : CacheRequest}
    {env : CacheEnv} {maxTtl ttl : Int} {key : String} {payload : Payload} (hmax : maxTtl ≤ 60)
    (henv : env.redisFails = false)
    (hseen : SetSeen maxTtl (answersOf tid history) key payload ttl)
    (hok : FillsCovered token history s env (.setEx key payload ttl)) :
    Settled token (.called tid req env ⟨.setEx key payload ttl, ()⟩ :: history)
      (CacheStore.exec env (.setEx key payload ttl) s).2 := by
  have hlookup : ∀ k e, (CacheStore.exec env (.setEx key payload ttl) s).2.redis.lookup k = some e →
      s.redis.lookup k = some e ∨
        k = key ∧ e = ⟨payload, s.clock + env.elapsed + 1000 * ttl⟩ := by
    intro k e he
    rcases lookup_exec he with he | ⟨payload', ttl', hop, rfl⟩
    · exact .inl he
    · cases hop
      exact .inr ⟨rfl, rfl⟩
  have hshort := hseen.ttl_le hmax
  constructor
  · intro hbefore
    rw [tables_exec fun _ heq => by cases heq]
    exact h.dead (hbefore.of_cons rfl)
  · intro tid' htid'
    by_cases hkey : key = revokedKey token
    · subst hkey
      obtain ⟨-, revokedBy, hrevoke⟩ := hseen.marker
      exact (RevokedBefore.of_answer hrevoke).cons _
    · have hmarks : marks token (.called tid req env ⟨.setEx key payload ttl, ()⟩) = none :=
        if_neg hkey
      rw [List.filterMap_cons_none hmarks] at htid'
      exact (h.marked tid' htid').cons _
  · intro k e he
    rw [clock_exec]
    rcases hlookup k e he with he | ⟨-, rfl⟩
    · have := h.short k e he
      omega
    · dsimp only
      omega
  · intro hinv k e hk he hlive
    by_cases hkey : key = revokedKey token
    · -- The negative entry is new, and nothing in the store outlives it.
      subst hkey
      obtain ⟨rfl, -⟩ := hseen.marker
      refine ⟨⟨payload, s.clock + env.elapsed + 1000 * 60⟩, ?_, ?_⟩
      · simp [CacheStore.exec, CacheStore.execAt, henv, CacheStore.tick]
      · rcases hlookup k e he with he | ⟨rfl, -⟩
        · have := h.short k e he
          dsimp only
          omega
        · simp at hk
    · replace hinv : Invalidated token history := hinv.of_cons (if_neg hkey) rfl
      have hmarker : (CacheStore.exec env (.setEx key payload ttl) s).2.redis.lookup
          (revokedKey token) = s.redis.lookup (revokedKey token) :=
        lookup_exec_of_untouched (fun _ _ heq => by cases heq; exact hkey rfl)
          fun _ _ heq => by cases heq
      rw [Covered, hmarker]
      rcases hlookup k e he with he | ⟨rfl, rfl⟩
      · exact h.covered hinv k e hk he hlive
      · exact hok hk hlive hinv

theorem Settled.del (h : Settled token history s) {tid : Nat} {req : CacheRequest}
    {env : CacheEnv} {token' : String} (henv : env.redisFails = false) :
    Settled token (.called tid req env ⟨.del (accessKey token') (introKey token'), ()⟩ :: history)
      (CacheStore.exec env (.del (accessKey token') (introKey token')) s).2 := by
  have hlookup : ∀ k e, (CacheStore.exec env (.del (accessKey token') (introKey token'))
      s).2.redis.lookup k = some e →
      k ≠ introKey token' ∧ k ≠ accessKey token' ∧ s.redis.lookup k = some e := by
    intro k e he
    simp only [CacheStore.exec, CacheStore.execAt, henv] at he
    obtain ⟨hintro, he⟩ := TimedStore.lookup_del_cases he
    obtain ⟨haccess, he⟩ := TimedStore.lookup_del_cases he
    exact ⟨hintro, haccess, he⟩
  constructor
  · intro hbefore
    rw [tables_exec fun _ heq => by cases heq]
    exact h.dead (hbefore.of_cons rfl)
  · intro tid' htid'
    rw [List.filterMap_cons_none rfl] at htid'
    exact (h.marked tid' htid').cons _
  · intro k e he
    rw [clock_exec]
    have := h.short k e (hlookup k e he).2.2
    omega
  · intro hinv k e hk he hlive
    obtain ⟨hintro, haccess, he⟩ := hlookup k e he
    have htoken : token' ≠ token := by
      intro heq
      subst heq
      exact hk.elim haccess hintro
    replace hinv : Invalidated token history :=
      hinv.of_cons rfl (if_neg (accessKey_inj.not.mpr htoken))
    have hmarker : (CacheStore.exec env (.del (accessKey token') (introKey token'))
        s).2.redis.lookup (revokedKey token) = s.redis.lookup (revokedKey token) :=
      lookup_exec_of_untouched (fun _ _ heq => by cases heq) fun _ _ heq => by cases heq; simp
    rw [Covered, hmarker]
    exact h.covered hinv k e hk he hlive

theorem Settled.backing (h : Settled token history s) {tid : Nat} {req : CacheRequest}
    {env : CacheEnv} (hreq : CacheSteps (.start req))
    (hok : FillsCovered token history s env (.backing req.call)) :
    Settled token
      (.called tid req env ⟨.backing req.call, (CacheStore.exec env (.backing req.call) s).1⟩ ::
        history) (CacheStore.exec env (.backing req.call) s).2 := by
  have hclock : s.clock ≤ (CacheStore.exec env (.backing req.call) s).2.clock := by
    rw [clock_exec]
    omega
  cases req with
  | getAccessToken token' => exact h.keep rfl hclock rfl rfl fun hb => h.dead (hb.of_cons rfl)
  | introspectToken token' => exact h.keep rfl hclock rfl rfl fun hb => h.dead (hb.of_cons rfl)
  | saveAccessToken t =>
    refine h.keep rfl hclock rfl rfl ?_
    intro hbefore
    replace hbefore : RevokedBefore token history := hbefore.of_cons rfl
    exact (h.dead hbefore).saveAccessToken fun ht => hok ht hbefore
  | revokeAccessToken token' revokedBy =>
    refine h.keep rfl hclock rfl rfl ?_
    intro hbefore
    by_cases htoken : token' = token
    · subst htoken
      exact Reaches.dead (hok rfl) revokedBy
    · exact (h.dead (hbefore.of_cons (if_neg htoken))).revokeAccessToken
  | _ => cases hreq

theorem Settled.called (h : Settled token history s) {tid : Nat} {req : CacheRequest}
    {env : CacheEnv} {maxTtl : Int} {op : CacheCall} (hmax : maxTtl ≤ 60)
    (hreq : CacheSteps (.start req)) (henv : env.redisFails = false)
    (hseen : WriteSeen maxTtl req (answersOf tid history) op)
    (hok : FillsCovered token history s env op) :
    Settled token (.called tid req env ⟨op, (CacheStore.exec env op s).1⟩ :: history)
      (CacheStore.exec env op s).2 := by
  have hclock : s.clock ≤ (CacheStore.exec env op s).2.clock := by
    rw [clock_exec]
    omega
  cases op with
  | setEx key payload ttl => exact h.setEx hmax henv hseen hok
  | del key key' =>
    obtain ⟨token', rfl, rfl⟩ := hseen
    exact h.del henv
  | backing call =>
    obtain rfl := hseen
    exact h.backing hreq hok
  | _ => exact h.keep rfl hclock rfl rfl fun hb => h.dead (hb.of_cons rfl)

/-! ### Every run -/

theorem settled_of_run {p : Pool (service accessTokenMaxTtlSeconds)}
    (hmax : accessTokenMaxTtlSeconds ≤ 60) (hempty : s₀.redis = ∅)
    (hrun : (service accessTokenMaxTtlSeconds).machine.Run
      (NoLateFill accessTokenMaxTtlSeconds token)
      ((service accessTokenMaxTtlSeconds).start s₀) history p) :
    Settled token history p.shared := by
  induction hrun with
  | init =>
    refine ⟨?_, ?_, ?_, ?_⟩
    · intro h
      exact absurd rfl h
    · intro tid htid
      cases htid
    · intro key e he
      change s₀.redis.lookup _ = _ at he
      rw [hempty] at he
      cases he
    · intro h
      obtain ⟨tid, htid, -⟩ := h
      cases htid
  | @next history p i hrun hok ih =>
    have hkeep : ∀ e : CacheEvent, (∀ tid req env a, e ≠ .called tid req env a) →
        Settled token (e :: history) p.shared := by
      intro e he
      cases e with
      | called tid req env a => exact absurd rfl (he tid req env a)
      | _ => exact ih.keep rfl (le_refl _) rfl rfl fun hb => ih.dead (hb.of_cons rfl)
    change Settled token (((service accessTokenMaxTtlSeconds).step p i).2 :: history)
      ((service accessTokenMaxTtlSeconds).step p i).1.shared
    rcases step_cases p i with ⟨request, -, hs⟩ | ⟨tid, env, t, op, k, hrest, rfl, ht, hs⟩ | hs
    · rw [hs]
      exact hkeep _ fun _ _ _ _ h => by cases h
    · rw [hs]
      have hseen := traced_of_thread (S := service accessTokenMaxTtlSeconds)
        (traced_program accessTokenMaxTtlSeconds) t hrest
      rw [(described_of_run hrun).answers ht] at hseen
      obtain ⟨past, q, hreq, -⟩ := guarded_of_thread hrun (List.mem_of_getElem? ht)
      exact ih.called (effectiveMaxTtl_le hmax) hreq hok.1 hseen
        (hok.2 op (Pool.next_eq ht hrest))
    · rw [hs]
      exact hkeep _ fun _ _ _ _ h => by cases h

/-! ### What a read gets -/

theorem Settled.value (h : Settled token history s) {env : CacheEnv} {key : String}
    {payload : Payload} (hinv : Invalidated token history)
    (hkey : key = accessKey token ∨ key = introKey token)
    (hvalue : (CacheStore.exec env (.revokedThenGet (revokedKey token) key) s).1 =
      some (.value payload)) : live payload ≠ true := by
  intro hlive
  simp only [CacheStore.exec, CacheStore.execAt] at hvalue
  split at hvalue
  · cases hvalue
  have hfound := Option.some.inj hvalue
  unfold revokedThenGet at hfound
  split at hfound
  · cases hfound
  rename_i hunmarked
  split at hfound
  · rename_i payload' hget
    cases hfound
    obtain ⟨e, he, hfresh, rfl⟩ := TimedStore.get_eq_some_iff.mp hget
    obtain ⟨n, hn, hle⟩ := h.covered hinv key e hkey he hlive
    exact hunmarked (TimedStore.contains_eq_true_iff.mpr ⟨n, hn, lt_of_lt_of_le hfresh hle⟩)
  · cases hfound

theorem Settled.revokedBefore (h : Settled token history s) (hinv : Invalidated token history) :
    RevokedBefore token history := by
  obtain ⟨tid, hset, -⟩ := hinv
  exact h.marked tid hset

theorem Revoked.invalidated (h : Revoked token history) : Invalidated token history := by
  obtain ⟨tid, hset, hdel, -⟩ := h
  exact ⟨tid, hset, hdel⟩

theorem Invalidated.append (h : Invalidated token history) (later : List CacheEvent) :
    Invalidated token (later ++ history) := by
  obtain ⟨tid, hset, hdel⟩ := h
  rw [Invalidated, List.filterMap_append, List.filterMap_append]
  exact ⟨tid, List.mem_append_right _ hset, List.mem_append_right _ hdel⟩

/-- With an access token lifetime in the cache of at most 60 seconds and all Redis commands
succeeding, a revoked token is never served again in a run whose late fills the negative entry covers
and whose revocations leave no live row. -/
theorem revoked_never_served (accessTokenMaxTtlSeconds : Int) (hmax : accessTokenMaxTtlSeconds ≤ 60)
    (token : String) (s₀ : CacheStore) (hempty : s₀.redis = ∅) (history : List CacheEvent)
    (p : Pool (service accessTokenMaxTtlSeconds))
    (hrun : (service accessTokenMaxTtlSeconds).machine.Run
      (NoLateFill accessTokenMaxTtlSeconds token)
      ((service accessTokenMaxTtlSeconds).start s₀) history p) :
    NeverServed token history := by
  intro later tid req past hsplit hreads hrevoked env reply hcalled hreports
  subst hsplit
  obtain ⟨post, mid, rfl⟩ := List.append_of_mem hcalled
  rw [List.append_assoc, List.cons_append] at hrun
  obtain ⟨q', hq'⟩ := hrun.shorter
  have hseen : ReplySeen (answersOf tid (mid ++ .started tid req :: past)) req reply :=
    traced_of_called (traced_program accessTokenMaxTtlSeconds) hq'
  obtain ⟨_, _, hq, -, -⟩ := hq'.last
  have hsettled : ∀ a ∈ answersOf tid (mid ++ .started tid req :: past),
      ∃ env h' s, Invalidated token h' ∧ Settled token h' s ∧ Dead token s.tables ∧
        a.resp = (CacheStore.exec env a.op s).1 := by
    intro a ha
    obtain ⟨mid', env', q, hq, -, hresp⟩ := answered_since_started hq ha
    have hs := settled_of_run hmax hempty hq
    have hinv := (hrevoked.invalidated.append [.started tid req]).append mid'
    rw [List.singleton_append] at hinv
    exact ⟨env', _, q.shared, hinv, hs, hs.dead (hs.revokedBefore hinv), hresp⟩
  rcases hreads with rfl | rfl
  · cases reply with
    | access t =>
      cases t with
      | none => exact hreports
      | some t =>
        rcases hseen with hvalue | hget
        · obtain ⟨env', h', s, hinv, hs, -, hresp⟩ := hsettled _ hvalue
          exact hs.value hinv (.inl rfl) hresp.symm (congrArg Bool.not hreports)
        · obtain ⟨env', h', s, -, -, hdead, hresp⟩ := hsettled _ hget
          cases (hdead.getAccessToken hresp.symm).symm.trans hreports
    | _ => cases hseen
  · cases reply with
    | introspection res =>
      rcases hseen hreports with hvalue | hget
      · obtain ⟨env', h', s, hinv, hs, -, hresp⟩ := hsettled _ hvalue
        exact hs.value hinv (.inr rfl) hresp.symm hreports
      · obtain ⟨env', h', s, -, -, hdead, hresp⟩ := hsettled _ hget
        have hactive : (Postgres.introspectToken env'.now env'.faults token s.tables).active = true :=
          (congrArg TokenIntrospection.active hresp).symm.trans hreports
        cases hactive.symm.trans hdead.introspectToken
    | _ => exact hseen

/-! ### A fill that outlives the negative entry -/

def knownAccess : OAuth2AccessToken where
  token := "access hash"
  clientId := "spa"
  userId := "1"
  scope := "openid"
  expiresAt := 4600

/-- The token is stored, and nothing is cached. -/
def knownStore : CacheStore :=
  ⟨1000000, ∅, ⟨AList.singleton knownAccess.token knownAccess, ∅⟩⟩

def env (elapsed : Nat) (taskFirst : Bool) : CacheEnv :=
  { now := 1000, elapsed := elapsed, taskFirst := taskFirst }

/-- A read has fetched the token when the token is revoked; its fill arrives half a minute later, and
the next read comes when the negative entry has just expired. -/
def lateFill : List (Input CacheEnv CacheRequest) :=
  (.start (.getAccessToken knownAccess.token) ::
    List.replicate 5 (.advance 0 (env 0 false)) : List (Input CacheEnv CacheRequest)) ++
  (.start (.revokeAccessToken knownAccess.token "admin") ::
    List.replicate 6 (.advance 1 (env 0 true)) : List (Input CacheEnv CacheRequest)) ++
  (.advance 0 (env 30000 true) ::
    .start (.getAccessToken knownAccess.token) ::
    [.advance 2 (env 31000 true), .advance 2 (env 0 true)] : List (Input CacheEnv CacheRequest))

def executed (inputs : List (Input CacheEnv CacheRequest)) : List CacheEvent × Pool (service 60) :=
  (service 60).machine.exec [] ((service 60).start knownStore) inputs

theorem lateFill_served :
    (service 60).machine.Run (fun _ _ i => CacheSteps i) ((service 60).start knownStore)
      (executed lateFill).1 (executed lateFill).2 ∧
    ¬NeverServed knownAccess.token (executed lateFill).1 := by
  obtain ⟨hguarded, hrevoked⟩ :
      (service 60).machine.Guarded (fun _ _ i => CacheSteps i) [] ((service 60).start knownStore)
          lateFill ∧
        Revoked knownAccess.token ((executed lateFill).1.drop 3) := by
    decide +kernel
  refine ⟨.exec_of_guarded .init lateFill hguarded, ?_⟩
  intro h
  exact h ((executed lateFill).1.take 2) 2 (.getAccessToken knownAccess.token) _ rfl (.inl rfl)
    hrevoked (env 0 true) (.access (some knownAccess)) List.mem_cons_self rfl

/-- The fill arrives before the revocation does, and the read comes after the negative entry. -/
def earlyFill : List (Input CacheEnv CacheRequest) :=
  (.start (.getAccessToken knownAccess.token) ::
    List.replicate 6 (.advance 0 (env 0 false)) : List (Input CacheEnv CacheRequest)) ++
  (.start (.revokeAccessToken knownAccess.token "admin") ::
    List.replicate 6 (.advance 1 (env 0 true)) : List (Input CacheEnv CacheRequest)) ++
  (.start (.getAccessToken knownAccess.token) ::
    .advance 2 (env 61000 true) ::
    List.replicate 5 (.advance 2 (env 0 true)) : List (Input CacheEnv CacheRequest))

theorem revoked_never_served_earlyFill :
    Revoked knownAccess.token ((executed earlyFill).1.drop 7) ∧
    NeverServed knownAccess.token (executed earlyFill).1 := by
  obtain ⟨hguarded, hrevoked⟩ :
      (service 60).machine.Guarded (NoLateFill 60 knownAccess.token) []
          ((service 60).start knownStore) earlyFill ∧
        Revoked knownAccess.token ((executed earlyFill).1.drop 7) := by
    decide +kernel
  refine ⟨hrevoked, ?_⟩
  exact revoked_never_served 60 (le_refl 60) knownAccess.token knownStore rfl _ _
    (.exec_of_guarded .init earlyFill hguarded)

end AuthForge.RevokedTokens
