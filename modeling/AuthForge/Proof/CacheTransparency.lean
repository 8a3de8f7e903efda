import AuthForge.OAuth2.TokenService
import AuthForge.Storage.TokenCache

/-!
# The token cache when calls do not overlap

One call after another, each with all its commands done before the next one comes, and any time
between them. The cached repository and the wrapped one go through the same calls side by side; after
every such sequence an access token is valid through the cache exactly if it is without it, and an
introspection is active exactly if it is without it.

A revocation sets the negative entry of its token whether or not the database has revoked anything.
It does not for a refresh token, so the condition is that no live refresh token is revoked as an
access token.
-/

namespace AuthForge.CacheTransparency

open OAuth2 Storage Storage.TokenCache

/-! ### Calls one after another -/

/-- A call, how many milliseconds it comes after the end of the call before it, and the order of its
commands that nobody waits for. -/
structure Call where
  elapsed : Nat
  request : CacheRequest
  taskFirst : Nat → Bool

/-- Everything succeeds, and no time passes within a call. -/
def quiet (now : Int) (taskFirst : Bool) : CacheEnv := { now := now, taskFirst := taskFirst }

/-- `std::time` while the clock of Redis shows that many milliseconds. -/
def seconds (clock : Int) : Int := clock / 1000

def callCached (accessTokenMaxTtlSeconds : Int) (c : Call) (s : CacheStore) :
    CacheReply × CacheStore :=
  let s := s.tick c.elapsed
  let r := Prog.eval CacheStore.exec (fun n => quiet (seconds s.clock) (c.taskFirst n)) 0
    (program accessTokenMaxTtlSeconds c.request) s
  (r.1, r.2.1)

/-- What the wrapped repository does by itself. -/
def callAlone (now : Int) (req : CacheRequest) (tables : Postgres.TokenTables) :
    CacheReply × Postgres.TokenTables :=
  let r := execBacking (quiet now false) req.call tables
  (req.reply r.1, r.2)

/-- The two repositories beside each other, with one clock. -/
structure Both where
  cached : CacheStore
  alone : Postgres.TokenTables

def Both.step (accessTokenMaxTtlSeconds : Int) (b : Both) (c : Call) : Both × CacheRequest :=
  ({ cached := (callCached accessTokenMaxTtlSeconds c b.cached).2
     alone := (callAlone (seconds (b.cached.clock + c.elapsed)) c.request b.alone).2 },
    c.request)

def machine (accessTokenMaxTtlSeconds : Int) : Machine Both Call CacheRequest :=
  ⟨Both.step accessTokenMaxTtlSeconds⟩

def fresh (clock : Int) : Both := ⟨⟨clock, ∅, ⟨∅, ∅⟩⟩, ⟨∅, ∅⟩⟩

/-! ### The sequences -/

def savedAccess : CacheRequest → List String
  | .saveAccessToken token => [token.token]
  | .saveTokenPair access _ => [access.token]
  | _ => []

def savedRefresh : CacheRequest → List String
  | .saveTokenPair _ refresh => [refresh.token]
  | .saveRefreshToken token => [token.token]
  | _ => []

def saved (req : CacheRequest) : List String := savedAccess req ++ savedRefresh req

def revokedAccess : CacheRequest → List String
  | .revokeAccessToken token _ => [token]
  | _ => []

def revokesFamily : CacheRequest → Bool
  | .revokeTokenFamily _ => true
  | _ => false

/-- No family is revoked, a token is saved at most once, and none is revoked before it is saved. -/
structure WellFormed (history : List CacheRequest) (req : CacheRequest) : Prop where
  family : revokesFamily req = false
  nodup : (saved req).Nodup
  unsaved : ∀ token ∈ saved req, token ∉ history.flatMap saved
  unrevoked : ∀ token ∈ saved req, token ∉ history.flatMap revokedAccess

/-- A token that is revoked as an access token is one, or is no live refresh token. -/
def RevokesNoRefreshToken (now : Int) (tables : Postgres.TokenTables) (req : CacheRequest) : Prop :=
  ∀ token ∈ revokedAccess req, token ∈ tables.oauth2AccessTokens ∨
    ∀ rt ∈ tables.oauth2RefreshTokens.lookup token, rt.revoked = true ∨ rt.expiresAt < now

theorem wellFormed_iff {history : List CacheRequest} {req : CacheRequest} :
    WellFormed history req ↔
      revokesFamily req = false ∧ (saved req).Nodup ∧
        (∀ token ∈ saved req, token ∉ history.flatMap saved) ∧
        ∀ token ∈ saved req, token ∉ history.flatMap revokedAccess :=
  ⟨fun h => ⟨h.family, h.nodup, h.unsaved, h.unrevoked⟩, fun h => ⟨h.1, h.2.1, h.2.2.1, h.2.2.2⟩⟩

instance (history : List CacheRequest) (req : CacheRequest) : Decidable (WellFormed history req) :=
  decidable_of_iff _ wellFormed_iff.symm

instance (now : Int) (tables : Postgres.TokenTables) (req : CacheRequest) :
    Decidable (RevokesNoRefreshToken now tables req) :=
  inferInstanceAs (Decidable (∀ _ ∈ _, _ ∨ ∀ _ ∈ _, _))

def Sequential : Guard Both Call CacheRequest := fun history _ c => WellFormed history c.request

def Conditional : Guard Both Call CacheRequest := fun history b c =>
  WellFormed history c.request ∧
    RevokesNoRefreshToken (seconds (b.cached.clock + c.elapsed)) b.alone c.request

instance (history : List CacheRequest) (b : Both) (c : Call) : Decidable (Sequential history b c) :=
  inferInstanceAs (Decidable (WellFormed _ _))

instance (history : List CacheRequest) (b : Both) (c : Call) : Decidable (Conditional history b c) :=
  inferInstanceAs (Decidable (_ ∧ _))

/-! ### What a call does to the tables -/

/-- Live access tokens stay as they are unless they are revoked, and rows come from rows or are
saved. -/
structure Evolves (now : Int) (req : CacheRequest) (tables tables' : Postgres.TokenTables) :
    Prop where
  keeps : ∀ token row, token ∉ revokedAccess req →
    tables.oauth2AccessTokens.lookup token = some row → row.revoked = false →
    now ≤ row.expiresAt → ∃ row', tables'.oauth2AccessTokens.lookup token = some row' ∧
      row'.revoked = false ∧ row'.expiresAt = row.expiresAt
  access : ∀ token row', tables'.oauth2AccessTokens.lookup token = some row' →
    token ∈ savedAccess req ∨ ∃ row, tables.oauth2AccessTokens.lookup token = some row ∧
      (row.revoked = true → row'.revoked = true)
  refresh : ∀ token rt', tables'.oauth2RefreshTokens.lookup token = some rt' →
    token ∈ savedRefresh req ∨ ∃ rt, tables.oauth2RefreshTokens.lookup token = some rt ∧
      (rt.revoked = true → rt'.revoked = true) ∧ rt'.expiresAt = rt.expiresAt

variable {now : Int} {taskFirst : Bool} {req : CacheRequest}
  {tables tables' : Postgres.TokenTables}

theorem Evolves.of_same_access (h : tables'.oauth2AccessTokens = tables.oauth2AccessTokens)
    (hrefresh : ∀ token rt', tables'.oauth2RefreshTokens.lookup token = some rt' →
      token ∈ savedRefresh req ∨ ∃ rt, tables.oauth2RefreshTokens.lookup token = some rt ∧
        (rt.revoked = true → rt'.revoked = true) ∧ rt'.expiresAt = rt.expiresAt) :
    Evolves now req tables tables' where
  keeps token row _ hrow hlive _ := ⟨row, by rw [h]; exact hrow, hlive, rfl⟩
  access token row' hrow' := .inr ⟨row', by rw [← h]; exact hrow', id⟩
  refresh := hrefresh

theorem Evolves.refl : Evolves now req tables tables :=
  .of_same_access rfl fun _ rt h => .inr ⟨rt, h, id, rfl⟩

/-- An update of the access tokens that keeps their expiry and un-revokes none. -/
theorem Evolves.of_access_map {f : String → OAuth2AccessToken → OAuth2AccessToken}
    (haccess : tables'.oauth2AccessTokens = tables.oauth2AccessTokens.mapValues f)
    (hrefresh : ∀ token rt', tables'.oauth2RefreshTokens.lookup token = some rt' →
      token ∈ savedRefresh req ∨ ∃ rt, tables.oauth2RefreshTokens.lookup token = some rt ∧
        (rt.revoked = true → rt'.revoked = true) ∧ rt'.expiresAt = rt.expiresAt)
    (hexpires : ∀ token row, (f token row).expiresAt = row.expiresAt)
    (hrevokes : ∀ token row, row.revoked = true → (f token row).revoked = true)
    (hkeeps : ∀ token row, token ∉ revokedAccess req → row.revoked = false →
      (f token row).revoked = false) :
    Evolves now req tables tables' where
  keeps token row hnot hrow hlive _ :=
    ⟨f token row, by rw [haccess, Dict.lookup_mapValues, hrow]; rfl, hkeeps token row hnot hlive,
      hexpires token row⟩
  access token row' hrow' := by
    rw [haccess, Dict.lookup_mapValues, Option.map_eq_some_iff] at hrow'
    obtain ⟨row, hrow, rfl⟩ := hrow'
    exact .inr ⟨row, hrow, hrevokes token row⟩
  refresh := hrefresh

theorem evolves_saveAccessToken {token : OAuth2AccessToken} :
    Evolves now (.saveAccessToken token) tables (Postgres.saveAccessToken now {} token tables) := by
  unfold Postgres.saveAccessToken
  split
  · exact .refl
  · rename_i hfresh
    refine ⟨?_, ?_, fun _ rt h => .inr ⟨rt, h, id, rfl⟩⟩
    · intro token' row _ hrow hlive _
      have hne : token' ≠ token.token := by
        intro heq
        exact hfresh (.inr (heq ▸ AList.lookup_isSome.mp (by rw [hrow]; rfl)))
      exact ⟨row, (AList.lookup_insert_ne hne).trans hrow, hlive, rfl⟩
    · intro token' row' hrow'
      by_cases hne : token' = token.token
      · exact .inl (List.mem_singleton.mpr hne)
      · exact .inr ⟨row', (AList.lookup_insert_ne hne).symm.trans hrow', id⟩

theorem evolves_saveTokenPair {access : OAuth2AccessToken} {refresh : OAuth2RefreshToken} :
    Evolves now (.saveTokenPair access refresh) tables
      (Postgres.saveTokenPair { now := now } access refresh tables).2 := by
  unfold Postgres.saveTokenPair
  split
  · exact .refl
  · rename_i hfresh
    refine ⟨?_, ?_, ?_⟩
    · intro token row _ hrow hlive _
      have hne : token ≠ access.token := by
        intro heq
        exact hfresh (.inr (.inl (heq ▸ AList.lookup_isSome.mp (by rw [hrow]; rfl))))
      exact ⟨row, (AList.lookup_insert_ne hne).trans hrow, hlive, rfl⟩
    · intro token row' hrow'
      by_cases hne : token = access.token
      · exact .inl (List.mem_singleton.mpr hne)
      · exact .inr ⟨row', (AList.lookup_insert_ne hne).symm.trans hrow', id⟩
    · intro token rt' hrt'
      by_cases hne : token = refresh.token
      · exact .inl (List.mem_singleton.mpr hne)
      · exact .inr ⟨rt', (AList.lookup_insert_ne hne).symm.trans hrt', id, rfl⟩

theorem evolves_revokeAccessToken {token revokedBy : String} :
    Evolves now (.revokeAccessToken token revokedBy) tables
      (Postgres.revokeAccessToken now {} token revokedBy tables) := by
  unfold Postgres.revokeAccessToken
  split
  · exact .refl
  · rw [if_pos rfl, Postgres.revokeBoth]
    refine .of_access_map
      (f := fun k row => if k = token then { row with revoked := true, revokedAt := now, revokedBy }
        else row) rfl ?_ ?_ ?_ ?_
    · intro token' rt' hrt'
      simp only [Bool.false_eq_true, if_false, Dict.lookup_mapValues,
        Option.map_eq_some_iff] at hrt'
      obtain ⟨rt, hrt, rfl⟩ := hrt'
      refine .inr ⟨rt, hrt, ?_, ?_⟩ <;> split <;> simp
    · intro token' row
      split <;> rfl
    · intro token' row h
      split
      · rfl
      · exact h
    · intro token' row hnot hlive
      rw [if_neg fun heq => hnot (List.mem_singleton.mpr heq)]
      exact hlive

theorem evolves_purgeExpired : Evolves now .purgeExpired tables (Postgres.purgeExpired now {} tables) := by
  refine ⟨?_, ?_, ?_⟩
  · intro token row _ hrow hlive hfresh
    refine ⟨row, ?_, hlive, rfl⟩
    have harchive : Postgres.archivable now row = false := by
      simp only [Postgres.archivable, hlive, Bool.false_and, Bool.or_false, decide_eq_false_iff_not]
      omega
    simp [Postgres.purgeExpired, hrow, harchive, hfresh]
  · intro token row' hrow'
    simp only [Postgres.purgeExpired, Bool.false_eq_true, if_false, Dict.lookup_keepValues,
      Option.filter_eq_some_iff] at hrow'
    exact .inr ⟨row', hrow'.1.1, id⟩
  · intro token rt' hrt'
    simp only [Postgres.purgeExpired, Bool.false_eq_true, if_false, Dict.lookup_keepValues,
      Option.filter_eq_some_iff] at hrt'
    exact .inr ⟨rt', hrt'.1, id, rfl⟩

/-- Every call but a family revocation. -/
theorem evolves_call (hfamily : revokesFamily req = false) :
    Evolves now req tables (callAlone now req tables).2 := by
  cases req with
  | revokeTokenFamily familyId => cases hfamily
  | saveAccessToken token => exact evolves_saveAccessToken
  | saveTokenPair access refresh => exact evolves_saveTokenPair
  | revokeAccessToken token revokedBy => exact evolves_revokeAccessToken
  | purgeExpired => exact evolves_purgeExpired
  | getAccessToken token => exact .refl
  | introspectToken token => exact .refl
  | getRefreshToken token => exact .refl
  | saveRefreshToken token =>
    refine .of_same_access ?_ ?_
    · simp only [callAlone, CacheRequest.call, execBacking, Postgres.saveRefreshToken]
      split <;> rfl
    · intro token' rt' hrt'
      simp only [callAlone, CacheRequest.call, execBacking, Postgres.saveRefreshToken] at hrt'
      split at hrt'
      · exact .inr ⟨rt', hrt', id, rfl⟩
      · by_cases hne : token' = token.token
        · exact .inl (List.mem_singleton.mpr hne)
        · exact .inr ⟨rt', (AList.lookup_insert_ne hne).symm.trans hrt', id, rfl⟩
  | revokeRefreshToken token =>
    refine .of_same_access rfl ?_
    intro token' rt' hrt'
    simp only [callAlone, CacheRequest.call, execBacking, Postgres.revokeRefreshToken, quiet,
      Bool.false_eq_true, if_false, Dict.lookup_mapValues, Option.map_eq_some_iff] at hrt'
    obtain ⟨rt, hrt, rfl⟩ := hrt'
    refine .inr ⟨rt, hrt, ?_, ?_⟩ <;> split <;> simp
  | atomicRevokeRefreshToken token =>
    change Evolves now _ tables
      (Postgres.atomicRevokeRefreshToken (quiet now false).toEnv token tables).2
    cases hwon : (Postgres.atomicRevokeRefreshToken (quiet now false).toEnv token tables).1 with
    | none =>
      rw [Postgres.atomicRevokeRefreshToken_lost hwon]
      exact .refl
    | some rt =>
      obtain ⟨it, hit, -, -, hafter⟩ := Postgres.atomicRevokeRefreshToken_won hwon
      rw [hafter]
      refine .of_same_access rfl ?_
      intro token' rt' hrt'
      by_cases hne : token' = token
      · subst hne
        rw [AList.lookup_insert] at hrt'
        obtain rfl := Option.some.inj hrt'
        exact .inr ⟨it, hit, fun _ => rfl, rfl⟩
      · exact .inr ⟨rt', (AList.lookup_insert_ne hne).symm.trans hrt', id, rfl⟩
  | incrementIntrospectCount token =>
    change Evolves now _ tables (Postgres.incrementIntrospectCount {} token tables)
    unfold Postgres.incrementIntrospectCount
    split
    · exact .refl
    · rename_i found _
      rw [if_neg (by simp)]
      refine .of_access_map
        (f := fun k row =>
          if k = token then { row with introspectCount := found.introspectCount + 1 } else row)
        rfl (fun _ rt h => .inr ⟨rt, h, id, rfl⟩) ?_ ?_ ?_
      · intro token' row
        split <;> rfl
      · intro token' row h
        split <;> exact h
      · intro token' row _ h
        split <;> exact h

/-! ### The cache mirrors the tables -/

/-- Neither table has a live row of the token. -/
structure NotLive (now : Int) (token : String) (tables : Postgres.TokenTables) : Prop where
  access : ∀ row, tables.oauth2AccessTokens.lookup token = some row → row.revoked = true
  refresh : ∀ rt, tables.oauth2RefreshTokens.lookup token = some rt →
    rt.revoked = true ∨ rt.expiresAt < now

/-- A cached access token stands for a row that is as live as it is, while it is cached. -/
structure AccessEntry (names : List String) (tables : Postgres.TokenTables) (token : String)
    (expireAt : Int) (t : OAuth2AccessToken) : Prop where
  saved : token ∈ names
  access : token ∉ tables.oauth2RefreshTokens
  revoked : t.revoked = true →
    ∀ row, tables.oauth2AccessTokens.lookup token = some row → row.revoked = true
  live : t.revoked = false → ∃ row, tables.oauth2AccessTokens.lookup token = some row ∧
    row.revoked = false ∧ row.expiresAt = t.expiresAt ∧ expireAt < 1000 * (t.expiresAt + 1)

structure IntroEntry (tables : Postgres.TokenTables) (token : String) (expireAt : Int)
    (res : TokenIntrospection) : Prop where
  active : res.active = true
  live : ∃ row, tables.oauth2AccessTokens.lookup token = some row ∧ row.revoked = false ∧
    expireAt < 1000 * (row.expiresAt + 1)

/-- `names` have been saved, and `revoked` have been revoked as access tokens. -/
structure Mirrors (names revoked : List String) (s : CacheStore) : Prop where
  access_saved : ∀ token ∈ s.tables.oauth2AccessTokens, token ∈ names
  refresh_saved : ∀ token ∈ s.tables.oauth2RefreshTokens, token ∈ names
  disjoint : ∀ token ∈ s.tables.oauth2AccessTokens, token ∉ s.tables.oauth2RefreshTokens
  access : ∀ token e, s.redis.live s.clock (accessKey token) = some e →
    ∃ t, e.value = .access t ∧ AccessEntry names s.tables token e.expireAt t
  intro : ∀ token e, s.redis.live s.clock (introKey token) = some e →
    ∃ res, e.value = .introspection res ∧ IntroEntry s.tables token e.expireAt res
  negative : ∀ token e, s.redis.live s.clock (revokedKey token) = some e →
    token ∈ revoked ∧ NotLive (seconds s.clock) token s.tables

variable {names revoked : List String} {s s' : CacheStore}

theorem mem_of_lookup {β : Type} {d : Dict String β} {k : String} {v : β} (h : d.lookup k = some v) :
    k ∈ d :=
  AList.lookup_isSome.mp (by rw [h]; rfl)

theorem seconds_le_of_lt {clock expiresAt : Int} (h : clock < 1000 * (expiresAt + 1)) :
    seconds clock ≤ expiresAt := by
  unfold seconds
  omega

theorem mirrors_fresh (clock : Int) : Mirrors [] [] (fresh clock).cached := by
  refine ⟨?_, ?_, ?_, ?_, ?_, ?_⟩ <;> intro token h
  · cases h
  · cases h
  · cases h
  all_goals
    intro hlive
    cases hlive

theorem Mirrors.of_fewer (h : Mirrors names revoked s) (hclock : s.clock ≤ s'.clock)
    (htables : s'.tables = s.tables)
    (hlookup : ∀ k e, s'.redis.lookup k = some e → s.redis.lookup k = some e) :
    Mirrors names revoked s' := by
  have hlive : ∀ k e, s'.redis.live s'.clock k = some e → s.redis.live s.clock k = some e := by
    intro k e he
    rw [TimedStore.live_eq_some_iff] at he ⊢
    exact ⟨hlookup k e he.1, by omega⟩
  refine ⟨?_, ?_, ?_, ?_, ?_, ?_⟩
  · rw [htables]
    exact h.access_saved
  · rw [htables]
    exact h.refresh_saved
  · rw [htables]
    exact h.disjoint
  · intro token e he
    rw [htables]
    exact h.access token e (hlive _ e he)
  · intro token e he
    rw [htables]
    exact h.intro token e (hlive _ e he)
  · intro token e he
    obtain ⟨hrevoked, haccess, hrefresh⟩ := h.negative token e (hlive _ e he)
    rw [htables]
    refine ⟨hrevoked, haccess, fun rt hrt => (hrefresh rt hrt).imp_right ?_⟩
    intro hexpired
    unfold seconds at hexpired ⊢
    omega

theorem Mirrors.tick (h : Mirrors names revoked s) (elapsed : Nat) :
    Mirrors names revoked (s.tick elapsed) := by
  refine h.of_fewer ?_ rfl fun _ _ he => he
  change s.clock ≤ s.clock + elapsed
  omega

theorem Mirrors.setEx (h : Mirrors names revoked s) {key : String} {payload : Payload} {ttl : Int}
    (haccess : ∀ token, key = accessKey token →
      ∃ t, payload = .access t ∧ AccessEntry names s.tables token (s.clock + ttl) t)
    (hintro : ∀ token, key = introKey token →
      ∃ res, payload = .introspection res ∧ IntroEntry s.tables token (s.clock + ttl) res)
    (hnegative : ∀ token, key = revokedKey token →
      token ∈ revoked ∧ NotLive (seconds s.clock) token s.tables) :
    Mirrors names revoked { s with redis := s.redis.setEx s.clock key payload ttl } := by
  have hcases : ∀ k e, (s.redis.setEx s.clock key payload ttl).live s.clock k = some e →
      (key = k ∧ e = ⟨payload, s.clock + ttl⟩) ∨ s.redis.live s.clock k = some e := by
    intro k e he
    rw [TimedStore.live_eq_some_iff] at he
    rcases TimedStore.lookup_setEx_cases he.1 with ⟨rfl, rfl⟩ | ⟨-, hold⟩
    · exact .inl ⟨rfl, rfl⟩
    · exact .inr (TimedStore.live_eq_some_iff.mpr ⟨hold, he.2⟩)
  refine ⟨h.access_saved, h.refresh_saved, h.disjoint, ?_, ?_, ?_⟩
  · intro token e he
    rcases hcases _ e he with ⟨hkey, rfl⟩ | he
    · exact haccess token hkey
    · exact h.access token e he
  · intro token e he
    rcases hcases _ e he with ⟨hkey, rfl⟩ | he
    · exact hintro token hkey
    · exact h.intro token e he
  · intro token e he
    rcases hcases _ e he with ⟨hkey, rfl⟩ | he
    · exact hnegative token hkey
    · exact h.negative token e he

/-- The tables move on. What a revocation changes is not cached any more. -/
theorem Mirrors.evolve (h : Mirrors names revoked s)
    (hevolves : Evolves (seconds s.clock) req s.tables tables') (hnodup : (saved req).Nodup)
    (hsaved : ∀ token ∈ saved req, token ∉ names) (hrevoked : ∀ token ∈ saved req, token ∉ revoked)
    (haccess : ∀ token ∈ revokedAccess req, s.redis.lookup (accessKey token) = none)
    (hintro : ∀ token ∈ revokedAccess req, s.redis.lookup (introKey token) = none) :
    Mirrors (saved req ++ names) revoked { s with tables := tables' } := by
  have hsavedAccess : ∀ token ∈ savedAccess req, token ∈ saved req :=
    fun token => List.mem_append_left _
  have hsavedRefresh : ∀ token ∈ savedRefresh req, token ∈ saved req :=
    fun token => List.mem_append_right _
  -- A live row that is cached stays live.
  have hstays : ∀ token row, token ∉ revokedAccess req → s.clock < 1000 * (row.expiresAt + 1) →
      s.tables.oauth2AccessTokens.lookup token = some row → row.revoked = false →
      ∃ row', tables'.oauth2AccessTokens.lookup token = some row' ∧ row'.revoked = false ∧
        row'.expiresAt = row.expiresAt := by
    intro token row hnot hfresh hrow hlive
    exact hevolves.keeps token row hnot hrow hlive (seconds_le_of_lt hfresh)
  have haccessOld : ∀ token row', token ∈ names →
      tables'.oauth2AccessTokens.lookup token = some row' →
      ∃ row, s.tables.oauth2AccessTokens.lookup token = some row ∧
        (row.revoked = true → row'.revoked = true) := by
    intro token row' hname hrow'
    rcases hevolves.access token row' hrow' with hnew | hold
    · exact absurd hname (hsaved token (hsavedAccess token hnew))
    · exact hold
  refine ⟨?_, ?_, ?_, ?_, ?_, ?_⟩
  · intro token htoken
    obtain ⟨row', hrow'⟩ := Option.isSome_iff_exists.mp (AList.lookup_isSome.mpr htoken)
    rcases hevolves.access token row' hrow' with hnew | ⟨row, hrow, -⟩
    · exact List.mem_append_left _ (hsavedAccess token hnew)
    · exact List.mem_append_right _ (h.access_saved token (mem_of_lookup hrow))
  · intro token htoken
    obtain ⟨rt', hrt'⟩ := Option.isSome_iff_exists.mp (AList.lookup_isSome.mpr htoken)
    rcases hevolves.refresh token rt' hrt' with hnew | ⟨rt, hrt, -⟩
    · exact List.mem_append_left _ (hsavedRefresh token hnew)
    · exact List.mem_append_right _ (h.refresh_saved token (mem_of_lookup hrt))
  · intro token htoken hrefresh
    obtain ⟨row', hrow'⟩ := Option.isSome_iff_exists.mp (AList.lookup_isSome.mpr htoken)
    obtain ⟨rt', hrt'⟩ := Option.isSome_iff_exists.mp (AList.lookup_isSome.mpr hrefresh)
    rcases hevolves.access token row' hrow' with hnew | ⟨row, hrow, -⟩
    · rcases hevolves.refresh token rt' hrt' with hnew' | ⟨rt, hrt, -⟩
      · exact List.disjoint_of_nodup_append hnodup hnew hnew'
      · exact hsaved token (hsavedAccess token hnew) (h.refresh_saved token (mem_of_lookup hrt))
    · rcases hevolves.refresh token rt' hrt' with hnew' | ⟨rt, hrt, -⟩
      · exact hsaved token (hsavedRefresh token hnew') (h.access_saved token (mem_of_lookup hrow))
      · exact h.disjoint token (mem_of_lookup hrow) (mem_of_lookup hrt)
  · intro token e he
    obtain ⟨t, ht, hentry⟩ := h.access token e he
    obtain ⟨hlookup, hfresh⟩ : _ ∧ s.clock < e.expireAt := TimedStore.live_eq_some_iff.mp he
    have hnot : token ∉ revokedAccess req := by
      intro hmem
      rw [haccess token hmem] at hlookup
      cases hlookup
    refine ⟨t, ht, List.mem_append_right _ hentry.saved, ?_, ?_, ?_⟩
    · intro hrefresh
      obtain ⟨rt', hrt'⟩ := Option.isSome_iff_exists.mp (AList.lookup_isSome.mpr hrefresh)
      rcases hevolves.refresh token rt' hrt' with hnew | ⟨rt, hrt, -⟩
      · exact hsaved token (hsavedRefresh token hnew) hentry.saved
      · exact hentry.access (mem_of_lookup hrt)
    · intro hrev row' hrow'
      obtain ⟨row, hrow, hkept⟩ := haccessOld token row' hentry.saved hrow'
      exact hkept (hentry.revoked hrev row hrow)
    · intro hlive
      obtain ⟨row, hrow, hrowLive, hexpires, hexpireAt⟩ := hentry.live hlive
      obtain ⟨row', hrow', hlive', hexpires'⟩ :=
        hstays token row hnot (by rw [hexpires]; omega) hrow hrowLive
      exact ⟨row', hrow', hlive', hexpires'.trans hexpires, hexpireAt⟩
  · intro token e he
    obtain ⟨res, hres, hactive, row, hrow, hlive, hexpireAt⟩ := h.intro token e he
    obtain ⟨hlookup, hfresh⟩ : _ ∧ s.clock < e.expireAt := TimedStore.live_eq_some_iff.mp he
    have hnot : token ∉ revokedAccess req := by
      intro hmem
      rw [hintro token hmem] at hlookup
      cases hlookup
    obtain ⟨row', hrow', hlive', hexpires'⟩ := hstays token row hnot (by omega) hrow hlive
    exact ⟨res, hres, hactive, row', hrow', hlive', by rw [hexpires']; exact hexpireAt⟩
  · intro token e he
    obtain ⟨hmem, hnot⟩ := h.negative token e he
    refine ⟨hmem, ?_, ?_⟩
    · intro row' hrow'
      rcases hevolves.access token row' hrow' with hnew | ⟨row, hrow, hkept⟩
      · exact absurd hmem (hrevoked token (hsavedAccess token hnew))
      · exact hkept (hnot.access row hrow)
    · intro rt' hrt'
      rcases hevolves.refresh token rt' hrt' with hnew | ⟨rt, hrt, hkept, hexpires⟩
      · exact absurd hmem (hrevoked token (hsavedRefresh token hnew))
      · rw [hexpires]
        exact (hnot.refresh rt hrt).imp_left hkept

/-! ### One call through the cache -/

def Quietly (now : Int) (env : CacheEnv) : Prop := ∃ taskFirst, env = quiet now taskFirst

variable {accessTokenMaxTtlSeconds : Int} {reply : CacheReply} {Q : CacheReply → CacheStore → Prop}

theorem exec_quiet {op : CacheCall} :
    CacheStore.exec (quiet now taskFirst) op s = CacheStore.execAt (quiet now taskFirst) op s := by
  have htick : s.tick 0 = s := by simp [CacheStore.tick]
  rw [CacheStore.exec, quiet, htick]

theorem postOn_call {α : Type} {Q : α → CacheStore → Prop} {op : CacheCall}
    {k : op.Resp → Prog CacheCall CacheCall.Resp α}
    (h : ∀ taskFirst, (k (CacheStore.execAt (quiet now taskFirst) op s).1).PostOn CacheStore.exec
      (Quietly now) Q (CacheStore.execAt (quiet now taskFirst) op s).2) :
    (Prog.call op k).PostOn CacheStore.exec (Quietly now) Q s := by
  intro env henv
  obtain ⟨taskFirst, rfl⟩ := henv
  rw [exec_quiet]
  exact h taskFirst

theorem postOn_answer (h : Q reply s) : (answer reply).PostOn CacheStore.exec (Quietly now) Q s :=
  postOn_call fun _ => h

/-- A task beside an answer leaves the state that it leaves by itself. -/
theorem postOn_spawn_ret {task : CacheTask}
    (htask : task.PostOn CacheStore.exec (Quietly now) (fun _ s' => Q reply s') s) :
    (Prog.spawn .choose id task (.ret reply)).PostOn CacheStore.exec (Quietly now) Q s := by
  induction task generalizing s with
  | ret _ => exact htask
  | call op k ih => exact fun env henv => ih _ (htask env henv)

theorem postOn_send_answer {task : CacheTask}
    (htask : task.PostOn CacheStore.exec (Quietly now) (fun _ s' => Q reply s') s) :
    (send task (answer reply)).PostOn CacheStore.exec (Quietly now) Q s := by
  induction task generalizing s with
  | ret _ => exact postOn_answer htask
  | call op k ih =>
    refine postOn_call fun taskFirst => ?_
    cases taskFirst with
    | true => exact fun env henv => ih _ (htask env henv)
    | false => exact postOn_call fun _ env henv => postOn_spawn_ret (htask env henv)

def marked (token : String) (s : CacheStore) : CacheStore :=
  { s with redis := s.redis.setEx s.clock (revokedKey token) .marker (1000 * 60) }

def dropped (token : String) (s : CacheStore) : CacheStore :=
  { s with redis := (s.redis.del (accessKey token)).del (introKey token) }

/-- The two commands of a revocation, in either order, before or after the answer. -/
theorem postOn_invalidate {token : String} (hset : Q reply (dropped token (marked token s)))
    (hdel : Q reply (marked token (dropped token s))) :
    (send (command (.setEx (revokedKey token) .marker 60))
      (send (command (.del (accessKey token) (introKey token))) (answer reply))).PostOn
        CacheStore.exec (Quietly now) Q s := by
  have hmark : (command (.setEx (revokedKey token) .marker 60)).PostOn CacheStore.exec
      (Quietly now) (fun _ s' => Q reply s') (dropped token s) := postOn_call fun _ => hdel
  have hdrop : (command (.del (accessKey token) (introKey token))).PostOn CacheStore.exec
      (Quietly now) (fun _ s' => Q reply s') (marked token s) := postOn_call fun _ => hset
  refine postOn_call fun first => ?_
  cases first with
  | true => exact postOn_call fun _ => postOn_send_answer hdrop
  | false =>
    refine postOn_call fun second => ?_
    cases second with
    | true =>
      -- The deletion is next beside the marker; the answer comes after it.
      refine postOn_call fun third => ?_
      cases third with
      | true => exact postOn_call fun _ => postOn_call fun _ => postOn_answer hset
      | false => exact postOn_call fun _ => postOn_send_answer hmark
    | false =>
      -- The answer is next beside the marker; the deletion comes after it.
      refine postOn_call fun third => ?_
      cases third with
      | true => exact postOn_call fun _ => postOn_call fun _ => postOn_call fun _ => hset
      | false =>
        refine postOn_call fun _ => postOn_call fun fourth => ?_
        cases fourth with
        | true => exact postOn_call fun _ => postOn_call fun _ => hset
        | false => exact postOn_call fun _ => postOn_spawn_ret hmark

/-! ### The replies agree -/

def found : CacheReply → Option OAuth2AccessToken
  | .access t => t
  | _ => none

def active : CacheReply → Bool
  | .introspection res => res.active
  | _ => false

/-- Both replies are accepted by `validateAccessToken`, or none is, and so for introspections. -/
structure Agrees (now : Int) (reply reply' : CacheReply) : Prop where
  valid : (TokenService.checkAccessToken now (found reply)).isSome =
    (TokenService.checkAccessToken now (found reply')).isSome
  active : active reply = active reply'

/-- The call has done to the tables what it does alone, the replies agree, and the cache mirrors the
tables again. -/
structure Outcome (history : List CacheRequest) (req : CacheRequest) (s : CacheStore)
    (reply : CacheReply) (s' : CacheStore) : Prop where
  same : s'.tables = (callAlone (seconds s.clock) req s.tables).2
  agrees : Agrees (seconds s.clock) reply (callAlone (seconds s.clock) req s.tables).1
  mirrors : Mirrors ((req :: history).flatMap saved) ((req :: history).flatMap revokedAccess) s'

theorem execBacking_quiet {call : TokenCall} :
    execBacking (quiet now taskFirst) call tables = execBacking (quiet now false) call tables := by
  cases call <;> rfl

theorem fill_before {maxTtl expiresAt ttl clock : Int}
    (h : fillTtl maxTtl expiresAt (seconds clock) = some ttl) :
    clock + 1000 * ttl < 1000 * (expiresAt + 1) := by
  unfold fillTtl at h
  split at h
  · obtain rfl := Option.some.inj h
    have := min_le_left (expiresAt - seconds clock) (effectiveMaxTtl maxTtl)
    unfold seconds at this ⊢
    omega
  · cases h

theorem postOn_fill {key : String} {payload : Payload} {expiresAt : Int} {rest : CacheReply}
    (hset : ∀ ttl, s.clock + 1000 * ttl < 1000 * (expiresAt + 1) →
      Q rest { s with redis := s.redis.setEx s.clock key payload (1000 * ttl) })
    (hnone : Q rest s) :
    (fill accessTokenMaxTtlSeconds key payload expiresAt (seconds s.clock) (answer rest)).PostOn
      CacheStore.exec (Quietly now) Q s := by
  unfold fill
  split
  · rename_i ttl httl
    exact postOn_send_answer (postOn_call fun _ => hset ttl (fill_before httl))
  · exact postOn_answer hnone

theorem revokedThenGet_cases (clock : Int) (negativeKey key : String) (redis : Keyspace) :
    (∃ e, redis.live clock negativeKey = some e ∧
      revokedThenGet clock negativeKey key redis = .revoked) ∨
    (∃ e, redis.live clock key = some e ∧
      revokedThenGet clock negativeKey key redis = .value e.value) ∨
    revokedThenGet clock negativeKey key redis = .miss := by
  unfold revokedThenGet
  split
  · rename_i hmarked
    obtain ⟨e, he⟩ := Option.isSome_iff_exists.mp hmarked
    exact .inl ⟨e, he, rfl⟩
  · split
    · rename_i payload hget
      obtain ⟨e, he, rfl⟩ := Option.map_eq_some_iff.mp hget
      exact .inr (.inl ⟨e, he, rfl⟩)
    · exact .inr (.inr rfl)

theorem getAccessToken_eq {token : String} :
    Postgres.getAccessToken {} token tables =
      (tables.oauth2AccessTokens.lookup token).map fun row =>
        { token := row.token, clientId := row.clientId, userId := row.userId, scope := row.scope
          expiresAt := row.expiresAt, revoked := row.revoked } :=
  rfl

theorem NotLive.check {token : String} (h : NotLive now token tables) :
    (TokenService.checkAccessToken now (Postgres.getAccessToken {} token tables)).isSome = false := by
  rw [getAccessToken_eq]
  cases hrow : tables.oauth2AccessTokens.lookup token with
  | none => rfl
  | some row => simp [TokenService.checkAccessToken, h.access row hrow]

theorem NotLive.introspect {token : String} (h : NotLive now token tables) :
    (Postgres.introspectToken now {} token tables).active = false := by
  unfold Postgres.introspectToken
  split
  · rename_i row hrow
    rw [if_pos (.inl (h.access row hrow))]
  · split
    · rfl
    · rename_i rt hrt
      rw [if_pos (h.refresh rt hrt)]

theorem AccessEntry.check {token : String} {expireAt : Int} {t : OAuth2AccessToken}
    (h : AccessEntry names tables token expireAt t) :
    (TokenService.checkAccessToken now (some t)).isSome =
      (TokenService.checkAccessToken now (Postgres.getAccessToken {} token tables)).isSome := by
  rw [getAccessToken_eq]
  cases hrevoked : t.revoked with
  | true =>
    have hreject : ∀ row, tables.oauth2AccessTokens.lookup token = some row → row.revoked = true :=
      h.revoked hrevoked
    cases hrow : tables.oauth2AccessTokens.lookup token with
    | none => simp [TokenService.checkAccessToken, hrevoked]
    | some row => simp [TokenService.checkAccessToken, hrevoked, hreject row hrow]
  | false =>
    obtain ⟨row, hrow, hlive, hexpires, -⟩ := h.live hrevoked
    simp only [hrow, Option.map_some, TokenService.checkAccessToken, hrevoked, hlive, hexpires,
      Bool.false_eq_true, if_false]
    split <;> rfl

theorem IntroEntry.introspect {token : String} {expireAt clock : Int} {res : TokenIntrospection}
    (h : IntroEntry tables token expireAt res) (hfresh : clock < expireAt) :
    (Postgres.introspectToken (seconds clock) {} token tables).active = true := by
  obtain ⟨-, row, hrow, hlive, hexpireAt⟩ := h
  have hfind : Postgres.findAccessToken {} token tables = some row := hrow
  have hvalid : ¬(row.revoked = true ∨ row.expiresAt < seconds clock) := by
    have := seconds_le_of_lt (lt_trans hfresh hexpireAt)
    rw [hlive, not_or]
    exact ⟨Bool.false_ne_true, by omega⟩
  rw [Postgres.introspectToken, hfind]
  simp only [if_neg hvalid]

theorem postOn_backing (req : CacheRequest) {k : req.call.Resp → CacheProg}
    (h : (k (execBacking (quiet now false) req.call s.tables).1).PostOn CacheStore.exec (Quietly now) Q
      { s with tables := (callAlone now req s.tables).2 }) :
    (Prog.call (.backing req.call) k).PostOn CacheStore.exec (Quietly now) Q s := by
  refine postOn_call fun taskFirst => ?_
  simp only [CacheStore.execAt, @execBacking_quiet now taskFirst]
  exact h

variable {history : List CacheRequest}

abbrev MirrorsAfter (history : List CacheRequest) (s : CacheStore) : Prop :=
  Mirrors (history.flatMap saved) (history.flatMap revokedAccess) s

theorem MirrorsAfter.evolve (h : MirrorsAfter history s) (hwf : WellFormed history req)
    (haccess : ∀ token ∈ revokedAccess req, s.redis.lookup (accessKey token) = none)
    (hintro : ∀ token ∈ revokedAccess req, s.redis.lookup (introKey token) = none) :
    MirrorsAfter (req :: history)
      { s with tables := (callAlone (seconds s.clock) req s.tables).2 } := by
  have hmirrors := Mirrors.evolve h (evolves_call hwf.family) hwf.nodup hwf.unsaved hwf.unrevoked
    haccess hintro
  refine { hmirrors with negative := ?_ }
  intro token e he
  obtain ⟨hmem, hnot⟩ := hmirrors.negative token e he
  exact ⟨List.mem_append_right _ hmem, hnot⟩

/-- The calls that do not use the cache. -/
theorem outcome_passThrough (h : MirrorsAfter history s) (hwf : WellFormed history req)
    (hprogram : program accessTokenMaxTtlSeconds req =
      .call (.backing req.call) fun r => answer (req.reply r))
    (hrevoked : revokedAccess req = []) :
    (program accessTokenMaxTtlSeconds req).PostOn CacheStore.exec (Quietly (seconds s.clock))
      (Outcome history req s) s := by
  rw [hprogram]
  refine postOn_backing req (postOn_answer ⟨rfl, ⟨rfl, rfl⟩, ?_⟩)
  refine h.evolve hwf ?_ ?_ <;> intro token htoken <;> rw [hrevoked] at htoken <;> cases htoken

theorem outcome_getAccessToken {token : String} (h : MirrorsAfter history s) :
    (getAccessToken accessTokenMaxTtlSeconds token).PostOn CacheStore.exec
      (Quietly (seconds s.clock)) (Outcome history (.getAccessToken token) s) s := by
  have hfetch : (fetchAccessToken accessTokenMaxTtlSeconds token).PostOn CacheStore.exec
      (Quietly (seconds s.clock)) (Outcome history (.getAccessToken token) s) s := by
    refine postOn_backing (.getAccessToken token) ?_
    generalize hgot : (execBacking (quiet (seconds s.clock) false)
      (CacheRequest.getAccessToken token).call s.tables).1 = got
    have hagrees : Agrees (seconds s.clock) (.access got)
        (callAlone (seconds s.clock) (.getAccessToken token) s.tables).1 := by
      rw [← hgot]
      exact ⟨rfl, rfl⟩
    cases got with
    | none => exact postOn_answer ⟨rfl, hagrees, h⟩
    | some t =>
      obtain ⟨row, hrow, rfl⟩ := Option.map_eq_some_iff.mp hgot
      change s.tables.oauth2AccessTokens.lookup token = some row at hrow
      refine postOn_call fun _ => postOn_fill ?_ ⟨rfl, hagrees, h⟩
      intro ttl hbefore
      refine ⟨rfl, hagrees, Mirrors.setEx h ?_ ?_ ?_⟩
      · intro token' hkey
        obtain rfl := accessKey_inj.mp hkey
        refine ⟨_, rfl, h.access_saved token (mem_of_lookup hrow),
          h.disjoint token (mem_of_lookup hrow), ?_, ?_⟩
        · intro hrevoked row' hrow'
          obtain rfl := Option.some.inj (hrow.symm.trans hrow')
          exact hrevoked
        · intro hlive
          exact ⟨row, hrow, hlive, rfl, hbefore⟩
      · intro token' hkey
        exact absurd hkey (accessKey_ne_introKey _ _)
      · intro token' hkey
        exact absurd hkey (accessKey_ne_revokedKey _ _)
  refine postOn_call fun taskFirst => ?_
  rcases revokedThenGet_cases s.clock (revokedKey token) (accessKey token) s.redis with
    ⟨e, he, hget⟩ | ⟨e, he, hget⟩ | hget
  · simp only [CacheStore.execAt, quiet, hget, Bool.false_eq_true, if_false]
    obtain ⟨-, hnot⟩ := h.negative token e he
    exact postOn_answer ⟨rfl, ⟨hnot.check.symm, rfl⟩, h⟩
  · obtain ⟨t, ht, hentry⟩ := h.access token e he
    simp only [CacheStore.execAt, quiet, hget, ht, Bool.false_eq_true, if_false]
    exact postOn_answer ⟨rfl, ⟨hentry.check, rfl⟩, h⟩
  · simp only [CacheStore.execAt, quiet, hget, Bool.false_eq_true, if_false]
    exact hfetch

/-- An active introspection of a token that is no refresh token. -/
theorem introspect_active {token : String} (hnot : token ∉ tables.oauth2RefreshTokens)
    (h : (Postgres.introspectToken now {} token tables).active = true) :
    ∃ row, tables.oauth2AccessTokens.lookup token = some row ∧ row.revoked = false ∧
      (Postgres.introspectToken now {} token tables).exp = row.expiresAt := by
  have hrefresh : Postgres.findRefreshToken {} token tables = none :=
    AList.lookup_eq_none.mpr hnot
  cases hfind : Postgres.findAccessToken {} token tables with
  | none => simp [Postgres.introspectToken, hfind, hrefresh] at h
  | some row =>
    have hvalid : ¬(row.revoked = true ∨ row.expiresAt < now) := by
      intro hdead
      simp [Postgres.introspectToken, hfind, hdead] at h
    refine ⟨row, hfind, by simpa using fun hrev => hvalid (.inl hrev), ?_⟩
    simp [Postgres.introspectToken, hfind, hvalid]

theorem outcome_introspectToken {token : String} (h : MirrorsAfter history s) :
    (introspectToken accessTokenMaxTtlSeconds token).PostOn CacheStore.exec
      (Quietly (seconds s.clock)) (Outcome history (.introspectToken token) s) s := by
  have hsame : ∀ {reply}, active reply =
      (Postgres.introspectToken (seconds s.clock) {} token s.tables).active → found reply = none →
      Agrees (seconds s.clock) reply
        (callAlone (seconds s.clock) (.introspectToken token) s.tables).1 :=
    fun hactive hfound => ⟨by rw [hfound]; rfl, hactive⟩
  have hfetch : (fetchIntrospection accessTokenMaxTtlSeconds token).PostOn CacheStore.exec
      (Quietly (seconds s.clock)) (Outcome history (.introspectToken token) s) s := by
    refine postOn_backing (.introspectToken token) ?_
    change Prog.PostOn _ _ _
      (if (Postgres.introspectToken (seconds s.clock) {} token s.tables).active = true then _
        else _) s
    have hreply : Outcome history (.introspectToken token) s
        (.introspection (Postgres.introspectToken (seconds s.clock) {} token s.tables)) s :=
      ⟨rfl, hsame rfl rfl, h⟩
    split
    · rename_i hactive
      refine postOn_send_answer (postOn_call fun taskFirst => ?_)
      simp only [CacheStore.execAt, quiet, Bool.false_eq_true, if_false]
      cases hexists : s.redis.contains s.clock (accessKey token) with
      | false => exact hreply
      | true =>
        -- The access key tells that the active introspection is not a refresh token's.
        obtain ⟨e, he⟩ := Option.isSome_iff_exists.mp hexists
        obtain ⟨t, -, hentry⟩ := h.access token e he
        obtain ⟨row, hrow, hlive, hexp⟩ := introspect_active hentry.access hactive
        refine postOn_call fun _ => ?_
        simp only [CacheStore.execAt, quiet]
        split
        · rename_i ttl httl
          refine postOn_call fun _ => ⟨rfl, hsame rfl rfl, Mirrors.setEx h ?_ ?_ ?_⟩
          · intro token' hkey
            exact absurd hkey (introKey_ne_accessKey _ _)
          · intro token' hkey
            obtain rfl := introKey_inj.mp hkey
            refine ⟨_, rfl, hactive, row, hrow, hlive, ?_⟩
            rw [← hexp]
            exact fill_before httl
          · intro token' hkey
            exact absurd hkey (introKey_ne_revokedKey _ _)
        · exact hreply
    · exact postOn_answer hreply
  refine postOn_call fun taskFirst => ?_
  rcases revokedThenGet_cases s.clock (revokedKey token) (introKey token) s.redis with
    ⟨e, he, hget⟩ | ⟨e, he, hget⟩ | hget
  · simp only [CacheStore.execAt, quiet, hget, Bool.false_eq_true, if_false]
    obtain ⟨-, hnot⟩ := h.negative token e he
    exact postOn_answer ⟨rfl, hsame hnot.introspect.symm rfl, h⟩
  · obtain ⟨res, hres, hentry⟩ := h.intro token e he
    simp only [CacheStore.execAt, quiet, hget, hres, Bool.false_eq_true, if_false]
    have hactive := hentry.introspect (TimedStore.live_eq_some_iff.mp he).2
    exact postOn_answer ⟨rfl, hsame (hentry.active.trans hactive.symm) rfl, h⟩
  · simp only [CacheStore.execAt, quiet, hget, Bool.false_eq_true, if_false]
    exact hfetch

theorem outcome_saveAccessToken {token : OAuth2AccessToken} (h : MirrorsAfter history s)
    (hwf : WellFormed history (.saveAccessToken token)) :
    (saveAccessToken accessTokenMaxTtlSeconds token).PostOn CacheStore.exec
      (Quietly (seconds s.clock)) (Outcome history (.saveAccessToken token) s) s := by
  have hevolved := h.evolve hwf nofun nofun
  have hunsaved : token.token ∉ s.tables.oauth2AccessTokens := by
    intro hmem
    exact hwf.unsaved token.token List.mem_cons_self (h.access_saved _ hmem)
  have hrow : (callAlone (seconds s.clock) (.saveAccessToken token)
      s.tables).2.oauth2AccessTokens.lookup token.token =
        some (Postgres.accessTokenRow (seconds s.clock) token) := by
    change (Postgres.saveAccessToken (seconds s.clock) {} token
      s.tables).oauth2AccessTokens.lookup token.token = _
    rw [Postgres.saveAccessToken, if_neg (by simpa using hunsaved)]
    exact AList.lookup_insert _
  have hunfilled : Outcome history (.saveAccessToken token) s .done
      { s with tables := (callAlone (seconds s.clock) (.saveAccessToken token) s.tables).2 } :=
    ⟨rfl, ⟨rfl, rfl⟩, hevolved⟩
  refine postOn_backing (.saveAccessToken token) (postOn_call fun _ => ?_)
  refine postOn_fill ?_ hunfilled
  intro ttl hbefore
  refine ⟨rfl, ⟨rfl, rfl⟩, Mirrors.setEx hevolved ?_ ?_ ?_⟩
  · intro token' hkey
    obtain rfl := accessKey_inj.mp hkey
    refine ⟨_, rfl, hevolved.access_saved _ (mem_of_lookup hrow),
      hevolved.disjoint _ (mem_of_lookup hrow), ?_, ?_⟩
    · intro hrevoked row hrow'
      obtain rfl := Option.some.inj (hrow.symm.trans hrow')
      exact hrevoked
    · intro hlive
      exact ⟨_, hrow, hlive, rfl, hbefore⟩
  · intro token' hkey
    exact absurd hkey (accessKey_ne_introKey _ _)
  · intro token' hkey
    exact absurd hkey (accessKey_ne_revokedKey _ _)

/-- After its revocation the token is not live, if it is an access token or no live refresh token. -/
theorem notLive_revoke {token revokedBy : String}
    (hcond : RevokesNoRefreshToken now tables (.revokeAccessToken token revokedBy)) :
    NotLive now token (callAlone now (.revokeAccessToken token revokedBy) tables).2 := by
  change NotLive now token (Postgres.revokeAccessToken now {} token revokedBy tables)
  cases hrow : tables.oauth2AccessTokens.lookup token with
  | none =>
    have hfind : Postgres.findAccessToken {} token tables = none := hrow
    rw [Postgres.revokeAccessToken, hfind]
    constructor
    · intro row hfound
      cases hrow.symm.trans hfound
    · rcases hcond token List.mem_cons_self with hmem | hnot
      · exact absurd hmem (AList.lookup_eq_none.mp hrow)
      · exact hnot
  | some row =>
    have hfind : Postgres.findAccessToken {} token tables = some row := hrow
    rw [Postgres.revokeAccessToken, hfind]
    simp only [if_true, Postgres.revokeBoth]
    constructor
    · intro row' hrow'
      rw [Dict.lookup_mapValues, Option.map_eq_some_iff] at hrow'
      obtain ⟨row₀, -, rfl⟩ := hrow'
      rw [if_pos rfl]
    · intro rt hrt
      simp only [Bool.false_eq_true, if_false, Dict.lookup_mapValues, Option.map_eq_some_iff] at hrt
      obtain ⟨rt₀, -, rfl⟩ := hrt
      exact .inl rfl

theorem lookup_dropped {token k : String} {e : Timed Payload}
    (h : (dropped token s).redis.lookup k = some e) :
    k ≠ accessKey token ∧ k ≠ introKey token ∧ s.redis.lookup k = some e := by
  obtain ⟨hintro, h⟩ := TimedStore.lookup_del_cases h
  obtain ⟨haccess, h⟩ := TimedStore.lookup_del_cases h
  exact ⟨haccess, hintro, h⟩

theorem lookup_eq_none_of {d : Keyspace} {k : String} (h : ∀ e, d.lookup k ≠ some e) :
    d.lookup k = none :=
  Option.eq_none_iff_forall_ne_some.mpr h

theorem outcome_revokeAccessToken {token revokedBy : String} (h : MirrorsAfter history s)
    (hwf : WellFormed history (.revokeAccessToken token revokedBy))
    (hcond : RevokesNoRefreshToken (seconds s.clock) s.tables
      (.revokeAccessToken token revokedBy)) :
    (revokeAccessToken token revokedBy).PostOn CacheStore.exec (Quietly (seconds s.clock))
      (Outcome history (.revokeAccessToken token revokedBy) s) s := by
  let s₁ : CacheStore := { s with tables :=
    (callAlone (seconds s.clock) (.revokeAccessToken token revokedBy) s.tables).2 }
  have hdropped : MirrorsAfter history (dropped token s) :=
    Mirrors.of_fewer h (le_refl _) rfl fun k e he => (lookup_dropped he).2.2
  have hevolved : MirrorsAfter (.revokeAccessToken token revokedBy :: history) (dropped token s₁) := by
    refine hdropped.evolve hwf ?_ ?_
    · intro token' htoken'
      obtain rfl := List.mem_singleton.mp htoken'
      exact lookup_eq_none_of fun e he => (lookup_dropped he).1 rfl
    · intro token' htoken'
      obtain rfl := List.mem_singleton.mp htoken'
      exact lookup_eq_none_of fun e he => (lookup_dropped he).2.1 rfl
  have hmarked : MirrorsAfter (.revokeAccessToken token revokedBy :: history)
      (marked token (dropped token s₁)) := by
    refine Mirrors.setEx hevolved ?_ ?_ ?_
    · intro token' hkey
      exact absurd hkey (revokedKey_ne_accessKey _ _)
    · intro token' hkey
      exact absurd hkey (revokedKey_ne_introKey _ _)
    · intro token' hkey
      obtain rfl := revokedKey_inj.mp hkey
      exact ⟨List.mem_cons_self, notLive_revoke hcond⟩
  have hother : MirrorsAfter (.revokeAccessToken token revokedBy :: history)
      (dropped token (marked token s₁)) := by
    refine Mirrors.of_fewer hmarked (le_refl _) rfl ?_
    intro k e he
    obtain ⟨haccess, hintro, he⟩ := lookup_dropped he
    rcases TimedStore.lookup_setEx_cases he with ⟨rfl, rfl⟩ | ⟨hne, he⟩
    · exact TimedStore.lookup_setEx_self
    · refine (TimedStore.lookup_setEx_of_ne hne).trans ?_
      exact (TimedStore.lookup_del_of_ne hintro).trans ((TimedStore.lookup_del_of_ne haccess).trans he)
  refine postOn_backing (.revokeAccessToken token revokedBy) ?_
  exact postOn_invalidate ⟨rfl, ⟨rfl, rfl⟩, hother⟩ ⟨rfl, ⟨rfl, rfl⟩, hmarked⟩

/-- Any call, from a cache that mirrors the tables. -/
theorem outcome_program (h : MirrorsAfter history s) (hwf : WellFormed history req)
    (hcond : RevokesNoRefreshToken (seconds s.clock) s.tables req) :
    (program accessTokenMaxTtlSeconds req).PostOn CacheStore.exec (Quietly (seconds s.clock))
      (Outcome history req s) s := by
  cases req with
  | getAccessToken token => exact outcome_getAccessToken h
  | introspectToken token => exact outcome_introspectToken h
  | saveAccessToken token => exact outcome_saveAccessToken h hwf
  | revokeAccessToken token revokedBy => exact outcome_revokeAccessToken h hwf hcond
  | revokeTokenFamily familyId => cases hwf.family
  | _ => exact outcome_passThrough h hwf rfl rfl

/-! ### Every sequence -/

theorem outcome_callCached (accessTokenMaxTtlSeconds : Int) {c : Call} (h : MirrorsAfter history (s.tick c.elapsed))
    (hwf : WellFormed history c.request)
    (hcond : RevokesNoRefreshToken (seconds (s.clock + c.elapsed)) s.tables c.request) :
    Outcome history c.request (s.tick c.elapsed) (callCached accessTokenMaxTtlSeconds c s).1
      (callCached accessTokenMaxTtlSeconds c s).2 :=
  (outcome_program h hwf hcond).eval (fun _ => ⟨_, rfl⟩) 0

theorem mirrors_of_run {clock : Int} {b : Both}
    (hrun : (machine accessTokenMaxTtlSeconds).Run Conditional (fresh clock) history b) :
    MirrorsAfter history b.cached ∧ b.cached.tables = b.alone := by
  induction hrun with
  | init => exact ⟨mirrors_fresh clock, rfl⟩
  | @next history b c hrun hok ih =>
    obtain ⟨hmirrors, hsame⟩ := ih
    obtain ⟨hwf, hcond⟩ := hok
    rw [← hsame] at hcond
    have houtcome := outcome_callCached accessTokenMaxTtlSeconds
      (Mirrors.tick hmirrors c.elapsed) hwf hcond
    refine ⟨houtcome.mirrors, houtcome.same.trans ?_⟩
    change (callAlone _ c.request b.cached.tables).2 = (callAlone _ c.request b.alone).2
    rw [hsame]
    rfl

/-- Whether `validateAccessToken` accepts the token over a repository that gives these replies. -/
def validates (svc : TokenService) (now : Int) (reply : CacheRequest → CacheReply)
    (token : String) : Bool :=
  (svc.validateAccessToken (fun h => found (reply (.getAccessToken h))) now token).isSome

def cachedReply (accessTokenMaxTtlSeconds : Int) (b : Both) (elapsed : Nat)
    (taskFirst : Nat → Bool) (req : CacheRequest) : CacheReply :=
  (callCached accessTokenMaxTtlSeconds ⟨elapsed, req, taskFirst⟩ b.cached).1

def aloneReply (b : Both) (elapsed : Nat) (req : CacheRequest) : CacheReply :=
  (callAlone (seconds (b.cached.clock + elapsed)) req b.alone).1

/-- For a call that comes so much later, it makes no difference whether the cache is there. -/
def Transparent (svc : TokenService) (accessTokenMaxTtlSeconds : Int) (b : Both) (elapsed : Nat)
    (taskFirst : Nat → Bool) : Prop :=
  ∀ token,
    validates svc (seconds (b.cached.clock + elapsed))
        (cachedReply accessTokenMaxTtlSeconds b elapsed taskFirst) token =
      validates svc (seconds (b.cached.clock + elapsed)) (aloneReply b elapsed) token ∧
    active (cachedReply accessTokenMaxTtlSeconds b elapsed taskFirst (.introspectToken token)) =
      active (aloneReply b elapsed (.introspectToken token))

theorem agrees_read {b : Both} {elapsed : Nat} {order : Nat → Bool}
    (hmirrors : MirrorsAfter history b.cached) (hsame : b.cached.tables = b.alone)
    (hsaved : saved req = []) (hfamily : revokesFamily req = false)
    (hrevoked : revokedAccess req = []) :
    Agrees (seconds (b.cached.clock + elapsed))
      (cachedReply accessTokenMaxTtlSeconds b elapsed order req) (aloneReply b elapsed req) := by
  have hwf : WellFormed history req := by
    refine ⟨hfamily, ?_, ?_, ?_⟩ <;> rw [hsaved]
    · exact List.nodup_nil
    all_goals
      intro token htoken
      cases htoken
  have hcond : RevokesNoRefreshToken (seconds (b.cached.clock + elapsed)) b.cached.tables req := by
    intro token htoken
    rw [hrevoked] at htoken
    cases htoken
  have houtcome := outcome_callCached accessTokenMaxTtlSeconds
    (c := ⟨elapsed, req, order⟩) (Mirrors.tick hmirrors elapsed) hwf hcond
  have hagrees := houtcome.agrees
  change Agrees _ _ (callAlone _ req b.cached.tables).1 at hagrees
  rw [hsame] at hagrees
  exact hagrees

/-- After every sequence of calls that do not overlap and revoke no live refresh token as an access
token, at any time. -/
theorem cache_transparent (svc : TokenService) (accessTokenMaxTtlSeconds clock : Int)
    (history : List CacheRequest) (b : Both)
    (hrun : (machine accessTokenMaxTtlSeconds).Run Conditional (fresh clock) history b)
    (elapsed : Nat) (taskFirst : Nat → Bool) :
    Transparent svc accessTokenMaxTtlSeconds b elapsed taskFirst := by
  obtain ⟨hmirrors, hsame⟩ := mirrors_of_run hrun
  intro token
  constructor
  · exact (agrees_read hmirrors hsame rfl rfl rfl).valid
  · exact (agrees_read hmirrors hsame rfl rfl rfl).active

/-! ### Known sequences -/

def knownAccess : OAuth2AccessToken where
  token := hashToken knownCrypto (knownToken 0)
  clientId := "spa"
  userId := "1"
  scope := "openid"
  expiresAt := 4600

def knownRefresh : OAuth2RefreshToken where
  token := hashToken knownCrypto (knownToken 1)
  accessToken := hashToken knownCrypto (knownToken 0)
  clientId := "spa"
  userId := "1"
  scope := "openid"
  expiresAt := 9000

def inOrder (_ : Nat) : Bool := true

def executed (calls : List Call) : List CacheRequest × Both :=
  (machine 60).exec [] (fresh 1000000) calls

/-- A refresh token is revoked as if it were an access token. -/
def revokedAsAccess : List Call :=
  [⟨0, .saveRefreshToken knownRefresh, inOrder⟩,
    ⟨1000, .revokeAccessToken knownRefresh.token "spa", inOrder⟩]

theorem revokedAsAccess_differs :
    (machine 60).Run Sequential (fresh 1000000) (executed revokedAsAccess).1
      (executed revokedAsAccess).2 ∧
    ¬Transparent knownService 60 (executed revokedAsAccess).2 1000 inOrder := by
  constructor
  · exact .exec_of_guarded .init revokedAsAccess ⟨by decide +kernel, by decide +kernel, trivial⟩
  · intro h
    have hactive := (h knownRefresh.token).2
    revert hactive
    decide +kernel

/-- An access token is saved, read, introspected, revoked and read again. -/
def revokedAfterUse : List Call :=
  [⟨0, .saveTokenPair knownAccess knownRefresh, inOrder⟩,
    ⟨1000, .getAccessToken knownAccess.token, inOrder⟩,
    ⟨1000, .introspectToken knownAccess.token, inOrder⟩,
    ⟨1000, .revokeAccessToken knownAccess.token "spa", inOrder⟩,
    ⟨61000, .getAccessToken knownAccess.token, inOrder⟩]

theorem cache_transparent_revokedAfterUse :
    Transparent knownService 60 (executed revokedAfterUse).2 1000 inOrder := by
  have hguarded : (machine 60).Guarded Conditional [] (fresh 1000000) revokedAfterUse := by
    decide +kernel
  exact cache_transparent knownService 60 1000000 _ _ (.exec_of_guarded .init revokedAfterUse hguarded)
    1000 inOrder

end AuthForge.CacheTransparency
