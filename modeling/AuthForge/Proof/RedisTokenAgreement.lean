import AuthForge.Storage.RedisTokens
import Mathlib.Data.List.TakeWhile

/-!
# Access tokens in Redis and in memory

As long as operations do not overlap and Redis does not fail, the two repositories accept the same
access tokens at every time. Redis lets a token go at its expiry and knows a revoked one for an hour;
the in-memory repository keeps either until it is purged. What they differ in is the second of the
expiry, in which the in-memory repository still introspects a token as active.
-/

namespace AuthForge.RedisTokenAgreement

open OAuth2 Storage Storage.RedisTokens
open Storage.Memory (TokenCall TokenReply TimedCall)

/-! ### Both repositories side by side -/

structure Both where
  memory : Memory.Tokens
  redis : RedisServer

structure BothEvent extends TimedCall where
  memory : TokenReply
  redis : TokenReply

def bothCalls : Machine Both TimedCall BothEvent where
  step b i :=
    let m := Memory.call i.now b.memory i.call
    let r := RedisTokens.call i.now i.call b.redis
    (⟨m.2, r.2⟩, ⟨i, m.1, r.1⟩)

def NulFree (s : String) : Prop := '\x00' ∉ s.toList

instance (s : String) : Decidable (NulFree s) := inferInstanceAs (Decidable (¬_))

/-- The token whose key a call uses. -/
def tokenOf : TokenCall → String
  | .saveAccessToken token => token.token
  | .getAccessToken token => token
  | .revokeAccessToken token _ => token
  | .introspectToken token => token
  | .incrementIntrospectCount token => token
  | _ => ""

/-- An access token is saved before it expires, and no refresh token is, for Redis does not keep
them. -/
def Saves (now : Int) : TokenCall → Prop
  | .saveAccessToken token => now < token.expiresAt
  | .saveRefreshToken _ => False
  | _ => True

/-- Time does not run backwards, and tokens are C strings. -/
def AccessTokensOnly : Guard Both TimedCall BothEvent := fun _ b i =>
  b.redis.clock ≤ i.now ∧ NulFree (tokenOf i.call) ∧ Saves i.now i.call

instance (now : Int) (c : TokenCall) : Decidable (Saves now c) :=
  match c with
  | .saveAccessToken token => inferInstanceAs (Decidable (now < token.expiresAt))
  | .saveRefreshToken _ => .isFalse id
  | .getAccessToken _ | .getRefreshToken _ | .atomicRevokeRefreshToken _ | .revokeAccessToken _ _
  | .revokeRefreshToken _ | .revokeTokenFamily _ | .introspectToken _
  | .incrementIntrospectCount _ | .purgeExpired => .isTrue trivial

instance (history : List BothEvent) (b : Both) (i : TimedCall) :
    Decidable (AccessTokensOnly history b i) :=
  inferInstanceAs (Decidable (_ ∧ _ ∧ _))

structure Principal where
  clientId : String
  userId : String
  scope : String
  expiresAt : Int
  deriving DecidableEq

def principal (token : OAuth2AccessToken) : Principal :=
  ⟨token.clientId, token.userId, token.scope, token.expiresAt⟩

/-- Whom a reply accepts, an introspection in the second of the expiry apart. -/
def accepted (now : Int) : TokenReply → Option Principal
  | .access found => (TokenService.checkAccessToken now found).map principal
  | .introspection result =>
    if result.active = true ∧ result.exp ≠ now then
      some ⟨result.clientId, result.sub, result.scope, result.exp⟩
    else none
  | _ => none

def Agreed (e : BothEvent) : Prop := accepted e.now e.memory = accepted e.now e.redis

/-! ### What each repository would accept -/

def memoryView (s : Memory.Tokens) (token : String) (now : Int) : Option Principal :=
  (s.accessTokens.lookup token).bind fun it =>
    if now < it.expiresAt ∧ it.revoked = false then some (principal it) else none

def redisView (keys : Redis.Keyspace) (token : String) (now : Int) : Option Principal :=
  (Redis.get now (tokenKey token) keys).bind fun json =>
    if json.asBool "revoked" = false then some (principal (readToken token json)) else none

/-- From now on the two accept the same. -/
structure Same (b : Both) : Prop where
  view : ∀ token, NulFree token → ∀ now, b.redis.clock ≤ now →
    memoryView b.memory token now = redisView b.redis.keys token now
  noRefresh : b.memory.refreshTokens = ∅

section Views

variable {s : Memory.Tokens} {keys : Redis.Keyspace} {token : String} {now : Int} {b : Both}

theorem memoryView_lt {p : Principal} (h : memoryView s token now = some p) : now < p.expiresAt := by
  obtain ⟨it, -, hit⟩ := Option.bind_eq_some_iff.mp h
  split at hit
  · rename_i hlive
    obtain rfl := Option.some.inj hit
    exact hlive.1
  · cases hit

theorem tokenKey_injective {token' : String} (h : NulFree token) (h' : NulFree token')
    (heq : tokenKey token = tokenKey token') : token = token' := by
  have hkeep : ∀ s : String, NulFree s → tokenKey s = "oauth2:token:" ++ s := by
    intro s hs
    have hprefix : '\x00' ∉ "oauth2:token:".toList := by decide
    have hall : ∀ c ∈ ("oauth2:token:" ++ s).toList, decide (c ≠ '\x00') = true := by
      intro c hc
      rw [String.toList_append, List.mem_append] at hc
      rw [decide_eq_true_eq]
      rintro rfl
      exact hc.elim hprefix hs
    rw [tokenKey, cStr, List.takeWhile_eq_self_iff.mpr hall, String.ofList_toList]
  rw [hkeep token h, hkeep token' h'] at heq
  have hlist := congrArg String.toList heq
  rw [String.toList_append, String.toList_append] at hlist
  exact String.toList_injective (List.append_cancel_left hlist)

/-! ### Replies -/

theorem accepted_memory_get :
    accepted now (.access (Memory.getAccessToken now token s)) = memoryView s token now := by
  unfold accepted Memory.getAccessToken memoryView
  cases s.accessTokens.lookup token with
  | none => rfl
  | some it =>
    by_cases hlive : now < it.expiresAt ∧ it.revoked = false
    · have hnot : ¬now > it.expiresAt := by omega
      simp [hlive, TokenService.checkAccessToken, hnot]
    · simp [hlive, TokenService.checkAccessToken]

theorem accepted_memory_introspect (hrefresh : s.refreshTokens = ∅) :
    accepted now (.introspection (Memory.introspectToken now token s)) = memoryView s token now := by
  unfold accepted Memory.introspectToken memoryView
  cases s.accessTokens.lookup token with
  | none => simp [hrefresh]
  | some it =>
    by_cases hdead : it.revoked = true ∨ it.expiresAt < now
    · have hnot : ¬(now < it.expiresAt ∧ it.revoked = false) := by
        intro hlive
        rcases hdead with h | h
        · simp [hlive.2] at h
        · omega
      simp [hdead, hnot]
    · simp only [not_or, Bool.not_eq_true, not_lt] at hdead
      by_cases hnow : it.expiresAt = now
      · simp [hdead, hnow]
      · have hlt : now < it.expiresAt := by omega
        have hge : ¬it.expiresAt < now := by omega
        simp [hdead, hnow, hlt, hge, principal]

theorem accepted_redis_get (hview : memoryView s token now = redisView keys token now) :
    accepted now (.access ((Redis.get now (tokenKey token) keys).map (readToken token))) =
      redisView keys token now := by
  unfold accepted redisView at *
  cases hget : Redis.get now (tokenKey token) keys with
  | none => rfl
  | some json =>
    rw [hget] at hview
    by_cases hrevoked : json.asBool "revoked" = true
    · have hread : (readToken token json).revoked = true := hrevoked
      simp [hrevoked, TokenService.checkAccessToken, hread]
    · rw [Bool.not_eq_true] at hrevoked
      have hread : (readToken token json).revoked = false := hrevoked
      simp only [Option.bind_some, hrevoked, if_true] at hview ⊢
      have hlt := memoryView_lt hview
      have hge : ¬now > (readToken token json).expiresAt := by
        change now < (readToken token json).expiresAt at hlt
        omega
      simp [TokenService.checkAccessToken, hread, hge]

theorem accepted_redis_introspect (hview : memoryView s token now = redisView keys token now) :
    accepted now (.introspection (match Redis.get now (tokenKey token) keys with
      | none => { active := false }
      | some json => introspection now json)) = redisView keys token now := by
  unfold accepted redisView at *
  cases hget : Redis.get now (tokenKey token) keys with
  | none => rfl
  | some json =>
    rw [hget] at hview
    by_cases hrevoked : json.asBool "revoked" = true
    · simp [hrevoked, introspection]
    · rw [Bool.not_eq_true] at hrevoked
      simp only [Option.bind_some, hrevoked, if_true] at hview ⊢
      have hlt := memoryView_lt hview
      change now < json.asInt64 "expires_at" at hlt
      have hge : ¬json.asInt64 "expires_at" < now := by omega
      have hne : json.asInt64 "expires_at" ≠ now := by omega
      simp [introspection, hrevoked, hge, hne, principal, readToken]

end Views

/-! ### What a call changes -/

section Steps

variable {b : Both} {now : Int}

/-- The views of one token after a call, where nothing else has changed. -/
theorem Same.of_view (h : Same b) (hnow : b.redis.clock ≤ now) {b' : Both} (token : String)
    (hclock : b'.redis.clock = now) (hrefresh : b'.memory.refreshTokens = ∅)
    (hother : ∀ k, NulFree k → k ≠ token → ∀ t,
      memoryView b'.memory k t = memoryView b.memory k t ∧
        redisView b'.redis.keys k t = redisView b.redis.keys k t)
    (hself : NulFree token → ∀ t, now ≤ t →
      memoryView b'.memory token t = redisView b'.redis.keys token t) : Same b' where
  view k hk t ht := by
    rw [hclock] at ht
    by_cases hkey : k = token
    · subst hkey
      exact hself hk t ht
    · obtain ⟨hmemory, hredis⟩ := hother k hk hkey t
      rw [hmemory, hredis]
      exact h.view k hk t (by omega)
  noRefresh := hrefresh

/-- A call that changes neither view. -/
theorem Same.of_eq (h : Same b) (hnow : b.redis.clock ≤ now) {b' : Both}
    (hclock : b'.redis.clock = now) (hrefresh : b'.memory.refreshTokens = ∅)
    (hkeys : b'.redis.keys = b.redis.keys)
    (hmemory : ∀ k t, now ≤ t → memoryView b'.memory k t = memoryView b.memory k t) : Same b' where
  view k hk t ht := by
    rw [hclock] at ht
    rw [hkeys, hmemory k t ht]
    exact h.view k hk t (by omega)
  noRefresh := hrefresh

theorem redisView_setex_of_ne {keys : Redis.Keyspace} {token k : String} (htoken : NulFree token)
    (hk : NulFree k) (hne : k ≠ token) (seconds : Int) (value : Redis.Json) (t : Int) :
    redisView (Redis.setex now (tokenKey token) seconds value keys) k t = redisView keys k t := by
  have hkey : tokenKey k ≠ tokenKey token := fun heq => hne (tokenKey_injective hk htoken heq)
  unfold redisView
  rw [get_setex_of_ne hkey]

theorem same_save (h : Same b) (hnow : b.redis.clock ≤ now) {token : OAuth2AccessToken}
    (htoken : NulFree token.token) (hexpires : now < token.expiresAt) :
    Same ⟨Memory.saveAccessToken now token b.memory,
      ⟨now, Redis.setex now (tokenKey token.token) (timeToLive now token) (tokenJson token)
        b.redis.keys⟩⟩ := by
  refine h.of_view hnow token.token rfl h.noRefresh ?_ ?_
  · intro k hk hne t
    refine ⟨?_, redisView_setex_of_ne htoken hk hne _ _ t⟩
    simp only [memoryView, Memory.saveAccessToken, AList.lookup_insert_ne hne]
  · intro _ t ht
    have hlife : now + timeToLive now token = token.expiresAt := by
      rw [timeToLive, if_pos hexpires]
      omega
    simp only [memoryView, Memory.saveAccessToken, AList.lookup_insert, redisView, get_setex_self,
      hlife]
    by_cases hlive : t < token.expiresAt
    · rw [if_pos hlive, Option.bind_some, Option.bind_some, asBool_tokenJson, readToken_tokenJson]
      cases token.revoked <;> simp [hlive, principal]
    · simp [hlive]

theorem same_revoke (h : Same b) (hnow : b.redis.clock ≤ now) {token revokedBy : String}
    (htoken : NulFree token) {keys : Redis.Keyspace}
    (hkeys : (Redis.get now (tokenKey token) b.redis.keys = none ∧ keys = b.redis.keys) ∨
      ∃ json, keys = Redis.setex now (tokenKey token) revokedLife
        (revokedJson now revokedBy json) b.redis.keys) :
    Same ⟨Memory.revokeAccessToken now token revokedBy b.memory, ⟨now, keys⟩⟩ := by
  refine h.of_view hnow token rfl ?_ ?_ ?_
  · simp [Memory.revokeAccessToken, h.noRefresh, Dict.mapValues]
    rfl
  · intro k hk hne t
    constructor
    · simp [memoryView, Memory.revokeAccessToken, hne]
    · rcases hkeys with ⟨-, rfl⟩ | ⟨json, rfl⟩
      · rfl
      · exact redisView_setex_of_ne htoken hk hne _ _ t
  · intro _ t ht
    have hmemory : memoryView (Memory.revokeAccessToken now token revokedBy b.memory) token t =
        none := by
      simp [memoryView, Memory.revokeAccessToken]
    rw [hmemory]
    rcases hkeys with ⟨hnone, rfl⟩ | ⟨json, rfl⟩
    · have hgone : Redis.get t (tokenKey token) b.redis.keys = none := by
        by_contra hsome
        obtain ⟨json, hjson⟩ := Option.ne_none_iff_exists'.mp hsome
        rw [get_of_le hjson ht] at hnone
        cases hnone
      rw [redisView, hgone]
      rfl
    · rw [redisView, get_setex_self]
      split
      · rw [Option.bind_some, asBool_revokedJson, if_neg (by decide)]
      · rfl

/-- Purging and counting change neither who is accepted nor what Redis holds. -/
theorem memoryView_purgeExpired (s : Memory.Tokens) (k : String) {t : Int} (ht : now ≤ t) :
    memoryView (Memory.purgeExpired now s) k t = memoryView s k t := by
  simp only [memoryView, Memory.purgeExpired, Dict.lookup_keepValues]
  cases s.accessTokens.lookup k with
  | none => rfl
  | some it =>
    by_cases hexpired : it.expiresAt < now
    · have hnot : ¬(t < it.expiresAt ∧ it.revoked = false) := by
        intro hlive
        omega
      simp [hexpired, hnot]
    · rw [Option.filter_some, if_pos (by simpa using hexpired)]

theorem memoryView_incrementIntrospectCount (s : Memory.Tokens) (token k : String) (t : Int) :
    memoryView (Memory.incrementIntrospectCount token s) k t = memoryView s k t := by
  simp only [memoryView, Memory.incrementIntrospectCount, Dict.lookup_mapValues, Option.bind_map]
  congr 1
  funext it
  by_cases hk : k = token <;> simp [hk, principal]

theorem revokeTokenFamily_of_noRefresh {s : Memory.Tokens} (h : s.refreshTokens = ∅)
    (familyId k : String) (t : Int) :
    memoryView (Memory.revokeTokenFamily familyId s) k t = memoryView s k t := by
  have hany : ∀ q, s.refreshTokens.anyValue q = false := by
    intro q
    rw [h]
    rfl
  simp [memoryView, Memory.revokeTokenFamily, hany]

/-- Without refresh tokens the calls that are about them change nothing. -/
theorem same_step (h : Same b) {history : List BothEvent} {i : TimedCall}
    (hok : AccessTokensOnly history b i) : Same (bothCalls.step b i).1 := by
  obtain ⟨now, c⟩ := i
  obtain ⟨hnow, htoken, hcall⟩ := hok
  dsimp only at hnow htoken hcall
  have hmap : ∀ f : String → OAuth2RefreshToken → OAuth2RefreshToken,
      b.memory.refreshTokens.mapValues f = ∅ := by
    intro f
    rw [h.noRefresh]
    rfl
  simp only [bothCalls]
  cases c with
  | saveAccessToken token =>
    rw [call_saveAccessToken]
    exact same_save h hnow htoken hcall
  | saveRefreshToken token => exact hcall.elim
  | revokeAccessToken token revokedBy =>
    rw [call_revokeAccessToken]
    cases hget : Redis.get now (tokenKey token) b.redis.keys with
    | none => exact same_revoke h hnow htoken (.inl ⟨hget, rfl⟩)
    | some json => exact same_revoke h hnow htoken (.inr ⟨json, rfl⟩)
  | getAccessToken token =>
    rw [call_getAccessToken]
    exact h.of_eq hnow rfl h.noRefresh rfl fun _ _ _ => rfl
  | introspectToken token =>
    rw [call_introspectToken]
    exact h.of_eq hnow rfl h.noRefresh rfl fun _ _ _ => rfl
  | incrementIntrospectCount token =>
    rw [call_incrementIntrospectCount]
    exact h.of_eq hnow rfl h.noRefresh rfl fun k t _ =>
      memoryView_incrementIntrospectCount b.memory token k t
  | purgeExpired =>
    refine h.of_eq hnow rfl ?_ rfl fun k t ht => memoryView_purgeExpired b.memory k ht
    simp only [Memory.call, Memory.purgeExpired, h.noRefresh]
    rfl
  | revokeTokenFamily familyId =>
    have hrefresh : (Memory.revokeTokenFamily familyId b.memory).refreshTokens = ∅ := by
      simp only [Memory.revokeTokenFamily, hmap]
    refine h.of_eq hnow rfl hrefresh rfl ?_
    intro k t _
    exact revokeTokenFamily_of_noRefresh h.noRefresh familyId k t
  | revokeRefreshToken token =>
    have hrefresh : (Memory.revokeRefreshToken token b.memory).refreshTokens = ∅ := by
      simp only [Memory.revokeRefreshToken, hmap]
    rw [call_revokeRefreshToken]
    exact h.of_eq hnow rfl hrefresh rfl fun _ _ _ => rfl
  | atomicRevokeRefreshToken token =>
    have hnone : Memory.atomicRevokeRefreshToken token b.memory = (none, b.memory) := by
      unfold Memory.atomicRevokeRefreshToken
      rw [h.noRefresh]
      rfl
    simp only [Memory.call, hnone]
    exact h.of_eq hnow rfl h.noRefresh rfl fun _ _ _ => rfl
  | getRefreshToken token => exact h.of_eq hnow rfl h.noRefresh rfl fun _ _ _ => rfl

theorem agreed_step (h : Same b) {history : List BothEvent} {i : TimedCall}
    (hok : AccessTokensOnly history b i) : Agreed (bothCalls.step b i).2 := by
  obtain ⟨now, c⟩ := i
  obtain ⟨hnow, htoken, -⟩ := hok
  simp only [Agreed, bothCalls]
  cases c with
  | getAccessToken token =>
    have hview := h.view token htoken now hnow
    rw [call_getAccessToken]
    exact accepted_memory_get.trans (hview.trans (accepted_redis_get hview).symm)
  | introspectToken token =>
    have hview := h.view token htoken now hnow
    rw [call_introspectToken]
    exact (accepted_memory_introspect h.noRefresh).trans
      (hview.trans (accepted_redis_introspect hview).symm)
  | saveAccessToken token => rw [call_saveAccessToken]; rfl
  | revokeAccessToken token revokedBy => rw [call_revokeAccessToken]; rfl
  | incrementIntrospectCount token => rw [call_incrementIntrospectCount]; rfl
  | revokeRefreshToken token => rw [call_revokeRefreshToken]; rfl
  | saveRefreshToken | getRefreshToken | atomicRevokeRefreshToken | revokeTokenFamily
  | purgeExpired => rfl

end Steps

/-- In every run of calls that do not overlap, both repositories accept the same tokens. -/
theorem repositories_agree {history : List BothEvent} {b : Both} {clock : Int}
    (hrun : bothCalls.Run AccessTokensOnly ⟨.empty, ⟨clock, ∅⟩⟩ history b) :
    ∀ e ∈ history, Agreed e := by
  have hempty : Same ⟨.empty, ⟨clock, ∅⟩⟩ := by
    refine ⟨?_, rfl⟩
    intro token _ now _
    rw [redisView, Redis.get, AList.lookup_empty]
    rfl
  have hinv : Same b ∧ ∀ e ∈ history, Agreed e := by
    induction hrun with
    | init =>
      refine ⟨hempty, ?_⟩
      intro e he
      exact absurd he List.not_mem_nil
    | next i _ hok ih =>
      obtain ⟨hsame, hagreed⟩ := ih
      refine ⟨same_step hsame hok, ?_⟩
      intro e he
      rcases List.mem_cons.mp he with heq | he
      · rw [heq]
        exact agreed_step hsame hok
      · exact hagreed e he
  exact hinv.2

def knownAccess : OAuth2AccessToken where
  token := "hash"
  clientId := "spa"
  userId := "1"
  scope := "openid"
  expiresAt := 4600

/-- A token is saved and read, introspected in its last second, revoked, and read again. -/
def knownCalls : List TimedCall :=
  [⟨1000, .saveAccessToken knownAccess⟩, ⟨1001, .getAccessToken "hash"⟩,
   ⟨4600, .introspectToken "hash"⟩, ⟨4600, .revokeAccessToken "hash" "spa"⟩,
   ⟨9000, .getAccessToken "hash"⟩]

def executed : List BothEvent × Both := bothCalls.exec [] ⟨.empty, ⟨0, ∅⟩⟩ knownCalls

theorem repositories_agree_known :
    (∀ e ∈ executed.1, Agreed e) ∧
      executed.1.map (fun e => accepted e.now e.redis) =
        [none, none, none, some ⟨"spa", "1", "openid", 4600⟩, none] := by
  obtain ⟨hguarded, hreplies⟩ :
      bothCalls.Guarded AccessTokensOnly [] ⟨.empty, ⟨0, ∅⟩⟩ knownCalls ∧
        executed.1.map (fun e => accepted e.now e.redis) =
          [none, none, none, some ⟨"spa", "1", "openid", 4600⟩, none] := by
    decide +kernel
  exact ⟨repositories_agree (.exec_of_guarded .init knownCalls hguarded), hreplies⟩

end AuthForge.RedisTokenAgreement
