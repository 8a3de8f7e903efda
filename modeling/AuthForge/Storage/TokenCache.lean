import AuthForge.Base.Spawn
import AuthForge.Base.Text
import AuthForge.Base.TimedStore
import AuthForge.Storage.Postgres

/-!
# The token cache

`RedisCachedTokenRepository` around `PostgresTokenRepository`, at the granularity of single Redis
commands and calls of the wrapped repository. Tokens are hashes at this interface. A command that
nobody waits for runs beside the rest of its request, and calling the caller back is an operation of
its own, so that commands can come before and after it. Payloads are the records; the JSON text of a
record reads back as the record.
-/

namespace AuthForge.Storage.TokenCache

open OAuth2

/-! ### The wrapped repository -/

inductive TokenCall
  | saveAccessToken (token : OAuth2AccessToken)
  | getAccessToken (token : String)
  | saveTokenPair (access : OAuth2AccessToken) (refresh : OAuth2RefreshToken)
  | saveRefreshToken (token : OAuth2RefreshToken)
  | getRefreshToken (token : String)
  | revokeRefreshToken (token : String)
  | atomicRevokeRefreshToken (token : String)
  | revokeTokenFamily (familyId : String)
  | introspectToken (token : String)
  | incrementIntrospectCount (token : String)
  | revokeAccessToken (token revokedBy : String)
  | purgeExpired

@[reducible] def TokenCall.Resp : TokenCall → Type
  | .saveAccessToken _ => Unit
  | .getAccessToken _ => Option OAuth2AccessToken
  | .saveTokenPair _ _ => Bool
  | .saveRefreshToken _ => Unit
  | .getRefreshToken _ => Option OAuth2RefreshToken
  | .revokeRefreshToken _ => Unit
  | .atomicRevokeRefreshToken _ => Option OAuth2RefreshToken
  | .revokeTokenFamily _ => Unit
  | .introspectToken _ => TokenIntrospection
  | .incrementIntrospectCount _ => Unit
  | .revokeAccessToken _ _ => Unit
  | .purgeExpired => Unit

/-- What one step of a request reads from outside: the server's clock and the statements that fail,
how many milliseconds the clock of Redis has moved on, whether the Redis command fails, and which of
two concurrent commands comes first. -/
structure CacheEnv extends Env where
  faults : Postgres.CallFaults := {}
  elapsed : Nat := 0
  redisFails : Bool := false
  taskFirst : Bool := false

def execBacking (env : CacheEnv) :
    (call : TokenCall) → Postgres.TokenTables → call.Resp × Postgres.TokenTables
  | .saveAccessToken token, s => ((), Postgres.saveAccessToken env.now env.faults token s)
  | .getAccessToken token, s => (Postgres.getAccessToken env.faults token s, s)
  | .saveTokenPair access refresh, s => Postgres.saveTokenPair env.toEnv access refresh s
  | .saveRefreshToken token, s => ((), Postgres.saveRefreshToken env.faults token s)
  | .getRefreshToken token, s => (Postgres.getRefreshToken env.toEnv token s, s)
  | .revokeRefreshToken token, s => ((), Postgres.revokeRefreshToken env.faults token s)
  | .atomicRevokeRefreshToken token, s => Postgres.atomicRevokeRefreshToken env.toEnv token s
  | .revokeTokenFamily familyId, s => ((), Postgres.revokeTokenFamily env.toEnv familyId s)
  | .introspectToken token, s => (Postgres.introspectToken env.now env.faults token s, s)
  | .incrementIntrospectCount token, s =>
    ((), Postgres.incrementIntrospectCount env.faults token s)
  | .revokeAccessToken token revokedBy, s =>
    ((), Postgres.revokeAccessToken env.now env.faults token revokedBy s)
  | .purgeExpired, s => ((), Postgres.purgeExpired env.now env.faults s)

/-! ### Keys, payloads and commands -/

def accessKey (token : String) : String := "authforge:cache:token:access:" ++ token

def introKey (token : String) : String := "authforge:cache:token:introspect:" ++ token

def revokedKey (token : String) : String := "authforge:cache:token:revoked:" ++ token

@[simp] theorem accessKey_inj {s t : String} : accessKey s = accessKey t ↔ s = t :=
  String.append_right_inj _

@[simp] theorem introKey_inj {s t : String} : introKey s = introKey t ↔ s = t :=
  String.append_right_inj _

@[simp] theorem revokedKey_inj {s t : String} : revokedKey s = revokedKey t ↔ s = t :=
  String.append_right_inj _

@[simp] theorem accessKey_ne_introKey (s t : String) : accessKey s ≠ introKey t :=
  append_ne_append_of_take 23 (by decide) (by decide) (by decide) s t

@[simp] theorem accessKey_ne_revokedKey (s t : String) : accessKey s ≠ revokedKey t :=
  append_ne_append_of_take 23 (by decide) (by decide) (by decide) s t

@[simp] theorem introKey_ne_revokedKey (s t : String) : introKey s ≠ revokedKey t :=
  append_ne_append_of_take 23 (by decide) (by decide) (by decide) s t

@[simp] theorem introKey_ne_accessKey (s t : String) : introKey s ≠ accessKey t :=
  (accessKey_ne_introKey t s).symm

@[simp] theorem revokedKey_ne_accessKey (s t : String) : revokedKey s ≠ accessKey t :=
  (accessKey_ne_revokedKey t s).symm

@[simp] theorem revokedKey_ne_introKey (s t : String) : revokedKey s ≠ introKey t :=
  (introKey_ne_revokedKey t s).symm

inductive Payload
  | marker
  | access (token : OAuth2AccessToken)
  | introspection (introspection : TokenIntrospection)
  deriving DecidableEq

/-- The answers of `kRevokedThenGetScript`. -/
inductive RevokedThenGet
  | revoked
  | value (payload : Payload)
  | miss
  deriving DecidableEq

inductive CacheReply
  | access (token : Option OAuth2AccessToken)
  | introspection (introspection : TokenIntrospection)
  | refresh (token : Option OAuth2RefreshToken)
  | saved (ok : Bool)
  | done
  deriving DecidableEq

inductive CacheCall
  | nowSeconds
  /-- Which of two commands in flight comes first. -/
  | choose
  | revokedThenGet (revokedKey key : String)
  | setEx (key : String) (payload : Payload) (ttl : Int)
  | del (key key' : String)
  | keyExists (key : String)
  | backing (call : TokenCall)
  | callback (reply : CacheReply)

/-- Answers; the script answers `none` when the command fails, and so does `EXISTS`. -/
@[reducible] def CacheCall.Resp : CacheCall → Type
  | .nowSeconds => Int
  | .choose => Bool
  | .revokedThenGet _ _ => Option RevokedThenGet
  | .setEx _ _ _ => Unit
  | .del _ _ => Unit
  | .keyExists _ => Option Bool
  | .backing call => call.Resp
  | .callback _ => Unit

abbrev Keyspace := TimedStore String Payload

/-- Redis with its clock in milliseconds, and the database. -/
structure CacheStore where
  clock : Int
  redis : Keyspace
  tables : Postgres.TokenTables

def revokedThenGet (now : Int) (revokedKey key : String) (redis : Keyspace) : RevokedThenGet :=
  if redis.contains now revokedKey then .revoked
  else
    match redis.get now key with
    | some payload => .value payload
    | none => .miss

/-- One command or call; a failing command does nothing. -/
def CacheStore.execAt (env : CacheEnv) : (op : CacheCall) → CacheStore → op.Resp × CacheStore
  | .nowSeconds, s => (env.now, s)
  | .choose, s => (env.taskFirst, s)
  | .revokedThenGet revokedKey key, s =>
    (if env.redisFails then none else some (TokenCache.revokedThenGet s.clock revokedKey key s.redis),
      s)
  | .setEx key payload ttl, s =>
    ((),
      if env.redisFails then s
      else { s with redis := s.redis.setEx s.clock key payload (1000 * ttl) })
  | .del key key', s =>
    ((), if env.redisFails then s else { s with redis := (s.redis.del key).del key' })
  | .keyExists key, s => (if env.redisFails then none else some (s.redis.contains s.clock key), s)
  | .backing call, s =>
    let r := execBacking env call s.tables
    (r.1, { s with tables := r.2 })
  | .callback _, s => ((), s)

def CacheStore.tick (s : CacheStore) (elapsed : Nat) : CacheStore :=
  { s with clock := s.clock + elapsed }

def CacheStore.exec (env : CacheEnv) (op : CacheCall) (s : CacheStore) : op.Resp × CacheStore :=
  CacheStore.execAt env op (s.tick env.elapsed)

/-! ### What a step does to the keys -/

theorem lookup_exec {env : CacheEnv} {op : CacheCall} {s : CacheStore} {k : String}
    {e : Timed Payload} (h : (CacheStore.exec env op s).2.redis.lookup k = some e) :
    s.redis.lookup k = some e ∨
      ∃ payload ttl, op = .setEx k payload ttl ∧
        e = ⟨payload, s.clock + env.elapsed + 1000 * ttl⟩ := by
  cases op with
  | setEx key payload ttl =>
    simp only [CacheStore.exec, CacheStore.execAt] at h
    split at h
    · exact .inl h
    rcases TimedStore.lookup_setEx_cases h with ⟨rfl, rfl⟩ | ⟨-, h⟩
    · exact .inr ⟨payload, ttl, rfl, rfl⟩
    · exact .inl h
  | del key key' =>
    simp only [CacheStore.exec, CacheStore.execAt] at h
    split at h
    · exact .inl h
    · exact .inl (TimedStore.lookup_del_cases (TimedStore.lookup_del_cases h).2).2
  | _ => exact .inl h

theorem lookup_exec_of_untouched {env : CacheEnv} {op : CacheCall} {s : CacheStore} {k : String}
    (hset : ∀ payload ttl, op ≠ .setEx k payload ttl)
    (hdel : ∀ key key', op = .del key key' → k ≠ key ∧ k ≠ key') :
    (CacheStore.exec env op s).2.redis.lookup k = s.redis.lookup k := by
  cases op with
  | setEx key payload ttl =>
    have hne : k ≠ key := fun heq => hset payload ttl (heq ▸ rfl)
    simp only [CacheStore.exec, CacheStore.execAt]
    split
    · rfl
    · exact TimedStore.lookup_setEx_of_ne hne
  | del key key' =>
    obtain ⟨hne, hne'⟩ := hdel key key' rfl
    simp only [CacheStore.exec, CacheStore.execAt]
    split
    · rfl
    · exact (TimedStore.lookup_del_of_ne hne').trans (TimedStore.lookup_del_of_ne hne)
  | _ => rfl

@[simp] theorem clock_exec {env : CacheEnv} {op : CacheCall} {s : CacheStore} :
    (CacheStore.exec env op s).2.clock = s.clock + env.elapsed := by
  cases op with
  | setEx key payload ttl =>
    simp only [CacheStore.exec, CacheStore.execAt]
    split <;> rfl
  | del key key' =>
    simp only [CacheStore.exec, CacheStore.execAt]
    split <;> rfl
  | _ => rfl

theorem tables_exec {env : CacheEnv} {op : CacheCall} {s : CacheStore}
    (h : ∀ call, op ≠ .backing call) : (CacheStore.exec env op s).2.tables = s.tables := by
  cases op with
  | backing call => exact absurd rfl (h call)
  | setEx key payload ttl =>
    simp only [CacheStore.exec, CacheStore.execAt]
    split <;> rfl
  | del key key' =>
    simp only [CacheStore.exec, CacheStore.execAt]
    split <;> rfl
  | _ => rfl

/-! ### The repository -/

abbrev CacheProg := Prog CacheCall CacheCall.Resp CacheReply
abbrev CacheTask := Prog CacheCall CacheCall.Resp Unit
abbrev CacheAnswer := Answer CacheCall CacheCall.Resp

def answer (reply : CacheReply) : CacheProg := .call (.callback reply) fun _ => .ret reply

/-- Send a command without waiting for it. -/
def send (task : CacheTask) (rest : CacheProg) : CacheProg := Prog.spawn .choose id task rest

def command (op : CacheCall) : CacheTask := .call op fun _ => .ret ()

/-- `accessTokenMaxTtlSeconds_`. -/
def effectiveMaxTtl (accessTokenMaxTtlSeconds : Int) : Int :=
  if accessTokenMaxTtlSeconds > 0 then accessTokenMaxTtlSeconds else 60

theorem effectiveMaxTtl_le {accessTokenMaxTtlSeconds : Int} (h : accessTokenMaxTtlSeconds ≤ 60) :
    effectiveMaxTtl accessTokenMaxTtlSeconds ≤ 60 := by
  unfold effectiveMaxTtl
  split
  · exact h
  · exact le_refl _

variable (accessTokenMaxTtlSeconds : Int)

/-- The time to live of a record that expires at `expiresAt`; nothing is cached that has expired. -/
def fillTtl (expiresAt now : Int) : Option Int :=
  if expiresAt - now > 0 then
    some (min (expiresAt - now) (effectiveMaxTtl accessTokenMaxTtlSeconds))
  else none

/-- Cache a record without waiting, then go on. -/
def fill (key : String) (payload : Payload) (expiresAt now : Int) (rest : CacheProg) : CacheProg :=
  match fillTtl accessTokenMaxTtlSeconds expiresAt now with
  | some ttl => send (command (.setEx key payload ttl)) rest
  | none => rest

def fetchAccessToken (token : String) : CacheProg :=
  .call (.backing (.getAccessToken token)) fun
    | none => answer (.access none)
    | some t =>
      .call .nowSeconds fun now =>
        fill accessTokenMaxTtlSeconds (accessKey token) (.access t) t.expiresAt now
          (answer (.access (some t)))

def getAccessToken (token : String) : CacheProg :=
  .call (.revokedThenGet (revokedKey token) (accessKey token)) fun
    | none =>
      .call (.backing (.getAccessToken token)) fun t => answer (.access t)
    | some .revoked => answer (.access none)
    | some (.value (.access cached)) => answer (.access (some cached))
    | some _ => fetchAccessToken accessTokenMaxTtlSeconds token

/-- The N2 discriminator and the fill behind it. -/
def fillIntrospection (token : String) (res : TokenIntrospection) : CacheTask :=
  .call (.keyExists (accessKey token)) fun
    | some true =>
      .call .nowSeconds fun now =>
        match fillTtl accessTokenMaxTtlSeconds res.exp now with
        | some ttl => command (.setEx (introKey token) (.introspection res) ttl)
        | none => .ret ()
    | _ => .ret ()

def fetchIntrospection (token : String) : CacheProg :=
  .call (.backing (.introspectToken token)) fun res =>
    if res.active then
      send (fillIntrospection accessTokenMaxTtlSeconds token res) (answer (.introspection res))
    else answer (.introspection res)

def introspectToken (token : String) : CacheProg :=
  .call (.revokedThenGet (revokedKey token) (introKey token)) fun
    | none =>
      .call (.backing (.introspectToken token)) fun res => answer (.introspection res)
    | some .revoked => answer (.introspection { active := false })
    | some (.value (.introspection cached)) => answer (.introspection cached)
    | some _ => fetchIntrospection accessTokenMaxTtlSeconds token

/-- The negative entry lives 60 seconds. -/
def revokeAccessToken (token revokedBy : String) : CacheProg :=
  .call (.backing (.revokeAccessToken token revokedBy)) fun _ =>
    send (command (.setEx (revokedKey token) .marker 60))
      (send (command (.del (accessKey token) (introKey token))) (answer .done))

def saveAccessToken (token : OAuth2AccessToken) : CacheProg :=
  .call (.backing (.saveAccessToken token)) fun _ =>
  .call .nowSeconds fun now =>
    fill accessTokenMaxTtlSeconds (accessKey token.token) (.access token) token.expiresAt now
      (answer .done)

/-- The calls that the cache passes through. -/
def passThrough (call : TokenCall) (reply : call.Resp → CacheReply) : CacheProg :=
  .call (.backing call) fun r => answer (reply r)

inductive CacheRequest
  | getAccessToken (token : String)
  | introspectToken (token : String)
  | revokeAccessToken (token revokedBy : String)
  | saveAccessToken (token : OAuth2AccessToken)
  | saveTokenPair (access : OAuth2AccessToken) (refresh : OAuth2RefreshToken)
  | saveRefreshToken (token : OAuth2RefreshToken)
  | getRefreshToken (token : String)
  | revokeRefreshToken (token : String)
  | atomicRevokeRefreshToken (token : String)
  | revokeTokenFamily (familyId : String)
  | incrementIntrospectCount (token : String)
  | purgeExpired
  deriving DecidableEq

def program : CacheRequest → CacheProg
  | .getAccessToken token => getAccessToken accessTokenMaxTtlSeconds token
  | .introspectToken token => introspectToken accessTokenMaxTtlSeconds token
  | .revokeAccessToken token revokedBy => revokeAccessToken token revokedBy
  | .saveAccessToken token => saveAccessToken accessTokenMaxTtlSeconds token
  | .saveTokenPair access refresh => passThrough (.saveTokenPair access refresh) .saved
  | .saveRefreshToken token => passThrough (.saveRefreshToken token) fun _ => .done
  | .getRefreshToken token => passThrough (.getRefreshToken token) .refresh
  | .revokeRefreshToken token => passThrough (.revokeRefreshToken token) fun _ => .done
  | .atomicRevokeRefreshToken token => passThrough (.atomicRevokeRefreshToken token) .refresh
  | .revokeTokenFamily familyId => passThrough (.revokeTokenFamily familyId) fun _ => .done
  | .incrementIntrospectCount token =>
    passThrough (.incrementIntrospectCount token) fun _ => .done
  | .purgeExpired => passThrough .purgeExpired fun _ => .done

/-- The call of the wrapped repository that a request makes. -/
def CacheRequest.call : CacheRequest → TokenCall
  | .getAccessToken token => .getAccessToken token
  | .introspectToken token => .introspectToken token
  | .revokeAccessToken token revokedBy => .revokeAccessToken token revokedBy
  | .saveAccessToken token => .saveAccessToken token
  | .saveTokenPair access refresh => .saveTokenPair access refresh
  | .saveRefreshToken token => .saveRefreshToken token
  | .getRefreshToken token => .getRefreshToken token
  | .revokeRefreshToken token => .revokeRefreshToken token
  | .atomicRevokeRefreshToken token => .atomicRevokeRefreshToken token
  | .revokeTokenFamily familyId => .revokeTokenFamily familyId
  | .incrementIntrospectCount token => .incrementIntrospectCount token
  | .purgeExpired => .purgeExpired

/-- The reply of the wrapped repository. -/
def CacheRequest.reply : (req : CacheRequest) → req.call.Resp → CacheReply
  | .getAccessToken _, t => .access t
  | .introspectToken _, res => .introspection res
  | .revokeAccessToken _ _, _ => .done
  | .saveAccessToken _, _ => .done
  | .saveTokenPair _ _, ok => .saved ok
  | .saveRefreshToken _, _ => .done
  | .getRefreshToken _, t => .refresh t
  | .revokeRefreshToken _, _ => .done
  | .atomicRevokeRefreshToken _, t => .refresh t
  | .revokeTokenFamily _, _ => .done
  | .incrementIntrospectCount _, _ => .done
  | .purgeExpired, _ => .done

/-- The cached repository: all interleavings of its requests. -/
def service : Service CacheStore CacheEnv CacheCall CacheCall.Resp CacheRequest CacheReply where
  exec := CacheStore.exec
  program := program accessTokenMaxTtlSeconds

abbrev CacheEvent := Service.Event CacheEnv CacheCall CacheCall.Resp CacheRequest

/-! ### What a request has seen when it writes or calls back -/

/-- Where the value of a `SET` comes from. -/
inductive SetSeen (maxTtl : Int) (answers : List CacheAnswer) : String → Payload → Int → Prop
  | fetched {token : String} {t : OAuth2AccessToken} {ttl : Int}
      (hget : ⟨.backing (.getAccessToken token), some t⟩ ∈ answers) (hle : ttl ≤ maxTtl) :
      SetSeen maxTtl answers (accessKey token) (.access t) ttl
  | warmed {t : OAuth2AccessToken} {ttl : Int}
      (hsave : ⟨.backing (.saveAccessToken t), ()⟩ ∈ answers) (hle : ttl ≤ maxTtl) :
      SetSeen maxTtl answers (accessKey t.token) (.access t) ttl
  | introspected {token : String} {res : TokenIntrospection} {ttl : Int}
      (hexists : ⟨.keyExists (accessKey token), some true⟩ ∈ answers) (hle : ttl ≤ maxTtl) :
      SetSeen maxTtl answers (introKey token) (.introspection res) ttl
  | revoked {token revokedBy : String}
      (hrevoke : ⟨.backing (.revokeAccessToken token revokedBy), ()⟩ ∈ answers) :
      SetSeen maxTtl answers (revokedKey token) .marker 60

/-- Where a token or an active introspection that a read reports comes from. -/
def ReplySeen (answers : List CacheAnswer) : CacheRequest → CacheReply → Prop
  | .getAccessToken token, .access (some t) =>
    ⟨.revokedThenGet (revokedKey token) (accessKey token), some (.value (.access t))⟩ ∈ answers ∨
      ⟨.backing (.getAccessToken token), some t⟩ ∈ answers
  | .getAccessToken _, reply => reply = .access none
  | .introspectToken token, .introspection res =>
    res.active = true →
      ⟨.revokedThenGet (revokedKey token) (introKey token), some (.value (.introspection res))⟩ ∈
          answers ∨
        ⟨.backing (.introspectToken token), res⟩ ∈ answers
  | .introspectToken _, _ => False
  | _, _ => True

def WriteSeen (maxTtl : Int) (req : CacheRequest) (answers : List CacheAnswer) : CacheCall → Prop
  | .setEx key payload ttl => SetSeen maxTtl answers key payload ttl
  | .del key key' => ∃ token, key = accessKey token ∧ key' = introKey token
  | .backing call => call = req.call
  | .callback reply => ReplySeen answers req reply
  | _ => True

variable {maxTtl : Int} {req : CacheRequest} {answers answers' : List CacheAnswer}

theorem SetSeen.mono {key : String} {payload : Payload} {ttl : Int}
    (h : SetSeen maxTtl answers key payload ttl) (hsub : answers ⊆ answers') :
    SetSeen maxTtl answers' key payload ttl := by
  cases h with
  | fetched hget hle => exact .fetched (hsub hget) hle
  | warmed hsave hle => exact .warmed (hsub hsave) hle
  | introspected hexists hle => exact .introspected (hsub hexists) hle
  | revoked hrevoke => exact .revoked (hsub hrevoke)

theorem SetSeen.ttl_le {ttl : Int} {key : String} {payload : Payload}
    (h : SetSeen maxTtl answers key payload ttl) (hmax : maxTtl ≤ 60) : ttl ≤ 60 := by
  cases h with
  | fetched hget hle => omega
  | warmed hsave hle => omega
  | introspected hexists hle => omega
  | revoked hrevoke => exact le_refl _

/-- A `SET` of the negative entry comes from a revocation of the token. -/
theorem SetSeen.marker {ttl : Int} {token : String} {payload : Payload}
    (h : SetSeen maxTtl answers (revokedKey token) payload ttl) :
    ttl = 60 ∧ ∃ revokedBy, ⟨.backing (.revokeAccessToken token revokedBy), ()⟩ ∈ answers := by
  generalize hkey : revokedKey token = key at h
  cases h with
  | fetched hget hle => exact absurd hkey (revokedKey_ne_accessKey _ _)
  | warmed hsave hle => exact absurd hkey (revokedKey_ne_accessKey _ _)
  | introspected hexists hle => exact absurd hkey (revokedKey_ne_introKey _ _)
  | @revoked token' revokedBy hrevoke =>
    obtain rfl := revokedKey_inj.mp hkey
    exact ⟨rfl, revokedBy, hrevoke⟩

theorem ReplySeen.mono {reply : CacheReply} (h : ReplySeen answers req reply)
    (hsub : answers ⊆ answers') : ReplySeen answers' req reply := by
  cases req with
  | getAccessToken token =>
    cases reply with
    | access t =>
      cases t with
      | none => exact h
      | some t => exact h.imp (@hsub _) (@hsub _)
    | _ => exact h
  | introspectToken token =>
    cases reply with
    | introspection res => exact fun hactive => (h hactive).imp (@hsub _) (@hsub _)
    | _ => exact h
  | _ => trivial

theorem WriteSeen.mono {op : CacheCall} (h : WriteSeen maxTtl req answers op)
    (hsub : answers ⊆ answers') : WriteSeen maxTtl req answers' op := by
  cases op with
  | setEx key payload ttl => exact SetSeen.mono h hsub
  | callback reply => exact ReplySeen.mono h hsub
  | _ => exact h

theorem traced_send {task : CacheTask} {rest : CacheProg}
    (htask : task.Traced (WriteSeen maxTtl req) answers)
    (hrest : rest.Traced (WriteSeen maxTtl req) answers) :
    (send task rest).Traced (WriteSeen maxTtl req) answers :=
  Prog.traced_spawn (fun _ _ _ h hsub => h.mono hsub) (fun _ => trivial)
    (List.Subset.refl answers) (List.Subset.refl answers) htask hrest

theorem traced_answer {reply : CacheReply} (h : ReplySeen answers req reply) :
    (answer reply).Traced (WriteSeen maxTtl req) answers :=
  ⟨h, fun _ => trivial⟩

theorem fillTtl_le {expiresAt now ttl : Int}
    (h : fillTtl accessTokenMaxTtlSeconds expiresAt now = some ttl) :
    ttl ≤ effectiveMaxTtl accessTokenMaxTtlSeconds := by
  unfold fillTtl at h
  split at h
  · obtain rfl := Option.some.inj h
    exact min_le_right _ _
  · cases h

theorem traced_fill {key : String} {payload : Payload} {expiresAt now : Int} {rest : CacheProg}
    (hset : ∀ ttl, ttl ≤ effectiveMaxTtl accessTokenMaxTtlSeconds →
      SetSeen (effectiveMaxTtl accessTokenMaxTtlSeconds) answers key payload ttl)
    (hrest : rest.Traced (WriteSeen (effectiveMaxTtl accessTokenMaxTtlSeconds) req) answers) :
    (fill accessTokenMaxTtlSeconds key payload expiresAt now rest).Traced
      (WriteSeen (effectiveMaxTtl accessTokenMaxTtlSeconds) req) answers := by
  unfold fill
  split
  · rename_i ttl httl
    exact traced_send ⟨hset ttl (fillTtl_le _ httl), fun _ => trivial⟩ hrest
  · exact hrest

theorem traced_getAccessToken (token : String) :
    (getAccessToken accessTokenMaxTtlSeconds token).Traced
      (WriteSeen (effectiveMaxTtl accessTokenMaxTtlSeconds) (.getAccessToken token)) [] := by
  have hfetch : ∀ r, (fetchAccessToken accessTokenMaxTtlSeconds token).Traced
      (WriteSeen (effectiveMaxTtl accessTokenMaxTtlSeconds) (.getAccessToken token))
      ([] ++ [⟨.revokedThenGet (revokedKey token) (accessKey token), r⟩]) := by
    intro r
    refine .call rfl fun t => ?_
    cases t with
    | none => exact traced_answer rfl
    | some t =>
      refine .call trivial fun now => ?_
      refine traced_fill _ (fun ttl hle => .fetched (by simp) hle) (traced_answer ?_)
      exact .inr (by simp)
  refine .call trivial fun r => ?_
  rcases r with _ | _ | payload | _
  · refine .call rfl fun t => traced_answer ?_
    cases t with
    | none => rfl
    | some t => exact .inr (by simp)
  · exact traced_answer rfl
  · cases payload with
    | access cached => exact traced_answer (.inl (by simp))
    | marker => exact hfetch _
    | introspection res => exact hfetch _
  · exact hfetch _

theorem traced_introspectToken (token : String) :
    (introspectToken accessTokenMaxTtlSeconds token).Traced
      (WriteSeen (effectiveMaxTtl accessTokenMaxTtlSeconds) (.introspectToken token)) [] := by
  have hfetch : ∀ r, (fetchIntrospection accessTokenMaxTtlSeconds token).Traced
      (WriteSeen (effectiveMaxTtl accessTokenMaxTtlSeconds) (.introspectToken token))
      ([] ++ [⟨.revokedThenGet (revokedKey token) (introKey token), r⟩]) := by
    intro r
    refine .call rfl fun res => ?_
    split
    · refine traced_send ?_ (traced_answer fun _ => .inr (by simp))
      refine .call trivial fun found => ?_
      rcases found with _ | _ | _
      · trivial
      · trivial
      refine .call trivial fun now => ?_
      split
      · rename_i ttl httl
        exact ⟨.introspected (by simp) (fillTtl_le _ httl), fun _ => trivial⟩
      · trivial
    · exact traced_answer fun _ => .inr (by simp)
  refine .call trivial fun r => ?_
  rcases r with _ | _ | payload | _
  · exact .call rfl fun res => traced_answer fun _ => .inr (by simp)
  · exact traced_answer nofun
  · cases payload with
    | introspection cached => exact traced_answer fun _ => .inl (by simp)
    | marker => exact hfetch _
    | access t => exact hfetch _
  · exact hfetch _

theorem traced_program (req : CacheRequest) :
    (program accessTokenMaxTtlSeconds req).Traced
      (WriteSeen (effectiveMaxTtl accessTokenMaxTtlSeconds) req) [] := by
  cases req with
  | getAccessToken token => exact traced_getAccessToken _ token
  | introspectToken token => exact traced_introspectToken _ token
  | revokeAccessToken token revokedBy =>
    refine .call rfl fun _ => traced_send ?_ (traced_send ?_ (traced_answer trivial))
    · exact ⟨.revoked List.mem_cons_self, fun _ => trivial⟩
    · exact ⟨⟨token, rfl, rfl⟩, fun _ => trivial⟩
  | saveAccessToken token =>
    refine .call rfl fun _ => .call trivial fun now => ?_
    exact traced_fill _ (fun ttl hle => .warmed (by simp) hle) (traced_answer trivial)
  | _ => exact .call rfl fun _ => traced_answer trivial

end AuthForge.Storage.TokenCache
