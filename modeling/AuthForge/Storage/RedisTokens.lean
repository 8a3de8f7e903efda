import AuthForge.Base.Prog
import AuthForge.Storage.MemoryCalls
import AuthForge.Storage.Redis

/-!
# The Redis token repository

`RedisTokenRepository` keeps an access token as a JSON object under `oauth2:token:<hash>` with a
time to live. Reading is one command. Revoking reads the object and writes it back with three
members set anew, and between these two commands anything can happen. Refresh tokens are not kept
at all.
-/

namespace AuthForge.Storage.RedisTokens

open OAuth2 Redis
open Memory (TokenCall TokenReply)

/-! ### Tokens as JSON -/

def tokenKey (token : String) : String := cStr ("oauth2:token:" ++ token)

def tokenJson (token : OAuth2AccessToken) : Redis.Json :=
  [("client_id", .str token.clientId), ("user_id", .str token.userId), ("scope", .str token.scope),
   ("expires_at", .int token.expiresAt), ("revoked", .bool token.revoked),
   ("issued_at", .int token.issuedAt), ("issuer", .str token.issuer),
   ("audience", .str token.audience), ("not_before", .int token.notBefore),
   ("introspect_count", .int token.introspectCount), ("revoked_at", .int token.revokedAt),
   ("revoked_by", .str token.revokedBy)]

/-- `json.isMember(name)`. -/
def isMember (json : Redis.Json) (name : String) : Bool := (json.lookup name).isSome

/-- The record of an object; a member that an older writer has left out keeps its default. -/
def readToken (token : String) (json : Redis.Json) : OAuth2AccessToken where
  token
  clientId := json.asString "client_id"
  userId := json.asString "user_id"
  scope := json.asString "scope"
  expiresAt := json.asInt64 "expires_at"
  revoked := json.asBool "revoked"
  issuedAt := if isMember json "issued_at" then json.asInt64 "issued_at" else 0
  issuer := if isMember json "issuer" then json.asString "issuer" else ""
  audience := if isMember json "audience" then json.asString "audience" else ""
  notBefore := if isMember json "not_before" then json.asInt64 "not_before" else 0
  introspectCount :=
    if isMember json "introspect_count" then json.asInt64 "introspect_count" else 0
  revokedAt := if isMember json "revoked_at" then json.asInt64 "revoked_at" else 0
  revokedBy := if isMember json "revoked_by" then json.asString "revoked_by" else ""

def introspection (now : Int) (json : Redis.Json) : TokenIntrospection :=
  let expiresAt := json.asInt64 "expires_at"
  if json.asBool "revoked" = true ∨ expiresAt < now then { active := false }
  else
    { active := true
      clientId := json.asString "client_id"
      tokenType := "Bearer"
      exp := expiresAt
      iat := if isMember json "issued_at" then json.asInt64 "issued_at" else now
      iss := if isMember json "issuer" then json.asString "issuer" else ""
      aud := if isMember json "audience" then json.asString "audience" else ""
      nbf := if isMember json "not_before" then json.asInt64 "not_before" else now
      sub := json.asString "user_id"
      scope := json.asString "scope" }

def revokedJson (now : Int) (revokedBy : String) (json : Redis.Json) : Redis.Json :=
  ((json.set "revoked" (.bool true)).set "revoked_at" (.int now)).set "revoked_by" (.str revokedBy)

/-- The seconds that a saved token lives. -/
def timeToLive (now : Int) (token : OAuth2AccessToken) : Int :=
  if token.expiresAt > now then token.expiresAt - now else 1

/-- The seconds that a revoked token lives. -/
def revokedLife : Int := 3600

/-! ### Commands -/

inductive Command
  /-- Not a command: the repository reads the clock. -/
  | clock
  | setex (key : String) (seconds : Int) (value : Redis.Json)
  | get (key : String)
  /-- Into a hash under a prefix of its own, which nothing reads. -/
  | hset (token : String)

/-- An error is `none`. A reply to a write is not looked at. -/
@[reducible] def Command.Resp : Command → Type
  | .clock => Int
  | .setex _ _ _ => Unit
  | .get _ => Option (Option Redis.Json)
  | .hset _ => Unit

/-- The seconds since the last step, and whether the command fails; a write that fails may have been
carried out all the same. -/
structure RedisEnv where
  elapsed : Nat := 0
  fails : Bool := false
  carriedOut : Bool := false

def RedisEnv.lost (env : RedisEnv) : Bool := env.fails && !env.carriedOut

/-- The clock is the one of both sides. -/
structure RedisServer where
  clock : Int
  keys : Keyspace

def exec (env : RedisEnv) (op : Command) (s : RedisServer) : op.Resp × RedisServer :=
  let now := s.clock + env.elapsed
  match op with
  | .clock => (now, { s with clock := now })
  | .setex key seconds value =>
    ((), ⟨now, if env.lost then s.keys else setex now key seconds value s.keys⟩)
  | .get key => (if env.fails then none else some (get now key s.keys), { s with clock := now })
  | .hset _ => ((), { s with clock := now })

/-! ### Operations -/

abbrev TokenProg := Prog Command Command.Resp TokenReply
abbrev TokenAnswer := Answer Command Command.Resp

def saveAccessToken (token : OAuth2AccessToken) : TokenProg :=
  .call .clock fun now =>
  .call (.setex (tokenKey token.token) (timeToLive now token) (tokenJson token)) fun _ => .ret .done

/-- Nothing under the key and an error are the same. -/
def getAccessToken (token : String) : TokenProg :=
  .call (.get (tokenKey token)) fun result => .ret (.access (result.join.map (readToken token)))

def introspectToken (token : String) : TokenProg :=
  .call (.get (tokenKey token)) fun result =>
  match result.join with
  | none => .ret (.introspection { active := false })
  | some json => .call .clock fun now => .ret (.introspection (introspection now json))

def incrementIntrospectCount (token : String) : TokenProg :=
  .call (.get (tokenKey token)) fun _ => .ret .done

def revokeAccessToken (token revokedBy : String) : TokenProg :=
  .call (.get (tokenKey token)) fun result =>
  match result.join with
  | none => .ret .done
  | some json =>
    .call .clock fun now =>
    .call (.setex (tokenKey token) revokedLife (revokedJson now revokedBy json)) fun _ => .ret .done

def revokeRefreshToken (token : String) : TokenProg :=
  .call (.hset (cStr token)) fun _ => .ret .done

/-- `getRefreshToken` never finds one, so `atomicRevokeRefreshToken` ends there. -/
def program : TokenCall → TokenProg
  | .saveAccessToken token => saveAccessToken token
  | .saveRefreshToken _ => .ret .done
  | .getAccessToken token => getAccessToken token
  | .getRefreshToken _ => .ret (.refresh none)
  | .atomicRevokeRefreshToken _ => .ret (.refresh none)
  | .revokeAccessToken token revokedBy => revokeAccessToken token revokedBy
  | .revokeRefreshToken token => revokeRefreshToken token
  | .revokeTokenFamily _ => .ret .done
  | .introspectToken token => introspectToken token
  | .incrementIntrospectCount token => incrementIntrospectCount token
  | .purgeExpired => .ret .done

def service : Service RedisServer RedisEnv Command Command.Resp TokenCall TokenReply where
  exec := exec
  program := program

abbrev TokenEvent := Service.Event RedisEnv Command Command.Resp TokenCall

/-- An operation that nothing interrupts, on a client that does not fail, while the clock stands. -/
def call (now : Int) (c : TokenCall) (s : RedisServer) : TokenReply × RedisServer :=
  let r := Prog.eval exec (fun _ => {}) 0 (program c) { s with clock := now }
  (r.1, r.2.1)

/-! ### JSON members -/

section Members

variable {json : Redis.Json} {name name' : String} {value : Scalar}

theorem lookup_cons (f : String × Scalar) (fs : Redis.Json) (name : String) :
    List.lookup name (f :: fs) = if name = f.1 then some f.2 else fs.lookup name := by
  rw [List.lookup_cons]
  by_cases hname : name = f.1
  · rw [if_pos hname, show (name == f.1) = true from beq_iff_eq.mpr hname]
  · rw [if_neg hname, show (name == f.1) = false from beq_eq_false_iff_ne.mpr hname]

theorem lookup_append (fs gs : Redis.Json) (name : String) :
    List.lookup name (fs ++ gs) = (fs.lookup name).or (gs.lookup name) := by
  induction fs with
  | nil => rfl
  | cons f fs ih =>
    rw [List.cons_append, lookup_cons, lookup_cons, ih]
    split <;> rfl

theorem lookup_ne_none_iff : json.lookup name ≠ none ↔ json.any (·.1 = name) = true := by
  induction json with
  | nil => simp
  | cons f fs ih =>
    rw [lookup_cons, List.any_cons, Bool.or_eq_true, ← ih, decide_eq_true_eq]
    by_cases hname : name = f.1
    · simp [hname]
    · simp [hname, Ne.symm hname]

theorem lookup_replaced (json : Redis.Json) (name name' : String) (value : Scalar) :
    List.lookup name' (json.map fun f => if f.1 = name then (name, value) else f) =
      if name' = name then (json.lookup name).map fun _ => value else json.lookup name' := by
  induction json with
  | nil => split <;> rfl
  | cons f fs ih =>
    rw [List.map_cons, lookup_cons, lookup_cons, lookup_cons, ih]
    by_cases hkey : f.1 = name
    · by_cases hname : name' = name <;> simp [hkey, hname]
    · by_cases hname : name' = name
      · simp [hkey, hname, Ne.symm hkey]
      · simp [hkey, hname]

theorem lookup_set : (json.set name value).lookup name' =
    if name' = name then some value else json.lookup name' := by
  unfold Redis.Json.set
  split
  · rename_i hany
    obtain ⟨v, hv⟩ := Option.ne_none_iff_exists'.mp (lookup_ne_none_iff.mpr hany)
    rw [lookup_replaced, hv, Option.map_some]
  · rename_i hany
    rw [lookup_append, lookup_cons]
    by_cases hname : name' = name
    · have hnone : json.lookup name = none := not_not.mp (mt lookup_ne_none_iff.mp hany)
      simp [hname, hnone]
    · simp [hname]

theorem asBool_revokedJson (now : Int) (revokedBy : String) (json : Redis.Json) :
    (revokedJson now revokedBy json).asBool "revoked" = true := by
  have hat : ("revoked" : String) ≠ "revoked_at" := by decide
  have hby : ("revoked" : String) ≠ "revoked_by" := by decide
  rw [Redis.Json.asBool, revokedJson, lookup_set, if_neg hby, lookup_set, if_neg hat, lookup_set,
    if_pos rfl]

theorem asBool_tokenJson (token : OAuth2AccessToken) :
    (tokenJson token).asBool "revoked" = token.revoked := rfl

theorem readToken_tokenJson (key : String) (token : OAuth2AccessToken) :
    readToken key (tokenJson token) = { token with token := key } := rfl

end Members

/-! ### Expiring keys -/

section Keys

variable {now now' : Int} {key key' : String} {seconds : Int} {value : Redis.Json} {s : Keyspace}

theorem get_setex_self : get now' key (setex now key seconds value s) =
    if now' < now + seconds then some value else none := by
  simp only [Redis.get, setex, AList.lookup_insert]

theorem get_setex_of_ne (h : key' ≠ key) :
    get now' key' (setex now key seconds value s) = get now' key' s := by
  simp only [Redis.get, setex, AList.lookup_insert_ne h]

/-- What is read now was there before; a key that is gone does not come back by itself. -/
theorem get_of_le (h : get now' key s = some value) (hle : now ≤ now') :
    get now key s = some value := by
  unfold Redis.get at h ⊢
  split at h
  · cases h
  · rename_i e _
    split at h
    · exact h
    · split at h
      · rename_i hlive
        rw [if_pos (by omega)]
        exact h
      · cases h

end Keys

/-! ### Operations that nothing interrupts -/

section Calls

variable (now : Int) (s : RedisServer) (token : String)

theorem call_saveAccessToken (t : OAuth2AccessToken) :
    call now (.saveAccessToken t) s =
      (.done, ⟨now, setex now (tokenKey t.token) (timeToLive now t) (tokenJson t) s.keys⟩) := by
  simp [call, program, saveAccessToken, Prog.eval, exec, RedisEnv.lost]

theorem call_getAccessToken : call now (.getAccessToken token) s =
    (.access ((get now (tokenKey token) s.keys).map (readToken token)), ⟨now, s.keys⟩) := by
  simp [call, program, getAccessToken, Prog.eval, exec]

theorem call_introspectToken : call now (.introspectToken token) s =
    (.introspection (match get now (tokenKey token) s.keys with
      | none => { active := false }
      | some json => introspection now json), ⟨now, s.keys⟩) := by
  cases hget : get now (tokenKey token) s.keys <;>
    simp [call, program, introspectToken, Prog.eval, exec, hget]

theorem call_revokeAccessToken (revokedBy : String) :
    call now (.revokeAccessToken token revokedBy) s =
      (.done, match get now (tokenKey token) s.keys with
        | none => ⟨now, s.keys⟩
        | some json =>
          ⟨now, setex now (tokenKey token) revokedLife (revokedJson now revokedBy json) s.keys⟩) := by
  cases hget : get now (tokenKey token) s.keys <;>
    simp [call, program, revokeAccessToken, Prog.eval, exec, RedisEnv.lost, hget]

theorem call_incrementIntrospectCount : call now (.incrementIntrospectCount token) s =
    (.done, ⟨now, s.keys⟩) := by
  simp [call, program, incrementIntrospectCount, Prog.eval, exec]

theorem call_revokeRefreshToken : call now (.revokeRefreshToken token) s =
    (.done, ⟨now, s.keys⟩) := by
  simp [call, program, revokeRefreshToken, Prog.eval, exec]

end Calls

end AuthForge.Storage.RedisTokens
