import AuthForge.Base.TimedStore
import AuthForge.Base.Spawn
import AuthForge.Storage.ClientTables

/-!
# The client cache

`RedisCachedClientRepository` around `PostgresClientRepository`, and the reset of a client secret that
invalidates it, at the granularity of database statements and Redis commands. As in the token cache, a
command that nobody waits for runs beside the rest of its request, and calling the caller back is an
operation of its own. A payload is the client that its JSON text reads back as.
-/

namespace AuthForge.Storage.ClientCache

open OAuth2

inductive ClientReply
  | client (client : Option OAuth2Client)
  | valid (ok : Bool)
  | secretReset (clientId clientSecret : String)
  | error (code detail : String)
  deriving DecidableEq

inductive ClientCall
  | generateSecureToken (bytes : Nat)
  | getUuid
  /-- Which of two commands in flight comes first. -/
  | choose
  | get (key : String)
  | setEx (key : String) (client : OAuth2Client) (ttl : Int)
  | del (key : String)
  | findOne (clientId : String)
  | getScope (clientId : String)
  | updateSecret (clientId clientSecret salt : String)
  | callback (reply : ClientReply)

/-- Answers; `none` where a command or a statement fails, and `findOne` fails without a row. -/
@[reducible] def ClientCall.Resp : ClientCall → Type
  | .generateSecureToken _ => String
  | .getUuid => String
  | .choose => Bool
  | .get _ => Option (Option OAuth2Client)
  | .setEx _ _ _ => Unit
  | .del _ => Unit
  | .findOne _ => Option Oauth2Clients
  | .getScope _ => Option (List String)
  | .updateSecret _ _ _ => Bool
  | .callback _ => Unit

structure ClientEnv extends Env, CommandEnv

structure ClientStore where
  redis : KeyServer OAuth2Client
  tables : ClientTables

/-- `UPDATE oauth2_clients SET client_secret, salt`; it succeeds without a row to update. -/
def updateSecret (env : Env) (clientId clientSecret salt : String) (T : ClientTables) :
    Bool × ClientTables :=
  if env.fails then (false, T)
  else
    (true,
      { T with
        clients := T.clients.mapValues fun key row =>
          if key = clientId then { row with clientSecret := clientSecret, salt := salt } else row })

def ClientStore.execAt (env : ClientEnv) :
    (op : ClientCall) → ClientStore → op.Resp × ClientStore
  | .generateSecureToken _, s => (env.random, s)
  | .getUuid, s => (env.random, s)
  | .choose, s => (env.taskFirst, s)
  | .get key, s => (s.redis.get env.toCommandEnv key, s)
  | .setEx key client ttl, s =>
    ((), { s with redis := s.redis.setEx env.toCommandEnv key client ttl })
  | .del key, s => ((), { s with redis := s.redis.del env.toCommandEnv key })
  | .findOne clientId, s => (if env.fails then none else s.tables.clients.lookup clientId, s)
  | .getScope clientId, s => (if env.fails then none else some (s.tables.scopesOf clientId), s)
  | .updateSecret clientId clientSecret salt, s =>
    let r := ClientCache.updateSecret env.toEnv clientId clientSecret salt s.tables
    (r.1, { s with tables := r.2 })
  | .callback _, s => ((), s)

def ClientStore.exec (env : ClientEnv) (op : ClientCall) (s : ClientStore) :
    op.Resp × ClientStore :=
  ClientStore.execAt env op { s with redis := s.redis.tick env.toCommandEnv }

/-! ### The repository -/

abbrev ClientProg := Prog ClientCall ClientCall.Resp ClientReply
abbrev ClientAnswer := Answer ClientCall ClientCall.Resp

def clientKey (clientId : String) : String := "authforge:cache:client:" ++ clientId

@[simp] theorem clientKey_inj {s t : String} : clientKey s = clientKey t ↔ s = t :=
  String.append_right_inj _

def answer (reply : ClientReply) : ClientProg := .call (.callback reply) fun _ => .ret reply

/-- Send a command without waiting for it. -/
def send (op : ClientCall) (rest : ClientProg) : ClientProg :=
  Prog.spawn .choose id (.call op fun _ => .ret ()) rest

/-- A payload without a client id is no hit. -/
def deserializeClient (payload : OAuth2Client) : Option OAuth2Client :=
  if payload.clientId = "" then none else some payload

/-- The answer to `GET`: `none` where the command failed, `some none` for a miss. -/
def lookupCached (clientId : String) (k : Option (Option OAuth2Client) → ClientProg) :
    ClientProg :=
  .call (.get (clientKey clientId)) fun payload =>
    k (payload.map fun payload => payload.bind deserializeClient)

section

variable (sha256Hex : String → String) (clientTtlSeconds : Int)

/-- `PostgresClientRepository::getClient`: the row, then the scopes. -/
def fetchClient (clientId : String) (k : Option OAuth2Client → ClientProg) : ClientProg :=
  .call (.findOne clientId) fun
    | none => k none
    | some row =>
      .call (.getScope row.clientId) fun
        | none => k none
        | some scopes => k (some (ClientTables.toClient row scopes))

/-- `clientTtlSeconds_`. -/
def effectiveTtl : Int := if clientTtlSeconds > 0 then clientTtlSeconds else 300

/-- A client that was found is cached without waiting. -/
def fillClient (clientId : String) : Option OAuth2Client → ClientProg
  | none => answer (.client none)
  | some client =>
    send (.setEx (clientKey clientId) client (effectiveTtl clientTtlSeconds))
      (answer (.client (some client)))

def getClient (clientId : String) : ClientProg :=
  lookupCached clientId fun
    | none => fetchClient clientId fun client => answer (.client client)
    | some none => fetchClient clientId (fillClient clientTtlSeconds clientId)
    | some (some cached) => answer (.client (some cached))

def validateCachedClientSecret (client : OAuth2Client) (clientSecret : String) : Bool :=
  match client.clientType with
  | .PUBLIC => true
  | .CONFIDENTIAL =>
    clientSecret ≠ "" &&
      ClientTables.secretMatches sha256Hex clientSecret client.salt client.clientSecretHash

/-- `PostgresClientRepository::validateClient`. -/
def validateStored (clientId clientSecret : String) : ClientProg :=
  .call (.findOne clientId) fun row =>
    answer (.valid (row.elim false (ClientTables.validateRow sha256Hex clientSecret)))

/-- A miss fills nothing. -/
def validateClient (clientId clientSecret : String) : ClientProg :=
  lookupCached clientId fun
    | some (some cached) => answer (.valid (validateCachedClientSecret sha256Hex cached clientSecret))
    | _ => validateStored sha256Hex clientId clientSecret

/-! ### The reset of a secret -/

def hashClientSecretWithSalt (clientSecret salt : String) : String :=
  String.ofList ((sha256Hex (clientSecret ++ salt)).toList.map Char.toLower)

/-- Secret and salt are drawn before the client is looked up. -/
def resetClientSecret (clientId : String) : ClientProg :=
  if clientId = "" then
    answer (.error "VALIDATION_MISSING_REQUIRED_FIELD" "clientId is required")
  else
    .call (.generateSecureToken 32) fun newSecret =>
    .call .getUuid fun uuid =>
    .call (.findOne clientId) fun
      | none => answer (.error "VALIDATION_RESOURCE_NOT_FOUND" "Client not found")
      | some row =>
        let newSalt := String.ofList (uuid.toList.take 36)
        .call (.updateSecret row.clientId (hashClientSecretWithSalt sha256Hex newSecret newSalt)
          newSalt) fun
          | false => answer (.error "DB_QUERY_ERROR" "Failed to reset client secret: ")
          | true => send (.del (clientKey clientId)) (answer (.secretReset clientId newSecret))

inductive ClientRequest
  | getClient (clientId : String)
  | validateClient (clientId clientSecret : String)
  | resetClientSecret (clientId : String)
  deriving DecidableEq

def program : ClientRequest → ClientProg
  | .getClient clientId => getClient clientTtlSeconds clientId
  | .validateClient clientId clientSecret => validateClient sha256Hex clientId clientSecret
  | .resetClientSecret clientId => resetClientSecret sha256Hex clientId

/-- All interleavings of the requests. -/
def service : Service ClientStore ClientEnv ClientCall ClientCall.Resp ClientRequest ClientReply where
  exec := ClientStore.exec
  program := program sha256Hex clientTtlSeconds

end

abbrev ClientEvent := Service.Event ClientEnv ClientCall ClientCall.Resp ClientRequest

/-! ### The wrapped repository -/

variable {sha256Hex : String → String} {clientTtlSeconds : Int}

/-- With nothing in between, the two statements are the repository's answer. -/
theorem fetchClient_eval (env : ClientEnv) (n : Nat) (clientId : String) (s : ClientStore) :
    (Prog.eval ClientStore.exec (fun _ => env) n
      (fetchClient clientId fun client => .ret (.client client)) s).1 =
      .client (s.tables.getClient { env.toEnv with cascadeFails := env.fails } clientId) := by
  rw [fetchClient, Prog.eval]
  simp only [ClientStore.exec, ClientStore.execAt, ClientTables.getClient]
  cases henv : env.fails with
  | true => rfl
  | false =>
    cases hrow : s.tables.clients.lookup clientId with
    | none => simp [Prog.eval]
    | some row => simp [Prog.eval, ClientStore.exec, ClientStore.execAt, henv]

/-- A cached row is checked as the stored one. -/
theorem validateCachedClientSecret_toClient (row : Oauth2Clients) (scopes : List String)
    (clientSecret : String) :
    validateCachedClientSecret sha256Hex (ClientTables.toClient row scopes) clientSecret =
      ClientTables.validateRow sha256Hex clientSecret row := by
  unfold validateCachedClientSecret ClientTables.validateRow
  cases htype : ClientTables.clientTypeOf row with
  | PUBLIC => simp [ClientTables.toClient, htype]
  | CONFIDENTIAL => simp [ClientTables.toClient, htype]

/-! ### What a step does -/

theorem tables_exec {env : ClientEnv} {op : ClientCall} {s : ClientStore}
    (h : ∀ clientId clientSecret salt, op ≠ .updateSecret clientId clientSecret salt) :
    (ClientStore.exec env op s).2.tables = s.tables := by
  cases op with
  | updateSecret clientId clientSecret salt => exact absurd rfl (h clientId clientSecret salt)
  | _ => rfl

theorem holds_exec {P : OAuth2Client → Prop} {key : String} {env : ClientEnv} {op : ClientCall}
    {s : ClientStore} (h : s.redis.Holds P key)
    (hset : ∀ client ttl, op = .setEx key client ttl → P client) :
    (ClientStore.exec env op s).2.redis.Holds P key := by
  cases op with
  | setEx key' client ttl =>
    refine KeyServer.Holds.setEx h.tick ?_
    intro hkey
    subst hkey
    exact hset client ttl rfl
  | del key' => exact KeyServer.Holds.del h.tick key'
  | _ => exact h.tick

/-! ### What a request has seen when it writes or calls back -/

def WriteSeen (sha256Hex : String → String) (req : ClientRequest) (answers : List ClientAnswer) :
    ClientCall → Prop
  | .setEx key client _ =>
    ∃ clientId row scopes, key = clientKey clientId ∧ client = ClientTables.toClient row scopes ∧
      ⟨.findOne clientId, some row⟩ ∈ answers
  | .updateSecret _ clientSecret salt =>
    ∃ newSecret, clientSecret = hashClientSecretWithSalt sha256Hex newSecret salt ∧
      ⟨.generateSecureToken 32, newSecret⟩ ∈ answers
  | .del key =>
    ∃ clientId row clientSecret salt, key = clientKey clientId ∧
      ⟨.findOne clientId, some row⟩ ∈ answers ∧
      ⟨.updateSecret row.clientId clientSecret salt, true⟩ ∈ answers
  | .callback (.valid true) =>
    ∃ clientId clientSecret, req = .validateClient clientId clientSecret ∧
      ((∃ cached, ⟨.get (clientKey clientId), some (some cached)⟩ ∈ answers ∧
          validateCachedClientSecret sha256Hex cached clientSecret = true) ∨
        ∃ row, ⟨.findOne clientId, some row⟩ ∈ answers ∧
          ClientTables.validateRow sha256Hex clientSecret row = true)
  | _ => True

variable {req : ClientRequest} {answers answers' : List ClientAnswer}

theorem WriteSeen.mono {op : ClientCall} (h : WriteSeen sha256Hex req answers op)
    (hsub : answers ⊆ answers') : WriteSeen sha256Hex req answers' op := by
  cases op with
  | setEx key client ttl =>
    obtain ⟨clientId, row, scopes, hkey, hclient, hrow⟩ := h
    exact ⟨clientId, row, scopes, hkey, hclient, hsub hrow⟩
  | updateSecret clientId clientSecret salt =>
    obtain ⟨newSecret, hhash, hdraw⟩ := h
    exact ⟨newSecret, hhash, hsub hdraw⟩
  | del key =>
    obtain ⟨clientId, row, clientSecret, salt, hkey, hrow, hupdate⟩ := h
    exact ⟨clientId, row, clientSecret, salt, hkey, hsub hrow, hsub hupdate⟩
  | callback reply =>
    cases reply with
    | valid ok =>
      cases ok with
      | false => trivial
      | true =>
        obtain ⟨clientId, clientSecret, hreq, ⟨cached, hget, hvalid⟩ | ⟨row, hrow, hvalid⟩⟩ := h
        · exact ⟨clientId, clientSecret, hreq, .inl ⟨cached, hsub hget, hvalid⟩⟩
        · exact ⟨clientId, clientSecret, hreq, .inr ⟨row, hsub hrow, hvalid⟩⟩
    | _ => trivial
  | _ => trivial

theorem traced_send {op : ClientCall} {rest : ClientProg}
    (hop : WriteSeen sha256Hex req answers op)
    (hrest : rest.Traced (WriteSeen sha256Hex req) answers) :
    (send op rest).Traced (WriteSeen sha256Hex req) answers :=
  Prog.traced_spawn (fun _ _ _ h hsub => h.mono hsub) (fun _ => trivial)
    (List.Subset.refl answers) (List.Subset.refl answers) (.call hop fun _ => trivial) hrest

theorem traced_answer {reply : ClientReply} (h : WriteSeen sha256Hex req answers (.callback reply)) :
    (answer reply).Traced (WriteSeen sha256Hex req) answers :=
  ⟨h, fun _ => trivial⟩

theorem traced_fetchClient {clientId : String} {k : Option OAuth2Client → ClientProg}
    (hnone : ∀ answers', answers ⊆ answers' →
      (k none).Traced (WriteSeen sha256Hex req) answers')
    (hsome : ∀ answers' row scopes, ⟨.findOne clientId, some row⟩ ∈ answers' →
      (k (some (ClientTables.toClient row scopes))).Traced (WriteSeen sha256Hex req) answers') :
    (fetchClient clientId k).Traced (WriteSeen sha256Hex req) answers := by
  refine .call trivial fun row => ?_
  cases row with
  | none => exact hnone _ (List.subset_append_left _ _)
  | some row =>
    refine .call trivial fun scopes => ?_
    cases scopes with
    | none => exact hnone _ (by rw [List.append_assoc]; exact List.subset_append_left _ _)
    | some scopes => exact hsome _ row scopes (by simp)

theorem traced_getClient (clientId : String) :
    (getClient clientTtlSeconds clientId).Traced (WriteSeen sha256Hex (.getClient clientId)) [] := by
  refine .call trivial fun payload => ?_
  dsimp only
  split
  · exact traced_fetchClient (fun _ _ => traced_answer trivial) fun _ _ _ _ => traced_answer trivial
  · refine traced_fetchClient (fun _ _ => traced_answer trivial) ?_
    intro answers' row scopes hrow
    exact traced_send ⟨clientId, row, scopes, rfl, rfl, hrow⟩ (traced_answer trivial)
  · exact traced_answer trivial

theorem traced_validateStored (clientId clientSecret : String) :
    (validateStored sha256Hex clientId clientSecret).Traced
      (WriteSeen sha256Hex (.validateClient clientId clientSecret)) answers := by
  refine .call trivial fun row => traced_answer ?_
  cases row with
  | none => trivial
  | some row =>
    change WriteSeen _ _ _ (.callback (.valid (ClientTables.validateRow sha256Hex clientSecret row)))
    cases hvalid : ClientTables.validateRow sha256Hex clientSecret row with
    | false => trivial
    | true => exact ⟨clientId, clientSecret, rfl, .inr ⟨row, by simp, hvalid⟩⟩

theorem traced_validateClient (clientId clientSecret : String) :
    (validateClient sha256Hex clientId clientSecret).Traced
      (WriteSeen sha256Hex (.validateClient clientId clientSecret)) [] := by
  refine .call trivial fun payload => ?_
  rcases payload with _ | _ | payload
  · exact traced_validateStored clientId clientSecret
  · exact traced_validateStored clientId clientSecret
  · simp only [Option.map_some, Option.bind_some, deserializeClient]
    split
    · rename_i cached hcached
      have hpayload : payload = cached := by
        split at hcached
        · cases hcached
        · exact Option.some.inj (Option.some.inj hcached)
      subst hpayload
      refine traced_answer ?_
      cases hvalid : validateCachedClientSecret sha256Hex payload clientSecret with
      | false => trivial
      | true => exact ⟨clientId, clientSecret, rfl, .inl ⟨payload, by simp, hvalid⟩⟩
    · exact traced_validateStored clientId clientSecret

theorem traced_resetClientSecret (clientId : String) :
    (resetClientSecret sha256Hex clientId).Traced
      (WriteSeen sha256Hex (.resetClientSecret clientId)) [] := by
  unfold resetClientSecret
  split
  · exact traced_answer trivial
  · refine .call trivial fun newSecret => .call trivial fun uuid => .call trivial fun row => ?_
    cases row with
    | none => exact traced_answer trivial
    | some row =>
      refine .call ⟨newSecret, rfl, by simp⟩ fun updated => ?_
      cases updated with
      | false => exact traced_answer trivial
      | true =>
        refine traced_send ?_ (traced_answer trivial)
        have hupdate := List.mem_append_right
          ([] ++ [(⟨.generateSecureToken 32, newSecret⟩ : ClientAnswer)] ++ [⟨.getUuid, uuid⟩] ++
            [⟨.findOne clientId, some row⟩])
          (List.mem_singleton_self (⟨.updateSecret row.clientId
            (hashClientSecretWithSalt sha256Hex newSecret (String.ofList (uuid.toList.take 36)))
            (String.ofList (uuid.toList.take 36)), true⟩ : ClientAnswer))
        exact ⟨clientId, row, _, _, rfl, by simp, hupdate⟩

theorem traced_program (req : ClientRequest) :
    (program sha256Hex clientTtlSeconds req).Traced (WriteSeen sha256Hex req) [] := by
  cases req with
  | getClient clientId => exact traced_getClient clientId
  | validateClient clientId clientSecret => exact traced_validateClient clientId clientSecret
  | resetClientSecret clientId => exact traced_resetClientSecret clientId

end AuthForge.Storage.ClientCache
