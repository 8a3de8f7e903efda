import AuthForge.Storage.Memory
import AuthForge.Proof.RedisKeys

/-!
# One client in three repositories

The repositories keep a client in their own ways: the in-memory one has the secret itself, the other
two a salted digest. The Redis hash has no type, so `RedisClientRepository` cannot tell a public client
from a confidential one; and it finds the hash by a command that the client id is pasted into.
-/

namespace AuthForge.ClientBackends

open OAuth2 Storage CommandFormat RedisCommands

structure Registered where
  clientId : String
  clientType : ClientType
  secret : String
  salt : String
  redirectUris : List String
  allowedScopes : List String
  deriving DecidableEq

/-- A client in each of the three repositories. -/
structure Stores where
  memory : Memory.Clients
  tables : ClientTables
  hashes : RedisClients.ClientHashes

def lower (s : String) : List Char := s.toList.map Char.toLower

variable {A : Type} (text : JsonText) (conversion : Conversion A) (uninitialised : ClientType)
  (sha256Hex : String → String)

structure StoredAlike (c : Registered) (s : Stores) : Prop where
  memory : ∃ client, s.memory.lookup c.clientId = some client ∧ client.clientType = c.clientType ∧
    client.clientSecretHash = c.secret ∧ client.redirectUris = c.redirectUris ∧
    client.allowedScopes = c.allowedScopes
  tables : ∃ row, s.tables.clients.lookup c.clientId = some row ∧
    ClientTables.clientTypeOf row = c.clientType ∧
    lower row.clientSecret = lower (sha256Hex (c.secret ++ c.salt)) ∧ row.salt = c.salt ∧
    ClientTables.lineItems ',' row.redirectUris = c.redirectUris ∧
    s.tables.scopesOf row.clientId = c.allowedScopes
  hashes : ∃ secretHash, (RedisClients.fields c.clientId s.hashes).lookup "secret" = some secretHash ∧
    lower secretHash = lower (sha256Hex (c.secret ++ c.salt)) ∧
    (RedisClients.fields c.clientId s.hashes).lookup "salt" = some c.salt ∧
    (RedisClients.fields c.clientId s.hashes).flatMap (RedisClients.urisOf text) = c.redirectUris

/-- What `getClient` reports of a client, as far as the backends are to agree. -/
def reported (client : OAuth2Client) : ClientType × List String × List String :=
  (client.clientType, client.redirectUris, client.allowedScopes)

/-- The three repositories answer alike when this secret is presented. -/
structure Alike (c : Registered) (s : Stores) (presented : String) : Prop where
  memory : Memory.validateClient c.clientId presented s.memory =
    s.tables.validateClient sha256Hex {} c.clientId presented
  redis : RedisClients.validateClient conversion sha256Hex {} c.clientId presented s.hashes =
    s.tables.validateClient sha256Hex {} c.clientId presented
  memoryClient : (Memory.getClient c.clientId s.memory).map reported =
    (s.tables.getClient {} c.clientId).map reported
  redisClient : (RedisClients.getClient text conversion uninitialised {} c.clientId s.hashes).map
      reported = (s.tables.getClient {} c.clientId).map reported

/-- They answer alike whatever other hashes Redis has. -/
def AlikeAmongAny (c : Registered) (s : Stores) (presented : String) : Prop :=
  ∀ hashes, RedisClients.fields c.clientId hashes = RedisClients.fields c.clientId s.hashes →
    Alike text conversion uninitialised sha256Hex c { s with hashes } presented

/-! ### What each repository answers -/

variable {text conversion uninitialised sha256Hex} {c : Registered} {s : Stores}
  {presented : String}

/-- The digests that are compared are those of the presented and of the registered secret. -/
def DigestMatches (sha256Hex : String → String) (c : Registered) (presented : String) : Prop :=
  lower (sha256Hex (presented ++ c.salt)) = lower (sha256Hex (c.secret ++ c.salt))

theorem memory_validates (presented : String) (h : StoredAlike text sha256Hex c s) :
    Memory.validateClient c.clientId presented s.memory = true ↔
      c.clientType = .PUBLIC ∨ (presented ≠ "" ∧ presented = c.secret) := by
  obtain ⟨client, hlookup, htype, hsecret, -, -⟩ := h.memory
  simp only [Memory.validateClient, hlookup, htype, hsecret]
  cases c.clientType <;> simp

theorem tables_validate (presented : String) (h : StoredAlike text sha256Hex c s) :
    s.tables.validateClient sha256Hex {} c.clientId presented = true ↔
      c.clientType = .PUBLIC ∨ (presented ≠ "" ∧ DigestMatches sha256Hex c presented) := by
  obtain ⟨row, hlookup, htype, hsecret, hsalt, -, -⟩ := h.tables
  have hmatch : ClientTables.secretMatches sha256Hex presented row.salt row.clientSecret = true ↔
      DigestMatches sha256Hex c presented := by
    rw [ClientTables.secretMatches, decide_eq_true_eq, hsalt, DigestMatches, ← hsecret]
    rfl
  cases hc : c.clientType with
  | PUBLIC => simp [ClientTables.validateClient, hlookup, ClientTables.validateRow, htype, hc]
  | CONFIDENTIAL =>
    simp [ClientTables.validateClient, hlookup, ClientTables.validateRow, htype, hc, hmatch]

theorem execCommandAsync_eq {hashes : RedisClients.ClientHashes} {command : Bytes}
    {argv : List Bytes} (h : formatCommand conversion command [] = some argv) :
    RedisClients.execCommandAsync conversion {} hashes command =
      RedisClients.answer hashes argv := by
  rw [RedisClients.execCommandAsync, if_neg (by decide), h]

theorem fields_ne_nil (h : StoredAlike text sha256Hex c s) :
    RedisClients.fields c.clientId s.hashes ≠ [] := by
  obtain ⟨secretHash, hsecret, -⟩ := h.hashes
  intro hnil
  rw [hnil] at hsecret
  cases hsecret

variable (conversion) in
/-- Whatever the type is. With a percent sign in the id no secret is read. -/
theorem redis_validates (presented : String) (h : StoredAlike text sha256Hex c s)
    (hid : CopiedLast (bytes c.clientId)) :
    RedisClients.validateClient conversion sha256Hex {} c.clientId presented s.hashes = true ↔
      presented = "" ∨ percent ∉ bytes c.clientId ∧ DigestMatches sha256Hex c presented := by
  unfold RedisClients.validateClient
  by_cases hpresented : presented = ""
  · subst hpresented
    have hexists : RedisClients.fieldsAt s.hashes (hashPrefix ++ bytes c.clientId) ≠ [] :=
      fields_ne_nil h
    have hresult : RedisClients.execCommandAsync conversion {} s.hashes
        (RedisClientRepository.validateClient (bytes c.clientId) (bytes "")) =
          some (.integer 1) := by
      rw [(bytes_eq_nil_iff "").mpr rfl, execCommandAsync_eq (formatCommand_exists hid),
        RedisClients.answer, if_neg (by decide), if_pos rfl]
      simp [RedisClients.countExisting, hexists]
    rw [hresult]
    simp
  have hsome : bytes presented ≠ [] := mt (bytes_eq_nil_iff presented).mp hpresented
  simp only [hpresented, if_false, false_or]
  by_cases hpercent : percent ∈ bytes c.clientId
  · rw [RedisClients.execCommandAsync, if_neg (by decide),
      formatCommand_hmget_percent hid hpercent hsome]
    simp [hpercent]
  · obtain ⟨secretHash, hsecret, hdigest, hsalt, -⟩ := h.hashes
    have hmatch : ClientTables.secretMatches sha256Hex presented c.salt secretHash = true ↔
        DigestMatches sha256Hex c presented := by
      rw [ClientTables.secretMatches, decide_eq_true_eq, DigestMatches, ← hdigest]
      rfl
    have hcopied : Copied (bytes c.clientId) := ⟨hid.1, hpercent, hid.2.2⟩
    have hanswer : RedisClients.answer s.hashes
        [bytes "HMGET", hashPrefix ++ bytes c.clientId, bytes "secret", bytes "salt"] =
        some (.array [some secretHash, some c.salt]) := by
      rw [← hsecret, ← hsalt, RedisClients.answer, if_neg (by decide), if_neg (by decide),
        if_pos rfl, ← RedisClients.fieldValue_bytes, ← RedisClients.fieldValue_bytes]
      rfl
    rw [execCommandAsync_eq (formatCommand_hmget hcopied hsome), hanswer]
    simp [hpercent, hmatch]

theorem memory_reports (h : StoredAlike text sha256Hex c s) :
    (Memory.getClient c.clientId s.memory).map reported =
      some (c.clientType, c.redirectUris, c.allowedScopes) := by
  obtain ⟨client, hlookup, htype, -, huris, hscopes⟩ := h.memory
  simp [Memory.getClient, hlookup, reported, htype, huris, hscopes]

theorem tables_report (h : StoredAlike text sha256Hex c s) :
    (s.tables.getClient {} c.clientId).map reported =
      some (c.clientType, c.redirectUris, c.allowedScopes) := by
  obtain ⟨row, hlookup, htype, -, -, huris, hscopes⟩ := h.tables
  simp [ClientTables.getClient, hlookup, reported, ClientTables.toClient, htype, huris, hscopes]

variable (conversion) in
theorem redis_reports (uninitialised : ClientType) (h : StoredAlike text sha256Hex c s)
    (hid : CopiedLast (bytes c.clientId)) :
    (RedisClients.getClient text conversion uninitialised {} c.clientId s.hashes).map reported =
      some (uninitialised, c.redirectUris, []) := by
  obtain ⟨secretHash, -, -, -, huris⟩ := h.hashes
  obtain ⟨client, hclient, htype, hscopes, hread⟩ :=
    RedisClients.getClient_eq_some text uninitialised (fields_ne_nil h)
      (execCommandAsync_eq (formatCommand_hgetall hid))
  rw [hclient, Option.map_some, reported, htype, hscopes, hread, huris]

/-- A client is handed out only after its command has come out as one with the key of some hash. -/
theorem hgetall_of_getClient {client : OAuth2Client} {clientId : String}
    {hashes : RedisClients.ClientHashes}
    (h : RedisClients.getClient text conversion uninitialised {} clientId hashes = some client) :
    ∃ key, formatCommand conversion (RedisClientRepository.getClient (bytes clientId)) [] =
        some [bytes "HGETALL", key] ∧ RedisClients.fieldsAt hashes key ≠ [] := by
  unfold RedisClients.getClient RedisClients.execCommandAsync at h
  rw [if_neg (by decide)] at h
  cases hformat : formatCommand conversion (RedisClientRepository.getClient (bytes clientId)) [] with
  | none =>
    rw [hformat] at h
    cases h
  | some argv =>
  have hcommand : RedisClientRepository.getClient (bytes clientId) =
      bytes "HGETALL" ++ blank :: (hashPrefix ++ bytes clientId) := by
    rw [RedisClientRepository.getClient,
      (by decide : bytes "HGETALL oauth2:client:" = bytes "HGETALL" ++ blank :: hashPrefix)]
    simp
  obtain ⟨args, rfl⟩ := formatCommand_name (by decide) (by decide) (hcommand ▸ hformat)
  simp only [hformat, RedisClients.answer, if_true] at h
  cases args with
  | nil => cases h
  | cons key others =>
  cases others with
  | cons _ _ => cases h
  | nil =>
    refine ⟨key, rfl, ?_⟩
    intro hnil
    simp [RedisClients.hgetall, hnil] at h

/-! ### When they agree -/

/-- The presented secret is one that the type-blind check decides as the type demands. -/
def TypeBlind (c : Registered) (presented : String) : Prop :=
  match c.clientType with
  | .PUBLIC => presented = "" ∨ presented = c.secret
  | .CONFIDENTIAL => presented ≠ ""

/-- A client without scopes whose type is left in place by chance and whose secret is presented as
its type demands; the secret is not to be read where a percent sign ends the id. -/
def Fits (uninitialised : ClientType) (c : Registered) (presented : String) : Prop :=
  TypeBlind c presented ∧ c.allowedScopes = [] ∧ uninitialised = c.clientType ∧
    (percent ∈ bytes c.clientId →
      presented = "" ∨ c.clientType = .CONFIDENTIAL ∧ presented ≠ c.secret)

/-- The command for the client gets the key of its own hash. -/
theorem alike_iff_fits (h : StoredAlike text sha256Hex c s)
    (hcollision : DigestMatches sha256Hex c presented → presented = c.secret)
    (hid : CopiedLast (bytes c.clientId)) :
    Alike text conversion uninitialised sha256Hex c s presented ↔ Fits uninitialised c presented := by
  have hdigest : DigestMatches sha256Hex c presented ↔ presented = c.secret := by
    refine ⟨hcollision, ?_⟩
    intro heq
    rw [DigestMatches, heq]
  have hmemory := memory_validates presented h
  have htables := tables_validate presented h
  have hredis := redis_validates conversion presented h hid
  rw [hdigest] at htables hredis
  have hreports := redis_reports conversion uninitialised h hid
  have hagrees : RedisClients.validateClient conversion sha256Hex {} c.clientId presented s.hashes =
        s.tables.validateClient sha256Hex {} c.clientId presented ↔
      TypeBlind c presented ∧ (percent ∈ bytes c.clientId →
        presented = "" ∨ c.clientType = .CONFIDENTIAL ∧ presented ≠ c.secret) := by
    rw [Bool.eq_iff_iff, hredis, htables, TypeBlind]
    cases c.clientType <;> by_cases hpercent : percent ∈ bytes c.clientId <;>
      by_cases hpresented : presented = "" <;> simp [hpercent, hpresented]
  constructor
  · intro halike
    obtain ⟨hblind, hpercent⟩ := hagrees.mp halike.redis
    have hclient := halike.redisClient
    rw [hreports, tables_report h] at hclient
    simp only [Option.some.injEq, Prod.mk.injEq, true_and] at hclient
    exact ⟨hblind, hclient.2.symm, hclient.1, hpercent⟩
  · intro hfits
    obtain ⟨hblind, hscopes, htype, hpercent⟩ := hfits
    refine ⟨?_, hagrees.mpr ⟨hblind, hpercent⟩, ?_, ?_⟩
    · rw [Bool.eq_iff_iff, hmemory, htables]
    · rw [memory_reports h, tables_report h]
    · rw [hreports, tables_report h, hscopes, htype]

/-- Where Redis has the hash of this client and no other, the client is found only under its own
key. -/
theorem copiedLast_of_alone (h : StoredAlike text sha256Hex c s)
    (halike : AlikeAmongAny text conversion uninitialised sha256Hex c s presented) :
    CopiedLast (bytes c.clientId) := by
  let alone : RedisClients.ClientHashes := AList.insert (RedisClients.hashKey c.clientId)
    (RedisClients.fields c.clientId s.hashes) ∅
  have hsame : RedisClients.fields c.clientId alone = RedisClients.fields c.clientId s.hashes := by
    rw [RedisClients.fields, RedisClients.fieldsAt, AList.lookup_insert]
    rfl
  have hclient := (halike alone hsame).redisClient
  rw [tables_report h] at hclient
  obtain ⟨client, hfound, -⟩ := Option.map_eq_some_iff.mp hclient
  obtain ⟨key, hformat, hfields⟩ := hgetall_of_getClient hfound
  have hkey : key = RedisClients.hashKey c.clientId := by
    by_contra hne
    refine hfields ?_
    rw [RedisClients.fieldsAt, AList.lookup_insert_ne hne]
    rfl
  exact copiedLast_of_hgetall (hkey ▸ hformat)

theorem StoredAlike.among (h : StoredAlike text sha256Hex c s) {hashes : RedisClients.ClientHashes}
    (hfields : RedisClients.fields c.clientId hashes = RedisClients.fields c.clientId s.hashes) :
    StoredAlike text sha256Hex c { s with hashes } where
  memory := h.memory
  tables := h.tables
  hashes := by
    rw [hfields]
    exact h.hashes

/-- The repositories agree on the client whatever other hashes Redis has exactly when its commands
copy the client id and type, scopes and secret fit; and where the commands copy the id, other hashes
make no difference. The digests of the two secrets are taken not to collide. -/
theorem backends_alike_iff (h : StoredAlike text sha256Hex c s)
    (hcollision : DigestMatches sha256Hex c presented → presented = c.secret) :
    (AlikeAmongAny text conversion uninitialised sha256Hex c s presented ↔
        CopiedLast (bytes c.clientId) ∧ Fits uninitialised c presented) ∧
      (CopiedLast (bytes c.clientId) →
        (Alike text conversion uninitialised sha256Hex c s presented ↔
          Fits uninitialised c presented)) := by
  refine ⟨⟨?_, ?_⟩, alike_iff_fits h hcollision⟩
  · intro halike
    have hid := copiedLast_of_alone h halike
    exact ⟨hid, (alike_iff_fits h hcollision hid).mp (halike s.hashes rfl)⟩
  · intro hcond hashes hfields
    exact (alike_iff_fits (h.among hfields) hcollision hcond.1).mpr hcond.2

/-! ### A confidential client in Redis -/

def service : Registered where
  clientId := "backend-svc"
  clientType := .CONFIDENTIAL
  secret := "test-secret"
  salt := "random_salt"
  redirectUris := ["https://svc.example/cb"]
  allowedScopes := []

def serviceDigest : String := "37abd901bd2da48401b87c78d90ca62b5c3215f1b69af2ede2f09d0e1d28fca0"

def serviceHash (s : String) : String := if s = "test-secretrandom_salt" then serviceDigest else ""

def serviceUris : String := "[\"https://svc.example/cb\"]"

/-- The JSON of the redirect URIs. -/
def serviceText : JsonText where
  writeString _ := serviceUris
  parseFromStream s := if s = serviceUris then some (.array [.str "https://svc.example/cb"]) else none

def serviceRow : Oauth2Clients where
  clientId := "backend-svc"
  clientType := "CONFIDENTIAL"
  clientSecret := serviceDigest
  salt := "random_salt"
  name := "Backend"
  redirectUris := "https://svc.example/cb"
  allowedGrantTypes := "client_credentials"
  tokenEndpointAuthMethod := "client_secret_basic"

def serviceStores : Stores where
  memory := AList.singleton "backend-svc"
    { clientId := "backend-svc", clientType := .CONFIDENTIAL, clientSecretHash := "test-secret"
      salt := "", redirectUris := ["https://svc.example/cb"], allowedScopes := [] }
  tables := ⟨AList.singleton "backend-svc" serviceRow, []⟩
  hashes := AList.singleton (bytes "oauth2:client:backend-svc")
    [("secret", serviceDigest), ("salt", "random_salt"), ("redirect_uris", serviceUris)]

theorem service_storedAlike : StoredAlike serviceText serviceHash service serviceStores where
  memory := ⟨_, rfl, rfl, rfl, rfl, rfl⟩
  tables := ⟨serviceRow, rfl, rfl, by decide +kernel, rfl, by decide +kernel, by decide +kernel⟩
  hashes := ⟨serviceDigest, rfl, by decide +kernel, rfl, by decide +kernel⟩

/-- Without any secret Redis accepts the confidential client, whatever type it reports. -/
theorem empty_secret_not_alike :
    StoredAlike serviceText serviceHash service serviceStores ∧
      ∀ uninitialised,
        ¬Alike serviceText noParameters uninitialised serviceHash service serviceStores "" := by
  refine ⟨service_storedAlike, ?_⟩
  intro uninitialised h
  have hredis := h.redis
  obtain ⟨haccepts, hrejects⟩ :
      RedisClients.validateClient noParameters serviceHash {} "backend-svc" ""
          serviceStores.hashes = true ∧
        serviceStores.tables.validateClient serviceHash {} "backend-svc" "" = false := by
    decide +kernel
  exact Bool.noConfusion (haccepts.symm.trans (hredis.trans hrejects))

theorem backends_alike_ownSecret :
    Alike serviceText noParameters .CONFIDENTIAL serviceHash service serviceStores
      "test-secret" := by
  have hid : CopiedLast (bytes service.clientId) := ⟨by decide, by decide, by decide⟩
  have hfits : Fits .CONFIDENTIAL service "test-secret" := by
    refine ⟨?_, rfl, rfl, fun h => absurd h (by decide)⟩
    change "test-secret" ≠ ""
    decide
  exact ((backends_alike_iff service_storedAlike fun _ => rfl).2 hid).mpr hfits

end AuthForge.ClientBackends
