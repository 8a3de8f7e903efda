import AuthForge.Base.CommandFormat
import AuthForge.Base.Text
import AuthForge.Storage.ClientJson

/-!
# The Redis client repositories

Both repositories paste the client id into the text of a command and hand that text to
`execCommandAsync`, which takes it for a format. First the commands and the keys they read, then
`RedisClientRepository` over them.
-/

namespace AuthForge.Storage.RedisCommands

open CommandFormat

/-- The prefix of a client's hash. -/
def hashPrefix : Bytes := bytes "oauth2:client:"

/-- The prefix of a cached client. -/
def cachePrefix : Bytes := bytes "authforge:cache:client:"

def RedisClientRepository.getClient (clientId : Bytes) : Bytes :=
  bytes "HGETALL oauth2:client:" ++ clientId

def RedisClientRepository.validateClient (clientId clientSecret : Bytes) : Bytes :=
  if clientSecret = [] then bytes "EXISTS oauth2:client:" ++ clientId
  else bytes "HMGET oauth2:client:" ++ clientId ++ bytes " secret salt"

def RedisCachedClientRepository.getClient (clientId : Bytes) : Bytes :=
  bytes "GET authforge:cache:client:" ++ clientId

def RedisCachedClientRepository.validateClient (clientId : Bytes) : Bytes :=
  bytes "GET authforge:cache:client:" ++ clientId

/-- The keys that the server reads for a command; a wrong number of arguments is refused. -/
def keysRead : List Bytes → List Bytes
  | [] => []
  | name :: args =>
    if name = bytes "HGETALL" ∨ name = bytes "GET" then
      match args with
      | [key] => [key]
      | _ => []
    else if name = bytes "EXISTS" then args
    else if name = bytes "HMGET" then
      match args with
      | key :: _ :: _ => [key]
      | _ => []
    else []

/-- The command of a format without further parameters reads this key and no other. -/
def ReadsOnly {A : Type} (conversion : Conversion A) (format key : Bytes) : Prop :=
  ∃ argv, formatCommand conversion format [] = some argv ∧ keysRead argv = [key]

variable {A : Type} {conversion : Conversion A} {format key clientId : Bytes} {argv : List Bytes}

/-- The key of the module on the cache. -/
theorem bytes_clientKey (clientId : String) :
    bytes (ClientCache.clientKey clientId) = cachePrefix ++ bytes clientId :=
  bytes_append _ _

theorem keysRead_single {name : Bytes} (h : name = bytes "HGETALL" ∨ name = bytes "GET") :
    keysRead [name, key] = [key] := by
  rw [keysRead, if_pos h]

theorem keysRead_exists : keysRead (bytes "EXISTS" :: argv) = argv := by
  unfold keysRead
  dsimp only
  rw [if_neg (by decide), if_pos rfl]

theorem keysRead_hmget {field : Bytes} {fields : List Bytes} :
    keysRead (bytes "HMGET" :: key :: field :: fields) = [key] := by
  rw [keysRead, if_neg (by decide), if_neg (by decide), if_pos rfl]

theorem mem_of_mem_keysRead (h : key ∈ keysRead argv) : key ∈ argv := by
  unfold keysRead at h
  split at h
  · exact h
  split at h
  · split at h
    · exact List.mem_cons_of_mem _ h
    · cases h
  split at h
  · exact List.mem_cons_of_mem _ h
  split at h
  · split at h
    · obtain rfl := List.mem_singleton.mp h
      exact List.mem_cons_of_mem _ (List.mem_cons_self ..)
    · cases h
  · cases h

end AuthForge.Storage.RedisCommands

/-! ## Clients in hashes

A client is a hash under `oauth2:client:<id>` with the fields `secret`, `salt` and `redirect_uris`;
the repository knows no others, and nothing writes them but the tools around the server. -/

namespace AuthForge.Storage.RedisClients

open OAuth2 CommandFormat RedisCommands

/-- The hashes of the server, each with its fields in the order in which they are listed. A hash
without fields does not exist. -/
abbrev ClientHashes := Dict Bytes (List (String × String))

def hashKey (clientId : String) : Bytes := hashPrefix ++ bytes clientId

def fieldsAt (s : ClientHashes) (key : Bytes) : List (String × String) := (s.lookup key).getD []

def fields (clientId : String) (s : ClientHashes) : List (String × String) :=
  fieldsAt s (hashKey clientId)

/-! ### What the server answers -/

/-- The results that the repository asks for; an item of an array can be nil. -/
inductive RedisResult
  | integer (n : Nat)
  | array (items : List (Option String))
  deriving DecidableEq, Repr

def fieldValue (read : List (String × String)) (field : Bytes) : Option String :=
  (read.find? fun f => bytes f.1 = field).map (·.2)

def hgetall (s : ClientHashes) : List Bytes → Option RedisResult
  | [key] => some (.array ((fieldsAt s key).flatMap fun f => [some f.1, some f.2]))
  | _ => none

/-- A key that is given twice counts twice. -/
def countExisting (s : ClientHashes) (keys : List Bytes) : Option RedisResult :=
  if keys = [] then none else some (.integer (keys.countP fun key => fieldsAt s key ≠ []))

def hmget (s : ClientHashes) : List Bytes → Option RedisResult
  | key :: field :: others =>
    some (.array ((field :: others).map (fieldValue (fieldsAt s key))))
  | _ => none

/-- The answer to a command on hashes; one that is refused has none. -/
def answer (s : ClientHashes) : List Bytes → Option RedisResult
  | [] => none
  | name :: args =>
    if name = bytes "HGETALL" then hgetall s args
    else if name = bytes "EXISTS" then countExisting s args
    else if name = bytes "HMGET" then hmget s args
    else none

variable {A : Type} (text : JsonText) (conversion : Conversion A) (uninitialised : ClientType)
  (sha256Hex : String → String) (env : Env)

/-- The result that the callback is given; `none` is the callback for exceptions. -/
def execCommandAsync (s : ClientHashes) (command : Bytes) : Option RedisResult :=
  if env.fails then none
  else
    match formatCommand conversion command [] with
    | none => none
    | some argv => answer s argv

/-! ### The repository -/

/-- `parseJson`: `null` where the text does not parse. -/
def parseJson (jsonStr : String) : Json :=
  (text.parseFromStream jsonStr).getD .null

/-- The items of a JSON array; no other value has items. -/
def arrayItems : Json → List String
  | .array items => items.map Json.asString
  | _ => []

def readField (client : OAuth2Client) (field : String × String) : OAuth2Client :=
  if field.1 = "secret" then { client with clientSecretHash := field.2 }
  else if field.1 = "salt" then { client with salt := field.2 }
  else if field.1 = "redirect_uris" then
    { client with redirectUris := client.redirectUris ++ arrayItems (parseJson text field.2) }
  else client

/-- The loop over the answer to `HGETALL`, two items at a time. -/
def readItems (client : OAuth2Client) : List (Option String) → OAuth2Client
  | some key :: some val :: arr => readItems (readField text client (key, val)) arr
  | _ => client

/-- Nothing sets the type of the client that is handed out: it is whatever was in its memory. -/
def getClient (clientId : String) (s : ClientHashes) : Option OAuth2Client :=
  match execCommandAsync conversion env s (RedisClientRepository.getClient (bytes clientId)) with
  | some (.array arr) =>
    if arr = [] then none
    else
      some (readItems text { clientId, clientType := uninitialised, clientSecretHash := "", salt := ""
                             redirectUris := [], allowedScopes := [] } arr)
  | _ => none

/-- Without a secret, `EXISTS` decides. -/
def validateClient (clientId clientSecret : String) (s : ClientHashes) : Bool :=
  let result := execCommandAsync conversion env s
    (RedisClientRepository.validateClient (bytes clientId) (bytes clientSecret))
  if clientSecret = "" then
    match result with
    | some (.integer n) => n = 1
    | _ => false
  else
    match result with
    | some (.array (some storedHash :: some salt :: _)) =>
      ClientTables.secretMatches sha256Hex clientSecret salt storedHash
    | _ => false

def clientRepository : ClientRepository where
  State := ClientHashes
  getClient := getClient text conversion uninitialised
  validateClient := validateClient conversion sha256Hex

/-! ### What is read back -/

variable {text conversion uninitialised sha256Hex env} {clientId clientSecret : String}
  {s t : ClientHashes}

/-- The server looks at the keys of a command and at no others. -/
theorem answer_congr {argv : List Bytes}
    (h : ∀ key ∈ keysRead argv, fieldsAt s key = fieldsAt t key) : answer s argv = answer t argv := by
  cases argv with
  | nil => rfl
  | cons name args =>
  rw [answer, answer]
  by_cases hgetall : name = bytes "HGETALL"
  · rw [if_pos hgetall, if_pos hgetall]
    cases args with
    | nil => rfl
    | cons key others =>
      cases others with
      | cons _ _ => rfl
      | nil =>
        rw [keysRead_single (.inl hgetall)] at h
        rw [RedisClients.hgetall, RedisClients.hgetall, h key (List.mem_singleton_self key)]
  rw [if_neg hgetall, if_neg hgetall]
  by_cases hexists : name = bytes "EXISTS"
  · subst hexists
    rw [keysRead_exists] at h
    have hcount : args.countP (fun key => fieldsAt s key ≠ []) =
        args.countP fun key => fieldsAt t key ≠ [] := by
      refine List.countP_congr ?_
      intro key hkey
      rw [h key hkey]
    rw [if_pos rfl, if_pos rfl, countExisting, countExisting, hcount]
  rw [if_neg hexists, if_neg hexists]
  by_cases hhmget : name = bytes "HMGET"
  · subst hhmget
    rw [if_pos rfl, if_pos rfl]
    cases args with
    | nil => rfl
    | cons key others =>
      cases others with
      | nil => rfl
      | cons field others =>
        rw [keysRead_hmget] at h
        rw [hmget, hmget, h key (List.mem_singleton_self key)]
  rw [if_neg hhmget, if_neg hhmget]

theorem fieldValue_bytes (read : List (String × String)) (name : String) :
    fieldValue read (bytes name) = read.lookup name := by
  unfold fieldValue
  induction read with
  | nil => rfl
  | cons field read ih =>
    obtain ⟨key, val⟩ := field
    by_cases hkey : key = name
    · simp [hkey]
    · have hbytes : bytes key ≠ bytes name := fun h => hkey (bytes_injective h)
      rw [List.find?_cons_of_neg (by simpa using hbytes), ih, List.lookup_cons]
      simp [beq_false_of_ne (Ne.symm hkey)]

theorem readItems_flatMap (read : List (String × String)) (client : OAuth2Client) :
    readItems text client (read.flatMap fun f => [some f.1, some f.2]) =
      read.foldl (readField text) client := by
  induction read generalizing client with
  | nil => rfl
  | cons field read ih => exact ih (readField text client field)

theorem readField_clientType (client : OAuth2Client) (field : String × String) :
    (readField text client field).clientType = client.clientType := by
  unfold readField
  split
  · rfl
  split
  · rfl
  split <;> rfl

theorem readField_allowedScopes (client : OAuth2Client) (field : String × String) :
    (readField text client field).allowedScopes = client.allowedScopes := by
  unfold readField
  split
  · rfl
  split
  · rfl
  split <;> rfl

/-- The URIs of a field, if it is the field that has them. -/
def urisOf (text : JsonText) (field : String × String) : List String :=
  if field.1 = "redirect_uris" then arrayItems (parseJson text field.2) else []

theorem readField_redirectUris (client : OAuth2Client) (field : String × String) :
    (readField text client field).redirectUris = client.redirectUris ++ urisOf text field := by
  unfold readField urisOf
  by_cases hsecret : field.1 = "secret"
  · simp [hsecret]
  by_cases hsalt : field.1 = "salt"
  · simp [hsalt]
  by_cases huris : field.1 = "redirect_uris" <;> simp [hsecret, hsalt, huris]

theorem foldl_readField (text : JsonText) (read : List (String × String)) (client : OAuth2Client) :
    (read.foldl (readField text) client).clientType = client.clientType ∧
      (read.foldl (readField text) client).allowedScopes = client.allowedScopes ∧
      (read.foldl (readField text) client).redirectUris =
        client.redirectUris ++ read.flatMap (urisOf text) := by
  induction read generalizing client with
  | nil => simp
  | cons field read ih =>
    obtain ⟨htype, hscopes, huris⟩ := ih (readField text client field)
    refine ⟨htype.trans (readField_clientType client field),
      hscopes.trans (readField_allowedScopes client field), ?_⟩
    rw [List.foldl_cons, huris, readField_redirectUris, List.flatMap_cons, List.append_assoc]

variable (text) in
/-- Where the fields of the client are read, its type is left to chance and the scopes are lost. -/
theorem getClient_eq_some (uninitialised : ClientType) (hfields : fields clientId s ≠ [])
    (hexec : execCommandAsync conversion env s
        (RedisClientRepository.getClient (bytes clientId)) =
      some (.array ((fields clientId s).flatMap fun f => [some f.1, some f.2]))) :
    ∃ client, getClient text conversion uninitialised env clientId s = some client ∧
      client.clientType = uninitialised ∧ client.allowedScopes = [] ∧
      client.redirectUris = (fields clientId s).flatMap (urisOf text) := by
  obtain ⟨htype, hscopes, huris⟩ := foldl_readField text (fields clientId s)
    { clientId, clientType := uninitialised, clientSecretHash := "", salt := "", redirectUris := []
      allowedScopes := [] }
  refine ⟨_, ?_, htype, hscopes, huris.trans (List.nil_append _)⟩
  rw [getClient, hexec, ← readItems_flatMap]
  refine if_neg ?_
  intro hnil
  obtain ⟨field, read, hread⟩ := List.exists_cons_of_ne_nil hfields
  rw [hread, List.flatMap_cons] at hnil
  cases hnil

end AuthForge.Storage.RedisClients
