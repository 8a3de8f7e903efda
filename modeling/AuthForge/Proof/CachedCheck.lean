import AuthForge.Storage.ClientJson

/-!
# The secret check on a cached client

A client goes into the cache as text and comes back out of it; the secret is then checked on what came
back. Nothing the check looks at is lost on the way, and a text that does not read back, as that of a
row without a client id, is no hit: the row itself is checked then.
-/

namespace AuthForge.CachedCheck

open OAuth2 Storage ClientCache ClientJson

variable {sha256Hex : String → String} {text : JsonText} {T : ClientTables} {s : ClientStore}
  {clientId clientSecret : String} {dto cached : OAuth2Client}

/-- What `getClient` builds from a row is checked as the row. -/
theorem check_of_getClient (hdto : T.getClient {} clientId = some dto) :
    validateCachedClientSecret sha256Hex dto clientSecret =
      T.validateClient sha256Hex {} clientId clientSecret := by
  cases hrow : T.clients.lookup clientId with
  | none => simp [ClientTables.getClient, hrow] at hdto
  | some row =>
    have hclient : ClientTables.toClient row (T.scopesOf row.clientId) = dto := by
      simpa [ClientTables.getClient, hrow] using hdto
    rw [← hclient, validateCachedClientSecret_toClient]
    simp [ClientTables.validateClient, hrow]

theorem eq_of_deserializeClient (h : ClientCache.deserializeClient dto = some cached) :
    cached = dto := by
  unfold ClientCache.deserializeClient at h
  split at h
  · cases h
  · exact (Option.some.inj h).symm

/-- The fallback. -/
theorem validateStored_eval {env : Nat → ClientEnv} (hup : ∀ n, (env n).fails = false) (n : Nat) :
    (Prog.eval ClientStore.exec env n (validateStored sha256Hex clientId clientSecret) s).1 =
      .valid (s.tables.validateClient sha256Hex {} clientId clientSecret) := by
  simp only [validateStored, Prog.eval, ClientStore.exec, ClientStore.execAt, hup,
    ClientTables.validateClient, Bool.false_eq_true, if_false, answer]
  cases s.tables.clients.lookup clientId <;> rfl

/-- The caching repository, whatever became of the entry of this client. -/
theorem validateClient_eval {env : Nat → ClientEnv} (hup : ∀ n, (env n).fails = false)
    (hdto : s.tables.getClient {} clientId = some dto)
    (hentry : s.redis.Holds (· = dto) (clientKey clientId)) :
    (Prog.eval ClientStore.exec env 0 (validateClient sha256Hex clientId clientSecret) s).1 =
      .valid (s.tables.validateClient sha256Hex {} clientId clientSecret) := by
  simp only [validateClient, lookupCached, Prog.eval, ClientStore.exec, ClientStore.execAt]
  cases hget : (s.redis.tick (env 0).toCommandEnv).get (env 0).toCommandEnv (clientKey clientId) with
  | none => exact validateStored_eval hup 1
  | some payload =>
    cases payload with
    | none => exact validateStored_eval hup 1
    | some payload =>
      obtain rfl := hentry.tick.get hget
      simp only [Option.map_some, Option.bind_some]
      cases hread : ClientCache.deserializeClient payload with
      | none => exact validateStored_eval hup 1
      | some cached =>
        obtain rfl := eq_of_deserializeClient hread
        exact congrArg ClientReply.valid (check_of_getClient hdto)

/-- The check on what is read back from the cache is the check on the row, and so is the fallback. -/
theorem cached_check_agrees
    (hdto : s.tables.getClient {} clientId = some dto)
    (hroundTrip : text.parseFromStream (text.writeString (clientJson dto)) = some (clientJson dto)) :
    ClientJson.deserializeClient text (serializeClient text dto) =
        ClientCache.deserializeClient dto ∧
      (∀ cached, ClientJson.deserializeClient text (serializeClient text dto) = some cached →
        validateCachedClientSecret sha256Hex cached clientSecret =
          s.tables.validateClient sha256Hex {} clientId clientSecret) ∧
      ∀ env : Nat → ClientEnv, (∀ n, (env n).fails = false) →
        s.redis.Holds (· = dto) (clientKey clientId) →
        (Prog.eval ClientStore.exec env 0 (validateClient sha256Hex clientId clientSecret) s).1 =
          .valid (s.tables.validateClient sha256Hex {} clientId clientSecret) := by
  have hread := deserializeClient_serializeClient hroundTrip
  refine ⟨hread, ?_, ?_⟩
  · intro cached hcached
    rw [hread] at hcached
    obtain rfl := eq_of_deserializeClient hcached
    exact check_of_getClient hdto
  · intro env hup hentry
    exact validateClient_eval hup hdto hentry

/-! ### A row with an unknown type -/

def oddDigest : String := "48A53F0774C8CEFF574A1FDCB0D470DBD382B3DB273CFF4344B6D39D5379C923"

def oddHash (s : String) : String := if s = "keys" then oddDigest else ""

def oddRow : Oauth2Clients where
  clientId := "legacy"
  clientType := "Web"
  clientSecret := oddDigest
  salt := "s"
  name := "Legacy"
  redirectUris := "https://legacy.example/cb,,"
  allowedGrantTypes := ""
  tokenEndpointAuthMethod := ""

def oddStore : ClientStore := ⟨⟨0, ∅⟩, ⟨AList.singleton "legacy" oddRow, [("legacy", "openid")]⟩⟩

def oddClient : OAuth2Client := ClientTables.toClient oddRow ["openid"]

def oddJson : String :=
  "\x7b\"allowedScopes\":[\"openid\"],\"clientId\":\"legacy\",\"clientSecretHash\":\"" ++ oddDigest ++
    "\",\"clientType\":\"CONFIDENTIAL\",\"redirectUris\":[\"https://legacy.example/cb\",\"\"]," ++
    "\"salt\":\"s\",\"tokenEndpointAuthMethod\":\"\"\x7d"

/-- The writer and the parser on this one text. -/
def oddText : JsonText where
  writeString _ := oddJson
  parseFromStream s := if s = oddJson then some (clientJson oddClient) else none

theorem oddText_roundTrip :
    oddText.parseFromStream (oddText.writeString (clientJson oddClient)) =
      some (clientJson oddClient) := by
  simp [oddText]

theorem cached_check_agrees_unknownType :
    ClientJson.deserializeClient oddText (serializeClient oddText oddClient) =
        ClientCache.deserializeClient oddClient ∧
      ∀ cached, ClientJson.deserializeClient oddText (serializeClient oddText oddClient) =
          some cached →
        validateCachedClientSecret oddHash cached "key" =
          oddStore.tables.validateClient oddHash {} "legacy" "key" :=
  (cached_check_agrees (s := oddStore) rfl oddText_roundTrip).imp_right And.left

end AuthForge.CachedCheck
