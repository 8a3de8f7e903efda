import AuthForge.Storage.Postgres

/-!
# The tables behind the client repository

`oauth2_clients` with its columns as they are stored, `oauth2_client_scopes`, and what
`PostgresClientRepository` makes of them. The allowed grant types are a column that it does not read.
-/

namespace AuthForge.Storage

open OAuth2

structure Oauth2Clients where
  clientId : String
  clientType : String
  clientSecret : String
  salt : String
  name : String
  redirectUris : String
  allowedGrantTypes : String
  tokenEndpointAuthMethod : String
  backchannelLogoutUri : Option String := none
  deriving DecidableEq

structure ClientTables where
  clients : Dict String Oauth2Clients
  /-- Client id and scope name. -/
  clientScopes : List (String × String)

namespace ClientTables

def empty : ClientTables := ⟨∅, []⟩

def stringToClientType (str : String) : Except String ClientType :=
  if str = "PUBLIC" then .ok .PUBLIC
  else if str = "CONFIDENTIAL" then .ok .CONFIDENTIAL
  else .error ("Invalid ClientType string: " ++ str)

/-- Both readers fall back to `CONFIDENTIAL`. -/
def clientTypeOf (row : Oauth2Clients) : ClientType :=
  match stringToClientType row.clientType with
  | .ok clientType => clientType
  | .error _ => .CONFIDENTIAL

/-- The items of a `getline` loop: an empty one is dropped at the end only. -/
def lineItems (sep : Char) (s : String) : List String :=
  let parts := s.toList.splitOn sep
  (if parts.getLast? = some [] then parts.dropLast else parts).map String.ofList

def scopesOf (T : ClientTables) (clientId : String) : List String :=
  T.clientScopes.filterMap fun e => if e.1 = clientId then some e.2 else none

def toClient (row : Oauth2Clients) (scopes : List String) : OAuth2Client where
  clientId := row.clientId
  clientType := clientTypeOf row
  clientSecretHash := row.clientSecret
  salt := row.salt
  redirectUris := lineItems ',' row.redirectUris
  allowedScopes := scopes
  tokenEndpointAuthMethod := row.tokenEndpointAuthMethod

/-- The row, then the scopes; a failure of either statement is an unknown client. -/
def getClient (env : Env) (clientId : String) (T : ClientTables) : Option OAuth2Client :=
  match if env.fails then none else T.clients.lookup clientId with
  | none => none
  | some row => if env.cascadeFails then none else some (toClient row (T.scopesOf row.clientId))

/-- The two digests are compared in lower case. -/
def secretMatches (sha256Hex : String → String) (clientSecret salt storedHash : String) : Bool :=
  (sha256Hex (clientSecret ++ salt)).toList.map Char.toLower = storedHash.toList.map Char.toLower

def validateRow (sha256Hex : String → String) (clientSecret : String) (row : Oauth2Clients) :
    Bool :=
  match clientTypeOf row with
  | .PUBLIC => true
  | .CONFIDENTIAL =>
    clientSecret ≠ "" && secretMatches sha256Hex clientSecret row.salt row.clientSecret

def validateClient (sha256Hex : String → String) (env : Env) (clientId clientSecret : String)
    (T : ClientTables) : Bool :=
  match if env.fails then none else T.clients.lookup clientId with
  | none => false
  | some row => validateRow sha256Hex clientSecret row

def clientRepository (sha256Hex : String → String) : ClientRepository where
  State := ClientTables
  getClient := getClient
  validateClient := validateClient sha256Hex

/-! ### Writes -/

/-- `INSERT INTO oauth2_clients`; the client id is the primary key. -/
def insertClient (env : Env) (row : Oauth2Clients) (T : ClientTables) : Bool × ClientTables :=
  if env.fails = true ∨ row.clientId ∈ T.clients then (false, T)
  else (true, { T with clients := T.clients.insert row.clientId row })

inductive ScopesUpdate
  | replaced
  | notCleared
  | notAssigned
  deriving DecidableEq

/-- The transaction that replaces the scopes of a client: a delete and one insert for each scope. It
is rolled back when a statement fails, as an insert does for a repeated scope and for a client that
does not exist. -/
def replaceScopes (env : Env) (clientId : String) (scopes : List String) (T : ClientTables) :
    ScopesUpdate × ClientTables :=
  if env.fails then (.notCleared, T)
  else if scopes ≠ [] ∧ (env.cascadeFails = true ∨ ¬scopes.Nodup ∨ clientId ∉ T.clients) then
    (.notAssigned, T)
  else
    (.replaced,
      { T with
        clientScopes :=
          (T.clientScopes.filter fun e => e.1 ≠ clientId) ++ scopes.map fun s => (clientId, s) })

/-! ### The clients with their scopes -/

/-- What the repository offers of the tables. -/
def view (T : ClientTables) : Postgres.Clients :=
  T.clients.mapValues fun clientId row => toClient row (T.scopesOf clientId)

/-- Every row is stored under its client id. -/
def Keyed (T : ClientTables) : Prop :=
  ∀ clientId row, T.clients.lookup clientId = some row → row.clientId = clientId

theorem getClient_eq_view {T : ClientTables} (h : T.Keyed) (env : Env) (clientId : String) :
    T.getClient env clientId =
      Postgres.getClient { env with fails := env.fails || env.cascadeFails } clientId T.view := by
  unfold getClient Postgres.getClient
  cases hfirst : env.fails with
  | true => simp
  | false =>
    cases hsecond : env.cascadeFails with
    | true => cases T.clients.lookup clientId <;> simp
    | false =>
      cases hrow : T.clients.lookup clientId with
      | none => simp [view, hrow]
      | some row => simp [view, hrow, h clientId row hrow]

theorem validateClient_eq_view {T : ClientTables} (sha256Hex : String → String) (env : Env)
    (clientId clientSecret : String) :
    T.validateClient sha256Hex env clientId clientSecret =
      Postgres.validateClient sha256Hex env clientId clientSecret T.view := by
  unfold validateClient Postgres.validateClient
  cases env.fails with
  | true => rfl
  | false =>
    cases hrow : T.clients.lookup clientId with
    | none => simp [view, hrow]
    | some row =>
      simp only [view, Dict.lookup_mapValues, hrow, Option.map_some, Bool.false_eq_true, if_false]
      rfl

theorem Keyed.insertClient {T : ClientTables} (h : T.Keyed) (env : Env) (row : Oauth2Clients) :
    (insertClient env row T).2.Keyed := by
  unfold ClientTables.insertClient
  split
  · exact h
  · intro clientId row' hrow
    change (T.clients.insert row.clientId row).lookup clientId = some row' at hrow
    by_cases hid : clientId = row.clientId
    · subst hid
      rw [AList.lookup_insert] at hrow
      rw [Option.some.inj hrow]
    · rw [AList.lookup_insert_ne hid] at hrow
      exact h clientId row' hrow

theorem lookup_insertClient {env : Env} {row : Oauth2Clients} {T : ClientTables}
    (h : (T.insertClient env row).1 = true) :
    (T.insertClient env row).2.clients.lookup row.clientId = some row := by
  unfold insertClient at h ⊢
  split at h
  · cases h
  · rename_i hfree
    rw [if_neg hfree]
    exact AList.lookup_insert _

theorem clients_replaceScopes (env : Env) (clientId : String) (scopes : List String)
    (T : ClientTables) : (replaceScopes env clientId scopes T).2.clients = T.clients := by
  unfold replaceScopes
  split
  · rfl
  · split <;> rfl

theorem Keyed.replaceScopes {T : ClientTables} (h : T.Keyed) (env : Env) (clientId : String)
    (scopes : List String) : (replaceScopes env clientId scopes T).2.Keyed := by
  intro key row hrow
  rw [clients_replaceScopes] at hrow
  exact h key row hrow

end ClientTables

end AuthForge.Storage
