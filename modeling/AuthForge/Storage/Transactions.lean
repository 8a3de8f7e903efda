import AuthForge.Base.Run
import AuthForge.Base.Text
import AuthForge.Base.TimedStore

/-!
# Authorization transactions in memory and in Redis

The four transaction operations of `MemoryGrantRepository` and of `RedisGrantRepository`, called
side by side. Redis keeps a transaction as a JSON object with a time to live; the script of
`markTransactionConsumed` decodes it and encodes it anew. Commands and scripts succeed, unless the
server itself refuses an argument. Times are whole seconds.
-/

namespace AuthForge.Storage

structure AuthorizationTransaction where
  transactionId : String
  clientId : String
  subject : String
  redirectUri : String
  state : String
  codeChallenge : String
  codeChallengeMethod : String
  requestedScopes : List String
  validScopes : List String
  consentRequiredScopes : List String
  consumed : Bool := false
  expiresAt : Int
  deriving DecidableEq, Repr

/-! ### In memory -/

namespace MemoryTransactions

abbrev Transactions := Dict String AuthorizationTransaction

def saveAuthorizationTransaction (transaction : AuthorizationTransaction) (s : Transactions) :
    Bool × Transactions :=
  (true, s.insert transaction.transactionId transaction)

def getAuthorizationTransaction (now : Int) (transactionId : String) (s : Transactions) :
    Option AuthorizationTransaction × Transactions :=
  match s.lookup transactionId with
  | none => (none, s)
  | some transaction =>
    if transaction.expiresAt < now then (none, s.erase transactionId) else (some transaction, s)

def deleteAuthorizationTransaction (transactionId : String) (s : Transactions) : Transactions :=
  s.erase transactionId

def markTransactionConsumed (transactionId : String) (s : Transactions) : Bool × Transactions :=
  match s.lookup transactionId with
  | none => (false, s)
  | some transaction =>
    if transaction.consumed then (false, s)
    else (true, s.insert transactionId { transaction with consumed := true })

end MemoryTransactions

/-! ### In Redis -/

namespace RedisTransactions

inductive JsonValue
  | str (s : String)
  | int (n : Int)
  | bool (b : Bool)
  | array (xs : List String)
  | emptyObject
  deriving DecidableEq, Repr

abbrev Json := List (String × JsonValue)

namespace Json

def asString (json : Json) (name : String) : String :=
  match json.lookup name with
  | some (.str s) => s
  | _ => ""

def asInt64 (json : Json) (name : String) : Int :=
  match json.lookup name with
  | some (.int n) => n
  | _ => 0

def asBool (json : Json) (name : String) : Bool :=
  match json.lookup name with
  | some (.bool b) => b
  | _ => false

/-- The elements of a field that is an array, and none otherwise. -/
def elements (json : Json) (name : String) : List String :=
  match json.lookup name with
  | some (.array xs) => xs
  | _ => []

def set (json : Json) (name : String) (value : JsonValue) : Json :=
  json.map fun field => if field.1 = name then (name, value) else field

end Json

abbrev Keyspace := TimedStore String Json

def transactionJson (t : AuthorizationTransaction) : Json :=
  [("transaction_id", .str t.transactionId), ("client_id", .str t.clientId),
   ("subject", .str t.subject), ("redirect_uri", .str t.redirectUri), ("state", .str t.state),
   ("code_challenge", .str t.codeChallenge),
   ("code_challenge_method", .str t.codeChallengeMethod), ("consumed", .bool t.consumed),
   ("expires_at", .int t.expiresAt), ("requested_scopes", .array t.requestedScopes),
   ("valid_scopes", .array t.validScopes),
   ("consent_required_scopes", .array t.consentRequiredScopes)]

def transactionOfJson (json : Json) : AuthorizationTransaction where
  transactionId := json.asString "transaction_id"
  clientId := json.asString "client_id"
  subject := json.asString "subject"
  redirectUri := json.asString "redirect_uri"
  state := json.asString "state"
  codeChallenge := json.asString "code_challenge"
  codeChallengeMethod := json.asString "code_challenge_method"
  requestedScopes := json.elements "requested_scopes"
  validScopes := json.elements "valid_scopes"
  consentRequiredScopes := json.elements "consent_required_scopes"
  consumed := json.asBool "consumed"
  expiresAt := json.asInt64 "expires_at"

/-- A Lua table with nothing in it is encoded as an object. Times have few enough digits to be
printed exactly. -/
def luaValue : JsonValue → JsonValue
  | .array [] => .emptyObject
  | value => value

def cjsonEncode (json : Json) : Json := json.map fun field => (field.1, luaValue field.2)

def transactionKey (transactionId : String) : String := cStr ("oauth2:transaction:" ++ transactionId)

/-- What `%d` prints of a `size_t`: its low 32 bits as an `int`. -/
def printedInt (n : Int) : Int := (n + 2 ^ 31) % 2 ^ 32 - 2 ^ 31

def saveAuthorizationTransaction (now : Int) (transaction : AuthorizationTransaction)
    (s : Keyspace) : Bool × Keyspace :=
  let ttl := if transaction.expiresAt > now then transaction.expiresAt - now else 600
  -- SETEX refuses a time to live that is not positive.
  if printedInt ttl ≤ 0 then (false, s)
  else
    (true, TimedStore.setEx now (transactionKey transaction.transactionId)
      (transactionJson transaction) (printedInt ttl) s)

def getAuthorizationTransaction (now : Int) (transactionId : String) (s : Keyspace) :
    Option AuthorizationTransaction :=
  (TimedStore.get now (transactionKey transactionId) s).map transactionOfJson

def deleteAuthorizationTransaction (transactionId : String) (s : Keyspace) : Keyspace :=
  TimedStore.del (transactionKey transactionId) s

/-- The script; the time to live is what is left of the old one. -/
def consumeScript (now : Int) (key : String) (s : Keyspace) : Int × Keyspace :=
  match TimedStore.live now key s with
  | none => (0, s)
  | some entry =>
    if entry.value.asBool "consumed" then (0, s)
    else
      (1, TimedStore.setEx now key (cjsonEncode (entry.value.set "consumed" (.bool true)))
        (entry.expireAt - now) s)

/-- The key of the script is the id itself. -/
def markTransactionConsumed (now : Int) (transactionId : String) (s : Keyspace) : Bool × Keyspace :=
  let r := consumeScript now (cStr transactionId) s
  (decide (r.1 = 1), r.2)

/-! ### What survives the store -/

theorem transactionOfJson_transactionJson (t : AuthorizationTransaction) :
    transactionOfJson (transactionJson t) = t := rfl

/-- What the script writes for a transaction reads back as that transaction, consumed. -/
theorem transactionOfJson_consumed (t : AuthorizationTransaction) :
    transactionOfJson (cjsonEncode ((transactionJson t).set "consumed" (.bool true))) =
      { t with consumed := true } := by
  obtain ⟨_, _, _, _, _, _, _, requested, valid, consent, _, _⟩ := t
  cases requested <;> cases valid <;> cases consent <;> rfl

end RedisTransactions

/-! ### Both side by side -/

inductive TransactionCall
  | save (transaction : AuthorizationTransaction)
  | get (transactionId : String)
  | markConsumed (transactionId : String)
  | delete (transactionId : String)
  deriving DecidableEq, Repr

inductive TransactionResult
  | bool (b : Bool)
  | transaction (t : Option AuthorizationTransaction)
  | done
  deriving DecidableEq, Repr

namespace MemoryTransactions

def call (now : Int) (s : Transactions) : TransactionCall → TransactionResult × Transactions
  | .save t =>
    let r := saveAuthorizationTransaction t s
    (.bool r.1, r.2)
  | .get id =>
    let r := getAuthorizationTransaction now id s
    (.transaction r.1, r.2)
  | .markConsumed id =>
    let r := markTransactionConsumed id s
    (.bool r.1, r.2)
  | .delete id => (.done, deleteAuthorizationTransaction id s)

end MemoryTransactions

namespace RedisTransactions

def call (now : Int) (s : Keyspace) : TransactionCall → TransactionResult × Keyspace
  | .save t =>
    let r := saveAuthorizationTransaction now t s
    (.bool r.1, r.2)
  | .get id => (.transaction (getAuthorizationTransaction now id s), s)
  | .markConsumed id =>
    let r := markTransactionConsumed now id s
    (.bool r.1, r.2)
  | .delete id => (.done, deleteAuthorizationTransaction id s)

end RedisTransactions

structure TransactionStores where
  memory : MemoryTransactions.Transactions := ∅
  redis : RedisTransactions.Keyspace := ∅

structure TransactionInput where
  now : Int
  call : TransactionCall
  deriving DecidableEq, Repr

structure TransactionEvent where
  input : TransactionInput
  memory : TransactionResult
  redis : TransactionResult
  deriving DecidableEq, Repr

def transactionMachine : Machine TransactionStores TransactionInput TransactionEvent where
  step s i :=
    let memory := MemoryTransactions.call i.now s.memory i.call
    let redis := RedisTransactions.call i.now s.redis i.call
    (⟨memory.2, redis.2⟩, ⟨i, memory.1, redis.1⟩)

end AuthForge.Storage
