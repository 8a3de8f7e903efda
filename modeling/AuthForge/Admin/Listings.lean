import AuthForge.Admin.UserListing
import AuthForge.Base.Paging

/-!
# Lists of tokens and audit records, and the dashboard

`TokenManagementService::listTokens`, `AuditService::listLogs` and `AuditService::getDashboardStats`
over the tables they read. Each list counts and fetches in statements of its own, and `ORDER BY`
leaves rows with equal keys in an order of the database's choice. A comparison with `NULL` selects
nothing.
-/

namespace AuthForge.Admin

/-! ### Statements -/

/-- `respondError`. -/
structure AdminError where
  code : String
  detailForLog : String
  deriving DecidableEq

/-- What a request meets at the database: no client, or statements that fail with a text. -/
structure ListEnv where
  connected : Bool := true
  fails : Nat → Option String := fun _ => none

def getDbOrRespond (env : ListEnv) : Except AdminError Unit :=
  if env.connected then .ok () else .error ⟨"DB_CONNECTION_ERROR", "Database unavailable"⟩

/-- The `k`-th statement of a request. -/
def ListEnv.run {α : Type} (env : ListEnv) (k : Nat) (message : String) (answer : α) :
    Except AdminError α :=
  match env.fails k with
  | none => .ok answer
  | some what => .error ⟨"DB_QUERY_ERROR", message ++ what⟩

theorem ListEnv.run_eq_ok_iff {α : Type} {env : ListEnv} {k : Nat} {message : String}
    {answer result : α} :
    env.run k message answer = .ok result ↔ env.fails k = none ∧ answer = result := by
  unfold ListEnv.run
  cases env.fails k with
  | none => simp
  | some what => simp

theorem bind_eq_ok_iff {ε α β : Type} {x : Except ε α} {f : α → Except ε β} {b : β} :
    x >>= f = .ok b ↔ ∃ a, x = .ok a ∧ f a = .ok b := by
  cases x with
  | error e => simp [bind, Except.bind]
  | ok a => simp [bind, Except.bind]

/-- `paginate(page, perPage)` behind `orderBy`. -/
def fetch {α : Type} {le : α → α → Prop} (arrangement : Paging.Arrangement le)
    (pagination : PaginationParams) (rows : List α) : List α :=
  Paging.slice pagination.perPage.toNat (pagination.page - 1).toNat (arrangement.arrange rows)

/-! ### Tables -/

/-- A row of `oauth2_access_tokens`, as far as the list reads it. -/
structure AccessTokenRow where
  token : String
  clientId : String
  userId : Option String := none
  scope : Option String := none
  expiresAt : Int
  revoked : Option Bool := some false
  issuedAt : Int
  deriving DecidableEq

/-- A row of `audit_logs`; the timestamp counts microseconds. -/
structure AuditLogRow where
  id : Int
  timestamp : Int
  actorType : String
  actorId : Option String := none
  action : String
  targetType : Option String := none
  targetId : Option String := none
  outcome : String
  ip : Option String := none
  deriving DecidableEq

/-- The tables with their primary keys. -/
structure AdminTables where
  directory : UserDirectory
  clientIds : List String := []
  accessTokens : List AccessTokenRow := []
  auditLogs : List AuditLogRow := []
  users_key : (directory.users.map ListedUser.id).Nodup
  accessTokens_key : (accessTokens.map AccessTokenRow.token).Nodup
  auditLogs_key : (auditLogs.map fun row => (row.id, row.timestamp)).Nodup

/-! ### Tokens -/

structure TokenQuery where
  clientId : String := ""
  userId : String := ""

structure TokenJson where
  tokenPrefix : String
  clientId : String
  userId : String
  scope : String
  createdAt : String
  expiresAt : String
  deriving DecidableEq

def tokenRowToJson (row : AccessTokenRow) : TokenJson :=
  { tokenPrefix := String.ofList (row.token.toList.take 8)
    clientId := row.clientId
    userId := row.userId.getD ""
    scope := row.scope.getD ""
    createdAt := toString row.issuedAt
    expiresAt := toString row.expiresAt }

structure TokenPage where
  tokens : List TokenJson
  total : Int
  page : Int
  perPage : Int

/-- Not expired and not revoked. -/
def activeCriteria (now : Int) (row : AccessTokenRow) : Bool :=
  now < row.expiresAt && (row.revoked = some false || row.revoked = none)

def tokenFilter (query : TokenQuery) (now : Int) (row : AccessTokenRow) : Bool :=
  activeCriteria now row && (query.clientId = "" || row.clientId = query.clientId) &&
    (query.userId = "" || row.userId = some query.userId)

/-- `ORDER BY issued_at DESC`. -/
def byIssuedAt (r s : AccessTokenRow) : Prop := s.issuedAt ≤ r.issuedAt

instance : DecidableRel byIssuedAt :=
  fun r s => inferInstanceAs (Decidable (s.issuedAt ≤ r.issuedAt))

instance : Std.Total byIssuedAt := ⟨fun r s => le_total s.issuedAt r.issuedAt⟩

instance : IsTrans AccessTokenRow byIssuedAt := ⟨fun _ _ _ hrs hst => le_trans hst hrs⟩

def listTokens (env : ListEnv) (arrangement : Paging.Arrangement byIssuedAt)
    (tables : AdminTables) (query : TokenQuery) (pagination : PaginationParams) (now : Int) :
    Except AdminError TokenPage := do
  getDbOrRespond env
  let active := tokenFilter query now
  let total ← env.run 0 "Failed to count tokens: " (tables.accessTokens.countP active)
  let rows ← env.run 1 "Failed to fetch tokens: "
    (fetch arrangement pagination (tables.accessTokens.filter active))
  return { tokens := rows.map tokenRowToJson
           total
           page := pagination.page
           perPage := pagination.perPage }

/-- The answer where there is one; otherwise the request failed before it. -/
theorem listTokens_answer {env : ListEnv} {arrangement : Paging.Arrangement byIssuedAt}
    {tables : AdminTables} {query : TokenQuery} {pagination : PaginationParams} {now : Int}
    {answer : TokenPage} (h : listTokens env arrangement tables query pagination now = .ok answer) :
    answer =
      { tokens := (fetch arrangement pagination
          (tables.accessTokens.filter (tokenFilter query now))).map tokenRowToJson
        total := tables.accessTokens.countP (tokenFilter query now)
        page := pagination.page
        perPage := pagination.perPage } := by
  obtain ⟨-, -, h⟩ := bind_eq_ok_iff.mp h
  obtain ⟨total, htotal, h⟩ := bind_eq_ok_iff.mp h
  obtain ⟨rows, hrows, h⟩ := bind_eq_ok_iff.mp h
  obtain ⟨-, rfl⟩ := ListEnv.run_eq_ok_iff.mp htotal
  obtain ⟨-, rfl⟩ := ListEnv.run_eq_ok_iff.mp hrows
  exact (Except.ok.inj h).symm

/-! ### Audit records -/

structure LogQuery where
  action : String := ""
  outcome : String := ""
  actorId : String := ""

structure LogJson where
  id : Int
  timestamp : String
  actorType : String
  actorId : String
  action : String
  targetType : String
  targetId : String
  outcome : String
  ip : String
  deriving DecidableEq

def logRowToJson (toDbString : Int → String) (row : AuditLogRow) : LogJson :=
  { id := row.id
    timestamp := toDbString row.timestamp
    actorType := row.actorType
    actorId := row.actorId.getD ""
    action := row.action
    targetType := row.targetType.getD ""
    targetId := row.targetId.getD ""
    outcome := row.outcome
    ip := row.ip.getD "" }

structure LogPage where
  page : Int
  perPage : Int
  total : Int
  logs : List LogJson

def logFilter (query : LogQuery) (row : AuditLogRow) : Bool :=
  (query.action = "" || row.action = query.action) &&
    (query.outcome = "" || row.outcome = query.outcome) &&
    (query.actorId = "" || row.actorId = some query.actorId)

/-- `ORDER BY "timestamp" DESC`. -/
def byTimestamp (r s : AuditLogRow) : Prop := s.timestamp ≤ r.timestamp

instance : DecidableRel byTimestamp :=
  fun r s => inferInstanceAs (Decidable (s.timestamp ≤ r.timestamp))

instance : Std.Total byTimestamp := ⟨fun r s => le_total s.timestamp r.timestamp⟩

instance : IsTrans AuditLogRow byTimestamp := ⟨fun _ _ _ hrs hst => le_trans hst hrs⟩

/-- There is no count: the total is that of the page. -/
def listLogs (toDbString : Int → String) (env : ListEnv)
    (arrangement : Paging.Arrangement byTimestamp) (tables : AdminTables) (query : LogQuery)
    (pagination : PaginationParams) : Except AdminError LogPage := do
  getDbOrRespond env
  let rows ← env.run 0 "Failed to fetch audit logs: "
    (fetch arrangement pagination (tables.auditLogs.filter (logFilter query)))
  return { page := pagination.page
           perPage := pagination.perPage
           total := rows.length
           logs := rows.map (logRowToJson toDbString) }

theorem listLogs_answer {toDbString : Int → String} {env : ListEnv}
    {arrangement : Paging.Arrangement byTimestamp} {tables : AdminTables} {query : LogQuery}
    {pagination : PaginationParams} {answer : LogPage}
    (h : listLogs toDbString env arrangement tables query pagination = .ok answer) :
    answer =
      { page := pagination.page
        perPage := pagination.perPage
        total := (fetch arrangement pagination (tables.auditLogs.filter (logFilter query))).length
        logs := (fetch arrangement pagination
          (tables.auditLogs.filter (logFilter query))).map (logRowToJson toDbString) } := by
  obtain ⟨-, -, h⟩ := bind_eq_ok_iff.mp h
  obtain ⟨rows, hrows, h⟩ := bind_eq_ok_iff.mp h
  obtain ⟨-, rfl⟩ := ListEnv.run_eq_ok_iff.mp hrows
  exact (Except.ok.inj h).symm

/-! ### The dashboard -/

structure DashboardStats where
  totalUsers : Int
  totalClients : Int
  activeTokens : Int
  logsToday : Int
  failuresToday : Int
  deriving DecidableEq

def loggedToday (now : Int) (row : AuditLogRow) : Bool :=
  let dayAgo := now - 86400
  dayAgo * 1000000 < row.timestamp

def getDashboardStats (env : ListEnv) (tables : AdminTables) (now : Int) :
    Except AdminError DashboardStats := do
  getDbOrRespond env
  let failed := "Failed to fetch dashboard stats: "
  let totalUsers ← env.run 0 failed tables.directory.users.length
  let totalClients ← env.run 1 failed tables.clientIds.length
  let activeTokens ← env.run 2 failed (tables.accessTokens.countP (activeCriteria now))
  let logsToday ← env.run 3 failed (tables.auditLogs.countP (loggedToday now))
  let failuresToday ← env.run 4 failed (tables.auditLogs.countP fun row => row.outcome = "failure")
  return { totalUsers, totalClients, activeTokens, logsToday, failuresToday }

theorem getDashboardStats_answer {env : ListEnv} {tables : AdminTables} {now : Int}
    {stats : DashboardStats} (h : getDashboardStats env tables now = .ok stats) :
    stats =
      { totalUsers := tables.directory.users.length
        totalClients := tables.clientIds.length
        activeTokens := tables.accessTokens.countP (activeCriteria now)
        logsToday := tables.auditLogs.countP (loggedToday now)
        failuresToday := tables.auditLogs.countP fun row => row.outcome = "failure" } := by
  obtain ⟨-, -, h⟩ := bind_eq_ok_iff.mp h
  obtain ⟨totalUsers, husers, h⟩ := bind_eq_ok_iff.mp h
  obtain ⟨totalClients, hclients, h⟩ := bind_eq_ok_iff.mp h
  obtain ⟨activeTokens, htokens, h⟩ := bind_eq_ok_iff.mp h
  obtain ⟨logsToday, hlogs, h⟩ := bind_eq_ok_iff.mp h
  obtain ⟨failuresToday, hfailures, h⟩ := bind_eq_ok_iff.mp h
  obtain ⟨-, rfl⟩ := ListEnv.run_eq_ok_iff.mp husers
  obtain ⟨-, rfl⟩ := ListEnv.run_eq_ok_iff.mp hclients
  obtain ⟨-, rfl⟩ := ListEnv.run_eq_ok_iff.mp htokens
  obtain ⟨-, rfl⟩ := ListEnv.run_eq_ok_iff.mp hlogs
  obtain ⟨-, rfl⟩ := ListEnv.run_eq_ok_iff.mp hfailures
  exact (Except.ok.inj h).symm

end AuthForge.Admin
