import AuthForge.Admin.Listings

/-!
# Turning pages

The identifiers of users are unique, so their pages are cut from one list whatever the database
does. Issue times and timestamps are not: a page of tokens or audit records can repeat a row of the
page before and leave another one out, but only where rows with one time stand on both sides of a
boundary. The total of the audit records is that of the page.
-/

namespace AuthForge.Admin

/-- The pages of one size. -/
def PaginationParams.turnTo (pagination : PaginationParams) (i : Nat) : PaginationParams :=
  { pagination with
    page := i + 1
    page_pos := by omega }

variable {tables : AdminTables} {pagination : PaginationParams} {now : Int} {pages : Nat}

theorem fetch_turnTo {α : Type} {le : α → α → Prop} (arrangement : Paging.Arrangement le)
    (pagination : PaginationParams) (i : Nat) (rows : List α) :
    fetch arrangement (pagination.turnTo i) rows =
      Paging.slice pagination.perPage.toNat i (arrangement.arrange rows) := by
  have hindex : ((i : Int) + 1 - 1).toNat = i := by omega
  unfold fetch PaginationParams.turnTo
  dsimp only
  rw [hindex]

/-! ### Users -/

/-- `ORDER BY id ASC`. -/
def byId (u v : ListedUser) : Prop := u.id ≤ v.id

instance : DecidableRel byId := fun u v => inferInstanceAs (Decidable (u.id ≤ v.id))

instance : Std.Total byId := ⟨fun u v => le_total u.id v.id⟩

instance : IsTrans ListedUser byId := ⟨fun _ _ _ huv hvw => le_trans huv hvw⟩

/-- The rows that a query matches: the search, the lock state, and a holder of the role. -/
def userFilter (tables : AdminTables) (query : UserQuery) (now : Int) : Criteria := fun u =>
  baseFilter query now u &&
    (query.role = "" || u.id ∈ roleHolders tables.directory query.role)

def matchingUsers (tables : AdminTables) (query : UserQuery) (now : Int) : List ListedUser :=
  tables.directory.users.filter (userFilter tables query now)

def withRoles (tables : AdminTables) (u : ListedUser) : ListedUser × List String :=
  (u, roleNames tables.directory u.id)

theorem fetchPage_eq (filter : Criteria) :
    (fetchPage tables.directory pagination filter).total =
        (tables.directory.users.filter filter).length ∧
      (fetchPage tables.directory pagination filter).users =
        (fetch (Paging.stable byId) pagination (tables.directory.users.filter filter)).map
          (withRoles tables) := by
  have hpage : 0 ≤ pagination.page - 1 := Int.sub_nonneg_of_le pagination.page_pos
  have hperPage : 0 ≤ pagination.perPage := le_trans (by decide) pagination.perPage_pos
  constructor
  · rw [← List.countP_eq_length_filter]
    rfl
  · unfold fetch Paging.slice
    rw [← Int.toNat_mul hpage hperPage]
    rfl

theorem listUsers_eq_fetchPage (query : UserQuery) :
    (listUsers tables.directory query pagination now).total =
        (matchingUsers tables query now).length ∧
      (listUsers tables.directory query pagination now).users =
        (fetch (Paging.stable byId) pagination (matchingUsers tables query now)).map
          (withRoles tables) := by
  unfold matchingUsers
  by_cases hrole : query.role = ""
  · have hfilter : userFilter tables query now = baseFilter query now := by
      funext u
      simp [userFilter, hrole]
    rw [listUsers, if_pos hrole, hfilter]
    exact fetchPage_eq _
  · rw [listUsers, if_neg hrole]
    cases hholders : roleHolders tables.directory query.role with
    | nil =>
      have hnone : tables.directory.users.filter (userFilter tables query now) = [] := by
        rw [List.filter_eq_nil_iff]
        intro u _
        simp [userFilter, hrole, hholders]
      rw [hnone]
      unfold fetch Paging.slice Paging.stable
      simp
    | cons id ids =>
      have hfilter : userFilter tables query now =
          fun u => baseFilter query now u && u.id ∈ id :: ids := by
        funext u
        simp [userFilter, hrole, hholders]
      rw [hfilter]
      exact fetchPage_eq _

/-- Users have no ties. -/
theorem eq_of_byId {u v : ListedUser} (hu : u ∈ tables.directory.users)
    (hv : v ∈ tables.directory.users) (huv : byId u v) (hvu : byId v u) : u = v :=
  List.inj_on_of_nodup_map tables.users_key hu hv (le_antisymm huv hvu)

theorem arrange_matchingUsers (arrangement : Paging.Arrangement byId) (query : UserQuery) :
    arrangement.arrange (matchingUsers tables query now) =
      (Paging.stable byId).arrange (matchingUsers tables query now) := by
  have hperm := arrangement.perm (matchingUsers tables query now)
  have hstable := (Paging.stable byId).perm (matchingUsers tables query now)
  refine List.Perm.eq_of_pairwise ?_ (arrangement.sorted _) ((Paging.stable byId).sorted _)
    (hperm.trans hstable.symm)
  intro u v hu hv
  exact eq_of_byId (List.mem_filter.mp (hperm.mem_iff.mp hu)).1
    (List.mem_filter.mp (hstable.mem_iff.mp hv)).1

theorem pagesUnsplit_matchingUsers (query : UserQuery) (n : Nat) :
    Paging.PagesUnsplit byId (matchingUsers tables query now) n := by
  apply Paging.pagesUnsplit_of_strict
  have hkeys : (matchingUsers tables query now).Pairwise fun u v => u.id ≠ v.id :=
    (List.pairwise_map.mp tables.users_key).filter _
  refine hkeys.imp ?_
  intro u v hne htied
  exact hne (le_antisymm htied.1 htied.2)

/-! ### All pages -/

/-- Whatever the database does, the pages show each matching user once, and the total is their
number. -/
def UsersComplete (tables : AdminTables) (pagination : PaginationParams) (now : Int) (pages : Nat) :
    Prop :=
  ∀ query,
    (∀ arrangement : Paging.Arrangement byId,
      arrangement.arrange (matchingUsers tables query now) =
        (Paging.stable byId).arrange (matchingUsers tables query now)) ∧
    (∀ i, (listUsers tables.directory query (pagination.turnTo i) now).total =
      (matchingUsers tables query now).length) ∧
    ((matchingUsers tables query now).length ≤ pages * pagination.perPage.toNat →
      ((List.range pages).flatMap fun i =>
          (listUsers tables.directory query (pagination.turnTo i) now).users).Perm
        ((matchingUsers tables query now).map (withRoles tables)))

def matchingTokens (tables : AdminTables) (query : TokenQuery) (now : Int) : List AccessTokenRow :=
  tables.accessTokens.filter (tokenFilter query now)

/-- The total is the number of matching tokens. The pages show each of them once, unless tokens
issued at one time stand on both sides of a boundary. -/
def TokensComplete (tables : AdminTables) (pagination : PaginationParams) (now : Int)
    (pages : Nat) : Prop :=
  ∀ query (env : Nat → ListEnv) (arrangement : Nat → Paging.Arrangement byIssuedAt)
    (answers : Nat → TokenPage),
    (∀ i < pages, listTokens (env i) (arrangement i) tables query (pagination.turnTo i) now =
      .ok (answers i)) →
    (∀ i < pages, (answers i).total = (matchingTokens tables query now).length) ∧
    (Paging.PagesUnsplit byIssuedAt (matchingTokens tables query now) pagination.perPage.toNat →
      (matchingTokens tables query now).length ≤ pages * pagination.perPage.toNat →
      ((List.range pages).flatMap fun i => (answers i).tokens).Perm
        ((matchingTokens tables query now).map tokenRowToJson))

def matchingLogs (tables : AdminTables) (query : LogQuery) : List AuditLogRow :=
  tables.auditLogs.filter (logFilter query)

/-- The total is the number of records on the page. The pages show each matching record once, unless
records of one time stand on both sides of a boundary. -/
def LogsComplete (tables : AdminTables) (pagination : PaginationParams) (pages : Nat) : Prop :=
  ∀ toDbString query (env : Nat → ListEnv) (arrangement : Nat → Paging.Arrangement byTimestamp)
    (answers : Nat → LogPage),
    (∀ i < pages, listLogs toDbString (env i) (arrangement i) tables query (pagination.turnTo i) =
      .ok (answers i)) →
    (∀ i < pages, (answers i).total = (answers i).logs.length) ∧
    (Paging.PagesUnsplit byTimestamp (matchingLogs tables query) pagination.perPage.toNat →
      (matchingLogs tables query).length ≤ pages * pagination.perPage.toNat →
      ((List.range pages).flatMap fun i => (answers i).logs).Perm
        ((matchingLogs tables query).map (logRowToJson toDbString)))

/-- Pages whose rows are shown by a function show the rows once. -/
theorem flatMap_map_perm {α β : Type} {le : α → α → Prop} [DecidableRel le] (hrefl : ∀ r, le r r)
    {rows : List α} {n : Nat} (hties : Paging.PagesUnsplit le rows n)
    (arrangement : Nat → Paging.Arrangement le) (hpages : rows.length ≤ pages * n) (display : α → β)
    (shown : Nat → List β)
    (hshown : ∀ i < pages, shown i =
      (Paging.slice n i ((arrangement i).arrange rows)).map display) :
    ((List.range pages).flatMap shown).Perm (rows.map display) := by
  have hflat : (List.range pages).flatMap shown =
      ((List.range pages).flatMap fun i =>
        Paging.slice n i ((arrangement i).arrange rows)).map display := by
    rw [List.map_flatMap]
    apply List.flatMap_congr
    intro i hi
    exact hshown i (List.mem_range.mp hi)
  rw [hflat]
  exact (Paging.pages_perm hrefl hties arrangement hpages).map display

theorem usersComplete (tables : AdminTables) (pagination : PaginationParams) (now : Int)
    (pages : Nat) : UsersComplete tables pagination now pages := by
  intro query
  refine ⟨fun arrangement => arrange_matchingUsers arrangement query,
    fun i => (listUsers_eq_fetchPage query).1, ?_⟩
  intro hpages
  refine flatMap_map_perm (fun u => le_refl u.id) (pagesUnsplit_matchingUsers query _)
    (fun _ => Paging.stable byId) hpages _ _ ?_
  intro i _
  rw [(listUsers_eq_fetchPage query).2, fetch_turnTo]

theorem tokensComplete (tables : AdminTables) (pagination : PaginationParams) (now : Int)
    (pages : Nat) : TokensComplete tables pagination now pages := by
  intro query env arrangement answers hanswers
  constructor
  · intro i hi
    rw [listTokens_answer (hanswers i hi), matchingTokens, ← List.countP_eq_length_filter]
  · intro hties hpages
    refine flatMap_map_perm (fun r => le_refl r.issuedAt) hties arrangement hpages _ _ ?_
    intro i hi
    rw [listTokens_answer (hanswers i hi), fetch_turnTo]
    rfl

theorem logsComplete (tables : AdminTables) (pagination : PaginationParams) (pages : Nat) :
    LogsComplete tables pagination pages := by
  intro toDbString query env arrangement answers hanswers
  constructor
  · intro i hi
    rw [listLogs_answer (hanswers i hi), List.length_map]
  · intro hties hpages
    refine flatMap_map_perm (fun r => le_refl r.timestamp) hties arrangement hpages _ _ ?_
    intro i hi
    rw [listLogs_answer (hanswers i hi), fetch_turnTo]
    rfl

/-- What the pages of the three lists show together. -/
theorem pages_complete (tables : AdminTables) (pagination : PaginationParams) (now : Int)
    (pages : Nat) :
    UsersComplete tables pagination now pages ∧ TokensComplete tables pagination now pages ∧
      LogsComplete tables pagination pages :=
  ⟨usersComplete tables pagination now pages, tokensComplete tables pagination now pages,
    logsComplete tables pagination pages⟩

/-- Two tokens issued at one time, and two records of one time. -/
def tiedTables : AdminTables where
  directory := { users := [] }
  accessTokens := [⟨"token-1", "shop", none, none, 20, some false, 10⟩,
    ⟨"token-2", "shop", none, none, 20, some false, 10⟩]
  auditLogs := [⟨1, 7, "user", none, "login", none, none, "failure", none⟩,
    ⟨2, 7, "user", none, "login", none, none, "success", none⟩]
  users_key := by decide
  accessTokens_key := by decide
  auditLogs_key := by decide

def firstToken : TokenJson := ⟨"token-1", "shop", "", "", "10", "20"⟩

def secondToken : TokenJson := ⟨"token-2", "shop", "", "", "10", "20"⟩

def singly : PaginationParams := ⟨1, 1, le_refl 1, le_refl 1⟩

/-- Two queries that break a tie differently show one token twice and the other never; a page of one
record reports a total of one where two match. -/
theorem pages_repeat :
    listTokens {} (Paging.stable byIssuedAt) tiedTables {} (singly.turnTo 0) 15 =
        .ok ⟨[firstToken], 2, 1, 1⟩ ∧
      listTokens {} (Paging.reversed byIssuedAt) tiedTables {} (singly.turnTo 1) 15 =
        .ok ⟨[firstToken], 2, 2, 1⟩ ∧
      (matchingTokens tiedTables {} 15).map tokenRowToJson = [firstToken, secondToken] ∧
      ¬ ([firstToken] ++ [firstToken]).Perm [firstToken, secondToken] ∧
      listLogs (fun _ => "") {} (Paging.stable byTimestamp) tiedTables {} (singly.turnTo 0) =
        .ok ⟨1, 1, 1, [⟨1, "", "user", "", "login", "", "", "failure", ""⟩]⟩ ∧
      (matchingLogs tiedTables {}).length = 2 := by
  refine ⟨by rfl, by rfl, by rfl, by decide, by rfl, by rfl⟩

end AuthForge.Admin
