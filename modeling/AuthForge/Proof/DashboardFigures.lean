import AuthForge.Admin.Listings

/-!
# The dashboard and the lists behind it

The figures count by criteria of their own. Active tokens are counted as they are listed. Users are
counted without the criterion that the list always has, and failures without the criterion that
makes the other figure one of today.
-/

namespace AuthForge.Admin

variable {tables : AdminTables} {now : Int}

/-- The figures are those of the unfiltered lists, and the failures are among the records of
today. -/
def FiguresAgree (stats : DashboardStats) (tables : AdminTables) (tokens : TokenPage)
    (pagination : PaginationParams) (now : Int) : Prop :=
  stats.totalUsers = (listUsers tables.directory {} pagination now).total ∧
    stats.activeTokens = tokens.total ∧
    stats.failuresToday =
      tables.auditLogs.countP fun row => loggedToday now row && row.outcome = "failure"

/-- No user is deleted softly, and every failure is of today. -/
def NothingStale (tables : AdminTables) (now : Int) : Prop :=
  (∀ u ∈ tables.directory.users, u.deletedAt = none) ∧
    ∀ row ∈ tables.auditLogs, row.outcome = "failure" → loggedToday now row = true

theorem countP_and_eq_iff {α : Type} {p q : α → Bool} {rows : List α} :
    rows.countP q = rows.countP (fun x => p x && q x) ↔ ∀ x ∈ rows, q x = true → p x = true := by
  have hand : rows.countP (fun x => p x && q x) = (rows.filter q).countP p := by
    rw [List.countP_filter]
  rw [hand, List.countP_eq_length_filter, eq_comm, List.countP_eq_length]
  simp

theorem baseFilter_default : baseFilter {} now = fun u => u.deletedAt.isNone := by
  funext u
  simp [baseFilter, searchFilter, lockFilter]

theorem tokenFilter_default : tokenFilter {} now = activeCriteria now := by
  funext row
  simp [tokenFilter]

theorem listUsers_total_default (pagination : PaginationParams) :
    (listUsers tables.directory {} pagination now).total =
      tables.directory.users.countP fun u => u.deletedAt.isNone := by
  unfold listUsers
  rw [if_pos rfl, baseFilter_default]
  rfl

theorem totalUsers_eq_iff :
    tables.directory.users.length =
        tables.directory.users.countP (fun u => u.deletedAt.isNone) ↔
      ∀ u ∈ tables.directory.users, u.deletedAt = none := by
  rw [eq_comm, List.countP_eq_length]
  simp only [Option.isNone_iff_eq_none]

/-- The figures agree with the lists exactly on tables without softly deleted users and without
failures of an earlier day. -/
theorem getDashboardStats_agrees_iff (env tokensEnv : ListEnv)
    (arrangement : Paging.Arrangement byIssuedAt) (tables : AdminTables)
    (pagination tokensPagination : PaginationParams) (now : Int) (stats : DashboardStats)
    (tokens : TokenPage) (hstats : getDashboardStats env tables now = .ok stats)
    (htokens : listTokens tokensEnv arrangement tables {} tokensPagination now = .ok tokens) :
    FiguresAgree stats tables tokens pagination now ↔ NothingStale tables now := by
  rw [getDashboardStats_answer hstats, listTokens_answer htokens]
  unfold FiguresAgree NothingStale
  rw [listUsers_total_default, tokenFilter_default]
  have husers := @totalUsers_eq_iff tables
  have hfailures : tables.auditLogs.countP (fun row => decide (row.outcome = "failure")) =
      tables.auditLogs.countP (fun row => loggedToday now row && decide (row.outcome = "failure")) ↔
      ∀ row ∈ tables.auditLogs, decide (row.outcome = "failure") = true →
        loggedToday now row = true := countP_and_eq_iff
  simp only [decide_eq_true_eq] at hfailures
  rw [← husers, ← hfailures]
  simp

/-- A deleted user, and a failure of an earlier day. -/
def staleTables : AdminTables where
  directory := { users := [{ id := 1, username := "ann", email := none, deletedAt := some 5 }] }
  auditLogs := [⟨1, 7, "user", none, "login", none, none, "failure", none⟩]
  users_key := by decide
  accessTokens_key := by decide
  auditLogs_key := by decide

/-- The figures count the deleted user and the old failure, the lists do not. -/
theorem getDashboardStats_disagrees :
    getDashboardStats {} staleTables 100000 = .ok ⟨1, 0, 0, 0, 1⟩ ∧
      listTokens {} (Paging.stable byIssuedAt) staleTables {} (parsePagination "" "") 100000 =
        .ok ⟨[], 0, 1, 50⟩ ∧
      ¬ FiguresAgree ⟨1, 0, 0, 0, 1⟩ staleTables ⟨[], 0, 1, 50⟩ (parsePagination "" "") 100000 := by
  refine ⟨by rfl, by rfl, ?_⟩
  intro h
  exact absurd h.1 (by decide)

/-- The equivalence where both sides fail. -/
theorem getDashboardStats_agrees_iff_stale :
    FiguresAgree ⟨1, 0, 0, 0, 1⟩ staleTables ⟨[], 0, 1, 50⟩ (parsePagination "" "") 100000 ↔
      NothingStale staleTables 100000 :=
  getDashboardStats_agrees_iff {} {} (Paging.stable byIssuedAt) staleTables (parsePagination "" "")
    (parsePagination "" "") 100000 ⟨1, 0, 0, 0, 1⟩ ⟨[], 0, 1, 50⟩ (by rfl) (by rfl)

end AuthForge.Admin
