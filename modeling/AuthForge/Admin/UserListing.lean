import Mathlib.Data.List.Sort
import AuthForge.Base.AsciiCase
import AuthForge.Base.Like
import AuthForge.Base.Text

/-!
# Listing users

`UserAdminService::listUsers`: the criteria made from the search and lock parameters, the filter by
role, and the page that is answered. A comparison with `NULL` selects nothing, and no criterion is
negated, so a criterion says which rows it selects.
-/

namespace AuthForge.Admin

/-- A row of `users`, as far as the list reads it. -/
structure ListedUser where
  id : Int
  username : String
  email : Option String
  emailVerified : Bool := false
  mfaEnabled : Bool := false
  deletedAt : Option Int := none
  lockedUntil : Option Int := some 0
  deriving DecidableEq

structure UserDirectory where
  users : List ListedUser
  /-- Pairs of a user and a role. -/
  userRoles : List (Int × Int) := []
  roles : List (Int × String) := []

structure UserQuery where
  q : String := ""
  role : String := ""
  locked : String := ""

/-! ### Criteria -/

abbrev Criteria := ListedUser → Bool

/-- Also `lower()` of a column with ASCII data. -/
def asciiToLower (s : String) : String := String.ofList (s.toList.map Char.toLower)

/-- Only the two wildcards are escaped. -/
def escaped (q : String) : String :=
  String.ofList (q.toList.flatMap fun c => if c = '%' ∨ c = '_' then ['\\', c] else [c])

/-- `lower(column) LIKE pattern`. -/
def lowerLike (column : Option String) (pattern : String) : Bool :=
  column.any fun value => Like.like pattern.toList (asciiToLower value).toList

def searchFilter (q : String) : Criteria := fun u =>
  let pattern := asciiToLower (escaped q) ++ "%"
  q = "" || (lowerLike (some u.username) pattern || lowerLike u.email pattern)

def lockFilter (locked : String) (now : Int) : Criteria := fun u =>
  if locked = "true" then u.lockedUntil.any fun t => now < t
  else if locked = "false" then u.lockedUntil.any fun t => t < now
  else true

def baseFilter (query : UserQuery) (now : Int) : Criteria := fun u =>
  u.deletedAt.isNone && searchFilter query.q u && lockFilter query.locked now u

/-! ### Pages -/

/-- The parameters `page` and `per_page` after clamping. -/
structure PaginationParams where
  page : Int
  perPage : Int
  page_pos : 1 ≤ page
  perPage_pos : 1 ≤ perPage

def parsePagination (page perPage : String) : PaginationParams :=
  let page := (stoi page).getD 1
  let perPage := min ((stoi perPage).getD 50) 100
  { page := if page < 1 then 1 else page
    perPage := if perPage < 1 then 50 else perPage
    page_pos := by
      split
      · exact le_refl _
      · omega
    perPage_pos := by
      split
      · decide
      · omega }

/-- The envelope, with each row and the names of its roles. -/
structure UserPage where
  page : Int
  perPage : Int
  total : Int
  totalPages : Int
  users : List (ListedUser × List String)

def roleNames (db : UserDirectory) (userId : Int) : List String :=
  (db.userRoles.filter fun e => e.1 = userId).filterMap fun e =>
    (db.roles.find? fun r => r.1 = e.2).map Prod.snd

def fetchPage (db : UserDirectory) (pagination : PaginationParams) (filter : Criteria) : UserPage :=
  let rows := (db.users.filter filter).insertionSort fun u v => u.id ≤ v.id
  let total : Int := (db.users.countP filter : Nat)
  { page := pagination.page
    perPage := pagination.perPage
    total
    totalPages :=
      if total > 0 then (total + pagination.perPage - 1) / pagination.perPage else 0
    users :=
      ((rows.drop ((pagination.page - 1) * pagination.perPage).toNat).take
        pagination.perPage.toNat).map fun u => (u, roleNames db u.id) }

/-- The holders of the roles with a name. -/
def roleHolders (db : UserDirectory) (role : String) : List Int :=
  let roleIds := (db.roles.filter fun r => r.2 = role).map Prod.fst
  (db.userRoles.filter fun e => e.2 ∈ roleIds).map Prod.fst

def listUsers (db : UserDirectory) (query : UserQuery) (pagination : PaginationParams) (now : Int) :
    UserPage :=
  if query.role = "" then fetchPage db pagination (baseFilter query now)
  else
    match roleHolders db query.role with
    | [] => ⟨pagination.page, pagination.perPage, 0, 0, []⟩
    | id :: ids => fetchPage db pagination fun u => baseFilter query now u && u.id ∈ id :: ids

/-! ### What a query selects -/

/-- The user is on one of the pages. -/
def Selects (db : UserDirectory) (query : UserQuery) (now : Int) (u : ListedUser) : Prop :=
  ∃ pagination, u ∈ (listUsers db query pagination now).users.map Prod.fst

theorem mem_fetchPage_iff {db : UserDirectory} {filter : Criteria} {u : ListedUser} :
    (∃ pagination, u ∈ (fetchPage db pagination filter).users.map Prod.fst) ↔
      u ∈ db.users ∧ filter u = true := by
  rw [← List.mem_filter, ← List.mem_insertionSort fun u v : ListedUser => u.id ≤ v.id]
  constructor
  · rintro ⟨pagination, hmem⟩
    rw [fetchPage, List.map_map, List.mem_map] at hmem
    obtain ⟨v, hv, rfl⟩ := hmem
    exact List.mem_of_mem_drop (List.mem_of_mem_take hv)
  · intro hmem
    -- The row at position `i` is alone on the page `i + 1` of pages of one row.
    obtain ⟨i, hi, rfl⟩ := List.mem_iff_getElem.mp hmem
    refine ⟨⟨i + 1, 1, by omega, le_refl _⟩, ?_⟩
    have hoffset : (((i : Int) + 1 - 1) * 1).toNat = i := by omega
    rw [fetchPage, List.map_map, List.mem_map]
    refine ⟨_, ?_, rfl⟩
    dsimp only
    rw [hoffset, List.drop_eq_getElem_cons hi]
    exact List.mem_cons_self

theorem selects_iff {db : UserDirectory} {query : UserQuery} {now : Int} {u : ListedUser}
    (hrole : query.role = "") :
    Selects db query now u ↔ u ∈ db.users ∧ baseFilter query now u = true := by
  simp only [Selects, listUsers, if_pos hrole]
  exact mem_fetchPage_iff

end AuthForge.Admin
