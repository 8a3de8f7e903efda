import AuthForge.Base.Run
import AuthForge.Base.Dict
import AuthForge.OAuth2.Authorization

/-!
# The scope catalog and the admin-scope set

The rows of `oauth2_scopes`, the administrator's operations on them, and the copy of the admin
scopes that `AuthorizationService` holds: it is loaded once, when the server starts.
-/

namespace AuthForge.Authz

open OAuth2

structure ScopeRow where
  name : String
  description : String := ""
  mappedRole : Option String := none
  isDefault : Bool := false
  requiresAdminRole : Bool := false
  deriving DecidableEq, Repr

def namesOf (rows : Dict Int ScopeRow) : List String := rows.entries.map fun e => e.2.name

/-- The table with its unique constraint on the name. -/
structure ScopeTable where
  rows : Dict Int ScopeRow
  names_nodup : (namesOf rows).Nodup

namespace ScopeTable

variable (t : ScopeTable)

def hasName (name : String) : Bool := name ∈ namesOf t.rows

theorem nodup_insert {name : String} {id : Int} {row : ScopeRow} (hid : id ∉ t.rows)
    (hname : row.name = name) (hfree : ¬t.hasName name = true) :
    (namesOf (t.rows.insert id row)).Nodup := by
  rw [namesOf, AList.entries_insert_of_notMem hid, List.map_cons, List.nodup_cons]
  rw [hname]
  exact ⟨fun hmem => hfree (decide_eq_true hmem), t.names_nodup⟩

/-- `INSERT`; `none` when a constraint is violated. -/
def insert (id : Int) (row : ScopeRow) : Option ScopeTable :=
  if h : id ∈ t.rows ∨ t.hasName row.name = true then none
  else some ⟨t.rows.insert id row, t.nodup_insert (not_or.mp h).1 rfl (not_or.mp h).2⟩

def update (id : Int) (f : ScopeRow → ScopeRow) (hf : ∀ row, (f row).name = row.name) :
    ScopeTable where
  rows := t.rows.mapValues fun k row => if k = id then f row else row
  names_nodup := by
    have hnames : namesOf (t.rows.mapValues fun k row => if k = id then f row else row) =
        namesOf t.rows := by
      simp only [namesOf, Dict.mapValues, List.map_map]
      refine List.map_congr_left ?_
      intro e _
      simp only [Function.comp_apply]
      split
      · exact hf e.2
      · rfl
    rw [hnames]
    exact t.names_nodup

def delete (id : Int) : ScopeTable where
  rows := t.rows.erase id
  names_nodup := by
    refine t.names_nodup.sublist ?_
    exact List.Sublist.map _ (List.kerase_sublist id t.rows.entries)

/-- A row that requires the admin role has the name. -/
def Flagged (name : String) : Prop :=
  ∃ e ∈ t.rows.entries, e.2.name = name ∧ e.2.requiresAdminRole = true

def adminScopes : List String :=
  (t.rows.entries.filter fun e => e.2.requiresAdminRole).map fun e => e.2.name

end ScopeTable

/-! ### The operations -/

structure CreateScope where
  name : Option String := none
  description : String := ""
  mappedRole : String := ""
  isDefault : Bool := false
  requiresAdminRole : Bool := false
  deriving DecidableEq, Repr

def CreateScope.row (body : CreateScope) (name : String) : ScopeRow where
  name := name
  description := body.description
  mappedRole := if body.mappedRole = "" then none else some body.mappedRole
  isDefault := body.isDefault
  requiresAdminRole := body.requiresAdminRole

structure UpdateScope where
  description : Option String := none
  mappedRole : Option String := none
  isDefault : Option Bool := none
  requiresAdminRole : Option Bool := none
  deriving DecidableEq, Repr

def UpdateScope.isEmpty (body : UpdateScope) : Bool :=
  body.description.isNone && body.mappedRole.isNone && body.isDefault.isNone &&
    body.requiresAdminRole.isNone

def UpdateScope.apply (body : UpdateScope) (row : ScopeRow) : ScopeRow :=
  { row with
    description := body.description.getD row.description
    mappedRole := body.mappedRole.or row.mappedRole
    isDefault := body.isDefault.getD row.isDefault
    requiresAdminRole := body.requiresAdminRole.getD row.requiresAdminRole }

inductive ScopeOperation
  /-- The body is absent when it is no JSON. -/
  | createScope (body : Option CreateScope)
  | updateScope (scopeId : String) (body : Option UpdateScope)
  | deleteScope (scopeId : String)
  deriving DecidableEq, Repr

inductive ScopeReply
  | created (id : Int) (row : ScopeRow)
  | success (message : String)
  | error (code detail : String)
  deriving DecidableEq, Repr

/-- What happens outside: whether the lookup and the write throw, and the next id. -/
structure ScopeEnv where
  lookupFails : Bool := false
  writeFails : Bool := false
  newId : Int := 0
  deriving DecidableEq, Repr

/-- The table and the set that `AuthorizationService` uses. -/
structure ScopeServer where
  table : ScopeTable
  adminScopes : List String

/-- What becomes of the plugin's load of the set. The query is sent before the service is created,
and its callback drops the set when there is no service yet. -/
inductive AdminScopeLoad
  /-- The storage is not PostgreSQL. -/
  | notSent
  | failed
  | answered (serviceExists : Bool)
  deriving DecidableEq, Repr

def AdminScopeLoad.setsScopes : AdminScopeLoad → Bool
  | .answered serviceExists => serviceExists
  | _ => false

namespace ScopeServer

/-- The plugin loads the set at the start; a service that is not given it keeps its default. -/
def start (load : AdminScopeLoad) (table : ScopeTable) : ScopeServer :=
  ⟨table, if load.setsScopes then table.adminScopes else defaultAdminScopes⟩

variable (env : ScopeEnv) (s : ScopeServer)

def insertScope (row : ScopeRow) : ScopeReply × ScopeServer :=
  if env.writeFails then (.error "DB_QUERY_ERROR" "Failed to create scope: ", s)
  else
    match s.table.insert env.newId row with
    | none => (.error "DB_QUERY_ERROR" "Failed to create scope: ", s)
    | some table => (.created env.newId row, { s with table })

def createScope (body : Option CreateScope) : ScopeReply × ScopeServer :=
  match body with
  | none => (.error "VALIDATION_MISSING_REQUIRED_FIELD" "Request body must contain 'name'", s)
  | some body =>
    match body.name with
    | none => (.error "VALIDATION_MISSING_REQUIRED_FIELD" "Request body must contain 'name'", s)
    | some name =>
      if name = "" then
        (.error "VALIDATION_MISSING_REQUIRED_FIELD" "Scope name cannot be empty", s)
      else if env.lookupFails = false ∧ s.table.hasName name = true then
        (.error "VALIDATION_RESOURCE_CONFLICT" "Scope name already exists", s)
      else insertScope env s (body.row name)

def updateScope (scopeId : String) (body : Option UpdateScope) : ScopeReply × ScopeServer :=
  match body with
  | none => (.error "VALIDATION_INVALID_INPUT" "Invalid JSON body", s)
  | some body =>
    if body.isEmpty then (.error "VALIDATION_INVALID_INPUT" "No updatable fields provided", s)
    else
      match stoi scopeId with
      | none => (.error "VALIDATION_INVALID_INPUT" "scopeId must be an integer", s)
      | some id =>
        if env.lookupFails = true ∨ s.table.rows.lookup id = none then
          (.error "VALIDATION_RESOURCE_NOT_FOUND" "Scope not found", s)
        else if env.writeFails then (.error "DB_QUERY_ERROR" "Failed to update scope: ", s)
        else
          (.success "Scope updated successfully",
            { s with table := s.table.update id body.apply fun _ => rfl })

def builtInScopes : List String :=
  ["openid", "profile", "email", "admin", "users:read", "users:write", "clients:read",
   "clients:write", "tokens:read", "tokens:write", "roles:read", "roles:write", "audit:read"]

/-- The row that the `DELETE` of `deleteScope` finds. -/
def deletable (id : Int) : Bool :=
  match s.table.rows.lookup id with
  | none => false
  | some row => decide (row.name ∉ builtInScopes)

def deleteScope (scopeId : String) : ScopeReply × ScopeServer :=
  match stoi scopeId with
  | none => (.error "VALIDATION_INVALID_INPUT" "scopeId must be an integer", s)
  | some id =>
    if env.writeFails then (.error "DB_QUERY_ERROR" "Failed to delete scope: ", s)
    else if s.deletable id = false then
      (.error "VALIDATION_RESOURCE_NOT_FOUND" "Scope not found or cannot delete built-in scopes", s)
    else (.success "Scope deleted successfully", { s with table := s.table.delete id })

def handle : ScopeOperation → ScopeReply × ScopeServer
  | .createScope body => createScope env s body
  | .updateScope scopeId body => updateScope env s scopeId body
  | .deleteScope scopeId => deleteScope env s scopeId

end ScopeServer

structure ScopeInput where
  env : ScopeEnv := {}
  operation : ScopeOperation
  deriving DecidableEq, Repr

def scopeCatalog : Machine ScopeServer ScopeInput ScopeReply where
  step s i :=
    let r := s.handle i.env i.operation
    (r.2, r.1)

/-! ### Which names are flagged -/

namespace ScopeTable

variable {t t' : ScopeTable} {id : Int} {row : ScopeRow} {name : String}

theorem mem_adminScopes : name ∈ t.adminScopes ↔ t.Flagged name := by
  simp only [adminScopes, Flagged, List.mem_map, List.mem_filter]
  constructor
  · intro h
    obtain ⟨e, ⟨he, hflag⟩, hname⟩ := h
    exact ⟨e, he, hname, hflag⟩
  · intro h
    obtain ⟨e, he, hname, hflag⟩ := h
    exact ⟨e, ⟨he, hflag⟩, hname⟩

theorem flagged_iff_lookup :
    t.Flagged name ↔
      ∃ id row, t.rows.lookup id = some row ∧ row.name = name ∧ row.requiresAdminRole = true := by
  constructor
  · intro h
    obtain ⟨⟨id, row⟩, he, hname, hflag⟩ := h
    exact ⟨id, row, AList.mem_lookup_iff.mpr he, hname, hflag⟩
  · intro h
    obtain ⟨id, row, hlookup, hname, hflag⟩ := h
    exact ⟨⟨id, row⟩, AList.mem_lookup_iff.mp hlookup, hname, hflag⟩

/-- Rows of one name are one row. -/
theorem eq_of_name {id' : Int} {row' : ScopeRow} (h : t.rows.lookup id = some row)
    (h' : t.rows.lookup id' = some row') (hname : row.name = row'.name) : id = id' := by
  have heq := List.inj_on_of_nodup_map t.names_nodup (AList.mem_lookup_iff.mp h)
    (AList.mem_lookup_iff.mp h') hname
  cases heq
  rfl

/-- Only the row under one id may differ. -/
def SameElsewhere (id : Int) (t t' : ScopeTable) : Prop :=
  ∀ k, k ≠ id → t'.rows.lookup k = t.rows.lookup k

/-- Whether the rows under the id have the name and the flag. -/
def FlaggedAt (t : ScopeTable) (id : Int) (name : String) : Prop :=
  ∃ row ∈ t.rows.lookup id, row.name = name ∧ row.requiresAdminRole = true

theorem flagged_iff_of_sameElsewhere (hsame : SameElsewhere id t t')
    (hat : ∀ name, t'.FlaggedAt id name ↔ t.FlaggedAt id name) (name : String) :
    t'.Flagged name ↔ t.Flagged name := by
  have hk (k : Int) : t'.FlaggedAt k name ↔ t.FlaggedAt k name := by
    by_cases heq : k = id
    · subst heq
      exact hat name
    · rw [FlaggedAt, FlaggedAt, hsame k heq]
  simp only [flagged_iff_lookup]
  exact exists_congr hk

/-- A name under one id only: the flag there decides. -/
theorem flagged_iff_flaggedAt (h : t.rows.lookup id = some row) (hname : row.name = name) :
    t.Flagged name ↔ t.FlaggedAt id name := by
  rw [flagged_iff_lookup]
  constructor
  · intro hflagged
    obtain ⟨id', row', hlookup, hname', hflag⟩ := hflagged
    obtain rfl := eq_of_name h hlookup (hname.trans hname'.symm)
    exact ⟨row', hlookup, hname', hflag⟩
  · intro hat
    exact ⟨id, hat⟩

theorem insert_eq_some (h : t.insert id row = some t') :
    id ∉ t.rows ∧ ¬t.hasName row.name = true ∧ t'.rows = t.rows.insert id row := by
  unfold insert at h
  split at h
  · cases h
  · rename_i hfree
    obtain ⟨hid, hname⟩ := not_or.mp hfree
    obtain rfl := Option.some.inj h
    exact ⟨hid, hname, rfl⟩

theorem lookup_update {f : ScopeRow → ScopeRow} {hf : ∀ row, (f row).name = row.name} (k : Int) :
    (t.update id f hf).rows.lookup k = (t.rows.lookup k).map fun row => if k = id then f row else row :=
  Dict.lookup_mapValues _ _ k

theorem hasName_of_lookup (h : t.rows.lookup id = some row) : t.hasName row.name = true := by
  rw [hasName, decide_eq_true_eq, namesOf]
  exact List.mem_map_of_mem (f := fun e : Sigma fun _ => ScopeRow => e.2.name)
    (AList.mem_lookup_iff.mp h)

end ScopeTable

end AuthForge.Authz
