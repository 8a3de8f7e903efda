import AuthForge.Authz.ScopeCatalog

/-!
# The admin-scope set and the catalog

The set is loaded at the start and never again, so it agrees with the catalog exactly as long as no
operation changes which names are flagged.
-/

namespace AuthForge.AdminScopes

open Authz OAuth2
open ScopeTable

variable {s : ScopeServer} {t t' : ScopeTable} {env : ScopeEnv} {id : Int} {row : ScopeRow}
  {history : List ScopeReply}

/-- The set holds the names of the rows that require the admin role. -/
def Coherent (s : ScopeServer) : Prop := ∀ name, name ∈ s.adminScopes ↔ s.table.Flagged name

/-- The operation changes no flag: a row that is created has none, an update leaves it as it is, and
no row with a flag is deleted, unless the request is refused or the write fails. -/
def KeepsFlags : Guard ScopeServer ScopeInput ScopeReply := fun _ s i =>
  match i.operation with
  | .createScope body =>
    ∀ b ∈ body, b.requiresAdminRole = true → ∀ name ∈ b.name,
      name = "" ∨ s.table.hasName name = true ∨ i.env.newId ∈ s.table.rows ∨
        i.env.writeFails = true
  | .updateScope scopeId body =>
    ∀ b ∈ body, ∀ id ∈ stoi scopeId, ∀ row ∈ s.table.rows.lookup id,
      b.requiresAdminRole.getD row.requiresAdminRole = row.requiresAdminRole ∨
        i.env.lookupFails = true ∨ i.env.writeFails = true
  | .deleteScope scopeId =>
    ∀ id ∈ stoi scopeId, ∀ row ∈ s.table.rows.lookup id,
      row.requiresAdminRole = false ∨ row.name ∈ ScopeServer.builtInScopes ∨
        i.env.writeFails = true

/-! ### One change of the table -/

/-- The set stays what it was, so the flagged names have to. -/
theorem coherent_iff (hs : Coherent s) :
    Coherent { s with table := t } ↔ ∀ name, t.Flagged name ↔ s.table.Flagged name :=
  forall_congr' fun name => by rw [← hs name]; exact Iff.comm

theorem coherent_insert_iff (hs : Coherent s) (h : s.table.insert id row = some t) :
    Coherent { s with table := t } ↔ row.requiresAdminRole = false := by
  obtain ⟨hid, hname, hrows⟩ := insert_eq_some h
  have hnew : t.rows.lookup id = some row := by rw [hrows, AList.lookup_insert]
  have hsame : SameElsewhere id s.table t := by
    intro k hk
    rw [hrows, AList.lookup_insert_ne hk]
  have hold : s.table.rows.lookup id = none := AList.lookup_eq_none.mpr hid
  rw [coherent_iff hs]
  constructor
  · intro hflagged
    by_contra hflag
    have hadded : t.Flagged row.name :=
      flagged_iff_lookup.mpr ⟨id, row, hnew, rfl, by simpa using hflag⟩
    obtain ⟨k, row', hlookup, heq, -⟩ := flagged_iff_lookup.mp ((hflagged row.name).mp hadded)
    have := hasName_of_lookup hlookup
    rw [heq] at this
    exact hname this
  · intro hflag
    refine flagged_iff_of_sameElsewhere hsame ?_
    intro name
    simp [FlaggedAt, hnew, hold, hflag]

theorem coherent_update_iff {f : ScopeRow → ScopeRow} {hf : ∀ row, (f row).name = row.name}
    (hs : Coherent s) (hrow : s.table.rows.lookup id = some row) :
    Coherent { s with table := s.table.update id f hf } ↔
      (f row).requiresAdminRole = row.requiresAdminRole := by
  have hnew : (s.table.update id f hf).rows.lookup id = some (f row) := by
    rw [lookup_update, hrow, Option.map_some, if_pos rfl]
  have hsame : SameElsewhere id s.table (s.table.update id f hf) := by
    intro k hk
    simp only [lookup_update, if_neg hk, Option.map_id']
  rw [coherent_iff hs]
  constructor
  · intro hflagged
    have hat := hflagged row.name
    rw [flagged_iff_flaggedAt hnew (hf row), flagged_iff_flaggedAt hrow rfl] at hat
    simp only [FlaggedAt, hnew, hrow, Option.mem_def, Option.some.injEq, exists_eq_left', hf row,
      true_and] at hat
    exact Bool.eq_iff_iff.mpr hat
  · intro hflag
    refine flagged_iff_of_sameElsewhere hsame ?_
    intro name
    simp only [FlaggedAt, hnew, hrow, Option.mem_def, Option.some.injEq, exists_eq_left', hf row,
      hflag]

theorem coherent_delete_iff (hs : Coherent s) (hrow : s.table.rows.lookup id = some row) :
    Coherent { s with table := s.table.delete id } ↔ row.requiresAdminRole = false := by
  have hnew : (s.table.delete id).rows.lookup id = none := AList.lookup_erase _ _
  have hsame : SameElsewhere id s.table (s.table.delete id) := fun k hk => AList.lookup_erase_ne hk
  rw [coherent_iff hs]
  constructor
  · intro hflagged
    by_contra hflag
    have hwas : s.table.Flagged row.name :=
      flagged_iff_lookup.mpr ⟨id, row, hrow, rfl, by simpa using hflag⟩
    obtain ⟨k, row', hlookup, hname, -⟩ := flagged_iff_lookup.mp ((hflagged row.name).mpr hwas)
    have hk : k ≠ id := by
      intro heq
      rw [heq, hnew] at hlookup
      cases hlookup
    rw [hsame k hk] at hlookup
    exact hk (eq_of_name hlookup hrow hname)
  · intro hflag
    refine flagged_iff_of_sameElsewhere hsame ?_
    intro name
    simp [FlaggedAt, hnew, hrow, hflag]

/-! ### One operation -/

theorem createScope_coherent_iff {body : Option CreateScope} (hs : Coherent s) :
    Coherent (s.createScope env body).2 ↔
      KeepsFlags history s ⟨env, .createScope body⟩ := by
  unfold ScopeServer.createScope
  cases body with
  | none => exact iff_of_true hs (by simp [KeepsFlags])
  | some body =>
    cases hname : body.name with
    | none =>
      simp only [hname]
      exact iff_of_true hs (by simp [KeepsFlags, hname])
    | some name =>
      simp only [hname]
      split
      · rename_i hempty
        exact iff_of_true hs (by simp [KeepsFlags, hname, hempty])
      rename_i hne
      split
      · rename_i hconflict
        exact iff_of_true hs (by simp [KeepsFlags, hname, hconflict.2])
      unfold ScopeServer.insertScope
      split
      · rename_i hfails
        exact iff_of_true hs (by simp [KeepsFlags, hfails])
      rename_i hwrites
      split
      · rename_i hinsert
        refine iff_of_true hs ?_
        unfold ScopeTable.insert at hinsert
        split at hinsert
        · rename_i htaken
          simp only [KeepsFlags]
          intro b hb _ name' hname'
          obtain rfl := Option.some.inj hb
          rw [hname] at hname'
          obtain rfl := Option.some.inj hname'
          rcases htaken with hid | htaken
          · exact .inr (.inr (.inl hid))
          · exact .inr (.inl htaken)
        · cases hinsert
      · rename_i table hinsert
        refine (coherent_insert_iff hs hinsert).trans ?_
        obtain ⟨hid, hfree, -⟩ := insert_eq_some hinsert
        have hfree : ¬s.table.hasName name = true := hfree
        simp [KeepsFlags, CreateScope.row, hname, hne, hid, hwrites, hfree]

theorem updateScope_coherent_iff {scopeId : String} {body : Option UpdateScope} (hs : Coherent s) :
    Coherent (s.updateScope env scopeId body).2 ↔
      KeepsFlags history s ⟨env, .updateScope scopeId body⟩ := by
  unfold ScopeServer.updateScope
  cases body with
  | none => exact iff_of_true hs (by simp [KeepsFlags])
  | some body =>
    dsimp only
    split
    · rename_i hempty
      simp only [UpdateScope.isEmpty, Bool.and_eq_true, Option.isNone_iff_eq_none] at hempty
      exact iff_of_true hs (by simp [KeepsFlags, hempty.2])
    cases hid : stoi scopeId with
    | none => exact iff_of_true hs (by simp [KeepsFlags, hid])
    | some id =>
      dsimp only
      split
      · rename_i hmissing
        refine iff_of_true hs ?_
        rcases hmissing with hfails | hnone
        · simp [KeepsFlags, hfails]
        · simp [KeepsFlags, hid, hnone]
      rename_i hfound
      obtain ⟨hreads, hsome⟩ := not_or.mp hfound
      obtain ⟨row, hrow⟩ := Option.ne_none_iff_exists'.mp hsome
      split
      · rename_i hfails
        exact iff_of_true hs (by simp [KeepsFlags, hfails])
      rename_i hwrites
      refine (coherent_update_iff hs hrow).trans ?_
      simp [KeepsFlags, hid, hrow, hreads, hwrites, UpdateScope.apply]

theorem deleteScope_coherent_iff {scopeId : String} (hs : Coherent s) :
    Coherent (s.deleteScope env scopeId).2 ↔
      KeepsFlags history s ⟨env, .deleteScope scopeId⟩ := by
  unfold ScopeServer.deleteScope
  cases hid : stoi scopeId with
  | none => exact iff_of_true hs (by simp [KeepsFlags, hid])
  | some id =>
    dsimp only
    split
    · rename_i hfails
      exact iff_of_true hs (by simp [KeepsFlags, hfails])
    rename_i hwrites
    unfold ScopeServer.deletable
    cases hrow : s.table.rows.lookup id with
    | none => exact iff_of_true hs (by simp [KeepsFlags, hid, hrow])
    | some row =>
      dsimp only
      split
      · rename_i hbuiltIn
        have hmem : row.name ∈ ScopeServer.builtInScopes := by simpa using hbuiltIn
        exact iff_of_true hs (by simp [KeepsFlags, hid, hrow, hmem])
      · rename_i hbuiltIn
        refine (coherent_delete_iff hs hrow).trans ?_
        have hnot : row.name ∉ ScopeServer.builtInScopes := by simpa using hbuiltIn
        simp [KeepsFlags, hid, hrow, hwrites, hnot]

/-- An operation keeps set and catalog together exactly when it changes no flag. -/
theorem step_coherent_iff (hs : Coherent s) (i : ScopeInput) :
    Coherent (scopeCatalog.step s i).1 ↔ KeepsFlags history s i := by
  obtain ⟨env, operation⟩ := i
  cases operation with
  | createScope body => exact createScope_coherent_iff hs
  | updateScope scopeId body => exact updateScope_coherent_iff hs
  | deleteScope scopeId => exact deleteScope_coherent_iff hs

/-- The built-in set, which is used as long as no load has set another, is the one of the
catalog. -/
def DefaultFits (t : ScopeTable) : Prop := ∀ name, name ∈ defaultAdminScopes ↔ t.Flagged name

theorem start_coherent_iff {load : AdminScopeLoad} :
    Coherent (ScopeServer.start load t) ↔ (load.setsScopes = false → DefaultFits t) := by
  unfold ScopeServer.start
  cases load.setsScopes with
  | true => exact iff_of_true (fun name => mem_adminScopes) (by simp)
  | false =>
    have hdefault : Coherent ⟨t, defaultAdminScopes⟩ ↔ DefaultFits t := Iff.rfl
    simpa using hdefault

/-- From a start whose load reaches the service, the set agrees with the catalog in every run whose
operations change no flag; and the first one that does, breaks it. -/
theorem adminScopes_coherent {load : AdminScopeLoad}
    (hload : load.setsScopes = false → DefaultFits t)
    (hrun : scopeCatalog.Run KeepsFlags (ScopeServer.start load t) history s) :
    Coherent s ∧ ∀ i, Coherent (scopeCatalog.step s i).1 ↔ KeepsFlags history s i := by
  have hs : Coherent s := by
    refine hrun.invariant (fun _ s => Coherent s) (start_coherent_iff.mpr hload) ?_
    intro history s i _ hs hok
    exact (step_coherent_iff hs i).mpr hok
  exact ⟨hs, step_coherent_iff hs⟩

/-! ### Runs -/

instance (history : List ScopeReply) (s : ScopeServer) (i : ScopeInput) :
    Decidable (KeepsFlags history s i) :=
  match i with
  | ⟨env, .createScope body⟩ =>
    inferInstanceAs (Decidable (∀ b ∈ body, b.requiresAdminRole = true → ∀ name ∈ b.name,
      name = "" ∨ s.table.hasName name = true ∨ env.newId ∈ s.table.rows ∨ env.writeFails = true))
  | ⟨env, .updateScope scopeId body⟩ =>
    inferInstanceAs (Decidable (∀ b ∈ body, ∀ id ∈ stoi scopeId,
      ∀ row ∈ s.table.rows.lookup id,
        b.requiresAdminRole.getD row.requiresAdminRole = row.requiresAdminRole ∨
          env.lookupFails = true ∨ env.writeFails = true))
  | ⟨env, .deleteScope scopeId⟩ =>
    inferInstanceAs (Decidable (∀ id ∈ stoi scopeId, ∀ row ∈ s.table.rows.lookup id,
      row.requiresAdminRole = false ∨ row.name ∈ ScopeServer.builtInScopes ∨
        env.writeFails = true))

def knownTable : ScopeTable where
  rows := AList.insert 1 { name := "openid", isDefault := true }
    (AList.insert 2 { name := "admin", mappedRole := some "admin", requiresAdminRole := true } ∅)
  names_nodup := by decide

def executed (inputs : List ScopeInput) : List ScopeReply × ScopeServer :=
  scopeCatalog.exec [] (ScopeServer.start (.answered true) knownTable) inputs

/-- A scope comes and goes, and the built-in admin scope cannot be deleted. -/
def comesAndGoes : List ScopeInput :=
  [{ env := { newId := 3 }, operation := .createScope (some { name := some "reports" }) },
   { operation := .updateScope "3" (some { description := some "Reports" }) },
   { operation := .updateScope "2" (some { requiresAdminRole := some true }) },
   { operation := .deleteScope "2" }, { operation := .deleteScope "3" }]

theorem adminScopes_coherent_comesAndGoes :
    Coherent (executed comesAndGoes).2 ∧
      (executed comesAndGoes).1.head? = some (.success "Scope deleted successfully") := by
  obtain ⟨hguarded, hdeleted⟩ :
      scopeCatalog.Guarded KeepsFlags [] (ScopeServer.start (.answered true) knownTable)
          comesAndGoes ∧
        (executed comesAndGoes).1.head? = some (.success "Scope deleted successfully") := by
    decide +kernel
  refine ⟨?_, hdeleted⟩
  have hload : (AdminScopeLoad.answered true).setsScopes = false → DefaultFits knownTable := by
    simp [AdminScopeLoad.setsScopes]
  exact (adminScopes_coherent hload (.exec_of_guarded .init comesAndGoes hguarded)).1

def createdForAdmins : List ScopeInput :=
  [{ env := { newId := 3 }
     operation := .createScope (some { name := some "billing:write", requiresAdminRole := true }) }]

theorem createdForAdmins_not_coherent :
    scopeCatalog.Run anyStep (ScopeServer.start (.answered true) knownTable)
        (executed createdForAdmins).1 (executed createdForAdmins).2 ∧
      ¬Coherent (executed createdForAdmins).2 := by
  refine ⟨Machine.run_exec _ _ _, ?_⟩
  intro h
  obtain ⟨hmem, hnot⟩ : "billing:write" ∈ (executed createdForAdmins).2.table.adminScopes ∧
      "billing:write" ∉ (executed createdForAdmins).2.adminScopes := by
    decide +kernel
  exact hnot ((h _).mpr (mem_adminScopes.mp hmem))

end AuthForge.AdminScopes
