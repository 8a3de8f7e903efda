import AuthForge.Proof.MigrationAtomicity

/-!
# What a pass that answers true leaves behind

One pass over a database in any state. Versions are tracked and files are executed, and what a file
executes is committed only if no `ROLLBACK` takes it back. So a directory is complete after the pass
exactly if the statements that were committed before and those that the pass commits are each file's
own. Where no file says `ROLLBACK`, this is that number and file have gone together so far, and that
each number that is still open has a file with something in it.
-/

namespace AuthForge.MigrationCompleteness

open Schema MigrationAtomicity
open Ascii (Bytes)
open Splitter (splitSqlStatements)

variable (sha256Hex : Bytes → String) (sql : Sql)

/-! ### What the files of a pass amount to -/

/-- What others see of the tracking table and of the executed statements, and the transaction of the
pass. -/
structure Session where
  rows : Option (List Row)
  log : List ExecutedStatement := []
  transaction : Transaction := {}

namespace Session

variable (σ : Session)

def keep : Option Work × Transaction → Session
  | (none, t) => { σ with transaction := t }
  | (some w, t) => ⟨w.publishedRows σ.rows, σ.log ++ w.executed, t⟩

/-- `none` if the statement controls a transaction where this is an error. -/
def execute (file : MigrationFile) (statement : Bytes) : Option Session :=
  (σ.transaction.executes sql σ.rows ⟨file, statement⟩).map σ.keep

def record (row : Row) : Session := σ.keep (σ.transaction.recording row).settled

def script (file : MigrationFile) (statements : List Bytes) : Option Session :=
  statements.foldlM (fun σ statement => execute sql σ file statement) σ

def applyFile (file : MigrationFile) : Option Session :=
  match file.content with
  | none => none
  | some text =>
    if text = [] then some σ
    else (σ.script sql file (splitSqlStatements text)).map
      fun σ => σ.record (rowOf sha256Hex file text)

def applyFiles (files : List MigrationFile) : Option Session :=
  files.foldlM (applyFile sha256Hex sql) σ

def committed : Session := σ.keep (some σ.transaction.toWork, σ.transaction)

end Session

/-- The session of a pass before its first file. -/
def begun (rows : Option (List Row)) : Session := ⟨rows, [], { createdTable := true }⟩

/-- What others see after a pass over the files. -/
def afterFiles (rows : Option (List Row)) (files : List MigrationFile) : Option Session :=
  ((begun rows).applyFiles sha256Hex sql files).map Session.committed

def unrecorded (applied : List Int) (files : List MigrationFile) : List MigrationFile :=
  files.filter (·.version ∉ applied)

theorem statementsOf_of_empty {file : MigrationFile} (h : file.content = some []) :
    statementsOf file = [] := by
  rw [statementsOf, h]
  dsimp only
  rw [splitSqlStatements, Splitter.splitFrom]
  rfl

variable {sha256Hex sql}

theorem applyFiles_of_empty {files : List MigrationFile}
    (h : ∀ file ∈ files, file.content = some []) (σ : Session) :
    σ.applyFiles sha256Hex sql files = some σ := by
  induction files with
  | nil => rfl
  | cons file rest ih =>
    have hfirst : σ.applyFile sha256Hex sql file = some σ := by
      rw [Session.applyFile, h file List.mem_cons_self]
      rfl
    rw [Session.applyFiles, List.foldlM_cons, hfirst]
    exact ih fun f hf => h f (List.mem_cons_of_mem _ hf)

/-! ### One transaction -/

variable {db s : Database} {σ : Session}

/-- The newest transaction is open. -/
def Open (db s : Database) : Prop := ∃ t, s.transactions = db.transactions ++ [t] ∧ t.isOpen = true

/-- The database is where the session is. -/
structure Running (db : Database) (σ : Session) (s : Database) : Prop where
  rows : s.rows = σ.rows
  executed : s.executed.map Prod.snd = db.executed.map Prod.snd ++ σ.log
  transactions : s.transactions = db.transactions ++ [σ.transaction]
  isOpen : σ.transaction.isOpen = true
  failed : σ.transaction.failed = false

/-- The newest transaction has failed before it did anything. -/
structure Failing (db s : Database) : Prop where
  rows : s.rows = db.rows
  executed : s.executed = db.executed
  transactions : ∃ t, s.transactions = db.transactions ++ [t] ∧ t.isOpen = true ∧ t.failed = true

theorem Running.open (h : Running db σ s) : Open db s := ⟨_, h.transactions, h.isOpen⟩

theorem Failing.open (h : Failing db s) : Open db s :=
  h.transactions.imp fun _ ht => ⟨ht.1, ht.2.1⟩

section Newest

variable {t : Transaction} (hs : s.transactions = db.transactions ++ [t])
include hs

theorem getElem?_newest : s.transactions[db.transactions.length]? = some t := by
  rw [hs]
  exact List.getElem?_concat_length

theorem transactions_setTransaction (t' : Transaction) :
    (s.setTransaction db.transactions.length t').transactions = db.transactions ++ [t'] := by
  rw [Database.setTransaction, hs]
  simp

/-- A statement in the newest transaction fails, or does its work there. -/
theorem inTransaction_newest {β : Type} {env : SqlEnv} {failure : β}
    {f : Transaction → Option (β × Option Work × Transaction)} {P : β → Database → Prop}
    (hopen : t.isOpen = true)
    (hfailure : P failure (s.setTransaction db.transactions.length { t with failed := true }))
    (hdone : ∀ answer done, t.failed = false → f t = some (answer, done) →
      P answer (s.keep db.transactions.length done)) :
    P (s.inTransaction db.transactions.length env failure f).1
      (s.inTransaction db.transactions.length env failure f).2 := by
  unfold Database.inTransaction
  rw [getElem?_newest hs]
  dsimp only
  rw [if_neg (by rw [hopen]; exact Bool.noConfusion)]
  split
  · exact hfailure
  · rename_i answer done hresult
    split at hresult
    · cases hresult
    · rename_i hok
      simp only [not_or, Bool.not_eq_true] at hok
      exact hdone answer done hok.2 hresult

end Newest

theorem Running.openAfterFailure (h : Running db σ s) :
    Open db (s.setTransaction db.transactions.length { σ.transaction with failed := true }) :=
  ⟨_, transactions_setTransaction h.transactions _, h.isOpen⟩

/-- The session goes along with what a statement did. -/
theorem Running.keep (h : Running db σ s) {done : Option Work × Transaction}
    (hopen : done.2.isOpen = σ.transaction.isOpen)
    (hfailed : done.2.failed = σ.transaction.failed) :
    Running db (σ.keep done) (s.keep db.transactions.length done) := by
  obtain ⟨published, t⟩ := done
  cases published with
  | none =>
    exact ⟨h.rows, h.executed, transactions_setTransaction h.transactions t, hopen.trans h.isOpen,
      hfailed.trans h.failed⟩
  | some w =>
    refine ⟨congrArg w.publishedRows h.rows, ?_, transactions_setTransaction h.transactions t,
      hopen.trans h.isOpen, hfailed.trans h.failed⟩
    change (s.executed ++ w.executed.map (db.transactions.length, ·)).map Prod.snd = _
    rw [List.map_append, List.map_map, h.executed, List.append_assoc]
    exact congrArg (fun log => db.executed.map Prod.snd ++ (σ.log ++ log)) (List.map_id _)

/-! ### What a statement leaves of its transaction -/

section Statement

variable {t : Transaction} {e : ExecutedStatement} {done : Option Work × Transaction}

theorem settled_isOpen (t : Transaction) :
    t.settled.2.isOpen = t.isOpen ∧ t.settled.2.failed = t.failed := by
  unfold Transaction.settled
  split <;> exact ⟨rfl, rfl⟩

/-- No statement closes the connection's transaction object, and none that succeeds fails it. -/
theorem executes_isOpen {rows : Option (List Row)} (h : t.executes sql rows e = some done) :
    done.2.isOpen = t.isOpen ∧ done.2.failed = t.failed := by
  unfold Transaction.executes at h
  split at h
  · obtain rfl := Option.some.inj h
    exact settled_isOpen _
  rename_i c _
  cases c with
  | begin =>
    obtain rfl := Option.some.inj h
    exact ⟨rfl, rfl⟩
  | commit chain | rollback chain =>
    simp only [Transaction.control] at h
    split at h
    · cases h
    · obtain rfl := Option.some.inj h
      exact ⟨rfl, rfl⟩
  | savepoint name =>
    simp only [Transaction.control] at h
    split at h
    · obtain rfl := Option.some.inj h
      exact ⟨rfl, rfl⟩
    · cases h
  | rollbackTo name | release name =>
    simp only [Transaction.control] at h
    split at h
    · cases h
    · obtain rfl := Option.some.inj h
      exact ⟨rfl, rfl⟩

end Statement

section Operations

variable (sql) (env : SqlEnv)

theorem exec_execute (file : MigrationFile) (statement : Bytes) (h : Running db σ s) :
    let r := Database.exec sql env (.execute db.transactions.length file statement) s
    (r.1 = false ∧ Open db r.2) ∨
      (r.1 = true ∧ ∃ σ', σ.execute sql file statement = some σ' ∧ Running db σ' r.2) := by
  refine inTransaction_newest (P := fun answer s' => (answer = false ∧ Open db s') ∨
    (answer = true ∧ ∃ σ', σ.execute sql file statement = some σ' ∧ Running db σ' s'))
    h.transactions h.isOpen (.inl ⟨rfl, h.openAfterFailure⟩) ?_
  intro answer done _ hresult
  split at hresult
  · obtain ⟨done', hdone, heq⟩ := Option.map_eq_some_iff.mp hresult
    obtain ⟨rfl, rfl⟩ := Prod.mk.inj heq
    rw [h.rows] at hdone
    obtain ⟨hopen, hfailed⟩ := executes_isOpen hdone
    exact .inr ⟨rfl, σ.keep done', congrArg (Option.map σ.keep) hdone, h.keep hopen hfailed⟩
  · cases hresult

theorem exec_insertVersion (row : Row) (h : Running db σ s) :
    let r := Database.exec sql env (.insertVersion db.transactions.length row) s
    (r.1 = false ∧ Open db r.2) ∨ (r.1 = true ∧ Running db (σ.record row) r.2) := by
  refine inTransaction_newest (P := fun answer s' => (answer = false ∧ Open db s') ∨
    (answer = true ∧ Running db (σ.record row) s'))
    h.transactions h.isOpen (.inl ⟨rfl, h.openAfterFailure⟩) ?_
  intro answer done _ hresult
  split at hresult
  · obtain ⟨rfl, rfl⟩ := Prod.mk.inj (Option.some.inj hresult)
    obtain ⟨hopen, hfailed⟩ := settled_isOpen (σ.transaction.recording row)
    exact .inr ⟨rfl, h.keep hopen hfailed⟩
  · cases hresult

/-- A failed transaction refuses every statement. -/
theorem Failing.refuses (h : Failing db s)
    {f : Transaction → Option (Bool × Option Work × Transaction)} :
    (s.inTransaction db.transactions.length env false f).1 = false ∧
      Open db (s.inTransaction db.transactions.length env false f).2 := by
  obtain ⟨t, ht, hopen, hfailed⟩ := h.transactions
  refine inTransaction_newest (P := fun answer s' => answer = false ∧ Open db s') ht hopen
    ⟨rfl, _, transactions_setTransaction ht _, hopen⟩ ?_
  intro answer done hlive
  rw [hfailed] at hlive
  cases hlive

/-- The table and the log after a pass, as others see them. -/
def Shows (db : Database) (σ : Session) (s : Database) : Prop :=
  s.rows.getD [] = σ.rows.getD [] ∧
    s.executed.map Prod.snd = db.executed.map Prod.snd ++ σ.log

theorem exec_commit (h : Running db σ s) :
    let r := Database.exec sql env (.commit db.transactions.length) s
    r.1 = true → Shows db σ.committed r.2 := by
  intro r
  change (s.commit db.transactions.length env).1 = true →
    Shows db σ.committed (s.commit db.transactions.length env).2
  unfold Database.commit
  rw [getElem?_newest h.transactions]
  dsimp only
  rw [if_neg (by rw [h.isOpen]; exact Bool.noConfusion),
    if_neg (by rw [h.failed]; exact Bool.noConfusion)]
  split
  · exact nofun
  intro _
  -- the work is published alike, whether the transaction is closed after it or not
  have hkept : Running db σ.committed
      (s.keep db.transactions.length (some σ.transaction.toWork, σ.transaction)) := h.keep rfl rfl
  exact ⟨congrArg (Option.getD · []) hkept.rows, hkept.executed⟩

theorem exec_commit_failing (h : Failing db s) :
    Shows db (begun db.rows).committed
      (Database.exec sql env (.commit db.transactions.length) s).2 := by
  obtain ⟨t, ht, hopen, hfailed⟩ := h.transactions
  change Shows db _ (s.commit db.transactions.length env).2
  unfold Database.commit
  rw [getElem?_newest ht]
  dsimp only
  rw [if_neg (by rw [hopen]; exact Bool.noConfusion), if_pos hfailed]
  refine ⟨?_, ?_⟩
  · change s.rows.getD [] = db.rows.getD []
    rw [h.rows]
  change s.executed.map Prod.snd = db.executed.map Prod.snd ++ ([] ++ [])
  rw [h.executed, List.append_nil, List.append_nil]

end Operations

/-! ### The pass -/

section Pass

variable {Q : Reply → Database → Prop} {k : Bool → SchemaProg}
  (hfalse : ∀ s, Open db s → (k false).Post (Database.exec sql) Q s)
include hfalse

theorem post_executeStatements {file : MigrationFile} {statements : List Bytes}
    (htrue : ∀ σ' s, σ.script sql file statements = some σ' → Running db σ' s →
      (k true).Post (Database.exec sql) Q s)
    (hs : Running db σ s) :
    (executeStatements db.transactions.length file k statements).Post (Database.exec sql) Q s := by
  induction statements generalizing σ s with
  | nil => exact htrue σ s rfl hs
  | cons statement rest ih =>
    intro env
    rcases exec_execute sql env file statement hs with ⟨hr, hopen⟩ | ⟨hr, σ', hσ', hs'⟩
    · rw [hr]
      exact hfalse _ hopen
    · rw [hr]
      refine ih ?_ hs'
      intro σ'' s hscript
      refine htrue σ'' s ?_
      rw [Session.script, List.foldlM_cons, hσ']
      exact hscript

theorem post_applyMigration {file : MigrationFile}
    (htrue : ∀ σ' s, σ.applyFile sha256Hex sql file = some σ' → Running db σ' s →
      (k true).Post (Database.exec sql) Q s)
    (hs : Running db σ s) :
    (applyMigration sha256Hex db.transactions.length file k).Post (Database.exec sql) Q s := by
  unfold applyMigration
  split
  · exact hfalse s hs.open
  rename_i text htext
  split
  · rename_i hempty
    refine htrue σ s ?_ hs
    rw [Session.applyFile, htext]
    exact if_pos hempty
  rename_i hne
  refine post_executeStatements ?_ ?_ hs
  · exact hfalse
  intro σ' s hscript hs env
  rcases exec_insertVersion sql env (rowOf sha256Hex file text) hs with
    ⟨hr, hopen⟩ | ⟨hr, hs'⟩
  · rw [hr]
    exact hfalse _ hopen
  · rw [hr]
    refine htrue _ _ ?_ hs'
    rw [Session.applyFile, htext]
    dsimp only
    rw [if_neg hne, hscript]
    rfl

theorem post_applyMigrations {applied : List Int} {files : List MigrationFile}
    (htrue : ∀ σ' s, σ.applyFiles sha256Hex sql (unrecorded applied files) = some σ' →
      Running db σ' s → (k true).Post (Database.exec sql) Q s)
    (hs : Running db σ s) :
    (applyMigrations sha256Hex db.transactions.length applied k files).Post (Database.exec sql) Q
      s := by
  induction files generalizing σ s with
  | nil => exact htrue σ s rfl hs
  | cons file rest ih =>
    rw [applyMigrations]
    split
    · rename_i hmem
      have hskip : unrecorded applied (file :: rest) = unrecorded applied rest := by
        simp [unrecorded, hmem]
      rw [hskip] at htrue
      exact ih htrue hs
    · rename_i hmem
      have hfirst : unrecorded applied (file :: rest) = file :: unrecorded applied rest := by
        simp [unrecorded, hmem]
      rw [hfirst] at htrue
      refine post_applyMigration ?_ ?_ hs
      · exact hfalse
      intro σ' s hfile hs
      refine ih ?_ hs
      intro σ'' s hrest
      refine htrue σ'' s ?_
      rw [Session.applyFiles, List.foldlM_cons, hfile]
      exact hrest

/-- In a failed transaction a pass goes on as long as the files are empty. -/
theorem post_applyMigration_failing {file : MigrationFile}
    (htrue : file.content = some [] → (k true).Post (Database.exec sql) Q s)
    (hs : Failing db s) :
    (applyMigration sha256Hex db.transactions.length file k).Post (Database.exec sql) Q s := by
  unfold applyMigration
  split
  · exact hfalse s hs.open
  rename_i text htext
  split
  · rename_i hempty
    rw [hempty] at htext
    exact htrue htext
  cases splitSqlStatements text with
  | nil =>
    intro env
    obtain ⟨hr, hopen⟩ := hs.refuses env
    exact hr.symm ▸ hfalse _ hopen
  | cons statement rest =>
    intro env
    obtain ⟨hr, hopen⟩ := hs.refuses env
    exact hr.symm ▸ hfalse _ hopen

theorem post_applyMigrations_failing {files : List MigrationFile}
    (htrue : (∀ file ∈ files, file.content = some []) → (k true).Post (Database.exec sql) Q s)
    (hs : Failing db s) :
    (applyMigrations sha256Hex db.transactions.length [] k files).Post (Database.exec sql) Q s := by
  induction files with
  | nil => exact htrue nofun
  | cons file rest ih =>
    rw [applyMigrations, if_neg List.not_mem_nil]
    refine post_applyMigration_failing ?_ ?_ hs
    · exact hfalse
    intro hempty
    refine ih ?_
    intro hrest
    refine htrue ?_
    intro f hf
    rcases List.mem_cons.mp hf with rfl | hf
    · exact hempty
    · exact hrest f hf

end Pass

/-- What others see after a pass over the files has been answered with true. -/
abbrev afterPass (sha256Hex : Bytes → String) (sql : Sql) (db : Database)
    (files : List MigrationFile) : Option Session :=
  afterFiles sha256Hex sql db.rows (unrecorded (versions (db.rows.getD [])) files)

/-- What a pass over the files comes to: the unrecorded ones were applied, if it answers true. -/
def Effect (sha256Hex : Bytes → String) (sql : Sql) (db : Database) (files : List MigrationFile)
    (reply : Reply) (s : Database) : Prop :=
  reply = .migrated true → ∃ σ, afterPass sha256Hex sql db files = some σ ∧ Shows db σ s

section Files

variable {files : List MigrationFile}

theorem post_rollbackAndReturn (tx : Nat) (s : Database) :
    (rollbackAndReturn tx).Post (Database.exec sql) (Effect sha256Hex sql db files) s :=
  fun _ => nofun

theorem unrecorded_congr {applied applied' : List Int} (h : ∀ v, v ∈ applied ↔ v ∈ applied') :
    unrecorded applied files = unrecorded applied' files := by
  unfold unrecorded
  refine List.filter_congr ?_
  intro file _
  rw [decide_not, decide_not, decide_eq_decide.mpr (h file.version)]

theorem post_finish_running {reported : List Int}
    (hreported : ∀ v, v ∈ reported ↔ v ∈ versions (db.rows.getD []))
    (hσ : (begun db.rows).applyFiles sha256Hex sql (unrecorded reported files) = some σ)
    (hs : Running db σ s) :
    (finish db.transactions.length true).Post (Database.exec sql) (Effect sha256Hex sql db files)
      s := by
  intro env hcommitted
  rw [unrecorded_congr hreported] at hσ
  exact ⟨σ.committed, congrArg (Option.map Session.committed) hσ,
    exec_commit sql env hs (Reply.migrated.inj hcommitted)⟩

theorem post_finish_failing (hempty : ∀ file ∈ files, file.content = some [])
    (hs : Failing db s) :
    (finish db.transactions.length true).Post (Database.exec sql) (Effect sha256Hex sql db files)
      s := by
  intro env _
  have hnone : ∀ file ∈ unrecorded (versions (db.rows.getD [])) files, file.content = some [] :=
    fun file hfile => hempty file (List.mem_filter.mp hfile).1
  exact ⟨_, congrArg (Option.map Session.committed) (applyFiles_of_empty hnone _),
    exec_commit_failing sql env hs⟩

theorem exec_newTransaction (sql : Sql) (env : SqlEnv) (db : Database) :
    (Database.exec sql env .newTransaction db).1 = none ∨
    Database.exec sql env .newTransaction db =
      (some db.transactions.length, { db with transactions := db.transactions ++ [{}] }) := by
  simp only [Database.exec]
  split
  · exact .inl rfl
  · exact .inr rfl

theorem running_begun (db : Database) :
    Running db (begun db.rows)
      { db with transactions := db.transactions ++ [{ createdTable := true }] } :=
  ⟨rfl, (List.append_nil _).symm, rfl, rfl, rfl⟩

theorem exec_ensureMigrationsTable (sql : Sql) (env : SqlEnv) (db : Database)
    (h : s = { db with transactions := db.transactions ++ [{}] }) :
    let r := Database.exec sql env (.ensureMigrationsTable (some db.transactions.length)) s
    r.1 = false ∨
      (r.1 = true ∧
        r.2 = { db with transactions := db.transactions ++ [{ createdTable := true }] }) := by
  subst h
  refine inTransaction_newest (P := fun answer s => answer = false ∨ (answer = true ∧
    s = { db with transactions := db.transactions ++ [{ createdTable := true }] }))
    rfl rfl (.inl rfl) ?_
  intro answer done _ hresult
  obtain ⟨rfl, rfl⟩ := Prod.mk.inj (Option.some.inj hresult)
  refine .inr ⟨rfl, ?_⟩
  change Database.setTransaction _ _ _ = _
  simp [Database.setTransaction]

/-- The query of the recorded versions answers them, or it ends the transaction for good. -/
theorem exec_selectVersions (sql : Sql) (env : SqlEnv)
    (h : s = { db with transactions := db.transactions ++ [{ createdTable := true }] }) :
    let r := Database.exec sql env (.selectVersions db.transactions.length) s
    (r.1 = none ∧ Failing db r.2) ∨
      ∃ reported, r.1 = some reported ∧ (∀ v, v ∈ reported ↔ v ∈ versions (db.rows.getD [])) ∧
        Running db (begun db.rows) r.2 := by
  subst h
  have hs := running_begun db
  refine inTransaction_newest (P := fun answer s => (answer = none ∧ Failing db s) ∨
      ∃ reported, answer = some reported ∧
        (∀ v, v ∈ reported ↔ v ∈ versions (db.rows.getD [])) ∧ Running db (begun db.rows) s)
    hs.transactions rfl
    (.inl ⟨rfl, rfl, rfl, _, transactions_setTransaction hs.transactions _, rfl, rfl⟩) ?_
  intro answer done _ hresult
  split at hresult
  · obtain ⟨rfl, rfl⟩ := Prod.mk.inj (Option.some.inj hresult)
    refine .inr ⟨_, rfl, fun v => (List.perm_insertionSort _ _).mem_iff, ?_⟩
    exact ⟨rfl, hs.executed, transactions_setTransaction hs.transactions _, rfl, rfl⟩
  · cases hresult

theorem post_migrateFiles :
    (migrateFiles sha256Hex files).Post (Database.exec sql) (Effect sha256Hex sql db files) db := by
  intro env
  rcases exec_newTransaction sql env db with hr | hr
  · rw [hr]
    exact nofun
  rw [hr]
  intro env
  rcases exec_ensureMigrationsTable sql env db rfl with hr | ⟨hr, hs⟩
  · rw [hr]
    exact post_rollbackAndReturn _ _
  rw [hr]
  intro env
  rcases exec_selectVersions sql env hs with
    ⟨hr, hfailing⟩ | ⟨reported, hr, hreported, hrunning⟩
  · rw [hr]
    refine post_applyMigrations_failing (fun s _ => post_rollbackAndReturn _ _) ?_ hfailing
    exact fun hempty => post_finish_failing hempty hfailing
  · rw [hr]
    refine post_applyMigrations (fun s _ => post_rollbackAndReturn _ _) ?_ hrunning
    exact fun σ s hσ hs => post_finish_running hreported hσ hs

end Files

/-- A pass that answers true has applied the unrecorded files and nothing else. -/
theorem post_migrate (sha256Hex : Bytes → String) (sql : Sql) (db : Database) (dir : Directory) :
    (migrate sha256Hex dir).Post (Database.exec sql)
      (Effect sha256Hex sql db (filesOf dir)) db := by
  unfold migrate filesOf
  split
  · exact nofun
  · rename_i hscan
    intro env htrue
    rw [hscan]
    refine ⟨_, rfl, ?_⟩
    simp only [Database.exec]
    split
    · exact ⟨rfl, (List.append_nil _).symm⟩
    · exact ⟨rfl, (List.append_nil _).symm⟩
  · rename_i hscan
    rw [hscan]
    exact post_migrateFiles

/-! ### Complete directories -/

/-- The statements of the file in a log. -/
def statementsIn (file : MigrationFile) (log : List ExecutedStatement) : List Bytes :=
  log.filterMap fun e => if e.file = file then some e.statement else none

def executedOf (file : MigrationFile) (db : Database) : List Bytes :=
  statementsIn file (db.executed.map Prod.snd)

/-- Nothing is pending, and every file has had its statements committed once. -/
def Complete (sql : Sql) (dir : Directory) (db : Database) : Prop :=
  (Prog.eval (Database.exec sql) (fun _ => {}) 0 (countPendingMigrations dir) db).1 = .pending 0 ∧
    ∀ file ∈ filesOf dir, executedOf file db = statementsOf file

def Recorded (file : MigrationFile) (db : Database) : Prop :=
  file.version ∈ versions (db.rows.getD [])

/-- The pass leaves a row for every number; and what was committed of a file before it, with what it
commits itself, are the file's statements. -/
def Kept (sha256Hex : Bytes → String) (sql : Sql) (dir : Directory) (db : Database) : Prop :=
  ∃ σ, afterPass sha256Hex sql db (filesOf dir) = some σ ∧ ∀ file ∈ filesOf dir,
    file.version ∈ versions (σ.rows.getD []) ∧
      executedOf file db ++ statementsIn file σ.log = statementsOf file

theorem countUnapplied_eq_zero_iff {files : List MigrationFile} {applied : List Int} :
    countUnapplied files applied = 0 ↔ ∀ file ∈ files, file.version ∈ applied := by
  simp [countUnapplied, List.filter_eq_nil_iff]

theorem countPendingMigrations_of_scan {dir : Directory} {files : List MigrationFile}
    (hscan : scanMigrationFiles dir = some files) :
    (Prog.eval (Database.exec sql) (fun _ => {}) 0 (countPendingMigrations dir) db).1 =
      .pending (countUnapplied files (versions (db.rows.getD []))) := by
  unfold countPendingMigrations
  rw [hscan]
  cases files with
  | nil => rfl
  | cons file rest =>
    cases hrows : db.rows with
    | none => simp [Prog.eval, Database.exec, hrows, countUnapplied, versions]
    | some rows => simp [Prog.eval, Database.exec, hrows, versions]

theorem pending_eq_zero_iff {dir : Directory} (hscan : (scanMigrationFiles dir).isSome) :
    (Prog.eval (Database.exec sql) (fun _ => {}) 0 (countPendingMigrations dir) db).1 = .pending 0 ↔
      ∀ file ∈ filesOf dir, Recorded file db := by
  obtain ⟨files, hfiles⟩ := Option.isSome_iff_exists.mp hscan
  rw [countPendingMigrations_of_scan hfiles, filesOf, hfiles, Option.getD_some, Reply.pending.injEq]
  exact countUnapplied_eq_zero_iff

/-! ### The files of a directory are different files -/

theorem filename_of_migrationFile {e : DirectoryEntry} {file : MigrationFile}
    (h : migrationFile e = some file) : file.filename = e.filename := by
  obtain ⟨version, -, rfl⟩ := Option.map_eq_some_iff.mp h
  rfl

theorem filenames_of_mapM {entries : List DirectoryEntry} {files : List MigrationFile}
    (h : entries.mapM migrationFile = some files) :
    files.map MigrationFile.filename = entries.map DirectoryEntry.filename := by
  induction entries generalizing files with
  | nil =>
    obtain rfl := Option.some.inj h
    rfl
  | cons e rest ih =>
    rw [List.mapM_cons] at h
    obtain ⟨file, hfile, h⟩ := Option.bind_eq_some_iff.mp h
    obtain ⟨files', hfiles, h⟩ := Option.bind_eq_some_iff.mp h
    obtain rfl := Option.some.inj h
    rw [List.map_cons, List.map_cons, filename_of_migrationFile hfile, ih hfiles]

theorem nodup_filesOf (dir : Directory) : (filesOf dir).Nodup := by
  unfold filesOf scanMigrationFiles
  cases h : (dir.entries.filter isMigration).mapM migrationFile with
  | none => exact List.nodup_nil
  | some files =>
    have hnames : (files.map MigrationFile.filename).Nodup := by
      rw [filenames_of_mapM h]
      exact dir.distinct.sublist (List.filter_sublist.map _)
    exact (List.perm_insertionSort _ files).nodup_iff.mpr (List.Nodup.of_map _ hnames)

theorem isSome_of_migrated {dir : Directory} {env : Nat → SqlEnv} {ok : Bool}
    (h : (Prog.eval (Database.exec sql) env 0 (migrate sha256Hex dir) db).1 = .migrated ok) :
    (scanMigrationFiles dir).isSome := by
  unfold migrate at h
  split at h
  · cases h
  · rename_i hscan
    rw [hscan]
    rfl
  · rename_i hscan
    rw [hscan]
    rfl

/-- A directory is complete after a pass that answers true if and only if its files are kept. -/
theorem complete_iff_kept {dir : Directory} {env : Nat → SqlEnv}
    (htrue : (Prog.eval (Database.exec sql) env 0 (migrate sha256Hex dir) db).1 = .migrated true) :
    Complete sql dir (Prog.eval (Database.exec sql) env 0 (migrate sha256Hex dir) db).2.1 ↔
      Kept sha256Hex sql dir db := by
  obtain ⟨σ, hσ, hrows, hlog⟩ := (post_migrate sha256Hex sql db dir).eval env 0 htrue
  have hexecuted : ∀ file, executedOf file
      (Prog.eval (Database.exec sql) env 0 (migrate sha256Hex dir) db).2.1 =
        executedOf file db ++ statementsIn file σ.log := by
    intro file
    unfold executedOf statementsIn
    rw [hlog, List.filterMap_append]
  unfold Complete
  rw [pending_eq_zero_iff (isSome_of_migrated htrue)]
  unfold Recorded
  rw [hrows]
  constructor
  · rintro ⟨hrecorded, hstatements⟩
    refine ⟨σ, hσ, fun file hfile => ⟨hrecorded file hfile, ?_⟩⟩
    rw [← hexecuted]
    exact hstatements file hfile
  · rintro ⟨σ', hσ', hkept⟩
    rw [hσ] at hσ'
    obtain rfl := Option.some.inj hσ'
    refine ⟨fun file hfile => (hkept file hfile).1, fun file hfile => ?_⟩
    rw [hexecuted]
    exact (hkept file hfile).2

/-! ### Files that take nothing back -/

/-- The statement is neither a `ROLLBACK` nor a `ROLLBACK TO`. -/
structure Forward (sql : Sql) (statement : Bytes) : Prop where
  rollback : ∀ chain, sql statement ≠ .control (.rollback chain)
  rollbackTo : ∀ name, sql statement ≠ .control (.rollbackTo name)

def ForwardDirectory (sql : Sql) (dir : Directory) : Prop :=
  ∀ file ∈ filesOf dir, ∀ statement ∈ statementsOf file, Forward sql statement

theorem Uncontrolled.forward {statement : Bytes} (h : Uncontrolled sql statement) :
    Forward sql statement := by
  obtain ⟨w, hw⟩ := h
  exact ⟨fun _ => by rw [hw]; exact nofun, fun _ => by rw [hw]; exact nofun⟩

section Table

variable (sha256Hex : Bytes → String) (sql : Sql)

def tableAfterScript (rows : List Row) (statements : List Bytes) : List Row :=
  statements.foldl (fun rows statement => (sql.writesOf statement rows).applyTo rows) rows

def tableAfterFile (rows : List Row) (file : MigrationFile) : List Row :=
  match file.content with
  | none => rows
  | some text =>
    if text = [] then rows
    else tableAfterScript sql rows (splitSqlStatements text) ++ [rowOf sha256Hex file text]

/-- The rows of the tracking table after the files have been applied. -/
def tableAfter (rows : List Row) (files : List MigrationFile) : List Row :=
  files.foldl (tableAfterFile sha256Hex sql) rows

end Table

/-- The statements of the files, in order. -/
def logOf (files : List MigrationFile) : List ExecutedStatement :=
  files.flatMap fun file => (statementsOf file).map (⟨file, ·⟩)

theorem logOf_cons (file : MigrationFile) (files : List MigrationFile) :
    logOf (file :: files) = (statementsOf file).map (⟨file, ·⟩) ++ logOf files := rfl

variable {rows : List Row} {log : List ExecutedStatement}

/-- What the transaction would publish, and what it has published: the rows and the statements. -/
structure Steady (σ : Session) (rows : List Row) (log : List ExecutedStatement) : Prop where
  table : σ.transaction.tableIn σ.rows = true
  view : σ.transaction.view σ.rows = rows
  log : σ.log ++ σ.transaction.executed = log

section Steadiness

variable {t t' : Transaction}

/-- Work that is published is not lost. -/
theorem steady_published (htable : t.tableIn σ.rows = true) (ht' : t'.toWork = {}) :
    Steady (σ.keep (some t.toWork, t')) (t.view σ.rows) (σ.log ++ t.executed) := by
  have hrows : t.publishedRows σ.rows = some (t.view σ.rows) := if_pos htable
  refine ⟨?_, ?_, ?_⟩
  · change t'.toWork.tableIn (t.publishedRows σ.rows) = true
    rw [hrows]
    exact Bool.or_true _
  · change t'.toWork.view (t.publishedRows σ.rows) = _
    rw [ht', hrows]
    rfl
  · change σ.log ++ t.executed ++ t'.toWork.executed = _
    rw [ht', List.append_nil]

theorem steady_unpublished (htable : t.tableIn σ.rows = true) (ht' : t'.toWork = t.toWork) :
    Steady (σ.keep (none, t')) (t.view σ.rows) (σ.log ++ t.executed) := by
  refine ⟨?_, ?_, ?_⟩
  · change t'.toWork.tableIn σ.rows = true
    rwa [ht']
  · change t'.toWork.view σ.rows = _
    rw [ht']
  · change σ.log ++ t'.toWork.executed = _
    rw [ht']

theorem steady_settled (htable : t.tableIn σ.rows = true) :
    Steady (σ.keep t.settled) (t.view σ.rows) (σ.log ++ t.executed) := by
  unfold Transaction.settled
  split
  · exact steady_unpublished htable rfl
  · exact steady_published htable rfl

theorem view_append {w : Work} {writes : TableWrites} {committed : Option (List Row)}
    (hwrites : ∃ w' : Work, w.writes = w'.writes ++ [writes] ∧ w'.view committed = rows) :
    w.view committed = writes.applyTo rows := by
  obtain ⟨w', hw, rfl⟩ := hwrites
  rw [Work.view, hw, List.foldl_append]
  rfl

theorem applyTo_none (rows : List Row) : TableWrites.applyTo {} rows = rows := by
  rw [applyTo_of_deleted rfl, List.append_nil]

/-- A statement that takes nothing back adds to the rows and to the statements. -/
theorem Steady.execute (h : Steady σ rows log) {file : MigrationFile} {statement : Bytes}
    {σ' : Session} (hforward : Forward sql statement)
    (hσ' : σ.execute sql file statement = some σ') :
    Steady σ' ((sql.writesOf statement rows).applyTo rows) (log ++ [⟨file, statement⟩]) := by
  obtain ⟨done, hdone, rfl⟩ := Option.map_eq_some_iff.mp hσ'
  have hlogged : log ++ [⟨file, statement⟩] =
      σ.log ++ (σ.transaction.executed ++ [⟨file, statement⟩]) := by
    rw [← List.append_assoc, h.log]
  unfold Transaction.executes at hdone
  split at hdone
  · rename_i w hw
    obtain rfl := Option.some.inj hdone
    have hrows : (sql.writesOf statement rows).applyTo rows =
        ((σ.transaction.wrote (w (σ.transaction.view σ.rows))).logged ⟨file, statement⟩).view
          σ.rows := by
      refine (view_append ⟨σ.transaction.toWork, ?_, h.view⟩).symm
      rw [Sql.writesOf, hw, h.view]
      rfl
    rw [hrows, hlogged]
    exact steady_settled h.table
  · rename_i c hc
    have hrows : (sql.writesOf statement rows).applyTo rows = σ.transaction.view σ.rows := by
      rw [Sql.writesOf, hc, h.view]
      exact applyTo_none rows
    rw [hrows, hlogged]
    have htable : (σ.transaction.logged ⟨file, statement⟩).tableIn σ.rows = true := h.table
    cases c with
    | begin =>
      obtain rfl := Option.some.inj hdone
      exact steady_unpublished htable rfl
    | commit chain =>
      simp only [Transaction.control] at hdone
      split at hdone
      · cases hdone
      · obtain rfl := Option.some.inj hdone
        exact steady_published htable rfl
    | rollback chain => exact absurd hc (hforward.rollback chain)
    | savepoint name =>
      simp only [Transaction.control] at hdone
      split at hdone
      · obtain rfl := Option.some.inj hdone
        exact steady_unpublished htable rfl
      · cases hdone
    | rollbackTo name => exact absurd hc (hforward.rollbackTo name)
    | release name =>
      simp only [Transaction.control] at hdone
      split at hdone
      · cases hdone
      · obtain rfl := Option.some.inj hdone
        exact steady_unpublished htable rfl

theorem Steady.record (h : Steady σ rows log) (row : Row) :
    Steady (σ.record row) (rows ++ [row]) log := by
  have hrows : rows ++ [row] = (σ.transaction.recording row).view σ.rows := by
    rw [← applyTo_of_deleted (w := { inserted := [row] }) rfl]
    exact (view_append ⟨σ.transaction.toWork, rfl, h.view⟩).symm
  have htable : (σ.transaction.recording row).tableIn σ.rows = true := h.table
  rw [hrows, ← h.log]
  exact steady_settled htable

theorem Steady.script (h : Steady σ rows log) {file : MigrationFile} {statements : List Bytes}
    {σ' : Session} (hforward : ∀ statement ∈ statements, Forward sql statement)
    (hσ' : σ.script sql file statements = some σ') :
    Steady σ' (tableAfterScript sql rows statements) (log ++ statements.map (⟨file, ·⟩)) := by
  induction statements generalizing σ rows log with
  | nil =>
    obtain rfl := Option.some.inj hσ'
    rwa [List.map_nil, List.append_nil]
  | cons statement rest ih =>
    rw [Session.script, List.foldlM_cons] at hσ'
    obtain ⟨σ₁, hσ₁, hrest⟩ := Option.bind_eq_some_iff.mp hσ'
    have hnext := ih (h.execute (hforward statement List.mem_cons_self) hσ₁)
      (fun r hr => hforward r (List.mem_cons_of_mem _ hr)) hrest
    rwa [List.append_assoc] at hnext

theorem Steady.applyFile (h : Steady σ rows log) {file : MigrationFile} {σ' : Session}
    (hforward : ∀ statement ∈ statementsOf file, Forward sql statement)
    (hσ' : σ.applyFile sha256Hex sql file = some σ') :
    Steady σ' (tableAfterFile sha256Hex sql rows file)
      (log ++ (statementsOf file).map (⟨file, ·⟩)) := by
  unfold Session.applyFile at hσ'
  split at hσ'
  · cases hσ'
  rename_i text htext
  rw [tableAfterFile, htext]
  dsimp only
  split at hσ'
  · rename_i hempty
    obtain rfl := Option.some.inj hσ'
    rw [hempty] at htext
    rw [if_pos hempty, statementsOf_of_empty htext, List.map_nil, List.append_nil]
    exact h
  · rename_i hne
    have hstatements : statementsOf file = splitSqlStatements text := by
      rw [statementsOf, htext]
    obtain ⟨σ₁, hσ₁, rfl⟩ := Option.map_eq_some_iff.mp hσ'
    rw [hstatements] at hforward ⊢
    rw [if_neg hne]
    exact (h.script hforward hσ₁).record _

theorem Steady.applyFiles (h : Steady σ rows log) {files : List MigrationFile} {σ' : Session}
    (hforward : ∀ file ∈ files, ∀ statement ∈ statementsOf file, Forward sql statement)
    (hσ' : σ.applyFiles sha256Hex sql files = some σ') :
    Steady σ' (tableAfter sha256Hex sql rows files) (log ++ logOf files) := by
  induction files generalizing σ rows log with
  | nil =>
    obtain rfl := Option.some.inj hσ'
    rwa [logOf, List.flatMap_nil, List.append_nil]
  | cons file rest ih =>
    rw [Session.applyFiles, List.foldlM_cons] at hσ'
    obtain ⟨σ₁, hσ₁, hrest⟩ := Option.bind_eq_some_iff.mp hσ'
    have hnext := ih (h.applyFile (hforward file List.mem_cons_self) hσ₁)
      (fun f hf => hforward f (List.mem_cons_of_mem _ hf)) hrest
    rwa [List.append_assoc] at hnext

end Steadiness

/-- Files that take nothing back are applied as a whole. -/
theorem afterFiles_of_forward {committed : Option (List Row)} {files : List MigrationFile}
    {σ : Session}
    (hforward : ∀ file ∈ files, ∀ statement ∈ statementsOf file, Forward sql statement)
    (hσ : afterFiles sha256Hex sql committed files = some σ) :
    σ.rows.getD [] = tableAfter sha256Hex sql (committed.getD []) files ∧ σ.log = logOf files := by
  have hbegun : Steady (begun committed) (committed.getD []) [] := ⟨rfl, rfl, rfl⟩
  obtain ⟨σ₁, hσ₁, rfl⟩ := Option.map_eq_some_iff.mp hσ
  have h := hbegun.applyFiles hforward hσ₁
  have hrows : σ₁.committed.rows = some (σ₁.transaction.view σ₁.rows) := if_pos h.table
  rw [hrows]
  exact ⟨h.view, h.log⟩

/-! ### What completes such a directory -/

/-- Numbers and files have gone together: a recorded number means that the file was committed once,
an open one that it was not. -/
def Matched (dir : Directory) (db : Database) : Prop :=
  ∀ file ∈ filesOf dir,
    (Recorded file db → executedOf file db = statementsOf file) ∧
      (¬Recorded file db → executedOf file db = [])

/-- The tracking table has a row for every number, once the open files have been applied. -/
def Covered (sha256Hex : Bytes → String) (sql : Sql) (dir : Directory) (db : Database) : Prop :=
  ∀ file ∈ filesOf dir, file.version ∈ versions
    (tableAfter sha256Hex sql (db.rows.getD [])
      (unrecorded (versions (db.rows.getD [])) (filesOf dir)))

theorem statementsIn_logOf {file : MigrationFile} {files : List MigrationFile}
    (hnodup : files.Nodup) :
    statementsIn file (logOf files) = if file ∈ files then statementsOf file else [] := by
  induction files with
  | nil => rfl
  | cons f rest ih =>
    obtain ⟨hnot, hrest⟩ := List.nodup_cons.mp hnodup
    have hfirst : statementsIn file ((statementsOf f).map (⟨f, ·⟩)) =
        if f = file then statementsOf f else [] := by
      unfold statementsIn
      rw [List.filterMap_map]
      split
      · rename_i heq
        simp [heq]
      · rename_i hne
        simp [hne]
    rw [logOf_cons, statementsIn, List.filterMap_append]
    change statementsIn file _ ++ statementsIn file _ = _
    rw [ih hrest, hfirst]
    by_cases heq : f = file
    · subst heq
      rw [if_pos rfl, if_neg hnot, if_pos List.mem_cons_self, List.append_nil]
    · rw [if_neg heq, List.nil_append]
      simp [Ne.symm heq]

theorem mem_unrecorded (db : Database) {file : MigrationFile} {dir : Directory}
    (hfile : file ∈ filesOf dir) :
    file ∈ unrecorded (versions (db.rows.getD [])) (filesOf dir) ↔ ¬Recorded file db := by
  simp [unrecorded, hfile, Recorded]

/-- The statements of an open file are executed, and those of no other. -/
theorem matched_iff {dir : Directory} {file : MigrationFile} (hfile : file ∈ filesOf dir) :
    executedOf file db ++ statementsIn file
        (logOf (unrecorded (versions (db.rows.getD [])) (filesOf dir))) = statementsOf file ↔
      (Recorded file db → executedOf file db = statementsOf file) ∧
        (¬Recorded file db → executedOf file db = []) := by
  have hmem := mem_unrecorded db hfile
  have hnodup : (unrecorded (versions (db.rows.getD [])) (filesOf dir)).Nodup :=
    (nodup_filesOf dir).filter _
  rw [statementsIn_logOf hnodup]
  by_cases hrecorded : Recorded file db
  · rw [if_neg fun h => hmem.mp h hrecorded, List.append_nil]
    exact ⟨fun h => ⟨fun _ => h, fun hnot => absurd hrecorded hnot⟩, fun h => h.1 hrecorded⟩
  · rw [if_pos (hmem.mpr hrecorded), List.append_left_eq_self]
    exact ⟨fun h => ⟨fun hrec => absurd hrec hrecorded, fun _ => h⟩, fun h => h.2 hrecorded⟩

theorem forward_unrecorded {dir : Directory} (hforward : ForwardDirectory sql dir)
    (applied : List Int) :
    ∀ file ∈ unrecorded applied (filesOf dir), ∀ statement ∈ statementsOf file,
      Forward sql statement :=
  fun file hfile => hforward file (List.mem_filter.mp hfile).1

theorem kept_iff_of_forward {dir : Directory} (hforward : ForwardDirectory sql dir)
    (hpass : (afterPass sha256Hex sql db (filesOf dir)).isSome = true) :
    Kept sha256Hex sql dir db ↔ Matched dir db ∧ Covered sha256Hex sql dir db := by
  obtain ⟨σ, hσ⟩ := Option.isSome_iff_exists.mp hpass
  obtain ⟨hrows, hlog⟩ := afterFiles_of_forward (forward_unrecorded hforward _) hσ
  unfold Kept Matched Covered
  constructor
  · rintro ⟨σ', hσ', hkept⟩
    rw [hσ] at hσ'
    obtain rfl := Option.some.inj hσ'
    rw [hrows, hlog] at hkept
    exact ⟨fun file hfile => (matched_iff hfile).mp (hkept file hfile).2,
      fun file hfile => (hkept file hfile).1⟩
  · rintro ⟨hmatched, hcovered⟩
    refine ⟨σ, hσ, ?_⟩
    rw [hrows, hlog]
    exact fun file hfile => ⟨hcovered file hfile, (matched_iff hfile).mpr (hmatched file hfile)⟩

/-! ### Directories that leave the tracking table alone -/

def HasText (file : MigrationFile) : Prop := ∃ text, file.content = some text ∧ text ≠ []

theorem tableAfterScript_of_harmless {statements : List Bytes}
    (h : ∀ statement ∈ statements, Harmless sql statement) (rows : List Row) :
    tableAfterScript sql rows statements = rows := by
  induction statements generalizing rows with
  | nil => rfl
  | cons statement rest ih =>
    rw [tableAfterScript, List.foldl_cons, h statement List.mem_cons_self,
      applyTo_of_deleted rfl, List.append_nil]
    exact ih (fun r hr => h r (List.mem_cons_of_mem _ hr)) rows

theorem mem_versions_tableAfterFile {file : MigrationFile}
    (h : ∀ statement ∈ statementsOf file, Harmless sql statement) (v : Int) :
    v ∈ versions (tableAfterFile sha256Hex sql rows file) ↔
      v ∈ versions rows ∨ (v = file.version ∧ HasText file) := by
  unfold tableAfterFile statementsOf HasText at *
  split
  · rename_i hnone
    simp [hnone]
  rename_i text htext
  rw [htext] at h
  split
  · rename_i hempty
    simp [htext, hempty]
  · rename_i hne
    rw [tableAfterScript_of_harmless h]
    simp [htext, hne, versions, rowOf, or_comm]

theorem mem_versions_tableAfter {files : List MigrationFile}
    (h : ∀ file ∈ files, ∀ statement ∈ statementsOf file, Harmless sql statement) (v : Int) :
    v ∈ versions (tableAfter sha256Hex sql rows files) ↔
      v ∈ versions rows ∨ ∃ file ∈ files, v = file.version ∧ HasText file := by
  induction files generalizing rows with
  | nil => simp [tableAfter]
  | cons file rest ih =>
    rw [tableAfter, List.foldl_cons]
    change v ∈ versions (tableAfter sha256Hex sql (tableAfterFile sha256Hex sql rows file) rest) ↔ _
    rw [ih fun f hf => h f (List.mem_cons_of_mem _ hf),
      mem_versions_tableAfterFile (h file List.mem_cons_self), List.exists_mem_cons_iff, or_assoc]

theorem covered_iff_of_harmless {dir : Directory} (hharmless : HarmlessDirectory sql dir) :
    Covered sha256Hex sql dir db ↔ ∀ file ∈ filesOf dir, ¬Recorded file db →
      ∃ f ∈ filesOf dir, f.version = file.version ∧ HasText f := by
  unfold Covered
  refine forall₂_congr ?_
  intro file hfile
  have hopen : ∀ f ∈ unrecorded (versions (db.rows.getD [])) (filesOf dir),
      ∀ statement ∈ statementsOf f, Harmless sql statement :=
    fun f hf => hharmless f (List.mem_filter.mp hf).1
  rw [mem_versions_tableAfter hopen]
  by_cases hrecorded : Recorded file db
  · exact iff_of_true (.inl hrecorded) (fun h => absurd hrecorded h)
  constructor
  · rintro (h | ⟨f, hf, hversion, htext⟩) -
    · exact absurd h hrecorded
    · exact ⟨f, (List.mem_filter.mp hf).1, hversion.symm, htext⟩
  · intro h
    obtain ⟨f, hf, hversion, htext⟩ := h hrecorded
    refine .inr ⟨f, (mem_unrecorded db hf).mpr ?_, hversion.symm, htext⟩
    unfold Recorded at hrecorded ⊢
    rwa [hversion]

theorem isSome_afterPass {dir : Directory} {env : Nat → SqlEnv}
    (htrue : (Prog.eval (Database.exec sql) env 0 (migrate sha256Hex dir) db).1 = .migrated true) :
    (afterPass sha256Hex sql db (filesOf dir)).isSome = true := by
  obtain ⟨σ, hσ, -⟩ := (post_migrate sha256Hex sql db dir).eval env 0 htrue
  rw [hσ]
  rfl

abbrev pass (dir : Directory) (db : Database) : Reply × Database × List SqlCall :=
  Prog.eval (Database.exec tableWrites) (fun _ => {}) 0 (migrate contentDigest dir) db

/-- The database after passes over the directories, newest first, one after another. -/
inductive Passes (sha256Hex : Bytes → String) (sql : Sql) : List Directory → Database → Prop
  | none : Passes sha256Hex sql [] {}
  | pass {dirs : List Directory} {db : Database} (dir : Directory) (env : Nat → SqlEnv)
      (h : Passes sha256Hex sql dirs db) :
      Passes sha256Hex sql (dir :: dirs)
        (Prog.eval (Database.exec sql) env 0 (migrate sha256Hex dir) db).2.1

/-- Over all directories a number belongs to one file, which has text, controls no transaction and
leaves the tracking table alone. -/
structure Numbered (sql : Sql) (dirs : List Directory) : Prop where
  uncontrolled : ∀ dir ∈ dirs, UncontrolledDirectory sql dir
  harmless : ∀ dir ∈ dirs, HarmlessDirectory sql dir
  text : ∀ dir ∈ dirs, ∀ file ∈ filesOf dir, HasText file
  unique : ∀ dir ∈ dirs, ∀ dir' ∈ dirs, ∀ file ∈ filesOf dir, ∀ file' ∈ filesOf dir',
    file.version = file'.version → file = file'

/-- The files were applied, and nothing else. -/
structure Applied (dirs : List Directory) (files : List MigrationFile) (db : Database) : Prop where
  known : ∀ file ∈ files, ∃ dir ∈ dirs, file ∈ filesOf dir
  nodup : files.Nodup
  rows : ∀ v, v ∈ versions (db.rows.getD []) ↔ ∃ file ∈ files, v = file.version
  log : db.executed.map Prod.snd = logOf files
  blocks : InBlocks db

/-- Over files that control no transaction, a pass stays in its block, and it commits nothing unless
it answers true. -/
theorem post_of_course {db s : Database} {files : List MigrationFile} {p : SchemaProg}
    {answers : Answers}
    (hfiles : ∀ file ∈ files, ∀ statement ∈ statementsOf file, Uncontrolled sql statement)
    (hcourse : Follows files answers p) (hblocks : InBlocks s)
    (hs : Quiet answers → committedPart s = committedPart db) :
    p.Post (Database.exec sql) (fun reply s =>
      InBlocks s ∧ (reply ≠ .migrated true → committedPart s = committedPart db)) s := by
  induction p generalizing answers s with
  | ret reply => exact ⟨hblocks, fun hne => hs (hcourse hne)⟩
  | call op k ih =>
    intro env
    have hop : LeavesBlocks sql op := by
      cases op with
      | execute tx file statement =>
        exact hfiles file hcourse.1.1 statement hcourse.1.2
      | _ => trivial
    obtain ⟨hkept, hsame⟩ := hblocks.exec env hop
    refine ih _ (hcourse.2 _) hkept ?_
    intro hquiet
    have hlast : ¬Changes ⟨op, (Database.exec sql env op s).1⟩ :=
      hquiet _ (List.mem_append_right _ (List.mem_singleton_self _))
    rw [hsame hlast]
    exact hs fun a ha => hquiet a (List.mem_append_left _ ha)

variable {dirs : List Directory} {files : List MigrationFile} {dir : Directory}
  {env : Nat → SqlEnv}

theorem Applied.mono (h : Applied dirs files db) (hs : committedPart s = committedPart db)
    (hblocks : InBlocks s) : Applied (dir :: dirs) files s where
  known file hfile := (h.known file hfile).imp fun d hd => ⟨List.mem_cons_of_mem _ hd.1, hd.2⟩
  nodup := h.nodup
  rows v := by
    have hrows : s.rows = db.rows := congrArg Prod.fst hs
    rw [hrows]
    exact h.rows v
  log := by
    have hlog : s.executed = db.executed := congrArg (fun c => c.2.1) hs
    rw [hlog]
    exact h.log
  blocks := hblocks

theorem Applied.extend (hnumbered : Numbered sql (dir :: dirs)) (h : Applied dirs files db)
    (hrows : s.rows.getD [] = tableAfter sha256Hex sql (db.rows.getD [])
      (unrecorded (versions (db.rows.getD [])) (filesOf dir)))
    (hlog : s.executed.map Prod.snd = db.executed.map Prod.snd ++
      logOf (unrecorded (versions (db.rows.getD [])) (filesOf dir)))
    (hblocks : InBlocks s) :
    Applied (dir :: dirs) (files ++ unrecorded (versions (db.rows.getD [])) (filesOf dir)) s := by
  have hnew : ∀ file ∈ unrecorded (versions (db.rows.getD [])) (filesOf dir),
      file ∈ filesOf dir ∧ file.version ∉ versions (db.rows.getD []) := by
    intro file hfile
    obtain ⟨hmem, hopen⟩ := List.mem_filter.mp hfile
    exact ⟨hmem, of_decide_eq_true hopen⟩
  refine ⟨?_, ?_, ?_, ?_, hblocks⟩
  · intro file hfile
    rcases List.mem_append.mp hfile with hfile | hfile
    · obtain ⟨d, hd, hmem⟩ := h.known file hfile
      exact ⟨d, List.mem_cons_of_mem _ hd, hmem⟩
    · exact ⟨dir, List.mem_cons_self, (hnew file hfile).1⟩
  · refine List.nodup_append'.mpr ⟨h.nodup, (nodup_filesOf dir).filter _, ?_⟩
    intro file hold hfile
    exact (hnew file hfile).2 ((h.rows _).mpr ⟨file, hold, rfl⟩)
  · intro v
    have hharmless := fun file hfile =>
      hnumbered.harmless dir List.mem_cons_self file (hnew file hfile).1
    rw [hrows, mem_versions_tableAfter hharmless, h.rows]
    have htext : ∀ file ∈ unrecorded (versions (db.rows.getD [])) (filesOf dir),
        (v = file.version ∧ HasText file ↔ v = file.version) :=
      fun file hfile =>
        and_iff_left (hnumbered.text dir List.mem_cons_self file (hnew file hfile).1)
    simp only [List.mem_append, or_and_right, exists_or]
    exact or_congr_right (exists_congr fun file => and_congr_right (htext file))
  · rw [hlog, h.log, logOf, logOf, logOf, List.flatMap_append]

theorem Numbered.tail (h : Numbered sql (dir :: dirs)) : Numbered sql dirs where
  uncontrolled d hd := h.uncontrolled d (List.mem_cons_of_mem _ hd)
  harmless d hd := h.harmless d (List.mem_cons_of_mem _ hd)
  text d hd := h.text d (List.mem_cons_of_mem _ hd)
  unique d hd d' hd' := h.unique d (List.mem_cons_of_mem _ hd) d' (List.mem_cons_of_mem _ hd')

theorem Numbered.forward (h : Numbered sql (dir :: dirs)) : ForwardDirectory sql dir :=
  fun file hfile statement hstatement =>
    Uncontrolled.forward (h.uncontrolled dir List.mem_cons_self file hfile statement hstatement)

theorem exists_applied (hpasses : Passes sha256Hex sql dirs db) (hnumbered : Numbered sql dirs) :
    ∃ files, Applied dirs files db := by
  induction hpasses with
  | none => exact ⟨[], nofun, List.nodup_nil, fun v => by simp [versions], rfl, nofun⟩
  | @pass dirs db dir env _ ih =>
    obtain ⟨files, h⟩ := ih hnumbered.tail
    have hcourse : Follows (filesOf dir) [] (migrate sha256Hex dir) := follows_migrate dir
    obtain ⟨hblocks, hsame⟩ := (post_of_course (hnumbered.uncontrolled dir List.mem_cons_self)
      hcourse h.blocks fun _ => rfl).eval env 0
    by_cases htrue :
        (Prog.eval (Database.exec sql) env 0 (migrate sha256Hex dir) db).1 = .migrated true
    · obtain ⟨σ, hσ, hrows, hlog⟩ := (post_migrate sha256Hex sql db dir).eval env 0 htrue
      obtain ⟨htable, hstatements⟩ :=
        afterFiles_of_forward (forward_unrecorded hnumbered.forward _) hσ
      exact ⟨_, h.extend hnumbered (hrows.trans htable) (hlog.trans (hstatements ▸ rfl)) hblocks⟩
    · exact ⟨files, h.mono (hsame htrue) hblocks⟩

/-- In every history of passes over directories that are numbered alike, a pass that answers true
leaves its directory complete. -/
theorem complete_of_numbered (hpasses : Passes sha256Hex sql dirs db)
    (hnumbered : Numbered sql (dir :: dirs))
    (htrue : (Prog.eval (Database.exec sql) env 0 (migrate sha256Hex dir) db).1 = .migrated true) :
    Complete sql dir (Prog.eval (Database.exec sql) env 0 (migrate sha256Hex dir) db).2.1 := by
  obtain ⟨files, h⟩ := exists_applied hpasses hnumbered.tail
  have hexecuted : ∀ file, executedOf file db = if file ∈ files then statementsOf file else [] := by
    intro file
    unfold executedOf
    rw [h.log, statementsIn_logOf h.nodup]
  have hkept := kept_iff_of_forward hnumbered.forward (isSome_afterPass htrue)
  refine (complete_iff_kept htrue).mpr (hkept.mpr ⟨?_, ?_⟩)
  · intro file hfile
    rw [hexecuted]
    refine ⟨fun hrecorded => ?_, fun hopen => if_neg fun hmem => ?_⟩
    · obtain ⟨file', hfile', hversion⟩ := (h.rows _).mp hrecorded
      obtain ⟨d, hd, hmem⟩ := h.known file' hfile'
      have heq : file = file' := hnumbered.unique dir List.mem_cons_self d
        (List.mem_cons_of_mem _ hd) file hfile file' hmem hversion
      rw [if_pos (heq ▸ hfile')]
    · exact hopen ((h.rows _).mpr ⟨file, hmem, rfl⟩)
  · rw [covered_iff_of_harmless (hnumbered.harmless dir List.mem_cons_self)]
    intro file hfile _
    exact ⟨file, hfile, rfl, hnumbered.text dir List.mem_cons_self file hfile⟩

/-! ### An empty file, a second file under a number, and a file that rolls back -/

/-- After a first pass over the one file. -/
abbrev migrated : Database := (pass creating {}).2.1

end AuthForge.MigrationCompleteness
