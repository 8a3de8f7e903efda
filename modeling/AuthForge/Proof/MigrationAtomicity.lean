import AuthForge.Base.History
import AuthForge.Schema.SchemaManager

/-!
# Passes of the schema manager are atomic

Any number of passes over one database, interleaved statement by statement, with any pattern of
failures. No migration ends or divides the transaction of its pass. A pass that answers false has
left the committed state as it was. As long as no migration writes the tracking table itself, the
rows of that table are the versions that were committed, each of them once.
-/

namespace AuthForge.MigrationAtomicity

open Schema
open Ascii (Bytes)
open Splitter (splitSqlStatements)

variable {sha256Hex : Bytes → String} {sql : Sql}

/-! ### What a pass that fails has done -/

/-- What other connections can see. -/
def committedPart (db : Database) :
    Option (List Row) × List (Nat × ExecutedStatement) × List (Nat × Int) :=
  (db.rows, db.executed, db.recorded)

/-- The answers that can change the committed state: a commit, and the table by itself. -/
def Changes : Answer SqlCall SqlCall.Resp → Prop
  | ⟨.commit _, committed⟩ => committed = true
  | ⟨.ensureMigrationsTable none, ok⟩ => ok = true
  | _ => False

theorem committedPart_setTransaction (db : Database) (tx : Nat) (t : Transaction) :
    committedPart (db.setTransaction tx t) = committedPart db := rfl

/-- Every transaction is in a block: what it has done is not committed. -/
def InBlocks (db : Database) : Prop := ∀ t ∈ db.transactions, t.inBlock = true

/-- The statement controls no transaction. -/
def Uncontrolled (sql : Sql) (statement : Bytes) : Prop := ∃ w, sql statement = .writes w

/-- What is executed controls no transaction. -/
def LeavesBlocks (sql : Sql) : SqlCall → Prop
  | .execute _ _ statement => Uncontrolled sql statement
  | _ => True

section Blocks

variable {db : Database}

theorem inBlock_settled {t : Transaction} (h : t.inBlock = true) :
    t.settled.1 = none ∧ t.settled.2.inBlock = true := by
  rw [Transaction.settled_of_inBlock h]
  exact ⟨rfl, h⟩

theorem InBlocks.set (h : InBlocks db) (tx : Nat) {t : Transaction} (ht : t.inBlock = true) :
    InBlocks (db.setTransaction tx t) := by
  intro u hu
  rcases List.mem_or_eq_of_mem_set hu with hu | rfl
  · exact h u hu
  · exact ht

/-- A statement in a block commits nothing, if it stays in the block. -/
theorem InBlocks.inTransaction (h : InBlocks db) {β : Type} {tx : Nat} {env : SqlEnv} {failure : β}
    {f : Transaction → Option (β × Option Work × Transaction)}
    (hf : ∀ t answer done, t.inBlock = true → f t = some (answer, done) →
      done.1 = none ∧ done.2.inBlock = true) :
    InBlocks (db.inTransaction tx env failure f).2 ∧
      committedPart (db.inTransaction tx env failure f).2 = committedPart db := by
  rcases Database.inTransaction_cases tx env failure f with hc | ⟨t, ht, -, hc⟩ |
    ⟨t, a, done, ht, -, -, hresult, hc⟩
  · rw [hc]
    exact ⟨h, rfl⟩
  · rw [hc]
    have hblock : t.inBlock = true := h t (List.mem_of_getElem? ht)
    exact ⟨h.set tx hblock, committedPart_setTransaction _ _ _⟩
  · rw [hc]
    obtain ⟨published, t'⟩ := done
    obtain ⟨rfl, hblock⟩ := hf t a _ (h t (List.mem_of_getElem? ht)) hresult
    exact ⟨h.set tx hblock, committedPart_setTransaction _ _ _⟩

theorem InBlocks.closed (h : InBlocks db) {tx : Nat} {t : Transaction}
    (ht : db.transactions[tx]? = some t) : InBlocks (db.closed tx t) := by
  have hblock : t.inBlock = true := h t (List.mem_of_getElem? ht)
  exact h.set tx hblock

/-- Every operation keeps the blocks, and commits nothing unless its answer says so, as long as what
it executes controls no transaction. -/
theorem InBlocks.exec (h : InBlocks db) (env : SqlEnv) {op : SqlCall} (hop : LeavesBlocks sql op) :
    InBlocks (Database.exec sql env op db).2 ∧
      (¬Changes ⟨op, (Database.exec sql env op db).1⟩ →
        committedPart (Database.exec sql env op db).2 = committedPart db) := by
  cases op with
  | ensureMigrationsTable tx =>
    cases tx with
    | none =>
      simp only [Database.exec, Changes]
      split
      · exact ⟨h, fun _ => rfl⟩
      · exact ⟨h, fun hnot => absurd rfl hnot⟩
    | some tx =>
      refine (h.inTransaction ?_).imp_right fun heq _ => heq
      intro t answer done hblock hresult
      obtain ⟨-, rfl⟩ := Prod.mk.inj (Option.some.inj hresult)
      exact inBlock_settled hblock
  | newTransaction =>
    simp only [Database.exec]
    split
    · exact ⟨h, fun _ => rfl⟩
    · refine ⟨?_, fun _ => rfl⟩
      intro u hu
      rcases List.mem_append.mp hu with hu | hu
      · exact h u hu
      · rw [List.mem_singleton.mp hu]
  | selectVersions tx =>
    refine (h.inTransaction ?_).imp_right fun heq _ => heq
    intro t answer done hblock hresult
    split at hresult
    · obtain ⟨-, rfl⟩ := Prod.mk.inj (Option.some.inj hresult)
      exact ⟨rfl, hblock⟩
    · cases hresult
  | execute tx file statement =>
    refine (h.inTransaction ?_).imp_right fun heq _ => heq
    intro t answer done hblock hresult
    split at hresult
    · obtain ⟨w, hw⟩ := hop
      simp only [Transaction.executes, hw, Option.map_some] at hresult
      obtain ⟨-, rfl⟩ := Prod.mk.inj (Option.some.inj hresult)
      exact inBlock_settled hblock
    · cases hresult
  | insertVersion tx row =>
    refine (h.inTransaction ?_).imp_right fun heq _ => heq
    intro t answer done hblock hresult
    split at hresult
    · obtain ⟨-, rfl⟩ := Prod.mk.inj (Option.some.inj hresult)
      exact inBlock_settled hblock
    · cases hresult
  | rollback tx =>
    simp only [Database.exec]
    split
    · exact ⟨h, fun _ => rfl⟩
    · rename_i t ht
      exact ⟨h.closed ht, fun _ => committedPart_setTransaction _ _ _⟩
  | commit tx =>
    change InBlocks (db.commit tx env).2 ∧
      (¬(db.commit tx env).1 = true → committedPart (db.commit tx env).2 = committedPart db)
    rcases Database.commit_cases tx env with hc | ⟨t, ht, -, hc, -⟩ | ⟨t, ht, -, -, hc⟩
    · rw [hc]
      exact ⟨h, fun _ => rfl⟩
    · rw [hc]
      exact ⟨h.closed ht, fun _ => committedPart_setTransaction _ _ _⟩
    · rw [hc]
      exact ⟨h.closed ht, fun hnot => absurd rfl hnot⟩
  | findTable | selectCommittedVersions => exact ⟨h, fun _ => rfl⟩

end Blocks

/-! ### The course of a pass -/

def statementsOf (file : MigrationFile) : List Bytes :=
  match file.content with
  | none => []
  | some text => splitSqlStatements text

/-- A statement is executed for a file of the directory, and it is one of the file's. -/
def OfFiles (files : List MigrationFile) : SqlCall → Prop
  | .execute _ file statement => file ∈ files ∧ statement ∈ statementsOf file
  | _ => True

abbrev Answers := List (Answer SqlCall SqlCall.Resp)

def Quiet (answers : Answers) : Prop := ∀ a ∈ answers, ¬Changes a

/-- A pass that does not answer true got no answer that changes anything. -/
def Unchanged (answers : Answers) (reply : Reply) : Prop := reply ≠ .migrated true → Quiet answers

abbrev Follows (files : List MigrationFile) (answers : Answers) (p : SchemaProg) : Prop :=
  p.Course (fun _ op => OfFiles files op) Unchanged answers

theorem Quiet.snoc {answers : Answers} (h : Quiet answers) {a : Answer SqlCall SqlCall.Resp}
    (ha : ¬Changes a) : Quiet (answers ++ [a]) := by
  intro b hb
  rcases List.mem_append.mp hb with hb | hb
  · exact h b hb
  · rwa [List.mem_singleton.mp hb]

section Course

variable {files : List MigrationFile} {tx : Nat} {k : Bool → SchemaProg}
  (hk : ∀ ok answers, Quiet answers → Follows files answers (k ok))
include hk

theorem follows_executeStatements {file : MigrationFile} (hfile : file ∈ files)
    {statements : List Bytes} (hstatements : ∀ s ∈ statements, s ∈ statementsOf file)
    {answers : Answers} (hquiet : Quiet answers) :
    Follows files answers (executeStatements tx file k statements) := by
  induction statements generalizing answers with
  | nil => exact hk true answers hquiet
  | cons s rest ih =>
    refine ⟨⟨hfile, hstatements s List.mem_cons_self⟩, ?_⟩
    intro ok
    cases ok with
    | true =>
      exact ih (fun r hr => hstatements r (List.mem_cons_of_mem _ hr)) (hquiet.snoc nofun)
    | false => exact hk false _ (hquiet.snoc nofun)

theorem follows_applyMigration {file : MigrationFile} (hfile : file ∈ files) {answers : Answers}
    (hquiet : Quiet answers) :
    Follows files answers (applyMigration sha256Hex tx file k) := by
  unfold applyMigration
  split
  · exact hk false answers hquiet
  rename_i text htext
  split
  · exact hk true answers hquiet
  refine follows_executeStatements ?_ hfile ?_ hquiet
  · intro ok answers hquiet
    cases ok with
    | true => exact ⟨trivial, fun ok => hk ok _ (hquiet.snoc nofun)⟩
    | false => exact hk false answers hquiet
  · intro s hs
    rwa [statementsOf, htext]

theorem follows_applyMigrations {applied : List Int} {todo : List MigrationFile}
    (htodo : ∀ file ∈ todo, file ∈ files) {answers : Answers} (hquiet : Quiet answers) :
    Follows files answers (applyMigrations sha256Hex tx applied k todo) := by
  induction todo generalizing answers with
  | nil => exact hk true answers hquiet
  | cons file rest ih =>
    have hrest : ∀ file ∈ rest, file ∈ files := fun f hf => htodo f (List.mem_cons_of_mem _ hf)
    rw [applyMigrations]
    split
    · exact ih hrest hquiet
    · refine follows_applyMigration ?_ (htodo file List.mem_cons_self) hquiet
      intro ok answers hquiet
      cases ok with
      | true => exact ih hrest hquiet
      | false => exact hk false answers hquiet

end Course

variable {files : List MigrationFile} {tx : Nat} {answers : Answers}

theorem follows_rollbackAndReturn (hquiet : Quiet answers) :
    Follows files answers (rollbackAndReturn tx) :=
  ⟨trivial, fun _ _ => hquiet.snoc nofun⟩

theorem follows_finish (ok : Bool) (answers : Answers) (hquiet : Quiet answers) :
    Follows files answers (finish tx ok) := by
  cases ok with
  | true =>
    refine ⟨trivial, ?_⟩
    intro committed hne
    cases committed with
    | true => exact absurd rfl hne
    | false => exact hquiet.snoc nofun
  | false => exact follows_rollbackAndReturn hquiet

theorem follows_migrateFiles : Follows files [] (migrateFiles sha256Hex files) := by
  have hempty : Quiet [] := nofun
  refine ⟨trivial, ?_⟩
  intro begun
  cases begun with
  | none => exact fun _ => hempty.snoc nofun
  | some tx =>
    have hbegun : Quiet [⟨.newTransaction, some tx⟩] := hempty.snoc nofun
    refine ⟨trivial, ?_⟩
    intro ok
    have hensured : Quiet [⟨.newTransaction, some tx⟩, ⟨.ensureMigrationsTable (some tx), ok⟩] :=
      hbegun.snoc nofun
    cases ok with
    | true =>
      refine ⟨trivial, ?_⟩
      intro applied
      exact follows_applyMigrations follows_finish (fun _ hf => hf) (hensured.snoc nofun)
    | false => exact follows_rollbackAndReturn hensured

/-- The files that a pass over the directory works on. -/
def filesOf (dir : Directory) : List MigrationFile := (scanMigrationFiles dir).getD []

theorem follows_migrate (dir : Directory) : Follows (filesOf dir) [] (migrate sha256Hex dir) := by
  have hempty : Quiet [] := nofun
  unfold migrate filesOf
  split
  · exact fun _ => hempty
  · refine ⟨trivial, ?_⟩
    intro ok hne
    cases ok with
    | true => exact absurd rfl hne
    | false => exact hempty.snoc nofun
  · rename_i hscan
    rw [hscan]
    exact follows_migrateFiles

theorem course_of_pass (t : Service.Thread (service sha256Hex sql)) :
    Follows (filesOf t.request) t.answers t.rest :=
  Service.course_of_thread follows_migrate t

/-- No statement of the directory's files controls a transaction. -/
def UncontrolledDirectory (sql : Sql) (dir : Directory) : Prop :=
  ∀ file ∈ filesOf dir, ∀ statement ∈ statementsOf file, Uncontrolled sql statement

/-- What a migration commits, it commits by its own calls; none of the calls of this one has changed
what others can see. -/
def CommitsNothing (sha256Hex : Bytes → String) (sql : Sql) (db₀ : Database)
    (history : List (Service.Event SqlEnv SqlCall SqlCall.Resp Directory)) (tid : Nat) : Prop :=
  ∀ post past dir env a, history = post ++ .called tid dir env a :: past →
    committedPart ((service sha256Hex sql).replay db₀ (.called tid dir env a :: past)) =
      committedPart ((service sha256Hex sql).replay db₀ past)

section Runs

variable {db₀ : Database} {ok : Guard (Service.Pool (service sha256Hex sql))
    (Service.Input SqlEnv Directory) (Service.Event SqlEnv SqlCall SqlCall.Resp Directory)}
  {history : List (Service.Event SqlEnv SqlCall SqlCall.Resp Directory)}
  {p : Service.Pool (service sha256Hex sql)}

/-- What a pass executes is a statement of a file of its directory. -/
theorem ofFiles_of_next
    (hrun : (service sha256Hex sql).machine.Run ok ((service sha256Hex sql).start db₀) history p)
    {tid : Nat} {op : SqlCall} (hnext : p.next tid = some op) :
    ∃ dir, OfFiles (filesOf dir) op ∧ ∃ past q, ok past q (.start dir) := by
  obtain ⟨t, k, ht, hrest⟩ := Service.Pool.thread_of_next hnext
  have hcourse := course_of_pass t
  rw [hrest] at hcourse
  exact ⟨t.request, hcourse.1, Service.guarded_of_thread hrun (List.mem_of_getElem? ht)⟩

theorem leavesBlocks_of_next
    (hok : ∀ past q dir, ok past q (.start dir) → UncontrolledDirectory sql dir)
    (hrun : (service sha256Hex sql).machine.Run ok ((service sha256Hex sql).start db₀) history p)
    {tid : Nat} {op : SqlCall} (hnext : p.next tid = some op) : LeavesBlocks sql op := by
  cases op with
  | execute tx file statement =>
    obtain ⟨dir, hfile, past, q, hstart⟩ := ofFiles_of_next hrun hnext
    exact hok past q dir hstart file hfile.1 statement hfile.2
  | _ => trivial

theorem inBlocks_of_run (hdb₀ : InBlocks db₀)
    (hok : ∀ past q dir, ok past q (.start dir) → UncontrolledDirectory sql dir)
    (hrun : (service sha256Hex sql).machine.Run ok ((service sha256Hex sql).start db₀) history p) :
    InBlocks p.shared := by
  refine Service.shared_invariant (S := service sha256Hex sql) (P := fun _ db => InBlocks db)
    hdb₀ (fun _ _ _ _ h => h) (fun _ _ h => h) ?_ hrun
  intro past q tid dir env op hexecuted h
  exact (h.exec env (leavesBlocks_of_next hok hexecuted.run hexecuted.next)).1

theorem commitsNothing_of_false (hdb₀ : InBlocks db₀)
    (hok : ∀ past q dir, ok past q (.start dir) → UncontrolledDirectory sql dir)
    (hrun : (service sha256Hex sql).machine.Run ok ((service sha256Hex sql).start db₀) history p)
    {tid : Nat} {t : Service.Thread (service sha256Hex sql)} (ht : p.threads[tid]? = some t)
    (hfalse : t.rest = .ret (.migrated false)) :
    CommitsNothing sha256Hex sql db₀ history tid := by
  have hcourse := course_of_pass t
  rw [hfalse] at hcourse
  have hquiet : Quiet t.answers := hcourse nofun
  intro post past dir env a hsplit
  have hmem : a ∈ t.answers := by
    rw [(Service.described_of_run hrun).answers ht]
    refine Service.mem_answersOf.mpr ⟨dir, env, ?_⟩
    rw [hsplit]
    exact List.mem_append_right _ List.mem_cons_self
  rw [hsplit] at hrun
  obtain ⟨q', hq'⟩ := hrun.shorter
  obtain ⟨q, hq, -, hnext, hresp⟩ := Service.answered_of_called hq'
  have hblocks := inBlocks_of_run hdb₀ hok hq
  rw [Service.shared_eq_replay hq] at hblocks hresp
  refine (hblocks.exec env (leavesBlocks_of_next hok hq hnext)).2 ?_
  have ha : a = ⟨a.op, (Database.exec sql env a.op
      ((service sha256Hex sql).replay db₀ past)).1⟩ := by
    obtain ⟨op, resp⟩ := a
    exact congrArg (Answer.mk op) hresp
  rw [← ha]
  exact hquiet a hmem

end Runs

/-! ### The rows of the table and the recorded versions -/

/-- The statement leaves the tracking table alone. -/
def Harmless (sql : Sql) (statement : Bytes) : Prop := ∀ rows, sql.writesOf statement rows = {}

def versions (rows : List Row) : List Int := rows.map Row.version

def Live (t : Transaction) : Prop := t.isOpen = true ∧ t.failed = false

/-- The transaction has written to the table what it recorded, and nothing else. -/
structure Plain (t : Transaction) : Prop where
  deleted : ∀ w ∈ t.writes, w.deleted = []
  inserted : versions (t.writes.flatMap TableWrites.inserted) = t.recorded

structure Tracked (db : Database) : Prop where
  rows : versions (db.rows.getD []) = db.recorded.map Prod.snd
  nodup : (versions (db.rows.getD [])).Nodup
  plain : ∀ t ∈ db.transactions, Plain t
  table : ∀ t ∈ db.transactions, Live t → t.recorded ≠ [] → t.tableIn db.rows = true
  live : ∀ t ∈ db.transactions, Live t → (versions (db.rows.getD []) ++ t.recorded).Nodup
  apart : ∀ (i j : Nat) (t u : Transaction), i ≠ j → db.transactions[i]? = some t →
    db.transactions[j]? = some u → Live t → Live u → t.recorded.Disjoint u.recorded

theorem applyTo_of_deleted {w : TableWrites} (h : w.deleted = []) (rows : List Row) :
    w.applyTo rows = rows ++ w.inserted := by
  simp [TableWrites.applyTo, h]

variable {db : Database} {t : Transaction}

theorem view_of_plain (h : Plain t) :
    t.view db.rows = db.rows.getD [] ++ t.writes.flatMap TableWrites.inserted := by
  have hfold : ∀ (ws : List TableWrites) (rows : List Row), (∀ w ∈ ws, w.deleted = []) →
      ws.foldl (fun rows w => w.applyTo rows) rows = rows ++ ws.flatMap TableWrites.inserted := by
    intro ws
    induction ws with
    | nil => simp
    | cons w ws ih =>
      intro rows hws
      rw [List.foldl_cons, applyTo_of_deleted (hws w List.mem_cons_self),
        ih _ fun v hv => hws v (List.mem_cons_of_mem _ hv), List.flatMap_cons, List.append_assoc]
  exact hfold t.writes _ h.deleted

theorem versions_view (h : Plain t) :
    versions (t.view db.rows) = versions (db.rows.getD []) ++ t.recorded := by
  rw [view_of_plain h, versions, List.map_append]
  exact congrArg _ h.inserted

theorem not_live_failed : ¬Live { t with failed := true } := fun h => nomatch h.2

theorem not_live_closed : ¬Live { t with isOpen := false } := fun h => nomatch h.1

/-- A transaction is replaced: the rest of the invariant is about the others. -/
theorem Tracked.set (h : Tracked db) {tx : Nat} {t' : Transaction} (hplain : Plain t')
    (htable : Live t' → t'.recorded ≠ [] → t'.tableIn db.rows = true)
    (hlive : Live t' → (versions (db.rows.getD []) ++ t'.recorded).Nodup)
    (hapart : Live t' → ∀ j u, j ≠ tx → db.transactions[j]? = some u → Live u →
      t'.recorded.Disjoint u.recorded) : Tracked (db.setTransaction tx t') where
  rows := h.rows
  nodup := h.nodup
  plain u hu := by
    rcases List.mem_or_eq_of_mem_set hu with hu | rfl
    · exact h.plain u hu
    · exact hplain
  table u hu := by
    rcases List.mem_or_eq_of_mem_set hu with hu | rfl
    · exact h.table u hu
    · exact htable
  live u hu := by
    rcases List.mem_or_eq_of_mem_set hu with hu | rfl
    · exact h.live u hu
    · exact hlive
  apart i j u v hne hu hv hlu hlv := by
    rcases Service.getElem?_set_cases hu with ⟨rfl, rfl⟩ | ⟨hi, hu'⟩
    · rcases Service.getElem?_set_cases hv with ⟨rfl, rfl⟩ | ⟨hj, hv'⟩
      · exact absurd rfl hne
      · exact hapart hlu j v hj hv' hlv
    · rcases Service.getElem?_set_cases hv with ⟨rfl, rfl⟩ | ⟨hj, hv'⟩
      · exact List.disjoint_comm.mp (hapart hlv i u hi hu' hlu)
      · exact h.apart i j u v hne hu' hv' hlu hlv

section Steps

variable {tx : Nat} {env : SqlEnv}

/-- A statement in a transaction keeps the invariant, if what it makes of the transaction does. -/
theorem Tracked.inTransaction (h : Tracked db) {β : Type} {failure : β}
    {f : Transaction → Option (β × Option Work × Transaction)}
    (hf : ∀ t answer done, db.transactions[tx]? = some t → Live t → f t = some (answer, done) →
      ∃ t', done = (none, t') ∧ Plain t' ∧ (t'.recorded ≠ [] → t'.tableIn db.rows = true) ∧
        (versions (db.rows.getD []) ++ t'.recorded).Nodup ∧
        ∀ j u, j ≠ tx → db.transactions[j]? = some u → Live u →
          t'.recorded.Disjoint u.recorded) :
    Tracked (db.inTransaction tx env failure f).2 := by
  rcases Database.inTransaction_cases tx env failure f with hc | ⟨t, ht, hopen, hc⟩ |
    ⟨t, a, done, ht, hopen, hfailed, hresult, hc⟩
  · rw [hc]
    exact h
  · rw [hc]
    have hplain := h.plain t (List.mem_of_getElem? ht)
    exact h.set ⟨hplain.deleted, hplain.inserted⟩ (fun hl => absurd hl not_live_failed)
      (fun hl => absurd hl not_live_failed) (fun hl => absurd hl not_live_failed)
  · rw [hc]
    obtain ⟨t', rfl, hplain, htable, hlive, hapart⟩ := hf t a done ht ⟨hopen, hfailed⟩ hresult
    exact h.set hplain (fun _ => htable) (fun _ => hlive) (fun _ => hapart)

/-- What records nothing new keeps the invariant. -/
theorem Tracked.kept (h : Tracked db) (ht : db.transactions[tx]? = some t) (hl : Live t)
    {t' : Transaction} (hdeleted : ∀ w ∈ t'.writes, w.deleted = [])
    (hinserted : t'.writes.flatMap TableWrites.inserted = t.writes.flatMap TableWrites.inserted)
    (hrecorded : t'.recorded = t.recorded)
    (hcreated : t.createdTable = true → t'.createdTable = true) :
    Plain t' ∧ (t'.recorded ≠ [] → t'.tableIn db.rows = true) ∧
      (versions (db.rows.getD []) ++ t'.recorded).Nodup ∧
      ∀ j u, j ≠ tx → db.transactions[j]? = some u → Live u → t'.recorded.Disjoint u.recorded := by
  have hmem := List.mem_of_getElem? ht
  rw [hrecorded]
  refine ⟨⟨hdeleted, ?_⟩, ?_, h.live t hmem hl, ?_⟩
  · rw [hinserted, hrecorded]
    exact (h.plain t hmem).inserted
  · intro hne
    have htable := h.table t hmem hl hne
    unfold Work.tableIn at htable ⊢
    rw [Bool.or_eq_true] at htable ⊢
    exact htable.imp_left hcreated
  · intro j u hj hu hlu
    exact h.apart tx j t u (Ne.symm hj) ht hu hl hlu

theorem mem_pending {v : Int} {j : Nat} {u : Transaction} (hj : j ≠ tx)
    (hu : db.transactions[j]? = some u) (hl : Live u)
    (hv : v ∈ versions (u.writes.flatMap TableWrites.inserted)) : v ∈ db.pending tx := by
  unfold Database.pending
  refine List.mem_flatMap.mpr ⟨(u, j), List.mem_zipIdx_iff_getElem?.mpr hu, ?_⟩
  dsimp only
  rw [if_pos ⟨hj, hl⟩]
  rw [versions, List.map_flatMap] at hv
  exact hv

/-- An inserted version is new to the table, to the transaction and to all others. -/
theorem Tracked.recorded (h : Tracked db) (ht : db.transactions[tx]? = some t) (hl : Live t)
    {row : Row} (hadmits : db.admits tx t { inserted := [row] } = true) :
    Plain { t with
        writes := t.writes ++ [{ inserted := [row] }], recorded := t.recorded ++ [row.version] } ∧
      t.tableIn db.rows = true ∧
      (versions (db.rows.getD []) ++ (t.recorded ++ [row.version])).Nodup ∧
      ∀ j u, j ≠ tx → db.transactions[j]? = some u → Live u →
        (t.recorded ++ [row.version]).Disjoint u.recorded := by
  have hmem := List.mem_of_getElem? ht
  have hplain := h.plain t hmem
  unfold Database.admits at hadmits
  rw [decide_eq_true_eq] at hadmits
  obtain ⟨htable, hkey, hothers⟩ := hadmits
  refine ⟨⟨?_, ?_⟩, ?_, ?_, ?_⟩
  · intro w hw
    rcases List.mem_append.mp hw with hw | hw
    · exact hplain.deleted w hw
    · rw [List.mem_singleton.mp hw]
  · rw [List.flatMap_append, versions, List.map_append]
    exact congrArg (· ++ [row.version]) hplain.inserted
  · exact htable.resolve_left nofun
  · rw [applyTo_of_deleted rfl, List.map_append] at hkey
    change (versions (t.view db.rows) ++ [row.version]).Nodup at hkey
    rwa [versions_view hplain, List.append_assoc] at hkey
  · intro j u hj hu hlu
    rw [List.disjoint_append_left]
    refine ⟨h.apart tx j t u (Ne.symm hj) ht hu hl hlu, ?_⟩
    rw [List.singleton_disjoint]
    intro hv
    rw [← (h.plain u (List.mem_of_getElem? hu)).inserted] at hv
    exact hothers row (List.mem_singleton_self _) (mem_pending hj hu hlu hv)

theorem Tracked.closed (h : Tracked db) (ht : db.transactions[tx]? = some t) :
    Tracked (db.closed tx t) := by
  have hplain := h.plain t (List.mem_of_getElem? ht)
  exact h.set ⟨hplain.deleted, hplain.inserted⟩ (fun hl => absurd hl not_live_closed)
    (fun hl => absurd hl not_live_closed) (fun hl => absurd hl not_live_closed)

theorem versions_committing (h : Tracked db) (ht : db.transactions[tx]? = some t) (hl : Live t) :
    versions ((db.committing tx t).rows.getD []) = versions (db.rows.getD []) ++ t.recorded := by
  have hmem := List.mem_of_getElem? ht
  by_cases htable : t.tableIn db.rows = true
  · have hrows : (db.committing tx t).rows = some (t.view db.rows) := if_pos htable
    rw [hrows, Option.getD_some, versions_view (h.plain t hmem)]
  · have hrows : (db.committing tx t).rows = none := if_neg htable
    have hnone : db.rows = none := by
      unfold Work.tableIn at htable
      rw [Bool.or_eq_true, not_or] at htable
      exact Option.not_isSome_iff_eq_none.mp htable.2
    have hempty : t.recorded = [] := by
      by_contra hne
      exact htable (h.table t hmem hl hne)
    rw [hrows, hnone, hempty]
    rfl

theorem tableIn_committing {u : Transaction} (h : u.tableIn db.rows = true) :
    u.tableIn (db.committing tx t).rows = true := by
  unfold Work.tableIn at h ⊢
  rw [Bool.or_eq_true] at h ⊢
  refine h.imp_right fun hsome => ?_
  have htable : t.tableIn db.rows = true := by
    unfold Work.tableIn
    rw [hsome, Bool.or_true]
  have hrows : (db.committing tx t).rows = some (t.view db.rows) := if_pos htable
  rw [hrows]
  rfl

/-- A commit appends to the table what its transaction recorded. -/
theorem Tracked.committing (h : Tracked db) (ht : db.transactions[tx]? = some t) (hl : Live t) :
    Tracked (db.committing tx t) := by
  have hmem := List.mem_of_getElem? ht
  have hclosed := h.closed ht
  have hversions := versions_committing h ht hl
  have hother : ∀ u ∈ (db.committing tx t).transactions, Live u →
      ∃ j, j ≠ tx ∧ db.transactions[j]? = some u := by
    intro u hu hlu
    obtain ⟨j, hj⟩ := List.mem_iff_getElem?.mp hu
    rcases Service.getElem?_set_cases hj with ⟨-, rfl⟩ | ⟨hne, hj⟩
    · exact absurd hlu not_live_closed
    · exact ⟨j, hne, hj⟩
  refine ⟨?_, ?_, hclosed.plain, ?_, ?_, hclosed.apart⟩
  · have hrecorded : (db.committing tx t).recorded.map Prod.snd =
        db.recorded.map Prod.snd ++ t.recorded := by
      change (db.recorded ++ t.recorded.map (tx, ·)).map Prod.snd = _
      rw [List.map_append, List.map_map]
      exact congrArg _ (List.map_id t.recorded)
    rw [hversions, hrecorded, h.rows]
  · rw [hversions]
    exact h.live t hmem hl
  · intro u hu hlu hne
    obtain ⟨j, -, hj⟩ := hother u hu hlu
    exact tableIn_committing (h.table u (List.mem_of_getElem? hj) hlu hne)
  · intro u hu hlu
    obtain ⟨j, hj, hju⟩ := hother u hu hlu
    have hu' := h.live u (List.mem_of_getElem? hju) hlu
    have hdisjoint := h.apart tx j t u (Ne.symm hj) ht hju hl hlu
    rw [hversions, List.nodup_append'] at *
    refine ⟨h.live t hmem hl, hu'.2.1, ?_⟩
    rw [List.disjoint_append_left]
    exact ⟨hu'.2.2, hdisjoint⟩

theorem Tracked.begun (h : Tracked db) :
    Tracked { db with transactions := db.transactions ++ [({} : Transaction)] } := by
  have hmem : ∀ u ∈ db.transactions ++ [({} : Transaction)], u = {} ∨ u ∈ db.transactions := by
    intro u hu
    rcases List.mem_append.mp hu with hu | hu
    · exact .inr hu
    · exact .inl (List.mem_singleton.mp hu)
  refine ⟨h.rows, h.nodup, ?_, ?_, ?_, ?_⟩
  · intro u hu
    rcases hmem u hu with rfl | hu
    · exact ⟨nofun, rfl⟩
    · exact h.plain u hu
  · intro u hu hlu hne
    rcases hmem u hu with rfl | hu
    · exact absurd rfl hne
    · exact h.table u hu hlu hne
  · intro u hu hlu
    rcases hmem u hu with rfl | hu
    · rw [List.append_nil]
      exact h.nodup
    · exact h.live u hu hlu
  · intro i j t u hne hi hj hlt hlu
    rcases Service.getElem?_snoc hi with hi | ⟨-, rfl⟩
    · rcases Service.getElem?_snoc hj with hj | ⟨-, rfl⟩
      · exact h.apart i j t u hne hi hj hlt hlu
      · exact List.disjoint_nil_right _
    · exact List.disjoint_nil_left _

/-- Every operation keeps the invariant, as long as all goes on in blocks and what it executes is
harmless. -/
theorem Tracked.exec (h : Tracked db) (hblocks : InBlocks db) (op : SqlCall)
    (hop : LeavesBlocks sql op)
    (hsql : ∀ tx file statement, op = .execute tx file statement → Harmless sql statement) :
    Tracked (Database.exec sql env op db).2 := by
  cases op with
  | ensureMigrationsTable tx =>
    cases tx with
    | none =>
      simp only [Database.exec]
      split
      · exact h
      · refine ⟨h.rows, h.nodup, h.plain, ?_, h.live, h.apart⟩
        intro t _ _ _
        exact Bool.or_true _
    | some tx =>
      refine h.inTransaction ?_
      intro t answer done ht hl hresult
      obtain ⟨-, rfl⟩ := Prod.mk.inj (Option.some.inj hresult)
      have hblock : t.inBlock = true := hblocks t (List.mem_of_getElem? ht)
      refine ⟨_, Transaction.settled_of_inBlock hblock, ?_⟩
      exact h.kept ht hl (h.plain t (List.mem_of_getElem? ht)).deleted rfl rfl fun _ => rfl
  | newTransaction =>
    simp only [Database.exec]
    split
    · exact h
    · exact h.begun
  | selectVersions tx =>
    refine h.inTransaction ?_
    intro t answer done ht hl hresult
    split at hresult
    · obtain ⟨-, rfl⟩ := Prod.mk.inj (Option.some.inj hresult)
      exact ⟨t, rfl, h.kept ht hl (h.plain t (List.mem_of_getElem? ht)).deleted rfl rfl id⟩
    · cases hresult
  | execute tx file statement =>
    refine h.inTransaction ?_
    intro t answer done ht hl hresult
    have hblock : t.inBlock = true := hblocks t (List.mem_of_getElem? ht)
    obtain ⟨w, hw⟩ := hop
    have hnone : w (t.view db.rows) = {} := by
      have hharmless := hsql tx file statement rfl (t.view db.rows)
      rwa [Sql.writesOf, hw] at hharmless
    split at hresult
    · simp only [Transaction.executes, hw, hnone, Option.map_some] at hresult
      obtain ⟨-, rfl⟩ := Prod.mk.inj (Option.some.inj hresult)
      refine ⟨_, Transaction.settled_of_inBlock hblock, h.kept ht hl ?_ ?_ rfl id⟩
      · intro w hw
        rcases List.mem_append.mp hw with hw | hw
        · exact (h.plain t (List.mem_of_getElem? ht)).deleted w hw
        · rw [List.mem_singleton.mp hw]
      · change (t.writes ++ [({} : TableWrites)]).flatMap TableWrites.inserted = _
        rw [List.flatMap_append]
        exact List.append_nil _
    · cases hresult
  | insertVersion tx row =>
    refine h.inTransaction ?_
    intro t answer done ht hl hresult
    have hblock : t.inBlock = true := hblocks t (List.mem_of_getElem? ht)
    split at hresult
    · rename_i hadmits
      obtain ⟨-, rfl⟩ := Prod.mk.inj (Option.some.inj hresult)
      obtain ⟨hplain, htable, hrest⟩ := h.recorded ht hl hadmits
      exact ⟨_, Transaction.settled_of_inBlock hblock, hplain, fun _ => htable, hrest⟩
    · cases hresult
  | rollback tx =>
    simp only [Database.exec]
    split
    · exact h
    · rename_i t ht
      exact h.closed ht
  | commit tx =>
    change Tracked (db.commit tx env).2
    rcases Database.commit_cases tx env with hc | ⟨t, ht, -, hc, -⟩ | ⟨t, ht, hopen, hfailed, hc⟩
    · rw [hc]
      exact h
    · rw [hc]
      exact h.closed ht
    · rw [hc]
      exact h.committing ht ⟨hopen, hfailed⟩
  | findTable | selectCommittedVersions => exact h

end Steps

/-- No statement of the directory's files writes the tracking table. -/
def HarmlessDirectory (sql : Sql) (dir : Directory) : Prop :=
  ∀ file ∈ filesOf dir, ∀ statement ∈ statementsOf file, Harmless sql statement

/-- No transaction is open, and the table has the versions that were committed, each once. -/
structure Settled (db : Database) : Prop where
  transactions : db.transactions = []
  rows : versions (db.rows.getD []) = db.recorded.map Prod.snd
  nodup : (versions (db.rows.getD [])).Nodup

theorem Settled.tracked (h : Settled db) : Tracked db where
  rows := h.rows
  nodup := h.nodup
  plain t ht := by
    rw [h.transactions] at ht
    cases ht
  table t ht := by
    rw [h.transactions] at ht
    cases ht
  live t ht := by
    rw [h.transactions] at ht
    cases ht
  apart i j t u hne hi := by
    rw [h.transactions] at hi
    cases hi

section Runs

variable {db₀ : Database} {ok : Guard (Service.Pool (service sha256Hex sql))
    (Service.Input SqlEnv Directory) (Service.Event SqlEnv SqlCall SqlCall.Resp Directory)}
  {history : List (Service.Event SqlEnv SqlCall SqlCall.Resp Directory)}
  {p : Service.Pool (service sha256Hex sql)}

theorem Settled.inBlocks (h : Settled db₀) : InBlocks db₀ := by
  intro t ht
  rw [h.transactions] at ht
  cases ht

theorem tracked_of_run (hdb₀ : Settled db₀)
    (huncontrolled : ∀ past q dir, ok past q (.start dir) → UncontrolledDirectory sql dir)
    (hharmless : ∀ past q dir, ok past q (.start dir) → HarmlessDirectory sql dir)
    (hrun : (service sha256Hex sql).machine.Run ok ((service sha256Hex sql).start db₀) history p) :
    Tracked p.shared := by
  refine Service.shared_invariant (S := service sha256Hex sql) (P := fun _ db => Tracked db)
    hdb₀.tracked (fun _ _ _ _ h => h) (fun _ _ h => h) ?_ hrun
  intro past q tid dir env op hexecuted h
  have hblocks := inBlocks_of_run hdb₀.inBlocks huncontrolled hexecuted.run
  refine h.exec hblocks op (leavesBlocks_of_next huncontrolled hexecuted.run hexecuted.next) ?_
  rintro tx file statement rfl
  obtain ⟨d, hfile, past', q', hstart⟩ := ofFiles_of_next hexecuted.run hexecuted.next
  exact hharmless past' q' d hstart file hfile.1 statement hfile.2

/-- No version was committed twice, and the table has the versions that were committed. -/
def Consistent (db : Database) : Prop :=
  (db.recorded.map Prod.snd).Nodup ∧
    ∀ v, v ∈ db.recorded.map Prod.snd ↔ v ∈ versions (db.rows.getD [])

/-- Where no migration controls a transaction, a pass that answers false has committed nothing; and
where none writes the tracking table, that table is consistent with what was committed. -/
theorem passes_atomic (hdb₀ : Settled db₀)
    (huncontrolled : ∀ past q dir, ok past q (.start dir) → UncontrolledDirectory sql dir)
    (hrun : (service sha256Hex sql).machine.Run ok ((service sha256Hex sql).start db₀) history p) :
    (∀ tid t, p.threads[tid]? = some t → t.rest = .ret (.migrated false) →
      CommitsNothing sha256Hex sql db₀ history tid) ∧
    ((∀ past q dir, ok past q (.start dir) → HarmlessDirectory sql dir) →
      Consistent p.shared) := by
  refine ⟨fun tid t ht hfalse =>
    commitsNothing_of_false hdb₀.inBlocks huncontrolled hrun ht hfalse, ?_⟩
  intro hharmless
  have h := tracked_of_run hdb₀ huncontrolled hharmless hrun
  unfold Consistent
  rw [← h.rows]
  exact ⟨h.nodup, fun _ => Iff.rfl⟩

end Runs

/-! ### Two passes at a time, and a migration that clears the table -/

def createTable : DirectoryEntry := ⟨"V1__a.sql", true, some (bytes "CREATE TABLE a (id int);")⟩

def clearTable : DirectoryEntry :=
  ⟨"V2__b.sql", true, some (bytes "DELETE FROM schema_migrations WHERE version = 1;")⟩

def creating : Directory := ⟨[createTable], by decide⟩

def clearing : Directory := ⟨[createTable, clearTable], by decide⟩

def contentDigest (text : Bytes) : String :=
  if text = bytes "CREATE TABLE a (id int);" then
    "168f4af76cbece82a4185c6c57366e07883c6e4155f25ce28559018d99433b81"
  else "989d4eee09b2e9aa0fcd19cc689378bba9d51842899cedf95d6832c17b9f31d3"

def tableWrites : Sql := fun statement =>
  if statement = bytes "ROLLBACK;" then .control (.rollback false)
  else if statement = bytes "DELETE FROM schema_migrations WHERE version = 1;" then
    .writes fun _ => { deleted := [1] }
  else .writes fun _ => {}

abbrev PassInput := Service.Input SqlEnv Directory

def steps (tid n : Nat) : List PassInput := List.replicate n (.advance tid {})

def executed (inputs : List PassInput) :
    List (Service.Event SqlEnv SqlCall SqlCall.Resp Directory) ×
      Service.Pool (service contentDigest tableWrites) :=
  (service contentDigest tableWrites).machine.exec []
    ((service contentDigest tableWrites).start {}) inputs

theorem settled_empty : Settled {} := ⟨rfl, rfl, List.nodup_nil⟩

/-- The second pass finds its version inserted by the first, which has not committed yet. -/
def overlapping : List PassInput :=
  .start creating :: steps 0 5 ++ .start creating :: steps 1 6 ++ steps 0 1

theorem statements_creating :
    ∀ file ∈ filesOf creating, ∀ statement ∈ statementsOf file,
      statement = bytes "CREATE TABLE a (id int);" := by
  decide +kernel

theorem tableWrites_createTable :
    tableWrites (bytes "CREATE TABLE a (id int);") = .writes fun _ => {} := by
  unfold tableWrites
  rw [if_neg (by decide +kernel), if_neg (by decide +kernel)]

theorem uncontrolled_creating : UncontrolledDirectory tableWrites creating := by
  intro file hfile statement hstatement
  obtain rfl := statements_creating file hfile statement hstatement
  exact ⟨_, tableWrites_createTable⟩

theorem harmless_creating : HarmlessDirectory tableWrites creating := by
  intro file hfile statement hstatement rows
  obtain rfl := statements_creating file hfile statement hstatement
  rw [Sql.writesOf, tableWrites_createTable]

theorem passes_atomic_overlapping :
    (executed overlapping).2.shared.recorded = [(0, 1)] ∧
    Consistent (executed overlapping).2.shared ∧
    ∃ t, (executed overlapping).2.threads[1]? = some t ∧ t.rest = .ret (.migrated false) ∧
      CommitsNothing contentDigest tableWrites {} (executed overlapping).1 1 := by
  have hguarded : (service contentDigest tableWrites).machine.Guarded
      (fun _ _ i => i = .start creating ∨ ∃ tid, i = .advance tid {}) []
      ((service contentDigest tableWrites).start {}) overlapping :=
    ⟨.inl rfl, .inr ⟨0, rfl⟩, .inr ⟨0, rfl⟩, .inr ⟨0, rfl⟩, .inr ⟨0, rfl⟩, .inr ⟨0, rfl⟩,
      .inl rfl, .inr ⟨1, rfl⟩, .inr ⟨1, rfl⟩, .inr ⟨1, rfl⟩, .inr ⟨1, rfl⟩, .inr ⟨1, rfl⟩,
      .inr ⟨1, rfl⟩, .inr ⟨0, rfl⟩, trivial⟩
  have hdir : ∀ dir : Directory, (.start dir : PassInput) = .start creating ∨
      (∃ tid, (.start dir : PassInput) = .advance tid {}) → dir = creating := by
    rintro dir (h | ⟨tid, h⟩)
    · exact Service.Input.start.inj h
    · cases h
  obtain ⟨hfalse, hconsistent⟩ :=
    passes_atomic settled_empty (fun _ _ dir h => hdir dir h ▸ uncontrolled_creating)
      (Machine.Run.exec_of_guarded .init overlapping hguarded)
  refine ⟨by decide +kernel, hconsistent fun _ _ dir h => hdir dir h ▸ harmless_creating, ?_⟩
  have hthread : (executed overlapping).2.threads[1]?.bind Service.Thread.result =
      some (.migrated false) := by
    decide +kernel
  obtain ⟨t, ht, hrest⟩ := Service.Pool.thread_of_result hthread
  exact ⟨t, ht, hrest, hfalse 1 t ht hrest⟩

def twice : List PassInput :=
  .start clearing :: steps 0 8 ++ .start clearing :: steps 1 6

/-- Without the condition a second pass commits version 1 again. -/
theorem cleared_version_committed_twice :
    Settled {} ∧
    (service contentDigest tableWrites).machine.Run anyStep
      ((service contentDigest tableWrites).start {}) (executed twice).1 (executed twice).2 ∧
    (executed twice).2.shared.recorded = [(0, 1), (0, 2), (1, 1)] ∧
    ¬Consistent (executed twice).2.shared := by
  have hrecorded : (executed twice).2.shared.recorded = [(0, 1), (0, 2), (1, 1)] := by
    decide +kernel
  refine ⟨settled_empty, .exec_of_guarded .init twice ?_, hrecorded, ?_⟩
  · simp [Machine.Guarded, anyStep, twice, steps]
  · intro h
    have hnodup := h.1
    rw [hrecorded] at hnodup
    revert hnodup
    decide

end AuthForge.MigrationAtomicity
