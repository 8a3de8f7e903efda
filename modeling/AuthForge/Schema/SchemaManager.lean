import Mathlib.Data.List.Sort
import AuthForge.Base.Prog
import AuthForge.Base.Regex
import AuthForge.Schema.SqlSplitter

/-!
# The schema manager

`SchemaManager::migrate` and `countPendingMigrations`. Work is done file by file, progress is
recorded by version number, and a pass runs in one transaction, which the statements of a file can
end before the pass does. The files of a directory come in the order of the directory iterator; the
sort by version keeps that order among equal versions, which stands for every order that
`std::sort` may leave.
-/

namespace AuthForge.Schema

open Ascii (Bytes)
open Splitter (splitSqlStatements)

/-! ### The directory -/

structure DirectoryEntry where
  filename : String
  isRegularFile : Bool := true
  /-- What a stream of the file reads; `none` if it cannot be opened. -/
  content : Option Bytes
  deriving DecidableEq

structure Directory where
  entries : List DirectoryEntry
  distinct : (entries.map DirectoryEntry.filename).Nodup

structure MigrationFile where
  version : Int
  filename : String
  content : Option Bytes
  deriving DecidableEq

section Pattern

open Regex

def either (upper lower : Char) : Regex UInt8 :=
  .sat fun b => b.toNat = upper.toNat || b.toNat = lower.toNat

def isDigit (b : UInt8) : Bool := 48 ≤ b && b ≤ 57

/-- `V(\d+)__.+\.sql`, without regard to case. -/
def pattern : Regex UInt8 :=
  seqs
    [either 'V' 'v', plus (.sat isDigit), literal (bytes "__"),
     plus (.sat fun b => b ≠ 10 && b ≠ 13), literal (bytes "."), either 'S' 's', either 'Q' 'q',
     either 'L' 'l']

end Pattern

/-- The first capture: the digits after the first letter. -/
def versionDigits (filename : String) : String :=
  String.ofList ((filename.toList.drop 1).takeWhile Char.isDigit)

def isMigration (e : DirectoryEntry) : Bool := e.isRegularFile && pattern.accepts (bytes e.filename)

/-- `none` is the exception that `std::stoi` throws for a number out of range. -/
def migrationFile (e : DirectoryEntry) : Option MigrationFile :=
  (stoi (versionDigits e.filename)).map fun version => ⟨version, e.filename, e.content⟩

def scanMigrationFiles (dir : Directory) : Option (List MigrationFile) :=
  ((dir.entries.filter isMigration).mapM migrationFile).map fun files =>
    files.insertionSort fun a b => a.version ≤ b.version

/-! ### The database -/

/-- A row of `schema_migrations`, whose primary key is the version. -/
structure Row where
  version : Int
  filename : String
  checksum : String
  deriving DecidableEq

/-- What a statement does to the rows of `schema_migrations`. -/
structure TableWrites where
  deleted : List Int := []
  inserted : List Row := []
  deriving DecidableEq

def TableWrites.applyTo (w : TableWrites) (rows : List Row) : List Row :=
  rows.filter (·.version ∉ w.deleted) ++ w.inserted

/-- What a statement does to the transaction that it runs in. `COMMIT` and `ROLLBACK` begin the next
one if they say `AND CHAIN`. -/
inductive TransactionControl
  | begin
  | commit (chain : Bool)
  | rollback (chain : Bool)
  | savepoint (name : Bytes)
  | rollbackTo (name : Bytes)
  | release (name : Bytes)
  deriving DecidableEq

/-- A statement writes the tracking table, given the rows it sees (most write nothing to it), or it
controls the transaction. -/
inductive StatementEffect
  | writes (w : List Row → TableWrites)
  | control (c : TransactionControl)

/-- What the text of a statement does. -/
abbrev Sql := Bytes → StatementEffect

def Sql.writesOf (sql : Sql) (statement : Bytes) (rows : List Row) : TableWrites :=
  match sql statement with
  | .writes w => w rows
  | .control _ => {}

/-- A statement of a migration file that was executed. -/
structure ExecutedStatement where
  file : MigrationFile
  statement : Bytes
  deriving DecidableEq

/-- What was done and is not committed. -/
structure Work where
  createdTable : Bool := false
  writes : List TableWrites := []
  /-- The statements of migration files, and the versions that were recorded. -/
  executed : List ExecutedStatement := []
  recorded : List Int := []
  deriving DecidableEq

namespace Work

variable (w : Work) (rows : Option (List Row))

/-- The rows of the tracking table behind the work, over those that are committed. -/
def view : List Row := w.writes.foldl (fun rows w => w.applyTo rows) (rows.getD [])

def tableIn : Bool := w.createdTable || rows.isSome

def publishedRows : Option (List Row) := if w.tableIn rows then some (w.view rows) else none

end Work

/-- A transaction that `newTransaction` opened, with the connection it holds. -/
structure Transaction extends Work where
  isOpen : Bool := true
  failed : Bool := false
  /-- Outside a block every statement is committed by itself. -/
  inBlock : Bool := true
  /-- The savepoints, newest first, with the work that each of them goes back to. -/
  savepoints : List (Bytes × Work) := []
  deriving DecidableEq

namespace Transaction

variable (t : Transaction)

def wrote (w : TableWrites) : Transaction := { t with writes := t.writes ++ [w] }

def logged (e : ExecutedStatement) : Transaction := { t with executed := t.executed ++ [e] }

def recording (row : Row) : Transaction :=
  { t with
    writes := t.writes ++ [{ inserted := [row] }], recorded := t.recorded ++ [row.version] }

/-- The transaction after a statement, and the work that is committed with it. -/
def settled : Option Work × Transaction :=
  if t.inBlock then (none, t) else (some t.toWork, { t with toWork := {} })

variable {t} in
theorem settled_of_inBlock (h : t.inBlock = true) : t.settled = (none, t) := if_pos h

def endBlock (chain : Bool) : Transaction :=
  { t with toWork := {}, inBlock := chain, savepoints := [] }

/-- The newest savepoint of the name, and those before it. -/
def savepointsFrom (name : Bytes) : List (Bytes × Work) := t.savepoints.dropWhile (·.1 ≠ name)

/-- A statement that controls the transaction; `none` is the error for what only a block admits, and
for a savepoint that there is not. A `ROLLBACK` takes itself back with the rest. -/
def control (e : ExecutedStatement) : TransactionControl → Option (Option Work × Transaction)
  | .begin => some (none, { t.logged e with inBlock := true })
  | .commit chain =>
    if chain = true ∧ t.inBlock = false then none
    else some (some (t.logged e).toWork, t.endBlock chain)
  | .rollback chain =>
    if chain = true ∧ t.inBlock = false then none else some (none, t.endBlock chain)
  | .savepoint name =>
    if t.inBlock then
      some (none, { t.logged e with savepoints := (name, (t.logged e).toWork) :: t.savepoints })
    else none
  | .rollbackTo name =>
    match t.savepointsFrom name with
    | [] => none
    | (_, work) :: rest =>
      some (none, logged { t with toWork := work, savepoints := (name, work) :: rest } e)
  | .release name =>
    match t.savepointsFrom name with
    | [] => none
    | _ :: rest => some (none, { t.logged e with savepoints := rest })

def executes (sql : Sql) (rows : Option (List Row)) (e : ExecutedStatement) :
    Option (Option Work × Transaction) :=
  match sql e.statement with
  | .writes w => some ((t.wrote (w (t.view rows))).logged e).settled
  | .control c => t.control e c

end Transaction

/-- The committed rows of `schema_migrations`, if it exists, and the open transactions. What
transactions executed and recorded and committed is kept with the number of the transaction. -/
structure Database where
  rows : Option (List Row) := none
  transactions : List Transaction := []
  executed : List (Nat × ExecutedStatement) := []
  recorded : List (Nat × Int) := []

inductive SqlCall
  /-- `CREATE TABLE IF NOT EXISTS schema_migrations`, in a transaction or by itself. -/
  | ensureMigrationsTable (tx : Option Nat)
  | newTransaction
  | selectVersions (tx : Nat)
  | execute (tx : Nat) (file : MigrationFile) (statement : Bytes)
  | insertVersion (tx : Nat) (row : Row)
  | rollback (tx : Nat)
  /-- The end of the last reference to the transaction; the answer is the callback's. -/
  | commit (tx : Nat)
  /-- `SELECT to_regclass('schema_migrations')`. -/
  | findTable
  | selectCommittedVersions
  deriving DecidableEq

/-- Answers; a query that throws answers `none` or `false`. -/
@[reducible] def SqlCall.Resp : SqlCall → Type
  | .ensureMigrationsTable _ => Bool
  | .newTransaction => Option Nat
  | .selectVersions _ => Option (List Int)
  | .execute _ _ _ => Bool
  | .insertVersion _ _ => Bool
  | .rollback _ => Unit
  | .commit _ => Bool
  | .findTable => Option Bool
  | .selectCommittedVersions => Option (List Int)

/-- Whether a statement fails, and what the callback says of a transaction that had failed. -/
structure SqlEnv where
  fails : Bool := false
  reported : Bool := false

namespace Database

variable (db : Database)

/-- Versions that a transaction other than `tx` has inserted and not yet committed. -/
def pending (tx : Nat) : List Int :=
  db.transactions.zipIdx.flatMap fun (t, i) =>
    if i ≠ tx ∧ t.isOpen = true ∧ t.failed = false then
      t.writes.flatMap fun w => w.inserted.map Row.version
    else []

/-- The table is there, if anything is written, and its primary key admits the writes. A version
that another open transaction has inserted is refused as well: the statement waits for the end of
that transaction, or gives up. -/
def admits (tx : Nat) (t : Transaction) (w : TableWrites) : Bool :=
  (w = {} ∨ t.tableIn db.rows = true) ∧
    ((w.applyTo (t.view db.rows)).map Row.version).Nodup ∧
    ∀ row ∈ w.inserted, row.version ∉ db.pending tx

def allows (tx : Nat) (t : Transaction) : StatementEffect → Bool
  | .writes w => db.admits tx t (w (t.view db.rows))
  | .control _ => true

def setTransaction (tx : Nat) (t : Transaction) : Database :=
  { db with transactions := db.transactions.set tx t }

/-- What a commit makes visible. -/
def publish (tx : Nat) (w : Work) : Database :=
  { db with
    rows := w.publishedRows db.rows
    executed := db.executed ++ w.executed.map (tx, ·)
    recorded := db.recorded ++ w.recorded.map (tx, ·) }

/-- After a statement of the transaction. -/
def keep (tx : Nat) : Option Work × Transaction → Database
  | (none, t) => db.setTransaction tx t
  | (some w, t) => (db.publish tx w).setTransaction tx t

/-- A statement in a transaction: it fails in a failed one, and a failure makes it one. -/
def inTransaction {β : Type} (tx : Nat) (env : SqlEnv) (failure : β)
    (f : Transaction → Option (β × Option Work × Transaction)) : β × Database :=
  match db.transactions[tx]? with
  | none => (failure, db)
  | some t =>
    if t.isOpen = false then (failure, db)
    else
      match if env.fails ∨ t.failed = true then none else f t with
      | none => (failure, db.setTransaction tx { t with failed := true })
      | some (answer, done) => (answer, db.keep tx done)

def closed (tx : Nat) (t : Transaction) : Database :=
  db.setTransaction tx { t with isOpen := false }

def committing (tx : Nat) (t : Transaction) : Database := (db.publish tx t.toWork).closed tx t

/-- `COMMIT`: a failed transaction commits nothing. -/
def commit (tx : Nat) (env : SqlEnv) : Bool × Database :=
  match db.transactions[tx]? with
  | none => (false, db)
  | some t =>
    if t.isOpen = false then (false, db)
    else if t.failed then (env.reported, db.closed tx t)
    else if env.fails then (false, db.closed tx t)
    else (true, db.committing tx t)

def exec (sql : Sql) (env : SqlEnv) : (op : SqlCall) → Database → op.Resp × Database
  | .ensureMigrationsTable none, db =>
    if env.fails then (false, db) else (true, { db with rows := some (db.rows.getD []) })
  | .ensureMigrationsTable (some tx), db =>
    db.inTransaction tx env false fun t =>
      some (true, Transaction.settled { t with createdTable := true })
  | .newTransaction, db =>
    if env.fails then (none, db)
    else (some db.transactions.length, { db with transactions := db.transactions ++ [{}] })
  | .selectVersions tx, db =>
    db.inTransaction tx env none fun t =>
      if t.tableIn db.rows then
        some (some (((t.view db.rows).map Row.version).insertionSort (· ≤ ·)), none, t)
      else none
  | .execute tx file statement, db =>
    db.inTransaction tx env false fun t =>
      if db.allows tx t (sql statement) then
        (t.executes sql db.rows ⟨file, statement⟩).map (true, ·)
      else none
  | .insertVersion tx row, db =>
    db.inTransaction tx env false fun t =>
      if db.admits tx t { inserted := [row] } then some (true, (t.recording row).settled)
      else none
  | .rollback tx, db =>
    ((), match db.transactions[tx]? with
      | none => db
      | some t => db.closed tx t)
  | .commit tx, db => db.commit tx env
  | .findTable, db => (if env.fails then none else some db.rows.isSome, db)
  | .selectCommittedVersions, db =>
    (if env.fails then none else db.rows.map fun rows => rows.map Row.version, db)

variable {db}

/-- Everything a statement in a transaction can do. -/
theorem inTransaction_cases {β : Type} (tx : Nat) (env : SqlEnv) (failure : β)
    (f : Transaction → Option (β × Option Work × Transaction)) :
    db.inTransaction tx env failure f = (failure, db) ∨
    (∃ t, db.transactions[tx]? = some t ∧ t.isOpen = true ∧
      db.inTransaction tx env failure f =
        (failure, db.setTransaction tx { t with failed := true })) ∨
    ∃ t answer done, db.transactions[tx]? = some t ∧ t.isOpen = true ∧ t.failed = false ∧
      f t = some (answer, done) ∧
      db.inTransaction tx env failure f = (answer, db.keep tx done) := by
  unfold inTransaction
  split
  · exact .inl rfl
  rename_i t ht
  split
  · exact .inl rfl
  rename_i hopen
  right
  split
  · exact .inl ⟨t, ht, by simpa using hopen, rfl⟩
  · rename_i answer done hresult
    split at hresult
    · cases hresult
    · rename_i hok
      simp only [not_or, Bool.not_eq_true] at hok
      exact .inr ⟨t, answer, done, ht, by simpa using hopen, hok.2, hresult, rfl⟩

/-- Everything a commit can do. -/
theorem commit_cases (tx : Nat) (env : SqlEnv) :
    db.commit tx env = (false, db) ∨
    (∃ t, db.transactions[tx]? = some t ∧ t.isOpen = true ∧
      (db.commit tx env).2 = db.closed tx t ∧
      ((db.commit tx env).1 = true → t.failed = true)) ∨
    ∃ t, db.transactions[tx]? = some t ∧ t.isOpen = true ∧ t.failed = false ∧
      db.commit tx env = (true, db.committing tx t) := by
  unfold commit
  split
  · exact .inl rfl
  rename_i t ht
  split
  · exact .inl rfl
  rename_i hopen
  right
  split
  · rename_i hfailed
    exact .inl ⟨t, ht, by simpa using hopen, rfl, fun _ => hfailed⟩
  rename_i hfailed
  split
  · exact .inl ⟨t, ht, by simpa using hopen, rfl, nofun⟩
  · exact .inr ⟨t, ht, by simpa using hopen, by simpa using hfailed, rfl⟩

end Database

/-! ### The manager -/

inductive Reply
  | migrated (ok : Bool)
  | pending (count : Int)
  /-- An exception of the scan leaves the call. -/
  | thrown
  deriving DecidableEq

abbrev SchemaProg := Prog SqlCall SqlCall.Resp Reply

section Manager

variable (sha256Hex : Bytes → String)

def executeStatements (tx : Nat) (file : MigrationFile) (k : Bool → SchemaProg) :
    List Bytes → SchemaProg
  | [] => k true
  | statement :: rest =>
    .call (.execute tx file statement) fun ok =>
      if ok then executeStatements tx file k rest else k false

def rowOf (file : MigrationFile) (sql : Bytes) : Row := ⟨file.version, file.filename, sha256Hex sql⟩

def applyMigration (tx : Nat) (file : MigrationFile) (k : Bool → SchemaProg) : SchemaProg :=
  match file.content with
  | none => k false
  | some sql =>
    if sql = [] then k true
    else
      executeStatements tx file
        (fun ok =>
          if ok then .call (.insertVersion tx (rowOf sha256Hex file sql)) k else k false)
        (splitSqlStatements sql)

/-- The loop over the files: an applied version is skipped, the first failure ends it. -/
def applyMigrations (tx : Nat) (applied : List Int) (k : Bool → SchemaProg) :
    List MigrationFile → SchemaProg
  | [] => k true
  | file :: rest =>
    if file.version ∈ applied then applyMigrations tx applied k rest
    else
      applyMigration sha256Hex tx file fun ok =>
        if ok then applyMigrations tx applied k rest else k false

def rollbackAndReturn (tx : Nat) : SchemaProg :=
  .call (.rollback tx) fun _ => .ret (.migrated false)

def finish (tx : Nat) (ok : Bool) : SchemaProg :=
  if ok then .call (.commit tx) fun committed => .ret (.migrated committed)
  else rollbackAndReturn tx

/-- A failed query of the applied versions is logged and gives none. -/
def migrateFiles (files : List MigrationFile) : SchemaProg :=
  .call .newTransaction fun
    | none => .ret (.migrated false)
    | some tx =>
      .call (.ensureMigrationsTable (some tx)) fun ok =>
        if ok then
          .call (.selectVersions tx) fun applied =>
            applyMigrations sha256Hex tx (applied.getD []) (finish tx) files
        else rollbackAndReturn tx

def migrate (dir : Directory) : SchemaProg :=
  match scanMigrationFiles dir with
  | none => .ret .thrown
  | some [] => .call (.ensureMigrationsTable none) fun ok => .ret (.migrated ok)
  | some files => migrateFiles sha256Hex files

def countUnapplied (files : List MigrationFile) (applied : List Int) : Int :=
  (files.filter fun file => file.version ∉ applied).length

def countPendingMigrations (dir : Directory) : SchemaProg :=
  match scanMigrationFiles dir with
  | none => .ret .thrown
  | some [] => .ret (.pending 0)
  | some files =>
    .call .findTable fun
      | none => .ret (.pending (-1))
      | some false => .ret (.pending files.length)
      | some true =>
        .call .selectCommittedVersions fun
          | none => .ret (.pending (-1))
          | some applied => .ret (.pending (countUnapplied files applied))

/-- Passes over one database, at the granularity of statements. -/
def service (sql : Sql) :
    Service Database SqlEnv SqlCall SqlCall.Resp Directory Reply where
  exec := Database.exec sql
  program := migrate sha256Hex

end Manager

end AuthForge.Schema
