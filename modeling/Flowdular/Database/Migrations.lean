/-
# Running the migrations of a module

`src/packages/database/src/migrations.ts`, with the name of a namespace as `contracts.ts`
checks it.

A run opens a transaction: it makes the ledger if there is none, compares every migration
with its row of the ledger, and then takes the migrations without a row in order.  Each is
inspected; what is already there is adopted, what is there in part is refused, and of the
rest the script is executed.  An error rolls everything back.  A dry run writes nothing: it
asks for the state of every migration on the database as it is, and reports what a run would
do.

A database is its ledger, whether the ledger of Flowdular 0.5 is there, and everything else.
What a script does to it, the privileges the ledger's own script revokes and the digests are
the host's (`MigrationHost`).  Failures of the connection, of the locks and of a commit are
left out.
-/

import Flowdular.Workflows.Text
import Mathlib.Data.List.Nodup

namespace Flowdular.Database

open Workflows (trimChars)

/-! ### The ledger -/

/-- `LedgerRow`, with the namespace of its module. -/
structure LedgerRow where
  module : String
  id : String
  dialect : String
  checksum : String
  appliedAt : ℤ
deriving DecidableEq, Repr

/-- The primary key of the ledger. -/
def LedgerRow.key (row : LedgerRow) : String × String :=
  (row.module, row.id)

/-- The ledger: no two rows have one key. -/
structure Ledger where
  rows : List LedgerRow
  keyed : (rows.map LedgerRow.key).Nodup

namespace Ledger

/-- The ledger `CREATE TABLE` makes. -/
def empty : Ledger where
  rows := []
  keyed := List.nodup_nil

section

local instance ledgerKeys : LawfulBEq (String × String) := inferInstance

/-- `INSERT`, which a row of the same key refuses. -/
def insert (ledger : Ledger) (row : LedgerRow) : Option Ledger :=
  if h : row.key ∈ ledger.rows.map LedgerRow.key then none
  else
    some
      { rows := row :: ledger.rows
        keyed := List.nodup_cons.2 ⟨h, ledger.keyed⟩ }

end

/-- The row of a key. -/
def row? (ledger : Ledger) (module id : String) : Option LedgerRow :=
  ledger.rows.find? fun row => row.key = (module, id)

end Ledger

/-- A database: its ledger, whether it has the ledger of Flowdular 0.5, and all else. -/
structure DatabaseState (δ : Type) where
  ledger : Option Ledger
  legacy : Bool
  content : δ

variable {δ : Type}

/-- The row of a migration, where there is a ledger. -/
def DatabaseState.row? (db : DatabaseState δ) (module id : String) : Option LedgerRow :=
  db.ledger.bind fun ledger => ledger.row? module id

/-! ### Errors -/

/-- `DatabaseMigrationErrorCode`. -/
inductive MigrationErrorCode where
  | checksumMismatch
  | dialectNotSupported
  | duplicateMigrationId
  | applyFailed
  | partialMigration
  | wrongLedgerDialect
  | legacyDatabase
deriving DecidableEq, Repr

/-- The code as it stands in an error. -/
def MigrationErrorCode.text : MigrationErrorCode → String
  | .checksumMismatch => "CHECKSUM_MISMATCH"
  | .dialectNotSupported => "DIALECT_NOT_SUPPORTED"
  | .duplicateMigrationId => "DUPLICATE_MIGRATION_ID"
  | .applyFailed => "APPLY_FAILED"
  | .partialMigration => "PARTIAL_MIGRATION"
  | .wrongLedgerDialect => "WRONG_LEDGER_DIALECT"
  | .legacyDatabase => "LEGACY_DATABASE"

/-- What a run throws: a `DatabaseError`, a `DatabaseMigrationError`, or an error of the
driver. -/
inductive MigrationFault where
  | database (code message : String)
  | migration (code : MigrationErrorCode) (migrationId message : String)
  | driver (message : String)
deriving DecidableEq, Repr

/-- The gist of an error: its code and the migration it names. -/
def MigrationFault.gist : MigrationFault → String × String
  | .database code _ => (code, "")
  | .migration code migrationId _ => (code.text, migrationId)
  | .driver message => (message, "")

/-! ### Migrations -/

inductive ExistingMigrationState where
  | absent
  | complete
  | partially
deriving DecidableEq, Repr

structure DatabaseMigration (δ : Type) where
  id : String
  sql : String → Option String
  inspectExisting : Option (DatabaseState δ → Except MigrationFault ExistingMigrationState) := none

/-- The dialect and the capability of the database a run is given. -/
structure DatabaseHandle where
  dialectId : String
  transactionalDdl : Bool
deriving DecidableEq, Repr

/-- What a run takes from its host: digests, what the database is behind a script that does
not fail, and what the script of the ledger does to privileges. -/
class MigrationHost (δ : Type) where
  sha256Hex : String → String
  executeScript : String → DatabaseState δ → Option (DatabaseState δ)
  revokePrivileges : δ → δ

/-- `replace(/\r\n?/g, '\n')`. -/
def normalizeNewlines : List Char → List Char
  | [] => []
  | '\r' :: '\n' :: cs => '\n' :: normalizeNewlines cs
  | c :: cs => (if c = '\r' then '\n' else c) :: normalizeNewlines cs

def moduleMigrationChecksum [MigrationHost δ] (statements : String) : String :=
  "sha256:" ++ MigrationHost.sha256Hex δ
    (String.ofList (trimChars (normalizeNewlines statements.toList)))

/-- `/^[0-9]{4}_[a-z][a-z0-9_]{0,122}$/`. -/
def isMigrationId (id : String) : Bool :=
  match id.toList with
  | a :: b :: c :: d :: '_' :: e :: rest =>
    [a, b, c, d].all Char.isDigit && e.isLower && rest.length ≤ 122 &&
      rest.all fun c => c.isLower || c.isDigit || c = '_'
  | _ => false

/-- `/^[a-z][a-z0-9.-]{0,127}$/`. -/
def isNamespace (name : String) : Bool :=
  match name.toList with
  | c :: rest =>
    c.isLower && rest.length ≤ 127 &&
      rest.all fun c => c.isLower || c.isDigit || c = '.' || c = '-'
  | [] => false

example : isMigrationId "0001_notes_core" = true ∧ isMigrationId "001_notes" = false := by decide

def assertNamespace (name : String) : Except MigrationFault Unit :=
  if isNamespace name then .ok ()
  else .error (.database "INVALID_ARGUMENT"
    ("\"" ++ name ++ "\" is not a valid database namespace."))

/-- `assertMigrations`, with the ids seen so far. -/
def assertMigrations : List String → List (DatabaseMigration δ) → Except MigrationFault Unit
  | _, [] => .ok ()
  | seen, migration :: migrations =>
    if ¬isMigrationId migration.id then
      .error (.database "INVALID_ARGUMENT"
        ("\"" ++ migration.id ++ "\" is not a valid migration id."))
    else if migration.id ∈ seen then
      .error (.migration .duplicateMigrationId migration.id
        ("Migration \"" ++ migration.id ++ "\" is listed twice."))
    else assertMigrations (migration.id :: seen) migrations

/-- The script of a dialect; an empty one counts as none. -/
def DatabaseMigration.script (migration : DatabaseMigration δ) (dialectId : String) :
    Option String :=
  (migration.sql dialectId).filter fun sql => sql ≠ ""

def sqlFor (migration : DatabaseMigration δ) (dialectId : String) :
    Except MigrationFault String :=
  match migration.script dialectId with
  | some sql => .ok sql
  | none => .error (.migration .dialectNotSupported migration.id
      ("Migration \"" ++ migration.id ++ "\" has no " ++ dialectId ++ " SQL."))

def assertNotLegacyDatabase (db : DatabaseState δ) : Except MigrationFault Unit :=
  if db.legacy then
    .error (.migration .legacyDatabase ""
      ("This database was created by Flowdular 0.5 or earlier. Flowdular 0.6 renamed the " ++
        "database roles, the tenant setting and the migration ledger, and it does not upgrade " ++
        "an older database, so no table or migration record was changed. " ++
        "Local embedded database: stop Flowdular, then delete .flowdular/data/pglite (or the " ++
        "FD_DATABASE_PGLITE_DIRECTORY directory) or run \"pnpm flowdular setup quick --apply " ++
        "--confirm reset-local-auth\". Docker: run \"docker compose --env-file " ++
        "infra/docker/.env -f infra/docker/compose.yaml down -v\" and start again. " ++
        "PostgreSQL server: create a new database with the flowdular_migrator, " ++
        "flowdular_runtime and flowdular_background roles."))
  else .ok ()

/-! ### A dry run -/

/-- `DatabaseMigrationState`. -/
inductive MigrationState where
  | applied
  | pending
  | partially
  | adopted
  | mismatch
  | unsupported
deriving DecidableEq, Repr

structure DatabaseMigrationStatus where
  id : String
  state : MigrationState
  checksum : Option String
  appliedAt : Option ℤ
  reason : Option String := none
deriving DecidableEq, Repr

/-- `DatabaseMigrationAction`. -/
inductive MigrationAction where
  | applied
  | adopted
  | unchanged
deriving DecidableEq, Repr

structure DatabaseMigrationResult where
  id : String
  action : MigrationAction
  checksum : String
deriving DecidableEq, Repr

/-- `Number.isSafeInteger`, of an integer. -/
def IsSafeInteger (n : ℤ) : Prop :=
  -(2 ^ 53 - 1) ≤ n ∧ n ≤ 2 ^ 53 - 1

instance (n : ℤ) : Decidable (IsSafeInteger n) :=
  inferInstanceAs (Decidable (_ ∧ _))

def appliedAt (value : ℤ) : Except MigrationFault ℤ :=
  if IsSafeInteger value then .ok value
  else .error (.database "INVALID_ARGUMENT"
    "The migration ledger contains an invalid applied_at value.")

/-- `inspectExisting?.(database)`. -/
def DatabaseMigration.existing (migration : DatabaseMigration δ) (db : DatabaseState δ) :
    Except MigrationFault (Option ExistingMigrationState) :=
  match migration.inspectExisting with
  | none => .ok none
  | some inspect => (inspect db).map some

section

variable [MigrationHost δ]

def stateOf (handle : DatabaseHandle) (db : DatabaseState δ) (migration : DatabaseMigration δ)
    (row : Option LedgerRow) : Except MigrationFault DatabaseMigrationStatus :=
  match migration.script handle.dialectId with
  | none =>
    .ok { id := migration.id, state := .unsupported, checksum := none, appliedAt := none
          reason := some ("No " ++ handle.dialectId ++ " SQL is declared.") }
  | some sql =>
    let checksum := moduleMigrationChecksum (δ := δ) sql
    match row with
    | some row => do
      let time ← appliedAt row.appliedAt
      if row.dialect ≠ handle.dialectId then
        return { id := migration.id, state := .mismatch, checksum := some checksum
                 appliedAt := some time
                 reason := some ("The ledger records dialect " ++ row.dialect ++ ".") }
      else if row.checksum = checksum then
        return { id := migration.id, state := .applied, checksum := some checksum
                 appliedAt := some time }
      else
        return { id := migration.id, state := .mismatch, checksum := some checksum
                 appliedAt := some time
                 reason := some ("The ledger holds " ++ row.checksum ++
                   "; the migration now hashes to " ++ checksum ++ ".") }
    | none => do
      match ← migration.existing db with
      | some .complete =>
        return { id := migration.id, state := .adopted, checksum := some checksum
                 appliedAt := none }
      | some .partially =>
        return { id := migration.id, state := .partially, checksum := some checksum
                 appliedAt := none
                 reason := some "The migration is only partially present." }
      | some .absent | none =>
        return { id := migration.id, state := .pending, checksum := some checksum
                 appliedAt := none }

omit [MigrationHost δ] in
/-- The fault of an answer that is a rejection. -/
def rejection? {α : Type} : Except MigrationFault α → Option MigrationFault
  | .error fault => some fault
  | .ok _ => none

omit [MigrationHost δ] in
/-- `Promise.all`: where some are rejected, one of these decides, whichever is the first. -/
def promiseAll {α : Type} (race : ℕ) (answers : List (Except MigrationFault α)) :
    Except MigrationFault (List α) :=
  match answers.filterMap rejection? with
  | [] => .ok (answers.filterMap Except.toOption)
  | fault :: faults => .error ((fault :: faults).getD (race % (faults.length + 1)) fault)

def databaseMigrationStatus (handle : DatabaseHandle) (module : String)
    (migrations : List (DatabaseMigration δ)) (race : ℕ) (db : DatabaseState δ) :
    Except MigrationFault (List DatabaseMigrationStatus) := do
  assertNamespace module
  assertMigrations [] migrations
  assertNotLegacyDatabase db
  promiseAll race (migrations.map fun migration =>
    stateOf handle db migration (db.row? module migration.id))

omit [MigrationHost δ] in
/-- What a dry run tells of a status. -/
def resultOf (status : DatabaseMigrationStatus) : Except MigrationFault DatabaseMigrationResult :=
  match status.checksum with
  | none =>
    .error (.migration .dialectNotSupported status.id
      (status.reason.getD "The database dialect is unsupported."))
  | some checksum =>
    match status.state with
    | .mismatch =>
      .error (.migration .checksumMismatch status.id
        (status.reason.getD "The migration checksum does not match."))
    | .partially =>
      .error (.migration .partialMigration status.id
        (status.reason.getD "The migration is only partially present."))
    | .applied => .ok { id := status.id, action := .unchanged, checksum }
    | .adopted => .ok { id := status.id, action := .adopted, checksum }
    | .pending | .unsupported => .ok { id := status.id, action := .applied, checksum }

/-! ### A run -/

/-- The script that makes the ledger and revokes what was granted on it. -/
def migrationLedgerDdl (db : DatabaseState δ) : DatabaseState δ :=
  { db with
    ledger := some (db.ledger.getD Ledger.empty)
    content := MigrationHost.revokePrivileges db.content }

omit [MigrationHost δ] in
def mismatchError (dialectId : String) (migration : DatabaseMigration δ) (row : LedgerRow)
    (checksum : String) : Option MigrationFault :=
  if row.dialect ≠ dialectId then
    some (.migration .wrongLedgerDialect migration.id
      ("Migration \"" ++ migration.id ++ "\" was recorded for " ++ row.dialect ++ ", not " ++
        dialectId ++ "."))
  else if row.checksum = checksum then none
  else
    some (.migration .checksumMismatch migration.id
      ("Migration \"" ++ migration.id ++ "\" was applied as " ++ row.checksum ++
        " but now hashes to " ++ checksum ++ "."))

/-- The checksum of a migration, compared with its row. -/
def checksumOf (handle : DatabaseHandle) (rows : String → Option LedgerRow)
    (migration : DatabaseMigration δ) :
    Except MigrationFault (DatabaseMigration δ × String) := do
  let sql ← sqlFor migration handle.dialectId
  let checksum := moduleMigrationChecksum (δ := δ) sql
  match rows migration.id with
  | none => return (migration, checksum)
  | some row =>
    match mismatchError handle.dialectId migration row checksum with
    | some fault => throw fault
    | none => return (migration, checksum)

omit [MigrationHost δ] in
def recordMigration (row : LedgerRow) (db : DatabaseState δ) : Except MigrationFault (DatabaseState δ) :=
  match db.ledger.bind fun ledger => ledger.insert row with
  | none => .error (.driver "The migration could not be recorded.")
  | some ledger => .ok { db with ledger := some ledger }

def executeScript (sql : String) (db : DatabaseState δ) : Except MigrationFault (DatabaseState δ) :=
  match MigrationHost.executeScript sql db with
  | none => .error (.driver "The script failed.")
  | some db => .ok db

/-- What a run does with a migration that has no row. -/
def applyMigration (handle : DatabaseHandle) (module : String) (now : ℤ)
    (migration : DatabaseMigration δ) (checksum : String) (db : DatabaseState δ) :
    Except MigrationFault (MigrationAction × DatabaseState δ) :=
  migration.existing db >>= fun existing =>
    if existing = some .partially then
      .error (.migration .partialMigration migration.id
        ("Migration \"" ++ migration.id ++ "\" is only partially present."))
    else
      sqlFor migration handle.dialectId >>= fun sql =>
        (if existing = some .complete then .ok db else executeScript sql db) >>= fun db =>
          (recordMigration
            { module, id := migration.id, dialect := handle.dialectId, checksum, appliedAt := now }
            db).map fun db => (if existing = some .complete then .adopted else .applied, db)

omit [MigrationHost δ] in
/-- The `catch` around a migration. -/
def caught {α : Type} (migrationId : String) : Except MigrationFault α → Except MigrationFault α
  | .ok a => .ok a
  | .error (.migration code id message) => .error (.migration code id message)
  | .error _ => .error (.migration .applyFailed migrationId
      ("Migration \"" ++ migrationId ++ "\" failed and was rolled back."))

/-- The migrations in order; the clock is read at each that is recorded. -/
def applyAll (handle : DatabaseHandle) (module : String) (rows : String → Option LedgerRow)
    (now : ℕ → ℤ) : ℕ → List (DatabaseMigration δ × String) → DatabaseState δ →
      Except MigrationFault (List DatabaseMigrationResult × DatabaseState δ)
  | _, [], db => .ok ([], db)
  | k, (migration, checksum) :: rest, db =>
    match rows migration.id with
    | some _ =>
      match applyAll handle module rows now k rest db with
      | .error fault => .error fault
      | .ok (results, db) =>
        .ok ({ id := migration.id, action := .unchanged, checksum } :: results, db)
    | none =>
      match caught migration.id (applyMigration handle module (now k) migration checksum db) with
      | .error fault => .error fault
      | .ok (action, db) =>
        match applyAll handle module rows now (k + 1) rest db with
        | .error fault => .error fault
        | .ok (results, db) => .ok ({ id := migration.id, action, checksum } :: results, db)

/-- What stands in the transaction of a run. -/
def migrateAll (handle : DatabaseHandle) (module : String)
    (migrations : List (DatabaseMigration δ)) (now : ℕ → ℤ) (db : DatabaseState δ) :
    Except MigrationFault (List DatabaseMigrationResult × DatabaseState δ) := do
  assertNotLegacyDatabase db
  let db := migrationLedgerDdl db
  let rows := db.row? module
  let checked ← migrations.mapM (checksumOf handle rows)
  applyAll handle module rows now 0 checked db

omit [MigrationHost δ] in
/-- `transaction`: an error leaves the database as it was. -/
def transaction {α : Type} (body : DatabaseState δ → Except MigrationFault (α × DatabaseState δ))
    (db : DatabaseState δ) : Except MigrationFault α × DatabaseState δ :=
  match body db with
  | .ok (a, db) => (.ok a, db)
  | .error fault => (.error fault, db)

/-- What `runDatabaseMigrations` checks before it looks at the database. -/
def assertRunnable (handle : DatabaseHandle) (module : String)
    (migrations : List (DatabaseMigration δ)) : Except MigrationFault Unit := do
  assertNamespace module
  assertMigrations [] migrations
  if handle.transactionalDdl then return ()
  else throw (.database "UNSUPPORTED_CAPABILITY"
    "Flowdular migrations require transactional DDL.")

/-- `runDatabaseMigrations`, with what its clock reads and which rejection comes first. -/
def runDatabaseMigrations (handle : DatabaseHandle) (module : String)
    (migrations : List (DatabaseMigration δ)) (dryRun : Bool) (race : ℕ) (now : ℕ → ℤ)
    (db : DatabaseState δ) : Except MigrationFault (List DatabaseMigrationResult) × DatabaseState δ :=
  match assertRunnable handle module migrations with
  | .error fault => (.error fault, db)
  | .ok () =>
    if dryRun then
      (databaseMigrationStatus handle module migrations race db >>= fun statuses =>
        statuses.mapM resultOf, db)
    else transaction (migrateAll handle module migrations now) db

end

end Flowdular.Database
