/-
# What a dry run tells of a run

`src/packages/database/src/migrations.ts`, as in `Migrations`.

A dry run judges every migration on the database as it is; a run compares all of them with
the ledger first, and then judges each on the database the ones before it left.  They agree
where this makes no difference (`Foreseen`): the inspections answer at their turn as they do
now, the scripts run, and nothing that is there in part stands before what the ledger
refuses (`dryRun_agrees`).

A run that fails leaves the database as it was.  One that succeeds records every migration
it did not find recorded, as long as the scripts leave the ledger alone, and the next run
then finds all of them (`run_again`).
-/

import Flowdular.Database.Migrations
import Flowdular.Lib.Prog
import Mathlib.Data.List.Forall2

namespace Flowdular.Database

variable {δ : Type} [MigrationHost δ]

/-! ### What the two agree on -/

/-- Two outcomes agree: they list the same migrations, or refuse with the same code, naming
the same migration. -/
def Agree : Except MigrationFault (List DatabaseMigrationResult) →
    Except MigrationFault (List DatabaseMigrationResult) → Prop
  | .ok results, .ok results' => results = results'
  | .error fault, .error fault' => fault.gist = fault'.gist
  | _, _ => False

instance : ∀ outcome outcome', Decidable (Agree outcome outcome')
  | .ok results, .ok results' => inferInstanceAs (Decidable (results = results'))
  | .error fault, .error fault' => inferInstanceAs (Decidable (fault.gist = fault'.gist))
  | .ok _, .error _ | .error _, .ok _ => isFalse id

/-- A migration the ledger refuses: it has no script of the dialect, or its row is of
another checksum. -/
def Refused (handle : DatabaseHandle) (rows : String → Option LedgerRow)
    (migration : DatabaseMigration δ) : Prop :=
  ∀ checked, checksumOf handle rows migration ≠ .ok checked

/-- A migration without a row that is there in part. -/
def PartlyPresent (rows : String → Option LedgerRow) (db : DatabaseState δ)
    (migration : DatabaseMigration δ) : Prop :=
  rows migration.id = none ∧ migration.existing db = .ok (some .partially)

/-- The inspections of a run answer as on the database `start`, and what it does succeeds,
up to a migration that is there in part. -/
def Steady (handle : DatabaseHandle) (module : String) (rows : String → Option LedgerRow)
    (now : ℕ → ℤ) (start : DatabaseState δ) :
    ℕ → List (DatabaseMigration δ × String) → DatabaseState δ → Prop
  | _, [], _ => True
  | k, (migration, checksum) :: rest, db =>
    match rows migration.id with
    | some _ => Steady handle module rows now start k rest db
    | none =>
      migration.existing db = migration.existing start ∧
        (migration.existing start = .ok (some .partially) ∨
          ∃ action db', applyMigration handle module (now k) migration checksum db =
              .ok (action, db') ∧
            Steady handle module rows now start (k + 1) rest db')

/-- Where a dry run foresees the run. -/
structure Foreseen (handle : DatabaseHandle) (module : String)
    (migrations : List (DatabaseMigration δ)) (now : ℕ → ℤ) (db : DatabaseState δ) : Prop where
  dialect : ∀ migration ∈ migrations, ∀ row, db.row? module migration.id = some row →
    row.dialect = handle.dialectId
  time : ∀ migration ∈ migrations, ∀ row, db.row? module migration.id = some row →
    IsSafeInteger row.appliedAt
  answers : ∀ migration ∈ migrations, db.row? module migration.id = none →
    ∃ existing, migration.existing db = .ok existing
  order : migrations.Pairwise fun earlier later =>
    PartlyPresent (db.row? module) db earlier → ¬Refused handle (db.row? module) later
  steady : ∀ checked, migrations.mapM (checksumOf handle (db.row? module)) = .ok checked →
    Steady handle module (db.row? module) now db 0 checked (migrationLedgerDdl db)

/-! ### One migration -/

omit [MigrationHost δ] in
/-- The ledger's own script adds no row and takes none. -/
theorem row?_migrationLedgerDdl [MigrationHost δ] (db : DatabaseState δ) :
    (migrationLedgerDdl db).row? = db.row? := by
  funext module id
  unfold migrationLedgerDdl DatabaseState.row?
  cases db.ledger with
  | none => rfl
  | some ledger => rfl

/-- What a dry run tells of one migration. -/
def foretell (handle : DatabaseHandle) (module : String) (db : DatabaseState δ)
    (migration : DatabaseMigration δ) : Except MigrationFault DatabaseMigrationResult :=
  stateOf handle db migration (db.row? module migration.id) >>= resultOf

variable {db : DatabaseState δ} {handle : DatabaseHandle} {migration : DatabaseMigration δ}
  {module checksum : String} {α β ε : Type} {a : α} {f : α → Except ε β} {fault : ε} {as : List α}

/-- What the ledger refuses a dry run refuses, with the same code. -/
theorem foretell_refused {fault : MigrationFault}
    (hd : ∀ row, db.row? module migration.id = some row → row.dialect = handle.dialectId)
    (ht : ∀ row, db.row? module migration.id = some row → IsSafeInteger row.appliedAt)
    (h : checksumOf handle (db.row? module) migration = .error fault) :
    ∃ fault', foretell handle module db migration = .error fault' ∧ fault'.gist = fault.gist := by
  unfold checksumOf sqlFor at h
  unfold foretell stateOf
  cases hs : migration.script handle.dialectId with
  | none =>
    rw [hs] at h
    cases h
    exact ⟨_, rfl, rfl⟩
  | some sql =>
    rw [hs] at h
    cases hr : db.row? module migration.id with
    | none =>
      simp only [hr] at h
      cases h
    | some row =>
      simp only [hr, bind, Except.bind, mismatchError, hd row hr, ne_eq, not_true_eq_false,
        if_false] at h
      simp only [appliedAt, ht row hr, hd row hr, if_true, bind, Except.bind, ne_eq,
        not_true_eq_false, if_false]
      split at h
      · next hm =>
        split at hm
        · cases hm
        · next hc =>
          cases hm
          cases h
          rw [if_neg hc]
          exact ⟨_, rfl, rfl⟩
      · cases h

/-- What passes the ledger: there is a script, and the row, if there is one, is its own. -/
theorem checksumOf_eq_ok {rows : String → Option LedgerRow}
    {checked : DatabaseMigration δ × String} :
    checksumOf handle rows migration = .ok checked ↔
      checked.1 = migration ∧ ∃ sql, migration.script handle.dialectId = some sql ∧
        checked.2 = moduleMigrationChecksum (δ := δ) sql ∧
        ∀ row, rows migration.id = some row →
          row.dialect = handle.dialectId ∧ row.checksum = checked.2 := by
  obtain ⟨migration', checksum⟩ := checked
  unfold checksumOf sqlFor
  cases hs : migration.script handle.dialectId with
  | none =>
    refine iff_of_false (by nofun) ?_
    rintro ⟨-, sql, h, -⟩
    cases h
  | some sql =>
    cases hr : rows migration.id with
    | none =>
      simp only [bind, Except.bind, pure, Except.pure, Except.ok.injEq, Prod.mk.injEq,
        Option.some.injEq, exists_eq_left', reduceCtorEq, false_implies, implies_true, and_true]
      exact and_congr eq_comm eq_comm
    | some row =>
      simp only [bind, Except.bind, mismatchError, Option.some.injEq, exists_eq_left', forall_eq']
      by_cases hd : row.dialect = handle.dialectId
      · by_cases hc : row.checksum = moduleMigrationChecksum (δ := δ) sql
        · simp only [hd, hc, ne_eq, not_true_eq_false, if_false, if_true, pure,
            Except.pure, Except.ok.injEq, Prod.mk.injEq, true_and]
          constructor
          · rintro ⟨rfl, rfl⟩
            exact ⟨rfl, rfl, rfl⟩
          · rintro ⟨rfl, rfl, -⟩
            exact ⟨rfl, rfl⟩
        · rw [if_neg (by simpa using hd), if_neg hc]
          refine iff_of_false (by nofun) ?_
          rintro ⟨-, rfl, -, h⟩
          exact hc h
      · rw [if_pos hd]
        refine iff_of_false (by nofun) ?_
        rintro ⟨-, -, h, -⟩
        exact hd h

/-- What the ledger lets pass a dry run foretells from its row. -/
theorem foretell_row (h : checksumOf handle (db.row? module) migration = .ok (migration, checksum))
    {row : LedgerRow} (hr : db.row? module migration.id = some row)
    (ht : IsSafeInteger row.appliedAt) :
    foretell handle module db migration = .ok { id := migration.id, action := .unchanged, checksum } := by
  obtain ⟨-, sql, hs, rfl, ho⟩ := checksumOf_eq_ok.1 h
  obtain ⟨hd, hc⟩ := ho row hr
  unfold foretell stateOf
  simp only [hs, hr, appliedAt, ht, if_true, bind, Except.bind, hd, ne_eq,
    not_true_eq_false, if_false, hc]
  rfl

/-- What the ledger lets pass a dry run foretells from its inspection, where there is no row. -/
theorem foretell_existing
    (h : checksumOf handle (db.row? module) migration = .ok (migration, checksum))
    (hr : db.row? module migration.id = none) {existing : Option ExistingMigrationState}
    (he : migration.existing db = .ok existing) :
    foretell handle module db migration = if existing = some .partially then
        .error (.migration .partialMigration migration.id "The migration is only partially present.")
      else
        .ok { id := migration.id, checksum
              action := if existing = some .complete then .adopted else .applied } := by
  obtain ⟨-, sql, hs, rfl, -⟩ := checksumOf_eq_ok.1 h
  unfold foretell stateOf
  simp only [hs, hr, he, bind, Except.bind]
  rcases existing with - | (- | - | -) <;> rfl

/-- What a run does with a migration, if it succeeds. -/
theorem applyMigration_eq_ok {now : ℤ} {db' : DatabaseState δ} {action : MigrationAction}
    (h : applyMigration handle module now migration checksum db = .ok (action, db')) :
    ∃ existing, migration.existing db = .ok existing ∧ existing ≠ some .partially ∧
      action = (if existing = some .complete then .adopted else .applied) ∧
      ∃ mid, (mid = db ∨ ∃ sql, migration.script handle.dialectId = some sql ∧
          MigrationHost.executeScript sql db = some mid) ∧
        recordMigration { module, id := migration.id, dialect := handle.dialectId, checksum
                          appliedAt := now } mid = .ok db' := by
  obtain ⟨existing, he, h⟩ := Lib.bind_eq_ok h
  refine ⟨existing, he, ?_⟩
  split at h
  · cases h
  · next hp =>
    obtain ⟨sql, hs, h⟩ := Lib.bind_eq_ok h
    obtain ⟨mid, hm, h⟩ := Lib.bind_eq_ok h
    cases hr : recordMigration
        { module, id := migration.id, dialect := handle.dialectId, checksum, appliedAt := now } mid with
    | error fault =>
      rw [hr] at h
      cases h
    | ok last =>
      rw [hr] at h
      cases h
      refine ⟨hp, rfl, mid, ?_, hr⟩
      split at hm
      · cases hm
        exact .inl rfl
      · refine .inr ⟨sql, ?_, ?_⟩
        · unfold sqlFor at hs
          split at hs
          · next hscr =>
            cases hs
            exact hscr
          · cases hs
        · unfold executeScript at hm
          split at hm
          · cases hm
          · next hexe =>
            cases hm
            exact hexe

/-! ### All migrations -/

omit [MigrationHost δ] in
theorem mapM_cons_error
    (h : f a = .error fault) (as : List α) : (a :: as).mapM f = .error fault := by
  rw [List.mapM_cons, h]
  rfl

omit [MigrationHost δ] in
theorem mapM_cons_ok {b : β} (h : f a = .ok b)
    (as : List α) : (a :: as).mapM f = (as.mapM f).map (b :: ·) := by
  rw [List.mapM_cons, h]
  cases as.mapM f <;> rfl

omit [MigrationHost δ] in
/-- Where all of a list fails, one of its elements does. -/
theorem exists_error_of_mapM (h : as.mapM f = .error fault) : ∃ a ∈ as, ∀ b, f a ≠ .ok b := by
  induction as with
  | nil => cases h
  | cons a as ih =>
    cases hf : f a with
    | error fault' =>
      refine ⟨a, List.mem_cons_self, fun b hb => ?_⟩
      rw [hf] at hb
      cases hb
    | ok b =>
      rw [mapM_cons_ok hf] at h
      cases hr : as.mapM f with
      | error fault' =>
        obtain ⟨a', ha', hbad⟩ := ih (hr.trans (by rw [hr] at h; exact h))
        exact ⟨a', List.mem_cons_of_mem a ha', hbad⟩
      | ok bs =>
        rw [hr] at h
        cases h

omit [MigrationHost δ] in
/-- Where no answer is a rejection, `Promise.all` is the list of them. -/
theorem promiseAll_bind {γ : Type} {g : α → Except MigrationFault β}
    (r : β → Except MigrationFault γ) (race : ℕ) (h : ∀ a ∈ as, ∃ b, g a = .ok b) :
    promiseAll race (as.map g) >>= (fun bs => bs.mapM r) = as.mapM fun a => g a >>= r := by
  have hans : ∃ bs : List β, as.map g = bs.map Except.ok ∧
      bs.mapM r = as.mapM fun a => g a >>= r := by
    induction as with
    | nil => exact ⟨[], rfl, rfl⟩
    | cons a as ih =>
      obtain ⟨b, hb⟩ := h a List.mem_cons_self
      obtain ⟨bs, hm, hbind⟩ := ih fun a' ha' => h a' (List.mem_cons_of_mem a ha')
      refine ⟨b :: bs, ?_, ?_⟩
      · rw [List.map_cons, List.map_cons, hm, hb]
      · rw [List.mapM_cons, List.mapM_cons, hbind, hb]
        rfl
  obtain ⟨bs, hm, hbind⟩ := hans
  have hn : (bs.map Except.ok).filterMap rejection? = [] := by
    rw [List.filterMap_map]
    exact List.filterMap_eq_nil_iff.2 fun _ _ => rfl
  have hall : (bs.map (@Except.ok MigrationFault β)).filterMap Except.toOption = bs := by
    rw [List.filterMap_map]
    exact List.filterMap_some
  rw [hm, promiseAll, hn, hall]
  exact hbind

section

variable {handle : DatabaseHandle} {module : String} {db : DatabaseState δ}

variable {fault : MigrationFault} {migrations : List (DatabaseMigration δ)} {checksum : String}
  {k race : ℕ} {mid db' : DatabaseState δ} {migration : DatabaseMigration δ} {now : ℕ → ℤ}
  {rest checked : List (DatabaseMigration δ × String)} {action : MigrationAction} {α : Type}
  {results : List DatabaseMigrationResult}

/-- Where the ledger refuses a migration, both runs name the same one. -/
theorem foretell_all_refused
    (hd : ∀ migration ∈ migrations, ∀ row, db.row? module migration.id = some row →
      row.dialect = handle.dialectId)
    (ht : ∀ migration ∈ migrations, ∀ row, db.row? module migration.id = some row →
      IsSafeInteger row.appliedAt)
    (ha : ∀ migration ∈ migrations, db.row? module migration.id = none →
      ∃ existing, migration.existing db = .ok existing)
    (ho : migrations.Pairwise fun earlier later =>
      PartlyPresent (db.row? module) db earlier → ¬Refused handle (db.row? module) later)
    (h : migrations.mapM (checksumOf handle (db.row? module)) = .error fault) :
    ∃ fault', migrations.mapM (foretell handle module db) = .error fault' ∧
      fault'.gist = fault.gist := by
  induction migrations with
  | nil => cases h
  | cons migration migrations ih =>
    rw [List.forall_mem_cons] at hd ht ha
    rw [List.pairwise_cons] at ho
    cases hf : checksumOf handle (db.row? module) migration with
    | error fault' =>
      rw [mapM_cons_error hf] at h
      cases h
      obtain ⟨fault', hfor, hg⟩ := foretell_refused hd.1 ht.1 hf
      exact ⟨fault', mapM_cons_error hfor _, hg⟩
    | ok checked =>
      obtain ⟨migration', checksum⟩ := checked
      obtain rfl : migration' = migration := (checksumOf_eq_ok.1 hf).1
      rw [mapM_cons_ok hf] at h
      cases hrest : migrations.mapM (checksumOf handle (db.row? module)) with
      | ok checked =>
        rw [hrest] at h
        cases h
      | error fault' =>
        rw [hrest] at h
        cases h
        obtain ⟨fault', hfor, hg⟩ := ih hd.2 ht.2 ha.2 ho.2 hrest
        have hok : ∃ result, foretell handle module db migration' = .ok result := by
          cases hrow : db.row? module migration'.id with
          | some row => exact ⟨_, foretell_row hf hrow (ht.1 row hrow)⟩
          | none =>
            obtain ⟨existing, he⟩ := ha.1 hrow
            rw [foretell_existing hf hrow he]
            split
            · next hp =>
              subst hp
              obtain ⟨later, hl, hr⟩ := exists_error_of_mapM hrest
              exact absurd hr (ho.1 later hl ⟨hrow, he⟩)
            · exact ⟨_, rfl⟩
        obtain ⟨result, hres⟩ := hok
        refine ⟨fault', ?_, hg⟩
        rw [mapM_cons_ok hres, hfor]
        rfl

omit [MigrationHost δ] in
theorem Agree.cons {outcome : Except MigrationFault (List DatabaseMigrationResult)}
    {ran : Except MigrationFault (List DatabaseMigrationResult × DatabaseState δ)}
    (h : Agree outcome (ran.map Prod.fst)) (result : DatabaseMigrationResult) :
    Agree (outcome.map (result :: ·))
      ((ran.map fun (results, last) => (result :: results, last)).map Prod.fst) := by
  cases outcome with
  | error fault =>
    cases ran with
    | error fault' => exact h
    | ok ran => exact h
  | ok results =>
    cases ran with
    | error fault' => exact h
    | ok ran => exact congrArg (result :: ·) h

/-- The results of a run whose first migration has a row. -/
theorem applyAll_row {rows : String → Option LedgerRow} {row : LedgerRow}
    (hr : rows migration.id = some row) :
    applyAll handle module rows now k ((migration, checksum) :: rest) mid =
      (applyAll handle module rows now k rest mid).map fun (results, last) =>
        ({ id := migration.id, action := .unchanged, checksum } :: results, last) := by
  rw [applyAll, hr]
  cases applyAll handle module rows now k rest mid <;> rfl

/-- The results of a run whose first migration has none and is applied. -/
theorem applyAll_none {rows : String → Option LedgerRow} {mid' : DatabaseState δ}
    (hr : rows migration.id = none)
    (ha : applyMigration handle module (now k) migration checksum mid = .ok (action, mid')) :
    applyAll handle module rows now k ((migration, checksum) :: rest) mid =
      (applyAll handle module rows now (k + 1) rest mid').map fun (results, last) =>
        ({ id := migration.id, action, checksum } :: results, last) := by
  rw [applyAll, hr, ha]
  dsimp only [caught]
  cases applyAll handle module rows now (k + 1) rest mid' <;> rfl

/-- A run refuses a migration that is there in part. -/
theorem applyAll_partly {rows : String → Option LedgerRow} (hp : PartlyPresent rows mid migration) :
    applyAll handle module rows now k ((migration, checksum) :: rest) mid =
      .error (.migration .partialMigration migration.id
        ("Migration \"" ++ migration.id ++ "\" is only partially present.")) := by
  have ha : applyMigration handle module (now k) migration checksum mid =
      .error (.migration .partialMigration migration.id
        ("Migration \"" ++ migration.id ++ "\" is only partially present.")) := by
    rw [applyMigration, hp.2]
    rfl
  rw [applyAll, hp.1, ha]
  rfl

/-- Where the ledger lets all migrations pass, a steady run does what was foretold. -/
theorem agree_of_steady (now : ℕ → ℤ) : ∀ {migrations : List (DatabaseMigration δ)}
    {checked : List (DatabaseMigration δ × String)} {k : ℕ} {mid : DatabaseState δ},
    (∀ migration ∈ migrations, ∀ row, db.row? module migration.id = some row →
      IsSafeInteger row.appliedAt) →
    (∀ migration ∈ migrations, db.row? module migration.id = none →
      ∃ existing, migration.existing db = .ok existing) →
    migrations.mapM (checksumOf handle (db.row? module)) = .ok checked →
    Steady handle module (db.row? module) now db k checked mid →
    Agree (migrations.mapM (foretell handle module db))
      ((applyAll handle module (db.row? module) now k checked mid).map Prod.fst) := by
  intro migrations
  induction migrations with
  | nil =>
    intro checked k mid _ _ hc _
    cases hc
    exact (rfl : ([] : List DatabaseMigrationResult) = [])
  | cons migration migrations ih =>
    intro checked k mid ht ha hc hste
    rw [List.forall_mem_cons] at ht ha
    cases hf : checksumOf handle (db.row? module) migration with
    | error fault =>
      rw [mapM_cons_error hf] at hc
      cases hc
    | ok pair =>
      obtain ⟨migration', checksum⟩ := pair
      obtain rfl : migration' = migration := (checksumOf_eq_ok.1 hf).1
      rw [mapM_cons_ok hf] at hc
      cases hr : migrations.mapM (checksumOf handle (db.row? module)) with
      | error fault =>
        rw [hr] at hc
        cases hc
      | ok checked' =>
        rw [hr] at hc
        cases hc
        cases hrow : db.row? module migration'.id with
        | some row =>
          simp only [Steady, hrow] at hste
          have hagr := ih ht.2 ha.2 hr hste
          rw [mapM_cons_ok (foretell_row hf hrow (ht.1 row hrow)), applyAll_row hrow]
          exact hagr.cons _
        | none =>
          simp only [Steady, hrow] at hste
          obtain ⟨existing, he⟩ := ha.1 hrow
          have hfor := foretell_existing hf hrow he
          obtain ⟨hs, hp | ⟨action, mid', happ, hste'⟩⟩ := hste
          · rw [he] at hp
            cases hp
            rw [if_pos rfl] at hfor
            rw [mapM_cons_error hfor, applyAll_partly ⟨hrow, hs.trans he⟩]
            exact (rfl : ("PARTIAL_MIGRATION", migration'.id) = _)
          · obtain ⟨existing', he', hp, hact, -⟩ := applyMigration_eq_ok happ
            rw [hs, he] at he'
            cases he'
            rw [if_neg hp, ← hact] at hfor
            rw [mapM_cons_ok hfor, applyAll_none hrow happ]
            exact (ih ht.2 ha.2 hr hste').cons _

theorem run_refused {dryRun : Bool} (h : assertRunnable handle module migrations = .error fault) :
    runDatabaseMigrations handle module migrations dryRun race now db = (.error fault, db) := by
  rw [runDatabaseMigrations, h]

theorem run_dry (h : assertRunnable handle module migrations = .ok ()) :
    runDatabaseMigrations handle module migrations true race now db =
      ((assertNotLegacyDatabase db >>= fun _ =>
        promiseAll race (migrations.map fun migration =>
          stateOf handle db migration (db.row? module migration.id))) >>= fun statuses =>
            statuses.mapM resultOf, db) := by
  obtain ⟨⟨⟩, hn, hr⟩ := Lib.bind_eq_ok h
  obtain ⟨⟨⟩, hm, -⟩ := Lib.bind_eq_ok hr
  rw [runDatabaseMigrations, h]
  simp only [if_true, databaseMigrationStatus, hn, hm]
  rfl

theorem run_apply (h : assertRunnable handle module migrations = .ok ()) :
    runDatabaseMigrations handle module migrations false race now db =
      transaction (migrateAll handle module migrations now) db := by
  rw [runDatabaseMigrations, h]
  rfl

omit [MigrationHost δ] in
theorem transaction_fst (body : DatabaseState δ → Except MigrationFault (α × DatabaseState δ))
    (db : DatabaseState δ) : (transaction body db).1 = (body db).map Prod.fst := by
  unfold transaction
  cases body db <;> rfl

/-- **A dry run tells what a run does**, where it foresees the run. -/
theorem dryRun_agrees (h : Foreseen handle module migrations now db) (race : ℕ) :
    Agree (runDatabaseMigrations handle module migrations true race now db).1
      (runDatabaseMigrations handle module migrations false race now db).1 := by
  cases hr : assertRunnable handle module migrations with
  | error fault =>
    rw [run_refused hr, run_refused hr]
    exact (rfl : fault.gist = fault.gist)
  | ok =>
    rw [run_dry hr, run_apply hr]
    cases hl : assertNotLegacyDatabase db with
    | error fault =>
      rw [transaction_fst, migrateAll, hl]
      exact (rfl : fault.gist = fault.gist)
    | ok =>
      have hb : migrateAll handle module migrations now db =
          migrations.mapM (checksumOf handle (db.row? module)) >>= fun checked =>
            applyAll handle module (db.row? module) now 0 checked (migrationLedgerDdl db) := by
        rw [migrateAll, hl]
        simp only [row?_migrationLedgerDdl]
        rfl
      have hs : ∀ migration ∈ migrations, ∃ status,
          stateOf handle db migration (db.row? module migration.id) = .ok status := by
        intro migration hm
        unfold stateOf
        split
        · exact ⟨_, rfl⟩
        · split
          · next row hrow =>
            simp only [appliedAt, h.time migration hm row hrow, if_true, bind, Except.bind]
            split
            · exact ⟨_, rfl⟩
            · split <;> exact ⟨_, rfl⟩
          · next hrow =>
            obtain ⟨existing, he⟩ := h.answers migration hm hrow
            simp only [he, bind, Except.bind]
            split <;> exact ⟨_, rfl⟩
      have hd := promiseAll_bind resultOf race hs
      show Agree (promiseAll race (migrations.map fun migration =>
        stateOf handle db migration (db.row? module migration.id)) >>= fun statuses =>
          statuses.mapM resultOf) _
      rw [hd, transaction_fst, hb]
      cases hc : migrations.mapM (checksumOf handle (db.row? module)) with
      | error fault =>
        obtain ⟨fault', hf, hg⟩ :=
          foretell_all_refused h.dialect h.time h.answers h.order hc
        rw [show (migrations.mapM fun migration =>
          stateOf handle db migration (db.row? module migration.id) >>= resultOf) =
            .error fault' from hf]
        exact hg
      | ok checked =>
        have ha := agree_of_steady now h.time h.answers hc (h.steady checked hc)
        exact ha

/-! ### A run, and the next -/

omit [MigrationHost δ] in
/-- A run that fails leaves the database as it was. -/
theorem run_fails [MigrationHost δ]
    (h : (runDatabaseMigrations handle module migrations false race now db).1 = .error fault) :
    (runDatabaseMigrations handle module migrations false race now db).2 = db := by
  cases hr : assertRunnable handle module migrations with
  | error fault => rw [run_refused hr]
  | ok =>
    rw [run_apply hr] at h ⊢
    unfold transaction at h ⊢
    cases hb : migrateAll handle module migrations now db with
    | error fault => rfl
    | ok ran =>
      rw [hb] at h
      cases h

omit [MigrationHost δ] in
/-- A row that is inserted is found, and the others are still found. -/
theorem Ledger.row?_insert {ledger ledger' : Ledger} {row : LedgerRow}
    (h : ledger.insert row = some ledger') :
    ledger'.row? row.module row.id = some row ∧
      ∀ module id other, ledger.row? module id = some other →
        ledger'.row? module id = some other := by
  unfold Ledger.insert at h
  split at h
  · cases h
  · next hn =>
    cases h
    refine ⟨List.find?_cons_of_pos (decide_eq_true rfl), fun module id other ho => ?_⟩
    have hk : other.key = (module, id) := by
      have := List.find?_some ho
      simpa using this
    have hm := List.mem_of_find?_eq_some ho
    rw [Ledger.row?, List.find?_cons_of_neg]
    · exact ho
    · intro heq
      rw [decide_eq_true_iff] at heq
      rw [heq, ← hk] at hn
      exact hn (List.mem_map_of_mem hm)

/-- The scripts of the migrations leave both ledgers alone. -/
def KeepsLedgers (handle : DatabaseHandle) (migrations : List (DatabaseMigration δ)) : Prop :=
  ∀ migration ∈ migrations, ∀ sql, migration.script handle.dialectId = some sql →
    ∀ db db' : DatabaseState δ, MigrationHost.executeScript sql db = some db' →
      db'.ledger = db.ledger ∧ db'.legacy = db.legacy

omit [MigrationHost δ] in
/-- A migration is recorded, with its checksum. -/
def Recorded (handle : DatabaseHandle) (module : String) (db : DatabaseState δ)
    (id checksum : String) : Prop :=
  ∃ row, db.row? module id = some row ∧ row.dialect = handle.dialectId ∧ row.checksum = checksum

omit [MigrationHost δ] in
/-- A database has all rows of another, and its legacy. -/
structure Extends (module : String) (db db' : DatabaseState δ) : Prop where
  legacy : db'.legacy = db.legacy
  ledger : db.ledger.isSome → db'.ledger.isSome
  rows : ∀ id row, db.row? module id = some row → db'.row? module id = some row

omit [MigrationHost δ] in
theorem Extends.refl (db : DatabaseState δ) : Extends module db db :=
  ⟨rfl, id, fun _ _ h => h⟩

omit [MigrationHost δ] in
theorem Extends.trans {db₁ db₂ db₃ : DatabaseState δ} (h : Extends module db₁ db₂)
    (h' : Extends module db₂ db₃) : Extends module db₁ db₃ :=
  ⟨h'.legacy.trans h.legacy, fun hs => h'.ledger (h.ledger hs),
    fun id row hr => h'.rows id row (h.rows id row hr)⟩

omit [MigrationHost δ] in
theorem Recorded.mono {id : String}
    (h : Recorded handle module db id checksum) (he : Extends module db db') :
    Recorded handle module db' id checksum := by
  obtain ⟨row, hr, ho⟩ := h
  exact ⟨row, he.rows id row hr, ho⟩

/-- **One migration**: it is recorded, and nothing that was recorded is lost. -/
theorem applyMigration_records {now : ℤ} (hk : KeepsLedgers handle [migration])
    (h : applyMigration handle module now migration checksum db = .ok (action, db')) :
    Extends module db db' ∧ Recorded handle module db' migration.id checksum := by
  obtain ⟨existing, -, -, -, mid, hm, hr⟩ := applyMigration_eq_ok h
  have hs : mid.ledger = db.ledger ∧ mid.legacy = db.legacy := by
    rcases hm with rfl | ⟨sql, hscr, he⟩
    · exact ⟨rfl, rfl⟩
    · exact hk migration List.mem_cons_self sql hscr db mid he
  unfold recordMigration at hr
  split at hr
  · cases hr
  · next ledger' hi =>
    cases hr
    obtain ⟨ledger, hl, hi⟩ := Option.bind_eq_some_iff.1 hi
    obtain ⟨hself, ho⟩ := Ledger.row?_insert hi
    refine ⟨⟨hs.2, fun _ => rfl, fun id row hrow => ?_⟩, ⟨_, hself, rfl, rfl⟩⟩
    rw [hs.1] at hl
    rw [DatabaseState.row?, hl] at hrow
    exact ho module id row hrow

/-- **All migrations**: those without a row are recorded, and nothing that was recorded is
lost. -/
theorem applyAll_records {rows : String → Option LedgerRow} :
    ∀ {checked : List (DatabaseMigration δ × String)} {k : ℕ} {db db' : DatabaseState δ}
      {results : List DatabaseMigrationResult},
      KeepsLedgers handle (checked.map Prod.fst) →
      applyAll handle module rows now k checked db = .ok (results, db') →
      Extends module db db' ∧ (∀ pair ∈ checked, rows pair.1.id = none →
          Recorded handle module db' pair.1.id pair.2) ∧
        results.map (fun result => (result.id, result.checksum)) =
          checked.map fun pair => (pair.1.id, pair.2) := by
  intro checked
  induction checked with
  | nil =>
    intro k db db' results _ h
    cases h
    exact ⟨.refl _, fun _ hp => absurd hp List.not_mem_nil, rfl⟩
  | cons pair checked ih =>
    intro k db db' results hk h
    obtain ⟨migration, checksum⟩ := pair
    have hrest : KeepsLedgers handle (checked.map Prod.fst) := fun m hm =>
      hk m (List.mem_cons_of_mem _ hm)
    have ho : KeepsLedgers handle [migration] := fun m hm => by
      rw [List.mem_singleton.1 hm]
      exact hk migration List.mem_cons_self
    cases hrow : rows migration.id with
    | some row =>
      rw [applyAll_row hrow] at h
      cases hran : applyAll handle module rows now k checked db with
      | error fault =>
        rw [hran] at h
        cases h
      | ok ran =>
        rw [hran] at h
        cases h
        obtain ⟨he, hr, hres⟩ := ih hrest hran
        refine ⟨he, fun pair hp hn => ?_, ?_⟩
        · rcases List.mem_cons.1 hp with rfl | hp
          · rw [hrow] at hn
            cases hn
          · exact hr pair hp hn
        · rw [List.map_cons, List.map_cons, hres]
    | none =>
      cases ha : applyMigration handle module (now k) migration checksum db with
      | error fault =>
        rw [applyAll, hrow, ha] at h
        cases fault <;> cases h
      | ok applied =>
        obtain ⟨action, mid⟩ := applied
        rw [applyAll_none hrow ha] at h
        cases hran : applyAll handle module rows now (k + 1) checked mid with
        | error fault =>
          rw [hran] at h
          cases h
        | ok ran =>
          rw [hran] at h
          cases h
          obtain ⟨hf, hs⟩ := applyMigration_records ho ha
          obtain ⟨he, hr, hres⟩ := ih hrest hran
          refine ⟨hf.trans he, fun pair hp hn => ?_, ?_⟩
          · rcases List.mem_cons.1 hp with rfl | hp
            · exact hs.mono he
            · exact hr pair hp hn
          · rw [List.map_cons, List.map_cons, hres]

/-- A run of migrations that all have a row changes nothing. -/
theorem applyAll_unchanged {rows : String → Option LedgerRow}
    (h : ∀ pair ∈ checked, ∃ row, rows pair.1.id = some row) :
    applyAll handle module rows now k checked db =
      .ok (checked.map fun pair => { id := pair.1.id, action := .unchanged, checksum := pair.2 }, db) := by
  induction checked with
  | nil => rfl
  | cons pair checked ih =>
    rw [List.forall_mem_cons] at h
    obtain ⟨row, hr⟩ := h.1
    rw [applyAll_row hr, ih h.2]
    rfl

omit [MigrationHost δ] in
theorem mapM_eq_ok {β ε : Type} {f : α → Except ε β} {as : List α} {bs : List β} :
    as.mapM f = .ok bs ↔ List.Forall₂ (fun a b => f a = .ok b) as bs := by
  induction as generalizing bs with
  | nil =>
    cases bs with
    | nil => exact iff_of_true rfl .nil
    | cons b bs => exact iff_of_false (by nofun) (by nofun)
  | cons a as ih =>
    constructor
    · intro h
      cases hf : f a with
      | error fault =>
        rw [mapM_cons_error hf] at h
        cases h
      | ok b =>
        rw [mapM_cons_ok hf] at h
        cases hr : as.mapM f with
        | error fault =>
          rw [hr] at h
          cases h
        | ok bs' =>
          rw [hr] at h
          cases h
          exact .cons hf (ih.1 hr)
    · intro h
      cases h with
      | cons hf hr =>
        rw [mapM_cons_ok hf, ih.2 hr]
        rfl

/-- What a run that succeeded has done. -/
theorem migrateAll_eq_ok (h : migrateAll handle module migrations now db = .ok (results, db')) :
    db.legacy = false ∧ ∃ checked, List.Forall₂ (fun migration pair =>
        checksumOf handle (db.row? module) migration = .ok pair) migrations checked ∧
      applyAll handle module (db.row? module) now 0 checked (migrationLedgerDdl db) =
        .ok (results, db') := by
  unfold migrateAll at h
  obtain ⟨⟨⟩, hl, h⟩ := Lib.bind_eq_ok h
  simp only [row?_migrationLedgerDdl] at h
  obtain ⟨checked, hc, hr⟩ := Lib.bind_eq_ok h
  refine ⟨?_, checked, mapM_eq_ok.1 hc, hr⟩
  unfold assertNotLegacyDatabase at hl
  split at hl
  · cases hl
  · next hn => exact Bool.eq_false_iff.2 hn

/-- The migrations of a run are those its checksums were taken of. -/
theorem map_fst_checked {rows : String → Option LedgerRow}
    (h : List.Forall₂ (fun migration pair => checksumOf handle rows migration = .ok pair)
      migrations checked) : checked.map Prod.fst = migrations := by
  induction h with
  | nil => rfl
  | cons hf _ ih => rw [List.map_cons, ih, (checksumOf_eq_ok.1 hf).1]

theorem checked_self {rows : String → Option LedgerRow}
    (h : List.Forall₂ (fun migration pair => checksumOf handle rows migration = .ok pair)
      migrations checked) : ∀ pair ∈ checked, checksumOf handle rows pair.1 = .ok pair := by
  induction h with
  | nil => exact fun _ hp => absurd hp List.not_mem_nil
  | cons hf _ ih =>
    refine List.forall_mem_cons.2 ⟨?_, ih⟩
    rw [(checksumOf_eq_ok.1 hf).1]
    exact hf

/-- **What a run that succeeds leaves behind**: every migration recorded under its checksum,
and the ledgers otherwise as they were. -/
theorem run_records (hk : KeepsLedgers handle migrations)
    (hc : List.Forall₂ (fun migration pair =>
      checksumOf handle (db.row? module) migration = .ok pair) migrations checked)
    (hran : applyAll handle module (db.row? module) now 0 checked (migrationLedgerDdl db) =
      .ok (results, db')) :
    db'.legacy = db.legacy ∧ db'.ledger.isSome ∧
      (∀ pair ∈ checked, Recorded handle module db' pair.1.id pair.2) ∧
      results.map (fun result => (result.id, result.checksum)) =
        checked.map fun pair => (pair.1.id, pair.2) := by
  rw [← map_fst_checked hc] at hk
  obtain ⟨he, hr, hres⟩ := applyAll_records hk hran
  refine ⟨he.legacy, he.ledger rfl, fun pair hp => ?_, hres⟩
  cases hrow : db.row? module pair.1.id with
  | none => exact hr pair hp hrow
  | some row =>
    obtain ⟨-, sql, -, -, ho⟩ := checksumOf_eq_ok.1 (checked_self hc pair hp)
    refine ⟨row, he.rows _ _ ?_, ho row hrow⟩
    rw [row?_migrationLedgerDdl]
    exact hrow

/-- What a run reports where it finds nothing to do. -/
def DatabaseMigrationResult.again (result : DatabaseMigrationResult) : DatabaseMigrationResult :=
  { result with action := .unchanged }

/-- **The run after a run that succeeded applies nothing.** -/
theorem run_again (hk : KeepsLedgers handle migrations)
    (h : runDatabaseMigrations handle module migrations false race now db = (.ok results, db'))
    (race' : ℕ) (now' : ℕ → ℤ) :
    results.map DatabaseMigrationResult.id = migrations.map DatabaseMigration.id ∧
      (∀ result ∈ results, Recorded handle module db' result.id result.checksum) ∧
      runDatabaseMigrations handle module migrations false race' now' db' =
        (.ok (results.map DatabaseMigrationResult.again),
          { db' with content := MigrationHost.revokePrivileges db'.content }) := by
  cases hr : assertRunnable handle module migrations with
  | error fault =>
    rw [run_refused hr] at h
    cases h
  | ok =>
    rw [run_apply hr] at h
    cases hb : migrateAll handle module migrations now db with
    | error fault =>
      rw [transaction, hb] at h
      cases h
    | ok ran =>
      obtain ⟨results', last⟩ := ran
      rw [transaction, hb] at h
      simp only [Prod.mk.injEq, Except.ok.injEq] at h
      obtain ⟨rfl, rfl⟩ := h
      obtain ⟨hl, checked, hche, hran⟩ := migrateAll_eq_ok hb
      obtain ⟨hl', hled, hrec, hres⟩ := run_records hk hche hran
      have hi : results'.map DatabaseMigrationResult.id = migrations.map DatabaseMigration.id := by
        have := congrArg (List.map Prod.fst) hres
        rw [List.map_map, List.map_map] at this
        rw [← map_fst_checked hche, List.map_map]
        exact this
      refine ⟨hi, fun result hresult => ?_, ?_⟩
      · have hm : (result.id, result.checksum) ∈ checked.map fun pair => (pair.1.id, pair.2) := by
          rw [← hres]
          exact List.mem_map_of_mem hresult
        obtain ⟨pair, hp, heq⟩ := List.mem_map.1 hm
        simp only [Prod.mk.injEq] at heq
        rw [← heq.1, ← heq.2]
        exact hrec pair hp
      · have hrows : List.Forall₂ (fun migration pair =>
            checksumOf handle (last.row? module) migration = .ok pair) migrations checked := by
          have hs := checked_self hche
          rw [← map_fst_checked hche]
          refine List.forall₂_map_left_iff.2 (List.forall₂_same.2 fun pair hp => ?_)
          obtain ⟨-, sql, hscr, hc, -⟩ := checksumOf_eq_ok.1 (hs pair hp)
          obtain ⟨row, hrow, ho⟩ := hrec pair hp
          refine checksumOf_eq_ok.2 ⟨rfl, sql, hscr, hc, fun row' hrow' => ?_⟩
          rw [hrow] at hrow'
          cases hrow'
          exact ho
        have hsome : ∀ pair ∈ checked, ∃ row, last.row? module pair.1.id = some row := by
          intro pair hp
          obtain ⟨row, hrow, -⟩ := hrec pair hp
          exact ⟨row, hrow⟩
        have hb' : migrateAll handle module migrations now' last =
            .ok (results'.map DatabaseMigrationResult.again, migrationLedgerDdl last) := by
          rw [migrateAll, assertNotLegacyDatabase, if_neg (by rw [hl', hl]; simp)]
          simp only [row?_migrationLedgerDdl]
          show (migrations.mapM (checksumOf handle (last.row? module)) >>= fun checked =>
            applyAll handle module (last.row? module) now' 0 checked (migrationLedgerDdl last)) = _
          rw [mapM_eq_ok.2 hrows]
          show applyAll handle module (last.row? module) now' 0 checked _ = _
          rw [applyAll_unchanged hsome]
          have ha : results'.map DatabaseMigrationResult.again =
              (results'.map fun result => (result.id, result.checksum)).map fun pair =>
                { id := pair.1, action := .unchanged, checksum := pair.2 } := by
            rw [List.map_map]
            rfl
          rw [ha, hres, List.map_map]
          rfl
        rw [run_apply hr, transaction, hb', migrationLedgerDdl]
        obtain ⟨ledger, hled⟩ := Option.isSome_iff_exists.1 hled
        rw [hled]
        rfl

/-- **A dry run and the run.**  The dry run reports what the run does, wherever it can foresee
it: every row of the ledger is of the dialect and has a time that can be read, every
inspection answers at its turn as it does now and what the run does succeeds, and no
migration that is there in part stands before one the ledger refuses.  A run that fails
leaves the database as it was.  Where the scripts leave the ledgers alone, a run that
succeeds has recorded all migrations, and the next run applies nothing. -/
theorem run_foretold (handle : DatabaseHandle) (module : String)
    (migrations : List (DatabaseMigration δ)) (race : ℕ) (now : ℕ → ℤ) (db : DatabaseState δ) :
    (Foreseen handle module migrations now db →
      Agree (runDatabaseMigrations handle module migrations true race now db).1
        (runDatabaseMigrations handle module migrations false race now db).1) ∧
    (∀ fault, (runDatabaseMigrations handle module migrations false race now db).1 = .error fault →
      (runDatabaseMigrations handle module migrations false race now db).2 = db) ∧
    (KeepsLedgers handle migrations → ∀ results db',
      runDatabaseMigrations handle module migrations false race now db = (.ok results, db') →
        results.map DatabaseMigrationResult.id = migrations.map DatabaseMigration.id ∧
        (∀ result ∈ results, Recorded handle module db' result.id result.checksum) ∧
        ∀ race' now', runDatabaseMigrations handle module migrations false race' now' db' =
          (.ok (results.map DatabaseMigrationResult.again),
            { db' with content := MigrationHost.revokePrivileges db'.content })) := by
  refine ⟨fun h => dryRun_agrees h race, fun fault h => run_fails h, fun hk results db' h => ?_⟩
  have ha := run_again hk h
  exact ⟨(ha 0 now).1, (ha 0 now).2.1, fun race' now' => (ha race' now').2.2⟩

end

/-! ### Two migrations -/

/-- A database of named tables: a script makes the table it names, but `fail` does nothing and
`forget` empties the ledger. -/
@[reducible] def tables : MigrationHost (List String) where
  sha256Hex text := text
  executeScript sql db :=
    if sql = "fail" then none
    else if sql = "forget" then some { db with ledger := some Ledger.empty }
    else some { db with content := sql :: db.content }
  revokePrivileges content := content

/-- A database without a ledger. -/
def bareTables (content : List String) : DatabaseState (List String) where
  ledger := none
  legacy := false
  content := content

/-- A database whose ledger has one row, of the migration `0001_notes`. -/
def recordedTables (dialect checksum : String) : DatabaseState (List String) where
  ledger := some
    { rows := [{ module := "notes.core", id := "0001_notes", dialect, checksum, appliedAt := 42 }]
      keyed := List.nodup_singleton _ }
  legacy := false
  content := ["notes"]

/-- A migration of one script that is adopted where a table is there, and refused in part
where another is. -/
def tableMigration (id sql complete partially : String) : DatabaseMigration (List String) where
  id := id
  sql dialectId := if dialectId = "postgresql" then some sql else none
  inspectExisting := some fun db =>
    .ok (if complete ∈ db.content then .complete
      else if partially ∈ db.content then .partially
      else .absent)

/-- A database of PostgreSQL. -/
def postgresql : DatabaseHandle where
  dialectId := "postgresql"
  transactionalDdl := true

/-- A dry run and a run. -/
def bothRuns (migrations : List (DatabaseMigration (List String)))
    (db : DatabaseState (List String)) :
    Except MigrationFault (List DatabaseMigrationResult) ×
      Except MigrationFault (List DatabaseMigrationResult) :=
  let _ := tables
  ((runDatabaseMigrations postgresql "notes.core" migrations true 0 (fun _ => 42) db).1,
    (runDatabaseMigrations postgresql "notes.core" migrations false 0 (fun _ => 42) db).1)

/-- What a second run does. -/
def secondRun (migrations : List (DatabaseMigration (List String)))
    (db : DatabaseState (List String)) : Option (List MigrationAction) :=
  let _ := tables
  let first := runDatabaseMigrations postgresql "notes.core" migrations false 0 (fun _ => 42) db
  (runDatabaseMigrations postgresql "notes.core" migrations false 0 (fun _ => 43)
    first.2).1.toOption.map (List.map DatabaseMigrationResult.action)

/-- The dry run and the run disagree where the second migration finds what the first made,
where a script fails, where a row is of another dialect, and where what is there in part
stands before what the ledger refuses; and behind a script that empties the ledger the
second run applies a migration again. -/
theorem dryRun_disagrees : (¬Agree (bothRuns [tableMigration "0001_notes" "notes" "-" "-",
        tableMigration "0002_pinned" "pinned" "notes" "-"] (bareTables [])).1
      (bothRuns [tableMigration "0001_notes" "notes" "-" "-",
        tableMigration "0002_pinned" "pinned" "notes" "-"] (bareTables [])).2) ∧
    (¬Agree (bothRuns [tableMigration "0001_notes" "fail" "-" "-"] (bareTables [])).1
      (bothRuns [tableMigration "0001_notes" "fail" "-" "-"] (bareTables [])).2) ∧
    (¬Agree (bothRuns [tableMigration "0001_notes" "notes" "-" "-"]
        (recordedTables "sqlite" "sha256:notes")).1
      (bothRuns [tableMigration "0001_notes" "notes" "-" "-"]
        (recordedTables "sqlite" "sha256:notes")).2) ∧
    (¬Agree (bothRuns [tableMigration "0002_pinned" "pinned" "-" "notes",
        tableMigration "0001_notes" "notes" "-" "-"] (recordedTables "postgresql" "sha256:other")).1
      (bothRuns [tableMigration "0002_pinned" "pinned" "-" "notes",
        tableMigration "0001_notes" "notes" "-" "-"]
          (recordedTables "postgresql" "sha256:other")).2) ∧
    secondRun [tableMigration "0001_notes" "notes" "-" "-",
      tableMigration "0002_pinned" "forget" "-" "-"] (bareTables []) =
        some [.applied, .unchanged] := by
  decide +kernel

/-- Two migrations that do not see each other's tables, on an empty database. -/
theorem run_foretold_notes : (bothRuns [tableMigration "0001_notes" "notes" "-" "-",
        tableMigration "0002_pinned" "pinned" "-" "-"] (bareTables [])).1 =
      .ok [{ id := "0001_notes", action := .applied, checksum := "sha256:notes" },
        { id := "0002_pinned", action := .applied, checksum := "sha256:pinned" }] ∧
    Agree (bothRuns [tableMigration "0001_notes" "notes" "-" "-",
        tableMigration "0002_pinned" "pinned" "-" "-"] (bareTables [])).1
      (bothRuns [tableMigration "0001_notes" "notes" "-" "-",
        tableMigration "0002_pinned" "pinned" "-" "-"] (bareTables [])).2 := by
  let _ := tables
  refine ⟨by decide +kernel, ?_⟩
  refine (run_foretold postgresql "notes.core" [tableMigration "0001_notes" "notes" "-" "-",
    tableMigration "0002_pinned" "pinned" "-" "-"] 0 (fun _ => 42) (bareTables [])).1 ?_
  have hr : ∀ id, (bareTables []).row? "notes.core" id = none := fun _ => rfl
  refine ⟨?_, ?_, ?_, ?_, ?_⟩
  · intro migration _ row h
    rw [hr] at h
    cases h
  · intro migration _ row h
    rw [hr] at h
    cases h
  · intro migration hm _
    rcases List.mem_cons.1 hm with rfl | hm
    · exact ⟨_, rfl⟩
    · rw [List.mem_singleton.1 hm]
      exact ⟨_, rfl⟩
  · refine List.pairwise_cons.2 ⟨fun later _ hp => ?_, List.pairwise_singleton _ _⟩
    exact absurd hp.2 (by nofun)
  · intro checked hc
    cases hc
    refine ⟨rfl, .inr ⟨_, _, rfl, rfl, .inr ⟨_, _, rfl, trivial⟩⟩⟩

end Flowdular.Database
