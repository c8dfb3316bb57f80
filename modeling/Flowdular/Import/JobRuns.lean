/-
# Runs of an import job

Everything that may happen to a job: stages that come to their end, stages that stop
between two calls, the requests of members, and changes to the records of the port's
module that are not the job's.  From the first stage on, a job has one row for each data
row of its file (`Kept`), a write pass leaves none of the rows it hands over merely
valid (`Wrote`), and so the outcomes of a job that completed add up to the rows of its
file (`completed_accounts`).
-/

import Flowdular.Import.Service

namespace Flowdular.Import

open Lib (Table.upsert)

/-- What happens to a job. -/
inductive ImportEvent (σ : Type) where
  /-- A stage, to its end. -/
  | performed (stage : ImportStage)
  /-- A stage that stops behind so many of its calls. -/
  | stopped (stage : ImportStage) (calls : ℕ)
  /-- A member lets the job go on. -/
  | continued (principal : AuthPrincipal) (validOnly : Bool)
  | cancelled
  /-- The port's module changes its records. -/
  | elsewhere (port : σ)

section

variable {σ : Type}

/-! ### Rows that were written over -/

variable {recorded table : List ImportJobRow} {α : Type}

/-- A row behind a recording was there before, or was recorded. -/
theorem mem_recordJobRows {row : ImportJobRow} (h : row ∈ recordJobRows table recorded) :
    row ∈ table ∧ row.rowNumber ∉ recorded.map (·.rowNumber) ∨ row ∈ recorded := by
  induction recorded generalizing table with
  | nil => exact .inl ⟨h, List.not_mem_nil⟩
  | cons new recorded ih =>
    rcases ih h with ⟨hr, hn⟩ | hr
    · rcases Lib.Table.mem_upsert.1 hr with rfl | ⟨hold, hne⟩
      · exact .inr List.mem_cons_self
      · refine .inl ⟨hold, ?_⟩
        rw [List.map_cons, List.mem_cons, not_or]
        exact ⟨hne, hn⟩
    · exact .inr (List.mem_cons_of_mem _ hr)

theorem numbers_recordJobRows (h : ∀ row ∈ recorded, row.rowNumber ∈ table.map (·.rowNumber)) :
    (recordJobRows table recorded).map (·.rowNumber) = table.map (·.rowNumber) := by
  induction recorded generalizing table with
  | nil => rfl
  | cons new recorded ih =>
    have hn : (Table.upsert (·.rowNumber) new table).map (·.rowNumber) = table.map (·.rowNumber) :=
      Lib.Table.map_key_upsert (h new List.mem_cons_self)
    show (recordJobRows (Table.upsert (·.rowNumber) new table) recorded).map (·.rowNumber) = _
    rw [ih, hn]
    intro row hr
    rw [hn]
    exact h row (List.mem_cons_of_mem _ hr)

@[simp] theorem recordedRow_rowNumber (outcomes : List ImportWriteOutcome) (row : ImportRow) :
    (recordedRow outcomes row).rowNumber = row.row := by
  unfold recordedRow
  split
  · rfl
  · rfl

/-- No port can leave a row merely valid. -/
theorem recordedRow_ne_valid (outcomes : List ImportWriteOutcome) (row : ImportRow) :
    (recordedRow outcomes row).outcome ≠ .valid := by
  unfold recordedRow
  split
  · next written _ =>
    show written.outcome.rowOutcome ≠ _
    cases written.outcome with
    | created | updated | skipped | failed => nofun
  · nofun

/-- A write pass that has handed over some rows. -/
structure Wrote (rows : List ImportRow) (table table' : List ImportJobRow) : Prop where
  numbers : table'.map (·.rowNumber) = table.map (·.rowNumber)
  entries : ∀ row ∈ table', row ∈ table ∧ row.rowNumber ∉ rows.map (·.row) ∨ row.outcome ≠ .valid

namespace Wrote

theorem nil (table : List ImportJobRow) : Wrote [] table table :=
  ⟨rfl, fun _ hr => .inl ⟨hr, List.not_mem_nil⟩⟩

theorem append {rows rows' : List ImportRow} {table table₁ table₂ : List ImportJobRow}
    (h : Wrote rows table table₁) (h' : Wrote rows' table₁ table₂) :
    Wrote (rows ++ rows') table table₂ where
  numbers := h'.numbers.trans h.numbers
  entries := by
    intro row hr
    rcases h'.entries row hr with ⟨hm, hn'⟩ | hd
    · rcases h.entries row hm with ⟨hold, hn⟩ | hd
      · refine .inl ⟨hold, ?_⟩
        rw [List.map_append, List.mem_append, not_or]
        exact ⟨hn, hn'⟩
      · exact .inr hd
    · exact .inr hd

end Wrote

theorem writeSlice_wrote (port : ImportPort σ) (job : ImportJob) {slice : List ImportRow}
    (s : σ) (h : ∀ row ∈ slice, row.row ∈ table.map (·.rowNumber)) :
    Wrote slice table (writeSlice port job (table, s) slice).1 where
  numbers := by
    refine numbers_recordJobRows fun row hr => ?_
    obtain ⟨entry, he, rfl⟩ := List.mem_map.1 hr
    rw [recordedRow_rowNumber]
    exact h entry he
  entries := by
    intro row hr
    rcases mem_recordJobRows hr with ⟨hold, hn⟩ | hnew
    · refine .inl ⟨hold, fun hm => hn ?_⟩
      obtain ⟨entry, he, heq⟩ := List.mem_map.1 hm
      refine List.mem_map.2 ⟨_, List.mem_map_of_mem he, ?_⟩
      rw [recordedRow_rowNumber]
      exact heq
    · obtain ⟨entry, -, rfl⟩ := List.mem_map.1 hnew
      exact .inr (recordedRow_ne_valid _ entry)

/-- Batch after batch.  By induction on the batches. -/
theorem writeSlices_wrote (port : ImportPort σ) (job : ImportJob) :
    ∀ {batches : List (List ImportRow)} {table : List ImportJobRow} (s : σ),
      (∀ row ∈ batches.flatten, row.row ∈ table.map (·.rowNumber)) →
        Wrote batches.flatten table (batches.foldl (writeSlice port job) (table, s)).1 := by
  intro batches
  induction batches with
  | nil => exact fun {table} _ _ => .nil table
  | cons slice batches ih =>
    intro table s h
    rw [List.flatten_cons] at h ⊢
    have hs := writeSlice_wrote port job s fun row hr => h row (List.mem_append_left _ hr)
    refine hs.append (ih (writeSlice port job (table, s) slice).2 fun row hr => ?_)
    rw [hs.numbers]
    exact h row (List.mem_append_right _ hr)

/-! ### Batches -/

theorem flatten_slicesFrom {batch : ℕ} (hb : 0 < batch) :
    ∀ (n : ℕ) (rows : List α), rows.length ≤ n → (slicesFrom batch n rows).flatten = rows := by
  intro n
  induction n with
  | zero =>
    intro rows h
    rw [List.length_eq_zero_iff.1 (Nat.le_zero.1 h)]
    rfl
  | succ n ih =>
    intro rows h
    cases rows with
    | nil => rfl
    | cons row rows =>
      have hl : ((row :: rows).drop batch).length ≤ n := by
        rw [List.length_drop, List.length_cons] at *
        omega
      show (row :: rows).take batch ++ (slicesFrom batch n ((row :: rows).drop batch)).flatten = _
      rw [ih _ hl, List.take_append_drop]

theorem flatten_slices {batch : ℕ} (hb : 0 < batch) (rows : List α) :
    (slices batch rows).flatten = rows :=
  flatten_slicesFrom hb _ rows le_rfl

/-! ### The rows of a file -/

@[simp] theorem verdictRow_rowNumber (verdicts : List ImportValidation) (row : ℕ) :
    (verdictRow verdicts row).rowNumber = row := by
  unfold verdictRow
  split
  · rfl
  · rfl

theorem verdictRow_eq_valid {verdicts : List ImportValidation} {row : ℕ} :
    (verdictRow verdicts row).outcome = .valid ↔ latest (·.row) row verdicts = none := by
  unfold verdictRow
  split
  · next h => simp [h, outcomeRow]
  · next h => simp [h, outcomeRow]

end

section

variable [ImportHost] {σ : Type}

theorem mapCells_error {record : CsvRow} {refused : ImportValidation} :
    ∀ {columns : List ImportColumn} {values : Values},
      mapCells record columns values = .error refused → refused.row = record.row := by
  intro columns
  induction columns with
  | nil => nofun
  | cons column columns ih =>
    intro values h
    unfold mapCells at h
    dsimp only at h
    split at h
    · split at h
      · cases h
        rfl
      · exact ih h
    · split at h
      · cases h
        rfl
      · exact ih h

/-- A record becomes a row of its number, or a refusal of it. -/
theorem mapRecord_row (width : ℕ) (columns : List ImportColumn) (record : CsvRow) :
    (∃ values, mapRecord width columns record = .ok ⟨record.row, values⟩) ∨
      ∃ refused, mapRecord width columns record = .error refused ∧ refused.row = record.row := by
  unfold mapRecord
  split
  · exact .inr ⟨_, rfl, rfl⟩
  · cases hc : mapCells record columns [] with
    | ok values => exact .inl ⟨values, rfl⟩
    | error refused => exact .inr ⟨refused, rfl, mapCells_error hc⟩

/-- Every record of a file is mapped or refused. -/
theorem mem_mapRecords {width : ℕ} {columns : List ImportColumn} {records : List CsvRow} {row : ℕ}
    (h : row ∈ records.map (·.row)) : row ∈ (mapRecords width columns records).rows.map (·.row) ∨
      ∃ refused ∈ (mapRecords width columns records).invalid, refused.row = row := by
  obtain ⟨record, hr, rfl⟩ := List.mem_map.1 h
  have hmem := List.mem_map_of_mem (f := mapRecord width columns) hr
  rcases mapRecord_row width columns record with ⟨values, hm⟩ | ⟨refused, hm, hrow⟩
  · refine .inl (List.mem_map.2 ⟨⟨record.row, values⟩, List.mem_filterMap.2 ⟨_, hmem, ?_⟩, rfl⟩)
    rw [hm]
    rfl
  · refine .inr ⟨refused, List.mem_filterMap.2 ⟨_, hmem, ?_⟩, hrow⟩
    rw [hm]
    rfl

/-! ### What a stage opens -/

variable {job job' : ImportJob} {stage : ImportStage} {s' : ImportState σ}
  {table : List ImportJobRow}

/-- A job that opens: the file it reads, and what the mapping makes of it. -/
theorem openJob_eq_ok {opened : Opened σ} (h : openJob ports body stage job = .ok opened) :
    ∃ registered columns, ports.find job.target = some registered ∧ opened.port = registered.port ∧
      readBytes body stage.settings.maxRows = .ok opened.document ∧
      columnsOf job.columns opened.document.header registered.port.fields = .ok columns ∧
      opened.mapped = mapRecords opened.document.header.length columns opened.document.rows := by
  unfold openJob at h
  cases hf : ports.find job.target with
  | none =>
    rw [hf] at h
    cases h
  | some registered =>
    rw [hf] at h
    dsimp only at h
    cases hr : readDocument stage body with
    | error code =>
      rw [hr] at h
      cases h
    | ok document =>
      rw [hr] at h
      dsimp only at h
      have hb : readBytes body stage.settings.maxRows = .ok document := by
        unfold readDocument at hr
        split at hr
        · cases hr
        · cases hres : readBytes body stage.settings.maxRows with
          | error error =>
            rw [hres] at hr
            cases hr
          | ok document' =>
            rw [hres] at hr
            cases hr
            rfl
      cases hc : columnsOf job.columns document.header registered.port.fields with
      | error error =>
        rw [mapDocument, hc] at h
        cases h
      | ok columns =>
        rw [mapDocument, hc] at h
        cases h
        exact ⟨registered, columns, rfl, rfl, hb, hc, rfl⟩

/-- **Two stages of a job open the same.** -/
theorem openJob_unique {stage' : ImportStage}
    (ht : job'.target = job.target) (hc : job'.columns = job.columns)
    {opened opened' : Opened σ} (h : openJob ports body stage job = .ok opened)
    (h' : openJob ports body stage' job' = .ok opened') : opened' = opened := by
  obtain ⟨registered, columns, hf, hp, hr, hmap, hm⟩ := openJob_eq_ok h
  obtain ⟨registered', columns', hf', hp', hr', hmap', hm'⟩ := openJob_eq_ok h'
  have hd : opened'.document = opened.document := readBytes_unique hr' hr
  rw [ht, hf] at hf'
  cases hf'
  rw [hc, hd, hmap] at hmap'
  cases hmap'
  cases opened
  cases opened'
  simp_all

/-! ### The invariant -/

/-- A job behind its first stage: what opens, and the rows of the file. -/
structure Opens (ports : ImportPortRegistry σ) (body : ByteArray) (s : ImportState σ)
    (opened : Opened σ) : Prop where
  opens : ∃ stage, openJob ports body stage s.job = .ok opened
  total : s.job.totalRows = opened.document.rows.length
  numbers : s.rows.map (·.rowNumber) = List.range' 1 opened.document.rows.length
  valid : ∀ row ∈ s.rows, row.outcome = .valid → row.rowNumber ∈ opened.mapped.rows.map (·.row)

/-- A job whose rows have been written, and the numbers it shows. -/
structure Settled (s : ImportState σ) : Prop where
  rows : ∀ row ∈ s.rows, row.outcome ≠ .valid
  written : s.job.writtenRows = countRowOutcomes s.rows .created + countRowOutcomes s.rows .updated
  failed : s.job.failedRows = countRowOutcomes s.rows .invalid + countRowOutcomes s.rows .failed

/-- The invariant of a run. -/
structure Kept (ports : ImportPortRegistry σ) (body : ByteArray) (s : ImportState σ) : Prop where
  opens : s.job.status = .validated ∨ s.job.status = .writing ∨ s.job.status = .completed →
    ∃ opened, Opens ports body s opened
  settled : s.job.status = .completed → s.job.dryRun = false → Settled s

variable {ports : ImportPortRegistry σ} {body : ByteArray} {s : ImportState σ}

/-- A stage reads of a job its target and its mapping. -/
theorem openJob_congr (ht : job'.target = job.target) (hc : job'.columns = job.columns) :
    openJob ports body stage job' = openJob ports body stage job := by
  unfold openJob
  rw [ht, hc]

omit [ImportHost] in
/-- The verdicts of the mapping and of the keys stay. -/
theorem mem_verdicts {port : ImportPort σ} {verdict : ImportValidation} :
    ∀ {batches : List (List ImportRow)} {progress : List ImportValidation × σ},
      verdict ∈ progress.1 → verdict ∈ (batches.foldl (validateSlice port job) progress).1 := by
  intro batches
  induction batches with
  | nil => exact fun h => h
  | cons slice batches ih => exact fun h => ih (List.mem_append_left _ h)

/-- **The first stage makes a row for every data row of the file.** -/
theorem opens_validated {opened : Opened σ} (h : openJob ports body stage s.job = .ok opened)
    (ht : s.job.totalRows = opened.document.rows.length)
    {batches : List (List ImportRow)} {port : σ}
    (hrows : s.rows = opened.validatedRows (opened.verdicts job batches port).1) :
    Opens ports body s opened := by
  obtain ⟨registered, columns, -, -, hread, -, hm⟩ := openJob_eq_ok h
  refine ⟨⟨stage, h⟩, ht, ?_, ?_⟩
  · rw [hrows, Opened.validatedRows, List.map_map]
    exact (List.map_congr_left fun row _ => verdictRow_rowNumber _ row).trans (List.map_id _)
  · intro row hrow hv
    rw [hrows] at hrow
    obtain ⟨number, hn, rfl⟩ := List.mem_map.1 hrow
    have hl := latest_eq_none.1 (verdictRow_eq_valid.1 hv)
    rw [← (readBytes_rows hread).1] at hn
    rw [verdictRow_rowNumber, hm]
    rcases mem_mapRecords hn with hmem | ⟨refused, hr, hrow⟩
    · exact hmem
    · have hmem : refused ∈ opened.mapped.invalid := by
        rw [hm]
        exact hr
      exact absurd hrow (hl refused (mem_verdicts (List.mem_append_left _ hmem)))

theorem Opens.of_wrote {opened : Opened σ} (h : Opens ports body s opened)
    (ht : s'.job.target = s.job.target) (hc : s'.job.columns = s.job.columns)
    (htot : s'.job.totalRows = s.job.totalRows) {rows : List ImportRow}
    (hw : Wrote rows s.rows s'.rows) : Opens ports body s' opened where
  opens := by
    obtain ⟨stage, ho⟩ := h.opens
    exact ⟨stage, (openJob_congr ht hc).trans ho⟩
  total := htot.trans h.total
  numbers := hw.numbers.trans h.numbers
  valid := by
    intro row hr hv
    rcases hw.entries row hr with ⟨hold, -⟩ | hd
    · exact h.valid row hold hv
    · exact absurd hv hd

omit [ImportHost] in
/-- The rows a pass hands over are rows of the job. -/
theorem mem_of_mem_writable {opened : Opened σ} {row : ImportRow}
    (h : row ∈ opened.writable table) : row.row ∈ table.map (·.rowNumber) := by
  have hv : row.row ∈ validRowNumbers table := by
    simpa using (List.mem_filter.1 h).2
  obtain ⟨entry, he, heq⟩ := List.mem_map.1 hv
  exact List.mem_map.2 ⟨entry, (List.mem_filter.1 he).1, heq⟩

omit [ImportHost] in
theorem flatten_writableSlices (opened : Opened σ) (stage : ImportStage) (table : List ImportJobRow) :
    (opened.writableSlices stage table).flatten = opened.writable table :=
  flatten_slices (by have := stage.settings.le_batchSize; omega) _

omit [ImportHost] in
/-- A pass, as far as it comes. -/
theorem wrote_take (opened : Opened σ) (stage : ImportStage) (job : ImportJob)
    (table : List ImportJobRow) (port : σ) (n : ℕ) :
    Wrote ((opened.writableSlices stage table).take n).flatten table
      (((opened.writableSlices stage table).take n).foldl (writeSlice opened.port job) (table, port)).1 := by
  refine writeSlices_wrote opened.port job port fun row hr => ?_
  obtain ⟨slice, hs, hm⟩ := List.mem_flatten.1 hr
  have hw : row ∈ opened.writable table := by
    rw [← flatten_writableSlices opened stage table]
    exact List.mem_flatten.2 ⟨slice, List.mem_of_mem_take hs, hm⟩
  exact mem_of_mem_writable hw

omit [ImportHost] in
theorem wrote_writable (opened : Opened σ) (stage : ImportStage) (job : ImportJob)
    (table : List ImportJobRow) (port : σ) :
    Wrote (opened.writable table) table
      ((opened.writableSlices stage table).foldl (writeSlice opened.port job) (table, port)).1 := by
  have hw := wrote_take opened stage job table port (opened.writableSlices stage table).length
  rwa [List.take_length, flatten_writableSlices] at hw

/-- **A pass that comes to its end leaves no row merely valid.** -/
theorem Opens.settles {opened : Opened σ} (h : Opens ports body s opened)
    (hw : Wrote (opened.writable s.rows) s.rows table) : ∀ row ∈ table, row.outcome ≠ .valid := by
  intro row hr hv
  rcases hw.entries row hr with ⟨hold, hnot⟩ | hd
  · obtain ⟨entry, he, heq⟩ := List.mem_map.1 (h.valid row hold hv)
    refine hnot (List.mem_map.2 ⟨entry, List.mem_filter.2 ⟨he, ?_⟩, heq⟩)
    have hn : entry.row ∈ validRowNumbers s.rows := by
      rw [heq]
      exact List.mem_map_of_mem (List.mem_filter.2 ⟨hold, by simpa using hv⟩)
    simpa using hn
  · exact hd hv

/-! ### Runs -/

/-- One event. -/
def play (ports : ImportPortRegistry σ) (body : ByteArray) (s : ImportState σ) :
    ImportEvent σ → ImportState σ
  | .performed stage => perform ports body stage s
  | .stopped stage calls => stopped ports body stage calls s
  | .continued principal validOnly =>
    match continueJob ports principal validOnly s.job with
    | .ok job => { s with job }
    | .error _ => s
  | .cancelled =>
    match cancelJob s.job with
    | .ok job => { s with job }
    | .error _ => s
  | .elsewhere port => { s with port }

/-- A job that has nothing to keep. -/
theorem kept_of_status (h : s.job.status = .parsing ∨ s.job.status = .failed ∨ s.job.status = .cancelled) :
    Kept ports body s where
  opens := by
    rcases h with h | h | h <;> simp [h]
  settled := by
    rcases h with h | h | h <;> simp [h]

theorem kept_parsing (stage : ImportStage)
    (h : parseAndValidate ports body stage s = .ok s') : Kept ports body s' := by
  unfold parseAndValidate at h
  cases ho : openJob ports body stage s.job with
  | error code =>
    rw [ho] at h
    cases h
  | ok opened =>
    rw [ho] at h
    cases h
    refine ⟨fun _ => ⟨opened, ?_⟩, ?_⟩
    · exact opens_validated ((openJob_congr rfl rfl).trans ho) rfl rfl
    · intro hs hd
      have hd : s.job.dryRun = false := hd
      simp [hd] at hs

theorem kept_writing (stage : ImportStage) (hs : Kept ports body s)
    (hsta : s.job.status = .writing) (h : write ports body stage s = .ok s') :
    Kept ports body s' := by
  unfold write at h
  cases ho : openJob ports body stage s.job with
  | error code =>
    rw [ho] at h
    cases h
  | ok opened =>
    rw [ho] at h
    cases h
    obtain ⟨opened', hope⟩ := hs.opens (.inr (.inl hsta))
    obtain ⟨stage', ho'⟩ := hope.opens
    obtain rfl := openJob_unique rfl rfl ho' ho
    have hw := wrote_writable opened stage s.job s.rows s.port
    exact ⟨fun _ => ⟨opened, hope.of_wrote rfl rfl rfl hw⟩, fun _ _ => ⟨hope.settles hw, rfl, rfl⟩⟩

theorem kept_stoppedWriting (stage : ImportStage) (calls : ℕ) (hs : Kept ports body s)
    (hsta : s.job.status = .writing) : Kept ports body (stoppedWriting ports body stage calls s) := by
  unfold stoppedWriting
  cases hopen : openJob ports body stage s.job with
  | error code => exact hs
  | ok opened =>
    obtain ⟨opened', ho⟩ := hs.opens (.inr (.inl hsta))
    have hw := wrote_take opened stage s.job s.rows s.port (calls / 2)
    have hk : ∀ port, Kept ports body { s with
        rows := (((opened.writableSlices stage s.rows).take (calls / 2)).foldl
          (writeSlice opened.port s.job) (s.rows, s.port)).1, port } := fun port =>
      ⟨fun _ => ⟨opened', ho.of_wrote rfl rfl rfl hw⟩, fun hc => by
        have hc : s.job.status = .completed := hc
        simp [hsta] at hc⟩
    dsimp only
    split
    · split
      · exact hk _
      · exact hk _
    · exact hk _

/-- What a member or another module does to a job whose rows stay. -/
theorem Kept.of_rows (hs : Kept ports body s) (hr : s'.rows = s.rows)
    (ht : s'.job.target = s.job.target) (hc : s'.job.columns = s.job.columns)
    (htot : s'.job.totalRows = s.job.totalRows) (hb : s.job.status = .validated)
    (ha : s'.job.status ≠ .completed) : Kept ports body s' where
  opens := by
    intro _
    obtain ⟨opened, ho⟩ := hs.opens (.inl hb)
    have hw : Wrote [] s.rows s'.rows := by
      rw [hr]
      exact .nil _
    exact ⟨opened, ho.of_wrote ht hc htot hw⟩
  settled := fun h => absurd h ha

/-- **One event keeps the invariant.** -/
theorem kept_play (event : ImportEvent σ) (hs : Kept ports body s) :
    Kept ports body (play ports body s event) := by
  cases event with
  | performed stage =>
    show Kept ports body (perform ports body stage s)
    unfold perform
    dsimp only
    split
    · cases hr : parseAndValidate ports body stage s with
      | ok s' => exact kept_parsing stage hr
      | error code => exact kept_of_status (.inr (.inl rfl))
    · next hsta =>
      cases hr : write ports body stage s with
      | ok s' => exact kept_writing stage hs hsta hr
      | error code => exact kept_of_status (.inr (.inl rfl))
    all_goals exact hs
  | stopped stage calls =>
    show Kept ports body (stopped ports body stage calls s)
    unfold stopped
    split
    · next hsta =>
      have hp : (stoppedParsing ports body stage calls s).job = s.job := by
        unfold stoppedParsing
        split
        · rfl
        · dsimp only
          split
          · rfl
          · rfl
      exact kept_of_status (.inl (by rw [hp, hsta]))
    · next hsta => exact kept_stoppedWriting stage calls hs hsta
    all_goals exact hs
  | continued principal validOnly =>
    show Kept ports body (match continueJob ports principal validOnly s.job with
      | .ok job => { s with job }
      | .error _ => s)
    split
    · next job hj =>
      unfold continueJob at hj
      split at hj
      · cases hj
      · split at hj
        · cases hj
        · next hsta =>
          split at hj
          · cases hj
          · split at hj
            · cases hj
            · split at hj
              · cases hj
              · cases hj
                exact hs.of_rows rfl rfl rfl rfl (not_not.1 hsta) nofun
    · exact hs
  | cancelled =>
    show Kept ports body (match cancelJob s.job with
      | .ok job => { s with job }
      | .error _ => s)
    split
    · next job hj =>
      unfold cancelJob at hj
      split at hj
      · cases hj
      · cases hj
        exact kept_of_status (.inr (.inr rfl))
    · exact hs
  | elsewhere port =>
    refine ⟨fun hsta => ?_, fun hsta hd => ?_⟩
    · obtain ⟨opened, ho⟩ := hs.opens hsta
      exact ⟨opened, ho.of_wrote rfl rfl rfl (.nil _)⟩
    · obtain ⟨hrows, hw, hf⟩ := hs.settled hsta hd
      exact ⟨hrows, hw, hf⟩

/-- **Every run keeps the invariant.**  By induction on the events. -/
theorem kept_run (events : List (ImportEvent σ)) (hs : Kept ports body s) :
    Kept ports body (events.foldl (play ports body) s) := by
  induction events generalizing s with
  | nil => exact hs
  | cons event events ih => exact ih (kept_play event hs)

/-! ### The outcomes of a job -/

omit [ImportHost] in
/-- Every row has one outcome. -/
theorem count_outcomes {α : Type} (outcomeOf : α → ImportRowOutcome) (rows : List α) :
    rows.countP (outcomeOf · = .valid) + rows.countP (outcomeOf · = .invalid) +
      rows.countP (outcomeOf · = .created) + rows.countP (outcomeOf · = .updated) +
        rows.countP (outcomeOf · = .skipped) + rows.countP (outcomeOf · = .failed) = rows.length := by
  induction rows with
  | nil => rfl
  | cons row rows ih =>
    simp only [List.countP_cons, List.length_cons]
    cases outcomeOf row with
    | valid | invalid | created | updated | skipped | failed => simp; omega

/-- The state of a job that was just started. -/
def startedWith (job : ImportJob) (port : σ) : ImportState σ :=
  ⟨job, [], port⟩

/-- The rows of a job account for the rows of its file. -/
structure Accounts (body : ByteArray) (s : ImportState σ) : Prop where
  /-- There is one row for each data row, in the order of the file. -/
  numbers : ∃ maxRows document, readBytes body maxRows = .ok document ∧
    s.job.totalRows = document.rows.length ∧ s.rows.map (·.rowNumber) = document.rows.map (·.row)
  /-- None is merely valid. -/
  settled : ∀ row ∈ s.rows, row.outcome ≠ .valid
  total : countRowOutcomes s.rows .created + countRowOutcomes s.rows .updated +
    countRowOutcomes s.rows .skipped + countRowOutcomes s.rows .invalid +
      countRowOutcomes s.rows .failed = s.job.totalRows
  written : s.job.writtenRows = countRowOutcomes s.rows .created + countRowOutcomes s.rows .updated
  failed : s.job.failedRows = countRowOutcomes s.rows .invalid + countRowOutcomes s.rows .failed

/-- **The outcomes of a completed job add up**, whatever happened to it on the way. -/
theorem completed_accounts (hj : job.status = .parsing) (port : σ) (events : List (ImportEvent σ))
    (hs : s = events.foldl (play ports body) (startedWith job port))
    (hc : s.job.status = .completed) (hd : s.job.dryRun = false) : Accounts body s := by
  have hk : Kept ports body s := by
    rw [hs]
    exact kept_run events (kept_of_status (.inl hj))
  obtain ⟨opened, ⟨stage, ho⟩, ht, hn, -⟩ := hk.opens (.inr (.inr hc))
  obtain ⟨hset, hw, hf⟩ := hk.settled hc hd
  obtain ⟨-, -, -, -, hr, -, -⟩ := openJob_eq_ok ho
  have hrows := readBytes_rows hr
  refine ⟨⟨_, _, hr, ht, hn.trans hrows.1.symm⟩, hset, ?_, hw, hf⟩
  have hv : countRowOutcomes s.rows .valid = 0 :=
    List.countP_eq_zero.2 fun row hrow => by simpa using hset row hrow
  have hl : s.rows.length = opened.document.rows.length := by
    simpa using congrArg List.length hn
  have hcou := count_outcomes (·.outcome) s.rows
  unfold countRowOutcomes at hv ⊢
  omega

end

end Flowdular.Import
