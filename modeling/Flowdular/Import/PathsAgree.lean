/-
# The two paths of an import agree

The CSV job and `import.write.v1` screen rows twice over.  Given the cells a mapping
picks from a file (`handed`), the tool refuses the rows the job refuses (`shapeRow_handed`,
`screenKeys_eq`), offers the port the same rows (`screenRows_pending`), and so gets the
same answers from it.  They differ in what they make of an answer about a row that was not
offered: the job lets it replace a refusal of its own, the tool drops it.
-/

import Flowdular.Import.JobRuns
import Flowdular.Import.Write
import Mathlib.Algebra.GroupWithZero.Nat

namespace Flowdular.Import

/-! ### Cells of a file -/

section Cells

/-- The cells a mapping picks from a record. -/
def cellsOf (columns : List ImportColumn) (record : CsvRow) : Values :=
  columns.map fun column => (column.field.id, record.cell column.index)

/-- What is kept of some values: those that are not blank. -/
def kept (values : Values) : Values :=
  values.filter fun entry => entry.2 ≠ ""

variable {columns : Values} {header : List String} {fields : List ImportField}
  {mapped : List ImportColumn}

theorem columnsOf_cons {field : ImportField} (h : columnsOf columns header (field :: fields) = .ok mapped) :
    columns.lookup field.id = none ∧ field.required = false ∧
        columnsOf columns header fields = .ok mapped ∨
      ∃ index rest, columns.lookup field.id ≠ none ∧ columnsOf columns header fields = .ok rest ∧
        mapped = ⟨field, index⟩ :: rest := by
  unfold columnsOf at h
  split at h
  · next hl =>
    split at h
    · cases h
    · next hr => exact .inl ⟨hl, by simpa using hr, h⟩
  · next name hl =>
    split at h
    · cases h
    · next index _ =>
      cases hrest : columnsOf columns header fields with
      | error error =>
        rw [hrest] at h
        cases h
      | ok rest =>
        rw [hrest] at h
        cases h
        exact .inr ⟨index, rest, by simp [hl], rfl, rfl⟩

/-- The columns are those of some of the fields, in their order. -/
theorem columnsOf_sublist : ∀ {fields : List ImportField} {mapped : List ImportColumn},
    columnsOf columns header fields = .ok mapped → (mapped.map (·.field)).Sublist fields := by
  intro fields
  induction fields with
  | nil =>
    intro mapped h
    cases h
    exact List.Sublist.refl _
  | cons field fields ih =>
    intro mapped h
    rcases columnsOf_cons h with ⟨-, -, hr⟩ | ⟨index, rest, -, hr, rfl⟩
    · exact (ih hr).cons field
    · exact (ih hr).cons_cons field

theorem columnsOf_lookup : ∀ {fields : List ImportField} {mapped : List ImportColumn},
    columnsOf columns header fields = .ok mapped →
      ∀ column ∈ mapped, columns.lookup column.field.id ≠ none := by
  intro fields
  induction fields with
  | nil =>
    intro mapped h
    cases h
    nofun
  | cons field fields ih =>
    intro mapped h
    rcases columnsOf_cons h with ⟨-, -, hr⟩ | ⟨index, rest, hl, hr, rfl⟩
    · exact ih hr
    · intro column hc
      rcases List.mem_cons.1 hc with rfl | hc
      · exact hl
      · exact ih hr column hc

/-- A value that is looked up by a field without a column. -/
theorem lookup_kept_of_forall_ne {record : CsvRow} {id : String}
    (h : ∀ column ∈ mapped, column.field.id ≠ id) : (kept (cellsOf mapped record)).lookup id = none := by
  rw [List.lookup_eq_none_iff]
  intro entry he
  obtain ⟨column, hc, rfl⟩ := List.mem_map.1 (List.mem_filter.1 he).1
  simpa using (h column hc).symm

/-- A value that is looked up by the field of its column. -/
theorem lookup_kept {record : CsvRow} : ∀ {mapped : List ImportColumn},
    (mapped.map fun column => column.field.id).Nodup → ∀ column ∈ mapped,
      (kept (cellsOf mapped record)).lookup column.field.id =
        if record.cell column.index = "" then none else some (record.cell column.index) := by
  intro mapped
  induction mapped with
  | nil => nofun
  | cons first mapped ih =>
    intro hn column hcol
    rw [List.map_cons, List.nodup_cons] at hn
    have ho : ∀ other ∈ mapped, other.field.id ≠ first.field.id := fun other hm heq =>
      hn.1 (heq ▸ List.mem_map_of_mem hm)
    have hc : kept (cellsOf (first :: mapped) record) =
        if record.cell first.index = "" then kept (cellsOf mapped record)
        else (first.field.id, record.cell first.index) :: kept (cellsOf mapped record) := by
      by_cases hb : record.cell first.index = "" <;> simp [kept, cellsOf, hb]
    rw [hc]
    rcases List.mem_cons.1 hcol with rfl | hm
    · by_cases hb : record.cell column.index = ""
      · rw [if_pos hb, if_pos hb]
        exact lookup_kept_of_forall_ne ho
      · rw [if_neg hb, if_neg hb, List.lookup_cons_self]
    · have hne : (column.field.id == first.field.id) = false := by
        simpa using ho column hm
      have hr := ih hn.2 column hm
      split
      · exact hr
      · rw [List.lookup_cons, hne]
        exact hr

end Cells

/-! ### One row, checked twice -/

section Shapes

variable [ImportHost] {columns : Values} {header : List String}

variable {fields : List ImportField}

omit [ImportHost] in
/-- Values of known fields are all known. -/
theorem knownValues_eq {row : ℕ} : ∀ {entries values : Values},
    (∀ entry ∈ entries, entry.1 ∈ fields.map (·.id)) →
      knownValues fields row entries values = .ok (values ++ kept entries) := by
  intro entries
  induction entries with
  | nil =>
    intro values _
    simp [knownValues, kept]
  | cons entry entries ih =>
    intro values h
    obtain ⟨id, value⟩ := entry
    have hid : ¬id ∉ fields.map (·.id) := not_not.2 (h _ List.mem_cons_self)
    rw [knownValues, if_neg hid, ih fun other ho => h other (List.mem_cons_of_mem _ ho)]
    by_cases hb : value = ""
    · simp [kept, hb]
    · simp [kept, hb]

/-- **The cells of a record pass the one check as they pass the other.**  By induction on
the fields, with the values the tool has kept. -/
theorem mapCells_eq {record : CsvRow} {kept' : Values} :
    ∀ {fields : List ImportField} {mapped : List ImportColumn} {values : Values},
      columnsOf columns header fields = .ok mapped →
      (∀ field ∈ fields, columns.lookup field.id = none → kept'.lookup field.id = none) →
      (∀ column ∈ mapped, kept'.lookup column.field.id =
        if record.cell column.index = "" then none else some (record.cell column.index)) →
      mapCells record mapped values =
        (checkFields record.row kept' fields).map fun _ => values ++ kept (cellsOf mapped record) := by
  intro fields
  induction fields with
  | nil =>
    intro mapped values h _ _
    cases h
    simp [mapCells, checkFields, cellsOf, kept, Except.map]
  | cons field fields ih =>
    intro mapped values h hn hc
    have hn' : ∀ other ∈ fields, columns.lookup other.id = none → kept'.lookup other.id = none :=
      fun other ho => hn other (List.mem_cons_of_mem _ ho)
    rcases columnsOf_cons h with ⟨hl, hreq, hr⟩ | ⟨index, rest, -, hr, rfl⟩
    · have ha : kept'.lookup field.id = none := hn field List.mem_cons_self hl
      rw [ih hr hn' hc, checkFields, ha]
      simp [hreq]
    · have hf := hc ⟨field, index⟩ List.mem_cons_self
      have hc' := fun column hcol => hc column (List.mem_cons_of_mem _ hcol)
      dsimp only at hf
      unfold mapCells checkFields
      by_cases hb : record.cell index = ""
      · rw [if_pos hb] at hf
        rw [hf, if_pos hb]
        split
        · rfl
        · rw [ih hr hn' hc']
          simp [cellsOf, kept, hb]
      · rw [if_neg hb] at hf
        rw [hf, if_neg hb]
        dsimp only
        split
        · rfl
        · rw [ih hr hn' hc']
          simp [cellsOf, kept, hb]

/-- **A record is mapped as the tool checks the row of its cells.** -/
theorem shapeRow_handed {mapped : List ImportColumn}
    (hn : (fields.map (·.id)).Nodup) (h : columnsOf columns header fields = .ok mapped)
    (record : CsvRow) : shapeRow fields ⟨record.row, cellsOf mapped record⟩ =
      (mapCells record mapped []).map fun values => ⟨record.row, values⟩ := by
  have hs := columnsOf_sublist h
  have hi : (mapped.map fun column => column.field.id).Nodup := by
    have := (hs.map (·.id)).nodup hn
    rwa [List.map_map] at this
  have hk : ∀ entry ∈ cellsOf mapped record, entry.1 ∈ fields.map (·.id) := by
    intro entry he
    obtain ⟨column, hc, rfl⟩ := List.mem_map.1 he
    exact List.mem_map_of_mem (hs.subset (List.mem_map_of_mem hc))
  have hcel : mapCells record mapped [] =
      (checkFields record.row (kept (cellsOf mapped record)) fields).map fun _ =>
        [] ++ kept (cellsOf mapped record) := by
    refine mapCells_eq h (fun field _ hl => ?_) (lookup_kept hi)
    refine lookup_kept_of_forall_ne fun column hc heq => ?_
    exact columnsOf_lookup h column hc (heq ▸ hl)
  unfold shapeRow
  rw [knownValues_eq hk, hcel]
  dsimp only [List.nil_append]
  cases checkFields record.row (kept (cellsOf mapped record)) fields with
  | error refused => rfl
  | ok _ => rfl

end Shapes

/-! ### A file, checked twice -/

section Files

variable [ImportHost] {columns : Values} {header : List String} {fields : List ImportField}
  {mapped : List ImportColumn} {width : ℕ}

/-- The rows of a file as another module would hand them over: those of the width of the
header, each with its cells. -/
def handedOf (width : ℕ) (mapped : List ImportColumn) (records : List CsvRow) : List ImportRow :=
  (records.filter fun record => record.cells.length = width).map fun record =>
    ⟨record.row, cellsOf mapped record⟩

/-- The checks the tool makes of the rows it was handed. -/
def checkedOf (fields : List ImportField) (rows : List ImportRow) :
    List (Except ImportValidation ImportRow) :=
  rows.map (shapeRow fields)

theorem mapRecord_of_wide (hn : (fields.map (·.id)).Nodup)
    (h : columnsOf columns header fields = .ok mapped) {record : CsvRow}
    (hw : record.cells.length = width) :
    mapRecord width mapped record = shapeRow fields ⟨record.row, cellsOf mapped record⟩ := by
  unfold mapRecord
  rw [if_neg (not_not.2 hw), shapeRow_handed hn h]

theorem mapRecord_of_ragged {record : CsvRow} (hr : record.cells.length ≠ width) :
    mapRecord width mapped record = .error ⟨record.row, .invalid, none, some "ROW_RAGGED"⟩ :=
  if_pos hr

/-- The checks of the rows that are handed are those of the records of the width of the header. -/
theorem checkedOf_handedOf (hn : (fields.map (·.id)).Nodup)
    (h : columnsOf columns header fields = .ok mapped) (records : List CsvRow) :
    checkedOf fields (handedOf width mapped records) =
      (records.filter fun record => record.cells.length = width).map (mapRecord width mapped) := by
  rw [checkedOf, handedOf, List.map_map]
  refine List.map_congr_left fun record hr => ?_
  exact (mapRecord_of_wide hn h (by simpa using (List.mem_filter.1 hr).2)).symm

theorem rows_mapRecords (hn : (fields.map (·.id)).Nodup)
    (h : columnsOf columns header fields = .ok mapped) (records : List CsvRow) :
    (mapRecords width mapped records).rows =
      (checkedOf fields (handedOf width mapped records)).filterMap (·.toOption) := by
  rw [checkedOf_handedOf hn h, List.filterMap_map, List.filterMap_filter]
  dsimp only [mapRecords]
  rw [List.filterMap_map]
  refine List.filterMap_congr fun record _ => ?_
  by_cases hw : record.cells.length = width
  · rw [if_pos (decide_eq_true hw)]
  · rw [if_neg (by simpa using hw), Function.comp_apply, mapRecord_of_ragged hw]
    rfl

theorem shapeRow_error {entry : ImportRow} {refused : ImportValidation}
    (hn : (fields.map (·.id)).Nodup) (h : columnsOf columns header fields = .ok mapped)
    {record : CsvRow} (he : entry = ⟨record.row, cellsOf mapped record⟩)
    (hr : shapeRow fields entry = .error refused) : refused.row = record.row := by
  rw [he, shapeRow_handed hn h] at hr
  cases hc : mapCells record mapped [] with
  | ok values =>
    rw [hc] at hr
    cases hr
  | error refused' =>
    rw [hc] at hr
    cases hr
    exact mapCells_error hc

/-- The refusals of the tool are those of the job that are about a row it was handed. -/
theorem invalid_mapRecords (hn : (fields.map (·.id)).Nodup)
    (h : columnsOf columns header fields = .ok mapped) (numbers : List ℕ) {records : List CsvRow}
    (hnum : ∀ record ∈ records, record.row ∈ numbers ↔ record.cells.length = width) :
    (checkedOf fields (handedOf width mapped records)).filterMap refusedOf =
      (mapRecords width mapped records).invalid.filter fun verdict => verdict.row ∈ numbers := by
  rw [checkedOf_handedOf hn h, List.filterMap_map, List.filterMap_filter]
  dsimp only [mapRecords]
  rw [List.filter_filterMap, List.filterMap_map]
  refine List.filterMap_congr fun record hr => ?_
  dsimp only [Function.comp_apply]
  by_cases hw : record.cells.length = width
  · rw [if_pos (decide_eq_true hw), mapRecord_of_wide hn h hw]
    cases hs : shapeRow fields ⟨record.row, cellsOf mapped record⟩ with
    | ok row => rfl
    | error refused =>
      have hm : refused.row ∈ numbers := by
        rw [shapeRow_error hn h rfl hs]
        exact (hnum record hr).2 hw
      simp [refusedOf, Option.filter, hm]
  · have hm : record.row ∉ numbers := fun hm => hw ((hnum record hr).1 hm)
    rw [if_neg (by simpa using hw), mapRecord_of_ragged hw]
    simp [refusedOf, Option.filter, hm]

end Files

/-! ### The keys -/

section Keys

variable {σ : Type} {port : ImportPort σ} {first : String}

/-- The repeats of both paths are the same. -/
theorem refused_screenKeys (h : port.naturalKey.head? = some first) :
    ∀ {rows : List ImportRow} {seen : List String},
      (screenKeys port seen rows).refused = duplicatesFrom port first seen rows := by
  intro rows
  induction rows with
  | nil => exact rfl
  | cons row rows ih =>
    intro seen
    unfold screenKeys duplicatesFrom
    split
    · dsimp only
      rw [ih, h]
      rfl
    · exact ih

/-- The repeats are about rows of the file. -/
theorem mem_duplicatesFrom : ∀ {rows : List ImportRow} {seen : List String} {verdict : ImportValidation},
    verdict ∈ duplicatesFrom port first seen rows → verdict.row ∈ rows.map (·.row) := by
  intro rows
  induction rows with
  | nil => nofun
  | cons row rows ih =>
    intro seen verdict h
    unfold duplicatesFrom at h
    split at h
    · rcases List.mem_cons.1 h with rfl | h
      · exact List.mem_cons_self
      · exact List.mem_cons_of_mem _ (ih h)
    · exact List.mem_cons_of_mem _ (ih h)

/-- What the keys leave pending: the rows that repeat none. -/
theorem pending_screenKeys : ∀ {rows : List ImportRow} {seen : List String},
    (rows.map (·.row)).Nodup → (screenKeys port seen rows).pending = rows.filter fun row =>
        (latest (·.row) row.row (duplicatesFrom port first seen rows)).isNone := by
  intro rows
  induction rows with
  | nil => exact fun _ => rfl
  | cons row rows ih =>
    intro seen hn
    rw [List.map_cons, List.nodup_cons] at hn
    have hf : ∀ seen, latest (·.row) row.row (duplicatesFrom port first seen rows) = none :=
      fun seen => latest_eq_none.2 fun verdict hv heq =>
        hn.1 (heq ▸ mem_duplicatesFrom hv)
    unfold screenKeys duplicatesFrom
    split
    · dsimp only
      have hr : ∀ other ∈ rows, latest (·.row) other.row
          (refusal row.row first "NATURAL_KEY_DUPLICATE" :: duplicatesFrom port first seen rows) =
            latest (·.row) other.row (duplicatesFrom port first seen rows) := by
        intro other ho
        have hne : (refusal row.row first "NATURAL_KEY_DUPLICATE").row ≠ other.row := fun heq =>
          hn.1 (List.mem_map.2 ⟨other, ho, heq.symm⟩)
        rw [latest_cons, if_neg hne, Option.or_none]
      have hs : (refusal row.row first "NATURAL_KEY_DUPLICATE").row = row.row := rfl
      rw [List.filter_cons, latest_cons, hf, Option.none_or, if_pos hs, if_neg (by nofun), ih hn.2]
      exact List.filter_congr fun other ho => by rw [hr other ho]
    · dsimp only
      rw [List.filter_cons_of_pos (by rw [hf]; rfl), ih hn.2]

end Keys

/-! ### What the port is offered -/

section Offered

variable {σ : Type}

theorem slices_of_length_le {α : Type} {batch : ℕ} {rows : List α} (h : rows.length ≤ batch) :
    slices batch rows = if rows = [] then [] else [rows] := by
  cases rows with
  | nil => rfl
  | cons row rows =>
    show (row :: rows).take batch :: slicesFrom batch rows.length ((row :: rows).drop batch) = _
    rw [List.take_of_length_le h, List.drop_eq_nil_iff.2 h, if_neg (by nofun)]
    cases rows.length with
    | zero => rfl
    | succ n => rfl

/-- What the port says of the rows it is offered: nothing if there are none. -/
def answerOf (port : ImportPort σ) (input : ImportValidateInput) (s : σ) : List ImportValidation × σ :=
  if input.rows = [] then ([], s) else validateRows port input s

theorem verdicts_eq (opened : Opened σ) (stage : ImportStage) (job : ImportJob) (s : σ)
    (h : (pendingRows opened.port opened.mapped).length ≤ stage.settings.batchSize) :
    opened.verdicts job (opened.pendingSlices stage) s =
      (opened.mapped.invalid ++ duplicates opened.port opened.mapped.rows ++
        ((answerOf opened.port ⟨job.tenantId, principalOf job, pendingRows opened.port opened.mapped⟩ s).1.filter
          fun verdict => verdict.verdict = .invalid),
        (answerOf opened.port ⟨job.tenantId, principalOf job,
          pendingRows opened.port opened.mapped⟩ s).2) := by
  unfold Opened.verdicts Opened.pendingSlices answerOf
  rw [slices_of_length_le h]
  split
  · simp
  · rfl

variable [ImportHost] {columns : Values} {header : List String} {mapped : List ImportColumn} {width : ℕ}
  {records : List CsvRow}

omit [ImportHost] in
theorem row_injective (h : (records.map (·.row)).Nodup) {a b : CsvRow} (ha : a ∈ records)
    (hb : b ∈ records) (heq : a.row = b.row) : a = b :=
  List.inj_on_of_nodup_map h ha hb heq

/-- No row is mapped and refused. -/
theorem invalid_disjoint (h : (records.map (·.row)).Nodup) {row : ImportRow} {verdict : ImportValidation}
    (hrow : row ∈ (mapRecords width mapped records).rows)
    (hv : verdict ∈ (mapRecords width mapped records).invalid) : verdict.row ≠ row.row := by
  intro heq
  obtain ⟨result, hr, hok⟩ := List.mem_filterMap.1 hrow
  obtain ⟨result', hr', he⟩ := List.mem_filterMap.1 hv
  obtain ⟨record, hrec, rfl⟩ := List.mem_map.1 hr
  obtain ⟨record', hrec', rfl⟩ := List.mem_map.1 hr'
  rcases mapRecord_row width mapped record with ⟨values, hm⟩ | ⟨refused, hm, -⟩
  · rcases mapRecord_row width mapped record' with ⟨values', hm'⟩ | ⟨refused', hm', hn⟩
    · rw [hm'] at he
      cases he
    · rw [hm] at hok
      rw [hm'] at he
      cases hok
      cases he
      obtain rfl := row_injective h hrec hrec' (heq.symm.trans hn)
      rw [hm] at hm'
      cases hm'
  · rw [hm] at hok
    cases hok

/-- The rows a mapping makes keep their numbers. -/
theorem numbers_mapRecords : ((mapRecords width mapped records).rows.map (·.row)).Sublist
    (records.map (·.row)) := by
  induction records with
  | nil => exact List.Sublist.refl _
  | cons record records ih =>
    have hc : (mapRecords width mapped (record :: records)).rows =
        ((mapRecord width mapped record).toOption.toList) ++ (mapRecords width mapped records).rows := by
      simp only [mapRecords, List.map_cons, List.filterMap_cons]
      cases mapRecord width mapped record with
      | ok row => rfl
      | error refused => rfl
    rw [hc]
    rcases mapRecord_row width mapped record with ⟨values, hm⟩ | ⟨refused, hm, -⟩
    · rw [hm]
      exact ih.cons_cons record.row
    · rw [hm]
      exact ih.cons record.row

variable {port : ImportPort σ}

theorem pendingRows_eq (h : (records.map (·.row)).Nodup) :
    pendingRows port (mapRecords width mapped records) =
      (mapRecords width mapped records).rows.filter fun row =>
        (latest (·.row) row.row (duplicates port (mapRecords width mapped records).rows)).isNone := by
  refine List.filter_congr fun row hr => ?_
  have hn : latest (·.row) row.row (mapRecords width mapped records).invalid = none :=
    latest_eq_none.2 fun verdict hv => invalid_disjoint h hr hv
  rw [latest_append, hn, Option.or_none]

/-- **The tool refuses, before it asks the port, the rows the job refuses, and offers the port
the rows the job offers.** -/
theorem screenRows_handed (h : (records.map (·.row)).Nodup)
    (hc : columnsOf columns header port.fields = .ok mapped) {input : ImportWriteRowsInput}
    (hrows : input.rows = handedOf width mapped records) : screenRows port input =
      ⟨((mapRecords width mapped records).invalid.filter fun verdict =>
          verdict.row ∈ input.rows.map (·.row)) ++
        duplicates port (mapRecords width mapped records).rows,
        pendingRows port (mapRecords width mapped records)⟩ := by
  have hn : ∀ record ∈ records,
      record.row ∈ input.rows.map (·.row) ↔ record.cells.length = width := by
    intro record hr
    rw [hrows, handedOf, List.map_map, List.mem_map]
    constructor
    · rintro ⟨other, ho, heq⟩
      obtain ⟨hm, hw⟩ := List.mem_filter.1 ho
      obtain rfl := row_injective h hm hr heq
      simpa using hw
    · exact fun hw => ⟨record, List.mem_filter.2 ⟨hr, by simpa using hw⟩, rfl⟩
  have hi := invalid_mapRecords port.nodup_fields hc _ hn
  have hp : (mapRecords width mapped records).rows =
      (checkedOf port.fields (handedOf width mapped records)).filterMap (·.toOption) :=
    rows_mapRecords port.nodup_fields hc records
  obtain ⟨first, rest, hk⟩ := List.exists_cons_of_ne_nil port.naturalKey_ne_nil
  have hh : port.naturalKey.head? = some first := by rw [hk]; rfl
  have hd : ∀ rows, duplicates port rows = duplicatesFrom port first [] rows := fun rows => by
    rw [duplicates, hk]
  have hnod : ((mapRecords width mapped records).rows.map (·.row)).Nodup := numbers_mapRecords.nodup h
  have hpen : (screenKeys port [] (mapRecords width mapped records).rows).pending =
      (mapRecords width mapped records).rows.filter fun row => (latest (·.row) row.row
        (duplicatesFrom port first [] (mapRecords width mapped records).rows)).isNone :=
    pending_screenKeys hnod
  unfold screenRows
  dsimp only
  rw [hrows] at hi ⊢
  rw [show (handedOf width mapped records).map (shapeRow port.fields) =
      checkedOf port.fields (handedOf width mapped records) from rfl, hi, ← hp,
    refused_screenKeys hh, hpen, pendingRows_eq h, hd]

end Offered

/-! ### Verdicts -/

section Verdicts

variable {passed repeated answer : List ImportValidation} {offered : List ImportRow} {numbers : List ℕ}
  {row : ℕ}

/-- The verdicts of the job. -/
def jobVerdicts (passed repeated answer : List ImportValidation) : List ImportValidation :=
  passed ++ repeated ++ answer.filter fun verdict => verdict.verdict = .invalid

/-- The verdicts of the tool. -/
def toolVerdicts (passed repeated answer : List ImportValidation) (offered : List ImportRow)
    (numbers : List ℕ) : List ImportValidation :=
  (passed.filter fun verdict => verdict.row ∈ numbers) ++ repeated ++ offeredRefusals offered answer

/-- The port refuses a row it was not asked about. -/
def Unasked (answer : List ImportValidation) (offered : List ImportRow) (row : ℕ) : Prop :=
  row ∉ offered.map (·.row) ∧ ∃ verdict ∈ answer, verdict.verdict = .invalid ∧ verdict.row = row

theorem latest_before (hr : row ∈ numbers) :
    latest (·.row) row ((passed.filter fun verdict => verdict.row ∈ numbers) ++ repeated) =
      latest (·.row) row (passed ++ repeated) := by
  rw [latest_append, latest_append, latest_filter]
  intro verdict _ hv
  simpa [hv] using hr

/-- **The last verdict of both paths on a row that was asked about, or not at all.** -/
theorem latest_verdicts (hr : row ∈ numbers) (h : ¬Unasked answer offered row) :
    latest (·.row) row (toolVerdicts passed repeated answer offered numbers) =
      latest (·.row) row (jobVerdicts passed repeated answer) := by
  rw [toolVerdicts, latest_append, latest_before hr, jobVerdicts,
    latest_append (answer.filter fun verdict => verdict.verdict = .invalid)]
  congr 1
  by_cases ho : row ∈ offered.map (·.row)
  · have hs : offeredRefusals offered answer =
        (answer.filter fun verdict => verdict.verdict = .invalid).filter fun verdict =>
          verdict.row ∈ offered.map (·.row) := by
      rw [offeredRefusals, List.filter_filter]
      exact List.filter_congr fun verdict _ => by rw [Bool.decide_and, Bool.and_comm]
    rw [hs, latest_filter]
    intro verdict _ hv
    simpa [hv] using ho
  · have hn : ∀ verdict ∈ answer, verdict.verdict = .invalid → verdict.row ≠ row :=
      fun verdict hv hi heq => h ⟨ho, verdict, hv, hi, heq⟩
    have ht : latest (·.row) row (offeredRefusals offered answer) = none := by
      rw [latest_eq_none]
      intro verdict hv
      obtain ⟨hm, hc⟩ := List.mem_filter.1 hv
      exact hn verdict hm (of_decide_eq_true hc).1
    have hj : latest (·.row) row (answer.filter fun verdict => verdict.verdict = .invalid) = none := by
      rw [latest_eq_none]
      intro verdict hv
      obtain ⟨hm, hc⟩ := List.mem_filter.1 hv
      exact hn verdict hm (of_decide_eq_true hc)
    rw [ht, hj]

/-- A row that was not offered has been refused before. -/
theorem latest_verdicts_isNone (hr : row ∈ numbers)
    (ho : row ∉ offered.map (·.row) → latest (·.row) row (passed ++ repeated) ≠ none) :
    latest (·.row) row (toolVerdicts passed repeated answer offered numbers) = none ↔
      latest (·.row) row (jobVerdicts passed repeated answer) = none := by
  by_cases hm : row ∈ offered.map (·.row)
  · rw [latest_verdicts hr fun h => h.1 hm]
  · have hb := ho hm
    rw [toolVerdicts, latest_append, latest_before hr, jobVerdicts,
      latest_append (answer.filter fun verdict => verdict.verdict = .invalid)]
    simp [hb]

end Verdicts

/-! ### Rows of the job and results of the tool -/

/-- The outcome of a verdict. -/
def Verdict.rowOutcome : Verdict → ImportRowOutcome
  | .valid => .valid
  | .invalid => .invalid

/-- A verdict of the tool as a result. -/
def ImportWriteVerdict.result (verdict : ImportWriteVerdict) : ImportWriteResult :=
  ⟨verdict.row, verdict.verdict.rowOutcome, verdict.field, verdict.reason, none⟩

/-- A row of the job has the outcome of a result, and where both had the same answers, the
field and the reason too. -/
def ImportJobRow.Matches (row : ImportJobRow) (result : ImportWriteResult) (alike : Prop) : Prop :=
  row.rowNumber = result.row ∧ row.outcome = result.outcome ∧ row.recordRef = result.recordRef ∧
    (alike → row.field = result.field ∧ row.reason = result.reason)

section Rows

variable {verdicts verdicts' : List ImportValidation} {entry : ImportRow} {alike : Prop}

/-- A row that was validated. -/
theorem matches_writeVerdict
    (hn : latest (·.row) entry.row verdicts' = none ↔ latest (·.row) entry.row verdicts = none)
    (hs : alike → latest (·.row) entry.row verdicts' = latest (·.row) entry.row verdicts) :
    (verdictRow verdicts entry.row).Matches (writeVerdict verdicts' entry).result alike := by
  unfold verdictRow writeVerdict
  cases hj : latest (·.row) entry.row verdicts with
  | none =>
    rw [hn.2 hj]
    exact ⟨rfl, rfl, rfl, fun _ => ⟨rfl, rfl⟩⟩
  | some verdict =>
    cases ht : latest (·.row) entry.row verdicts' with
    | none => exact absurd (hn.1 ht) (by simp [hj])
    | some verdict' =>
      refine ⟨(mem_of_latest ht).2.symm, rfl, rfl, fun ha => ?_⟩
      have heq := hs ha
      rw [hj, ht, Option.some.injEq] at heq
      rw [heq]
      exact ⟨rfl, rfl⟩

variable {outcomes : List ImportWriteOutcome}

/-- A row that was refused. -/
theorem matches_invalid
    (hn : latest (·.row) entry.row verdicts' = none ↔ latest (·.row) entry.row verdicts = none)
    (hs : alike → latest (·.row) entry.row verdicts' = latest (·.row) entry.row verdicts)
    (hr : latest (·.row) entry.row verdicts' ≠ none) :
    (verdictRow verdicts entry.row).Matches (writeResult verdicts' outcomes entry) alike := by
  unfold verdictRow writeResult
  cases hj : latest (·.row) entry.row verdicts with
  | none => exact absurd (hn.2 hj) hr
  | some verdict =>
    cases ht : latest (·.row) entry.row verdicts' with
    | none => exact absurd ht hr
    | some verdict' =>
      refine ⟨(mem_of_latest ht).2.symm, rfl, rfl, fun ha => ?_⟩
      have heq := hs ha
      rw [hj, ht, Option.some.injEq] at heq
      rw [heq]
      exact ⟨rfl, rfl⟩

theorem matches_recorded {offered : List ImportRow} {row : ImportRow}
    (hr : row ∈ offered) (he : row.row = entry.row)
    (hp : latest (·.row) entry.row verdicts' = none) :
    (recordedRow outcomes row).Matches (writeResult verdicts'
      (outcomes.filter fun outcome => outcome.row ∈ offered.map (·.row)) entry) alike := by
  have hf : latest (·.row) entry.row
      (outcomes.filter fun outcome => outcome.row ∈ offered.map (·.row)) =
        latest (·.row) entry.row outcomes := by
    refine latest_filter fun outcome _ ho => ?_
    have hm : outcome.row ∈ offered.map (·.row) := by
      rw [ho, ← he]
      exact List.mem_map_of_mem hr
    simpa using hm
  unfold recordedRow writeResult
  rw [hp, hf, he]
  cases latest (·.row) entry.row outcomes with
  | none => exact ⟨rfl, rfl, rfl, fun _ => ⟨rfl, rfl⟩⟩
  | some written => exact ⟨rfl, rfl, rfl, fun _ => ⟨rfl, rfl⟩⟩

/-- A row of another number stays. -/
theorem mem_recordJobRows_of_old : ∀ {recorded table : List ImportJobRow} {row : ImportJobRow},
    row ∈ table → row.rowNumber ∉ recorded.map (·.rowNumber) → row ∈ recordJobRows table recorded := by
  intro recorded
  induction recorded with
  | nil => exact fun h _ => h
  | cons new recorded ih =>
    intro table row hr hn
    rw [List.map_cons, List.mem_cons, not_or] at hn
    exact ih (Lib.Table.mem_upsert.2 (.inr ⟨hr, hn.1⟩)) hn.2

theorem mem_recordJobRows_of_new : ∀ {recorded table : List ImportJobRow} {row : ImportJobRow},
    (recorded.map (·.rowNumber)).Nodup → row ∈ recorded → row ∈ recordJobRows table recorded := by
  intro recorded
  induction recorded with
  | nil => exact fun _ h => absurd h List.not_mem_nil
  | cons new recorded ih =>
    intro table row hn hr
    rw [List.map_cons, List.nodup_cons] at hn
    rcases List.mem_cons.1 hr with rfl | hr
    · have hw : row ∈ Lib.Table.upsert (·.rowNumber) row table := Lib.Table.mem_upsert.2 (.inl rfl)
      show row ∈ recordJobRows (Lib.Table.upsert (·.rowNumber) row table) recorded
      exact mem_recordJobRows_of_old hw hn.1
    · exact ih hn.2 hr

end Rows

/-! ### The call of the tool -/

section Calls

theorem checkNumbers_eq_ok : ∀ {rows : List ImportRow} {numbers : List ℕ}, (rows.map (·.row)).Nodup →
    (∀ row ∈ rows, 1 ≤ row.row ∧ row.row < 2 ^ 53 ∧ row.row ∉ numbers) → checkNumbers numbers rows = .ok () := by
  intro rows
  induction rows with
  | nil => exact fun _ _ => rfl
  | cons row rows ih =>
    intro numbers hn h
    rw [List.map_cons, List.nodup_cons] at hn
    obtain ⟨hp, hlt, hnot⟩ := h row List.mem_cons_self
    have hf : ¬(2 ^ 53 ≤ row.row ∨ row.row < 1 ∨ row.row ∈ numbers) := by
      rintro (hle | hl | hm)
      · omega
      · omega
      · exact hnot hm
    rw [checkNumbers, if_neg hf]
    refine ih hn.2 fun other ho => ?_
    obtain ⟨hp', hlt', hnot'⟩ := h other (List.mem_cons_of_mem _ ho)
    refine ⟨hp', hlt', fun hm => ?_⟩
    rcases List.mem_cons.1 hm with heq | hm
    · exact hn.1 (heq ▸ List.mem_map_of_mem ho)
    · exact hnot' hm

variable [ImportHost] {σ : Type} {ports : ImportPortRegistry σ} {body : ByteArray} {stage : ImportStage}
  {job : ImportJob} {opened : Opened σ} {registered : RegisteredImportPort σ}

/-- The rows of a file as another module would hand them over. -/
def Opened.handed (opened : Opened σ) (columns : Values) : List ImportRow :=
  match columnsOf columns opened.document.header opened.port.fields with
  | .ok mapped => handedOf opened.document.header.length mapped opened.document.rows
  | .error _ => []

/-- A call of the tool with those rows, for the principal the job keeps. -/
def handedCall (registered : RegisteredImportPort σ) (opened : Opened σ) (job : ImportJob) :
    ImportWriteRowsInput where
  tenantId := job.tenantId
  principal := principalOf job
  moduleId := registered.moduleId
  portKey := registered.port.key
  rows := opened.handed job.columns

/-- The rows the job offers the port. -/
def Opened.offered (opened : Opened σ) : List ImportRow :=
  pendingRows opened.port opened.mapped

/-- What the port says of them. -/
def Opened.answer (opened : Opened σ) (job : ImportJob) (s : σ) : List ImportValidation × σ :=
  answerOf opened.port ⟨job.tenantId, principalOf job, opened.offered⟩ s

/-- The verdicts of the job, if it asks once. -/
def Opened.jobVerdicts (opened : Opened σ) (job : ImportJob) (s : σ) : List ImportValidation :=
  Import.jobVerdicts opened.mapped.invalid (duplicates opened.port opened.mapped.rows)
    (opened.answer job s).1

/-- The verdicts of the tool on the same rows. -/
def Opened.toolVerdicts (opened : Opened σ) (job : ImportJob) (s : σ) : List ImportValidation :=
  Import.toolVerdicts opened.mapped.invalid (duplicates opened.port opened.mapped.rows)
    (opened.answer job s).1 opened.offered ((opened.handed job.columns).map (·.row))

/-- The rows that pass. -/
def Opened.passed (opened : Opened σ) (job : ImportJob) (s : σ) : List ImportRow :=
  opened.offered.filter fun row => (latest (·.row) row.row (opened.toolVerdicts job s)).isNone

omit [ImportHost] in
/-- The rows a job offers and the numbers of the handed ones, where its stage opens. -/
structure HandedFacts (opened : Opened σ) (rows : List ImportRow) : Prop where
  nodup : (rows.map (·.row)).Nodup
  positive : ∀ row ∈ rows, 1 ≤ row.row ∧ row.row < 2 ^ 53
  numbered : ∀ row ∈ rows, row.row ∈ List.range' 1 opened.document.rows.length
  mapped : ∀ row ∈ opened.mapped.rows, row.row ∈ rows.map (·.row)
  offered : ∀ row ∈ rows, row.row ∉ opened.offered.map (·.row) →
    latest (·.row) row.row (opened.mapped.invalid ++ duplicates opened.port opened.mapped.rows) ≠ none
  offered_length : opened.offered.length ≤ rows.length
  offered_nodup : (opened.offered.map (·.row)).Nodup

theorem handedFacts (ho : openJob ports body stage job = .ok opened) :
    HandedFacts opened (opened.handed job.columns) := by
  obtain ⟨registered, mapped, -, hport, hread, hc, hm⟩ := openJob_eq_ok ho
  obtain ⟨hn, hl⟩ := readBytes_rows hread
  have hmax := stage.settings.maxRows_le
  have hh : opened.handed job.columns =
      handedOf opened.document.header.length mapped opened.document.rows := by
    rw [Opened.handed, hport, hc]
  have hsub : ((opened.handed job.columns).map (·.row)).Sublist (opened.document.rows.map (·.row)) := by
    rw [hh, handedOf, List.map_map]
    exact (List.filter_sublist).map CsvRow.row
  have hnod : (opened.document.rows.map (·.row)).Nodup := by
    rw [hn]
    exact List.nodup_range'
  have hmem : ∀ row ∈ opened.handed job.columns, row.row ∈ List.range' 1 opened.document.rows.length :=
    fun row hrow => hn ▸ hsub.subset (List.mem_map_of_mem hrow)
  have hp : opened.mapped.rows =
      (checkedOf registered.port.fields (opened.handed job.columns)).filterMap (·.toOption) := by
    rw [hm, hh]
    exact rows_mapRecords registered.port.nodup_fields hc _
  have hf : ∀ entry row, shapeRow registered.port.fields entry = .ok row → row.row = entry.row := by
    intro entry row hs
    unfold shapeRow at hs
    split at hs
    · cases hs
    · next values _ =>
      cases hche : checkFields entry.row values registered.port.fields with
      | error refused =>
        rw [hche] at hs
        cases hs
      | ok _ =>
        rw [hche] at hs
        cases hs
        rfl
  have hpas : ∀ row ∈ opened.mapped.rows, row.row ∈ (opened.handed job.columns).map (·.row) := by
    intro row hrow
    rw [hp] at hrow
    obtain ⟨result, hres, hok⟩ := List.mem_filterMap.1 hrow
    obtain ⟨entry, he, rfl⟩ := List.mem_map.1 hres
    cases hs : shapeRow registered.port.fields entry with
    | error refused =>
      rw [hs] at hok
      cases hok
    | ok row' =>
      rw [hs] at hok
      cases hok
      exact List.mem_map.2 ⟨entry, he, (hf entry row hs).symm⟩
  refine ⟨hsub.nodup hnod, fun row hrow => ?_, hmem, hpas, fun row hrow hnot hnone => ?_, ?_, ?_⟩
  · have hran := List.mem_range'_1.1 (hmem row hrow)
    omega
  · have hnum : row.row ∈ opened.document.rows.map (·.row) := hn ▸ hmem row hrow
    have hb := latest_eq_none.1 hnone
    have hcas : row.row ∈ opened.mapped.rows.map (·.row) ∨
        ∃ refused ∈ opened.mapped.invalid, refused.row = row.row := by
      rw [hm]
      exact mem_mapRecords hnum
    rcases hcas with hin | ⟨refused, hr, heq⟩
    · obtain ⟨passed, hpas, heq⟩ := List.mem_map.1 hin
      refine hnot (List.mem_map.2 ⟨passed, List.mem_filter.2 ⟨hpas, ?_⟩, heq⟩)
      rw [heq, hnone]
      rfl
    · exact hb refused (List.mem_append_left _ hr) heq
  · have hle : opened.offered.length ≤ opened.mapped.rows.length := List.length_filter_le _ _
    have hle' : opened.mapped.rows.length ≤ (opened.handed job.columns).length := by
      rw [hp]
      refine (List.length_filterMap_le _ _).trans ?_
      rw [checkedOf, List.length_map]
    omega
  · have hrows : (opened.mapped.rows.map (·.row)).Nodup := by
      rw [hm]
      exact numbers_mapRecords.nodup hnod
    exact ((List.filter_sublist).map ImportRow.row).nodup hrows

variable {batchSize : ℕ} {principal : AuthPrincipal}

/-- **The tool's screening of the handed rows.** -/
theorem screen_handed (ho : openJob ports body stage job = .ok opened)
    (hf : ports.find job.target = some registered)
    (hper : registered.port.permission ∈ job.requester.scopes)
    (hs : (opened.handed job.columns).length ≤ batchSize) (s : σ) :
    screen registered.port batchSize (handedCall registered opened job) s =
      .ok (⟨opened.toolVerdicts job s, opened.passed job s⟩, (opened.answer job s).2) := by
  have hfac := handedFacts ho
  obtain ⟨registered', mapped, hf', hp, hr, hcol, hm⟩ := openJob_eq_ok ho
  rw [hf] at hf'
  cases hf'
  have hc : checkCall registered.port batchSize (handedCall registered opened job) = .ok () := by
    have ht : ¬(handedCall registered opened job).principal.tenantId ≠
        (handedCall registered opened job).tenantId := not_not.2 rfl
    have hsco : ¬registered.port.permission ∉ (handedCall registered opened job).principal.scopes :=
      not_not.2 hper
    have hl : ¬batchSize < (handedCall registered opened job).rows.length := Nat.not_lt.2 hs
    rw [checkCall, if_neg ht, if_neg hsco, if_neg hl]
    refine checkNumbers_eq_ok hfac.nodup fun row hrow => ?_
    exact ⟨(hfac.positive row hrow).1, (hfac.positive row hrow).2, List.not_mem_nil⟩
  have hn : (opened.document.rows.map (·.row)).Nodup := by
    rw [(readBytes_rows hr).1]
    exact List.nodup_range'
  have hrows : (handedCall registered opened job).rows =
      handedOf opened.document.header.length mapped opened.document.rows := by
    show opened.handed job.columns = _
    rw [Opened.handed, hp, hcol]
  have hscr : screenRows registered.port (handedCall registered opened job) =
      ⟨(opened.mapped.invalid.filter fun verdict =>
          verdict.row ∈ (opened.handed job.columns).map (·.row)) ++
        duplicates opened.port opened.mapped.rows, opened.offered⟩ := by
    rw [screenRows_handed hn hcol hrows, Opened.offered, hp, hm]
    rfl
  unfold screen
  rw [hc, hscr]
  show Except.ok (if opened.offered = [] then _ else _) = _
  by_cases he : opened.offered = []
  · have ha : opened.answer job s = ([], s) := by
      rw [Opened.answer, he]
      rfl
    have hpas : opened.passed job s = [] := by
      rw [Opened.passed, he]
      rfl
    rw [if_pos he, hpas, Opened.toolVerdicts, ha, he]
    simp [Import.toolVerdicts, offeredRefusals]
  · have ha : opened.answer job s =
        validateRows registered.port ⟨job.tenantId, principalOf job, opened.offered⟩ s := by
      rw [Opened.answer, answerOf, if_neg he, hp]
    rw [if_neg he]
    unfold Opened.passed Opened.toolVerdicts
    rw [ha]
    rfl

/-- The verdicts a row of the file has from both paths. -/
theorem handed_verdicts (ho : openJob ports body stage job = .ok opened) (s : σ) {entry : ImportRow}
    (he : entry ∈ opened.handed job.columns) :
    (latest (·.row) entry.row (opened.toolVerdicts job s) = none ↔
      latest (·.row) entry.row (opened.jobVerdicts job s) = none) ∧
    (¬Unasked (opened.answer job s).1 opened.offered entry.row →
      latest (·.row) entry.row (opened.toolVerdicts job s) =
        latest (·.row) entry.row (opened.jobVerdicts job s)) :=
  ⟨latest_verdicts_isNone (List.mem_map_of_mem he) ((handedFacts ho).offered entry he),
    latest_verdicts (List.mem_map_of_mem he)⟩

/-- **What the job writes is what the tool writes.** -/
theorem writable_eq_passed (hopen : openJob ports body stage job = .ok opened) (s : σ) :
    opened.writable (opened.validatedRows (opened.jobVerdicts job s)) = opened.passed job s := by
  have hf := handedFacts hopen
  unfold Opened.writable Opened.passed Opened.offered pendingRows
  rw [List.filter_filter]
  refine List.filter_congr fun row hrow => ?_
  obtain ⟨entry, he, heq⟩ := List.mem_map.1 (hf.mapped row hrow)
  have hnone := (handed_verdicts hopen s he).1
  rw [heq] at hnone
  have hr : row.row ∈ List.range' 1 opened.document.rows.length := heq ▸ hf.numbered entry he
  have hv : row.row ∈ validRowNumbers (opened.validatedRows (opened.jobVerdicts job s)) ↔
      latest (·.row) row.row (opened.jobVerdicts job s) = none := by
    constructor
    · intro hm
      obtain ⟨entry', he', hn⟩ := List.mem_map.1 hm
      obtain ⟨hin, ho⟩ := List.mem_filter.1 he'
      obtain ⟨number, -, rfl⟩ := List.mem_map.1 hin
      rw [verdictRow_rowNumber] at hn
      rw [← hn]
      exact verdictRow_eq_valid.1 (of_decide_eq_true ho)
    · intro hl
      refine List.mem_map.2 ⟨verdictRow (opened.jobVerdicts job s) row.row, ?_, verdictRow_rowNumber _ _⟩
      exact List.mem_filter.2 ⟨List.mem_map_of_mem hr, decide_eq_true (verdictRow_eq_valid.2 hl)⟩
  have hb : latest (·.row) row.row (opened.jobVerdicts job s) = none →
      latest (·.row) row.row (opened.mapped.invalid ++ duplicates opened.port opened.mapped.rows) = none := by
    intro hl
    rw [Opened.jobVerdicts, Import.jobVerdicts, latest_append, Option.or_eq_none_iff] at hl
    exact hl.2
  rw [Bool.eq_iff_iff, decide_eq_true_iff, hv, Bool.and_eq_true, Option.isNone_iff_eq_none,
    Option.isNone_iff_eq_none, hnone]
  exact ⟨fun h => ⟨h, hb h⟩, fun h => h.1⟩

/-! ### The stages of the job -/

/-- What the port says of the rows it is given to write: nothing if there are none. -/
def outcomesOf (port : ImportPort σ) (input : ImportWriteInput) (s : σ) : List ImportWriteOutcome × σ :=
  if input.rows = [] then ([], s) else writeRows port input s

/-- The first stage of a job that asks once. -/
theorem perform_parsing (ho : openJob ports body stage job = .ok opened)
    (hs : job.status = .parsing)
    (hsma : (opened.handed job.columns).length ≤ stage.settings.batchSize) (s : σ) :
    ∃ job', perform ports body stage (startedWith job s) =
        ⟨job', opened.validatedRows (opened.jobVerdicts job s), (opened.answer job s).2⟩ ∧
      job'.target = job.target ∧ job'.columns = job.columns ∧ job'.tenantId = job.tenantId ∧
      job'.mode = job.mode ∧ principalOf job' = principalOf job := by
  have hv := verdicts_eq opened stage job s ((handedFacts ho).offered_length.trans hsma)
  unfold perform
  dsimp only [startedWith]
  rw [hs]
  dsimp only
  unfold parseAndValidate
  dsimp only
  rw [ho]
  simp only [Except.map, hv]
  exact ⟨_, rfl, rfl, rfl, rfl, rfl, rfl⟩

theorem perform_writing {s : ImportState σ} (ho : openJob ports body stage s.job = .ok opened)
    (hs : s.job.status = .writing)
    (hsma : (opened.writable s.rows).length ≤ stage.settings.batchSize) :
    let written := outcomesOf opened.port
      ⟨s.job.tenantId, principalOf s.job, opened.writable s.rows, s.job.mode⟩ s.port
    (perform ports body stage s).job.status = .completed ∧
      (perform ports body stage s).port = written.2 ∧
      (perform ports body stage s).rows =
        recordJobRows s.rows ((opened.writable s.rows).map (recordedRow written.1)) := by
  have hsli : (opened.writableSlices stage s.rows).foldl (writeSlice opened.port s.job) (s.rows, s.port) =
      (recordJobRows s.rows ((opened.writable s.rows).map (recordedRow (outcomesOf opened.port
        ⟨s.job.tenantId, principalOf s.job, opened.writable s.rows, s.job.mode⟩ s.port).1)),
        (outcomesOf opened.port
          ⟨s.job.tenantId, principalOf s.job, opened.writable s.rows, s.job.mode⟩ s.port).2) := by
    unfold Opened.writableSlices outcomesOf
    rw [slices_of_length_le hsma]
    split
    · next hn =>
      rw [hn]
      rfl
    · rfl
  unfold perform
  rw [hs]
  dsimp only
  unfold write
  rw [ho]
  simp only [Except.map, hsli]
  exact ⟨trivial, trivial, trivial⟩

/-! ### Both paths -/

/-- A job that was started may be written for its requester. -/
theorem start_eq_ok {document : Option DocumentAttachment}
    {input : StartImportInput} (h : start ports document principal input = .ok job) :
    ∃ registered, ports.find job.target = some registered ∧
      registered.port.permission ∈ job.requester.scopes ∧ job.status = .parsing := by
  unfold start at h
  cases hf : ports.find input.target with
  | none =>
    rw [hf] at h
    cases h
  | some registered =>
    rw [hf] at h
    dsimp only at h
    have ht : registered.target = input.target := by
      simpa using List.find?_some hf
    split at h
    · cases h
    · next hp =>
      split at h
      · cases h
      · split at h
        · cases h
        · next requester hr =>
          split at h
          · cases h
          · cases h
            refine ⟨registered, ?_, ?_, rfl⟩
            · show ports.find registered.target = _
              rw [ht, hf]
            · unfold requesterOf at hr
              dsimp only at hr
              split at hr
              · cases hr
              · cases hr
                exact not_not.1 hp

omit [ImportHost] in
theorem continueJob_eq_ok {validOnly : Bool} {job' : ImportJob}
    (h : continueJob ports principal validOnly job = .ok job') :
    job' = { job with status := .writing, validOnly } := by
  unfold continueJob at h
  split at h
  · cases h
  · split at h
    · cases h
    · split at h
      · cases h
      · split at h
        · cases h
        · split at h
          · cases h
          · cases h
            rfl

omit [ImportHost] in
/-- A registered port is found under its module and its key. -/
theorem resolve_eq_ok (hf : ports.find job.target = some registered) :
    resolve ports registered.moduleId registered.port.key = .ok registered := by
  have ht : registered.target = job.target := by
    simpa using List.find?_some hf
  have hfou : ports.find (importTargetId registered.moduleId registered.port.key) = some registered := by
    show ports.find registered.target = _
    rw [ht, hf]
  rw [resolve, hfou]
  exact if_neg (not_not.2 rfl)

/-- The tool gives every row it was handed one result, and none is merely valid. -/
structure OneResult (rows : List ImportRow) (results : List ImportWriteResult) : Prop where
  numbers : results.map (·.row) = rows.map (·.row)
  total : results.countP (·.outcome = .created) + results.countP (·.outcome = .updated) +
    results.countP (·.outcome = .skipped) + results.countP (·.outcome = .invalid) +
      results.countP (·.outcome = .failed) = rows.length

omit [ImportHost] in
theorem writeResult_row (refused : List ImportValidation) (outcomes : List ImportWriteOutcome)
    (entry : ImportRow) : (writeResult refused outcomes entry).row = entry.row ∧
      (writeResult refused outcomes entry).outcome ≠ .valid := by
  unfold writeResult
  split
  · next verdict hv => exact ⟨(mem_of_latest hv).2, nofun⟩
  · split
    · next written _ =>
      refine ⟨rfl, ?_⟩
      show written.outcome.rowOutcome ≠ _
      cases written.outcome with
      | created | updated | skipped | failed => nofun
    · exact ⟨rfl, nofun⟩

omit [ImportHost] in
theorem oneResult (refused : List ImportValidation) (outcomes : List ImportWriteOutcome)
    (rows : List ImportRow) : OneResult rows (rows.map (writeResult refused outcomes)) where
  numbers := by
    rw [List.map_map]
    exact List.map_congr_left fun entry _ => (writeResult_row refused outcomes entry).1
  total := by
    have hc := count_outcomes (·.outcome) (rows.map (writeResult refused outcomes))
    have hv : (rows.map (writeResult refused outcomes)).countP (·.outcome = .valid) = 0 := by
      refine List.countP_eq_zero.2 fun result hr => ?_
      obtain ⟨entry, -, rfl⟩ := List.mem_map.1 hr
      simpa using (writeResult_row refused outcomes entry).2
    rw [List.length_map] at hc
    omega

theorem write_oneResult {request : ImportWriteRequest} {s s' : σ}
    {results : List ImportWriteResult} (h : request.write ports batchSize s = .ok (results, s')) :
    OneResult request.rows results := by
  unfold ImportWriteRequest.write at h
  split at h
  · cases h
  · next registered _ =>
    split at h
    · cases h
    · cases hs : screen registered.port batchSize request.toImportWriteRowsInput s with
      | error error =>
        rw [hs] at h
        cases h
      | ok screened =>
        rw [hs] at h
        cases h
        exact oneResult _ _ _

/-- The tool's answer to a call on the handed rows. -/
theorem write_handed (ho : openJob ports body stage job = .ok opened)
    (hf : ports.find job.target = some registered)
    (hper : registered.port.permission ∈ job.requester.scopes)
    (hs : (opened.handed job.columns).length ≤ batchSize) {sourceRef : String}
    (href : sourceRef ≠ "" ∧ Workflows.utf16Length sourceRef ≤ recordRefLimit) (s : σ) :
    let written := outcomesOf opened.port
      ⟨job.tenantId, principalOf job, opened.passed job s, job.mode⟩ (opened.answer job s).2
    (ImportWriteRequest.mk (handedCall registered opened job) job.mode sourceRef).write ports batchSize s =
      .ok ((opened.handed job.columns).map (writeResult (opened.toolVerdicts job s)
        (written.1.filter fun outcome => outcome.row ∈ (opened.passed job s).map (·.row))), written.2) := by
  obtain ⟨registered', -, hf', hp, -⟩ := openJob_eq_ok ho
  rw [hf] at hf'
  cases hf'
  have href' : ¬(sourceRef = "" ∨ recordRefLimit < Workflows.utf16Length sourceRef) := by
    rintro (he | hl)
    · exact href.1 he
    · exact Nat.not_lt.2 href.2 hl
  have hr : resolve ports (handedCall registered opened job).moduleId
      (handedCall registered opened job).portKey = .ok registered := resolve_eq_ok hf
  unfold ImportWriteRequest.write
  dsimp only
  rw [hr]
  dsimp only
  rw [if_neg href', screen_handed ho hf hper hs s, hp]
  rfl

omit [ImportHost] in
theorem writeVerdict_row (refused : List ImportValidation) (entry : ImportRow) :
    (writeVerdict refused entry).row = entry.row := by
  unfold writeVerdict
  split
  · rfl
  · next verdict hv => exact (mem_of_latest hv).2

/-- Every verdict of the tool is that of a row of the job. -/
theorem verdicts_match (ho : openJob ports body stage job = .ok opened) (s : σ) :
    ∀ verdict ∈ (opened.handed job.columns).map (writeVerdict (opened.toolVerdicts job s)),
      ∃ row ∈ opened.validatedRows (opened.jobVerdicts job s),
        row.Matches verdict.result (¬Unasked (opened.answer job s).1 opened.offered verdict.row) := by
  intro verdict hv
  obtain ⟨entry, he, rfl⟩ := List.mem_map.1 hv
  obtain ⟨hn, hs⟩ := handed_verdicts ho s he
  rw [writeVerdict_row]
  exact ⟨_, List.mem_map_of_mem ((handedFacts ho).numbered entry he), matches_writeVerdict hn hs⟩

/-- Every result of the tool is that of a row of the job. -/
theorem results_match (hopen : openJob ports body stage job = .ok opened) (s : σ)
    (outcomes : List ImportWriteOutcome) :
    ∀ result ∈ (opened.handed job.columns).map (writeResult (opened.toolVerdicts job s)
        (outcomes.filter fun outcome => outcome.row ∈ (opened.passed job s).map (·.row))),
      ∃ row ∈ recordJobRows (opened.validatedRows (opened.jobVerdicts job s))
          ((opened.passed job s).map (recordedRow outcomes)),
        row.Matches result (¬Unasked (opened.answer job s).1 opened.offered result.row) := by
  intro result hres
  have hfac := handedFacts hopen
  obtain ⟨entry, he, rfl⟩ := List.mem_map.1 hres
  obtain ⟨hnone, hs⟩ := handed_verdicts hopen s he
  rw [(writeResult_row _ _ entry).1]
  by_cases hl : latest (·.row) entry.row (opened.toolVerdicts job s) = none
  · -- the row is one of those that were written
    have ho : entry.row ∈ opened.offered.map (·.row) := by
      by_contra hnot
      refine hfac.offered entry he hnot ?_
      have hj := hnone.1 hl
      rw [Opened.jobVerdicts, Import.jobVerdicts, latest_append, Option.or_eq_none_iff] at hj
      exact hj.2
    obtain ⟨row, hrow, hn⟩ := List.mem_map.1 ho
    have hm : row ∈ opened.passed job s := by
      refine List.mem_filter.2 ⟨hrow, ?_⟩
      rw [hn, hl]
      rfl
    have hnod : (((opened.passed job s).map (recordedRow outcomes)).map (·.rowNumber)).Nodup := by
      have hnum : ((opened.passed job s).map (recordedRow outcomes)).map (·.rowNumber) =
          (opened.passed job s).map (·.row) := by
        rw [List.map_map]
        exact List.map_congr_left fun row _ => recordedRow_rowNumber outcomes row
      rw [hnum]
      exact ((List.filter_sublist).map ImportRow.row).nodup hfac.offered_nodup
    exact ⟨_, mem_recordJobRows_of_new hnod (List.mem_map_of_mem hm), matches_recorded hm hn hl⟩
  · -- the row was refused, and stays as it is
    refine ⟨_, mem_recordJobRows_of_old (List.mem_map_of_mem (hfac.numbered entry he)) fun hr => ?_,
      matches_invalid hnone hs hl⟩
    obtain ⟨recorded, hm, hn⟩ := List.mem_map.1 hr
    obtain ⟨row, hrow, rfl⟩ := List.mem_map.1 hm
    rw [recordedRow_rowNumber, verdictRow_rowNumber] at hn
    have hf := (List.mem_filter.1 hrow).2
    rw [hn, Option.isNone_iff_eq_none] at hf
    exact hl hf

end Calls

/-! ### A port that refuses unasked -/

/-- Plain texts: lower case letter by letter, no dates, and the lengths of what is written
without escapes. -/
@[reducible] def sampleHost : ImportHost where
  toLowerCase := String.toLower
  dateParses _ := false
  columnsLength columns :=
    1 + (columns.map fun entry => entry.1.length + entry.2.length + 6).sum
  requesterLength requester :=
    65 + requester.accountId.length + requester.email.length + requester.displayName.length +
      requester.role.length + (requester.scopes.map fun scope => scope.length + 3).sum

/-- A port of names.  It refuses row 2 as seen, whether it is asked about it or not, and
creates what it is given. -/
def namesPort : ImportPort ℕ where
  key := "names"
  permission := "names.write"
  fields := [⟨"name", true, .string⟩]
  naturalKey := ["name"]
  naturalKeyOf := none
  validate _ calls := (some [⟨2, .invalid, none, some "SEEN"⟩], calls + 1)
  write input calls :=
    (some (input.rows.map fun row => ⟨row.row, .created, none, none⟩), calls + 1)
  nodup_fields := by decide
  naturalKey_ne_nil := by decide
  naturalKey_subset := by decide

/-- The one target. -/
def namesPorts : ImportPortRegistry ℕ :=
  [⟨"people.core", namesPort⟩]

/-- The member who imports. -/
def namesPrincipal : AuthPrincipal where
  accountId := "ada"
  tenantId := "acme"
  email := "ada@acme.test"
  displayName := "Ada"
  role := "admin"
  scopes := ["names.write"]
  tenants := []

/-- A job on the names of a file. -/
def namesInput (dryRun : Bool) : StartImportInput where
  target := "people.core.names"
  mode := .createOnly
  dryRun
  columns := [("name", "name")]

/-- The job that starts. -/
def namesJob (dryRun : Bool) : ImportJob where
  tenantId := "acme"
  target := "people.core.names"
  mode := .createOnly
  dryRun
  validOnly := false
  status := .parsing
  totalRows := 0
  validRows := 0
  writtenRows := 0
  failedRows := 0
  requester := ⟨"ada", "ada@acme.test", "Ada", "admin", ["names.write"]⟩
  columns := [("name", "name")]
  failureCode := none

/-- The stored file: its metadata. -/
def namesDocument : DocumentAttachment :=
  ⟨.stored, .clean, "text/csv", 15⟩

/-- A file with a name that comes twice. -/
def namesBody : ByteArray :=
  "name\nAda\nAda\n".toByteArray

/-- A stage under the smallest settings. -/
def namesStage : ImportStage :=
  ⟨⟨100, 50, by decide, by decide, by decide⟩, none⟩

/-- What a stage opens. -/
def namesOpened : Opened ℕ :=
  ⟨namesPort, ⟨["name"], [⟨1, ["Ada"]⟩, ⟨2, ["Ada"]⟩]⟩,
    ⟨[⟨1, [("name", "Ada")]⟩, ⟨2, [("name", "Ada")]⟩], []⟩⟩

theorem openJob_names : let _ := sampleHost
    openJob namesPorts namesBody namesStage (namesJob false) = .ok namesOpened := by
  intro _
  have hf : namesPorts.find (namesJob false).target = some ⟨"people.core", namesPort⟩ := rfl
  have hr : readDocument namesStage namesBody = .ok namesOpened.document := by decide +kernel
  have hm : mapDocument namesPort.fields (namesJob false).columns namesOpened.document =
      .ok namesOpened.mapped := by decide +kernel
  unfold openJob
  rw [hf, hr]
  dsimp only
  rw [hm]
  rfl

end Flowdular.Import
