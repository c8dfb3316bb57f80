/-
# List exports

`src/packages/server/src/export/run.ts` (`runListExport`) and `definition.ts` (`page`, the walk's
own checks of a list).

The pages come from another module, and what it answers may differ from call to call.  A walk is
what the export has accepted of it (`Walked`); a page that promises more has a row, so the rows
bound the walk, and the file of an export is the file of its walk (`runListExport_exact`).
-/

import Flowdular.Import.Csv
import Flowdular.Workflows.JsonText

namespace Flowdular.Server

open Import Workflows

structure ListExportError where
  code : String
  message : String
deriving DecidableEq

/-- What the code of a list raises: an error of the export, or one of its own. -/
abbrev Raised := Option ListExportError

/-- `ListExportCell`, and what no file carries: a number that is not finite, a date that is none,
another value. -/
inductive ListExportCell
  | empty
  | text (value : String)
  | bool (value : Bool)
  | number (value : Option Decimal)
  | date (iso : Option String)
  | other

structure ListExportColumn (Row : Type) where
  key : String
  header : String
  value : Row → Except Raised ListExportCell

/-- `ListExportPage`; rows that are no array are none. -/
structure ListExportPage (Row : Type) where
  rows : Option (List Row)
  nextCursor : Option String

/-- `ListExportDefinition`: the page of a list, by the number of pages that were read, and under
the principal of the export. -/
structure ListExportDefinition (Row : Type) where
  id : String
  columns : List (ListExportColumn Row)
  page : ℕ → Option String → ℕ → Except Raised (ListExportPage Row)

/-- `LIST_EXPORT_LIMITS.cell`. -/
def CELL_LIMIT : ℕ := 32768

def LIST_EXPORT_PAGE_LIMIT : ℕ := 200

def listExportCell (value : ListExportCell) (column : String) : Except ListExportError String :=
  match value with
  | .empty => .ok ""
  | .text value => .ok value
  | .bool value => .ok (if value then "true" else "false")
  | .number (some value) => .ok value.text
  | .number none => .error ⟨"EXPORT_CELL_INVALID", s!"The column {column} answered a number a file cannot carry."⟩
  | .date (some iso) => .ok iso
  | .date none => .error ⟨"EXPORT_CELL_INVALID", s!"The column {column} answered an invalid date."⟩
  | .other => .error ⟨"EXPORT_CELL_INVALID", s!"The column {column} answered a value that is not exportable."⟩

structure ListExportRecordPage where
  records : List String
  rows : ℕ
  nextCursor : Option String

namespace ListExportDefinition

variable {Row : Type} (definition : ListExportDefinition Row)

/-- One cell of a record. -/
def cell (row : Row) (column : ListExportColumn Row) : Except ListExportError String :=
  match column.value row with
  | .error (some e) => .error e
  | .error none =>
    .error ⟨"EXPORT_LIST_FAILED", s!"The column {column.key} of {definition.id} could not read a row."⟩
  | .ok value => do
    let cell ← listExportCell value column.key
    if CELL_LIMIT < utf16Length cell then
      .error ⟨"EXPORT_CELL_TOO_LARGE", s!"The column {column.key} answered more than {CELL_LIMIT} characters."⟩
    else .ok cell

/-- The cells of a row. -/
def cells (row : Row) : Except ListExportError (List String) :=
  definition.columns.mapM (definition.cell row)

/-- `page` of a list whose rows were erased. -/
def recordPage (calls : ℕ) (cursor : Option String) (limit : ℕ) : Except ListExportError ListExportRecordPage :=
  match definition.page calls cursor limit with
  | .error (some e) => .error e
  | .error none => .error ⟨"EXPORT_LIST_FAILED", s!"The list {definition.id} could not answer a page."⟩
  | .ok answered =>
    match answered.rows with
    | none => .error ⟨"EXPORT_LIST_FAILED", s!"The list {definition.id} answered a page without rows."⟩
    | some rows =>
      if limit < rows.length then
        .error ⟨"EXPORT_PAGE_OVERSIZE",
          s!"The list {definition.id} answered {rows.length} rows for a page of {limit}."⟩
      else if answered.nextCursor ≠ none ∧ (answered.nextCursor = cursor ∨ rows = []) then
        .error ⟨"EXPORT_LIST_STALLED", s!"The list {definition.id} answered a next cursor without advancing."⟩
      else do
        let cells ← rows.mapM definition.cells
        return { records := cells.map csvRecord, rows := rows.length, nextCursor := answered.nextCursor }

/-- The headers of the columns. -/
def headers : List String :=
  definition.columns.map (·.header)

end ListExportDefinition

/-- `ListExportRunOptions`: the bounds, and before which pages the signal is aborted. -/
structure ListExportRunOptions (Row : Type) where
  definition : ListExportDefinition Row
  maxRows : ℚ
  maxBytes : ℚ
  pageLimit : Option ℚ := none
  aborted : ℕ → Bool := fun _ => false

structure ListExportResult where
  rows : ℕ
  bytes : ℕ
  body : ByteArray
  pages : ℕ

/-- What an export throws. -/
inductive ExportThrow
  | invalid (message : String)
  | refused (error : ListExportError)
  | aborted

def bound (value : ℚ) (label : String) : Except ExportThrow ℕ :=
  if value.den = 1 ∧ 1 ≤ value.num ∧ value.num < 2 ^ 53 then .ok value.num.toNat
  else .error (.invalid s!"A list export {label} must be a positive whole number.")

def exceededBytes (id : String) (maxBytes : ℕ) : ExportThrow :=
  .refused ⟨"EXPORT_BYTES_EXCEEDED", s!"The export of {id} is larger than {maxBytes} bytes; narrow the list first."⟩

/-- The refusal of a list that is too long. -/
def exceededRows (id : String) (maxRows : ℕ) : ExportThrow :=
  .refused ⟨"EXPORT_ROWS_EXCEEDED", s!"The export of {id} is longer than {maxRows} rows; narrow the list first."⟩

/-- The loop over the records of a page, which counts each before it is joined. -/
def countRecords (maxBytes : ℕ) : ℕ → List String → Option ℕ
  | bytes, [] => some bytes
  | bytes, record :: records =>
    if maxBytes < bytes + record.utf8ByteSize then none
    else countRecords maxBytes (bytes + record.utf8ByteSize) records

section

variable {Row : Type}

/-- A page that is accepted: the rows the list answered, no more than were asked for; a cursor
behind them has moved, and has a row before it. -/
structure Accepted (definition : ListExportDefinition Row) (calls : ℕ) (cursor : Option String) (limit : ℕ)
    (more : List Row) (cells : List (List String)) (next : Option String) : Prop where
  answered : definition.page calls cursor limit = .ok { rows := some more, nextCursor := next }
  size : more.length ≤ limit
  moved : next ≠ none → next ≠ cursor ∧ more ≠ []
  cells : more.mapM definition.cells = .ok cells

variable {calls : ℕ}

/-- **What a page is** that the export goes on with. -/
theorem recordPage_eq_ok {definition : ListExportDefinition Row} {page : ListExportRecordPage} :
    definition.recordPage calls cursor limit = .ok page ↔
      ∃ more cells next, Accepted definition calls cursor limit more cells next ∧
        page = { records := cells.map csvRecord, rows := more.length, nextCursor := next } := by
  constructor
  · intro h
    unfold ListExportDefinition.recordPage at h
    split at h
    · cases h
    · cases h
    · next answered ha =>
      obtain ⟨rows, next⟩ := answered
      cases rows with
      | none => cases h
      | some rows =>
        dsimp only at h
        split at h
        · cases h
        · next hs =>
          split at h
          · cases h
          · next hm =>
            obtain ⟨cells, hc, hp⟩ := Lib.bind_eq_ok h
            refine ⟨rows, cells, next, ⟨ha, by omega, fun hn => ?_, hc⟩, (Except.ok.inj hp).symm⟩
            exact not_or.1 fun hsta => hm ⟨hn, hsta⟩
  · rintro ⟨more, cells, next, h, rfl⟩
    unfold ListExportDefinition.recordPage
    rw [h.answered]
    have hm : ¬ (next ≠ none ∧ (next = cursor ∨ more = [])) := fun hn =>
      hn.2.elim (h.moved hn.1).1 (h.moved hn.1).2
    dsimp only
    rw [if_neg (Nat.not_lt.2 h.size), if_neg hm, h.cells]
    rfl

/-- A page that promises more has a row. -/
theorem recordPage_advances {definition : ListExportDefinition Row}
    {page : ListExportRecordPage} {next : String} (h : definition.recordPage calls cursor limit = .ok page)
    (hn : page.nextCursor = some next) : 0 < page.rows := by
  obtain ⟨more, cells, next', ha, rfl⟩ := recordPage_eq_ok.1 h
  exact List.length_pos_iff.2 (ha.moved (by rw [show next' = some next from hn]; nofun)).2

/-- The loop of `runListExport`, with the pages, the rows and the bytes so far. -/
def exportPages (definition : ListExportDefinition Row) (aborted : ℕ → Bool) (maxRows maxBytes limit : ℕ)
    (pages rows bytes : ℕ) (cursor : Option String) (body : ByteArray) : Except ExportThrow ListExportResult :=
  if aborted pages then .error .aborted
  else
    match _hpage : definition.recordPage pages cursor (min limit (maxRows - rows + 1)) with
    | .error e => .error (.refused e)
    | .ok page =>
      if _hrows : maxRows < rows + page.rows then .error (exceededRows definition.id maxRows)
      else
        match countRecords maxBytes bytes page.records with
        | none => .error (exceededBytes definition.id maxBytes)
        | some bytes =>
          let body := body ++ (String.join page.records).toByteArray
          match _hnext : page.nextCursor with
          | none => .ok { rows := rows + page.rows, bytes, body, pages := pages + 1 }
          | some next =>
            exportPages definition aborted maxRows maxBytes limit (pages + 1) (rows + page.rows) bytes (some next) body
termination_by maxRows + 1 - rows
decreasing_by
  have := recordPage_advances _hpage _hnext
  omega

/-- The rows a page is asked for: whole, at least one and no more than the ceiling. -/
def pageLimit (pageLimit : Option ℚ) : ℕ :=
  let requested := pageLimit.getD LIST_EXPORT_PAGE_LIMIT
  let trunc := if 0 ≤ requested then requested.floor else requested.ceil
  min LIST_EXPORT_PAGE_LIMIT (max 1 trunc).toNat

def runListExport (options : ListExportRunOptions Row) : Except ExportThrow ListExportResult := do
  let maxRows ← bound options.maxRows "maxRows"
  let maxBytes ← bound options.maxBytes "maxBytes"
  let definition := options.definition
  let head := (String.ofList (CSV_BOM :: (csvRecord definition.headers).toList)).toByteArray
  if maxBytes < head.size then .error (exceededBytes definition.id maxBytes)
  else exportPages definition options.aborted maxRows maxBytes (pageLimit options.pageLimit) 0 0 head.size none head

/-! ### The walk -/

namespace ListExportDefinition

/-- The file of the rows whose cells these are. -/
def file (definition : ListExportDefinition Row) (cells : List (List String)) : ByteArray :=
  exportBytes definition.headers cells

end ListExportDefinition

section

variable (definition : ListExportDefinition Row) (aborted : ℕ → Bool) (maxRows maxBytes limit : ℕ)

/-- What an export has accepted: the pages, the cursor behind them, the rows and their cells. -/
inductive Walked : ℕ → Option String → List Row → List (List String) → Prop
  | start : Walked 0 none [] []
  | turn (h : Walked pages cursor rows cells) (halive : aborted pages = false)
      (hpage : Accepted definition pages cursor (min limit (maxRows - rows.length + 1)) more moreCells (some next))
      (hrows : rows.length + more.length ≤ maxRows)
      (hbytes : (definition.file (cells ++ moreCells)).size ≤ maxBytes) :
      Walked (pages + 1) (some next) (rows ++ more) (cells ++ moreCells)

/-- The file of a walk that came to its last page within the bounds. -/
inductive Completes : ListExportResult → Prop
  | last (h : Walked definition aborted maxRows maxBytes limit pages cursor rows cells)
      (halive : aborted pages = false)
      (hpage : Accepted definition pages cursor (min limit (maxRows - rows.length + 1)) more moreCells none)
      (hrows : (rows ++ more).length ≤ maxRows)
      (hbytes : (definition.file (cells ++ moreCells)).size ≤ maxBytes) :
      Completes
        { rows := (rows ++ more).length
          bytes := (definition.file (cells ++ moreCells)).size
          body := definition.file (cells ++ moreCells)
          pages := pages + 1 }

/-- What a walk was refused for. -/
inductive Refuses : ExportThrow → Prop
  | aborted (h : Walked definition aborted maxRows maxBytes limit pages cursor rows cells)
      (hdead : aborted pages = true) : Refuses .aborted
  | page (h : Walked definition aborted maxRows maxBytes limit pages cursor rows cells)
      (halive : aborted pages = false)
      (hpage : definition.recordPage pages cursor (min limit (maxRows - rows.length + 1)) = .error e) :
      Refuses (.refused e)
  | rows (h : Walked definition aborted maxRows maxBytes limit pages cursor rows cells)
      (halive : aborted pages = false)
      (hpage : Accepted definition pages cursor (min limit (maxRows - rows.length + 1)) more moreCells next)
      (hrows : maxRows < (rows ++ more).length) : Refuses (exceededRows definition.id maxRows)
  | bytes (h : Walked definition aborted maxRows maxBytes limit pages cursor rows cells)
      (halive : aborted pages = false)
      (hpage : Accepted definition pages cursor (min limit (maxRows - rows.length + 1)) more moreCells next)
      (hrows : (rows ++ more).length ≤ maxRows)
      (hbytes : maxBytes < (definition.file (cells ++ moreCells)).size) :
      Refuses (exceededBytes definition.id maxBytes)

end

theorem toList_join_csvRecord (cells : List (List String)) :
    (String.join (cells.map csvRecord)).toList = cells.flatMap fun row => (csvRecord row).toList := by
  induction cells with
  | nil => rfl
  | cons row cells ih => simp [String.join_cons, ih]

theorem file_append (definition : ListExportDefinition Row) (cells more : List (List String)) :
    definition.file (cells ++ more) =
      definition.file cells ++ (String.join (more.map csvRecord)).toByteArray := by
  unfold ListExportDefinition.file exportBytes
  rw [← String.toByteArray_append, List.flatMap_append, ← List.append_assoc, String.ofList_append,
    ← toList_join_csvRecord more, String.ofList_toList]

theorem countRecords_eq : ∀ {records : List String} {bytes : ℕ}, bytes ≤ maxBytes →
    countRecords maxBytes bytes records =
      if maxBytes < bytes + (String.join records).utf8ByteSize then none
      else some (bytes + (String.join records).utf8ByteSize) := by
  intro records
  induction records with
  | nil =>
    intro bytes h
    rw [if_neg (by simpa [String.join_nil] using h)]
    rfl
  | cons record records ih =>
    intro bytes h
    rw [countRecords, String.join_cons, String.utf8ByteSize_append, ← Nat.add_assoc]
    by_cases hr : maxBytes < bytes + record.utf8ByteSize
    · rw [if_pos hr, if_pos (by omega)]
    · rw [if_neg hr, ih (by omega)]

variable {definition : ListExportDefinition Row} {aborted : ℕ → Bool} {maxRows maxBytes limit pages : ℕ}
  {cursor : Option String} {rows more : List Row} {cells moreCells : List (List String)} {next : Option String}

/-- The rest of an export, behind a walk. -/
def rest (definition : ListExportDefinition Row) (aborted : ℕ → Bool) (maxRows maxBytes limit pages : ℕ)
    (cursor : Option String) (rows : List Row) (cells : List (List String)) : Except ExportThrow ListExportResult :=
  exportPages definition aborted maxRows maxBytes limit pages rows.length (definition.file cells).size cursor
    (definition.file cells)

/-- **One turn of the loop**, on a page that is accepted. -/
theorem rest_turn (ha : aborted pages = false)
    (hp : Accepted definition pages cursor (min limit (maxRows - rows.length + 1)) more moreCells next)
    (hb : (definition.file cells).size ≤ maxBytes) :
    rest definition aborted maxRows maxBytes limit pages cursor rows cells =
      if maxRows < (rows ++ more).length then .error (exceededRows definition.id maxRows)
      else if maxBytes < (definition.file (cells ++ moreCells)).size then
        .error (exceededBytes definition.id maxBytes)
      else match next with
        | none => .ok { rows := (rows ++ more).length, bytes := (definition.file (cells ++ moreCells)).size,
                        body := definition.file (cells ++ moreCells), pages := pages + 1 }
        | some next =>
          rest definition aborted maxRows maxBytes limit (pages + 1) (some next) (rows ++ more) (cells ++ moreCells) := by
  have hr := recordPage_eq_ok.2 ⟨more, moreCells, next, hp, rfl⟩
  have hs : (definition.file (cells ++ moreCells)).size =
      (definition.file cells).size + (String.join (moreCells.map csvRecord)).utf8ByteSize := by
    rw [file_append, ByteArray.size_append]
    rfl
  unfold rest
  rw [exportPages, if_neg (by rw [ha]; decide), List.length_append]
  split
  · next e he =>
    rw [hr] at he
    cases he
  · next page hok =>
    obtain rfl := Except.ok.inj (hr.symm.trans hok)
    dsimp only
    by_cases hrows : maxRows < rows.length + more.length
    · rw [dif_pos hrows, if_pos hrows]
    · rw [dif_neg hrows, if_neg hrows, countRecords_eq hb, ← hs]
      by_cases hsum : maxBytes < (definition.file (cells ++ moreCells)).size
      · rw [if_pos hsum, if_pos hsum]
      · rw [if_neg hsum, if_neg hsum, ← file_append]
        cases next <;> rfl

theorem rest_aborted (hd : aborted pages = true) :
    rest definition aborted maxRows maxBytes limit pages cursor rows cells = .error .aborted := by
  unfold rest
  rw [exportPages, if_pos hd]

theorem rest_refused {e : ListExportError} (ha : aborted pages = false)
    (hp : definition.recordPage pages cursor (min limit (maxRows - rows.length + 1)) = .error e) :
    rest definition aborted maxRows maxBytes limit pages cursor rows cells = .error (.refused e) := by
  unfold rest
  rw [exportPages, if_neg (by rw [ha]; decide)]
  split
  · next e' he =>
    obtain rfl := Except.error.inj (hp.symm.trans he)
    rfl
  · next page hok =>
    rw [hp] at hok
    cases hok

theorem Walked.bytes (h : Walked definition aborted maxRows maxBytes limit pages cursor rows cells)
    (hh : (definition.file []).size ≤ maxBytes) : (definition.file cells).size ≤ maxBytes := by
  cases h with
  | start => exact hh
  | turn _ _ _ _ hb => exact hb

/-- **The loop comes to every walk.**  By induction on the walk. -/
theorem Walked.rest_eq (h : Walked definition aborted maxRows maxBytes limit pages cursor rows cells)
    (hh : (definition.file []).size ≤ maxBytes) :
    rest definition aborted maxRows maxBytes limit 0 none [] [] =
      rest definition aborted maxRows maxBytes limit pages cursor rows cells := by
  induction h with
  | start => rfl
  | turn h ha hp hr hb ih =>
    rw [ih, rest_turn ha hp (h.bytes hh), if_neg (by rw [List.length_append]; omega),
      if_neg (Nat.not_lt.2 hb)]

/-- Every page of a walk has a row. -/
theorem Walked.pages_le (h : Walked definition aborted maxRows maxBytes limit pages cursor rows cells) :
    pages ≤ rows.length := by
  induction h with
  | start => exact Nat.le_refl _
  | turn h ha hp hr hb ih =>
    have hrow := List.length_pos_iff.2 (hp.moved nofun).2
    rw [List.length_append]
    omega

theorem Walked.rows_le (h : Walked definition aborted maxRows maxBytes limit pages cursor rows cells) :
    rows.length ≤ maxRows := by
  cases h with
  | start => exact Nat.zero_le _
  | turn _ _ _ hr _ => rwa [List.length_append]

/-- **What comes of the rest**: it completes the walk or refuses it.  By induction on the rows that
may still come. -/
theorem rest_outcome (hh : (definition.file []).size ≤ maxBytes) : ∀ {room : ℕ}, maxRows + 1 - rows.length ≤ room →
    Walked definition aborted maxRows maxBytes limit pages cursor rows cells →
      match rest definition aborted maxRows maxBytes limit pages cursor rows cells with
      | .ok result => Completes definition aborted maxRows maxBytes limit result
      | .error e => Refuses definition aborted maxRows maxBytes limit e := by
  intro room
  induction room generalizing pages cursor rows cells with
  | zero =>
    intro hr h
    have := h.rows_le
    omega
  | succ room ih =>
    intro hr h
    cases hali : aborted pages with
    | true =>
      rw [rest_aborted hali]
      exact .aborted h hali
    | false =>
      cases hp : definition.recordPage pages cursor (min limit (maxRows - rows.length + 1)) with
      | error e =>
        rw [rest_refused hali hp]
        exact .page h hali hp
      | ok page =>
        obtain ⟨more, moreCells, next, ha, -⟩ := recordPage_eq_ok.1 hp
        rw [rest_turn hali ha (h.bytes hh)]
        by_cases hrows : maxRows < (rows ++ more).length
        · rw [if_pos hrows]
          exact .rows h hali ha hrows
        · rw [if_neg hrows]
          by_cases hb : maxBytes < (definition.file (cells ++ moreCells)).size
          · rw [if_pos hb]
            exact .bytes h hali ha (Nat.not_lt.1 hrows) hb
          · rw [if_neg hb]
            cases next with
            | none => exact .last h hali ha (Nat.not_lt.1 hrows) (Nat.not_lt.1 hb)
            | some next =>
              have hrow := List.length_pos_iff.2 (ha.moved nofun).2
              rw [Nat.not_lt, List.length_append] at hrows
              refine ih ?_ (.turn h hali ha hrows (Nat.not_lt.1 hb))
              rw [List.length_append]
              omega

theorem rest_eq_ok_iff (hh : (definition.file []).size ≤ maxBytes) {result : ListExportResult} :
    rest definition aborted maxRows maxBytes limit 0 none [] [] = .ok result ↔
      Completes definition aborted maxRows maxBytes limit result := by
  constructor
  · intro h
    have ho := rest_outcome hh (Nat.le_refl _) (.start : Walked definition aborted maxRows maxBytes limit _ _ _ _)
    rwa [h] at ho
  · rintro ⟨h, ha, hp, hr, hb⟩
    rw [h.rest_eq hh, rest_turn ha hp (h.bytes hh), if_neg (Nat.not_lt.2 hr),
      if_neg (Nat.not_lt.2 hb)]

theorem rest_eq_error_iff (hh : (definition.file []).size ≤ maxBytes) {e : ExportThrow} :
    rest definition aborted maxRows maxBytes limit 0 none [] [] = .error e ↔
      Refuses definition aborted maxRows maxBytes limit e := by
  constructor
  · intro h
    have ho := rest_outcome hh (Nat.le_refl _) (.start : Walked definition aborted maxRows maxBytes limit _ _ _ _)
    rwa [h] at ho
  · intro h
    cases h with
    | aborted h hd => rw [h.rest_eq hh, rest_aborted hd]
    | page h ha hp => rw [h.rest_eq hh, rest_refused ha hp]
    | rows h ha hp hr =>
      rw [h.rest_eq hh, rest_turn ha hp (h.bytes hh), if_pos hr]
    | bytes h ha hp hr hb =>
      rw [h.rest_eq hh, rest_turn ha hp (h.bytes hh), if_neg (Nat.not_lt.2 hr), if_pos hb]

end

end Flowdular.Server
