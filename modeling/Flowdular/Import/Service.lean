/-
# Import jobs

`src/modules/import/src/services/import-service.ts` over the rows of
`services/database-repository.ts`.

A job reads its file in two stages.  `parseAndValidate` maps the records onto the fields
of the port, refuses repeated keys, asks the port about the rest and writes one row for
every data row of the file; `write` hands the rows that are still valid to the port and
records what it answers, batch by batch.  A stage may stop between any two of its calls
and be taken up again by another process.
-/

import Flowdular.Import.Csv
import Flowdular.Import.Ports
import Flowdular.Lib.Table

namespace Flowdular.Import

open Lib (Table.upsert)

/-! ### Jobs -/

inductive ImportJobStatus where
  | parsing
  | validated
  | writing
  | completed
  | failed
  | cancelled
deriving DecidableEq, Repr

inductive ImportRowOutcome where
  | valid
  | invalid
  | created
  | updated
  | skipped
  | failed
deriving DecidableEq, Repr

/-- The outcome a port gave, as that of a row. -/
def Written.rowOutcome : Written → ImportRowOutcome
  | .created => .created
  | .updated => .updated
  | .skipped => .skipped
  | .failed => .failed

structure ImportJobRow where
  rowNumber : ℕ
  outcome : ImportRowOutcome
  field : Option String
  reason : Option String
  recordRef : Option String
deriving DecidableEq, Repr

structure ImportJob where
  tenantId : String
  target : String
  mode : ImportMode
  dryRun : Bool
  validOnly : Bool
  status : ImportJobStatus
  totalRows : ℕ
  validRows : ℕ
  writtenRows : ℕ
  failedRows : ℕ
  requester : ImportRequester
  columns : Values
  failureCode : Option String
deriving DecidableEq, Repr

structure StartImportInput where
  target : String
  mode : ImportMode
  dryRun : Bool
  columns : Values

inductive DocumentStatus where
  | stored
  | deleted
deriving DecidableEq, Repr

inductive DocumentScan where
  | unscanned
  | clean
  | infected
deriving DecidableEq, Repr

structure DocumentAttachment where
  status : DocumentStatus
  scan : DocumentScan
  contentType : String
  bytes : ℕ

/-- The settings of the module, in their ranges. -/
structure ImportSettings where
  maxRows : ℕ
  batchSize : ℕ
  maxRows_le : maxRows ≤ 500000
  le_batchSize : 50 ≤ batchSize
  batchSize_le : batchSize ≤ 5000

/-! ### Starting a job -/

/-- `IMPORT_CSV_CONTENT_TYPE`. -/
def csvContentType : String :=
  "text/csv"

/-- `IMPORT_MAX_CSV_BYTES`. -/
def maxCsvBytes : ℕ :=
  25 * 1024 * 1024

/-- The refusal of `#require`. -/
def targetUnknown : ImportServiceError :=
  ⟨"TARGET_UNKNOWN", "No module offers that import target.", 404⟩

/-- The refusal of a principal without the port's permission. -/
def targetForbidden : ImportServiceError :=
  ⟨"TARGET_FORBIDDEN", "You do not hold the permission this import target requires.", 403⟩

/-- The loop of `#assertMapping` over the entries; `headers` are the columns taken. -/
def checkColumns (fields : List ImportField) : Values → Values → Except ImportServiceError Unit
  | _, [] => .ok ()
  | headers, (id, header) :: entries =>
    if id ∉ fields.map (·.id) then
      .error ⟨"MAPPING_UNKNOWN_FIELD", "The target has no field " ++ id ++ ".", 400⟩
    else
      match headers.lookup header with
      | some taken => .error ⟨"MAPPING_COLUMN_REUSED",
          "The column " ++ header ++ " is mapped to " ++ taken ++ " and " ++ id ++ ".", 400⟩
      | none => checkColumns fields ((header, id) :: headers) entries

def assertMapping [ImportHost] (fields : List ImportField) (columns : Values) :
    Except ImportServiceError Unit :=
  if jsonLimit < ImportHost.columnsLength columns then
    .error ⟨"MAPPING_TOO_LARGE",
      "The column mapping is larger than an import job can record.", 400⟩
  else
    match checkColumns fields [] columns with
    | .error error => .error error
    | .ok () =>
      match fields.find? fun field => field.required && (columns.lookup field.id).getD "" = "" with
      | some field => .error ⟨"MAPPING_INCOMPLETE",
          "The required field " ++ field.id ++ " has no column.", 400⟩
      | none => .ok ()

def requesterOf [ImportHost] (principal : AuthPrincipal) : Except ImportServiceError ImportRequester :=
  let requester : ImportRequester :=
    ⟨principal.accountId, principal.email, principal.displayName, principal.role, principal.scopes⟩
  if jsonLimit < ImportHost.requesterLength requester then
    .error ⟨"REQUESTER_TOO_LARGE",
      "Your account carries more grants than an import job can record.", 400⟩
  else .ok requester

/-- The checks `start` makes of the document. -/
def checkDocument : Option DocumentAttachment → Except ImportServiceError Unit
  | none => .error ⟨"SOURCE_NOT_FOUND", "The source document is not stored in this workspace.", 404⟩
  | some document =>
    if document.status = .deleted then
      .error ⟨"SOURCE_NOT_FOUND", "The source document is not stored in this workspace.", 404⟩
    else if document.scan = .infected then
      .error ⟨"SOURCE_INFECTED", "The source document was refused by the malware scanner.", 400⟩
    else if document.contentType ≠ csvContentType then
      .error ⟨"SOURCE_NOT_CSV", "The source document is not a CSV file.", 400⟩
    else if maxCsvBytes < document.bytes then
      .error ⟨"SOURCE_TOO_LARGE",
        "The source document is larger than " ++ toString maxCsvBytes ++ " bytes.", 400⟩
    else .ok ()

section Start

variable [ImportHost] {σ : Type}

def start (ports : ImportPortRegistry σ) (document : Option DocumentAttachment)
    (principal : AuthPrincipal) (input : StartImportInput) : Except ImportServiceError ImportJob :=
  match ports.find input.target with
  | none => .error targetUnknown
  | some registered =>
    if registered.port.permission ∉ principal.scopes then .error targetForbidden
    else
      match assertMapping registered.port.fields input.columns with
      | .error error => .error error
      | .ok () =>
        match requesterOf principal with
        | .error error => .error error
        | .ok requester =>
          match checkDocument document with
          | .error error => .error error
          | .ok () =>
            .ok { tenantId := principal.tenantId, target := registered.target, mode := input.mode,
                  dryRun := input.dryRun, validOnly := false, status := .parsing, totalRows := 0,
                  validRows := 0, writtenRows := 0, failedRows := 0, requester,
                  columns := input.columns, failureCode := none }

end Start

def principalOf (job : ImportJob) : AuthPrincipal where
  accountId := job.requester.accountId
  tenantId := job.tenantId
  email := job.requester.email
  displayName := job.requester.displayName
  role := job.requester.role
  scopes := job.requester.scopes
  tenants := []

/-! ### From records to rows -/

/-- A field and the position of its column. -/
structure ImportColumn where
  field : ImportField
  index : ℕ
deriving DecidableEq, Repr

/-- `position.get(name)`. -/
def position (header : List String) (name : String) : Option ℕ :=
  (header.zipIdx.findRev? fun entry => entry.1 = name).map (·.2)

/-- The refusal of a file without a mapped column. -/
def mappingColumnMissing (message : String) : ImportServiceError :=
  ⟨"MAPPING_COLUMN_MISSING", message, 400⟩

/-- The loop of `#map` over the fields. -/
def columnsOf (columns : Values) (header : List String) :
    List ImportField → Except ImportServiceError (List ImportColumn)
  | [] => .ok []
  | field :: fields =>
    match columns.lookup field.id with
    | none =>
      if field.required then
        .error (mappingColumnMissing ("The file has no column for " ++ field.id ++ "."))
      else columnsOf columns header fields
    | some name =>
      match position header name with
      | none => .error (mappingColumnMissing
          ("The file has no column " ++ name ++ " for " ++ field.id ++ "."))
      | some index => (columnsOf columns header fields).map (⟨field, index⟩ :: ·)

/-- `record.cells[index] ?? ''`. -/
def CsvRow.cell (record : CsvRow) (index : ℕ) : String :=
  record.cells[index]?.getD ""

/-- The refusal of a row for one of its fields. -/
def refusal (row : ℕ) (field reason : String) : ImportValidation :=
  ⟨row, .invalid, some field, some reason⟩

/-- The loop of `#map` over the columns of a record. -/
def mapCells [ImportHost] (record : CsvRow) :
    List ImportColumn → Values → Except ImportValidation Values
  | [], values => .ok values
  | ⟨field, index⟩ :: columns, values =>
    let cell := record.cell index
    if cell = "" then
      if field.required then .error (refusal record.row field.id "FIELD_REQUIRED")
      else mapCells record columns values
    else if !shapeOf cell field.type then .error (refusal record.row field.id "FIELD_TYPE")
    else mapCells record columns (values ++ [(field.id, cell)])

/-- The loop of `#map` on one record. -/
def mapRecord [ImportHost] (width : ℕ) (columns : List ImportColumn) (record : CsvRow) :
    Except ImportValidation ImportRow :=
  if record.cells.length ≠ width then
    .error ⟨record.row, .invalid, none, some "ROW_RAGGED"⟩
  else (mapCells record columns []).map (⟨record.row, ·⟩)

/-- A record that was refused. -/
def refusedOf {α : Type} : Except ImportValidation α → Option ImportValidation
  | .ok _ => none
  | .error refused => some refused

/-- What `#map` returns. -/
structure Mapped where
  rows : List ImportRow
  invalid : List ImportValidation
deriving DecidableEq, Repr

/-- The loop of `#map` over the records. -/
def mapRecords [ImportHost] (width : ℕ) (columns : List ImportColumn) (records : List CsvRow) : Mapped where
  rows := (records.map (mapRecord width columns)).filterMap (·.toOption)
  invalid := (records.map (mapRecord width columns)).filterMap refusedOf

/-- `#map`. -/
def mapDocument [ImportHost] (fields : List ImportField) (columns : Values) (document : CsvDocument) :
    Except ImportServiceError Mapped :=
  (columnsOf columns document.header fields).map fun columns =>
    mapRecords document.header.length columns document.rows

/-! ### Validation -/

section Stages

variable {σ : Type}

/-- The loop of `#duplicates`; `seen` are the keys of earlier rows. -/
def duplicatesFrom (port : ImportPort σ) (first : String) :
    List String → List ImportRow → List ImportValidation
  | _, [] => []
  | seen, row :: rows =>
    if keyOf port row.values ∈ seen then
      refusal row.row first "NATURAL_KEY_DUPLICATE" :: duplicatesFrom port first seen rows
    else duplicatesFrom port first (keyOf port row.values :: seen) rows

def duplicates (port : ImportPort σ) (rows : List ImportRow) : List ImportValidation :=
  match port.naturalKey with
  | [] => []
  | first :: _ => duplicatesFrom port first [] rows

/-- `#validate`. -/
def validateRows (port : ImportPort σ) (input : ImportValidateInput) (s : σ) :
    List ImportValidation × σ :=
  match port.validate input s with
  | (some verdicts, s) => (verdicts, s)
  | (none, s) => (input.rows.map fun row => ⟨row.row, .invalid, none, some "PORT_FAILED"⟩, s)

/-- `#writeBatch`. -/
def writeRows (port : ImportPort σ) (input : ImportWriteInput) (s : σ) :
    List ImportWriteOutcome × σ :=
  match port.write input s with
  | (some outcomes, s) => (outcomes, s)
  | (none, s) => (input.rows.map fun row => ⟨row.row, .failed, none, some "PORT_FAILED"⟩, s)

/-- The rows the mapping and the keys leave to the port. -/
def pendingRows (port : ImportPort σ) (mapped : Mapped) : List ImportRow :=
  mapped.rows.filter fun row =>
    (latest (·.row) row.row (mapped.invalid ++ duplicates port mapped.rows)).isNone

/-- The loop that cuts rows into batches, with a round for each row. -/
def slicesFrom {α : Type} (batch : ℕ) : ℕ → List α → List (List α)
  | _, [] => []
  | 0, _ => []
  | n + 1, rows => rows.take batch :: slicesFrom batch n (rows.drop batch)

/-- The batches a stage hands to the port. -/
def slices {α : Type} (batch : ℕ) (rows : List α) : List (List α) :=
  slicesFrom batch rows.length rows

/-- One round of the validation: `verdicts` and the port's state behind a batch. -/
def validateSlice (port : ImportPort σ) (job : ImportJob) (progress : List ImportValidation × σ)
    (slice : List ImportRow) : List ImportValidation × σ :=
  let (answer, s) := validateRows port ⟨job.tenantId, principalOf job, slice⟩ progress.2
  (progress.1 ++ answer.filter fun verdict => verdict.verdict = .invalid, s)

def outcomeRow (rowNumber : ℕ) (outcome : ImportRowOutcome) (field reason recordRef : Option String) :
    ImportJobRow :=
  ⟨rowNumber, outcome, truncate field fieldLimit, truncate reason reasonLimit,
    truncate recordRef recordRefLimit⟩

/-- The row of a data row behind the validation. -/
def verdictRow (verdicts : List ImportValidation) (row : ℕ) : ImportJobRow :=
  match latest (·.row) row verdicts with
  | none => outcomeRow row .valid none none none
  | some verdict => outcomeRow row .invalid verdict.field verdict.reason none

/-! ### Writing -/

def recordJobRows (table recorded : List ImportJobRow) : List ImportJobRow :=
  recorded.foldl (fun table row => Table.upsert (·.rowNumber) row table) table

/-- `listValidRowNumbers`. -/
def validRowNumbers (table : List ImportJobRow) : List ℕ :=
  (table.filter fun row => row.outcome = .valid).map (·.rowNumber)

def countRowOutcomes (table : List ImportJobRow) (outcome : ImportRowOutcome) : ℕ :=
  table.countP fun row => row.outcome = outcome

/-- The row of a data row behind its batch. -/
def recordedRow (outcomes : List ImportWriteOutcome) (row : ImportRow) : ImportJobRow :=
  match latest (·.row) row.row outcomes with
  | some written => outcomeRow row.row written.outcome.rowOutcome none written.reason written.recordRef
  | none => outcomeRow row.row .failed none (some "PORT_SILENT") none

/-- One round of the writing: the rows of the job and the port's state behind a batch. -/
def writeSlice (port : ImportPort σ) (job : ImportJob) (progress : List ImportJobRow × σ)
    (slice : List ImportRow) : List ImportJobRow × σ :=
  let (outcomes, s) := writeRows port ⟨job.tenantId, principalOf job, slice, job.mode⟩ progress.2
  (recordJobRows progress.1 (slice.map (recordedRow outcomes)), s)

/-! ### Stages -/

/-- A job, its rows, and the state of the port's module. -/
structure ImportState (σ : Type) where
  job : ImportJob
  rows : List ImportJobRow
  port : σ

/-- What a stage finds: the settings, and the refusal of the file where it has become
unreadable. -/
structure ImportStage where
  settings : ImportSettings
  refusal : Option String

/-- The codes of `CsvError`. -/
def CsvErrorCode.text : CsvErrorCode → String
  | .empty => "CSV_EMPTY"
  | .headerBlank => "CSV_HEADER_BLANK"
  | .headerDuplicate => "CSV_HEADER_DUPLICATE"
  | .notUtf8 => "CSV_NOT_UTF8"
  | .quoteUnterminated => "CSV_QUOTE_UNTERMINATED"
  | .quoteUnexpected => "CSV_QUOTE_UNEXPECTED"
  | .tooManyRows => "CSV_TOO_MANY_ROWS"

/-- `#read`; a failure is its code. -/
def readDocument (stage : ImportStage) (body : ByteArray) : Except String CsvDocument :=
  match stage.refusal with
  | some code => .error code
  | none => (readBytes body stage.settings.maxRows).mapError fun error => error.code.text

/-- What both stages begin with. -/
structure Opened (σ : Type) where
  port : ImportPort σ
  document : CsvDocument
  mapped : Mapped

variable [ImportHost] (ports : ImportPortRegistry σ) (body : ByteArray) (stage : ImportStage)

/-- `#require`, `#read` and `#map`. -/
def openJob (job : ImportJob) : Except String (Opened σ) :=
  match ports.find job.target with
  | none => .error targetUnknown.code
  | some registered =>
    match readDocument stage body with
    | .error code => .error code
    | .ok document =>
      match mapDocument registered.port.fields job.columns document with
      | .error error => .error error.code
      | .ok mapped => .ok ⟨registered.port, document, mapped⟩

variable {stage} in
/-- The batches of the validation. -/
def Opened.pendingSlices (opened : Opened σ) (stage : ImportStage) : List (List ImportRow) :=
  slices stage.settings.batchSize (pendingRows opened.port opened.mapped)

/-- The verdicts of the mapping, of the keys and of the port on some batches. -/
def Opened.verdicts (opened : Opened σ) (job : ImportJob) (batches : List (List ImportRow)) (s : σ) :
    List ImportValidation × σ :=
  batches.foldl (validateSlice opened.port job)
    (opened.mapped.invalid ++ duplicates opened.port opened.mapped.rows, s)

/-- `replaceJobRows` in the first stage. -/
def Opened.validatedRows (opened : Opened σ) (verdicts : List ImportValidation) : List ImportJobRow :=
  (List.range' 1 opened.document.rows.length).map (verdictRow verdicts)

def parseAndValidate (s : ImportState σ) : Except String (ImportState σ) :=
  (openJob ports body stage s.job).map fun opened =>
    let (verdicts, port) := opened.verdicts s.job (opened.pendingSlices stage) s.port
    let rows := opened.validatedRows verdicts
    let validRows := countRowOutcomes rows .valid
    { job := { s.job with
        status := if s.job.dryRun then .completed else .validated
        totalRows := opened.document.rows.length
        validRows
        writtenRows := 0
        failedRows := opened.document.rows.length - validRows
        failureCode := none }
      rows
      port }

/-- The rows of the file a write pass hands over. -/
def Opened.writable (opened : Opened σ) (table : List ImportJobRow) : List ImportRow :=
  opened.mapped.rows.filter fun row => row.row ∈ validRowNumbers table

/-- The batches of the writing. -/
def Opened.writableSlices (opened : Opened σ) (stage : ImportStage) (table : List ImportJobRow) :
    List (List ImportRow) :=
  slices stage.settings.batchSize (opened.writable table)

def write (s : ImportState σ) : Except String (ImportState σ) :=
  (openJob ports body stage s.job).map fun opened =>
    let (rows, port) :=
      (opened.writableSlices stage s.rows).foldl (writeSlice opened.port s.job) (s.rows, s.port)
    { job := { s.job with
        status := .completed
        writtenRows := countRowOutcomes rows .created + countRowOutcomes rows .updated
        failedRows := countRowOutcomes rows .invalid + countRowOutcomes rows .failed
        failureCode := none }
      rows
      port }

/-- `#perform` on a claimed job: a failure is the job's recorded outcome. -/
def perform (s : ImportState σ) : ImportState σ :=
  let settle : Except String (ImportState σ) → ImportState σ
    | .ok s => s
    | .error code => { s with job := { s.job with
        status := .failed, failureCode := some (String.ofList (sliceChars 64 code.toList)) } }
  match s.job.status with
  | .parsing => settle (parseAndValidate ports body stage s)
  | .writing => settle (write ports body stage s)
  | .validated | .completed | .failed | .cancelled => s

/-- A first stage that stops behind so many of its calls. -/
def stoppedParsing (calls : ℕ) (s : ImportState σ) : ImportState σ :=
  match openJob ports body stage s.job with
  | .error _ => s
  | .ok opened =>
    let batches := opened.pendingSlices stage
    let (verdicts, port) := opened.verdicts s.job (batches.take calls) s.port
    if batches.length < calls then { s with rows := opened.validatedRows verdicts, port }
    else { s with port }

/-- A write pass that stops behind so many of its calls: a batch takes two, one of the
port and one of the database. -/
def stoppedWriting (calls : ℕ) (s : ImportState σ) : ImportState σ :=
  match openJob ports body stage s.job with
  | .error _ => s
  | .ok opened =>
    let batches := opened.writableSlices stage s.rows
    let (rows, port) :=
      (batches.take (calls / 2)).foldl (writeSlice opened.port s.job) (s.rows, s.port)
    match batches[calls / 2]? with
    | some slice =>
      if calls % 2 = 0 then { s with rows, port }
      else { s with rows, port := (writeSlice opened.port s.job (rows, port) slice).2 }
    | none => { s with rows, port }

/-- A stage that stops: the process is gone, or its claim is. -/
def stopped (calls : ℕ) (s : ImportState σ) : ImportState σ :=
  match s.job.status with
  | .parsing => stoppedParsing ports body stage calls s
  | .writing => stoppedWriting ports body stage calls s
  | .validated | .completed | .failed | .cancelled => s

end Stages

/-! ### Between the stages -/

section Requests

variable {σ : Type}

/-- The refusal of a job that is not validated. -/
def jobNotValidated (asked : String) : ImportServiceError :=
  ⟨"JOB_NOT_VALIDATED", "Only a validated job can be " ++ asked ++ ".", 409⟩

/-- `continue`. -/
def continueJob (ports : ImportPortRegistry σ) (principal : AuthPrincipal) (validOnly : Bool)
    (job : ImportJob) : Except ImportServiceError ImportJob :=
  if job.dryRun then
    .error ⟨"JOB_DRY_RUN", "A dry run writes nothing; start a new job to write these rows.", 409⟩
  else if job.status ≠ .validated then .error (jobNotValidated "continued")
  else
    match ports.find job.target with
    | none => .error targetUnknown
    | some registered =>
      if registered.port.permission ∉ principal.scopes then .error targetForbidden
      else if !validOnly ∧ job.validRows ≠ job.totalRows then
        .error ⟨"VALIDATION_FAILED",
          "This job has invalid rows; continue with the valid rows only.", 409⟩
      else .ok { job with status := .writing, validOnly }

/-- `cancel`. -/
def cancelJob (job : ImportJob) : Except ImportServiceError ImportJob :=
  if job.status ≠ .validated then .error (jobNotValidated "cancelled")
  else .ok { job with status := .cancelled, failureCode := none }

end Requests

end Flowdular.Import
