/-
# The write capability

`src/modules/import/src/services/import-write.ts`: another module hands rows to a port
without a file and without a job.
-/

import Flowdular.Import.Service

namespace Flowdular.Import

structure ImportWriteRowsInput where
  tenantId : String
  principal : AuthPrincipal
  moduleId : String
  portKey : String
  rows : List ImportRow

structure ImportWriteRequest extends ImportWriteRowsInput where
  mode : ImportMode
  sourceRef : String

structure ImportWriteVerdict where
  row : ℕ
  verdict : Verdict
  field : Option String
  reason : Option String
deriving DecidableEq, Repr

structure ImportWriteResult where
  row : ℕ
  outcome : ImportRowOutcome
  field : Option String
  reason : Option String
  recordRef : Option String
deriving DecidableEq, Repr

/-! ### Screening -/

/-- The refusal of a principal of another workspace. -/
def principalTenantMismatch : ImportServiceError :=
  ⟨"PRINCIPAL_TENANT_MISMATCH", "The principal does not belong to the workspace being written.", 403⟩

/-- The refusal of more rows than a batch has. -/
def batchTooLarge (batchSize : ℕ) : ImportServiceError :=
  ⟨"BATCH_TOO_LARGE", "One call carries at most " ++ toString batchSize ++ " rows.", 400⟩

/-- The refusal of rows that are not numbered. -/
def rowsInvalid : ImportServiceError :=
  ⟨"ROWS_INVALID", "Every row needs a unique positive row number and an object of values.", 400⟩

/-- The loop over the row numbers; `numbers` are those of earlier rows. -/
def checkNumbers : List ℕ → List ImportRow → Except ImportServiceError Unit
  | _, [] => .ok ()
  | numbers, entry :: rows =>
    if 2 ^ 53 ≤ entry.row ∨ entry.row < 1 ∨ entry.row ∈ numbers then .error rowsInvalid
    else checkNumbers (entry.row :: numbers) rows

/-- The loop over the values of a row: what is not blank is kept. -/
def knownValues (fields : List ImportField) (row : ℕ) :
    Values → Values → Except ImportValidation Values
  | [], values => .ok values
  | (id, value) :: entries, values =>
    if id ∉ fields.map (·.id) then .error (refusal row id "FIELD_UNKNOWN")
    else knownValues fields row entries (if value ≠ "" then values ++ [(id, value)] else values)

/-- The loop over the fields of the port. -/
def checkFields [ImportHost] (row : ℕ) (values : Values) :
    List ImportField → Except ImportValidation Unit
  | [] => .ok ()
  | field :: fields =>
    match values.lookup field.id with
    | none =>
      if field.required then .error (refusal row field.id "FIELD_REQUIRED")
      else checkFields row values fields
    | some value =>
      if !shapeOf value field.type then .error (refusal row field.id "FIELD_TYPE")
      else checkFields row values fields

/-- The loop of `screen` on one row. -/
def shapeRow [ImportHost] (fields : List ImportField) (entry : ImportRow) :
    Except ImportValidation ImportRow :=
  match knownValues fields entry.row entry.values [] with
  | .error refused => .error refused
  | .ok values => (checkFields entry.row values fields).map fun _ => ⟨entry.row, values⟩

section Screen

variable {σ : Type}

/-- What `screen` has in hand: the refusals, as they are set, and the rows still pending. -/
structure Screened where
  refused : List ImportValidation
  pending : List ImportRow
deriving DecidableEq, Repr

/-- The loop of `screen` over the keys; `seen` are the keys of earlier rows. -/
def screenKeys (port : ImportPort σ) : List String → List ImportRow → Screened
  | _, [] => ⟨[], []⟩
  | seen, row :: rows =>
    if keyOf port row.values ∈ seen then
      let rest := screenKeys port seen rows
      ⟨⟨row.row, .invalid, port.naturalKey.head?, some "NATURAL_KEY_DUPLICATE"⟩ :: rest.refused,
        rest.pending⟩
    else
      let rest := screenKeys port (keyOf port row.values :: seen) rows
      ⟨rest.refused, row :: rest.pending⟩

/-- The verdicts of the port that are about a row it was offered. -/
def offeredRefusals (offered : List ImportRow) (verdicts : List ImportValidation) :
    List ImportValidation :=
  verdicts.filter fun verdict => verdict.verdict = .invalid ∧ verdict.row ∈ offered.map (·.row)

variable [ImportHost] (port : ImportPort σ) (batchSize : ℕ) (input : ImportWriteRowsInput)

/-- The checks of `screen` on the call as a whole. -/
def checkCall : Except ImportServiceError Unit :=
  if input.principal.tenantId ≠ input.tenantId then .error principalTenantMismatch
  else if port.permission ∉ input.principal.scopes then .error targetForbidden
  else if batchSize < input.rows.length then .error (batchTooLarge batchSize)
  else checkNumbers [] input.rows

/-- The checks of `screen` before any code of the port runs. -/
def screenRows : Screened :=
  let checked := input.rows.map (shapeRow port.fields)
  let keyed := screenKeys port [] (checked.filterMap (·.toOption))
  ⟨checked.filterMap refusedOf ++ keyed.refused, keyed.pending⟩

def screen (s : σ) : Except ImportServiceError (Screened × σ) :=
  (checkCall port batchSize input).map fun _ =>
    let screened := screenRows port input
    if screened.pending = [] then (screened, s)
    else
      let (verdicts, s) := validateRows port ⟨input.tenantId, input.principal, screened.pending⟩ s
      let refused := screened.refused ++ offeredRefusals screened.pending verdicts
      (⟨refused, screened.pending.filter fun row => (latest (·.row) row.row refused).isNone⟩, s)

end Screen

/-! ### The capability -/

def bounded (text : Option String) (max : ℕ) : Option String :=
  truncate text max

def invalid (verdict : ImportValidation) : ImportWriteResult :=
  ⟨verdict.row, .invalid, bounded verdict.field fieldLimit, bounded verdict.reason reasonLimit, none⟩

section Capability

variable {σ : Type}

def resolve (ports : ImportPortRegistry σ) (moduleId portKey : String) :
    Except ImportServiceError (RegisteredImportPort σ) :=
  match ports.find (importTargetId moduleId portKey) with
  | none => .error targetUnknown
  | some registered =>
    if registered.moduleId ≠ moduleId then .error targetUnknown else .ok registered

/-- The verdict of `validate` on an entry. -/
def writeVerdict (refused : List ImportValidation) (entry : ImportRow) : ImportWriteVerdict :=
  match latest (·.row) entry.row refused with
  | none => ⟨entry.row, .valid, none, none⟩
  | some verdict =>
    ⟨(invalid verdict).row, .invalid, (invalid verdict).field, (invalid verdict).reason⟩

/-- The result of `write` on an entry. -/
def writeResult (refused : List ImportValidation) (outcomes : List ImportWriteOutcome)
    (entry : ImportRow) : ImportWriteResult :=
  match latest (·.row) entry.row refused with
  | some verdict => invalid verdict
  | none =>
    match latest (·.row) entry.row outcomes with
    | some written => ⟨entry.row, written.outcome.rowOutcome, none,
        bounded written.reason reasonLimit, bounded written.recordRef recordRefLimit⟩
    | none => ⟨entry.row, .failed, none, bounded (some "PORT_SILENT") reasonLimit, none⟩

variable [ImportHost] (ports : ImportPortRegistry σ) (batchSize : ℕ)

def ImportWriteRowsInput.validate (input : ImportWriteRowsInput) (s : σ) :
    Except ImportServiceError (List ImportWriteVerdict × σ) :=
  match resolve ports input.moduleId input.portKey with
  | .error error => .error error
  | .ok registered => (screen registered.port batchSize input s).map fun (screened, s) =>
      (input.rows.map (writeVerdict screened.refused), s)

/-- The refusal of a source reference. -/
def sourceRefInvalid : ImportServiceError :=
  ⟨"SOURCE_REF_INVALID",
    "The source reference must be 1 to " ++ toString recordRefLimit ++ " characters.", 400⟩

def ImportWriteRequest.write (input : ImportWriteRequest) (s : σ) :
    Except ImportServiceError (List ImportWriteResult × σ) :=
  match resolve ports input.moduleId input.portKey with
  | .error error => .error error
  | .ok registered =>
    if input.sourceRef = "" ∨ recordRefLimit < Workflows.utf16Length input.sourceRef then
      .error sourceRefInvalid
    else
      (screen registered.port batchSize input.toImportWriteRowsInput s).map fun (screened, s) =>
        let (written, s) :=
          if screened.pending = [] then ([], s)
          else writeRows registered.port
            ⟨input.tenantId, input.principal, screened.pending, input.mode⟩ s
        let outcomes := written.filter fun outcome => outcome.row ∈ screened.pending.map (·.row)
        (input.rows.map (writeResult screened.refused outcomes), s)

end Capability

end Flowdular.Import
