/-
# Import ports

`src/modules/import/src/domain/ports.ts`, the checks of `services/port-registry.ts`, and
what both paths of an import ask of a value: its shape (`shapeOf`) and the key it makes of
a row (`keyOf`).

A port is another module's code: it keeps a state of its own and answers a call with
whatever list it likes, or throws.
-/

import Flowdular.Workflows.Text

namespace Flowdular.Import

open Workflows (isDigit isWhiteSpace trimChars utf16Length)

/-! ### Fields and rows -/

inductive ImportFieldType where
  | string
  | integer
  | boolean
  | date
  | email
deriving DecidableEq, Repr

inductive ImportMode where
  | createOnly
  | updateExisting
  | skipExisting
deriving DecidableEq, Repr

structure ImportField where
  id : String
  required : Bool
  type : ImportFieldType
deriving DecidableEq, Repr

/-- `Record<string, string>`, in the order of its entries. -/
abbrev Values :=
  List (String × String)

structure ImportRow where
  row : ℕ
  values : Values
deriving DecidableEq, Repr

/-- The verdicts of an `ImportValidation`. -/
inductive Verdict where
  | valid
  | invalid
deriving DecidableEq, Repr

structure ImportValidation where
  row : ℕ
  verdict : Verdict
  field : Option String
  reason : Option String
deriving DecidableEq, Repr

/-- The outcomes of an `ImportWriteOutcome`. -/
inductive Written where
  | created
  | updated
  | skipped
  | failed
deriving DecidableEq, Repr

structure ImportWriteOutcome where
  row : ℕ
  outcome : Written
  recordRef : Option String
  reason : Option String
deriving DecidableEq, Repr

structure AuthTenantAccess where
  tenantId : String
  name : String
  slug : String
  role : String
deriving DecidableEq, Repr

structure AuthPrincipal where
  accountId : String
  tenantId : String
  email : String
  displayName : String
  role : String
  scopes : List String
  tenants : List AuthTenantAccess
deriving DecidableEq, Repr

structure ImportRequester where
  accountId : String
  email : String
  displayName : String
  role : String
  scopes : List String
deriving DecidableEq, Repr

structure ImportValidateInput where
  tenantId : String
  principal : AuthPrincipal
  rows : List ImportRow

structure ImportWriteInput where
  tenantId : String
  principal : AuthPrincipal
  rows : List ImportRow
  mode : ImportMode

structure ImportServiceError where
  code : String
  message : String
  status : ℕ := 400
deriving DecidableEq, Repr

/-! ### Ports -/

/-- `ImportPort`, as `assertPort` lets it register.  A call changes the state of the
port's module; no answer is a call that throws, and no key one that throws or gives
none. -/
structure ImportPort (σ : Type) where
  key : String
  permission : String
  fields : List ImportField
  naturalKey : List String
  naturalKeyOf : Option (Values → Option String)
  validate : ImportValidateInput → σ → Option (List ImportValidation) × σ
  write : ImportWriteInput → σ → Option (List ImportWriteOutcome) × σ
  nodup_fields : (fields.map (·.id)).Nodup
  naturalKey_ne_nil : naturalKey ≠ []
  naturalKey_subset : ∀ id ∈ naturalKey, id ∈ fields.map (·.id)

def importTargetId (moduleId key : String) : String :=
  moduleId ++ "." ++ key

structure RegisteredImportPort (σ : Type) where
  moduleId : String
  port : ImportPort σ

def RegisteredImportPort.target {σ : Type} (registered : RegisteredImportPort σ) : String :=
  importTargetId registered.moduleId registered.port.key

/-- `ImportPortRegistry`, sealed. -/
abbrev ImportPortRegistry (σ : Type) :=
  List (RegisteredImportPort σ)

def ImportPortRegistry.find {σ : Type} (ports : ImportPortRegistry σ) (target : String) :
    Option (RegisteredImportPort σ) :=
  ports.find? fun registered => registered.target = target

/-! ### The shape of a value -/

/-- The calls into the language's library. -/
class ImportHost where
  /-- `String.prototype.toLowerCase`. -/
  toLowerCase : String → String
  /-- `Number.isFinite(Date.parse(value))`. -/
  dateParses : String → Bool
  /-- `JSON.stringify(columns).length`. -/
  columnsLength : Values → ℕ
  /-- `JSON.stringify(requester).length`. -/
  requesterLength : ImportRequester → ℕ

/-- `INTEGER` and `Number.isSafeInteger`. -/
def isInteger (value : String) : Bool :=
  let digits := if value.toList.head? = some '-' then value.toList.drop 1 else value.toList
  1 ≤ digits.length && digits.length ≤ 15 && digits.all isDigit

/-- The clock time of `DATE`. -/
def isClockTime : List Char → Bool
  | [] => true
  | c :: cs => (c = 'T' || c = ' ') && 1 ≤ cs.length && cs.length ≤ 24 &&
      cs.all fun d => isDigit d || d = ':' || d = '.' || d = '+' || d = '-' || d = 'Z'

/-- `DATE`. -/
def isDate (value : String) : Bool :=
  let cs := value.toList
  10 ≤ cs.length && (cs.take 4).all isDigit && cs[4]? = some '-' &&
    ((cs.drop 5).take 2).all isDigit && cs[7]? = some '-' && ((cs.drop 8).take 2).all isDigit &&
    isClockTime (cs.drop 10)

/-- `[^…]{1,max}`, for what is neither white space nor an `@`. -/
def isPiece (max : ℕ) (cs : List Char) : Bool :=
  1 ≤ utf16Length (String.ofList cs) && utf16Length (String.ofList cs) ≤ max &&
    cs.all fun c => !isWhiteSpace c && c ≠ '@'

/-- `EMAIL`. -/
def isEmail (value : String) : Bool :=
  match value.toList.splitOn '@' with
  | [user, domain] =>
    isPiece 64 user && 2 ≤ (domain.splitOn '.').length && (domain.splitOn '.').all (isPiece 63)
  | _ => false

/-- `BOOLEAN`. -/
def booleans : List String :=
  ["true", "false", "yes", "no", "1", "0"]

def shapeOf [ImportHost] (value : String) : ImportFieldType → Bool
  | .integer => isInteger value
  | .boolean => ImportHost.toLowerCase value ∈ booleans
  | .date => isDate value && ImportHost.dateParses value
  | .email => utf16Length value ≤ 254 && isEmail value
  | .string => true

/-! ### The key of a row -/

def exactKey (key : List String) (values : Values) : String :=
  key.foldl (fun composed field =>
    composed ++ toString (utf16Length ((values.lookup field).getD "")) ++ ":" ++
      (values.lookup field).getD "") ""

/-- The key both paths compare: the port's own, or the exact one. -/
def keyOf {σ : Type} (port : ImportPort σ) (values : Values) : String :=
  (port.naturalKeyOf.bind fun naturalKeyOf => naturalKeyOf values).getD
    (exactKey port.naturalKey values)

/-! ### Texts, cut -/

/-- `IMPORT_LIMITS.field`. -/
def fieldLimit : ℕ :=
  64

/-- `IMPORT_LIMITS.reason`. -/
def reasonLimit : ℕ :=
  200

/-- `IMPORT_LIMITS.recordRef`. -/
def recordRefLimit : ℕ :=
  200

/-- `IMPORT_LIMITS.json`. -/
def jsonLimit : ℕ :=
  8192

/-- `slice(0, max)`, without half a character. -/
def sliceChars : ℕ → List Char → List Char
  | _, [] => []
  | max, c :: cs =>
    let units := utf16Length (String.singleton c)
    if units ≤ max then c :: sliceChars (max - units) cs else []

/-- `truncate`, and `bounded` of `import-write.ts`. -/
def truncate (value : Option String) (max : ℕ) : Option String :=
  value.bind fun value =>
    let normalized := trimChars value.toList
    if normalized = [] then none else some (String.ofList (sliceChars max normalized))

/-! ### The last answer about a row -/

/-- `new Map(entries).get(row)`: of two entries the later one counts. -/
def latest {α : Type} (numberOf : α → ℕ) (row : ℕ) (entries : List α) : Option α :=
  entries.findRev? fun entry => numberOf entry = row

section Latest

variable {α : Type} {numberOf : α → ℕ} {row : ℕ} {entries : List α}

theorem latest_append (later : List α) : latest numberOf row (entries ++ later) =
      (latest numberOf row later).or (latest numberOf row entries) := by
  unfold latest
  rw [List.findRev?_eq_find?_reverse, List.findRev?_eq_find?_reverse,
    List.findRev?_eq_find?_reverse, List.reverse_append, List.find?_append]

theorem latest_cons (entry : α) : latest numberOf row (entry :: entries) =
    (latest numberOf row entries).or (if numberOf entry = row then some entry else none) := by
  rw [← List.singleton_append, latest_append]
  by_cases hr : numberOf entry = row <;> simp [latest, List.findRev?, hr]

theorem latest_eq_none :
    latest numberOf row entries = none ↔ ∀ entry ∈ entries, numberOf entry ≠ row := by
  unfold latest
  rw [List.findRev?_eq_find?_reverse, List.find?_eq_none]
  simp

theorem mem_of_latest {entry : α} (h : latest numberOf row entries = some entry) :
    entry ∈ entries ∧ numberOf entry = row := by
  unfold latest at h
  rw [List.findRev?_eq_find?_reverse] at h
  exact ⟨List.mem_reverse.1 (List.mem_of_find?_eq_some h), by simpa using List.find?_some h⟩

/-- Entries about other rows do not count. -/
theorem latest_filter {P : α → Bool} (h : ∀ entry ∈ entries, numberOf entry = row → P entry = true) :
    latest numberOf row (entries.filter P) = latest numberOf row entries := by
  induction entries with
  | nil => rfl
  | cons entry entries ih =>
    have hr : latest numberOf row (entries.filter P) = latest numberOf row entries :=
      ih fun other ho => h other (List.mem_cons_of_mem _ ho)
    rw [latest_cons, ← hr]
    by_cases hP : P entry = true
    · rw [List.filter_cons_of_pos hP, latest_cons]
    · have hrow : numberOf entry ≠ row := fun hrow => hP (h entry List.mem_cons_self hrow)
      rw [List.filter_cons_of_neg hP, if_neg hrow, Option.or_none]

end Latest

end Flowdular.Import
