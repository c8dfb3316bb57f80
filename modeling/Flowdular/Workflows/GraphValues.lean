/-
# Values that flow through a graph

`src/modules/workflows/src/domain/graph.ts`, lines 1387-1704: the check of a value
against a schema, reading and writing it by JSON pointers, the mappings that build
a node's input from earlier outputs, and the gates that route on it.

An error the source throws is `Except.error` with its stable code.  A value the
source leaves `undefined` is `none`.
-/

import Flowdular.Workflows.Text
import Flowdular.Workflows.Types

namespace Flowdular.Workflows

open Json (canonical)

/-! ### Schemas -/

structure JsonValidationError where
  path : String
  code : String
deriving DecidableEq

def Decimal.isSafeInteger (d : Decimal) : Bool :=
  0 ≤ d.exponent && |d.toRat| ≤ 9007199254740991

def matchesType (value : Json) (expected : Json) : Bool :=
  match expected, value with
  | .str "null", .null => true
  | .str "string", .str _ => true
  | .str "number", .num _ => true
  | .str "integer", .num n => n.isSafeInteger
  | .str "boolean", .bool _ => true
  | .str "array", .arr _ => true
  | .str "object", .obj _ => true
  | _, _ => false

example {text : String} : matchesType (.str text) (.str "string") = true := by
  rw [matchesType]

/-- Whether a value has the type a schema asks for. -/
def matchesSchemaType (value : Json) (schema : JsonSchema) : Bool :=
  match schema.lookup "type" with
  | none => true
  | some (.arr types) => types.any (matchesType value)
  | some type => matchesType value type

variable [Host]

/-- The `enum` and `const` errors of a value. -/
def constantErrors (value : Json) (schema : JsonSchema) (path : String) :
    List JsonValidationError :=
  (match schema.lookup "enum" with
    | some (.arr entries) =>
      if entries.any fun entry => canonical entry = canonical value then [] else [⟨path, "enum"⟩]
    | _ => []) ++
  match schema.lookup "const" with
  | some constant => if canonical constant ≠ canonical value then [⟨path, "const"⟩] else []
  | none => []

/-- The errors of a string's length or a number's size. -/
def boundErrors (value : Json) (schema : JsonSchema) (path : String) : List JsonValidationError :=
  let check (quantity : ℚ) (least most : String) : List JsonValidationError :=
    (match schema.lookup least with
      | some (.num bound) => if quantity < bound.toRat then [⟨path, least⟩] else []
      | _ => []) ++
    match schema.lookup most with
    | some (.num bound) => if bound.toRat < quantity then [⟨path, most⟩] else []
    | _ => []
  match value with
  | .str s => check (utf16Length s) "minLength" "maxLength"
  | .num n => check n.toRat "minimum" "maximum"
  | _ => []

/-- The names `required` lists, each once. -/
def requiredNames (schema : JsonSchema) : List String :=
  match schema.lookup "required" with
  | some (.arr entries) =>
    (entries.filterMap fun entry =>
      match entry with
      | .str name => some name
      | _ => none).reverse.dedup.reverse
  | _ => []

/-- The schema of one entry of an object: that of `properties`, or that of
`additionalProperties`. -/
inductive EntrySchema where
  | schema (schema : JsonSchema)
  | forbidden
  | unchecked

/-- The schema an object's entry is checked against. -/
def entrySchema (schema : JsonSchema) (name : String) : EntrySchema :=
  let declared :=
    match schema.lookup "properties" with
    | some (.obj properties) => properties.lookup name
    | _ => none
  match declared with
  | some (.obj child) => .schema child
  | _ =>
    match schema.lookup "additionalProperties" with
    | some (.obj child) => .schema child
    | some (.bool false) => .forbidden
    | _ => .unchecked

mutual

def validateJsonSchema : Json → JsonSchema → String → List JsonValidationError
  | value, schema, path =>
    if !matchesSchemaType value schema then [⟨path, "type"⟩]
    else
      let errors := constantErrors value schema path ++ boundErrors value schema path
      let below :=
        match value with
        | .arr items =>
          match schema.lookup "items" with
          | some (.obj itemSchema) => validateItems items itemSchema path 0
          | _ => []
        | .obj fields =>
          ((requiredNames schema).filter fun name => (fields.lookup name).isNone).map
              (fun name => ⟨path ++ "/" ++ name, "required"⟩) ++
            validateEntries fields schema path
        | _ => []
      (errors ++ below).take 100

/-- The errors of the items of an array, from an index on. -/
def validateItems : List Json → JsonSchema → String → ℕ → List JsonValidationError
  | [], _, _, _ => []
  | item :: items, schema, path, index =>
    validateJsonSchema item schema (path ++ "/" ++ toString index) ++
      validateItems items schema path (index + 1)

/-- The errors of the entries of an object. -/
def validateEntries : List (String × Json) → JsonSchema → String → List JsonValidationError
  | [], _, _ => []
  | (name, entry) :: fields, schema, path =>
    (match entrySchema schema name with
      | .schema child => validateJsonSchema entry child (path ++ "/" ++ name)
      | .forbidden => [⟨path ++ "/" ++ name, "additionalProperties"⟩]
      | .unchecked => []) ++
    validateEntries fields schema path

end

/-! ### Pointers -/

/-- One step of `readJsonPointer`. -/
def Json.child? (value : Json) (key : String) : Option Json :=
  match value with
  | .arr items => if isArrayIndex key then key.toNat?.bind fun index => items[index]? else none
  | .obj fields => fields.lookup key
  | _ => none

def readJsonPointer (value : Json) (pointer : String) : Option Json :=
  if pointer = "" then some value
  else if !validPointer pointer then none
  else (pointerSegments pointer).foldl (fun current key => current.bind (·.child? key)) (some value)

/-- Whether a key is an array index, which objects list before other keys. -/
def indexKey? (key : String) : Option ℕ :=
  if isArrayIndex key then key.toNat?.filter (· < 4294967295) else none

/-- Where a new key goes among the entries of an object. -/
def insertEntry (key : String) (value : Json) : List (String × Json) → List (String × Json)
  | [] => [(key, value)]
  | (k, v) :: fields =>
    match indexKey? key, indexKey? k with
    | some i, some j =>
      if i < j then (key, value) :: (k, v) :: fields else (k, v) :: insertEntry key value fields
    | some _, none => (key, value) :: (k, v) :: fields
    | none, _ => (k, v) :: insertEntry key value fields

example {key : String} {value : Json} : insertEntry key value [] = [(key, value)] := by
  rw [insertEntry]

/-- `target[key] = value`. -/
def setEntry (fields : List (String × Json)) (key : String) (value : Json) :
    List (String × Json) :=
  if (fields.lookup key).isSome then fields.map fun (k, v) => if k = key then (k, value) else (k, v)
  else insertEntry key value fields

/-- Write a value below an object, making every object on the way. -/
def writeSegments (fields : List (String × Json)) (value : Json) :
    List String → List (String × Json)
  | [] => fields
  | [last] => setEntry fields last value
  | part :: parts =>
    let inner :=
      match fields.lookup part with
      | some (.obj inner) => inner
      | _ => []
    setEntry fields part (.obj (writeSegments inner value parts))

def writeJsonPointer (target : List (String × Json)) (pointer : String) (value : Json) :
    Except String (List (String × Json)) :=
  if !writableTargetPointer pointer then .error "WORKFLOW_MAPPING_TARGET_INVALID"
  else if pointer = "" then
    match value with
    | .obj fields => .ok fields
    | _ => .error "WORKFLOW_MAPPING_TARGET_INVALID"
  else .ok (writeSegments target value (pointerSegments pointer))

/-! ### Mappings -/

/-- The outputs mappings read, by the key `node:port`. -/
abbrev MappingOutputs := String → Option Json

/-- What a mapping source denotes: the value at a pointer of an output, or
nothing; an output that is not there is an error. -/
def readSource (outputs : MappingOutputs) (source : MappingSource) :
    Except String (Option Json) :=
  match outputs (source.sourceNodeId ++ ":" ++ source.sourcePort) with
  | none => .error "WORKFLOW_MAPPING_SOURCE_INVALID"
  | some value => .ok (readJsonPointer value source.pointer)

/-- The text of a template variable; arrays, objects and missing values have
none. -/
def variableText : Option Json → Except String String
  | some .null => .ok ""
  | some (.bool b) => .ok (if b then "true" else "false")
  | some (.num n) => .ok n.text
  | some (.str s) => .ok s
  | _ => .error "WORKFLOW_MAPPING_SOURCE_INVALID"

/-- The texts of the variables of a template, in order. -/
def readVariables (outputs : MappingOutputs) :
    List (String × MappingSource) → Except String (List (String × String))
  | [] => .ok []
  | (name, source) :: vars => do
    let text ← variableText (← readSource outputs source)
    let rest ← readVariables outputs vars
    return (name, text) :: rest

/-- The characters of a variable name after its first. -/
def isVariableChar (c : Char) : Bool :=
  isLowerLetter c || isDigit c || c = '.' || c = '-'

/-- The name of the token (a name in double braces) a text starts with, and the
text behind it. -/
def matchToken (cs : List Char) : Option (String × List Char) :=
  let brace := Char.ofNat 0x7b
  let close := Char.ofNat 0x7d
  match cs with
  | a :: b :: rest =>
    if a = brace ∧ b = brace then
      let rest := rest.dropWhile isWhiteSpace
      let name := rest.takeWhile isVariableChar
      match name, (rest.dropWhile isVariableChar).dropWhile isWhiteSpace with
      | c :: _, x :: y :: rest =>
        if isLowerLetter c ∧ x = close ∧ y = close then some (String.ofList name, rest) else none
      | _, _ => none
    else none
  | _ => none

/-- `template.replace(/…/g, …)` with one unit of fuel for each character. -/
def replaceTokens (vars : List (String × String)) : ℕ → List Char → Except String (List Char)
  | 0, _ => .ok []
  | _ + 1, [] => .ok []
  | n + 1, c :: cs =>
    match matchToken (c :: cs) with
    | some (name, rest) =>
      -- a variable listed twice has its last text
      match vars.reverse.lookup name with
      | none => .error "WORKFLOW_TEMPLATE_VARIABLE_MISSING"
      | some text => do return text.toList ++ (← replaceTokens vars n rest)
    | none => do return c :: (← replaceTokens vars n cs)

/-- The value a binding produces. -/
def bindingValue (outputs : MappingOutputs) : WorkflowBinding → Except String Json
  | .literal value => .ok value
  | .path source => do
    match ← readSource outputs source with
    | some value => return value
    | none => .error "WORKFLOW_MAPPING_SOURCE_INVALID"
  | .template template vars => do
    let texts ← readVariables outputs vars
    return .str (String.ofList (← replaceTokens texts (template.length + 1) template.toList))

/-- The loop of `applyWorkflowMappings`. -/
def applyMappings (outputs : MappingOutputs) :
    List WorkflowTargetMapping → List (String × Json) → Except String (List (String × Json))
  | [], target => .ok target
  | mapping :: mappings, target => do
    let value ← bindingValue outputs mapping.binding
    applyMappings outputs mappings (← writeJsonPointer target mapping.targetPointer value)

def applyWorkflowMappings (input : Json) (mappings : List WorkflowTargetMapping)
    (outputs : MappingOutputs) : Except String Json :=
  if mappings.isEmpty then .ok input
  else (applyMappings outputs mappings []).map .obj

/-! ### Gates -/

/-- `required`. -/
def gateRequired : Option Json → Except String Json
  | some value => .ok value
  | none => .error "WORKFLOW_GATE_PATH_MISSING"

/-- `boolean`. -/
def gateBoolean (value : Option Json) : Except String Bool := do
  match ← gateRequired value with
  | .bool b => return b
  | _ => .error "WORKFLOW_GATE_TYPE_MISMATCH"

/-- The comparison an operator stands for. -/
def OrderOp.holds (op : OrderOp) (left right : ℚ) : Bool :=
  match op with
  | .gt => right < left
  | .gte => right ≤ left
  | .lt => left < right
  | .lte => left ≤ right

mutual

/-- `evaluate`. -/
def gateValue (input : Json) : WorkflowGateExpression → Except String (Option Json)
  | .literal value => .ok (some value)
  | .path pointer => .ok (readJsonPointer input pointer)
  | .exists value => do return some (.bool (← gateValue input value).isSome)
  | .not value => do return some (.bool !(← gateBoolean (← gateValue input value)))
  | .and values => do return some (.bool (← gateEvery input values))
  | .or values => do return some (.bool (← gateSome input values))
  | .eq left right => do
    let left ← gateRequired (← gateValue input left)
    let right ← gateRequired (← gateValue input right)
    return some (.bool (canonical left = canonical right))
  | .order op left right => do
    match ← gateValue input left, ← gateValue input right with
    | some (.num left), some (.num right) => return some (.bool (op.holds left.toRat right.toRat))
    | _, _ => .error "WORKFLOW_GATE_TYPE_MISMATCH"
  | .in left right => do
    let right ← gateRequired (← gateValue input right)
    let left ← gateRequired (← gateValue input left)
    match right with
    | .arr items => return some (.bool (items.any fun item => canonical item = canonical left))
    | _ => .error "WORKFLOW_GATE_TYPE_MISMATCH"
  | .unsupported => .ok none

/-- `values.every`. -/
def gateEvery (input : Json) : List WorkflowGateExpression → Except String Bool
  | [] => .ok true
  | value :: values => do
    if ← gateBoolean (← gateValue input value) then gateEvery input values else return false

/-- `values.some`. -/
def gateSome (input : Json) : List WorkflowGateExpression → Except String Bool
  | [] => .ok false
  | value :: values => do
    if ← gateBoolean (← gateValue input value) then return true else gateSome input values

end

def evaluateGate (expression : WorkflowGateExpression) (input : Json) : Except String Bool := do
  match ← gateValue input expression with
  | some (.bool b) => return b
  | _ => .error "WORKFLOW_GATE_RESULT_INVALID"

end Flowdular.Workflows
