/-
# Security checks on the schemas of a graph

`src/modules/workflows/src/domain/graph-security.ts`: which schema values would
disclose a secret (lines 59-237), which paths of a schema may be read by a mapping
(lines 303-431) and which may be written (lines 433-567).

A bound on the depth (`depth > 24`) is fuel that starts at 25, so the functions
recurse on it.  An object of a schema is identified by its position, the keys and
indices that lead to it from the root, where the source compares references.
-/

import Flowdular.Workflows.Text
import Flowdular.Workflows.Types

namespace Flowdular.Workflows

/-- The fuel of a function that gives up when `depth > 24`. -/
def schemaDepth : ℕ := 25

/-- The members every object inherits from `Object.prototype`. -/
def objectPrototypeNames : List String :=
  ["constructor", "__defineGetter__", "__defineSetter__", "hasOwnProperty", "__lookupGetter__",
    "__lookupSetter__", "isPrototypeOf", "propertyIsEnumerable", "toString", "valueOf",
    "__proto__", "toLocaleString"]

/-- What `graph.schemas[id]` finds: an own entry, `Object.prototype` itself, one of
its members (a function), or nothing. -/
inductive SchemaLookup where
  | own (schema : JsonSchema)
  | prototype
  | member
  | absent

/-- `graph.schemas[id]`. -/
def WorkflowGraph.schemaLookup (graph : WorkflowGraph) (id : String) : SchemaLookup :=
  match graph.schemas.lookup id with
  | some schema => .own schema
  | none =>
    if id = "__proto__" then .prototype
    else if id ∈ objectPrototypeNames then .member
    else .absent

/-- Whether the lookup is truthy. -/
def SchemaLookup.isTruthy : SchemaLookup → Bool
  | .absent => false
  | _ => true

/-- The lookup as a record: `Object.prototype` is one without own entries, a
function is none. -/
def SchemaLookup.record? : SchemaLookup → Option JsonSchema
  | .own schema => some schema
  | .prototype => some []
  | _ => none

/-- Whether a schema holds a keyword. -/
def hasKeyword (schema : JsonSchema) (keyword : String) : Bool :=
  (schema.lookup keyword).isSome

def markedSecret (schema : JsonSchema) : Bool :=
  schema.lookup "writeOnly" = some (.bool true) ||
    schema.lookup "x-flowdular-secret" = some (.bool true)

/-- `SCHEMA_VALUE_KEYS`. -/
def schemaValueKeys : List String :=
  ["default", "const", "enum", "example", "examples"]

/-- `SCHEMA_MAP_KEYS`. -/
def schemaMapKeys : List String :=
  ["properties", "patternProperties", "$defs", "definitions", "dependentSchemas"]

/-! ### Values that would disclose a secret -/

/-- A position in a schema: the keys and indices from the root. -/
abbrev SchemaPosition := List String

/-- The JSON pointer to a position. -/
def SchemaPosition.pointer (position : SchemaPosition) : String :=
  String.join (position.map fun key => "/" ++ pointerPart key)

/-- `localSchemaReference`: the value a reference `#/…` points at, and where. -/
def localSchemaReference (root : Json) (reference : Option Json) :
    Option (SchemaPosition × Json) :=
  match reference with
  | some (.str text) =>
    if text.toList.take 2 = ['#', '/'] then
      ((text.toList.drop 2).splitOn '/').foldl (fun current encoded =>
          match current with
          | some (position, .obj fields) =>
            if strayTilde encoded then none
            else (fields.lookup (decodeSegment encoded)).map (position ++ [decodeSegment encoded], ·)
          | _ => none)
        (some ([], root))
    else none
  | _ => none

/-- `values.some(test)` where the test adds to a set of seen positions. -/
def someSeen {α : Type} (test : α → List SchemaPosition → Bool × List SchemaPosition) :
    List α → List SchemaPosition → Bool × List SchemaPosition
  | [], seen => (false, seen)
  | value :: values, seen =>
    match test value seen with
    | (true, seen) => (true, seen)
    | (false, seen) => someSeen test values seen

/-- `referencedSchemaIsRestricted`: whether a schema value or one its references
lead to is secret, dynamic, recursive or too deep.  Returns the positions seen. -/
def referencedSchemaIsRestricted (root : Json) :
    ℕ → SchemaPosition → Json → List SchemaPosition → Bool × List SchemaPosition
  | 0, _, _, seen => (true, seen)
  | n + 1, position, .arr items, seen =>
    someSeen
      (fun (index, child) => referencedSchemaIsRestricted root n (position ++ [toString index]) child)
      (items.zipIdx.map fun (child, index) => (index, child)) seen
  | n + 1, position, .obj fields, seen =>
    if position ∈ seen then (true, seen)
    else
      let seen := seen ++ [position]
      if markedSecret fields || hasKeyword fields "$dynamicRef" || hasKeyword fields "$recursiveRef"
      then (true, seen)
      else
        let target :=
          if hasKeyword fields "$ref" then
            match localSchemaReference root (fields.lookup "$ref") with
            | some (position, .obj target) =>
              referencedSchemaIsRestricted root n position (.obj target) seen
            | _ => (true, seen)
          else (false, seen)
        if target.1 then target
        else
          someSeen (fun (key, child) => referencedSchemaIsRestricted root n (position ++ [key]) child)
            (fields.filter fun (key, _) => key ∉ schemaValueKeys && key ≠ "$ref") target.2
  | _ + 1, _, _, seen => (false, seen)

/-- What `projectSchemaValue` finds in a value: whether it holds a secret, and the
positions of the data keywords it would drop for that. -/
structure SchemaProjection where
  containsSecret : Bool := false
  diagnostics : List SchemaPosition := []

/-- Two projections, one after the other. -/
def SchemaProjection.append (a b : SchemaProjection) : SchemaProjection :=
  { containsSecret := a.containsSecret || b.containsSecret
    diagnostics := a.diagnostics ++ b.diagnostics }

/-- The projections of a list of values, one after the other. -/
def projectAll {α : Type} (project : α → SchemaProjection) (values : List α) : SchemaProjection :=
  values.foldl (fun found value => found.append (project value)) {}

def projectSchemaValue (root : Json) : ℕ → SchemaPosition → Json → SchemaProjection
  | 0, position, _ => { containsSecret := true, diagnostics := [position] }
  | n + 1, position, .obj fields =>
    let own : SchemaProjection :=
      { containsSecret := markedSecret fields ||
          (["$ref", "$dynamicRef", "$recursiveRef"].any (hasKeyword fields) &&
            (referencedSchemaIsRestricted root schemaDepth position (.obj fields) []).1) }
    let found := own.append <| projectAll (fun (key, child) =>
        let position := position ++ [key]
        match child with
        | .obj entries =>
          if key ∈ schemaMapKeys then
            projectAll (fun (name, nested) => projectSchemaValue root n (position ++ [name]) nested)
              entries
          else projectSchemaValue root n position child
        | .arr items =>
          projectAll
            (fun (nested, index) => projectSchemaValue root n (position ++ [toString index]) nested)
            items.zipIdx
        | _ => {})
      (fields.filter fun (key, _) => key ∉ schemaValueKeys)
    { found with
      diagnostics := found.diagnostics ++ if found.containsSecret then
          (fields.filter fun (key, _) => key ∈ schemaValueKeys).map fun (key, _) => position ++ [key]
        else [] }
  | _ + 1, _, _ => {}

inductive WorkflowGraphDiagnostic where
  | actionSecretBinding (nodeId targetPointer : String)
  | actionSchemaUnavailable (nodeId targetPointer : String)
  | mappingTargetUnsafe (nodeId targetPointer : String)
  | secretSchemaValue (schemaId path : String)
deriving DecidableEq

/-- The code of a diagnostic. -/
def WorkflowGraphDiagnostic.code : WorkflowGraphDiagnostic → String
  | .actionSecretBinding .. => "WORKFLOW_ACTION_SECRET_BINDING"
  | .actionSchemaUnavailable .. => "WORKFLOW_ACTION_SCHEMA_UNAVAILABLE"
  | .mappingTargetUnsafe .. => "WORKFLOW_MAPPING_TARGET_UNSAFE"
  | .secretSchemaValue .. => "WORKFLOW_SECRET_SCHEMA_VALUE"

def secretSchemaValueDiagnostics (graph : WorkflowGraph) : List WorkflowGraphDiagnostic :=
  graph.schemas.flatMap fun (schemaId, schema) =>
    (projectSchemaValue (.obj schema) schemaDepth [] (.obj schema)).diagnostics.map fun position =>
      .secretSchemaValue schemaId (SchemaPosition.pointer position)

/-! ### Paths a mapping may read -/

def descendantSecret : ℕ → Json → Bool
  | 0, _ => true
  | n + 1, .arr items => items.any (descendantSecret n)
  | n + 1, .obj fields => markedSecret fields || fields.any fun (_, child) => descendantSecret n child
  | _ + 1, _ => false

/-- The keywords that make a schema opaque wherever they stand. -/
def opaqueKeywords : List String :=
  ["$ref", "$dynamicRef", "$recursiveRef", "oneOf", "anyOf", "allOf", "not", "if", "then", "else",
    "patternProperties", "unevaluatedProperties", "unevaluatedItems", "contains", "prefixItems",
    "additionalItems", "propertyNames", "contentSchema", "$defs", "definitions", "dependentSchemas"]

def opaqueSchema : ℕ → Json → Bool
  | 0, _ => true
  | n + 1, .obj fields =>
    opaqueKeywords.any (hasKeyword fields) ||
      fields.lookup "additionalProperties" = some (.bool true) ||
      (match fields.lookup "properties" with
        | some (.obj properties) => properties.any fun (_, child) => opaqueSchema n child
        | _ => false) ||
      ["items", "additionalProperties"].any fun key =>
        match fields.lookup key with
        | none | some (.bool _) => false
        | some child => opaqueSchema n child
  | _ + 1, _ => true

def protectedSource (schema : JsonSchema) : Bool :=
  markedSecret schema || hasKeyword schema "x-flowdular-read-permission"

/-- The keywords of `ambiguousSourceSchema`. -/
def ambiguousKeywords : List String :=
  ["$ref", "$dynamicRef", "$recursiveRef", "oneOf", "anyOf", "allOf", "not", "if", "then", "else",
    "patternProperties", "unevaluatedProperties", "unevaluatedItems", "contains", "prefixItems",
    "additionalItems", "propertyNames", "contentSchema", "dependentSchemas"]

def ambiguousSourceSchema (schema : JsonSchema) : Bool :=
  ambiguousKeywords.any (hasKeyword schema)

/-- `pointerSchemaChild`: the schema of one segment of a pointer. -/
def pointerSchemaChild (schema : JsonSchema) (key : String) : Option Json :=
  if schema.lookup "type" = some (.str "object") then
    match schema.lookup "properties" with
    | some (.obj properties) =>
      match properties.lookup key with
      | some child => some child
      | none => schema.lookup "additionalProperties"
    | _ => schema.lookup "additionalProperties"
  else if schema.lookup "type" = some (.str "array") ∧ isArrayIndex key then schema.lookup "items"
  else none

/-- `sourceSubtreeSafe`; `none` is an absent schema. -/
def sourceSubtreeSafe : ℕ → Option Json → Bool
  | 0, _ => false
  | n + 1, some (.obj fields) =>
    if protectedSource fields || ambiguousSourceSchema fields then false
    else
      match fields.lookup "type" with
      | some (.str kind) =>
        if kind ∈ ["string", "number", "integer", "boolean", "null"] then true
        else if kind = "array" then sourceSubtreeSafe n (fields.lookup "items")
        else if kind = "object" then
          (match fields.lookup "properties" with
            | some (.obj properties) =>
              properties.all fun (_, child) => sourceSubtreeSafe n (some child)
            | _ => true) &&
            (fields.lookup "additionalProperties" = some (.bool false) ||
              sourceSubtreeSafe n (fields.lookup "additionalProperties"))
        else false
      | _ => false
  | _ + 1, _ => false

/-- Follow the segments of a pointer while the schemas on the way are neither
protected nor ambiguous. -/
def followSource : JsonSchema → List String → Option JsonSchema
  | schema, [] => some schema
  | schema, segment :: segments =>
    if protectedSource schema || ambiguousSourceSchema schema then none
    else
      match pointerSchemaChild schema segment with
      | some (.obj child) => followSource child segments
      | _ => none

def sourcePointerIsSafe (schema : Option JsonSchema) (pointer : String) : Bool :=
  match schema with
  | none => false
  | some schema =>
    if validPointer pointer then
      match followSource schema (if pointer = "" then [] else pointerSegments pointer) with
      | some selected => sourceSubtreeSafe schemaDepth (some (.obj selected))
      | none => false
    else false

def sourcePointerIsObject (schema : Option JsonSchema) (pointer : String) : Bool :=
  sourcePointerIsSafe schema pointer && match schema with
    | none => false
    | some schema =>
      match followSource schema (if pointer = "" then [] else pointerSegments pointer) with
      | some selected => selected.lookup "type" = some (.str "object")
      | none => false

/-! ### Paths a mapping may write -/

/-- What is known of writing a path of an action input. -/
inductive BindingSafety where
  | safe
  | secret
  | unknown
deriving DecidableEq

/-- The loop of `bindingSafety`. -/
def bindingSafetyOf : JsonSchema → List String → BindingSafety
  | schema, [] =>
    if descendantSecret schemaDepth (.obj schema) then .secret
    else if opaqueSchema schemaDepth (.obj schema) then .unknown
    else .safe
  | schema, segment :: segments =>
    if markedSecret schema then .secret
    else
      let blocked : BindingSafety :=
        if descendantSecret schemaDepth (.obj schema) then .secret else .unknown
      if ambiguousSourceSchema schema then blocked
      else
        match pointerSchemaChild schema segment with
        | some (.obj child) => bindingSafetyOf child segments
        | _ => blocked

def bindingSafety (schema : Option JsonSchema) (pointer : String) : BindingSafety :=
  match schema with
  | none => .unknown
  | some schema =>
    if pointer = "" then bindingSafetyOf schema []
    else if pointer.toList.head? = some '/' then bindingSafetyOf schema (pointerSegments pointer)
    else .unknown

/-- The input schema an action descriptor declares. -/
abbrev WorkflowActionInputSchema := String → ℕ → Option JsonSchema

/-- The schema of a port id that may be absent or empty. -/
def WorkflowGraph.portSchema (graph : WorkflowGraph) (id : Option String) : Option JsonSchema :=
  match id with
  | some id => if id = "" then none else (graph.schemaLookup id).record?
  | none => none

/-- The schema id of the input port called `input`. -/
def WorkflowNode.inputSchemaId (node : WorkflowNode) : Option String :=
  (node.inputPorts.find? (·.name = "input")).map (·.schemaId)

/-- `diagnostic`. -/
def bindingDiagnostic (graph : WorkflowGraph) (node : WorkflowNode) (action : ActionReference)
    (mapping : WorkflowTargetMapping) (lookup : WorkflowActionInputSchema) :
    Option WorkflowGraphDiagnostic :=
  let descriptorSafety :=
    bindingSafety (lookup action.actionId action.contractVersion) mapping.targetPointer
  let snapshotSafety := bindingSafety (graph.portSchema node.inputSchemaId) mapping.targetPointer
  if snapshotSafety = .secret ∨ descriptorSafety = .secret then
    some (.actionSecretBinding node.id mapping.targetPointer)
  else if snapshotSafety = .safe ∧ descriptorSafety = .safe then none
  else some (.actionSchemaUnavailable node.id mapping.targetPointer)

def actionBindingDiagnostics (graph : WorkflowGraph) (lookup : WorkflowActionInputSchema) :
    List WorkflowGraphDiagnostic :=
  graph.nodes.flatMap fun node =>
    match node.action? with
    | none => []
    | some action => node.mappings.filterMap (bindingDiagnostic graph node action · lookup)

/-- The loop of `mappingTargetUnsafe`. -/
def mappingTargetUnsafeOf : JsonSchema → List String → Bool
  | schema, [] =>
    markedSecret schema || ambiguousSourceSchema schema || descendantSecret schemaDepth (.obj schema)
  | schema, segment :: segments =>
    if markedSecret schema || ambiguousSourceSchema schema then true
    else
      match pointerSchemaChild schema segment with
      | some (.obj child) => mappingTargetUnsafeOf child segments
      | _ =>
        schema.lookup "type" ≠ some (.str "object") && schema.lookup "type" ≠ some (.str "array") &&
          descendantSecret schemaDepth (.obj schema)

def mappingTargetUnsafe (schema : Option JsonSchema) (pointer : String) : Bool :=
  match schema with
  | none => true
  | some schema =>
    if pointer = "" then mappingTargetUnsafeOf schema []
    else if pointer.toList.head? = some '/' then
      mappingTargetUnsafeOf schema (pointerSegments pointer)
    else true

def mappingTargetDiagnostics (graph : WorkflowGraph) : List WorkflowGraphDiagnostic :=
  graph.nodes.flatMap fun node =>
    if node.action?.isSome then []
    else
      let ports := if node.isInput then node.outputPorts else node.inputPorts
      let schema := graph.portSchema (ports.head?.map (·.schemaId))
      (node.mappings.filter fun mapping => mappingTargetUnsafe schema mapping.targetPointer).map
        fun mapping => .mappingTargetUnsafe node.id mapping.targetPointer

end Flowdular.Workflows
