/-
# The input of a document template

`src/modules/documents/src/domain/template-schema.ts`, lines 1-297, and
`DOCUMENT_TEMPLATE_LIMITS` of `templates.ts`, lines 31-56.

A schema is of the subset the type allows: titles, descriptions and keywords
outside the subset, which the code reads off an unknown value, have no place in
it.  An input is a JSON value, which the render endpoint makes of whatever a
caller hands over before it is checked.
-/

import Flowdular.Workflows.GraphValues

namespace Flowdular.Documents

open Workflows (Json Decimal utf16Length)

/-- `DOCUMENT_TEMPLATE_LIMITS`, as far as the checks and the evaluation read it. -/
structure TemplateLimits where
  repeatedRows : ℕ := 2000
  printedCharacters : ℕ := 1000000
  stringCharacters : ℕ := 10000
  arrayItems : ℕ := 2000
  schemaDepth : ℕ := 4
  schemaProperties : ℕ := 64
  inputIssues : ℕ := 20

/-- The limits as the source sets them. -/
def documentTemplateLimits : TemplateLimits := {}

/-! ### Schemas -/

inductive TemplateInputSchema where
  | object (properties : List (String × TemplateInputSchema)) (required : List String)
  | array (items : TemplateInputSchema)
  | string (maxLength : Option ℕ) (enum : Option (List String))
  | number
  | integer
  | boolean

/-- The `type` of a schema. -/
def TemplateInputSchema.type : TemplateInputSchema → String
  | .object .. => "object"
  | .array _ => "array"
  | .string .. => "string"
  | .number => "number"
  | .integer => "integer"
  | .boolean => "boolean"

/-- `PROPERTY`: `[A-Za-z_][A-Za-z0-9_]*`. -/
def isProperty (name : String) : Bool :=
  let start (c : Char) := c.isAlpha || c = '_'
  match name.toList with
  | [] => false
  | c :: cs => start c && cs.all fun c => start c || c.isDigit

/-- How a message names the place of a schema. -/
def schemaPlace (path : String) : String :=
  if path = "" then "the root" else path

/-- The path of a property. -/
def childPath (path name : String) : String :=
  if path = "" then name else path ++ "." ++ name

mutual

/-- `schemaProblem`: why a schema is none of the subset. -/
def schemaProblem : TemplateInputSchema → String → ℕ → Bool → Option String
  | schema, path, depth, inArray =>
    if documentTemplateLimits.schemaDepth < depth then
      some ("The schema nests deeper than " ++ toString documentTemplateLimits.schemaDepth ++
        " levels at " ++ schemaPlace path ++ ".")
    else
      match schema with
      | .object properties required =>
        if documentTemplateLimits.schemaProperties < properties.length then
          some ("The object at " ++ schemaPlace path ++ " declares more than " ++
            toString documentTemplateLimits.schemaProperties ++ " properties.")
        else
          match propertiesProblem properties path depth with
          | some problem => some problem
          | none =>
            if required.all fun entry => (properties.lookup entry).isSome then none
            else some ("required at " ++ schemaPlace path ++ " must list declared properties.")
      | .array items =>
        if inArray then some ("An array at " ++ schemaPlace path ++ " may not hold arrays.")
        else if items.type = "array" then
          some ("The array at " ++ schemaPlace path ++
            " must declare items of an object or a scalar.")
        else schemaProblem items (path ++ "[]") (depth + 1) true
      | .string maxLength enum =>
        if maxLength.any fun n => n < 1 || documentTemplateLimits.stringCharacters < n then
          some ("maxLength at " ++ schemaPlace path ++ " must be a whole number from 1 to " ++
            toString documentTemplateLimits.stringCharacters ++ ".")
        else if enum = some [] then
          some ("enum at " ++ schemaPlace path ++ " must list text values.")
        else none
      | .number | .integer | .boolean => none

/-- The loop of `schemaProblem` over the properties of an object. -/
def propertiesProblem : List (String × TemplateInputSchema) → String → ℕ → Option String
  | [], _, _ => none
  | (name, child) :: properties, path, depth =>
    if ¬ isProperty name then
      some ("The property name \"" ++ String.ofList (name.toList.take 64) ++ "\" at " ++
        schemaPlace path ++ " is not an identifier.")
    else
      match schemaProblem child (childPath path name) (depth + 1) false with
      | some problem => some problem
      | none => propertiesProblem properties path depth

end

def templateSchemaProblem (schema : TemplateInputSchema) : Option String :=
  if schema.type = "object" then schemaProblem schema "" 1 false
  else some "The input schema must be an object schema at its root."

/-! ### Inputs -/

/-- The codes of `TemplateInputIssue`. -/
inductive InputIssueCode where
  | required
  | type
  | maxLength
  | enum
  | tooManyItems
deriving DecidableEq

structure TemplateInputIssue where
  path : String
  code : InputIssueCode
  message : String
deriving DecidableEq

/-- `label`. -/
def inputLabel (path : String) : String :=
  if path = "" then "The input" else path

/-- An issue of a value of the wrong type. -/
def typeIssue (path expected : String) : TemplateInputIssue :=
  { path, code := .type, message := inputLabel path ++ " must be " ++ expected ++ "." }

/-- The required properties an object lacks. -/
def requiredIssues (required : List String) (fields : List (String × Json)) (path : String) :
    List TemplateInputIssue :=
  required.flatMap fun name =>
    match fields.lookup name with
    | none | some .null =>
      [{ path := childPath path name, code := .required,
         message := childPath path name ++ " is required." }]
    | some _ => []

/-- What `check` says of a text. -/
def stringIssues (maxLength : Option ℕ) (enum : Option (List String)) (value path : String) :
    List TemplateInputIssue :=
  let max := min (maxLength.getD documentTemplateLimits.stringCharacters)
    documentTemplateLimits.stringCharacters
  (if max < utf16Length value then
    [{ path, code := .maxLength,
       message := inputLabel path ++ " is longer than " ++ toString max ++ " characters." }]
  else []) ++
  match enum with
  | some values =>
    if value ∈ values then []
    else [{ path, code := .enum,
            message := inputLabel path ++ " must be one of " ++ ", ".intercalate values ++ "." }]
  | none => []

mutual

/-- `check`: the issues of a value against a schema, in the order they are
pushed.  A property that is absent or null is not checked. -/
def check : TemplateInputSchema → Json → String → List TemplateInputIssue
  | .object properties required, .obj fields, path =>
    requiredIssues required fields path ++ checkProperties properties fields path
  | .object .., _, path => [typeIssue path "an object"]
  | .array items, .arr values, path =>
    if documentTemplateLimits.arrayItems < values.length then
      [{ path, code := .tooManyItems,
         message := inputLabel path ++ " holds more than " ++
           toString documentTemplateLimits.arrayItems ++ " items." }]
    else
      values.zipIdx.flatMap fun (item, index) =>
        check items item (path ++ "[" ++ toString index ++ "]")
  | .array _, _, path => [typeIssue path "a list"]
  | .string maxLength enum, .str value, path => stringIssues maxLength enum value path
  | .string .., _, path => [typeIssue path "text"]
  | .integer, .num n, path => if n.isSafeInteger then [] else [typeIssue path "a whole number"]
  | .integer, _, path => [typeIssue path "a whole number"]
  | .number, .num _, _ => []
  | .number, _, path => [typeIssue path "a number"]
  | .boolean, .bool _, _ => []
  | .boolean, _, path => [typeIssue path "true or false"]

/-- The loop of `check` over the declared properties. -/
def checkProperties : List (String × TemplateInputSchema) → List (String × Json) → String →
    List TemplateInputIssue
  | [], _, _ => []
  | (name, child) :: properties, fields, path =>
    (match fields.lookup name with
      | none | some .null => []
      | some entry => check child entry (childPath path name)) ++
    checkProperties properties fields path

end

/-- `validateTemplateInput`: the first issues. -/
def validateTemplateInput (schema : TemplateInputSchema) (input : Json) :
    List TemplateInputIssue :=
  (check schema input "").take documentTemplateLimits.inputIssues

/-! ### What a schema says of a value -/

mutual

/-- The part of a value its schema declares: the declared properties of every
object, in the order of the schema, down through objects and lists. -/
def declaredPart : TemplateInputSchema → Json → Json
  | .object properties _, .obj fields => .obj (declaredProperties properties fields)
  | .array items, .arr values => .arr (values.map (declaredPart items))
  | _, value => value

/-- The declared properties an object holds. -/
def declaredProperties : List (String × TemplateInputSchema) → List (String × Json) →
    List (String × Json)
  | [], _ => []
  | (name, child) :: properties, fields =>
    match fields.lookup name with
    | some entry => (name, declaredPart child entry) :: declaredProperties properties fields
    | none => declaredProperties properties fields

end

/-- A value the check finds nothing wrong with, wherever it stands. -/
def Conforms (schema : TemplateInputSchema) (value : Json) : Prop :=
  ∀ path, check schema value path = []

/-- Two values that agree on everything the schema declares. -/
def Agree (schema : TemplateInputSchema) (a b : Json) : Prop :=
  declaredPart schema a = declaredPart schema b

instance (schema : TemplateInputSchema) (a b : Json) : Decidable (Agree schema a b) :=
  inferInstanceAs (Decidable (declaredPart schema a = declaredPart schema b))

end Flowdular.Documents
