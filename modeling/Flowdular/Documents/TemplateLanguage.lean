/-
# Templates and the check of their fields

`src/modules/documents/src/domain/template-language.ts`, lines 7-117 (the tree a
body is parsed into), 118-154 (`Issues`) and 1385-1653 (`schemaOfExpression` to
`checkTemplateLineFields`), and `template-compile.ts`, lines 28-35 and 134-207
(`compileTemplate`).

The tree is what the parser makes of a text: a path to a list or a condition, a
currency that is no counter, a path with at least one name unless it starts at
`this`, lists that nest one level deep.  How a text becomes a tree is left open
(`TemplateParser`): nothing below rests on it.
-/

import Flowdular.Documents.TemplateSchema

namespace Flowdular.Documents

/-! ### The tree -/

/-- A path of `TemplateExpression`: names below the current item, or a name
searched outwards and the names below it. -/
inductive TemplatePath where
  | fromThis (segments : List String)
  | name (head : String) (segments : List String)
deriving DecidableEq

inductive TemplateExpression where
  | path (path : TemplatePath)
  | index
  | number
  | page
  | pages
deriving DecidableEq

inductive TemplateArgument where
  | literal (value : String)
  | value (path : TemplatePath)
deriving DecidableEq

/-- `TemplateFormatter`.  A count of decimals is one digit from 0 to 6. -/
inductive TemplateFormatter where
  | money (currency : TemplateArgument)
  | number (digits : Option (Fin 7))
  | date
  | datetime
  | upper
  | yesno
deriving DecidableEq

/-- The name of a formatter. -/
def TemplateFormatter.name : TemplateFormatter → String
  | .money _ => "money"
  | .number _ => "number"
  | .date => "date"
  | .datetime => "datetime"
  | .upper => "upper"
  | .yesno => "yesno"

structure TemplatePlaceholder where
  value : TemplateExpression
  formatter : Option TemplateFormatter
  line : ℕ
deriving DecidableEq

inductive TemplateCodeChild where
  | text (value : String)
  | placeholder (node : TemplatePlaceholder)
deriving DecidableEq

inductive TemplateInline where
  | leaf (child : TemplateCodeChild)
  | strong (children : List TemplateInline)
  | emphasis (children : List TemplateInline)
  | code (children : List TemplateCodeChild)
  | link (children : List TemplateInline) (url : List TemplateCodeChild)
  | break

/-- The list below an item of a `TemplateList`. -/
structure TemplateSublist where
  ordered : Bool
  start : ℕ
  items : List (List TemplateInline)

structure TemplateListItem where
  content : List TemplateInline
  sublist : Option TemplateSublist

structure TemplateList where
  ordered : Bool
  start : ℕ
  items : List TemplateListItem

inductive TableAlign where
  | left
  | center
  | right
deriving DecidableEq

inductive TemplateRow where
  | row (cells : List (List TemplateInline)) (line : ℕ)
  | each (path : TemplatePath) (children : List TemplateRow) (line : ℕ)
  | «if» (path : TemplatePath) («then» otherwise : List TemplateRow) (line : ℕ)

inductive TemplateBlock where
  | heading (level : Fin 3) (content : List TemplateInline) (line : ℕ)
  | paragraph (content : List TemplateInline) (line : ℕ)
  | list (list : TemplateList) (line : ℕ)
  | quote (paragraphs : List (List TemplateInline)) (line : ℕ)
  | rule (line : ℕ)
  | pagebreak (line : ℕ)
  | table (align : List TableAlign) (header : List (List TemplateInline))
      (rows : List TemplateRow) (line : ℕ)
  | each (path : TemplatePath) (children : List TemplateBlock) (line : ℕ)
  | «if» (path : TemplatePath) («then» otherwise : List TemplateBlock) (line : ℕ)

/-! ### Issues -/

/-- The place an issue names. -/
inductive TemplateField where
  | body
  | title
  | header
  | footer
  | layout
deriving DecidableEq

structure TemplateIssue where
  code : String
  message : String
  line : Option ℕ
  field : TemplateField
deriving DecidableEq

/-- `MAX_ISSUES`. -/
def maxIssues : ℕ := 50

/-- `Issues.add`: an issue found twice on one line is kept once, and no more
than `maxIssues` are. -/
def addIssue (found : List TemplateIssue) (issue : TemplateIssue) : List TemplateIssue :=
  if maxIssues ≤ found.length ∨ issue ∈ found then found else found ++ [issue]

/-- What is left in `Issues.list` of the issues added one after the other. -/
def listIssues (added : List TemplateIssue) : List TemplateIssue :=
  added.foldl addIssue []

/-! ### Scopes -/

structure SchemaScope where
  schema : TemplateInputSchema
  item : Bool

def TemplatePath.describe : TemplatePath → String
  | .fromThis segments => ".".intercalate ("this" :: segments)
  | .name head segments => ".".intercalate (head :: segments)

def TemplateExpression.describe : TemplateExpression → String
  | .path target => target.describe
  | .index => "@index"
  | .number => "@number"
  | .page => "@page"
  | .pages => "@pages"

/-- The property a schema declares under a name. -/
def TemplateInputSchema.property? : TemplateInputSchema → String → Option TemplateInputSchema
  | .object properties _, name => properties.lookup name
  | _, _ => none

/-- `walk` over a schema. -/
def TemplateInputSchema.walk : TemplateInputSchema → List String → Option TemplateInputSchema
  | schema, [] => some schema
  | schema, name :: segments =>
    match schema.property? name with
    | some child => child.walk segments
    | none => none

/-- `schemaOfExpression` of a path.  The scopes stand innermost first. -/
def schemaOfPath : TemplatePath → List SchemaScope → Option TemplateInputSchema
  | .fromThis segments, scopes => scopes.head?.bind (·.schema.walk segments)
  | .name _ _, [] => none
  | .name head segments, scope :: scopes =>
    if (scope.schema.property? head).isSome then scope.schema.walk (head :: segments)
    else schemaOfPath (.name head segments) scopes

/-- What `schemaOfExpression` answers. -/
inductive ExpressionSchema where
  | counter
  | schema (schema : TemplateInputSchema)

/-- The type a message and the formatters see. -/
def ExpressionSchema.type : ExpressionSchema → String
  | .counter => "integer"
  | .schema declared => declared.type

/-- `schemaOfExpression`: the schema a value expression reads, `none` when the
input cannot hold it. -/
def schemaOfExpression : TemplateExpression → List SchemaScope → Option ExpressionSchema
  | .path path, scopes => (schemaOfPath path scopes).map .schema
  | _, _ => some .counter

/-- `FORMATTER_TYPES`. -/
def TemplateFormatter.types : TemplateFormatter → List String
  | .money _ => ["integer", "number"]
  | .number _ => ["integer", "number"]
  | .date => ["string", "integer", "number"]
  | .datetime => ["string", "integer", "number"]
  | .upper => ["string"]
  | .yesno => ["boolean"]

/-! ### The check -/

/-- An issue of the field that is checked. -/
def fieldIssue (field : TemplateField) (code message : String) (line : ℕ) : TemplateIssue :=
  { code, message, line := some line, field }

/-- Text between the braces of a placeholder or a tag. -/
def braced (text : String) : String :=
  "\x7b\x7b" ++ text ++ "\x7d\x7d"

/-- What `checkPlaceholder` says of the currency of a formatter. -/
def checkCurrency (field : TemplateField) (line : ℕ) (scopes : List SchemaScope) :
    TemplateFormatter → List TemplateIssue
  | .money (.value currency) =>
    match schemaOfPath currency scopes with
    | none =>
      [fieldIssue field "TEMPLATE_FIELD_UNKNOWN"
        ("The currency " ++ currency.describe ++ " is not a field of the template input.") line]
    | some schema =>
      if schema.type = "string" then []
      else [fieldIssue field "TEMPLATE_FIELD_TYPE"
        ("The currency " ++ currency.describe ++ " must be text.") line]
  | _ => []

def checkPlaceholder (field : TemplateField) (node : TemplatePlaceholder)
    (scopes : List SchemaScope) : List TemplateIssue :=
  let inItem := scopes.head?.any (·.item)
  if (node.value = .index ∨ node.value = .number) ∧ inItem = false then
    [fieldIssue field "TEMPLATE_PLACEHOLDER" (braced (" " ++ node.value.describe ++ " ") ++
        " counts items and belongs inside " ++ braced "#each" ++ ".") node.line]
  else
    match schemaOfExpression node.value scopes with
    | none =>
      [fieldIssue field "TEMPLATE_FIELD_UNKNOWN"
        (braced (" " ++ node.value.describe ++ " ") ++ " is not a field of the template input.")
        node.line]
    | some schema =>
      match node.formatter with
      | some formatter =>
        (if schema.type ∈ formatter.types then []
        else [fieldIssue field "TEMPLATE_FIELD_TYPE"
          (formatter.name ++ " cannot format " ++ node.value.describe ++ ", which is " ++
            schema.type ++ ".") node.line]) ++
        checkCurrency field node.line scopes formatter
      | none =>
        if schema.type = "object" ∨ schema.type = "array" then
          [fieldIssue field "TEMPLATE_FIELD_TYPE"
            (braced (" " ++ node.value.describe ++ " ") ++ " is " ++
              (if schema.type = "array" then "a list" else "an object") ++
              " and cannot be printed; name one of its fields.") node.line]
        else []

/-- `checkInlines` over text and placeholders alone. -/
def checkCodeChildren (field : TemplateField) (scopes : List SchemaScope)
    (nodes : List TemplateCodeChild) : List TemplateIssue :=
  nodes.flatMap fun
    | .text _ => []
    | .placeholder node => checkPlaceholder field node scopes

mutual

/-- One turn of the loop of `checkInlines`. -/
def checkInline (field : TemplateField) (scopes : List SchemaScope) :
    TemplateInline → List TemplateIssue
  | .leaf child => checkCodeChildren field scopes [child]
  | .strong children => checkInlines field scopes children
  | .emphasis children => checkInlines field scopes children
  | .code children => checkCodeChildren field scopes children
  | .link children url => checkInlines field scopes children ++ checkCodeChildren field scopes url
  | .break => []

def checkInlines (field : TemplateField) (scopes : List SchemaScope) :
    List TemplateInline → List TemplateIssue
  | [] => []
  | node :: nodes => checkInline field scopes node ++ checkInlines field scopes nodes

end

/-- `itemScope`: the scopes inside a list, or the issue of a path that names
none. -/
def itemScope (path : TemplatePath) (line : ℕ) (scopes : List SchemaScope) :
    Except TemplateIssue (List SchemaScope) :=
  match schemaOfPath path scopes with
  | none =>
    .error (fieldIssue .body "TEMPLATE_FIELD_UNKNOWN"
      (braced ("#each " ++ path.describe) ++ " names no field of the template input.") line)
  | some (.array items) => .ok ({ schema := items, item := true } :: scopes)
  | some _ =>
    .error (fieldIssue .body "TEMPLATE_FIELD_TYPE"
      (braced ("#each " ++ path.describe) ++ " needs a list.") line)

def checkCondition (path : TemplatePath) (line : ℕ) (scopes : List SchemaScope) :
    List TemplateIssue :=
  match schemaOfPath path scopes with
  | none =>
    [fieldIssue .body "TEMPLATE_FIELD_UNKNOWN"
      (braced ("#if " ++ path.describe) ++ " names no field of the template input.") line]
  | some _ => []

mutual

/-- One turn of the loop of `checkRows`. -/
def checkRow (scopes : List SchemaScope) : TemplateRow → List TemplateIssue
  | .row cells _ => cells.flatMap (checkInlines .body scopes)
  | .each path children line =>
    match itemScope path line scopes with
    | .ok inner => checkRows inner children
    | .error issue => [issue]
  | .if path thn otherwise line =>
    checkCondition path line scopes ++ checkRows scopes thn ++ checkRows scopes otherwise

def checkRows (scopes : List SchemaScope) : List TemplateRow → List TemplateIssue
  | [] => []
  | row :: rows => checkRow scopes row ++ checkRows scopes rows

end

/-- `checkBlocks` on a list: its items and the items below them. -/
def checkList (scopes : List SchemaScope) (list : TemplateList) : List TemplateIssue :=
  list.items.flatMap fun item =>
    checkInlines .body scopes item.content ++
      (item.sublist.elim [] (·.items)).flatMap (checkInlines .body scopes)

mutual

/-- One turn of the loop of `checkBlocks`. -/
def checkBlock (scopes : List SchemaScope) : TemplateBlock → List TemplateIssue
  | .heading _ content _ => checkInlines .body scopes content
  | .paragraph content _ => checkInlines .body scopes content
  | .list list _ => checkList scopes list
  | .quote paragraphs _ => paragraphs.flatMap (checkInlines .body scopes)
  | .rule _ => []
  | .pagebreak _ => []
  | .table _ header rows _ => header.flatMap (checkInlines .body scopes) ++ checkRows scopes rows
  | .each path children line =>
    match itemScope path line scopes with
    | .ok inner => checkBlocks inner children
    | .error issue => [issue]
  | .if path thn otherwise line =>
    checkCondition path line scopes ++ checkBlocks scopes thn ++ checkBlocks scopes otherwise

def checkBlocks (scopes : List SchemaScope) : List TemplateBlock → List TemplateIssue
  | [] => []
  | block :: blocks => checkBlock scopes block ++ checkBlocks scopes blocks

end

def checkTemplateFields (blocks : List TemplateBlock) (schema : TemplateInputSchema) :
    List TemplateIssue :=
  listIssues (checkBlocks [{ schema, item := false }] blocks)

def checkTemplateLineFields (content : List TemplateCodeChild) (field : TemplateField)
    (schema : TemplateInputSchema) : List TemplateIssue :=
  (listIssues (checkCodeChildren field [{ schema, item := false }] content)).map
    ({ · with line := none })

/-! ### Compiling -/

/-- The parser: a body into blocks, a line into text and placeholders, either
with the issues it found. -/
class TemplateParser where
  parseTemplate : String → List TemplateBlock × List TemplateIssue
  parseTemplateLine : String → TemplateField → List TemplateCodeChild × List TemplateIssue

/-- `TemplateContent`, the parts the check and the evaluation read.  Locale and
format have types of their own. -/
structure TemplateContent where
  body : String
  title : String
  header : Option String
  footer : Option String
  inputSchema : TemplateInputSchema

/-- `CompiledTemplateParts`. -/
structure CompiledTemplate where
  blocks : List TemplateBlock
  title : List TemplateCodeChild
  header : Option (List TemplateCodeChild)
  footer : Option (List TemplateCodeChild)

variable [TemplateParser]

/-- One turn of the loop of `compileTemplate` over title, header and footer. -/
def compileLine (text : Option String) (field : TemplateField) (schema : TemplateInputSchema) :
    Option (List TemplateCodeChild) × List TemplateIssue :=
  match text with
  | none => (none, [])
  | some text =>
    let line := TemplateParser.parseTemplateLine text field
    (some line.1,
      line.2 ++ if line.2 = [] then checkTemplateLineFields line.1 field schema else [])

/-- `compileTemplate`: the compiled template, or the issues that refuse it. -/
def compileTemplate (content : TemplateContent) : Except (List TemplateIssue) CompiledTemplate :=
  match templateSchemaProblem content.inputSchema with
  | some problem =>
    .error [{ code := "TEMPLATE_SCHEMA_INVALID", message := problem, line := none,
              field := .layout }]
  | none =>
    let parsed := TemplateParser.parseTemplate content.body
    let title := compileLine (some content.title) .title content.inputSchema
    let header := compileLine content.header .header content.inputSchema
    let footer := compileLine content.footer .footer content.inputSchema
    let issues := parsed.2 ++
      (if parsed.2 = [] then checkTemplateFields parsed.1 content.inputSchema else []) ++
      title.2 ++ header.2 ++ footer.2
    if issues = [] then
      .ok { blocks := parsed.1, title := title.1.getD [], header := header.1, footer := footer.1 }
    else .error issues

end Flowdular.Documents
