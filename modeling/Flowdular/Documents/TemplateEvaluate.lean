/-
# Evaluating a template

`src/modules/documents/src/domain/template-evaluate.ts`.

An evaluation counts the rows it repeats and the characters it prints and stops
at the limits of either, so it is a program over the two counters that may fail
(`Eval`).  A value the input does not hold (`undefined`) is `none`.  What the
host formats, and what it reads as an instant, is left open (`Intl`).
-/

import Flowdular.Documents.TemplateLanguage

namespace Flowdular.Documents

open Workflows (Json Decimal utf16Length isWhiteSpace)

/-! ### What is rendered -/

structure RenderedRun where
  text : String
  bold : Bool
  italic : Bool
  code : Bool
deriving DecidableEq

abbrev RenderedLine := List RenderedRun

/-- The list below an item of a `RenderedList`. -/
structure RenderedSublist where
  ordered : Bool
  start : ℕ
  items : List RenderedLine
deriving DecidableEq

structure RenderedList where
  ordered : Bool
  start : ℕ
  items : List (RenderedLine × Option RenderedSublist)
deriving DecidableEq

inductive RenderedBlock where
  | heading (level : Fin 3) (runs : RenderedLine)
  | paragraph (runs : RenderedLine)
  | list (list : RenderedList)
  | quote (paragraphs : List RenderedLine)
  | rule
  | pagebreak
  | table (align : List TableAlign) (header : List RenderedLine) (rows : List (List RenderedLine))
deriving DecidableEq

/-- A part of a `RenderedMarginLine`: text, or a counter of the renderer. -/
inductive MarginPart where
  | text (text : String)
  | page
  | pages
deriving DecidableEq

inductive DocumentTemplateLocale where
  | en
  | pl
deriving DecidableEq

structure RenderedTemplate where
  locale : DocumentTemplateLocale
  title : String
  header : Option (List MarginPart)
  footer : Option (List MarginPart)
  blocks : List RenderedBlock
  repeatedRows : ℕ
deriving DecidableEq

/-- What ends an evaluation early: a `TemplateRenderError` of one of its codes,
or the `RangeError` of the host for an instant or a zone it does not know. -/
inductive RenderError where
  | valueInvalid (message : String)
  | rowsExceeded
  | outputTooLarge
  | rangeError
deriving DecidableEq

/-- What the evaluation takes from its host. -/
class Intl where
  /-- `Intl.supportedValuesOf('currency')`. -/
  knownCurrency : String → Bool
  /-- An amount in minor units in the style of a currency. -/
  money : DocumentTemplateLocale → String → Decimal → String
  number : DocumentTemplateLocale → Option (Fin 7) → Decimal → String
  /-- An instant in milliseconds, with its time or without, in a zone; `none` for
  the `RangeError` of the formatter. -/
  date : DocumentTemplateLocale → Bool → String → ℚ → Option String
  toLocaleUpperCase : DocumentTemplateLocale → String → String
  /-- `Date.parse`, `none` for `NaN`. -/
  dateParse : String → Option ℤ

structure EvaluateOptions where
  locale : DocumentTemplateLocale
  timeZone : String

/-- The counters of `Evaluation`. -/
structure Evaluation where
  rows : ℕ := 0
  characters : ℕ := 0

/-- A step of an evaluation. -/
abbrev Eval := StateT Evaluation (Except RenderError)

structure Scope where
  value : Json
  index : Option ℕ

/-! ### Values -/

/-- `walk` over a value: own properties of objects alone. -/
def walkValue : Json → List String → Option Json
  | value, [] => some value
  | .obj fields, name :: segments =>
    match fields.lookup name with
    | some entry => walkValue entry segments
    | none => none
  | _, _ :: _ => none

/-- `Object.hasOwn` of a plain value. -/
def hasOwn (value : Json) (name : String) : Bool :=
  (value.get? name).isSome

/-- `Evaluation.resolve` of a path.  The scopes stand innermost first. -/
def resolvePath : TemplatePath → List Scope → Option Json
  | .fromThis segments, scopes => scopes.head?.bind (walkValue ·.value segments)
  | .name _ _, [] => none
  | .name head segments, scope :: scopes =>
    if hasOwn scope.value head then walkValue scope.value (head :: segments)
    else resolvePath (.name head segments) scopes

/-- A count, or `null` outside an item. -/
def counterValue : Option ℕ → Json
  | some n => .num (.ofNat n)
  | none => .null

def resolve : TemplateExpression → List Scope → Option Json
  | .path target, scopes => resolvePath target scopes
  | .index, scopes => some (counterValue (scopes.head?.bind (·.index)))
  | .number, scopes => some (counterValue ((scopes.head?.bind (·.index)).map (· + 1)))
  | .page, _ => some .null
  | .pages, _ => some .null

def truthy : Option Json → Bool
  | none | some .null => false
  | some (.bool b) => b
  | some (.num n) => n ≠ 0
  | some (.str s) => s ≠ ""
  | some (.arr values) => values ≠ []
  | some (.obj _) => true

/-! ### Dates -/

/-- The number two or four digits denote. -/
def digitsOf (cs : List Char) : Option ℕ :=
  if cs.all Char.isDigit then some (Nat.ofDigitChars 10 cs 0) else none

/-- The parts of a text of the form `DATE`. -/
def dateParts (text : String) : Option (ℕ × ℕ × ℕ) :=
  match text.toList with
  | [y₁, y₂, y₃, y₄, '-', m₁, m₂, '-', d₁, d₂] => do
    let year ← digitsOf [y₁, y₂, y₃, y₄]
    let month ← digitsOf [m₁, m₂]
    let day ← digitsOf [d₁, d₂]
    return (year, month, day)
  | _ => none

/-- The days of a month of the Gregorian calendar. -/
def daysInMonth (year month : ℕ) : ℕ :=
  if month = 2 then
    if year % 4 = 0 ∧ (year % 100 ≠ 0 ∨ year % 400 = 0) then 29 else 28
  else if month ∈ [4, 6, 9, 11] then 30
  else 31

/-- The days from 1970-01-01 to a day, counting years from March. -/
def daysFromEpoch (year month day : ℕ) : ℤ :=
  let y : ℤ := if month ≤ 2 then year - 1 else year
  let m : ℤ := (month + 9) % 12
  365 * y + y / 4 - y / 100 + y / 400 + (153 * m + 2) / 5 + day - 1 - 719468

/-- `Date.UTC` of a day, which reads a year below 100 as one of the twentieth
century; `none` when the day is not in the month. -/
def dayInstant (year month day : ℕ) : Option ℤ :=
  let year := if year ≤ 99 then 1900 + year else year
  if 1 ≤ month ∧ month ≤ 12 ∧ 1 ≤ day ∧ day ≤ daysInMonth year month then
    some (daysFromEpoch year month day * 86400000)
  else none

/-- `(?:Z|[+-]\d{2}:\d{2})$`. -/
def isZone : List Char → Bool
  | ['Z'] => true
  | [sign, h₁, h₂, ':', m₁, m₂] => (sign = '+' || sign = '-') && [h₁, h₂, m₁, m₂].all Char.isDigit
  | _ => false

/-- `(?:\.\d{1,9})?` and the zone behind it. -/
def isFraction : List Char → Bool
  | '.' :: cs =>
    let digits := cs.takeWhile Char.isDigit
    (1 ≤ digits.length && digits.length ≤ 9) && isZone (cs.drop digits.length)
  | cs => isZone cs

/-- `DATETIME.test`. -/
def isDatetime (text : String) : Bool :=
  match text.toList with
  | y₁ :: y₂ :: y₃ :: y₄ :: '-' :: m₁ :: m₂ :: '-' :: d₁ :: d₂ :: 'T' :: h₁ :: h₂ :: ':' ::
      n₁ :: n₂ :: rest =>
    [y₁, y₂, y₃, y₄, m₁, m₂, d₁, d₂, h₁, h₂, n₁, n₂].all Char.isDigit && match rest with
      | ':' :: s₁ :: s₂ :: rest => [s₁, s₂].all Char.isDigit && isFraction rest
      | rest => isZone rest
  | _ => false

variable [Intl]

/-- `instant`: the milliseconds a value denotes, and whether it is a day. -/
def instant : Json → Option (ℚ × Bool)
  | .num n => some (n.toRat, false)
  | .str text =>
    match dateParts text with
    | some (year, month, day) => (dayInstant year month day).map fun at' => (at', true)
    | none =>
      if isDatetime text then (Intl.dateParse text).map fun at' => (at', false) else none
  | _ => none

/-! ### Placeholders -/

def invalid {α : Type} (message : String) : Eval α :=
  throw (.valueInvalid message)

/-- `Evaluation.repeat`. -/
def countRows (count : ℕ) : Eval Unit := do
  let counters ← get
  let rows := counters.rows + count
  set { counters with rows }
  if documentTemplateLimits.repeatedRows < rows then throw .rowsExceeded

/-- The characters `CONTROL` matches. -/
def isControl (c : Char) : Bool :=
  c.toNat ≤ 8 || (11 ≤ c.toNat && c.toNat ≤ 31) || c.toNat = 127

def printed (text : String) : Eval String := do
  let clean := String.ofList (text.toList.filter fun c => ¬ isControl c)
  let counters ← get
  let characters := counters.characters + utf16Length clean
  set { counters with characters }
  if documentTemplateLimits.printedCharacters < characters then throw .outputTooLarge
  return clean

def plainText (value : Option Json) (expression : TemplateExpression) : Eval String :=
  match value with
  | none | some .null => pure ""
  | some (.str text) => pure text
  | some (.num n) => pure n.text
  | some (.bool b) => pure (if b then "true" else "false")
  | some _ => invalid (expression.describe ++ " is not text and cannot be printed.")

/-- `Evaluation.argument`. -/
def argumentValue (scopes : List Scope) : TemplateArgument → Option Json
  | .literal value => some (.str value)
  | .value path => resolvePath path scopes

/-- The currency codes `money` accepts. -/
def currencyCode : Option Json → Option String
  | some (.str code) =>
    if code.toList.length = 3 ∧ code.toList.all Char.isUpper ∧ Intl.knownCurrency code then some code
    else none
  | _ => none

/-- The date formatters. -/
def formatDate (options : EvaluateOptions) (time : Bool) (value : Json) (name : String) :
    Eval String :=
  match instant value with
  | none => invalid (name ++ " is not a date.")
  | some (at', day) =>
    match Intl.date options.locale time (if day then "UTC" else options.timeZone) at' with
    | some text => pure text
    | none => throw .rangeError

/-- `YES_NO`. -/
def yesNo : DocumentTemplateLocale → Bool → String
  | .en, true => "Yes"
  | .en, false => "No"
  | .pl, true => "Tak"
  | .pl, false => "Nie"

def applyFormatter (options : EvaluateOptions) (formatter : TemplateFormatter)
    (value : Option Json) (name : String) (scopes : List Scope) : Eval String :=
  match value with
  | none | some .null => pure ""
  | some value =>
    match formatter, value with
    | .money currency, .num n =>
      if ¬ n.isSafeInteger then invalid (name ++ " must be an amount in minor units.")
      else
        match currencyCode (argumentValue scopes currency) with
        | none => invalid ("The currency of " ++ name ++ " is not an ISO 4217 code.")
        | some code => pure (Intl.money options.locale code n)
    | .money _, _ => invalid (name ++ " must be an amount in minor units.")
    | .number digits, .num n => pure (Intl.number options.locale digits n)
    | .number _, _ => invalid (name ++ " must be a number.")
    | .date, value => formatDate options false value name
    | .datetime, value => formatDate options true value name
    | .upper, .str text => pure (Intl.toLocaleUpperCase options.locale text)
    | .upper, _ => invalid (name ++ " must be text.")
    | .yesno, .bool b => pure (yesNo options.locale b)
    | .yesno, _ => invalid (name ++ " must be true or false.")

def format (options : EvaluateOptions) (node : TemplatePlaceholder) (scopes : List Scope) :
    Eval String := do
  let value := resolve node.value scopes
  match node.formatter with
  | none => printed (← plainText value node.value)
  | some formatter =>
    printed (← applyFormatter options formatter value node.value.describe scopes)

/-! ### Runs -/

structure Style where
  bold : Bool := false
  italic : Bool := false
  code : Bool := false

/-- A run in a style. -/
def Style.run (style : Style) (text : String) : RenderedRun :=
  { text, bold := style.bold, italic := style.italic, code := style.code }

/-- `append`: a run joins the one before it when they share a style. -/
def appendRun (into : List RenderedRun) (run : RenderedRun) : List RenderedRun :=
  if run.text = "" then into
  else
    match into.getLast? with
    | some last =>
      if last.bold = run.bold ∧ last.italic = run.italic ∧ last.code = run.code then
        into.dropLast ++ [{ last with text := last.text ++ run.text }]
      else into ++ [run]
    | none => [run]

/-- The text of runs. -/
def runsText (runs : List RenderedRun) : String :=
  String.join (runs.map (·.text))

/-- `runs` over text and placeholders alone. -/
def codeRuns (options : EvaluateOptions) (scopes : List Scope) (style : Style) :
    List TemplateCodeChild → List RenderedRun → Eval (List RenderedRun)
  | [], into => pure into
  | .text value :: nodes, into => do
    let text ← printed value
    codeRuns options scopes style nodes (appendRun into (style.run text))
  | .placeholder node :: nodes, into => do
    let text ← format options node scopes
    codeRuns options scopes style nodes (appendRun into (style.run text))

mutual

/-- One turn of the loop of `runs`. -/
def inlineRuns (options : EvaluateOptions) (scopes : List Scope) :
    Style → TemplateInline → List RenderedRun → Eval (List RenderedRun)
  | style, .leaf child, into => codeRuns options scopes style [child] into
  | style, .break, into => pure (appendRun into (style.run "\n"))
  | style, .strong children, into => runs options scopes { style with bold := true } children into
  | style, .emphasis children, into =>
    runs options scopes { style with italic := true } children into
  | style, .code children, into => codeRuns options scopes { style with code := true } children into
  | style, .link children url, into => do
    let label ← runs options scopes style children []
    let url ← codeRuns options scopes style url []
    let into := label.foldl appendRun into
    if runsText label ≠ runsText url then
      return appendRun into (style.run (" (" ++ runsText url ++ ")"))
    else return into

def runs (options : EvaluateOptions) (scopes : List Scope) :
    Style → List TemplateInline → List RenderedRun → Eval (List RenderedRun)
  | _, [], into => pure into
  | style, node :: nodes, into => do
    let into ← inlineRuns options scopes style node into
    runs options scopes style nodes into

end

/-- The runs of a line of its own. -/
def lineRuns (options : EvaluateOptions) (scopes : List Scope) (content : List TemplateInline) :
    Eval RenderedLine :=
  runs options scopes {} content []

/-! ### Blocks -/

/-- The items below an item of `list`. -/
def renderSublist (options : EvaluateOptions) (scopes : List Scope) (source : TemplateSublist) :
    Eval RenderedSublist := do
  let items ← source.items.mapM (lineRuns options scopes)
  return { ordered := source.ordered, start := source.start, items }

/-- One item of `list`. -/
def renderItem (options : EvaluateOptions) (scopes : List Scope) (item : TemplateListItem) :
    Eval (RenderedLine × Option RenderedSublist) := do
  let content ← lineRuns options scopes item.content
  match item.sublist with
  | some sublist => return (content, some (← renderSublist options scopes sublist))
  | none => return (content, none)

/-- `list`. -/
def renderList (options : EvaluateOptions) (scopes : List Scope) (source : TemplateList) :
    Eval RenderedList := do
  let items ← source.items.mapM (renderItem options scopes)
  return { ordered := source.ordered, start := source.start, items }

/-- `items`: the values a list path repeats over. -/
def listItems (path : TemplatePath) (scopes : List Scope) : Eval (List Json) :=
  match resolvePath path scopes with
  | none | some .null => pure []
  | some (.arr values) => do
    countRows values.length
    return values
  | some _ => invalid (path.describe ++ " is not a list.")

/-- `items(…).forEach`: each value with its index, one after the other. -/
def forEach {α : Type} (body : Json → ℕ → α → Eval α) : List Json → ℕ → α → Eval α
  | [], _, into => pure into
  | value :: values, index, into => do
    let into ← body value index into
    forEach body values (index + 1) into

mutual

/-- One turn of the loop of `rows`. -/
def rowBody (options : EvaluateOptions) :
    TemplateRow → List Scope → List (List RenderedLine) → Eval (List (List RenderedLine))
  | .row cells _, scopes, into => do
    let cells ← cells.mapM (lineRuns options scopes)
    return into ++ [cells]
  | .each path children _, scopes, into => do
    let values ← listItems path scopes
    forEach (fun value index => rows options children ({ value, index := some index } :: scopes))
      values 0 into
  | .if path thn otherwise _, scopes, into =>
    if truthy (resolvePath path scopes) then rows options thn scopes into
    else rows options otherwise scopes into

def rows (options : EvaluateOptions) :
    List TemplateRow → List Scope → List (List RenderedLine) → Eval (List (List RenderedLine))
  | [], _, into => pure into
  | row :: source, scopes, into => do
    let into ← rowBody options row scopes into
    rows options source scopes into

end

/-- A list joins the list before it when both are ordered or neither is. -/
def pushList (into : List RenderedBlock) (rendered : RenderedList) : List RenderedBlock :=
  match into.getLast? with
  | some (.list previous) =>
    if previous.ordered = rendered.ordered then
      into.dropLast ++ [.list { previous with items := previous.items ++ rendered.items }]
    else into ++ [.list rendered]
  | _ => into ++ [.list rendered]

mutual

/-- One turn of the loop of `blocks`. -/
def blockBody (options : EvaluateOptions) :
    TemplateBlock → List Scope → List RenderedBlock → Eval (List RenderedBlock)
  | .heading level content _, scopes, into => do
    let content ← lineRuns options scopes content
    return into ++ [.heading level content]
  | .paragraph content _, scopes, into => do
    let content ← lineRuns options scopes content
    return into ++ [.paragraph content]
  | .list list _, scopes, into => do
    let rendered ← renderList options scopes list
    return pushList into rendered
  | .quote paragraphs _, scopes, into => do
    let paragraphs ← paragraphs.mapM (lineRuns options scopes)
    return into ++ [.quote paragraphs]
  | .rule _, _, into => return into ++ [.rule]
  | .pagebreak _, _, into => return into ++ [.pagebreak]
  | .table align header source _, scopes, into => do
    let body ← rows options source scopes []
    let header ← header.mapM (lineRuns options scopes)
    return into ++ [.table align header body]
  | .each path children _, scopes, into => do
    let values ← listItems path scopes
    forEach (fun value index => blocks options children ({ value, index := some index } :: scopes))
      values 0 into
  | .if path thn otherwise _, scopes, into =>
    if truthy (resolvePath path scopes) then blocks options thn scopes into
    else blocks options otherwise scopes into

def blocks (options : EvaluateOptions) :
    List TemplateBlock → List Scope → List RenderedBlock → Eval (List RenderedBlock)
  | [], _, into => pure into
  | block :: source, scopes, into => do
    let into ← blockBody options block scopes into
    blocks options source scopes into

end

/-! ### The document -/

/-- Text behind the parts of a margin line. -/
def pushText (parts : List MarginPart) (text : String) : List MarginPart :=
  match parts.getLast? with
  | some (.text last) => parts.dropLast ++ [.text (last ++ text)]
  | _ => parts ++ [.text text]

/-- The loop of `marginLine`. -/
def marginParts (options : EvaluateOptions) (scopes : List Scope) :
    List TemplateCodeChild → List MarginPart → Eval (List MarginPart)
  | [], parts => pure parts
  | .text value :: nodes, parts => do
    let text ← printed value
    marginParts options scopes nodes (pushText parts text)
  | .placeholder node :: nodes, parts =>
    if node.value = .page then marginParts options scopes nodes (parts ++ [.page])
    else if node.value = .pages then marginParts options scopes nodes (parts ++ [.pages])
    else do
      let text ← format options node scopes
      marginParts options scopes nodes (pushText parts text)

def marginLine (options : EvaluateOptions) (scopes : List Scope) :
    Option (List TemplateCodeChild) → Eval (Option (List MarginPart))
  | none => pure none
  | some content => some <$> marginParts options scopes content []

/-- `replace(/\s+/g, ' ')`. -/
def collapseSpaces : List Char → List Char
  | [] => []
  | c :: cs =>
    if isWhiteSpace c then
      match cs with
      | d :: _ => if isWhiteSpace d then collapseSpaces cs else ' ' :: collapseSpaces cs
      | [] => [' ']
    else c :: collapseSpaces cs

/-- `replace(/\s+/g, ' ').trim()`. -/
def normalizeTitle (text : String) : String :=
  let trimStart (cs : List Char) := cs.dropWhile isWhiteSpace
  String.ofList (trimStart (trimStart (collapseSpaces text.toList)).reverse).reverse

/-- The body of `evaluateTemplate`. -/
def renderTemplate (template : CompiledTemplate) (scopes : List Scope)
    (options : EvaluateOptions) : Eval RenderedTemplate := do
  let rendered ← blocks options template.blocks scopes []
  let title ← codeRuns options scopes {} template.title []
  let header ← marginLine options scopes template.header
  let footer ← marginLine options scopes template.footer
  let counters ← get
  return { locale := options.locale, title := normalizeTitle (runsText title), header, footer,
           blocks := rendered, repeatedRows := counters.rows }

def evaluateTemplate (template : CompiledTemplate) (input : Json) (options : EvaluateOptions) :
    Except RenderError RenderedTemplate :=
  (renderTemplate template [{ value := input, index := none }] options).run' {}

end Flowdular.Documents
