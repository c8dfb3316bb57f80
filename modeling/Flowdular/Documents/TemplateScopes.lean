/-
# Names in a template

The check resolves a name by the schemas of the scopes around it and the
evaluation by the values it finds there (`schemaOfPath`, `resolvePath`).  The two
meet in the same scope unless a name is shadowed: an item holds a property its
schema does not declare and an outer scope does, or an item lacks an optional
property and an outer scope holds one of the name.  `occurrences` lists every
expression an evaluation looks up with the scopes around it, read with the
schemas of the check (`checkedSchema`) or with those of the scopes the values are
found in (`heldSchema`).
-/

import Flowdular.Documents.TemplateEvaluate

namespace Flowdular.Documents

open Workflows (Json Decimal)

/-! ### Values and their schemas -/

/-- A value that is not there, or `null`. -/
def Absent (value : Option Json) : Prop :=
  value = none ∨ value = some .null

variable {fields : List (String × Json)} {found : TemplateInputSchema} {segments : List String}
  {path : TemplatePath}

theorem requiredIssues_eq_nil {required : List String} (p q : String)
    (h : requiredIssues required fields p = []) : requiredIssues required fields q = [] := by
  rw [requiredIssues, List.flatMap_eq_nil_iff] at h ⊢
  intro name hn
  have := h name hn
  split at this <;> simp_all

theorem stringIssues_eq_nil {maxLength : Option ℕ} {enum : Option (List String)} {value : String}
    (p q : String) (h : stringIssues maxLength enum value p = []) :
    stringIssues maxLength enum value q = [] := by
  simp only [stringIssues, List.append_eq_nil_iff] at h ⊢
  constructor
  · have := h.1
    split at this <;> simp_all
  · have := h.2
    rcases enum with _ | values
    · rfl
    · simp only at this ⊢
      split at this <;> simp_all

mutual

/-- Where a value stands does not matter to the check. -/
theorem check_eq_nil : ∀ (schema : TemplateInputSchema) (value : Json) (p q : String),
    check schema value p = [] → check schema value q = []
  | .object properties required, value, p, q, h => by
    cases value with
    | obj fields =>
      rw [check, List.append_eq_nil_iff] at h ⊢
      exact ⟨requiredIssues_eq_nil p q h.1, checkProperties_eq_nil properties fields p q h.2⟩
    | _ => simp [check] at h
  | .array items, value, p, q, h => by
    cases value with
    | arr values =>
      rw [check] at h ⊢
      split at h
      · cases h
      next hl =>
      rw [if_neg hl, List.flatMap_eq_nil_iff]
      rw [List.flatMap_eq_nil_iff] at h
      exact fun e he => check_eq_nil items e.1 _ _ (h e he)
    | _ => simp [check] at h
  | .string maxLength enum, value, p, q, h => by
    cases value with
    | str text =>
      rw [check] at h ⊢
      exact stringIssues_eq_nil p q h
    | _ => simp [check] at h
  | .integer, value, p, q, h => by
    cases value with
    | num n =>
      rw [check] at h ⊢
      split at h <;> simp_all
    | _ => simp [check] at h
  | .number, value, p, q, h => by
    cases value with
    | num n => rw [check]
    | _ => simp [check] at h
  | .boolean, value, p, q, h => by
    cases value with
    | bool b => rw [check]
    | _ => simp [check] at h

theorem checkProperties_eq_nil : ∀ (properties : List (String × TemplateInputSchema))
    (fields : List (String × Json)) (p q : String),
    checkProperties properties fields p = [] → checkProperties properties fields q = []
  | [], _, _, _, _ => by rw [checkProperties]
  | (name, child) :: properties, fields, p, q, h => by
    rw [checkProperties, List.append_eq_nil_iff] at h ⊢
    refine ⟨?_, checkProperties_eq_nil properties fields p q h.2⟩
    have hc := h.1
    split at hc
    · rfl
    · rfl
    · exact check_eq_nil child _ _ _ hc

end

theorem conforms_of_validate {schema : TemplateInputSchema} {input : Json}
    (h : validateTemplateInput schema input = []) : Conforms schema input := by
  have hc : check schema input "" = [] := by
    rw [validateTemplateInput, List.take_eq_nil_iff] at h
    exact h.resolve_left (by decide)
  exact fun path => check_eq_nil schema input "" path hc

theorem checkProperties_lookup {properties : List (String × TemplateInputSchema)}
    {path name : String} {child : TemplateInputSchema} {entry : Json}
    (h : checkProperties properties fields path = [])
    (hc : properties.lookup name = some child) (he : fields.lookup name = some entry) :
    entry = .null ∨ Conforms child entry := by
  induction properties with
  | nil => simp at hc
  | cons property properties ih =>
    obtain ⟨key, schema⟩ := property
    rw [checkProperties, List.append_eq_nil_iff] at h
    rw [List.lookup_cons] at hc
    split at hc
    · next hk =>
      obtain rfl := beq_iff_eq.1 hk
      obtain rfl := Option.some.inj hc
      have hh := h.1
      rw [he] at hh
      cases entry with
      | null => exact .inl rfl
      | _ => exact .inr fun q => check_eq_nil schema _ _ q hh
    · exact ih h.2 hc

namespace Conforms

variable {value : Json}

theorem object {properties : List (String × TemplateInputSchema)} {required : List String}
    (h : Conforms (.object properties required) value) :
    ∃ fields, value = .obj fields ∧ checkProperties properties fields "" = [] := by
  have := h ""
  cases value with
  | obj fields =>
    rw [check, List.append_eq_nil_iff] at this
    exact ⟨fields, rfl, this.2⟩
  | _ => simp [check] at this

theorem array {items : TemplateInputSchema} (h : Conforms (.array items) value) :
    ∃ values, value = .arr values ∧ ∀ v ∈ values, Conforms items v := by
  have := h ""
  cases value with
  | arr values =>
    refine ⟨values, rfl, fun v hv => ?_⟩
    rw [check] at this
    split at this
    · cases this
    rw [List.flatMap_eq_nil_iff] at this
    obtain ⟨i, hi⟩ := List.mem_iff_getElem?.1 hv
    have hm : (v, i) ∈ values.zipIdx := List.mem_zipIdx_iff_getElem?.2 hi
    exact fun q => check_eq_nil items v _ q (this _ hm)
  | _ => simp [check] at this

theorem string {maxLength : Option ℕ} {enum : Option (List String)}
    (h : Conforms (.string maxLength enum) value) : ∃ text, value = .str text := by
  have := h ""
  cases value with
  | str text => exact ⟨text, rfl⟩
  | _ => simp [check] at this

theorem integer (h : Conforms .integer value) : ∃ n, value = .num n ∧ n.isSafeInteger = true := by
  have := h ""
  cases value with
  | num n =>
    rw [check] at this
    split at this
    · next hn => exact ⟨n, rfl, hn⟩
    · cases this
  | _ => simp [check] at this

theorem number (h : Conforms .number value) : ∃ n, value = .num n := by
  have := h ""
  cases value with
  | num n => exact ⟨n, rfl⟩
  | _ => simp [check] at this

theorem boolean (h : Conforms .boolean value) : ∃ b, value = .bool b := by
  have := h ""
  cases value with
  | bool b => exact ⟨b, rfl⟩
  | _ => simp [check] at this

/-- A property of a conforming value is absent or conforms to its schema. -/
theorem property {schema child : TemplateInputSchema} {name : String} (h : Conforms schema value)
    (hc : schema.property? name = some child) :
    Absent (value.get? name) ∨ ∃ entry, value.get? name = some entry ∧ Conforms child entry := by
  cases schema with
  | object properties required =>
    obtain ⟨fields, rfl, hf⟩ := h.object
    simp only [Json.get?]
    rcases he : fields.lookup name with _ | entry
    · exact .inl (.inl rfl)
    · rcases checkProperties_lookup hf hc he with rfl | hcon
      · exact .inl (.inr rfl)
      · exact .inr ⟨entry, rfl, hcon⟩
  | _ => simp [TemplateInputSchema.property?] at hc

end Conforms

theorem walkValue_cons (value : Json) (name : String) (segments : List String) :
    walkValue value (name :: segments) = (value.get? name).bind (walkValue · segments) := by
  cases value with
  | obj fields =>
    rw [walkValue, Json.get?]
    rcases fields.lookup name with _ | entry <;> rfl
  | _ => rfl

/-- What a path finds below a conforming value is absent or conforms to what the
schema says there. -/
theorem Conforms.walk {schema : TemplateInputSchema} {value : Json}
    (h : Conforms schema value) (hw : schema.walk segments = some found) :
    Absent (walkValue value segments) ∨
      ∃ v, walkValue value segments = some v ∧ Conforms found v := by
  induction segments generalizing schema value with
  | nil =>
    rw [TemplateInputSchema.walk, Option.some_inj] at hw
    subst hw
    exact .inr ⟨value, by rw [walkValue], h⟩
  | cons name segments ih =>
    rw [TemplateInputSchema.walk] at hw
    rcases hc : schema.property? name with _ | child
    · simp [hc] at hw
    rw [hc] at hw
    rw [walkValue_cons]
    rcases h.property hc with (hnone | hn) | ⟨entry, he, hcon⟩
    · exact .inl (.inl (by rw [hnone, Option.bind_none]))
    · rw [hn, Option.bind_some]
      cases segments with
      | nil => exact .inl (.inr rfl)
      | cons next segments => exact .inl (.inl rfl)
    · rw [he, Option.bind_some]
      exact ih hcon hw

/-! ### Values that agree -/

theorem declaredProperties_lookup (properties : List (String × TemplateInputSchema))
    (fields : List (String × Json)) (name : String) :
    (declaredProperties properties fields).lookup name =
      (properties.lookup name).bind fun child => (fields.lookup name).map (declaredPart child) := by
  induction properties with
  | nil => rfl
  | cons property properties ih =>
    obtain ⟨key, schema⟩ := property
    rw [declaredProperties, List.lookup_cons]
    by_cases hk : name = key
    · subst hk
      rcases he : fields.lookup name with _ | entry
      · simp [ih, he]
      · simp
    · have hne : (name == key) = false := by simpa using hk
      rcases fields.lookup key with _ | entry
      · simp [ih, hne]
      · simp [List.lookup_cons, ih, hne]

namespace Agree

variable {a b : Json}

/-- Below agreeing values a declared property is absent from both, or agrees. -/
theorem property {schema child : TemplateInputSchema} {name : String} (h : Agree schema a b)
    (hc : schema.property? name = some child) :
    (a.get? name).map (declaredPart child) = (b.get? name).map (declaredPart child) := by
  cases schema with
  | object properties required =>
    rw [TemplateInputSchema.property?] at hc
    rw [Agree] at h
    cases a <;> cases b <;> simp [declaredPart] at h <;> try rfl
    next fields fields' =>
      have hl := congrArg (List.lookup name) h
      rw [declaredProperties_lookup, declaredProperties_lookup, hc] at hl
      exact hl
  | _ => simp [TemplateInputSchema.property?] at hc

theorem walk {schema found : TemplateInputSchema} {segments : List String} (h : Agree schema a b)
    (hw : schema.walk segments = some found) :
    (walkValue a segments).map (declaredPart found) =
      (walkValue b segments).map (declaredPart found) := by
  induction segments generalizing schema a b with
  | nil =>
    rw [TemplateInputSchema.walk, Option.some_inj] at hw
    subst hw
    rw [walkValue, walkValue, Option.map_some, Option.map_some, h]
  | cons name segments ih =>
    rw [TemplateInputSchema.walk] at hw
    rcases hc : schema.property? name with _ | child
    · simp [hc] at hw
    rw [hc] at hw
    have hp := h.property hc
    rw [walkValue_cons, walkValue_cons]
    rcases ha : a.get? name with _ | va <;> rcases hb : b.get? name with _ | vb <;>
      rw [ha, hb] at hp
    · cases hp
    · cases hp
    · exact ih (Option.some.inj hp) hw

/-- Agreeing lists have items that agree one by one. -/
theorem array {items : TemplateInputSchema} {values : List Json}
    (h : Agree (.array items) (.arr values) b) :
    ∃ values', b = .arr values' ∧ values.length = values'.length ∧
      ∀ (i : ℕ) (v w : Json), values[i]? = some v → values'[i]? = some w → Agree items v w := by
  cases b with
  | arr values' =>
    simp only [Agree, declaredPart, Json.arr.injEq] at h
    have hl := congrArg List.length h
    rw [List.length_map, List.length_map] at hl
    refine ⟨values', rfl, hl, fun i v w hv hw => ?_⟩
    have hat := congrArg (·[i]?) h
    simpa [Agree, hv, hw] using hat
  | _ => simp [Agree, declaredPart] at h

end Agree

/-! ### Shadowing -/

/-- A scope of the check together with a scope of the evaluation. -/
structure LinkedScope where
  schema : SchemaScope
  scope : Scope

/-- No name is shadowed where a path is looked up: every item inside the scope
that declares the name lacks it, and where that scope lacks it, so does every
scope outside. -/
def unshadowed : TemplatePath → List LinkedScope → Bool
  | .fromThis _, _ => true
  | .name _ _, [] => true
  | .name head segments, link :: chain =>
    if (link.schema.schema.property? head).isSome then
      hasOwn link.scope.value head || chain.all fun outer => !hasOwn outer.scope.value head
    else !hasOwn link.scope.value head && unshadowed (.name head segments) chain

theorem resolvePath_eq_none {head : String} {scopes : List Scope}
    (h : ∀ scope ∈ scopes, hasOwn scope.value head = false) :
    resolvePath (.name head segments) scopes = none := by
  induction scopes with
  | nil => rw [resolvePath]
  | cons scope scopes ih =>
    rw [resolvePath, h scope List.mem_cons_self, if_neg Bool.false_ne_true]
    exact ih fun s hs => h s (List.mem_cons_of_mem _ hs)

theorem walkValue_of_not_hasOwn {value : Json} {head : String} (segments : List String)
    (h : hasOwn value head = false) : walkValue value (head :: segments) = none := by
  rw [walkValue_cons]
  rw [hasOwn, Option.isSome_eq_false_iff, Option.isNone_iff_eq_none] at h
  rw [h, Option.bind_none]

/-- A reading of the template: the schema of the value a path finds. -/
abbrev Reading := TemplatePath → List LinkedScope → Option TemplateInputSchema

/-- The reading of the check. -/
def checkedSchema : Reading :=
  fun path chain => schemaOfPath path (chain.map (·.schema))

/-- The reading of the evaluation: the schema of the path in the scope that holds
its name. -/
def heldSchema : Reading
  | .fromThis segments, chain => chain.head?.bind (·.schema.schema.walk segments)
  | .name _ _, [] => none
  | .name head segments, link :: chain =>
    if hasOwn link.scope.value head then link.schema.schema.walk (head :: segments)
    else heldSchema (.name head segments) chain

/-- The scope that holds the name of a path declares the path, unless no scope
holds it. -/
def declared : TemplatePath → List LinkedScope → Bool
  | .fromThis segments, chain => chain.head?.all fun link => (link.schema.schema.walk segments).isSome
  | .name _ _, [] => true
  | .name head segments, link :: chain =>
    if hasOwn link.scope.value head then (link.schema.schema.walk (head :: segments)).isSome
    else declared (.name head segments) chain

/-- **Where no name is shadowed both sides meet in one scope.** -/
theorem exists_scope {chain : List LinkedScope}
    (hs : checkedSchema path chain = some found) (h : unshadowed path chain = true) :
    ∃ link ∈ chain, ∃ segments, link.schema.schema.walk segments = some found ∧
      resolvePath path (chain.map (·.scope)) = walkValue link.scope.value segments := by
  rw [checkedSchema] at hs
  cases path with
  | fromThis segments =>
    cases chain with
    | nil => simp [schemaOfPath] at hs
    | cons link chain => exact ⟨link, List.mem_cons_self, segments, hs, rfl⟩
  | name head segments =>
    induction chain with
    | nil => simp [schemaOfPath] at hs
    | cons link chain ih =>
      rw [List.map_cons, schemaOfPath] at hs
      rw [unshadowed] at h
      rw [List.map_cons, resolvePath]
      by_cases hd : (link.schema.schema.property? head).isSome = true
      · rw [if_pos hd] at hs h
        refine ⟨link, List.mem_cons_self, head :: segments, hs, ?_⟩
        by_cases hown : hasOwn link.scope.value head = true
        · rw [if_pos hown]
        · rw [if_neg hown, walkValue_of_not_hasOwn segments (by simpa using hown)]
          refine resolvePath_eq_none fun scope hsco => ?_
          obtain ⟨outer, ho, rfl⟩ := List.mem_map.1 hsco
          have ha := (Bool.or_eq_true_iff.1 h).resolve_left hown
          simpa using List.all_eq_true.1 ha outer ho
      · rw [if_neg hd] at hs h
        rw [Bool.and_eq_true, Bool.not_eq_true'] at h
        obtain ⟨outer, ho, names, hw, hr⟩ := ih hs h.2
        rw [if_neg (by simp [h.1])]
        exact ⟨outer, List.mem_cons_of_mem _ ho, names, hw, hr⟩

/-! ### What the evaluation reaches -/

/-- What an expression is looked up for. -/
inductive Role where
  | print (formatter : Option TemplateFormatter)
  | currency
  | list
  | condition
deriving DecidableEq

/-- An expression the evaluation looks up, with the scopes around it. -/
structure Occurrence where
  expression : TemplateExpression
  role : Role
  chain : List LinkedScope

/-- No name is shadowed where the expression is looked up. -/
def Occurrence.unshadowed (occurrence : Occurrence) : Bool :=
  match occurrence.expression with
  | .path path => Documents.unshadowed path occurrence.chain
  | _ => true

/-- What is found at the occurrence, if anything, is declared where it is found. -/
def Occurrence.declared (occurrence : Occurrence) : Bool :=
  match occurrence.expression with
  | .path path => Documents.declared path occurrence.chain
  | _ => true

/-- What `resolve` finds at an occurrence. -/
def Occurrence.value (occurrence : Occurrence) : Option Json :=
  resolve occurrence.expression (occurrence.chain.map (·.scope))

/-- What `schemaOfExpression` assigns to an occurrence. -/
def Occurrence.schema (occurrence : Occurrence) : Option ExpressionSchema :=
  schemaOfExpression occurrence.expression (occurrence.chain.map (·.schema))

/-- The occurrence of the path of a list. -/
def listOccurrence (path : TemplatePath) (chain : List LinkedScope) : Occurrence :=
  { expression := .path path, role := .list, chain }

/-- The occurrence of the path of a condition. -/
def conditionOccurrence (path : TemplatePath) (chain : List LinkedScope) : Occurrence :=
  { expression := .path path, role := .condition, chain }

/-- The expressions of a placeholder: its value and the currency of its
formatter. -/
def placeholderOccurrences (chain : List LinkedScope) (node : TemplatePlaceholder) :
    List Occurrence :=
  { expression := node.value, role := .print node.formatter, chain } ::
    match node.formatter with
    | some (.money (.value currency)) => [{ expression := .path currency, role := .currency, chain }]
    | _ => []

/-- The placeholders of text and placeholders. -/
def codePlaceholders (nodes : List TemplateCodeChild) : List TemplatePlaceholder :=
  nodes.flatMap fun
    | .text _ => []
    | .placeholder node => [node]

mutual

/-- The placeholders of an inline node. -/
def inlinePlaceholders : TemplateInline → List TemplatePlaceholder
  | .leaf child => codePlaceholders [child]
  | .strong children => linePlaceholders children
  | .emphasis children => linePlaceholders children
  | .code children => codePlaceholders children
  | .link children url => linePlaceholders children ++ codePlaceholders url
  | .break => []

/-- The placeholders of a line. -/
def linePlaceholders : List TemplateInline → List TemplatePlaceholder
  | [] => []
  | node :: nodes => inlinePlaceholders node ++ linePlaceholders nodes

end

/-- The occurrences of a line. -/
def lineOccurrences (chain : List LinkedScope) (line : List TemplateInline) : List Occurrence :=
  (linePlaceholders line).flatMap (placeholderOccurrences chain)

/-- The scope of an item of a list. -/
def itemLink (items : TemplateInputSchema) (value : Json) (index : ℕ) : LinkedScope :=
  { schema := { schema := items, item := true }, scope := { value, index := some index } }

/-- The scopes inside a list: one chain for each item. -/
def itemChains (reading : Reading) (path : TemplatePath) (chain : List LinkedScope) :
    List (List LinkedScope) :=
  match reading path chain, resolvePath path (chain.map (·.scope)) with
  | some (.array items), some (.arr values) =>
    values.zipIdx.map fun (value, index) => itemLink items value index :: chain
  | _, _ => []

theorem mem_itemChains {reading : Reading} {chain : List LinkedScope}
    {items : TemplateInputSchema} {values : List Json} {i : ℕ} {v : Json}
    (hr : reading path chain = some (.array items))
    (hres : resolvePath path (chain.map (·.scope)) = some (.arr values))
    (hv : values[i]? = some v) : itemLink items v i :: chain ∈ itemChains reading path chain := by
  rw [itemChains, hr, hres]
  exact List.mem_map.2 ⟨(v, i), List.mem_zipIdx_iff_getElem?.2 hv, rfl⟩

section

variable (reading : Reading) (all : Bool)

mutual

/-- The occurrences of a table row; of a condition, those of the branch taken or,
with `all`, of both. -/
def rowOccurrences : TemplateRow → List LinkedScope → List Occurrence
  | .row cells _, chain => cells.flatMap (lineOccurrences chain)
  | .each path children _, chain =>
    listOccurrence path chain ::
      (itemChains reading path chain).flatMap fun inner => rowsOccurrences children inner
  | .if path thn otherwise _, chain =>
    let taken := truthy (resolvePath path (chain.map (·.scope)))
    conditionOccurrence path chain :: ((if all || taken then rowsOccurrences thn chain else []) ++
        if all || !taken then rowsOccurrences otherwise chain else [])

/-- The occurrences of table rows. -/
def rowsOccurrences : List TemplateRow → List LinkedScope → List Occurrence
  | [], _ => []
  | row :: rows, chain => rowOccurrences row chain ++ rowsOccurrences rows chain

end

/-- The lines of a list. -/
def listLines (list : TemplateList) : List (List TemplateInline) :=
  list.items.flatMap fun item => item.content :: item.sublist.elim [] (·.items)

mutual

/-- The occurrences of a block; of a condition, those of the branch taken or, with
`all`, of both. -/
def blockOccurrences : TemplateBlock → List LinkedScope → List Occurrence
  | .heading _ content _, chain => lineOccurrences chain content
  | .paragraph content _, chain => lineOccurrences chain content
  | .list list _, chain => (listLines list).flatMap (lineOccurrences chain)
  | .quote paragraphs _, chain => paragraphs.flatMap (lineOccurrences chain)
  | .rule _, _ => []
  | .pagebreak _, _ => []
  | .table _ header rows _, chain =>
    header.flatMap (lineOccurrences chain) ++ rowsOccurrences reading all rows chain
  | .each path children _, chain =>
    listOccurrence path chain ::
      (itemChains reading path chain).flatMap fun inner => blocksOccurrences children inner
  | .if path thn otherwise _, chain =>
    let taken := truthy (resolvePath path (chain.map (·.scope)))
    conditionOccurrence path chain ::
      ((if all || taken then blocksOccurrences thn chain else []) ++
        if all || !taken then blocksOccurrences otherwise chain else [])

/-- The occurrences of blocks. -/
def blocksOccurrences : List TemplateBlock → List LinkedScope → List Occurrence
  | [], _ => []
  | block :: blocks, chain => blockOccurrences block chain ++ blocksOccurrences blocks chain

end

end

/-- The scopes around the whole template. -/
def rootChain (schema : TemplateInputSchema) (input : Json) : List LinkedScope :=
  [{ schema := { schema, item := false }, scope := { value := input, index := none } }]

/-- The title and the margins of a template. -/
def CompiledTemplate.lines (template : CompiledTemplate) : List TemplateCodeChild :=
  template.title ++ template.header.getD [] ++ template.footer.getD []

/-- The occurrences of a template on an input: the expressions the evaluation
looks up in every iteration of every list, or, with `all`, those of the branches
it does not take as well.  The schemas of the items are those of the reading. -/
def occurrences (reading : Reading) (all : Bool) (template : CompiledTemplate)
    (schema : TemplateInputSchema) (input : Json) : List Occurrence :=
  blocksOccurrences reading all template.blocks (rootChain schema input) ++
    (codePlaceholders template.lines).flatMap (placeholderOccurrences (rootChain schema input))

end Flowdular.Documents
