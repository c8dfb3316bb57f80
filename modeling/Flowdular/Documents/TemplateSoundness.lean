/-
# What an accepted template reads

A template the check accepts, evaluated on an input the validation accepts and on
which no name it looks up is shadowed, finds an absent value or one of the
declared schema at every placeholder, list and condition (`occurrences_sound`), so
it fails on its limits and on values a formatter refuses by their content alone
(`Occurrence.Refuses`).
-/

import Flowdular.Documents.TemplateWalk

namespace Flowdular.Documents

open Workflows (Json Decimal)

/-! ### What the check has found -/

theorem listIssues_eq_nil {added : List TemplateIssue} (h : listIssues added = []) : added = [] := by
  rcases added with _ | ⟨issue, added⟩
  · rfl
  have hne : ∀ (later found : List TemplateIssue), found ≠ [] → later.foldl addIssue found ≠ [] := by
    intro later
    induction later with
    | nil => exact fun _ h => h
    | cons next later ih =>
      intro found hf
      refine ih _ ?_
      unfold addIssue
      split
      · exact hf
      · simp
  exact absurd h (hne added _ (by simp [addIssue, maxIssues]))

variable {field : TemplateField} {scopes : List SchemaScope} {line : ℕ}
  {checkInner : List SchemaScope → List TemplateIssue} {path : TemplatePath}
  {found schema : TemplateInputSchema} {template : CompiledTemplate} {input : Json}

/-- What an accepted placeholder reads. -/
theorem checkPlaceholder_eq_nil {node : TemplatePlaceholder}
    (h : checkPlaceholder field node scopes = []) :
    ∃ schema, schemaOfExpression node.value scopes = some schema ∧ match node.formatter with
      | some formatter => schema.type ∈ formatter.types ∧
          checkCurrency field node.line scopes formatter = []
      | none => schema.type ≠ "object" ∧ schema.type ≠ "array" := by
  unfold checkPlaceholder at h
  simp only at h
  split at h
  · cases h
  rcases hs : schemaOfExpression node.value scopes with _ | schema
  · simp [hs] at h
  refine ⟨schema, rfl, ?_⟩
  rw [hs] at h
  simp only at h
  rcases hf : node.formatter with _ | formatter
  · rw [hf] at h
    simp only at h ⊢
    split at h
    · cases h
    · next hsca => exact not_or.1 hsca
  · rw [hf, List.append_eq_nil_iff] at h
    refine ⟨?_, h.2⟩
    by_contra hm
    simp [hm] at h

theorem checkCurrency_eq_nil {currency : TemplatePath}
    (h : checkCurrency field line scopes (.money (.value currency)) = []) :
    ∃ maxLength enum, schemaOfPath currency scopes = some (.string maxLength enum) := by
  rw [checkCurrency] at h
  rcases hs : schemaOfPath currency scopes with _ | schema
  · simp [hs] at h
  rw [hs] at h
  cases schema with
  | string maxLength enum => exact ⟨maxLength, enum, rfl⟩
  | _ => simp [TemplateInputSchema.type] at h

theorem checkCodeChildren_eq (field : TemplateField) (scopes : List SchemaScope)
    (nodes : List TemplateCodeChild) :
    checkCodeChildren field scopes nodes =
      (codePlaceholders nodes).flatMap fun node => checkPlaceholder field node scopes := by
  induction nodes with
  | nil => rfl
  | cons node nodes ih =>
    have hs : ∀ ns : List TemplateCodeChild, checkCodeChildren field scopes (node :: ns) =
        checkCodeChildren field scopes [node] ++ checkCodeChildren field scopes ns := by
      intro ns
      simp [checkCodeChildren]
    rw [hs, ih]
    cases node <;> simp [checkCodeChildren, codePlaceholders]

mutual

theorem checkInline_eq (field : TemplateField) (scopes : List SchemaScope) :
    ∀ node : TemplateInline, checkInline field scopes node =
      (inlinePlaceholders node).flatMap fun node => checkPlaceholder field node scopes
  | .leaf child => by rw [checkInline, inlinePlaceholders, checkCodeChildren_eq]
  | .strong children => by rw [checkInline, inlinePlaceholders, checkInlines_eq]
  | .emphasis children => by rw [checkInline, inlinePlaceholders, checkInlines_eq]
  | .code children => by rw [checkInline, inlinePlaceholders, checkCodeChildren_eq]
  | .link children url => by
    rw [checkInline, inlinePlaceholders, checkInlines_eq, checkCodeChildren_eq, List.flatMap_append]
  | .break => by rw [checkInline, inlinePlaceholders, List.flatMap_nil]

theorem checkInlines_eq (field : TemplateField) (scopes : List SchemaScope) :
    ∀ nodes : List TemplateInline, checkInlines field scopes nodes =
      (linePlaceholders nodes).flatMap fun node => checkPlaceholder field node scopes
  | [] => by rw [checkInlines, linePlaceholders, List.flatMap_nil]
  | node :: nodes => by
    rw [checkInlines, linePlaceholders, checkInline_eq, checkInlines_eq, List.flatMap_append]

end

/-- A list the check accepts is one, and its body is accepted inside. -/
theorem itemScope_eq_ok (h : (match itemScope path line scopes with
      | .ok inner => checkInner inner
      | .error issue => [issue]) = []) :
    ∃ items, schemaOfPath path scopes = some (.array items) ∧
      checkInner ({ schema := items, item := true } :: scopes) = [] := by
  unfold itemScope at h
  rcases hs : schemaOfPath path scopes with _ | schema
  · simp [hs] at h
  rw [hs] at h
  cases schema with
  | array items => exact ⟨items, rfl, h⟩
  | _ => simp at h

theorem checkCondition_eq_nil
    (h : checkCondition path line scopes = []) : ∃ schema, schemaOfPath path scopes = some schema := by
  unfold checkCondition at h
  split at h
  · cases h
  · next schema hs => exact ⟨schema, hs⟩

/-! ### Values found at an occurrence -/

/-- A value an expression of a schema may have. -/
def ExpressionSchema.Admits : ExpressionSchema → Json → Prop
  | .counter, value => ∃ n, value = .num n
  | .schema declared, value => Conforms declared value

/-- A schema whose values can be used in a role. -/
def Role.Takes : Role → ExpressionSchema → Prop
  | .print none, schema => schema.type ≠ "object" ∧ schema.type ≠ "array"
  | .print (some formatter), schema => schema.type ∈ formatter.types
  | .currency, schema => schema.type = "string"
  | .list, schema => schema.type = "array"
  | .condition, _ => True

/-- The check assigned a schema the role takes, and what is found is absent or of
that schema. -/
def Occurrence.Sound (occurrence : Occurrence) : Prop :=
  ∃ schema, occurrence.schema = some schema ∧ occurrence.role.Takes schema ∧
    (Absent occurrence.value ∨ ∃ v, occurrence.value = some v ∧ schema.Admits v)

/-- The values of a chain of scopes conform to its schemas. -/
def SoundChain (chain : List LinkedScope) : Prop :=
  ∀ link ∈ chain, Conforms link.schema.schema link.scope.value

theorem resolvePath_conforms {chain : List LinkedScope} (hc : SoundChain chain)
    (hs : checkedSchema path chain = some found) (h : unshadowed path chain = true) :
    Absent (resolvePath path (chain.map (·.scope))) ∨
      ∃ v, resolvePath path (chain.map (·.scope)) = some v ∧ Conforms found v := by
  obtain ⟨link, hl, segments, hw, hr⟩ := exists_scope hs h
  rw [hr]
  exact (hc link hl).walk hw

theorem resolve_counter (expression : TemplateExpression) (scopes : List Scope)
    (h : ∀ path, expression ≠ .path path) :
    Absent (resolve expression scopes) ∨
      ∃ v, resolve expression scopes = some v ∧ ExpressionSchema.counter.Admits v := by
  have hc : ∀ count : Option ℕ, Absent (some (counterValue count)) ∨
      ∃ v, some (counterValue count) = some v ∧ ExpressionSchema.counter.Admits v := by
    rintro (_ | n)
    · exact .inl (.inr rfl)
    · exact .inr ⟨_, rfl, _, rfl⟩
  cases expression with
  | path path => exact absurd rfl (h path)
  | index => exact hc _
  | number => exact hc _
  | page => exact .inl (.inr rfl)
  | pages => exact .inl (.inr rfl)

/-- An expression the check knows, looked up where it is not shadowed. -/
theorem resolve_admits {expression : TemplateExpression} {chain : List LinkedScope}
    {schema : ExpressionSchema} (hc : SoundChain chain)
    (hs : schemaOfExpression expression (chain.map (·.schema)) = some schema)
    (h : ∀ path, expression = .path path → unshadowed path chain = true) :
    Absent (resolve expression (chain.map (·.scope))) ∨
      ∃ v, resolve expression (chain.map (·.scope)) = some v ∧ schema.Admits v := by
  cases expression with
  | path path =>
    rw [schemaOfExpression, Option.map_eq_some_iff] at hs
    obtain ⟨found, hf, rfl⟩ := hs
    exact resolvePath_conforms hc hf (h path rfl)
  | _ =>
    obtain rfl := Option.some.inj hs
    exact resolve_counter _ _ nofun

/-- An expression looked up where it is not shadowed, in a role that takes its
schema. -/
theorem Occurrence.Sound.of_unshadowed {o : Occurrence} {schema : ExpressionSchema}
    (hc : SoundChain o.chain) (hs : o.schema = some schema) (hr : o.role.Takes schema)
    (h : o.unshadowed = true) : o.Sound := by
  refine ⟨schema, hs, hr, resolve_admits hc hs fun path hp => ?_⟩
  rwa [Occurrence.unshadowed, hp] at h

theorem schemaOfExpression_path {chain : List LinkedScope}
    (h : checkedSchema path chain = some found) :
    schemaOfExpression (.path path) (chain.map (·.schema)) = some (.schema found) := by
  have hf : schemaOfPath path (chain.map (·.schema)) = some found := h
  rw [schemaOfExpression, hf]
  rfl

/-- Where none of the occurrences looks up a shadowed name all of them are sound. -/
def AllSound (found : List Occurrence) : Prop :=
  (∀ o ∈ found, o.unshadowed = true) → ∀ o ∈ found, o.Sound

namespace AllSound

theorem nil : AllSound [] :=
  fun _ _ ho => nomatch ho

variable {found later : List Occurrence}

theorem append (h : AllSound found) (h' : AllSound later) : AllSound (found ++ later) := by
  intro hun
  obtain ⟨hf, hl⟩ := List.forall_mem_append.1 hun
  exact List.forall_mem_append.2 ⟨h hf, h' hl⟩

theorem flatMap {α : Type} {xs : List α} {occurrences : α → List Occurrence}
    (h : ∀ x ∈ xs, AllSound (occurrences x)) : AllSound (xs.flatMap occurrences) := by
  intro hun o ho
  obtain ⟨x, hx, ho⟩ := List.mem_flatMap.1 ho
  exact h x hx (fun o' ho' => hun o' (List.mem_flatMap.2 ⟨x, hx, ho'⟩)) o ho

/-- An occurrence first, and then those that rest on what it finds. -/
theorem cons {o : Occurrence}
    (h : o.unshadowed = true → o.Sound ∧ AllSound later) : AllSound (o :: later) := by
  intro hun
  obtain ⟨ho, hl⟩ := List.forall_mem_cons.1 hun
  exact List.forall_mem_cons.2 ⟨(h ho).1, (h ho).2 hl⟩

theorem ite {c : Bool} (h : AllSound found) : AllSound (if c then found else []) := by
  cases c
  · exact nil
  · exact h

end AllSound

theorem placeholder_sound {node : TemplatePlaceholder}
    {chain : List LinkedScope} (hc : SoundChain chain)
    (hche : checkPlaceholder field node (chain.map (·.schema)) = []) :
    AllSound (placeholderOccurrences chain node) := by
  obtain ⟨schema, hs, hfor⟩ := checkPlaceholder_eq_nil hche
  have hr : (Role.print node.formatter).Takes schema := by
    rcases hf : node.formatter with _ | formatter
    · rwa [hf] at hfor
    · rw [hf] at hfor
      exact hfor.1
  refine .cons fun hun => ⟨.of_unshadowed hc hs hr hun, ?_⟩
  split
  · next currency hm =>
    rw [hm] at hfor
    obtain ⟨maxLength, enum, hcur⟩ := checkCurrency_eq_nil hfor.2
    refine .cons fun hun => ⟨.of_unshadowed hc (schemaOfExpression_path hcur) ?_ hun, .nil⟩
    rfl
  · exact .nil

theorem placeholders_sound {nodes : List TemplatePlaceholder}
    {chain : List LinkedScope} (hc : SoundChain chain)
    (hche : (nodes.flatMap fun node => checkPlaceholder field node (chain.map (·.schema))) = []) :
    AllSound (nodes.flatMap (placeholderOccurrences chain)) :=
  .flatMap fun node hn =>
    placeholder_sound hc (List.flatMap_eq_nil_iff.1 hche node hn)

theorem lines_sound {lines : List (List TemplateInline)} {chain : List LinkedScope}
    (hc : SoundChain chain)
    (hche : lines.flatMap (checkInlines .body (chain.map (·.schema))) = []) :
    AllSound (lines.flatMap (lineOccurrences chain)) := by
  refine .flatMap fun line hl => ?_
  have hcheckLine := List.flatMap_eq_nil_iff.1 hche line hl
  rw [checkInlines_eq] at hcheckLine
  exact placeholders_sound hc hcheckLine

theorem line_sound {line : List TemplateInline} {chain : List LinkedScope}
    (hcha : SoundChain chain)
    (hc : checkInlines .body (chain.map (·.schema)) line = []) :
    AllSound (lineOccurrences chain line) := by
  rw [checkInlines_eq] at hc
  exact placeholders_sound hcha hc

theorem checkList_eq (scopes : List SchemaScope) (list : TemplateList) :
    checkList scopes list = (listLines list).flatMap (checkInlines .body scopes) := by
  rw [checkList, listLines, List.flatMap_assoc]
  rfl

/-- The scopes inside a list that is read where the check read it. -/
theorem itemChains_sound {chain : List LinkedScope}
    {items : TemplateInputSchema} (hc : SoundChain chain)
    (hs : checkedSchema path chain = some (.array items))
    (h : unshadowed path chain = true) {inner : List LinkedScope}
    (hi : inner ∈ itemChains checkedSchema path chain) :
    SoundChain inner ∧
      inner.map (·.schema) = { schema := items, item := true } :: chain.map (·.schema) := by
  rw [itemChains, hs] at hi
  rcases hr : resolvePath path (chain.map (·.scope)) with _ | value
  · simp [hr] at hi
  rw [hr] at hi
  rcases resolvePath_conforms hc hs h with ha | ⟨v, hv, hcon⟩
  · rw [hr] at ha
    rcases ha with ha | ha
    · cases ha
    · rw [Option.some_inj] at ha
      subst ha
      simp at hi
  rw [hr, Option.some_inj] at hv
  subst hv
  obtain ⟨values, rfl, hval⟩ := hcon.array
  obtain ⟨⟨v, index⟩, hm, rfl⟩ := List.mem_map.1 hi
  refine ⟨?_, rfl⟩
  rintro link hl
  rcases List.mem_cons.1 hl with rfl | hl
  · exact hval v (List.mem_of_getElem? (List.mem_zipIdx_iff_getElem?.1 hm))
  · exact hc link hl

/-- A list: its path first, and its body in the scopes of every item. -/
theorem each_sound {chain : List LinkedScope}
    {inside : List LinkedScope → List Occurrence} (hc : SoundChain chain)
    (hche : (match itemScope path line (chain.map (·.schema)) with
      | .ok inner => checkInner inner
      | .error issue => [issue]) = [])
    (hi : ∀ inner, SoundChain inner → checkInner (inner.map (·.schema)) = [] →
      AllSound (inside inner)) :
    AllSound (listOccurrence path chain ::
      (itemChains checkedSchema path chain).flatMap inside) := by
  obtain ⟨items, hs, hinn⟩ := itemScope_eq_ok hche
  refine .cons fun hun => ⟨.of_unshadowed hc (schemaOfExpression_path hs) rfl hun, ?_⟩
  refine .flatMap fun inner hm => ?_
  obtain ⟨hsou, hsco⟩ := itemChains_sound hc hs hun hm
  exact hi inner hsou (by rw [hsco]; exact hinn)

/-- A condition: its path first, and the branches in the same scopes. -/
theorem condition_sound {chain : List LinkedScope} {c c' : Bool}
    {thn otherwise : List Occurrence} (hc : SoundChain chain)
    (hche : checkCondition path line (chain.map (·.schema)) = [])
    (ht : AllSound thn) (ho : AllSound otherwise) :
    AllSound (conditionOccurrence path chain ::
      ((if c then thn else []) ++ if c' then otherwise else [])) := by
  obtain ⟨schema, hs⟩ := checkCondition_eq_nil hche
  have hp := schemaOfExpression_path hs
  exact .cons fun hun =>
    ⟨.of_unshadowed hc hp trivial hun, ht.ite.append ho.ite⟩

mutual

theorem row_sound (all : Bool) : ∀ (row : TemplateRow) (chain : List LinkedScope),
    SoundChain chain → checkRow (chain.map (·.schema)) row = [] →
      AllSound (rowOccurrences checkedSchema all row chain)
  | .row cells _, chain, hcha, hc => by
    rw [checkRow] at hc
    rw [rowOccurrences]
    exact lines_sound hcha hc
  | .each path children line, chain, hcha, hc => by
    rw [checkRow] at hc
    rw [rowOccurrences]
    exact each_sound hcha hc fun inner hi h => rows_sound all children inner hi h
  | .if path thn otherwise line, chain, hcha, hc => by
    rw [checkRow, List.append_eq_nil_iff, List.append_eq_nil_iff] at hc
    rw [rowOccurrences]
    exact condition_sound hcha hc.1.1 (rows_sound all thn chain hcha hc.1.2)
      (rows_sound all otherwise chain hcha hc.2)

theorem rows_sound (all : Bool) : ∀ (rows : List TemplateRow) (chain : List LinkedScope),
    SoundChain chain → checkRows (chain.map (·.schema)) rows = [] →
      AllSound (rowsOccurrences checkedSchema all rows chain)
  | [], chain, _, _ => by
    rw [rowsOccurrences]
    exact .nil
  | row :: rows, chain, hcha, hc => by
    rw [checkRows, List.append_eq_nil_iff] at hc
    rw [rowsOccurrences]
    exact (row_sound all row chain hcha hc.1).append (rows_sound all rows chain hcha hc.2)

end

mutual

theorem block_sound (all : Bool) : ∀ (block : TemplateBlock) (chain : List LinkedScope),
    SoundChain chain → checkBlock (chain.map (·.schema)) block = [] →
      AllSound (blockOccurrences checkedSchema all block chain)
  | .heading _ content _, chain, hcha, hc => by
    rw [checkBlock] at hc
    rw [blockOccurrences]
    exact line_sound hcha hc
  | .paragraph content _, chain, hcha, hc => by
    rw [checkBlock] at hc
    rw [blockOccurrences]
    exact line_sound hcha hc
  | .list list _, chain, hcha, hc => by
    rw [checkBlock, checkList_eq] at hc
    rw [blockOccurrences]
    exact lines_sound hcha hc
  | .quote paragraphs _, chain, hcha, hc => by
    rw [checkBlock] at hc
    rw [blockOccurrences]
    exact lines_sound hcha hc
  | .rule _, chain, _, _ => by
    rw [blockOccurrences]
    exact .nil
  | .pagebreak _, chain, _, _ => by
    rw [blockOccurrences]
    exact .nil
  | .table _ header rows _, chain, hcha, hc => by
    rw [checkBlock, List.append_eq_nil_iff] at hc
    rw [blockOccurrences]
    exact (lines_sound hcha hc.1).append (rows_sound all rows chain hcha hc.2)
  | .each path children line, chain, hcha, hc => by
    rw [checkBlock] at hc
    rw [blockOccurrences]
    exact each_sound hcha hc fun inner hi h => blocks_sound all children inner hi h
  | .if path thn otherwise line, chain, hcha, hc => by
    rw [checkBlock, List.append_eq_nil_iff, List.append_eq_nil_iff] at hc
    rw [blockOccurrences]
    exact condition_sound hcha hc.1.1 (blocks_sound all thn chain hcha hc.1.2)
      (blocks_sound all otherwise chain hcha hc.2)

theorem blocks_sound (all : Bool) : ∀ (blocks : List TemplateBlock) (chain : List LinkedScope),
    SoundChain chain → checkBlocks (chain.map (·.schema)) blocks = [] →
      AllSound (blocksOccurrences checkedSchema all blocks chain)
  | [], chain, _, _ => by
    rw [blocksOccurrences]
    exact .nil
  | block :: blocks, chain, hcha, hc => by
    rw [checkBlocks, List.append_eq_nil_iff] at hc
    rw [blocksOccurrences]
    exact (block_sound all block chain hcha hc.1).append
      (blocks_sound all blocks chain hcha hc.2)

end

/-! ### Accepted templates -/

/-- What the check has found of an accepted template: nothing, anywhere. -/
structure Accepted (template : CompiledTemplate) (schema : TemplateInputSchema) : Prop where
  blocks : checkBlocks [{ schema, item := false }] template.blocks = []
  title : checkCodeChildren .title [{ schema, item := false }] template.title = []
  header : checkCodeChildren .header [{ schema, item := false }] (template.header.getD []) = []
  footer : checkCodeChildren .footer [{ schema, item := false }] (template.footer.getD []) = []

theorem compileLine_eq_nil [TemplateParser] {text : Option String}
    (h : (compileLine text field schema).2 = []) :
    checkCodeChildren field [{ schema, item := false }]
      ((compileLine text field schema).1.getD []) = [] := by
  cases text with
  | none => rfl
  | some text =>
    simp only [compileLine] at h ⊢
    rw [List.append_eq_nil_iff] at h
    have hf := h.2
    rw [if_pos h.1, checkTemplateLineFields, List.map_eq_nil_iff] at hf
    exact listIssues_eq_nil hf

theorem accepted_of_compile [TemplateParser] {content : TemplateContent}
    (h : compileTemplate content = .ok template) :
    Accepted template content.inputSchema := by
  unfold compileTemplate at h
  split at h
  · cases h
  simp only at h
  rcases ite_eq_iff.1 h with ⟨hi, h⟩ | ⟨_, h⟩
  · cases h
    simp only [List.append_eq_nil_iff] at hi
    obtain ⟨⟨⟨⟨hp, hb⟩, ht⟩, hh⟩, hf⟩ := hi
    rw [if_pos hp] at hb
    exact { blocks := listIssues_eq_nil hb, title := compileLine_eq_nil ht,
            header := compileLine_eq_nil hh, footer := compileLine_eq_nil hf }
  · cases h

theorem rootChain_sound (h : Conforms schema input) : SoundChain (rootChain schema input) :=
  fun _ hl => by
    obtain rfl := List.mem_singleton.1 hl
    exact h

/-- **What an accepted template finds.**  Where no name is shadowed every value is
absent or of the schema the check assigned, in the branches the evaluation takes
and, with `all`, in the others as well. -/
theorem occurrences_sound (all : Bool) (ha : Accepted template schema)
    (hi : Conforms schema input) : AllSound (occurrences checkedSchema all template schema input) := by
  have hr := rootChain_sound hi
  refine AllSound.append (blocks_sound all template.blocks _ hr ha.blocks) ?_
  have hl : ∀ {field : TemplateField} {nodes : List TemplateCodeChild},
      checkCodeChildren field [{ schema, item := false }] nodes = [] →
        AllSound ((codePlaceholders nodes).flatMap
          (placeholderOccurrences (rootChain schema input))) := by
    intro field nodes h
    rw [checkCodeChildren_eq] at h
    exact placeholders_sound hr h
  simp only [CompiledTemplate.lines, codePlaceholders, List.flatMap_append]
  exact ((hl ha.title).append (hl ha.header)).append (hl ha.footer)

/-! ### Values of the kind a formatter takes -/

namespace ExpressionSchema.Admits

variable {schema : ExpressionSchema} {value : Json}

theorem number (h : schema.Admits value) (ht : schema.type ∈ ["integer", "number"]) :
    ∃ n, value = .num n := by
  cases schema with
  | counter => exact h
  | schema declared =>
    cases declared with
    | number => exact Conforms.number h
    | integer =>
      obtain ⟨n, hn, _⟩ := Conforms.integer h
      exact ⟨n, hn⟩
    | _ => simp [ExpressionSchema.type, TemplateInputSchema.type] at ht

theorem text (h : schema.Admits value) (ht : schema.type = "string") :
    ∃ text, value = .str text := by
  cases schema with
  | counter => simp [ExpressionSchema.type] at ht
  | schema declared =>
    cases declared with
    | string maxLength enum => exact Conforms.string h
    | _ => simp [ExpressionSchema.type, TemplateInputSchema.type] at ht

theorem boolean (h : schema.Admits value) (ht : schema.type = "boolean") :
    ∃ b, value = .bool b := by
  cases schema with
  | counter => simp [ExpressionSchema.type] at ht
  | schema declared =>
    cases declared with
    | boolean => exact Conforms.boolean h
    | _ => simp [ExpressionSchema.type, TemplateInputSchema.type] at ht

/-- A value that is printed is a text, a number or a truth value. -/
theorem scalar (h : schema.Admits value) (ho : schema.type ≠ "object")
    (ha : schema.type ≠ "array") :
    (∃ text, value = .str text) ∨ (∃ n, value = .num n) ∨ ∃ b, value = .bool b := by
  cases schema with
  | counter => exact .inr (.inl h)
  | schema declared =>
    cases declared with
    | object properties required => exact absurd rfl ho
    | array items => exact absurd rfl ha
    | string maxLength enum => exact .inl (Conforms.string h)
    | number => exact .inr (.inl (Conforms.number h))
    | integer =>
      obtain ⟨n, hn, _⟩ := Conforms.integer h
      exact .inr (.inl ⟨n, hn⟩)
    | boolean => exact .inr (.inr (Conforms.boolean h))

end ExpressionSchema.Admits

/-! ### Failures that are left -/

section

variable [Intl]

/-- How a formatter refuses a value of the kind it takes: an amount that is no
whole number of minor units, a currency that is absent or no code, a text that
is no date, an instant the host has no text for. -/
inductive Occurrence.Refuses (options : EvaluateOptions) (o : Occurrence) (error : RenderError) :
    Prop
  | amount {currency : TemplateArgument} {n : Decimal} (hf : o.role = .print (some (.money currency)))
      (hv : o.value = some (.num n)) (hn : n.isSafeInteger = false)
      (he : error = .valueInvalid (o.expression.describe ++ " must be an amount in minor units."))
  | currency {currency : TemplateArgument} {n : Decimal}
      (hf : o.role = .print (some (.money currency))) (hv : o.value = some (.num n))
      (hc : Absent (argumentValue (o.chain.map (·.scope)) currency) ∨
        ∃ text, argumentValue (o.chain.map (·.scope)) currency = some (.str text) ∧
          currencyCode (some (.str text)) = none)
      (he : error = .valueInvalid
        ("The currency of " ++ o.expression.describe ++ " is not an ISO 4217 code."))
  | date {text : String} (hf : o.role = .print (some .date) ∨ o.role = .print (some .datetime))
      (hv : o.value = some (.str text)) (ht : instant (.str text) = none)
      (he : error = .valueInvalid (o.expression.describe ++ " is not a date."))
  | instant {value : Json} {instant : ℚ} {day : Bool} (time : Bool)
      (hf : o.role = .print (some (if time then .datetime else .date))) (hv : o.value = some value)
      (hi : Documents.instant value = some (instant, day))
      (hd : Intl.date options.locale time (if day then "UTC" else options.timeZone) instant = none)
      (he : error = .rangeError)

/-- The failures of an evaluation whose values are all of their kind. -/
inductive Permitted (options : EvaluateOptions) (found : List Occurrence) (error : RenderError) :
    Prop
  | rowsExceeded (he : error = .rowsExceeded)
  | outputTooLarge (he : error = .outputTooLarge)
  | refused {o : Occurrence} (ho : o ∈ found) (h : o.Refuses options error)

section

variable {options : EvaluateOptions} {found : List Occurrence}

variable {schema : ExpressionSchema} {o : Occurrence}

theorem plainText_alike {value : Option Json} {expression : TemplateExpression}
    (hval : Absent value ∨ ∃ v, value = some v ∧ schema.Admits v)
    (ho : schema.type ≠ "object") (ha : schema.type ≠ "array") :
    Alike (Permitted options found) (plainText value expression) (plainText value expression) := by
  rcases hval with (rfl | rfl) | ⟨v, rfl, hv⟩
  · exact .pure _
  · exact .pure _
  · rcases hv.scalar ho ha with ⟨text, rfl⟩ | ⟨n, rfl⟩ | ⟨b, rfl⟩ <;> exact .pure _

theorem formatDate_alike {value : Json} (time : Bool) (ho : o ∈ found)
    (hf : o.role = .print (some (if time then .datetime else .date))) (hv : o.value = some value)
    (hk : (∃ text, value = .str text) ∨ ∃ n, value = .num n) :
    Alike (Permitted options found) (formatDate options time value o.expression.describe)
      (formatDate options time value o.expression.describe) := by
  unfold formatDate
  rcases hi : instant value with _ | ⟨at', day⟩
  · rcases hk with ⟨text, rfl⟩ | ⟨n, rfl⟩
    · refine .throw (.refused ho (.date ?_ hv hi rfl))
      cases time
      · exact .inl hf
      · exact .inr hf
    · simp [instant] at hi
  · simp only
    rcases hd : Intl.date options.locale time (if day then "UTC" else options.timeZone) at'
      with _ | text
    · exact .throw (.refused ho (.instant time hf hv hi hd rfl))
    · exact .pure _

theorem applyFormatter_alike {formatter : TemplateFormatter}
    (ho : o ∈ found) (hf : o.role = .print (some formatter))
    (hval : Absent o.value ∨ ∃ v, o.value = some v ∧ schema.Admits v)
    (htype : schema.type ∈ formatter.types)
    (hcur : ∀ currency, formatter = .money currency →
      Absent (argumentValue (o.chain.map (·.scope)) currency) ∨
        ∃ text, argumentValue (o.chain.map (·.scope)) currency = some (.str text)) :
    Alike (Permitted options found)
      (applyFormatter options formatter o.value o.expression.describe (o.chain.map (·.scope)))
      (applyFormatter options formatter o.value o.expression.describe (o.chain.map (·.scope))) := by
  rcases hval with (hnone | hnull) | ⟨v, hv, ha⟩
  · rw [hnone]
    exact .pure _
  · rw [hnull]
    exact .pure _
  have hdat (hd : schema.type ∈ ["string", "integer", "number"]) :
      (∃ text, v = .str text) ∨ ∃ n, v = .num n :=
    (List.mem_cons.1 hd).imp ha.text ha.number
  cases formatter with
  | money currency =>
    obtain ⟨n, rfl⟩ := ha.number htype
    rw [hv]
    simp only [applyFormatter]
    split
    · next hn => exact .throw (.refused ho (.amount hf hv (by simpa using hn) rfl))
    · split
      · next hc =>
        refine .throw (.refused ho (.currency hf hv ?_ rfl))
        rcases hcur currency rfl with habs | ⟨text, ht⟩
        · exact .inl habs
        · exact .inr ⟨text, ht, by rwa [ht] at hc⟩
      · exact .pure _
  | number digits =>
    obtain ⟨n, rfl⟩ := ha.number htype
    rw [hv]
    exact .pure _
  | date =>
    rw [hv]
    rcases hdat htype with ⟨text, rfl⟩ | ⟨n, rfl⟩
    · exact formatDate_alike false ho hf hv (.inl ⟨text, rfl⟩)
    · exact formatDate_alike false ho hf hv (.inr ⟨n, rfl⟩)
  | datetime =>
    rw [hv]
    rcases hdat htype with ⟨text, rfl⟩ | ⟨n, rfl⟩
    · exact formatDate_alike true ho hf hv (.inl ⟨text, rfl⟩)
    · exact formatDate_alike true ho hf hv (.inr ⟨n, rfl⟩)
  | upper =>
    obtain ⟨text, rfl⟩ := ha.text (List.mem_singleton.1 htype)
    rw [hv]
    exact .pure _
  | yesno =>
    obtain ⟨b, rfl⟩ := ha.boolean (List.mem_singleton.1 htype)
    rw [hv]
    exact .pure _

/-- A placeholder whose values are of their kind fails by their content alone. -/
theorem format_alike (hs : ∀ o ∈ found, o.Sound) {chain : List LinkedScope}
    {node : TemplatePlaceholder} (hm : placeholderOccurrences chain node ⊆ found) :
    Alike (Permitted options found) (format options node (chain.map (·.scope)))
      (format options node (chain.map (·.scope))) := by
  have hp := hm List.mem_cons_self
  obtain ⟨schema, _, ht, hval⟩ := hs _ hp
  unfold format
  rcases hf : node.formatter with _ | formatter
  · rw [hf] at ht
    exact (plainText_alike hval ht.1 ht.2).bind (printed_alike (.outputTooLarge rfl))
  · rw [hf] at ht hp
    refine Alike.bind ?_ (printed_alike (.outputTooLarge rfl))
    refine applyFormatter_alike hp rfl hval ht fun currency hc => ?_
    subst hc
    cases currency with
    | literal text => exact .inr ⟨text, rfl⟩
    | value path =>
      have ha : { expression := .path path, role := .currency, chain } ∈ found := by
        refine hm ?_
        rw [placeholderOccurrences, hf]
        exact List.mem_cons_of_mem _ List.mem_cons_self
      obtain ⟨currency, _, htext, hr⟩ := hs _ ha
      refine hr.imp_right fun ⟨v, hv, hadm⟩ => ?_
      obtain ⟨text, rfl⟩ := hadm.text htext
      exact ⟨text, hv⟩

omit [Intl] in
/-- The schema of a list and what is found there. -/
theorem Occurrence.Sound.list {path : TemplatePath} {chain : List LinkedScope}
    (h : (listOccurrence path chain).Sound) :
    ∃ items, checkedSchema path chain = some (.array items) ∧
      (Absent (resolvePath path (chain.map (·.scope))) ∨
        ∃ values, resolvePath path (chain.map (·.scope)) = some (.arr values)) := by
  obtain ⟨schema, hs, ht, hval⟩ := h
  rw [Occurrence.schema, listOccurrence, schemaOfExpression, Option.map_eq_some_iff] at hs
  obtain ⟨declared, hd, rfl⟩ := hs
  cases declared with
  | array items =>
    refine ⟨items, hd, hval.imp_right fun ⟨v, hv, ha⟩ => ?_⟩
    obtain ⟨values, rfl, _⟩ := Conforms.array ha
    exact ⟨values, hv⟩
  | _ => simp [Role.Takes, listOccurrence, ExpressionSchema.type, TemplateInputSchema.type] at ht

theorem walk_of_sound (hs : ∀ o ∈ found, o.Sound) :
    Walk checkedSchema options (Permitted options found) Eq found found where
  rowsExceeded := .rowsExceeded rfl
  outputTooLarge := .outputTooLarge rfl
  format := by
    rintro A _ node rfl hA -
    exact format_alike hs hA
  condition := by
    rintro A _ path rfl - -
    rfl
  list := by
    rintro A _ path rfl hA -
    obtain ⟨items, hsch, ha | ⟨values, hval⟩⟩ := (hs _ hA).list
    · exact .inl ⟨ha, ha⟩
    · refine .inr (.inr ⟨items, items, values, values, hsch, hsch, hval, hval, rfl, ?_⟩)
      intro i v w hv hw
      rw [Option.some.inj (hv.symm.trans hw)]

end

/-- No name the template looks up on an input is shadowed; with `all`, none of those
in the branches the evaluation does not take either. -/
def Unshadowed (all : Bool) (template : CompiledTemplate) (schema : TemplateInputSchema)
    (input : Json) : Prop :=
  ∀ o ∈ occurrences checkedSchema all template schema input, o.unshadowed = true

instance (all : Bool) (template : CompiledTemplate) (schema : TemplateInputSchema) (input : Json) :
    Decidable (Unshadowed all template schema input) :=
  inferInstanceAs (Decidable
    (∀ o ∈ occurrences checkedSchema all template schema input, o.unshadowed = true))

/-- An evaluation of an accepted template fails on its limits or on a value a
formatter refuses by its content. -/
theorem permitted_of_error {template : CompiledTemplate} {schema : TemplateInputSchema}
    {input : Json} {options : EvaluateOptions} {error : RenderError}
    (ha : Accepted template schema) (hi : Conforms schema input)
    (hun : Unshadowed false template schema input)
    (h : evaluateTemplate template input options = .error error) :
    Permitted options (occurrences checkedSchema false template schema input) error := by
  have hw : Walk checkedSchema options _ Eq _ _ :=
    walk_of_sound (occurrences_sound false ha hi hun)
  have hali := hw.renderTemplate_alike rfl (List.Subset.refl _) (List.Subset.refl _)
  exact hali.fails_of_run' h

/-- **Templates are sound.**  Of an accepted template on an accepted input, where no
name is shadowed, what is found at every placeholder, list and condition is absent or
of the schema the check assigned, and the evaluation fails on its limits or on a value
a formatter refuses by its content. -/
theorem evaluateTemplate_sound [TemplateParser] (content : TemplateContent)
    (template : CompiledTemplate) (input : Json) (options : EvaluateOptions)
    (hcompile : compileTemplate content = .ok template)
    (hinput : validateTemplateInput content.inputSchema input = []) :
    (∀ all, Unshadowed all template content.inputSchema input →
      ∀ o ∈ occurrences checkedSchema all template content.inputSchema input, o.Sound) ∧
    (Unshadowed false template content.inputSchema input → ∀ error,
      evaluateTemplate template input options = .error error →
        Permitted options (occurrences checkedSchema false template content.inputSchema input)
          error) :=
  ⟨fun all hun => occurrences_sound all (accepted_of_compile hcompile)
      (conforms_of_validate hinput) hun,
    fun hun _ h => permitted_of_error (accepted_of_compile hcompile)
      (conforms_of_validate hinput) hun h⟩

end

/-! ### A template that prints a date -/

/-- A body that prints a date. -/
def dateBody : String :=
  braced " due | date "

/-- A body that prints a field of the input in a list of it. -/
def listBody : String :=
  braced "#each items" ++ "\n" ++ braced " note " ++ "\n" ++ braced "/each"

/-- A paragraph of one placeholder. -/
def placeholderParagraph (name : String) (formatter : Option TemplateFormatter) (line : ℕ) :
    TemplateBlock :=
  .paragraph [.leaf (.placeholder { value := .path (.name name []), formatter, line })] line

/-- The parser on the two bodies and on lines without placeholders. -/
@[reducible]
def sampleParser : TemplateParser where
  parseTemplate body :=
    if body = dateBody then ([placeholderParagraph "due" (some .date) 1], [])
    else if body = listBody then
      ([.each (.name "items" []) [placeholderParagraph "note" none 2] 1], [])
    else ([], [])
  parseTemplateLine text _ := ([.text text], [])

/-- A host that knows no currency and no date. -/
@[reducible]
def sampleIntl : Intl where
  knownCurrency _ := false
  money _ _ n := n.text
  number _ _ n := n.text
  date _ _ _ _ := none
  toLocaleUpperCase _ text := text
  dateParse _ := none

/-- A template with a body and a schema of its own. -/
def sampleContent (body : String) (properties : List (String × TemplateInputSchema)) :
    TemplateContent :=
  { body, title := "Offer", header := none, footer := none, inputSchema := .object properties [] }

/-- The options of the examples. -/
def sampleOptions : EvaluateOptions := { locale := .en, timeZone := "UTC" }

theorem exists_ok {ε α : Type} {r : Except ε α} {P : α → Prop} [DecidablePred P]
    (h : (r.toOption.any fun a => decide (P a)) = true) : ∃ a, r = .ok a ∧ P a := by
  rcases r with e | a
  · cases h
  · exact ⟨a, rfl, of_decide_eq_true h⟩

/-- A text that is no date, where the schema asks for text. -/
theorem evaluateTemplate_refuses_text :
    let _ := sampleParser
    let _ := sampleIntl
    let content := sampleContent dateBody [("due", .string none none)]
    let input := Json.obj [("due", .str "2026-02-30")]
    ∃ template, compileTemplate content = .ok template ∧
      validateTemplateInput content.inputSchema input = [] ∧
      evaluateTemplate template input sampleOptions =
        .error (.valueInvalid "due is not a date.") :=
  exists_ok (by decide +kernel)

/-- The one occurrence of that template is sound, and its failure is a refusal. -/
theorem evaluateTemplate_sound_date :
    let _ := sampleParser
    let _ := sampleIntl
    let content := sampleContent dateBody [("due", .string none none)]
    let input := Json.obj [("due", .str "2026-02-30")]
    ∃ template, compileTemplate content = .ok template ∧
      (∀ o ∈ occurrences checkedSchema true template content.inputSchema input, o.Sound) ∧
      Permitted sampleOptions (occurrences checkedSchema false template content.inputSchema input)
        (.valueInvalid "due is not a date.") := by
  intro _ _ content input
  obtain ⟨template, hc, hi, hu, hu', he⟩ :
      ∃ template, compileTemplate content = .ok template ∧
        validateTemplateInput content.inputSchema input = [] ∧
        Unshadowed true template content.inputSchema input ∧
        Unshadowed false template content.inputSchema input ∧
        evaluateTemplate template input sampleOptions =
          .error (.valueInvalid "due is not a date.") :=
    exists_ok (by decide +kernel)
  have hs := evaluateTemplate_sound content template input sampleOptions hc hi
  exact ⟨template, hc, hs.1 true hu, hs.2 hu' _ he⟩

end Flowdular.Documents
