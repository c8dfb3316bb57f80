/-
# Undeclared input

What the schema does not declare reaches no document as long as every value that
is looked up is declared in the scope it is found in (`Occurrence.declared`): two
inputs that agree on what the schema declares are then evaluated alike.  The walk
is taken over chains of scopes side by side (`Twins`), read with the schemas of
the scopes the values are found in, so it asks nothing of the check.
-/

import Flowdular.Documents.TemplateSoundness

namespace Flowdular.Documents

open Workflows (Json Decimal)

/-! ### Twin scopes -/

/-- Two scopes of the evaluation behind one schema, with values that conform and
agree. -/
structure Twin (l r : LinkedScope) : Prop where
  schema : l.schema = r.schema
  index : l.scope.index = r.scope.index
  left : Conforms l.schema.schema l.scope.value
  right : Conforms r.schema.schema r.scope.value
  agree : Agree l.schema.schema l.scope.value r.scope.value

namespace Twin

variable {l r : LinkedScope}

variable {segments : List String}

/-- A declared property is held on both sides or on neither. -/
theorem hasOwn_of_declared (h : Twin l r) {head : String}
    (hw : (l.schema.schema.walk (head :: segments)).isSome = true) :
    hasOwn l.scope.value head = hasOwn r.scope.value head := by
  rw [TemplateInputSchema.walk] at hw
  rcases hc : l.schema.schema.property? head with _ | child
  · simp [hc] at hw
  have hp := congrArg Option.isSome (h.agree.property hc)
  simpa [hasOwn] using hp

/-- A declared path finds values that conform and agree. -/
theorem walk (h : Twin l r) {found : TemplateInputSchema}
    (hw : l.schema.schema.walk segments = some found) :
    (Absent (walkValue l.scope.value segments) ∨
        ∃ v, walkValue l.scope.value segments = some v ∧ Conforms found v) ∧
      (Absent (walkValue r.scope.value segments) ∨
        ∃ v, walkValue r.scope.value segments = some v ∧ Conforms found v) ∧
      (walkValue l.scope.value segments).map (declaredPart found) =
        (walkValue r.scope.value segments).map (declaredPart found) :=
  ⟨h.left.walk hw, h.right.walk (h.schema ▸ hw), h.agree.walk hw⟩

end Twin

/-- Two chains of twin scopes. -/
abbrev Twins (A B : List LinkedScope) : Prop :=
  List.Forall₂ Twin A B

/-- Values found behind a schema of the scopes: absent or conforming, and in
agreement. -/
def FoundAlike (found : TemplateInputSchema) (x y : Option Json) : Prop :=
  (Absent x ∨ ∃ v, x = some v ∧ Conforms found v) ∧
    (Absent y ∨ ∃ v, y = some v ∧ Conforms found v) ∧
    x.map (declaredPart found) = y.map (declaredPart found)

variable {path : TemplatePath} {found schema : TemplateInputSchema} {x y : Option Json}
  {value : Json}

/-- **A path finds the same on both sides**: nothing, or values of one schema that
agree. -/
theorem Twins.resolvePath {A B : List LinkedScope} (h : Twins A B)
    (hA : declared path A = true) (hB : declared path B = true) :
    (Documents.resolvePath path (A.map (·.scope)) = none ∧
        Documents.resolvePath path (B.map (·.scope)) = none) ∨
      ∃ found, heldSchema path A = some found ∧ heldSchema path B = some found ∧
        FoundAlike found (Documents.resolvePath path (A.map (·.scope)))
          (Documents.resolvePath path (B.map (·.scope))) := by
  cases path with
  | fromThis segments =>
    cases h with
    | nil => exact .inl ⟨rfl, rfl⟩
    | @cons l r A B twin _ =>
      obtain ⟨found, hf⟩ := Option.isSome_iff_exists.1 hA
      have hf' : r.schema.schema.walk segments = some found := twin.schema ▸ hf
      exact .inr ⟨found, hf, hf', twin.walk hf⟩
  | name head segments =>
    induction h with
    | nil => exact .inl ⟨rfl, rfl⟩
    | @cons l r A B twin _ ih =>
      rw [declared] at hA hB
      have hs : hasOwn l.scope.value head = hasOwn r.scope.value head := by
        by_cases hl : hasOwn l.scope.value head = true
        · rw [if_pos hl] at hA
          exact twin.hasOwn_of_declared hA
        · by_cases hr : hasOwn r.scope.value head = true
          · rw [if_pos hr, ← twin.schema] at hB
            exact twin.hasOwn_of_declared hB
          · rw [Bool.eq_false_iff.2 hl, Bool.eq_false_iff.2 hr]
      simp only [List.map_cons, Documents.resolvePath, heldSchema, ← hs]
      rw [← hs] at hB
      by_cases hl : hasOwn l.scope.value head = true
      · simp only [if_pos hl] at hA hB ⊢
        obtain ⟨found, hf⟩ := Option.isSome_iff_exists.1 hA
        exact .inr ⟨found, hf, twin.schema ▸ hf, twin.walk hf⟩
      · simp only [if_neg hl] at hA hB ⊢
        exact ih hA hB

/-! ### Values a template cannot tell apart -/

/-- Values no formatter, condition or message tells apart. -/
def Indistinct (x y : Option Json) : Prop :=
  x = y ∨ (∃ fields fields', x = some (.obj fields) ∧ y = some (.obj fields')) ∨
    ∃ values values', x = some (.arr values) ∧ y = some (.arr values') ∧
      values.length = values'.length

theorem FoundAlike.indistinct (h : FoundAlike found x y) : Indistinct x y := by
  obtain ⟨-, -, h⟩ := h
  rcases x with _ | v <;> rcases y with _ | w
  · exact .inl rfl
  · cases h
  · cases h
  have hd : declaredPart found v = declaredPart found w := Option.some.inj h
  cases found with
  | object properties required =>
    cases v <;> cases w <;> simp only [declaredPart] at hd <;> try cases hd
    all_goals try exact .inl rfl
    exact .inr (.inl ⟨_, _, rfl, rfl⟩)
  | array items =>
    cases v <;> cases w <;> simp only [declaredPart] at hd <;> try cases hd
    all_goals try exact .inl rfl
    next values values' =>
      have hl := congrArg List.length (Json.arr.inj hd)
      exact .inr (.inr ⟨values, values', rfl, rfl, by simpa using hl⟩)
  | _ =>
    cases v <;> cases w <;> exact .inl (congrArg some hd)

namespace Indistinct

variable {x y : Option Json}

theorem truthy (h : Indistinct x y) : Documents.truthy x = Documents.truthy y := by
  rcases h with rfl | ⟨_, _, rfl, rfl⟩ | ⟨values, values', rfl, rfl, hl⟩
  · rfl
  · rfl
  · have he : values = [] ↔ values' = [] := by
      rw [← List.length_eq_zero_iff, hl, List.length_eq_zero_iff]
    simp [Documents.truthy, he]

theorem plainText (h : Indistinct x y) (expression : TemplateExpression) :
    Documents.plainText x expression = Documents.plainText y expression := by
  rcases h with rfl | ⟨_, _, rfl, rfl⟩ | ⟨_, _, rfl, rfl, -⟩ <;> rfl

variable [Intl]

theorem currencyCode (h : Indistinct x y) : Documents.currencyCode x = Documents.currencyCode y := by
  rcases h with rfl | ⟨_, _, rfl, rfl⟩ | ⟨_, _, rfl, rfl, -⟩ <;> rfl

/-- A formatter reads nothing of the scopes but its currency, and nothing of lists
and objects. -/
theorem applyFormatter (h : Indistinct x y) (options : EvaluateOptions)
    (formatter : TemplateFormatter) (name : String) {S T : List Scope}
    (hc : ∀ currency, formatter = .money currency →
      Indistinct (argumentValue S currency) (argumentValue T currency)) :
    Documents.applyFormatter options formatter x name S =
      Documents.applyFormatter options formatter y name T := by
  have hs : Documents.applyFormatter options formatter x name S =
      Documents.applyFormatter options formatter x name T := by
    rcases x with _ | v
    · rfl
    cases formatter with
    | money currency =>
      cases v <;> simp only [Documents.applyFormatter, (hc currency rfl).currencyCode]
    | _ => cases v <;> rfl
  rw [hs]
  rcases h with rfl | ⟨_, _, rfl, rfl⟩ | ⟨_, _, rfl, rfl, -⟩
  · rfl
  · cases formatter <;> rfl
  · cases formatter <;> rfl

end Indistinct

/-! ### Lists -/

theorem declaredPart_eq_null : declaredPart schema value = .null ↔ value = .null := by
  cases schema <;> cases value <;> simp [declaredPart]

theorem absent_iff
    (h : x.map (declaredPart found) = y.map (declaredPart found)) : Absent x ↔ Absent y := by
  rcases x with _ | v <;> rcases y with _ | w
  · exact Iff.rfl
  · cases h
  · cases h
  · have hd : declaredPart found v = declaredPart found w := Option.some.inj h
    simp only [Absent, reduceCtorEq, Option.some.injEq, false_or]
    rw [← declaredPart_eq_null, hd, declaredPart_eq_null]

/-- A value a list path cannot repeat over. -/
def Refused (value : Json) : Prop :=
  value ≠ .null ∧ ∀ values, value ≠ .arr values

theorem Conforms.refused (h : Conforms schema value)
    (ha : schema.type ≠ "array") : Refused value := by
  cases schema with
  | object properties required =>
    obtain ⟨fields, rfl, _⟩ := h.object
    exact ⟨by simp, by simp⟩
  | array items => exact absurd rfl ha
  | string maxLength enum =>
    obtain ⟨text, rfl⟩ := h.string
    exact ⟨by simp, by simp⟩
  | number =>
    obtain ⟨n, rfl⟩ := h.number
    exact ⟨by simp, by simp⟩
  | integer =>
    obtain ⟨n, rfl, _⟩ := h.integer
    exact ⟨by simp, by simp⟩
  | boolean =>
    obtain ⟨b, rfl⟩ := h.boolean
    exact ⟨by simp, by simp⟩

theorem listItems_of_refused {scopes : List Scope}
    (h : resolvePath path scopes = some value) (hr : Refused value) :
    listItems path scopes = throw (.valueInvalid (path.describe ++ " is not a list.")) := by
  unfold listItems
  rw [h]
  cases value with
  | null => exact absurd rfl hr.1
  | arr values => exact absurd rfl (hr.2 values)
  | _ => rfl

/-! ### The walk -/

/-- What the template looks up on an input is declared where it is found, in every
iteration of every list and in the branches taken. -/
def ReadsDeclared (template : CompiledTemplate) (schema : TemplateInputSchema) (input : Json) :
    Prop :=
  ∀ o ∈ occurrences heldSchema false template schema input, o.declared = true

instance (template : CompiledTemplate) (schema : TemplateInputSchema) (input : Json) :
    Decidable (ReadsDeclared template schema input) :=
  inferInstanceAs (Decidable
    (∀ o ∈ occurrences heldSchema false template schema input, o.declared = true))

namespace Twins

variable {A B : List LinkedScope} {left right : List Occurrence}

variable {path : TemplatePath}

theorem resolvePath_indistinct (h : Twins A B)
    (hA : declared path A = true) (hB : declared path B = true) :
    Indistinct (Documents.resolvePath path (A.map (·.scope)))
      (Documents.resolvePath path (B.map (·.scope))) := by
  rcases h.resolvePath hA hB with ⟨hnoneA, hnoneB⟩ | ⟨found, -, -, hf⟩
  · exact .inl (hnoneA.trans hnoneB.symm)
  · exact hf.indistinct

/-- The counters of the innermost items. -/
theorem head_index (h : Twins A B) :
    (A.map (·.scope)).head?.bind (·.index) = (B.map (·.scope)).head?.bind (·.index) := by
  cases h with
  | nil => rfl
  | cons twin _ => simpa using twin.index

theorem resolve_indistinct (h : Twins A B) {expression : TemplateExpression} {role role' : Role}
    (hA : Occurrence.declared { expression, role, chain := A } = true)
    (hB : Occurrence.declared { expression, role := role', chain := B } = true) :
    Indistinct (resolve expression (A.map (·.scope))) (resolve expression (B.map (·.scope))) := by
  cases expression with
  | path path => exact h.resolvePath_indistinct hA hB
  | index => exact .inl (by rw [resolve, resolve, h.head_index])
  | number => exact .inl (by rw [resolve, resolve, h.head_index])
  | page => exact .inl rfl
  | pages => exact .inl rfl

/-- A placeholder is the same program on both sides. -/
theorem format [Intl] (h : Twins A B) (options : EvaluateOptions) {node : TemplatePlaceholder}
    (hA : ∀ o ∈ placeholderOccurrences A node, o.declared = true)
    (hB : ∀ o ∈ placeholderOccurrences B node, o.declared = true) :
    Documents.format options node (A.map (·.scope)) =
      Documents.format options node (B.map (·.scope)) := by
  have hv := h.resolve_indistinct (hA _ List.mem_cons_self) (hB _ List.mem_cons_self)
  unfold Documents.format
  rcases hf : node.formatter with _ | formatter
  · simp only [hv.plainText]
  · have hc : ∀ currency, formatter = .money currency →
        Indistinct (argumentValue (A.map (·.scope)) currency)
          (argumentValue (B.map (·.scope)) currency) := by
      rintro (text | path) rfl
      · exact .inl rfl
      · have ha (chain : List LinkedScope) :
            { expression := .path path, role := .currency, chain } ∈
              placeholderOccurrences chain node := by
          rw [placeholderOccurrences, hf]
          exact List.mem_cons_of_mem _ List.mem_cons_self
        exact h.resolve_indistinct (hA _ (ha A)) (hB _ (ha B))
    simp only [hv.applyFormatter options formatter node.value.describe hc]

/-- A list is absent on both sides, refused on both, or read with items that are
twins. -/
theorem list (h : Twins A B) (hA : declared path A = true) (hB : declared path B = true) :
    (Absent (Documents.resolvePath path (A.map (·.scope))) ∧
        Absent (Documents.resolvePath path (B.map (·.scope)))) ∨
      (∃ error, listItems path (A.map (·.scope)) = throw error ∧
        listItems path (B.map (·.scope)) = throw error) ∨
      ∃ items values values', heldSchema path A = some (.array items) ∧
        heldSchema path B = some (.array items) ∧
        Documents.resolvePath path (A.map (·.scope)) = some (.arr values) ∧
        Documents.resolvePath path (B.map (·.scope)) = some (.arr values') ∧
        values.length = values'.length ∧
        ∀ (i : ℕ) (v w : Json), values[i]? = some v → values'[i]? = some w →
          Twins (itemLink items v i :: A) (itemLink items w i :: B) := by
  rcases h.resolvePath hA hB with ⟨hnoneA, hnoneB⟩ | ⟨found, hheldA, hheldB, hl, hr, hagr⟩
  · exact .inl ⟨.inl hnoneA, .inl hnoneB⟩
  rcases hl with ha | ⟨v, hv, hconformsA⟩
  · exact .inl ⟨ha, (absent_iff hagr).1 ha⟩
  rcases hr with ha | ⟨w, hw, hconformsB⟩
  · exact .inl ⟨(absent_iff hagr).2 ha, ha⟩
  cases found with
  | array items =>
    obtain ⟨values, rfl, hval⟩ := hconformsA.array
    obtain ⟨values', rfl, hval'⟩ := hconformsB.array
    rw [hv, hw] at hagr
    have hlis : Agree (.array items) (.arr values) (.arr values') := Option.some.inj hagr
    obtain ⟨_, hs, hlen, hi⟩ := hlis.array
    cases hs
    refine .inr (.inr ⟨items, values, values', hheldA, hheldB, hv, hw, hlen, ?_⟩)
    intro i v w hv hw
    exact .cons { schema := rfl, index := rfl, left := hval v (List.mem_of_getElem? hv),
                  right := hval' w (List.mem_of_getElem? hw), agree := hi i v w hv hw } h
  | _ =>
    refine .inr (.inl ⟨_, listItems_of_refused hv ?_, listItems_of_refused hw ?_⟩)
    · exact hconformsA.refused (by simp [TemplateInputSchema.type])
    · exact hconformsB.refused (by simp [TemplateInputSchema.type])

end Twins

theorem walk_of_declared [Intl] (options : EvaluateOptions) {left right : List Occurrence}
    (hl : ∀ o ∈ left, o.declared = true) (hr : ∀ o ∈ right, o.declared = true) :
    Walk heldSchema options (fun _ => True) Twins left right where
  rowsExceeded := trivial
  outputTooLarge := trivial
  format h hA hB := by
    rw [h.format options (fun o ho => hl o (hA ho)) fun o ho => hr o (hB ho)]
    exact .refl _
  condition h hA hB := (h.resolvePath_indistinct (hl _ hA) (hr _ hB)).truthy
  list h hA hB := by
    rcases h.list (hl _ hA) (hr _ hB) with ha | ⟨error, hrefusedA, hrefusedB⟩ |
      ⟨items, values, values', hlist⟩
    · exact .inl ha
    · exact .inr (.inl ⟨error, trivial, hrefusedA, hrefusedB⟩)
    · exact .inr (.inr ⟨items, items, values, values', hlist⟩)

/-- **Undeclared input reaches no document**: accepted inputs that agree on what the
schema declares, and on which everything looked up is declared where it is found,
give the same document or the same error. -/
theorem evaluateTemplate_agree [Intl] (template : CompiledTemplate) (schema : TemplateInputSchema)
    (a b : Json) (options : EvaluateOptions) (ha : validateTemplateInput schema a = [])
    (hb : validateTemplateInput schema b = []) (hagree : Agree schema a b)
    (hdeclaredA : ReadsDeclared template schema a) (hdeclaredB : ReadsDeclared template schema b) :
    evaluateTemplate template a options = evaluateTemplate template b options := by
  have hr : Twins (rootChain schema a) (rootChain schema b) :=
    .cons { schema := rfl, index := rfl, left := conforms_of_validate ha,
            right := conforms_of_validate hb, agree := hagree } .nil
  have hali := (walk_of_declared options hdeclaredA hdeclaredB).renderTemplate_alike hr
    (List.Subset.refl _) (List.Subset.refl _)
  exact congrArg (StateT.run' · {}) hali.eq

/-- The schema of an offer: a note and a list of named items. -/
def offerSchema : List (String × TemplateInputSchema) :=
  [("note", .string none none), ("items", .array (.object [("name", .string none none)] []))]

/-- An offer of one item with the given fields. -/
def offer (fields : List (String × Json)) : Json :=
  .obj [("note", .str "new"), ("items", .arr [.obj fields])]

/-- A field of an item that the schema does not declare, under the name of a declared
one, is printed in its place. -/
theorem evaluateTemplate_reads_undeclared :
    let _ := sampleParser
    let _ := sampleIntl
    let content := sampleContent listBody offerSchema
    let a := offer [("name", .str "desk")]
    let b := offer [("name", .str "desk"), ("note", .str "used")]
    ∃ template, compileTemplate content = .ok template ∧
      validateTemplateInput content.inputSchema a = [] ∧
      validateTemplateInput content.inputSchema b = [] ∧ Agree content.inputSchema a b ∧
      evaluateTemplate template a sampleOptions ≠ evaluateTemplate template b sampleOptions :=
  exists_ok (by decide +kernel)

/-- A field of an item under a name of its own changes nothing. -/
theorem evaluateTemplate_agree_price :
    let _ := sampleParser
    let _ := sampleIntl
    let content := sampleContent listBody offerSchema
    let a := offer [("name", .str "desk")]
    let b := offer [("name", .str "desk"), ("price", .str "used")]
    ∃ template, compileTemplate content = .ok template ∧
      evaluateTemplate template a sampleOptions = evaluateTemplate template b sampleOptions := by
  intro _ _ content a b
  obtain ⟨template, hc, hdeclaredA, hdeclaredB⟩ :
      ∃ template, compileTemplate content = .ok template ∧
        ReadsDeclared template content.inputSchema a ∧
        ReadsDeclared template content.inputSchema b :=
    exists_ok (by decide +kernel)
  refine ⟨template, hc, ?_⟩
  exact evaluateTemplate_agree template content.inputSchema a b sampleOptions (by decide +kernel)
    (by decide +kernel) (by decide +kernel) hdeclaredA hdeclaredB

end Flowdular.Documents
