/-
# What a safe source pointer selects

`src/modules/workflows/src/domain/graph-security.ts`, lines 280-371, against
`src/modules/workflows/src/domain/graph.ts`, lines 1392-1505.

`sourcePointerIsSafe` walks a schema and `readJsonPointer` walks a value.  Which
schema governs which position of a value is said here apart from both (`GovernsIn`):
a property by its own schema or that of the additional ones, an item by that of the
items, and anything at all by what a combinator or a reference applies.  On a value
that conforms to the schema the two walks meet, and what a safe pointer selects is
governed by no protected schema, with one exception: `dependencies`, which the
redactor of payloads takes for a keyword that applies schemas, is missing from the
keywords this check refuses (`selects_unprotected_iff`).
-/

import Flowdular.Workflows.CanonicalForm
import Flowdular.Workflows.GraphSecurity
import Flowdular.Workflows.PreviewAgreement

namespace Flowdular.Workflows

/-! ### Positions of a value -/

namespace Json

/-- The value one step below. -/
def below? : Json → Step → Option Json
  | .obj fields, .key key => fields.lookup key
  | .arr items, .index i => items[i]?
  | _, _ => none

/-- The value at a position. -/
def at? : List Step → Json → Option Json
  | [], v => some v
  | step :: path, v => (v.below? step).bind (at? path)

/-- The step a segment of a pointer takes from a value. -/
def stepOf (v : Json) (segment : String) : Option Step :=
  match v with
  | .arr _ => if isArrayIndex segment then segment.toNat?.map .index else none
  | .obj _ => some (.key segment)
  | _ => none

/-- The position the segments of a pointer lead to. -/
def pathOf : List String → Json → Option (List Step)
  | [], _ => some []
  | segment :: segments, v =>
    (v.stepOf segment).bind fun step =>
      (v.below? step).bind fun w => (pathOf segments w).map (step :: ·)

theorem child?_eq (v : Json) (segment : String) :
    v.child? segment = (v.stepOf segment).bind v.below? := by
  cases v with
  | arr items =>
    simp only [child?, stepOf]
    split
    · cases segment.toNat? <;> rfl
    · rfl
  | _ => rfl

theorem foldl_child?_none (segments : List String) :
    segments.foldl (fun current key => current.bind (·.child? key)) none = (none : Option Json) := by
  induction segments with
  | nil => rfl
  | cons segment segments ih => exact ih

/-- Reading a pointer finds the value at the position it leads to. -/
theorem foldl_child?_eq (segments : List String) : ∀ v : Json,
    segments.foldl (fun current key => current.bind (·.child? key)) (some v) =
      (pathOf segments v).bind fun path => at? path v := by
  induction segments with
  | nil => exact fun _ => rfl
  | cons segment segments ih =>
    intro v
    rw [List.foldl_cons, Option.bind_some, child?_eq, pathOf]
    cases hs : v.stepOf segment with
    | none => exact foldl_child?_none segments
    | some step =>
      rw [Option.bind_some, Option.bind_some]
      cases hw : v.below? step with
      | none => exact foldl_child?_none segments
      | some w =>
        rw [ih w, Option.bind_some]
        cases pathOf segments w with
        | none => rfl
        | some path => simp [at?, hw]

end Json

open Json (below? at? stepOf pathOf)

/-- The segments a pointer is read by. -/
def readSegments (pointer : String) : List String :=
  if pointer = "" then [] else pointerSegments pointer

/-- A pointer that reads a value leads to the position where the value stands. -/
theorem exists_path_of_read {value selected : Json} {pointer : String}
    (h : readJsonPointer value pointer = some selected) :
    ∃ path, pathOf (readSegments pointer) value = some path ∧ at? path value = some selected := by
  unfold readJsonPointer at h
  unfold readSegments
  split at h
  · next hr =>
    rw [if_pos hr]
    exact ⟨[], rfl, h⟩
  · next hr =>
    rw [if_neg hr]
    split at h
    · cases h
    · rw [Json.foldl_child?_eq, Option.bind_eq_some_iff] at h
      exact h

/-! ### Conforming values -/

section

variable [Host]

/-- The value passes the check of the schema. -/
def Conforms (value : Json) (schema : JsonSchema) : Prop :=
  ∃ path, validateJsonSchema value schema path = []

theorem Conforms.type {value : Json} {schema : JsonSchema} (h : Conforms value schema) :
    matchesSchemaType value schema = true := by
  obtain ⟨path, h⟩ := h
  unfold validateJsonSchema at h
  split at h
  · cases h
  · simp_all

theorem validateItems_eq_nil {schema : JsonSchema} {path : String} (items : List Json) :
    ∀ index, validateItems items schema path index = [] → ∀ v ∈ items, Conforms v schema := by
  induction items with
  | nil => simp
  | cons item items ih =>
    intro index h v hv
    rw [validateItems, List.append_eq_nil_iff] at h
    rcases List.mem_cons.1 hv with rfl | hv
    · exact ⟨_, h.1⟩
    · exact ih _ h.2 v hv

theorem Conforms.item {items : List Json} {schema child : JsonSchema}
    (h : Conforms (.arr items) schema) (hi : schema.lookup "items" = some (.obj child)) :
    ∀ v ∈ items, Conforms v child := by
  obtain ⟨path, h⟩ := h
  unfold validateJsonSchema at h
  split at h
  · cases h
  · simp only [hi, List.take_eq_nil_iff, List.append_eq_nil_iff] at h
    exact validateItems_eq_nil items 0 (h.resolve_left (by decide)).2

/-- What the check of an entry leaves: the entry conforms to the schema it is
checked against, if there is one, and is not forbidden. -/
def EntryConforms (value : Json) : EntrySchema → Prop
  | .schema child => Conforms value child
  | .forbidden => False
  | .unchecked => True

theorem validateEntries_eq_nil {schema : JsonSchema} {path : String}
    (fields : List (String × Json)) (h : validateEntries fields schema path = []) :
    ∀ e ∈ fields, EntryConforms e.2 (entrySchema schema e.1) := by
  induction fields with
  | nil => simp
  | cons e fields ih =>
    intro f hf
    rw [validateEntries, List.append_eq_nil_iff] at h
    rcases List.mem_cons.1 hf with rfl | hf
    · cases hs : entrySchema schema f.1 with
      | schema child => exact ⟨_, by simpa [hs] using h.1⟩
      | forbidden => simp [hs] at h
      | unchecked => trivial
    · exact ih h.2 f hf

theorem Conforms.entry {fields : List (String × Json)} {schema : JsonSchema}
    (h : Conforms (.obj fields) schema) :
    ∀ e ∈ fields, EntryConforms e.2 (entrySchema schema e.1) := by
  obtain ⟨path, h⟩ := h
  unfold validateJsonSchema at h
  split at h
  · cases h
  · simp only [List.take_eq_nil_iff, List.append_eq_nil_iff] at h
    exact validateEntries_eq_nil fields (h.resolve_left (by decide)).2.2

end

/-! ### The schemas of a position -/

/-- `properties` holds the schema of a key. -/
def Declares (schema : JsonSchema) (key : String) (child : JsonSchema) : Prop :=
  ∃ properties, schema.lookup "properties" = some (.obj properties) ∧
    properties.lookup key = some (.obj child)

/-- A schema of a value says that `child` applies to it some steps below.  What a
combinator or a reference applies, and where, is left open.  `dependent` marks what
`dependencies` applies to a value that has the key. -/
inductive Covers (schema : JsonSchema) (value : Json) :
    (dependent : Bool) → List Step → JsonSchema → Prop
  | property {key : String} {child : JsonSchema} : Declares schema key child →
      Covers schema value false [.key key] child
  | additional {key : String} {child : JsonSchema} : (∀ other, ¬Declares schema key other) →
      schema.lookup "additionalProperties" = some (.obj child) →
      Covers schema value false [.key key] child
  | item (i : ℕ) {child : JsonSchema} : schema.lookup "items" = some (.obj child) →
      Covers schema value false [.index i] child
  | combined {keyword : String} (steps : List Step) (child : JsonSchema) :
      keyword ∈ ambiguousKeywords → hasKeyword schema keyword = true →
      Covers schema value false steps child
  | dependency {name : String} {schemas : List (String × Json)} {child : JsonSchema} :
      schema.lookup "dependencies" = some (.obj schemas) →
      schemas.lookup name = some (.obj child) → (value.below? (.key name)).isSome →
      Covers schema value true [] child

/-- The schema `node` governs the position `path` of a value that `schema` is the
schema of; `dependent` says that some `dependencies` has a part in it. -/
inductive GovernsIn : (dependent : Bool) → JsonSchema → Json → List Step → JsonSchema → Prop
  | here (schema : JsonSchema) (value : Json) : GovernsIn false schema value [] schema
  | through {schema child node : JsonSchema} {value inner : Json} {first rest : Bool}
      {steps path : List Step} : Covers schema value first steps child →
      at? steps value = some inner → GovernsIn rest child inner path node →
      GovernsIn (first || rest) schema value (steps ++ path) node

/-- Nothing inside the value a pointer selects, nor anything it is part of, is
governed in the given ways by a schema that is secret or asks for a permission that
is not held. -/
def SelectsUnprotected (governs : List Step → JsonSchema → Prop) (permissions : List String)
    (value : Json) (pointer : String) : Prop :=
  ∀ selected, readJsonPointer value pointer = some selected →
    ∃ path, pathOf (readSegments pointer) value = some path ∧ at? path value = some selected ∧
      ∀ below, (at? below selected).isSome → ∀ above, above <+: path ++ below →
        ∀ node, governs above node → schemaReason (some node) permissions = none

theorem schemaReason_eq_none {node : JsonSchema} (permissions : List String)
    (h : protectedSource node = false) : schemaReason (some node) permissions = none := by
  simp only [protectedSource, markedSecret, hasKeyword, Bool.or_eq_false_iff, decide_eq_false_iff_not,
    Option.isSome_eq_false_iff, Option.isNone_iff_eq_none] at h
  simp [schemaReason, h]

theorem not_ambiguous {schema : JsonSchema} (h : ambiguousSourceSchema schema = false)
    {keyword : String} (hk : keyword ∈ ambiguousKeywords) : hasKeyword schema keyword = false := by
  simpa using List.any_eq_false.1 h keyword hk

theorem type_object {schema : JsonSchema} {kind : String} {fields : List (String × Json)}
    (ht : schema.lookup "type" = some (.str kind))
    (h : matchesSchemaType (.obj fields) schema = true) : kind = "object" := by
  rw [matchesSchemaType, ht] at h
  change matchesType (.obj fields) (.str kind) = true at h
  unfold matchesType at h
  split at h <;> simp_all

theorem type_array {schema : JsonSchema} {kind : String} {items : List Json}
    (ht : schema.lookup "type" = some (.str kind))
    (h : matchesSchemaType (.arr items) schema = true) : kind = "array" := by
  rw [matchesSchemaType, ht] at h
  change matchesType (.arr items) (.str kind) = true at h
  unfold matchesType at h
  split at h <;> simp_all

theorem object_of_type {schema : JsonSchema} {value : Json}
    (ht : schema.lookup "type" = some (.str "object"))
    (h : matchesSchemaType value schema = true) : ∃ fields, value = .obj fields := by
  rw [matchesSchemaType, ht] at h
  cases value <;> simp_all [matchesType]

theorem array_of_type {schema : JsonSchema} {value : Json}
    (ht : schema.lookup "type" = some (.str "array"))
    (h : matchesSchemaType value schema = true) : ∃ items, value = .arr items := by
  rw [matchesSchemaType, ht] at h
  cases value <;> simp_all [matchesType]

/-! ### Below the selected schema -/

/-- What a safe subtree is: neither protected nor ambiguous, and safe below. -/
theorem subtree_root {n : ℕ} {schema : JsonSchema}
    (h : sourceSubtreeSafe n (some (.obj schema)) = true) :
    protectedSource schema = false ∧ ambiguousSourceSchema schema = false ∧
      ∃ m kind, n = m + 1 ∧ schema.lookup "type" = some (.str kind) ∧
        (kind = "array" → sourceSubtreeSafe m (schema.lookup "items") = true) ∧
        (kind = "object" → (∀ properties, schema.lookup "properties" = some (.obj properties) →
            ∀ e ∈ properties, sourceSubtreeSafe m (some e.2) = true) ∧
          (schema.lookup "additionalProperties" = some (.bool false) ∨
            sourceSubtreeSafe m (schema.lookup "additionalProperties") = true)) := by
  cases n with
  | zero => cases h
  | succ m =>
    rw [sourceSubtreeSafe] at h
    split at h
    · cases h
    · next hr =>
      simp only [Bool.or_eq_true, not_or, Bool.not_eq_true] at hr
      refine ⟨hr.1, hr.2, m, ?_⟩
      split at h
      · next kind ht =>
        refine ⟨kind, rfl, ht, fun hk => ?_, fun hk => ?_⟩
        · subst hk
          simpa using h
        · subst hk
          simp only [List.mem_cons, String.reduceEq, List.not_mem_nil, or_self, if_false, if_true,
            Bool.and_eq_true, Bool.or_eq_true, decide_eq_true_eq] at h
          refine ⟨fun properties hp e he => ?_, h.2⟩
          rw [hp] at h
          exact List.all_eq_true.1 h.1 e he
      · cases h

theorem Declares.entrySchema {schema child : JsonSchema} {key : String}
    (h : Declares schema key child) : entrySchema schema key = .schema child := by
  obtain ⟨properties, hp, hc⟩ := h
  simp [Workflows.entrySchema, hp, hc]

theorem entrySchema_additional {schema child : JsonSchema} {key : String}
    (h : ∀ other, ¬Declares schema key other)
    (hc : schema.lookup "additionalProperties" = some (.obj child)) :
    entrySchema schema key = .schema child := by
  unfold entrySchema
  simp only
  split
  · next other ho =>
    split at ho
    · next properties hp => exact absurd ⟨properties, hp, ho⟩ (h other)
    · cases ho
  · rw [hc]

section

variable [Host]

/-- **A step from a safe schema.**  What it covers is safe again, and the value
there conforms to it. -/
theorem safe_of_covers {n : ℕ} {schema child : JsonSchema} {value inner : Json}
    {steps : List Step} (hs : sourceSubtreeSafe n (some (.obj schema)) = true)
    (hcon : Conforms value schema) (hcov : Covers schema value false steps child)
    (hinn : at? steps value = some inner) :
    ∃ m, sourceSubtreeSafe m (some (.obj child)) = true ∧ Conforms inner child := by
  obtain ⟨-, hamb, m, kind, rfl, ht, harr, ho⟩ := subtree_root hs
  refine ⟨m, ?_⟩
  cases hcov with
  | property hd =>
    cases value with
    | obj fields =>
      obtain rfl := type_object ht hcon.type
      have he := hcon.entry _ (Json.mem_of_lookup_eq (by simpa [at?, below?] using hinn))
      rw [hd.entrySchema] at he
      obtain ⟨properties, hp, hc⟩ := hd
      exact ⟨(ho rfl).1 properties hp _ (Json.mem_of_lookup_eq hc), he⟩
    | _ => simp [at?, below?] at hinn
  | additional hn ha =>
    cases value with
    | obj fields =>
      obtain rfl := type_object ht hcon.type
      have he := hcon.entry _ (Json.mem_of_lookup_eq (by simpa [at?, below?] using hinn))
      rw [entrySchema_additional hn ha] at he
      refine ⟨?_, he⟩
      rcases (ho rfl).2 with h | h
      · rw [ha] at h
        cases h
      · rwa [ha] at h
    | _ => simp [at?, below?] at hinn
  | item i hi =>
    cases value with
    | arr items =>
      obtain rfl := type_array ht hcon.type
      have hm : inner ∈ items := List.mem_of_getElem? (by simpa [at?, below?] using hinn)
      exact ⟨by simpa [hi] using harr rfl, hcon.item hi _ hm⟩
    | _ => simp [at?, below?] at hinn
  | combined _ _ hk hh =>
    rw [not_ambiguous hamb hk] at hh
    cases hh

/-- **Below a safe schema** nothing is governed by a protected one. -/
theorem unprotected_of_subtree {dependent : Bool} {schema node : JsonSchema} {value : Json}
    {path : List Step} (hg : GovernsIn dependent schema value path node) :
    dependent = false → ∀ {n : ℕ}, sourceSubtreeSafe n (some (.obj schema)) = true →
      Conforms value schema → protectedSource node = false := by
  induction hg with
  | here schema value => exact fun _ _ hs _ => (subtree_root hs).1
  | through hc hi _ ih =>
    intro hd n hs hcon
    rw [Bool.or_eq_false_iff] at hd
    obtain ⟨rfl, rfl⟩ := hd
    obtain ⟨m, hm, hchi⟩ := safe_of_covers hs hcon hc hi
    exact ih rfl hm hchi

/-! ### On the way to the selected schema -/

/-- **A step of the pointer.**  The schema the check goes on with is the only one
that covers the value the read goes on with, which conforms to it. -/
theorem pointerSchemaChild_covers {schema child other : JsonSchema} {value inner : Json}
    {segment : String} {step : Step} (hamb : ambiguousSourceSchema schema = false)
    (hcon : Conforms value schema)
    (hchi : pointerSchemaChild schema segment = some (.obj child))
    (hs : value.stepOf segment = some step) (hi : value.below? step = some inner) :
    Conforms inner child ∧ (Covers schema value false [step] other → other = child) := by
  have hcom : ∀ keyword ∈ ambiguousKeywords, hasKeyword schema keyword ≠ true := by
    intro keyword hk
    simp [not_ambiguous hamb hk]
  unfold pointerSchemaChild at hchi
  split at hchi
  · next ht =>
    obtain ⟨fields, rfl⟩ := object_of_type ht hcon.type
    simp only [stepOf, Option.some.injEq] at hs
    subst hs
    have hm := Json.mem_of_lookup_eq (by simpa [below?] using hi)
    -- the schema of the entry is the declared one or the additional one
    have hcas : Declares schema segment child ∨ (∀ other, ¬Declares schema segment other) ∧
        schema.lookup "additionalProperties" = some (.obj child) := by
      split at hchi
      · next properties hp =>
        split at hchi
        · next found hf =>
          rw [Option.some_inj] at hchi
          exact .inl ⟨properties, hp, by rw [hf, hchi]⟩
        · next hn =>
          refine .inr ⟨fun other ⟨properties', hp', hc⟩ => ?_, hchi⟩
          rw [hp, Option.some_inj, Json.obj.injEq] at hp'
          rw [← hp', hn] at hc
          cases hc
      · next hp =>
        exact .inr ⟨fun other ⟨properties, hp', _⟩ => hp properties hp', hchi⟩
    have he := hcon.entry _ hm
    rcases hcas with hd | ⟨hn, ha⟩
    · rw [hd.entrySchema] at he
      refine ⟨he, fun hcov => ?_⟩
      cases hcov with
      | property h =>
        have heq := h.entrySchema.symm.trans hd.entrySchema
        rwa [EntrySchema.schema.injEq] at heq
      | additional h _ => exact absurd hd (h child)
      | combined _ _ hk h => exact absurd h (hcom _ hk)
    · rw [entrySchema_additional hn ha] at he
      refine ⟨he, fun hcov => ?_⟩
      cases hcov with
      | property h => exact absurd h (hn other)
      | additional _ h => rwa [ha, Option.some_inj, Json.obj.injEq, eq_comm] at h
      | combined _ _ hk h => exact absurd h (hcom _ hk)
  · split at hchi
    · next ht =>
      obtain ⟨items, rfl⟩ := array_of_type ht.1 hcon.type
      simp only [stepOf, ht.2, if_true, Option.map_eq_some_iff] at hs
      obtain ⟨i, -, rfl⟩ := hs
      have hm : inner ∈ items := List.mem_of_getElem? (by simpa [below?] using hi)
      refine ⟨hcon.item hchi _ hm, fun hcov => ?_⟩
      cases hcov with
      | item _ h => rwa [hchi, Option.some_inj, Json.obj.injEq, eq_comm] at h
      | combined _ _ hk h => exact absurd h (hcom _ hk)
    · cases hchi

/-- **Along a safe pointer** and below the schema it leads to, nothing is governed
by a protected one. -/
theorem unprotected_of_follow (segments : List String) : ∀ {schema selected : JsonSchema}
    {value : Json} {path : List Step}, followSource schema segments = some selected →
    sourceSubtreeSafe schemaDepth (some (.obj selected)) = true → Conforms value schema →
    pathOf segments value = some path → ∀ below above, above <+: path ++ below →
      ∀ node, GovernsIn false schema value above node → protectedSource node = false := by
  induction segments with
  | nil =>
    intro schema selected value path hf hs hc _ below above _ node hg
    rw [followSource, Option.some_inj] at hf
    subst hf
    exact unprotected_of_subtree hg rfl hs hc
  | cons segment segments ih =>
    intro schema selected value path hf hs hc hp below above ha node hg
    rw [followSource] at hf
    split at hf
    · cases hf
    next hr =>
    simp only [Bool.or_eq_true, not_or, Bool.not_eq_true] at hr
    split at hf
    · next child hchi =>
      simp only [pathOf, Option.bind_eq_some_iff, Option.map_eq_some_iff] at hp
      obtain ⟨step, hstep, inner, hi, rest, hrest, rfl⟩ := hp
      generalize hd : false = dependent at hg
      cases hg with
      | here => exact hr.1
      | through hcov hi' hg =>
        rename_i steps q
        obtain ⟨rfl, rfl⟩ := Bool.or_eq_false_iff.1 hd.symm
        have hagr := fun other => @pointerSchemaChild_covers _ schema child other value inner
          segment step hr.2 hc hchi hstep hi
        -- a covered position on the way is the next one
        have hn : ∀ x, steps = [x] → protectedSource node = false := by
          rintro x rfl
          rw [List.singleton_append, List.cons_append, List.cons_prefix_cons] at ha
          obtain ⟨rfl, ha⟩ := ha
          obtain ⟨hc', hsame⟩ := hagr _
          obtain rfl := hsame hcov
          simp only [at?, hi, Option.bind_some, Option.some.injEq] at hi'
          subst hi'
          exact ih hf hs hc' hrest below q ha node hg
        cases hcov with
        | property _ => exact hn _ rfl
        | additional _ _ => exact hn _ rfl
        | item i _ => exact hn _ rfl
        | combined _ _ hk h =>
          rw [not_ambiguous hr.2 hk] at h
          cases h
    next => cases hf

/-- **What a safe pointer selects from a conforming value is unprotected, exactly
when nothing in it is protected through `dependencies`.** -/
theorem selects_unprotected_iff (schema : JsonSchema) (value : Json) (pointer : String)
    (permissions : List String) (hconforms : Conforms value schema)
    (hsafe : sourcePointerIsSafe (some schema) pointer = true) :
    SelectsUnprotected (fun above node => ∃ dependent, GovernsIn dependent schema value above node)
        permissions value pointer ↔
      SelectsUnprotected (GovernsIn true schema value) permissions value pointer := by
  constructor
  · intro h selected hr
    obtain ⟨path, hp, hat, hn⟩ := h selected hr
    exact ⟨path, hp, hat, fun below hb above ha node hg =>
      hn below hb above ha node ⟨true, hg⟩⟩
  · intro h selected hr
    obtain ⟨path, hp, hat, hn⟩ := h selected hr
    refine ⟨path, hp, hat, fun below hb above ha node ⟨dependent, hg⟩ => ?_⟩
    cases dependent with
    | true => exact hn below hb above ha node hg
    | false =>
      unfold sourcePointerIsSafe at hsafe
      simp only at hsafe
      split at hsafe
      · split at hsafe
        · next found hf =>
          exact schemaReason_eq_none permissions
            (unprotected_of_follow _ hf hsafe hconforms hp below above ha node hg)
        · cases hsafe
      · cases hsafe

end

/-! ### A dependency -/

/-- A schema of cards whose `pin` is the concern of a dependency as well. -/
def cardSchema (dependent : List (String × Json)) : JsonSchema :=
  [("type", .str "object"), ("properties", .obj [("card", .obj
    [("type", .str "object"), ("additionalProperties", .bool false),
      ("properties", .obj [("pin", .obj [("type", .str "string")])]),
      ("dependencies", .obj [("pin", .obj [("properties", .obj [("pin", .obj dependent)])])])])])]

/-- An object with a card. -/
def cardValue : Json :=
  .obj [("card", .obj [("pin", .str "0000")])]

theorem selects_unprotected_iff_card : SelectsUnprotected
        (fun above node => ∃ dependent, GovernsIn dependent (cardSchema []) cardValue above node)
        [] cardValue "/card/pin" ↔
      SelectsUnprotected (GovernsIn true (cardSchema []) cardValue) [] cardValue "/card/pin" :=
  @selects_unprotected_iff plainHost _ _ _ _ ⟨"", by decide +kernel⟩ (by decide +kernel)

/-- A pointer the check calls safe selects a value that a dependency keeps secret. -/
theorem selects_protected_dependency :
    @Conforms plainHost cardValue (cardSchema [("writeOnly", .bool true)]) ∧
      sourcePointerIsSafe (some (cardSchema [("writeOnly", .bool true)])) "/card/pin" = true ∧
      ¬SelectsUnprotected (fun above node => ∃ dependent,
            GovernsIn dependent (cardSchema [("writeOnly", .bool true)]) cardValue above node)
          [] cardValue "/card/pin" := by
  refine ⟨⟨"", by decide +kernel⟩, by decide +kernel, fun h => ?_⟩
  obtain ⟨path, hp, -, hn⟩ := h (.str "0000") (by decide +kernel)
  have hp' : pathOf (readSegments "/card/pin") cardValue = some [.key "card", .key "pin"] := by
    decide +kernel
  rw [hp', Option.some_inj] at hp
  subst hp
  -- the dependency of the card covers the card, and its property the pin
  have hpin : GovernsIn false [("properties", .obj [("pin", .obj [("writeOnly", .bool true)])])]
      (.obj [("pin", .str "0000")]) ([.key "pin"] ++ []) [("writeOnly", .bool true)] :=
    .through (.property ⟨_, rfl, rfl⟩) rfl (.here _ (.str "0000"))
  have hc : GovernsIn true (cardSchema [("writeOnly", .bool true)]) cardValue
      ([.key "card"] ++ ([] ++ [.key "pin"])) [("writeOnly", .bool true)] :=
    .through (.property ⟨_, rfl, rfl⟩) rfl
      (.through (@Covers.dependency _ _ "pin" _ _ rfl rfl rfl) rfl hpin)
  have hr := hn [] rfl [.key "card", .key "pin"] (List.prefix_refl _) _ ⟨true, hc⟩
  revert hr
  decide +kernel

end Flowdular.Workflows
