/-
# What the tool contract accepts

A value conforms to a schema as far as its own names go (`Conforms`), which is to violate it
nowhere (`conforms_iff`).  The check of `validateJsonSchemaValue` finds every violation but
those about a name that every object inherits (`lenient`), and so is exact on the values
that conform and on those with another fault (`tool_contract_exact`).
-/

import Flowdular.Harness.ToolContract

namespace Flowdular.Harness

/-! ### What conforms -/

section Conforms

variable (heap : Heap)

/-- The value is of the type a schema asks for. -/
def SchemaType.Allows (type : SchemaType) (item : Item heap.size) : Prop :=
  match type with
  | .any => True
  | .one name => matchesType heap item name = true
  | .oneOf names => ∃ name ∈ names, matchesType heap item name = true

/-- The value is one of an enumeration, where there is one. -/
def EnumAllows (enum : Option (List Scalar)) (item : Item heap.size) : Prop :=
  ∀ candidates ∈ enum, ∃ candidate ∈ candidates, candidate.same heap item = true

/-- **A value conforms to a schema**: its type and the value itself are allowed; an object
has every required name as its own, each of its own names that is declared holds a value
that conforms, and where nothing else is accepted all are declared; the elements of an
array conform to the schema of the elements. -/
inductive Conforms : JsonSchema → Item heap.size → Prop where
  | mk {type : SchemaType} {enum : Option (List Scalar)} {required : List String}
      {properties : List (String × JsonSchema)} {closed : Bool} {items : Option JsonSchema}
      {item : Item heap.size}
      (htype : type.Allows heap item)
      (henum : EnumAllows heap enum item)
      (hrequired : ∀ prototype entries, entriesOf heap item = some (prototype, entries) →
        ∀ key ∈ required, key ∈ entries.map (·.1))
      (hproperties : ∀ prototype entries, entriesOf heap item = some (prototype, entries) →
        ∀ key child, (key, child) ∈ entries → ∀ property, properties.lookup key = some property →
          Conforms property child)
      (hclosed : closed = true → ∀ prototype entries, entriesOf heap item = some (prototype, entries) →
        ∀ key ∈ entries.map (·.1), properties.lookup key ≠ none)
      (hitems : ∀ elements schema, elementsOf heap item = some elements → items = some schema →
        ∀ child ∈ elements, Conforms schema child) :
      Conforms (.mk type enum required properties closed items) item

/-- What a schema may find wrong. -/
inductive Violation where
  | mistyped
  | notAllowed
  | missing (key : String) (prototype : Prototype)
  | unaccepted (key : String)

/-- The fault is about a name that every object inherits: one that is missing though the
object inherits it, or one that is there though only the plain object of the properties
inherits it. -/
def Violation.AboutInherited : Violation → Prop
  | .missing key prototype => prototype ≠ .null ∧ key ∈ inherited
  | .unaccepted key => key ∈ inherited
  | .mistyped | .notAllowed => False

/-- Something in a value is not as a schema asks. -/
inductive Violates : JsonSchema → Item heap.size → Violation → Prop where
  | mistyped {type : SchemaType} {enum : Option (List Scalar)} {required : List String}
      {properties : List (String × JsonSchema)} {closed : Bool} {items : Option JsonSchema}
      {item : Item heap.size} (h : ¬type.Allows heap item) :
      Violates (.mk type enum required properties closed items) item .mistyped
  | notAllowed {type : SchemaType} {enum : Option (List Scalar)} {required : List String}
      {properties : List (String × JsonSchema)} {closed : Bool} {items : Option JsonSchema}
      {item : Item heap.size} (h : ¬EnumAllows heap enum item) :
      Violates (.mk type enum required properties closed items) item .notAllowed
  | missing {type : SchemaType} {enum : Option (List Scalar)} {required : List String}
      {properties : List (String × JsonSchema)} {closed : Bool} {items : Option JsonSchema}
      {item : Item heap.size} {prototype : Prototype} {entries : List (String × Item heap.size)}
      {key : String} (hentries : entriesOf heap item = some (prototype, entries))
      (hkey : key ∈ required) (h : key ∉ entries.map (·.1)) :
      Violates (.mk type enum required properties closed items) item (.missing key prototype)
  | unaccepted {type : SchemaType} {enum : Option (List Scalar)} {required : List String}
      {properties : List (String × JsonSchema)} {items : Option JsonSchema}
      {item : Item heap.size} {prototype : Prototype} {entries : List (String × Item heap.size)}
      {key : String} (hentries : entriesOf heap item = some (prototype, entries))
      (hkey : key ∈ entries.map (·.1)) (h : properties.lookup key = none) :
      Violates (.mk type enum required properties true items) item (.unaccepted key)
  | property {type : SchemaType} {enum : Option (List Scalar)} {required : List String}
      {properties : List (String × JsonSchema)} {closed : Bool} {items : Option JsonSchema}
      {item child : Item heap.size} {prototype : Prototype} {entries : List (String × Item heap.size)}
      {key : String} {property : JsonSchema} {violation : Violation}
      (hentries : entriesOf heap item = some (prototype, entries)) (hchild : (key, child) ∈ entries)
      (hproperty : properties.lookup key = some property) (h : Violates property child violation) :
      Violates (.mk type enum required properties closed items) item violation
  | element {type : SchemaType} {enum : Option (List Scalar)} {required : List String}
      {properties : List (String × JsonSchema)} {closed : Bool} {schema : JsonSchema}
      {item child : Item heap.size} {elements : List (Item heap.size)} {violation : Violation}
      (helements : elementsOf heap item = some elements) (hchild : child ∈ elements)
      (h : Violates schema child violation) :
      Violates (.mk type enum required properties closed (some schema)) item violation

variable {heap}

variable {item : Item heap.size} {schema : JsonSchema}

theorem Conforms.not_violates {violation : Violation}
    (h : Violates heap schema item violation) : ¬Conforms heap schema item := by
  induction h with
  | mistyped h =>
    rintro ⟨ht⟩
    exact h ht
  | notAllowed h =>
    rintro ⟨-, henum⟩
    exact h henum
  | missing he hk h =>
    rintro ⟨-, -, hr⟩
    exact h (hr _ _ he _ hk)
  | unaccepted he hk h =>
    rintro ⟨-, -, -, -, hc⟩
    exact hc rfl _ _ he _ hk h
  | property he hchi hpro _ ih =>
    rintro ⟨-, -, -, hp⟩
    exact ih (hp _ _ he _ _ hchi _ hpro)
  | element hele hchi _ ih =>
    rintro ⟨-, -, -, -, -, hi⟩
    exact ih (hi _ _ hele rfl _ hchi)

/-- What a schema's own members need for what is said of the schema. -/
theorem conforms_mk {type : SchemaType} {enum : Option (List Scalar)} {required : List String}
    {properties : List (String × JsonSchema)} {closed : Bool} {items : Option JsonSchema}
    (hpro : ∀ key property, properties.lookup key = some property →
      ∀ child, (∀ violation, ¬Violates heap property child violation) → Conforms heap property child)
    (hi : ∀ schema, items = some schema →
      ∀ child, (∀ violation, ¬Violates heap schema child violation) → Conforms heap schema child)
    (item : Item heap.size)
    (h : ∀ violation, ¬Violates heap (.mk type enum required properties closed items) item violation) :
    Conforms heap (.mk type enum required properties closed items) item := by
  refine .mk ?_ ?_ ?_ ?_ ?_ ?_
  · exact not_not.1 fun hnot => h _ (.mistyped hnot)
  · exact not_not.1 fun hnot => h _ (.notAllowed hnot)
  · exact fun prototype entries he key hk =>
      not_not.1 fun hnot => h _ (.missing he hk hnot)
  · exact fun prototype entries he key child hc property hp =>
      hpro key property hp child fun violation hv =>
        h violation (.property he hc hp hv)
  · rintro rfl prototype entries he key hk hn
    exact h _ (.unaccepted he hk hn)
  · rintro elements schema hele rfl child hc
    exact hi schema rfl child fun violation hv =>
      h violation (.element hele hc hv)

mutual

theorem conforms_of_not_violates : (schema : JsonSchema) → ∀ item : Item heap.size,
    (∀ violation, ¬Violates heap schema item violation) → Conforms heap schema item
  | .mk _ _ _ properties _ items =>
    conforms_mk (conforms_properties properties) (conforms_items items)

theorem conforms_properties : (properties : List (String × JsonSchema)) →
    ∀ key property, properties.lookup key = some property → ∀ child : Item heap.size,
      (∀ violation, ¬Violates heap property child violation) → Conforms heap property child
  | [] => nofun
  | (name, schema) :: properties => by
    intro key property h
    rw [List.lookup_cons] at h
    split at h
    · cases h
      exact conforms_of_not_violates schema
    · exact conforms_properties properties key property h

theorem conforms_items : (items : Option JsonSchema) → ∀ schema, items = some schema →
    ∀ child : Item heap.size,
      (∀ violation, ¬Violates heap schema child violation) → Conforms heap schema child
  | none => nofun
  | some items => by
    rintro schema ⟨⟩
    exact conforms_of_not_violates items

end

/-- **A value conforms** exactly when nothing in it violates the schema. -/
theorem conforms_iff :
    Conforms heap schema item ↔ ∀ violation, ¬Violates heap schema item violation :=
  ⟨fun h _ hv => Conforms.not_violates hv h, conforms_of_not_violates schema item⟩

end Conforms

/-! ### What the check takes -/

section Takes

variable {heap : Heap} {options : CheckOptions}

theorem bind_ok_iff {ε : Type} {first second : Except ε Unit} :
    (first >>= fun _ => second) = .ok () ↔ first = .ok () ∧ second = .ok () := by
  cases first with
  | error error => simp [bind, Except.bind]
  | ok _ => simp [bind, Except.bind]

variable {enum : Option (List Scalar)} {item : Item heap.size} {path : String} {type : SchemaType}
  {required : List String} {closed : Bool} {properties : List (String × JsonSchema)}
  {schema : JsonSchema}

theorem checkValue_eq_ok : checkValue heap options type enum item path = .ok () ↔
      type.Allows heap item ∧ EnumAllows heap enum item := by
  unfold checkValue
  rw [bind_ok_iff]
  refine and_congr ?_ ?_
  · cases type with
    | any => simp [SchemaType.Allows]
    | one name =>
      dsimp only [SchemaType.Allows]
      split_ifs with h
      · exact iff_of_true rfl h
      · exact iff_of_false fail_ne_ok h
    | oneOf names =>
      dsimp only [SchemaType.Allows]
      rw [← List.any_eq_true]
      split_ifs with h
      · exact iff_of_true rfl h
      · exact iff_of_false fail_ne_ok h
  · cases enum with
    | none => simp [EnumAllows]
    | some candidates =>
      have ha : EnumAllows heap (some candidates) item ↔
          (candidates.any fun candidate => candidate.same heap item) = true := by
        simp [EnumAllows]
      rw [ha]
      dsimp only
      split_ifs with h
      · exact iff_of_true rfl h
      · exact iff_of_false fail_ne_ok h

theorem checkRequired_eq_ok {prototype : Prototype} {entries : List (String × Item heap.size)} :
    checkRequired heap options prototype entries path required = .ok () ↔
      ∀ key ∈ required, inRecord heap prototype entries key = true := by
  induction required with
  | nil => simp [checkRequired]
  | cons key required ih =>
    rw [checkRequired, List.forall_mem_cons]
    split_ifs with hk
    · rw [ih]
      simp [hk]
    · exact iff_of_false fail_ne_ok fun h => hk h.1

theorem checkElements_eq_ok {n : ℕ} {check : Checker n} {allowed : Item n → Prop}
    (h : ∀ item path, check item path = .ok () ↔ allowed item) :
    ∀ {items : List (Item n)} {index : ℕ},
      checkElements check path items index = .ok () ↔ ∀ item ∈ items, allowed item := by
  intro items
  induction items with
  | nil => simp [checkElements]
  | cons item items ih =>
    intro index
    rw [checkElements, bind_ok_iff, List.forall_mem_cons, h, ih]

theorem lookup_checkProperties {key : String} : ∀ {properties : List (String × JsonSchema)},
    (checkProperties heap options properties).lookup key =
      (properties.lookup key).map (checkSchema heap options) := by
  intro properties
  induction properties with
  | nil => rfl
  | cons property properties ih =>
    obtain ⟨name, schema⟩ := property
    rw [checkProperties, List.lookup_cons, List.lookup_cons, ih]
    split
    · rfl
    · rfl

/-- The check of a schema takes just the values it finds nothing wrong with but inherited
names. -/
def Lenient (heap : Heap) (options : CheckOptions) (schema : JsonSchema) : Prop :=
  ∀ item path, checkSchema heap options schema item path = .ok () ↔
    ∀ violation, Violates heap schema item violation → violation.AboutInherited

/-- What is asked of an entry: a value without faults but inherited names where it is
declared, and an inherited name where it is not and nothing else is accepted. -/
structure EntryLenient (heap : Heap) (properties : List (String × JsonSchema)) (closed : Bool)
    (entry : String × Item heap.size) : Prop where
  declared : ∀ property, properties.lookup entry.1 = some property →
    ∀ violation, Violates heap property entry.2 violation → violation.AboutInherited
  undeclared : closed = true → properties.lookup entry.1 = none → entry.1 ∈ inherited

theorem checkEntries_eq_ok
    (h : ∀ key property, properties.lookup key = some property → Lenient heap options property) :
    ∀ {entries : List (String × Item heap.size)},
      checkEntries options (checkProperties heap options properties) closed path entries = .ok () ↔
        ∀ entry ∈ entries, EntryLenient heap properties closed entry := by
  intro entries
  induction entries with
  | nil => simp [checkEntries]
  | cons entry entries ih =>
    obtain ⟨key, child⟩ := entry
    rw [checkEntries, bind_ok_iff, List.forall_mem_cons, ih]
    refine and_congr_left fun _ => ?_
    unfold propertyCheck
    rw [lookup_checkProperties]
    cases hl : properties.lookup key with
    | some property =>
      dsimp only [Option.map_some]
      rw [h key property hl]
      constructor
      · refine fun hchi => ⟨fun property' hp => ?_, fun _ hn => ?_⟩
        · rw [hl] at hp
          cases hp
          exact hchi
        · rw [hl] at hn
          cases hn
      · exact fun he => he.declared property hl
    | none =>
      have he : EntryLenient heap properties closed (key, child) ↔
          (closed = true → key ∈ inherited) := by
        refine ⟨fun he hc => he.undeclared hc hl, fun hu => ⟨?_, ?_⟩⟩
        · intro property hp
          rw [hl] at hp
          cases hp
        · exact fun hc _ => hu hc
      rw [he]
      dsimp only [Option.map_none]
      by_cases hk : key ∈ inherited
      · rw [if_pos hk]
        exact iff_of_true rfl fun _ => hk
      · rw [if_neg hk]
        cases closed with
        | true => exact iff_of_false fail_ne_ok fun ha => hk (ha rfl)
        | false => exact iff_of_true rfl nofun

theorem checkObject_eq_ok
    (h : ∀ key property, properties.lookup key = some property → Lenient heap options property) :
    checkObject heap options required (checkProperties heap options properties) closed item path = .ok () ↔
      ∀ prototype entries, entriesOf heap item = some (prototype, entries) →
        (∀ key ∈ required, inRecord heap prototype entries key = true) ∧
          ∀ entry ∈ entries, EntryLenient heap properties closed entry := by
  unfold checkObject
  cases he : entriesOf heap item with
  | none => simp [he]
  | some object =>
    obtain ⟨prototype, entries⟩ := object
    simp only [he]
    rw [bind_ok_iff, checkRequired_eq_ok, checkEntries_eq_ok h]
    constructor
    · rintro hb _ _ ⟨⟩
      exact hb
    · exact fun ha => ha prototype entries rfl

theorem checkArray_eq_ok {items : Option JsonSchema}
    (h : ∀ schema, items = some schema → Lenient heap options schema) :
    checkArray heap (checkItems heap options items) item path = .ok () ↔
      ∀ elements schema, elementsOf heap item = some elements → items = some schema →
        ∀ child ∈ elements, ∀ violation, Violates heap schema child violation →
          violation.AboutInherited := by
  unfold checkArray
  cases he : elementsOf heap item with
  | none => simp [he]
  | some elements =>
    cases hs : items with
    | none => simp [checkItems, he]
    | some schema =>
      simp only [checkItems, he]
      rw [checkElements_eq_ok (h schema hs)]
      constructor
      · rintro ha _ _ ⟨⟩ ⟨⟩
        exact ha
      · exact fun ha => ha elements schema rfl rfl

/-- **One schema**, if its members are checked so. -/
theorem lenient_mk {items : Option JsonSchema}
    (hproperties : ∀ key property, properties.lookup key = some property →
      Lenient heap options property)
    (hi : ∀ schema, items = some schema → Lenient heap options schema) :
    Lenient heap options (.mk type enum required properties closed items) := by
  intro item path
  rw [checkSchema, bind_ok_iff, bind_ok_iff, checkValue_eq_ok, checkObject_eq_ok hproperties,
    checkArray_eq_ok hi]
  constructor
  · rintro ⟨⟨ht, henum⟩, he, hele⟩ violation hv
    cases hv with
    | mistyped h => exact absurd ht h
    | notAllowed h => exact absurd henum h
    | missing ho hk h =>
      have hin := (he _ _ ho).1 _ hk
      rw [inRecord, decide_eq_false h, Bool.false_or, Bool.and_eq_true] at hin
      exact ⟨of_decide_eq_true hin.1, of_decide_eq_true hin.2⟩
    | unaccepted ho hk h =>
      obtain ⟨entry, hent, rfl⟩ := List.mem_map.1 hk
      exact ((he _ _ ho).2 entry hent).undeclared rfl h
    | property ho hc hp h =>
      exact ((he _ _ ho).2 _ hc).declared _ hp _ h
    | element ha hc h => exact hele _ _ ha rfl _ hc _ h
  · intro h
    refine ⟨⟨?_, ?_⟩, fun prototype entries he => ⟨fun key hk => ?_, fun entry hent => ⟨?_, ?_⟩⟩, ?_⟩
    · exact not_not.1 fun hnot => h _ (.mistyped hnot)
    · exact not_not.1 fun hnot => h _ (.notAllowed hnot)
    · by_cases hown : key ∈ entries.map (·.1)
      · rw [inRecord, decide_eq_true hown, Bool.true_or]
      · obtain ⟨hpro, hinh⟩ := h _ (.missing he hk hown)
        simp [inRecord, hpro, hinh]
    · exact fun property hp violation hv =>
        h violation (.property he hent hp hv)
    · rintro rfl hn
      exact h _ (.unaccepted he (List.mem_map_of_mem hent) hn)
    · rintro elements schema hele rfl child hc violation hv
      exact h violation (.element hele hc hv)

mutual

theorem lenient : (schema : JsonSchema) → Lenient heap options schema
  | .mk _ _ _ properties _ items => lenient_mk (lenient_properties properties) (lenient_items items)

theorem lenient_properties : (properties : List (String × JsonSchema)) →
    ∀ key property, properties.lookup key = some property → Lenient heap options property
  | [] => nofun
  | (name, schema) :: properties => by
    intro key property h
    rw [List.lookup_cons] at h
    split at h
    · cases h
      exact lenient schema
    · exact lenient_properties properties key property h

theorem lenient_items : (items : Option JsonSchema) →
    ∀ schema, items = some schema → Lenient heap options schema
  | none => nofun
  | some items => by
    rintro schema ⟨⟩
    exact lenient items

end

/-- What a tool is handed, and what it and a run return, is accepted. -/
theorem validate_eq_ok :
    validate heap options (some schema) item path = .ok () ↔ IsJson heap item ∧
      ∀ violation, Violates heap schema item violation → violation.AboutInherited := by
  rw [validate, bind_ok_iff, validateJsonValue_eq_ok]
  exact and_congr_right fun _ => lenient schema item path

/-- The check of a value is exact. -/
def Exact (accepted : Except AgentHarnessError Unit) (heap : Heap) (schema : JsonSchema)
    (item : Item heap.size) : Prop :=
  accepted = .ok () ↔ Conforms heap schema item

/-- The value conforms, or is at fault in something else than an inherited name. -/
def NotJustInherited (heap : Heap) (schema : JsonSchema) (item : Item heap.size) : Prop :=
  (∀ violation, ¬Violates heap schema item violation) ∨
    ∃ violation, Violates heap schema item violation ∧ ¬violation.AboutInherited

theorem exact_iff (hj : IsJson heap item) :
    Exact (validate heap options (some schema) item path) heap schema item ↔
      NotJustInherited heap schema item := by
  unfold Exact NotJustInherited
  rw [validate_eq_ok, conforms_iff]
  constructor
  · intro h
    by_cases hl : ∀ violation, Violates heap schema item violation → violation.AboutInherited
    · exact .inl (h.1 ⟨hj, hl⟩)
    · obtain ⟨violation, hv⟩ := not_forall.1 hl
      exact .inr ⟨violation, Classical.not_imp.1 hv⟩
  · rintro (hn | ⟨violation, hv, hnot⟩)
    · exact iff_of_true ⟨hj, fun violation h => absurd h (hn violation)⟩ hn
    · exact iff_of_false (fun h => hnot (h.2 violation hv)) fun h => h violation hv

/-- **The checks of the tool contract.**  They are exact on a JSON value that conforms or is
at fault in something else than an inherited name, and on no other; and the walk over a
value ends and refuses, among values of plain parts, just those that hold something that
holds itself. -/
theorem tool_contract_exact {schema : JsonSchema} {item : Item heap.size} (hjson : IsJson heap item)
    (path : String) :
    (Exact (validateToolInput heap (some schema) item path) heap schema item ↔
      NotJustInherited heap schema item) ∧
    (Exact (validateToolOutput heap (some schema) item) heap schema item ↔
      NotJustInherited heap schema item) ∧
    (Exact (validateStructuredOutput heap schema item) heap schema item ↔
      NotJustInherited heap schema item) ∧
    ∀ (heap : Heap) (options : CheckOptions) (item : Item heap.size),
      validateJsonValue heap options item = .ok () ↔ IsJson heap item :=
  ⟨exact_iff hjson, exact_iff hjson, exact_iff hjson, fun _ _ item => validateJsonValue_eq_ok item⟩

end Takes

/-! ### Inherited names -/

/-- An empty object, and one with an entry named as a member of every object. -/
def sampleHeap : Heap where
  size := 2
  node id := if id = 0 then .obj .object [] else .obj .object [("constructor", .num 1)]

/-- The empty object. -/
def emptyItem : Item sampleHeap.size :=
  .ref ⟨0, by decide⟩

/-- The other one. -/
def namedItem : Item sampleHeap.size :=
  .ref ⟨1, by decide⟩

/-- A schema that asks for some names and accepts no others. -/
def sampleSchema (required : List String) : JsonSchema :=
  .mk (.one "object") none required [] true none

theorem visit_emptyItem (options : CheckOptions) :
    validateJsonValue sampleHeap options emptyItem = .ok () := by
  rw [validateJsonValue, emptyItem, visit, if_neg (Finset.notMem_empty _)]
  show visitEntries sampleHeap options _ [] _ = _
  rw [visitEntries]

theorem visit_namedItem (options : CheckOptions) :
    validateJsonValue sampleHeap options namedItem = .ok () := by
  rw [validateJsonValue, namedItem, visit, if_neg (Finset.notMem_empty _)]
  show visitEntries sampleHeap options _ [("constructor", .num 1)] _ = _
  rw [visitEntries, visit, bind_ok_iff]
  exact ⟨rfl, by rw [visitEntries]⟩

theorem tool_contract_exact_empty :
    Exact (validateToolInput sampleHeap (some (sampleSchema ["id"])) emptyItem "") sampleHeap
      (sampleSchema ["id"]) emptyItem := by
  have hj : IsJson sampleHeap emptyItem :=
    (validateJsonValue_eq_ok _).1 (visit_emptyItem ⟨"", ""⟩)
  refine (tool_contract_exact hj "").1.2 (.inr ⟨.missing "id" .object, ?_, ?_⟩)
  · exact .missing rfl List.mem_cons_self List.not_mem_nil
  · exact fun h => absurd h.2 (by decide)

/-- **The checks accept what does not conform** where a required name is one that every
object inherits, and where a name that is not declared is. -/
theorem tool_contract_inherits :
    (validateToolInput sampleHeap (some (sampleSchema ["toString"])) emptyItem "" = .ok () ∧
      ¬Conforms sampleHeap (sampleSchema ["toString"]) emptyItem) ∧
    (validateToolInput sampleHeap (some (sampleSchema [])) namedItem "" = .ok () ∧
      ¬Conforms sampleHeap (sampleSchema []) namedItem) := by
  refine ⟨⟨?_, fun h => ?_⟩, ⟨?_, fun h => ?_⟩⟩
  · rw [validateToolInput, validate, bind_ok_iff]
    exact ⟨visit_emptyItem _, by decide⟩
  · exact conforms_iff.1 h _ (.missing rfl List.mem_cons_self List.not_mem_nil)
  · rw [validateToolInput, validate, bind_ok_iff]
    exact ⟨visit_namedItem _, by decide⟩
  · exact conforms_iff.1 h _ (.unaccepted rfl List.mem_cons_self rfl)

end Flowdular.Harness
