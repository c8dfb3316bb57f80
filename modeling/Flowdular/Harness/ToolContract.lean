/-
# The tool contract

`src/packages/harness/src/tool-contract.ts`: what a model hands a tool, what a tool returns
and what a run returns are JSON values (`validateJsonValue`) of the shape a schema asks for
(`validateJsonSchemaValue`).

A value is an item over a heap of arrays and objects, which may share parts and may be
cyclic.  The walk over it keeps the objects it is in, and so ends (`visit`) and takes just
the values without a cycle (`validateJsonValue_eq_ok`).  A schema is checked with
`in` and with the entries of a plain object, which know the names an object inherits as well
as its own.
-/

import Flowdular.Workflows.Json
import Mathlib.Data.Finset.Card
import Mathlib.Data.Fintype.Card
import Mathlib.Logic.Relation

namespace Flowdular.Harness

open Workflows (Decimal)

/-! ### Values -/

/-- A value as a variable holds it, over a heap of `n` arrays and objects. -/
inductive Item (n : ℕ) where
  | null
  | bool (b : Bool)
  | num (d : Decimal)
  /-- A number that is not finite. -/
  | nonFinite
  | str (s : String)
  /-- A value of another `typeof`, such as `undefined` or a function. -/
  | other (typeName : String)
  | ref (id : Fin n)
deriving DecidableEq

/-- `Object.getPrototypeOf`. -/
inductive Prototype where
  | object
  | null
  | other
deriving DecidableEq

/-- An array or an object of the heap. -/
inductive Node (n : ℕ) where
  | arr (items : List (Item n))
  | obj (prototype : Prototype) (entries : List (String × Item n))

/-- The arrays and objects there are. -/
structure Heap where
  size : ℕ
  node : Fin size → Node size

structure AgentHarnessError where
  code : String
  message : String
deriving DecidableEq

/-- The options of a check. -/
structure CheckOptions where
  code : String
  label : String

def fail {α : Type} (options : CheckOptions) (path reason : String) : Except AgentHarnessError α :=
  .error ⟨options.code,
    options.label ++ " " ++ (if path = "" then "value" else path) ++ " " ++ reason ++ "."⟩

/-- The path of an entry. -/
def childPath (path key : String) : String :=
  path ++ (if path = "" then "" else ".") ++ key

/-- The path of an element. -/
def elementPath (path : String) (index : ℕ) : String :=
  path ++ "[" ++ toString index ++ "]"

/-! ### JSON values -/

section Visit

variable (heap : Heap) (options : CheckOptions)

mutual

/-- `visit`; `seen` are the objects the walk is in. -/
def visit (seen : Finset (Fin heap.size)) (item : Item heap.size) (path : String) :
    Except AgentHarnessError Unit :=
  match item with
  | .null | .bool _ | .str _ | .num _ => .ok ()
  | .nonFinite => fail options path "must be a finite number"
  | .other _ => fail options path "must be JSON serializable"
  | .ref id =>
    if id ∈ seen then fail options path "must not contain cycles"
    else
      match heap.node id with
      | .arr items => visitItems (insert id seen) items path 0
      | .obj .other _ => fail options path "must contain only plain objects"
      | .obj _ entries => visitEntries (insert id seen) entries path
termination_by (heap.size - seen.card, 0)
decreasing_by
  all_goals
    have hcard : (insert id seen).card ≤ heap.size := by
      simpa using Finset.card_le_univ (insert id seen)
    have hinsert := Finset.card_insert_of_notMem ‹id ∉ seen›
    exact Prod.Lex.left _ _ (by omega)

/-- `item.forEach`. -/
def visitItems (seen : Finset (Fin heap.size)) (items : List (Item heap.size)) (path : String)
    (index : ℕ) : Except AgentHarnessError Unit :=
  match items with
  | [] => .ok ()
  | child :: items =>
    visit seen child (elementPath path index) >>= fun _ => visitItems seen items path (index + 1)
termination_by (heap.size - seen.card, items.length + 1)

/-- The loop over `Object.entries(item)`. -/
def visitEntries (seen : Finset (Fin heap.size)) (entries : List (String × Item heap.size))
    (path : String) : Except AgentHarnessError Unit :=
  match entries with
  | [] => .ok ()
  | (key, child) :: entries =>
    visit seen child (childPath path key) >>= fun _ => visitEntries seen entries path
termination_by (heap.size - seen.card, entries.length + 1)

end

def validateJsonValue (item : Item heap.size) : Except AgentHarnessError Unit :=
  visit heap options ∅ item ""

/-! ### What the walk takes -/

/-- What an array or an object holds. -/
def Node.children {n : ℕ} : Node n → List (Item n)
  | .arr items => items
  | .obj _ entries => entries.map (·.2)

/-- A value holds another. -/
def Holds (a b : Item heap.size) : Prop :=
  ∃ id, a = .ref id ∧ b ∈ (heap.node id).children

/-- A value that has a JSON text of its own, whatever it holds. -/
def Plain : Item heap.size → Prop
  | .null | .bool _ | .str _ | .num _ => True
  | .nonFinite | .other _ => False
  | .ref id => ∀ entries, heap.node id ≠ .obj .other entries

/-- A JSON value: everything in it is plain, and nothing in it holds itself. -/
structure IsJson (item : Item heap.size) : Prop where
  plain : ∀ part, Relation.ReflTransGen (Holds heap) item part → Plain heap part
  acyclic : ∀ part, Relation.ReflTransGen (Holds heap) item part →
    ¬Relation.TransGen (Holds heap) part part

/-- What the walk takes within some objects it is in. -/
structure Walkable (seen : Finset (Fin heap.size)) (item : Item heap.size) : Prop extends
    IsJson heap item where
  fresh : ∀ id, Relation.ReflTransGen (Holds heap) item (.ref id) → id ∉ seen

variable {heap options}

theorem visitItems_eq_ok {seen : Finset (Fin heap.size)} :
    ∀ {items : List (Item heap.size)} {path : String} {index : ℕ},
      (∀ child ∈ items, ∀ path, visit heap options seen child path = .ok () ↔ Walkable heap seen child) →
      (visitItems heap options seen items path index = .ok () ↔
        ∀ child ∈ items, Walkable heap seen child) := by
  intro items
  induction items with
  | nil => simp [visitItems]
  | cons child items ih =>
    intro path index h
    have hr := @ih path (index + 1) fun other ho => h other (List.mem_cons_of_mem _ ho)
    have hc := h child List.mem_cons_self (elementPath path index)
    rw [visitItems, List.forall_mem_cons, ← hc, ← hr]
    cases visit heap options seen child (elementPath path index) with
    | error error => simp [bind, Except.bind]
    | ok _ => simp [bind, Except.bind]

theorem visitEntries_eq_ok {seen : Finset (Fin heap.size)} :
    ∀ {entries : List (String × Item heap.size)} {path : String},
      (∀ entry ∈ entries, ∀ path,
        visit heap options seen entry.2 path = .ok () ↔ Walkable heap seen entry.2) →
      (visitEntries heap options seen entries path = .ok () ↔
        ∀ entry ∈ entries, Walkable heap seen entry.2) := by
  intro entries
  induction entries with
  | nil => simp [visitEntries]
  | cons entry entries ih =>
    intro path h
    have hr := @ih path fun other ho => h other (List.mem_cons_of_mem _ ho)
    have hc := h entry List.mem_cons_self (childPath path entry.1)
    rw [visitEntries, List.forall_mem_cons, ← hc, ← hr]
    cases visit heap options seen entry.2 (childPath path entry.1) with
    | error error => simp [bind, Except.bind]
    | ok _ => simp [bind, Except.bind]

theorem walkable_leaf {seen : Finset (Fin heap.size)} {item : Item heap.size}
    (h : ∀ id, item ≠ .ref id) : Walkable heap seen item ↔ Plain heap item := by
  have hl : ∀ part, Relation.ReflTransGen (Holds heap) item part → part = item := by
    intro part hp
    rcases Relation.ReflTransGen.cases_head hp with heq | ⟨child, ⟨id, hid, -⟩, -⟩
    · exact heq.symm
    · exact absurd hid (h id)
  constructor
  · exact fun hw => hw.plain item .refl
  · intro hpla
    refine ⟨⟨fun part hp => ?_, fun part hp hc => ?_⟩, fun id hid => absurd (hl _ hid).symm (h id)⟩
    · rw [hl part hp]
      exact hpla
    · rw [hl part hp] at hc
      obtain ⟨child, ⟨id, hid, -⟩, -⟩ := Relation.TransGen.head'_iff.1 hc
      exact h id hid

/-- An object that is walkable: it is not one the walk is in, and what it holds is walkable
within it. -/
theorem walkable_ref {seen : Finset (Fin heap.size)} {id : Fin heap.size} :
    Walkable heap seen (.ref id) ↔ id ∉ seen ∧ Plain heap (.ref id) ∧
      ∀ child ∈ (heap.node id).children, Walkable heap (insert id seen) child := by
  have he : ∀ child ∈ (heap.node id).children, Holds heap (.ref id) child :=
    fun child hchi => ⟨id, rfl, hchi⟩
  constructor
  · intro h
    refine ⟨h.fresh id .refl, h.plain _ .refl, fun child hchi => ⟨⟨?_, ?_⟩, ?_⟩⟩
    · exact fun part hp => h.plain part (.head (he child hchi) hp)
    · exact fun part hp => h.acyclic part (.head (he child hchi) hp)
    · intro other ho hm
      rcases Finset.mem_insert.1 hm with rfl | hm
      · exact h.acyclic _ .refl (Relation.TransGen.head'_iff.2 ⟨child, he child hchi, ho⟩)
      · exact h.fresh other (.head (he child hchi) ho) hm
  · rintro ⟨hid, hpla, hc⟩
    have hpar : ∀ part, Relation.ReflTransGen (Holds heap) (.ref id) part →
        part = .ref id ∨ ∃ child ∈ (heap.node id).children,
          Relation.ReflTransGen (Holds heap) child part := by
      intro part hp
      rcases Relation.ReflTransGen.cases_head hp with heq | ⟨child, ⟨id', hid', hchi⟩, hr⟩
      · exact .inl heq.symm
      · cases hid'
        exact .inr ⟨child, hchi, hr⟩
    refine ⟨⟨fun part hp => ?_, fun part hp hcyc => ?_⟩, fun other ho => ?_⟩
    · rcases hpar part hp with rfl | ⟨child, hchi, hr⟩
      · exact hpla
      · exact (hc child hchi).plain part hr
    · rcases hpar part hp with rfl | ⟨child, hchi, hr⟩
      · -- a child that leads back to the object would be walkable within it
        obtain ⟨child, ⟨id', hid', hchi⟩, hb⟩ := Relation.TransGen.head'_iff.1 hcyc
        cases hid'
        exact (hc child hchi).fresh id hb (Finset.mem_insert_self id seen)
      · exact (hc child hchi).acyclic part hr hcyc
    · rcases hpar (.ref other) ho with heq | ⟨child, hchi, hr⟩
      · cases heq
        exact hid
      · exact fun hm => (hc child hchi).fresh other hr (Finset.mem_insert_of_mem hm)

theorem fail_ne_ok {path reason : String} : fail options path reason ≠ .ok () :=
  nofun

/-- **The walk takes what is walkable.**  By induction on the number of objects it is not
in. -/
theorem visit_eq_ok (seen : Finset (Fin heap.size)) (item : Item heap.size) (path : String) :
    visit heap options seen item path = .ok () ↔ Walkable heap seen item := by
  induction hn : heap.size - seen.card using Nat.strong_induction_on generalizing seen item path with
  | _ n ih =>
    cases item with
    | null | bool b | num d | str s =>
      rw [visit, walkable_leaf (by simp)]
      simp [Plain]
    | nonFinite | other typeName =>
      rw [visit, walkable_leaf (by simp)]
      exact iff_of_false fail_ne_ok id
    | ref id =>
      rw [visit, walkable_ref]
      split_ifs with hid
      · exact iff_of_false fail_ne_ok fun h => h.1 hid
      · have hc : (insert id seen).card ≤ heap.size := by
          simpa using Finset.card_le_univ (insert id seen)
        have hi := Finset.card_insert_of_notMem hid
        have hchi : ∀ child path, visit heap options (insert id seen) child path = .ok () ↔
            Walkable heap (insert id seen) child :=
          fun child path => ih _ (by omega) (insert id seen) child path rfl
        cases hnode : heap.node id with
        | arr items =>
          dsimp only
          rw [visitItems_eq_ok fun child _ => hchi child]
          simp [hid, Plain, hnode, Node.children]
        | obj prototype entries =>
          cases prototype with
          | other =>
            refine iff_of_false fail_ne_ok fun h => ?_
            exact h.2.1 entries hnode
          | object | null =>
            dsimp only
            rw [visitEntries_eq_ok fun entry _ => hchi entry.2, Node.children, List.forall_mem_map]
            simp [hid, Plain, hnode]

/-- **The walk over a value ends, and takes exactly the values that are plain all through
and hold nothing that holds itself.** -/
theorem validateJsonValue_eq_ok (item : Item heap.size) :
    validateJsonValue heap options item = .ok () ↔ IsJson heap item := by
  rw [validateJsonValue, visit_eq_ok]
  exact ⟨fun h => h.toIsJson, fun h => ⟨h, fun _ _ => Finset.notMem_empty _⟩⟩

end Visit

/-! ### Schemas -/

/-- `type`, where a schema has one. -/
inductive SchemaType where
  | any
  | one (name : String)
  | oneOf (names : List String)
deriving DecidableEq

/-- A scalar an enumeration may list. -/
inductive Scalar where
  | null
  | bool (b : Bool)
  | num (d : Decimal)
  | str (s : String)
deriving DecidableEq

/-- `JsonSchema`, the subset the contract knows; `closed` is `additionalProperties: false`. -/
inductive JsonSchema where
  | mk (type : SchemaType) (enum : Option (List Scalar)) (required : List String)
      (properties : List (String × JsonSchema)) (closed : Bool) (items : Option JsonSchema)

section Check

variable (heap : Heap)

def typeOf : Item heap.size → String
  | .null => "null"
  | .bool _ => "boolean"
  | .num _ | .nonFinite => "number"
  | .str _ => "string"
  | .other typeName => typeName
  | .ref id =>
    match heap.node id with
    | .arr _ => "array"
    | .obj .. => "object"

def isInteger : Item heap.size → Bool
  | .num d => 0 ≤ d.exponent
  | .null | .bool _ | .nonFinite | .str _ | .other _ | .ref _ => false

def matchesType (item : Item heap.size) (expected : String) : Bool :=
  if expected = "integer" then typeOf heap item = "number" && isInteger heap item
  else if expected = "number" then typeOf heap item = "number"
  else typeOf heap item = expected

/-- `candidate === value`. -/
def Scalar.same (candidate : Scalar) : Item heap.size → Bool
  | .null => candidate = .null
  | .bool b => candidate = .bool b
  | .num d => candidate = .num d
  | .str s => candidate = .str s
  | .nonFinite | .other _ | .ref _ => false

/-- The entries of an object. -/
def entriesOf : Item heap.size → Option (Prototype × List (String × Item heap.size))
  | .ref id =>
    match heap.node id with
    | .arr _ => none
    | .obj prototype entries => some (prototype, entries)
  | .null | .bool _ | .num _ | .nonFinite | .str _ | .other _ => none

/-- The elements of an array. -/
def elementsOf : Item heap.size → Option (List (Item heap.size))
  | .ref id =>
    match heap.node id with
    | .arr items => some items
    | .obj .. => none
  | .null | .bool _ | .num _ | .nonFinite | .str _ | .other _ => none

/-- The names `Object.prototype` has. -/
def inherited : List String :=
  ["constructor", "__defineGetter__", "__defineSetter__", "hasOwnProperty", "__lookupGetter__",
    "__lookupSetter__", "isPrototypeOf", "propertyIsEnumerable", "toString", "valueOf", "__proto__",
    "toLocaleString"]

/-- `key in record`. -/
def inRecord (prototype : Prototype) (entries : List (String × Item heap.size)) (key : String) : Bool :=
  key ∈ entries.map (·.1) || (prototype ≠ .null && key ∈ inherited)

/-- The type and the enumeration. -/
def checkValue (options : CheckOptions) (type : SchemaType) (enum : Option (List Scalar))
    (item : Item heap.size) (path : String) : Except AgentHarnessError Unit :=
  let typed : Except AgentHarnessError Unit :=
    match type with
    | .any => .ok ()
    | .one name =>
      if matchesType heap item name then .ok () else fail options path ("must be of type " ++ name)
    | .oneOf names =>
      if names.any (matchesType heap item) then .ok ()
      else fail options path ("must be one of " ++ ", ".intercalate names)
  typed >>= fun _ =>
    match enum with
    | none => .ok ()
    | some candidates =>
      if candidates.any fun candidate => candidate.same heap item then .ok ()
      else fail options path "is not an allowed value"

/-- The loop over `required`. -/
def checkRequired (options : CheckOptions) (prototype : Prototype)
    (entries : List (String × Item heap.size)) (path : String) :
    List String → Except AgentHarnessError Unit
  | [] => .ok ()
  | key :: required =>
    if inRecord heap prototype entries key then checkRequired options prototype entries path required
    else fail options (childPath path key) "is required"

/-- A check of a value at a path. -/
abbrev Checker (n : ℕ) :=
  Item n → String → Except AgentHarnessError Unit

/-- `properties[key]`: a declared property, or one the plain object inherits, whose value
asks for nothing. -/
def propertyCheck {n : ℕ} (properties : List (String × Checker n)) (key : String) : Option (Checker n) :=
  match properties.lookup key with
  | some check => some check
  | none => if key ∈ inherited then some fun _ _ => .ok () else none

/-- The loop over `Object.entries(record)`. -/
def checkEntries {n : ℕ} (options : CheckOptions) (properties : List (String × Checker n))
    (closed : Bool) (path : String) : List (String × Item n) → Except AgentHarnessError Unit
  | [] => .ok ()
  | (key, item) :: entries =>
    let checked : Except AgentHarnessError Unit :=
      match propertyCheck properties key with
      | some check => check item (childPath path key)
      | none =>
        if closed then fail options (childPath path key) "is not an accepted property" else .ok ()
    checked >>= fun _ => checkEntries options properties closed path entries

/-- `value.forEach`. -/
def checkElements {n : ℕ} (check : Checker n) (path : String) :
    List (Item n) → ℕ → Except AgentHarnessError Unit
  | [], _ => .ok ()
  | item :: items, index =>
    check item (elementPath path index) >>= fun _ => checkElements check path items (index + 1)

/-- The branch of an object. -/
def checkObject (options : CheckOptions) (required : List String)
    (properties : List (String × Checker heap.size)) (closed : Bool) : Checker heap.size
  | item, path =>
    match entriesOf heap item with
    | none => .ok ()
    | some (prototype, entries) =>
      checkRequired heap options prototype entries path required >>= fun _ =>
        checkEntries options properties closed path entries

/-- The branch of an array. -/
def checkArray (items : Option (Checker heap.size)) : Checker heap.size
  | item, path =>
    match elementsOf heap item, items with
    | some elements, some check => checkElements check path elements 0
    | _, _ => .ok ()

mutual

/-- `validateJsonSchemaValue`. -/
def checkSchema (options : CheckOptions) : JsonSchema → Checker heap.size
  | .mk type enum required properties closed items, item, path =>
    checkValue heap options type enum item path >>= fun _ =>
      checkObject heap options required (checkProperties options properties) closed item path >>= fun _ =>
        checkArray heap (checkItems options items) item path

/-- The checks of the declared properties. -/
def checkProperties (options : CheckOptions) :
    List (String × JsonSchema) → List (String × Checker heap.size)
  | [] => []
  | (key, property) :: properties =>
    (key, checkSchema options property) :: checkProperties options properties

/-- The check of the elements. -/
def checkItems (options : CheckOptions) : Option JsonSchema → Option (Checker heap.size)
  | none => none
  | some items => some (checkSchema options items)

end

/-- The two checks of a value, where there is a schema. -/
def validate (options : CheckOptions) (schema : Option JsonSchema) (item : Item heap.size)
    (path : String) : Except AgentHarnessError Unit :=
  validateJsonValue heap options item >>= fun _ =>
    match schema with
    | none => .ok ()
    | some schema => checkSchema heap options schema item path

def validateToolInput (schema : Option JsonSchema) (item : Item heap.size) (path : String) :
    Except AgentHarnessError Unit :=
  validate heap ⟨"TOOL_INPUT_INVALID", "Tool input"⟩ schema item path

def validateToolOutput (schema : Option JsonSchema) (item : Item heap.size) :
    Except AgentHarnessError Unit :=
  validate heap ⟨"TOOL_OUTPUT_INVALID", "Tool output"⟩ schema item ""

def validateStructuredOutput (schema : JsonSchema) (item : Item heap.size) :
    Except AgentHarnessError Unit :=
  validate heap ⟨"STRUCTURED_OUTPUT_INVALID", "Structured output"⟩ (some schema) item ""

end Check

end Flowdular.Harness
