/-
# The digest of a connector call

`src/modules/connectors/src/services/call-service.ts`, lines 458-476
(`canonicalJson`, `inputDigest`), and the users of the same text in
`src/modules/workflows/src/domain/graph.ts`: the checksum of a graph, `enum` and
`const` of a schema, `eq` and `in` of a gate.

The encoder of a call is that of a graph with the entries that are `undefined`
dropped before the sort instead of after it, and a JSON value has none.  Its
comment says that the order of keys never changes the digest.  It does where the
collation takes two keys of one object for equal, and nowhere else
(`identified_iff_untied`): two calls with the same input then have different
digests, two spellings of one graph different checksums, and two equal values
differ for a schema or a gate.
-/

import Flowdular.Workflows.CanonicalForm
import Flowdular.Workflows.Graph

namespace Flowdular.Connectors

open Workflows
open Json (same Listed Untied canonical sorted)

section

variable [Host]

/-- `canonicalJson`; an input that is `undefined` is refused with its class. -/
def canonicalJson : Option Json → Except (String × String) String
  | none => .error ("refused", "invalid-input")
  | some value => .ok (canonical value)

def inputDigest (value : Option Json) : Except (String × String) String :=
  (canonicalJson value).map Host.sha256

/-! ### What depends on the canonical text -/

/-- A value has one canonical text, however the entries of its objects are
ordered, and every use of the text treats it as equal to the same values only. -/
structure Identified (a : Json) : Prop where
  canonical_iff : ∀ b, Listed b → (canonical a = canonical b ↔ same a b = true)
  canonicalJson_iff : ∀ b, Listed b →
    (canonicalJson (some a) = canonicalJson (some b) ↔ same a b = true)
  inputDigest_eq : ∀ b, Listed b → same a b = true → inputDigest (some a) = inputDigest (some b)
  checksum_eq : ∀ graph other : WorkflowGraph, graph.raw = a → Listed other.raw →
    same a other.raw = true → workflowGraphChecksum graph = workflowGraphChecksum other
  enum_iff : ∀ (schema : JsonSchema) path entries, schema.lookup "enum" = some (.arr entries) →
    (∀ e ∈ entries, Listed e) →
      (⟨path, "enum"⟩ ∈ constantErrors a schema path ↔ ∀ e ∈ entries, same a e = false)
  const_iff : ∀ (schema : JsonSchema) path constant, schema.lookup "const" = some constant →
    Listed constant → (⟨path, "const"⟩ ∈ constantErrors a schema path ↔ same a constant = false)
  gate_eq : ∀ input left right b, Listed b → gateValue input left = .ok (some a) →
    gateValue input right = .ok (some b) →
      gateValue input (.eq left right) = .ok (some (.bool (same a b)))
  gate_in : ∀ input left right items, (∀ b ∈ items, Listed b) →
    gateValue input left = .ok (some a) → gateValue input right = .ok (some (.arr items)) →
      gateValue input (.in left right) = .ok (some (.bool (items.any (same a))))

variable {a b input : Json} {path : String} {schema : JsonSchema}
  {left right : WorkflowGateExpression}

theorem sorted_get? (ha : Listed a) (hb : Listed b) (h : sorted a = sorted b)
    (key : String) : (a.get? key).map sorted = (b.get? key).map sorted := by
  cases a with
  | obj fields =>
    cases b with
    | obj others =>
      have hk := (Json.listed_obj.1 ha).1
      have hk' := (Json.listed_obj.1 hb).1
      have ho := (Json.entries_of_sorted_eq hk' h).2
      have htwo := (Json.entries_of_sorted_eq hk h.symm).2
      show (fields.lookup key).map sorted = (others.lookup key).map sorted
      cases hv : fields.lookup key with
      | some v =>
        obtain ⟨w, hw, heq⟩ := ho _ (Json.mem_of_lookup_eq hv)
        rw [hw, Option.map_some, Option.map_some, heq]
      | none =>
        cases hw : others.lookup key with
        | none => rfl
        | some w =>
          obtain ⟨v, hv', -⟩ := htwo _ (Json.mem_of_lookup_eq hw)
          simp [hv] at hv'
    | _ => simp [sorted] at h
  | _ => cases b <;> simp_all [sorted, Json.get?]

theorem jsonHash_eq (h : sorted a = sorted b) : Json.jsonHash a = Json.jsonHash b := by
  rw [Json.jsonHash, Json.jsonHash, Json.canonical_eq_iff.2 h]

/-- The checksum of a graph reads four of its entries, each by its key. -/
theorem checksum_eq_of_sorted_eq {graph other : WorkflowGraph} (hg : Listed graph.raw)
    (ho : Listed other.raw) (h : sorted graph.raw = sorted other.raw) :
    workflowGraphChecksum graph = workflowGraphChecksum other := by
  have he : ∀ key, (graph.raw.get? key).map (fun v => (key, sorted v)) =
      (other.raw.get? key).map fun v => (key, sorted v) := by
    intro key
    have := congrArg (Option.map fun v => (key, v)) (sorted_get? hg ho h key)
    rwa [Option.map_map, Option.map_map] at this
  have hf : ∀ (keys : List String) (g : WorkflowGraph),
      Json.sortedFields (keys.filterMap fun key => (g.raw.get? key).map (key, ·)) =
        keys.filterMap fun key => (g.raw.get? key).map fun v => (key, sorted v) := by
    intro keys g
    rw [Json.sortedFields_eq, List.map_filterMap]
    simp [Option.map_map, Function.comp_def]
  refine jsonHash_eq ?_
  rw [sorted, sorted, hf, hf]
  exact congrArg (fun l => Json.obj (Json.sortEntries l)) (List.filterMap_congr fun key _ => he key)

omit [Host] in
theorem any_congr {α : Type} {p q : α → Bool} : ∀ {l : List α}, (∀ a ∈ l, p a = q a) →
    l.any p = l.any q
  | [], _ => rfl
  | a :: l, h => by
    rw [List.any_cons, List.any_cons, h a List.mem_cons_self,
      any_congr fun b hb => h b (List.mem_cons_of_mem a hb)]

theorem mem_constantErrors_enum
    {entries : List Json} (h : schema.lookup "enum" = some (.arr entries)) :
    ⟨path, "enum"⟩ ∈ constantErrors a schema path ↔
      (entries.any fun entry => canonical entry = canonical a) = false := by
  unfold constantErrors
  rw [h]
  cases schema.lookup "const" with
  | none => simp only; split_ifs <;> simp_all
  | some constant => simp only; split_ifs <;> simp_all

theorem mem_constantErrors_const {constant : Json} (h : schema.lookup "const" = some constant) :
    ⟨path, "const"⟩ ∈ constantErrors a schema path ↔ ¬canonical constant = canonical a := by
  unfold constantErrors
  rw [h]
  rcases schema.lookup "enum" with - | (- | - | - | - | entries | -)
  all_goals simp only [List.nil_append]
  all_goals split_ifs <;> simp_all

theorem gateValue_eq
    (hl : gateValue input left = .ok (some a)) (hr : gateValue input right = .ok (some b)) :
    gateValue input (.eq left right) = .ok (some (.bool (canonical a = canonical b))) := by
  rw [gateValue, hl, hr]
  rfl

theorem gateValue_in {items : List Json} (hl : gateValue input left = .ok (some a))
    (hr : gateValue input right = .ok (some (.arr items))) :
    gateValue input (.in left right) =
      .ok (some (.bool (items.any fun item => canonical item = canonical a))) := by
  rw [gateValue, hl, hr]
  rfl

variable [ConsistentCollation]

/-- **A value is identified by its canonical text exactly when no object in it has
two keys the collation takes for equal.** -/
theorem identified_iff_untied (a : Json) (ha : Listed a) : Identified a ↔ Untied a := by
  constructor
  · intro h
    by_contra hu
    obtain ⟨b, hb, hs, hne⟩ := Json.exists_same_of_not_untied ha hu
    exact hne (Json.canonical_eq_iff.1 ((h.canonical_iff b hb).2 hs))
  · intro hu
    have hiff : ∀ b, Listed b → (canonical a = canonical b ↔ same a b = true) :=
      fun b hb => Json.canonical_eq_iff_same ha hb hu
    have hiff' : ∀ b, Listed b → decide (canonical b = canonical a) = same a b := by
      intro b hb
      rw [Bool.eq_iff_iff, decide_eq_true_iff, ← hiff b hb, eq_comm]
    refine
      { canonical_iff := hiff
        canonicalJson_iff := fun b hb => ?_
        inputDigest_eq := fun b hb h => ?_
        checksum_eq := fun graph other hraw ho h => ?_
        enum_iff := fun schema path entries hsch hent => ?_
        const_iff := fun schema path constant hsch hc => ?_
        gate_eq := fun input left right b hb hl hr => ?_
        gate_in := fun input left right items hi hl hr => ?_ }
    · rw [canonicalJson, canonicalJson, Except.ok.injEq]
      exact hiff b hb
    · rw [inputDigest, inputDigest, canonicalJson, canonicalJson, (hiff b hb).2 h]
    · subst hraw
      exact checksum_eq_of_sorted_eq ha ho (Json.sorted_eq_of_same ha ho hu h)
    · have hany : (entries.any fun entry => canonical entry = canonical a) = entries.any (same a) :=
        any_congr fun e he => hiff' e (hent e he)
      rw [mem_constantErrors_enum hsch, hany, List.any_eq_false]
      simp
    · rw [mem_constantErrors_const hsch, ← hiff' constant hc, decide_eq_false_iff_not]
    · have hcan : decide (canonical a = canonical b) = same a b := by
        rw [Bool.eq_iff_iff, decide_eq_true_iff, hiff b hb]
      rw [gateValue_eq hl hr, hcan]
    · have hany : (items.any fun item => canonical item = canonical a) = items.any (same a) :=
        any_congr fun b hb => hiff' b (hi b hb)
      rw [gateValue_in hl hr, hany]

end

/-! ### Tied keys -/

instance : @ConsistentCollation plainHost :=
  inferInstanceAs (Std.TransCmp (compare : String → String → Ordering))

theorem identified_iff_untied_plain :
    @Identified plainHost (.obj [("b", .null), ("a", .bool true)]) := by
  refine (@identified_iff_untied plainHost _ _ (by decide +kernel)).2 ?_
  decide +kernel

/-- A string without its soft hyphens. -/
def dropHyphens (s : String) : List Char :=
  s.toList.filter (· ≠ Char.ofNat 0xad)

/-- A host whose collation ignores the soft hyphen. -/
@[reducible] def hyphenHost : Host where
  localeCompare l r := compare (String.ofList (dropHyphens l)) (String.ofList (dropHyphens r))
  sha256 := id

instance : @ConsistentCollation hyphenHost :=
  let f := fun s : String => String.ofList (dropHyphens s)
  have hswap : ∀ k l, compare (f k) (f l) = (compare (f l) (f k)).swap :=
    fun _ _ => Std.OrientedCmp.eq_swap
  have htrans : ∀ {k l m}, (compare (f k) (f l)).isLE → (compare (f l) (f m)).isLE →
      (compare (f k) (f m)).isLE := fun h h' => Std.TransCmp.isLE_trans h h'
  @Std.TransCmp.mk _ _ ⟨hswap _ _⟩ htrans

/-- An input whose two keys differ in a soft hyphen. -/
def hyphenInput : Json :=
  .obj [("reorder", .num 1), ("re\u00adorder", .num 2)]

/-- The same input with the entries the other way round. -/
def hyphenInput' : Json :=
  .obj [("re\u00adorder", .num 2), ("reorder", .num 1)]

/-- The order of two keys the collation takes for equal changes the text of both
encoders and the digest of a call. -/
theorem canonical_depends_on_order :
    Listed hyphenInput ∧ Listed hyphenInput' ∧ same hyphenInput hyphenInput' = true ∧
      @canonical hyphenHost hyphenInput ≠ @canonical hyphenHost hyphenInput' ∧
      @canonicalJson hyphenHost (some hyphenInput) ≠ @canonicalJson hyphenHost (some hyphenInput') ∧
      @inputDigest hyphenHost (some hyphenInput) ≠ @inputDigest hyphenHost (some hyphenInput') := by
  decide +kernel

end Flowdular.Connectors
