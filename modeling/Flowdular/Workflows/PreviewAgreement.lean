/-
# What a safe preview shows

`src/modules/workflows/src/services/payload-codec.ts`, lines 212-370.

What a schema protects is said here apart from the redactor, by the ways a
schema node can apply to a position of a value (`Applies`, `Governs`).  Two
values that agree outside the protected positions get the same evidence, digest
and size apart, exactly when their canonical texts lie on the same side of the
size limit (`safePayloadEvidence_agree`).

That needs one thing of the schema (`Unshadowed`): under a keyword the redactor
treats as opaque, no property, pattern or dependent schema has the name of a
keyword that holds data.  `restrictedSchemaDescendant` skips such a name wherever
it stands, so a protected property called `default` is shown
(`safePayloadEvidence_discloses`).
-/

import Flowdular.Workflows.PayloadCodec
import Mathlib.Data.List.Forall2
import Mathlib.Logic.Relation

namespace Flowdular.Workflows

open Json (jsonByteSize)

/-! ### The positions a schema protects -/

/-- One step from a value into it. -/
inductive Step where
  | key (key : String)
  | index (index : ℕ)
deriving DecidableEq

/-- How references resolve: any relation will do. -/
abbrev References := JsonSchema → JsonSchema → Prop

/-- The schema `child` applies wherever `schema` does (`step` is `none`) or one
step below.  `followed` says that `redact` goes there itself; `name` is the name
`child` is listed under, where a keyword lists schemas by name. -/
inductive Applies (resolves : References) (schema : JsonSchema) :
    (followed : Bool) → (name : Option String) → (step : Option Step) → JsonSchema → Prop
  | property {properties : List (String × Json)} {key : String} {child : JsonSchema} :
      schema.lookup "properties" = some (.obj properties) →
      properties.lookup key = some (.obj child) →
      Applies resolves schema true (some key) (some (.key key)) child
  | item {child : JsonSchema} (i : ℕ) : schema.lookup "items" = some (.obj child) →
      Applies resolves schema true none (some (.index i)) child
  | inPlace {keyword : String} {child : JsonSchema} :
      keyword ∈ ["if", "then", "else", "not"] → schema.lookup keyword = some (.obj child) →
      Applies resolves schema false none none child
  | branch {keyword : String} {branches : List Json} {child : JsonSchema} :
      keyword ∈ ["allOf", "anyOf", "oneOf"] → schema.lookup keyword = some (.arr branches) →
      .obj child ∈ branches → Applies resolves schema false none none child
  | dependent {keyword name : String} {schemas : List (String × Json)} {child : JsonSchema} :
      keyword ∈ ["dependentSchemas", "dependencies"] →
      schema.lookup keyword = some (.obj schemas) → schemas.lookup name = some (.obj child) →
      Applies resolves schema false (some name) none child
  | pattern {pattern : String} {schemas : List (String × Json)} {child : JsonSchema}
      (key : String) : schema.lookup "patternProperties" = some (.obj schemas) →
      schemas.lookup pattern = some (.obj child) →
      Applies resolves schema false (some pattern) (some (.key key)) child
  | anyProperty {keyword : String} {child : JsonSchema} (key : String) :
      keyword ∈ ["additionalProperties", "unevaluatedProperties"] →
      schema.lookup keyword = some (.obj child) →
      Applies resolves schema false none (some (.key key)) child
  | anyItem {keyword : String} {child : JsonSchema} (i : ℕ) :
      keyword ∈ ["contains", "additionalItems", "unevaluatedItems"] →
      schema.lookup keyword = some (.obj child) →
      Applies resolves schema false none (some (.index i)) child
  | itemAt {keyword : String} {schemas : List Json} {child : JsonSchema} (i : ℕ) :
      keyword ∈ ["items", "prefixItems"] → schema.lookup keyword = some (.arr schemas) →
      .obj child ∈ schemas → Applies resolves schema false none (some (.index i)) child
  | reference {child : JsonSchema} : hasReference schema = true → resolves schema child →
      Applies resolves schema false none none child

/-- The schema `node` governs the position `path` of a value that `schema` is the
schema of. -/
inductive Governs (resolves : References) : JsonSchema → List Step → JsonSchema → Prop
  | here (schema : JsonSchema) : Governs resolves schema [] schema
  | through {schema child node : JsonSchema} {followed : Bool} {name : Option String}
      {step : Option Step} {path : List Step} : Applies resolves schema followed name step child →
      Governs resolves child path node → Governs resolves schema (step.toList ++ path) node

/-- A position is protected when a node that governs it is marked secret or asks
for a permission the reader lacks, or when it is held under a secret-looking key. -/
def Protected (resolves : References) (schema : Option JsonSchema) (permissions : List String)
    (path : List Step) : Prop :=
  (∃ root ∈ schema, ∃ node, Governs resolves root path node ∧
      schemaReason (some node) permissions ≠ none) ∨
    ∃ above key, path = above ++ [.key key] ∧ secretKey key = true

/-- Two values that are equal everywhere except at the positions `P`: the same
keys and the same lengths down to them, anything at them. -/
inductive AgreeExcept : (List Step → Prop) → Json → Json → Prop
  | hidden {P : List Step → Prop} (v w : Json) : P [] → AgreeExcept P v w
  | same {P : List Step → Prop} (v : Json) : AgreeExcept P v v
  | items {P : List Step → Prop} {vs ws : List Json} : vs.length = ws.length →
      (∀ i v w, vs[i]? = some v → ws[i]? = some w →
        AgreeExcept (fun path => P (.index i :: path)) v w) → AgreeExcept P (.arr vs) (.arr ws)
  | fields {P : List Step → Prop} {vs ws : List (String × Json)} :
      vs.map Prod.fst = ws.map Prod.fst →
      (∀ (i : ℕ) key v w, vs[i]? = some (key, v) → ws[i]? = some (key, w) →
        AgreeExcept (fun path => P (.key key :: path)) v w) → AgreeExcept P (.obj vs) (.obj ws)

/-- No keyword that holds data names a schema that applies through an opaque
keyword, or inside one.  The schemas `redact` follows itself may use such names. -/
def Unshadowed (resolves : References) (schema : JsonSchema) : Prop :=
  ∀ node, Relation.ReflTransGen (fun s t => ∃ name step, Applies resolves s true name step t)
      schema node →
    ∀ name step child, Applies resolves node false name step child →
      (∀ n ∈ name, n ∉ schemaDataKeys) ∧
      ∀ path inner, Governs resolves child path inner →
        ∀ followed name step next, Applies resolves inner followed name step next →
          ∀ n ∈ name, n ∉ schemaDataKeys

/-! ### What the redactor does not find is not there -/

variable {resolves : References} {permissions : List String}

variable {depth : ℕ} {name : Option String} {path : List Step} {root : JsonSchema}
  {schema : Option JsonSchema}

/-- A schema without a restricted descendant is unmarked and free of references. -/
theorem unmarked_of_unrestricted {schema : JsonSchema}
    (h : restrictedSchemaDescendant permissions (.obj schema) depth = none) :
    hasReference schema = false ∧ schemaReason (some schema) permissions = none := by
  rw [restrictedSchemaDescendant] at h
  split at h
  · cases h
  split at h
  · cases h
  · next hr =>
    refine ⟨by simpa using hr, ?_⟩
    split at h
    · cases h
    · assumption

theorem mem_of_lookup {fields : List (String × Json)} {key : String} {value : Json}
    (h : fields.lookup key = some value) : (key, value) ∈ fields := by
  induction fields with
  | nil => cases h
  | cons e fields ih =>
    obtain ⟨k, v⟩ := e
    rw [List.lookup_cons] at h
    split at h
    · next hk => rw [beq_iff_eq] at hk; cases h; exact hk ▸ List.mem_cons_self ..
    · exact List.mem_cons_of_mem _ (ih h)

/-- Nor has any entry of it that no data keyword names. -/
theorem unrestricted_lookup {schema : List (String × Json)} {key : String}
    {child : Json} (h : restrictedSchemaDescendant permissions (.obj schema) depth = none)
    (hk : key ∉ schemaDataKeys) (hc : schema.lookup key = some child) :
    restrictedSchemaDescendant permissions child (depth + 1) = none := by
  have hu := unmarked_of_unrestricted h
  rw [restrictedSchemaDescendant] at h
  split at h
  · cases h
  rw [if_neg (by simp [hu.1]), hu.2] at h
  exact restrictedEntries_eq_none.1 h _ (mem_of_lookup hc) hk

theorem unrestricted_item {items : List Json} {child : Json}
    (h : restrictedSchemaDescendant permissions (.arr items) depth = none)
    (hc : child ∈ items) :
    restrictedSchemaDescendant permissions child (depth + 1) = none := by
  rw [restrictedSchemaDescendant] at h
  split at h
  · cases h
  exact restrictedItems_eq_none.1 h _ hc

/-- **One step.**  A schema that applies through a schema without a restricted
descendant has none either, unless a data keyword names it. -/
theorem unrestricted_applies {schema child : JsonSchema} {followed : Bool} {step : Option Step}
    (h : restrictedSchemaDescendant permissions (.obj schema) depth = none)
    (hn : ∀ n ∈ name, n ∉ schemaDataKeys)
    (ha : Applies resolves schema followed name step child) :
    ∃ depth', restrictedSchemaDescendant permissions (.obj child) depth' = none := by
  have hkw : ∀ {keyword : String} {keywords : List String}, keyword ∈ keywords →
      (∀ k ∈ keywords, k ∉ schemaDataKeys) → keyword ∉ schemaDataKeys := fun hk hs => hs _ hk
  cases ha with
  | property hp hc =>
    exact ⟨_, unrestricted_lookup (unrestricted_lookup h (by decide) hp) (hn _ rfl) hc⟩
  | item i hi => exact ⟨_, unrestricted_lookup h (by decide) hi⟩
  | inPlace hk hc => exact ⟨_, unrestricted_lookup h (hkw hk (by decide)) hc⟩
  | branch hk hb hc => exact ⟨_, unrestricted_item (unrestricted_lookup h (hkw hk (by decide)) hb) hc⟩
  | dependent hk hs hc =>
    exact ⟨_, unrestricted_lookup (unrestricted_lookup h (hkw hk (by decide)) hs) (hn _ rfl) hc⟩
  | pattern key hs hc =>
    exact ⟨_, unrestricted_lookup (unrestricted_lookup h (by decide) hs) (hn _ rfl) hc⟩
  | anyProperty key hk hc => exact ⟨_, unrestricted_lookup h (hkw hk (by decide)) hc⟩
  | anyItem i hk hc => exact ⟨_, unrestricted_lookup h (hkw hk (by decide)) hc⟩
  | itemAt i hk hs hc =>
    exact ⟨_, unrestricted_item (unrestricted_lookup h (hkw hk (by decide)) hs) hc⟩
  | reference hr => simp [(unmarked_of_unrestricted h).1] at hr

/-- **And below.**  No node that governs a position through a schema without a
restricted descendant is marked, as long as no data keyword names one of them. -/
theorem unmarked_of_governs {schema node : JsonSchema}
    (hgov : Governs resolves schema path node) : ∀ {depth : ℕ},
    restrictedSchemaDescendant permissions (.obj schema) depth = none →
    (∀ path inner, Governs resolves schema path inner →
      ∀ followed name step next, Applies resolves inner followed name step next →
        ∀ n ∈ name, n ∉ schemaDataKeys) →
    schemaReason (some node) permissions = none := by
  induction hgov with
  | here schema => exact fun h _ => (unmarked_of_unrestricted h).2
  | through ha _ ih =>
    intro depth h hn
    obtain ⟨depth', h'⟩ := unrestricted_applies h (hn _ _ (.here _) _ _ _ _ ha) ha
    exact ih h' fun path inner hg => hn _ inner (.through ha hg)

/-- A schema the redactor has no reason to mask is unmarked and free of
references, and what its opaque keywords hold has no restricted descendant. -/
theorem unmasked {schema : JsonSchema} (h : maskReason (some schema) permissions = none) :
    schemaReason (some schema) permissions = none ∧ hasReference schema = false ∧
      (∀ key ∈ opaqueSchemaKeys, ∀ child, schema.lookup key = some child →
        restrictedSchemaDescendant permissions child 0 = none) ∧
      ∀ items, schema.lookup "items" = some (.arr items) →
        restrictedSchemaDescendant permissions (.arr items) 0 = none := by
  unfold maskReason at h
  split at h
  · cases h
  next hr =>
  refine ⟨hr, ?_⟩
  unfold opaqueSchemaReason at h
  simp only at h
  split at h
  · cases h
  next href =>
  refine ⟨by simpa using href, ?_⟩
  split at h
  · cases h
  next hh =>
  refine ⟨fun key hk child hc => ?_, fun items hi => ?_⟩
  · have := List.findSome?_eq_none_iff.1 hh key hk
    rwa [hc, Option.bind_some] at this
  · rwa [hi] at h

/-- A node that governs a position through an opaque keyword of a schema the
redactor does not mask is unmarked. -/
theorem unmarked_of_held {schema child node : JsonSchema}
    {step : Option Step} (hm : maskReason (some schema) permissions = none)
    (hcle : Unshadowed resolves schema) (ha : Applies resolves schema false name step child)
    (hg : Governs resolves child path node) : schemaReason (some node) permissions = none := by
  obtain ⟨-, hr, hh, hi⟩ := unmasked hm
  obtain ⟨hn, hbel⟩ := hcle schema .refl _ _ _ ha
  have hsub : ∀ {keyword : String} {keywords : List String}, keyword ∈ keywords →
      (∀ k ∈ keywords, k ∈ opaqueSchemaKeys) → keyword ∈ opaqueSchemaKeys := fun hk hs => hs _ hk
  suffices h : ∃ depth, restrictedSchemaDescendant permissions (.obj child) depth = none by
    obtain ⟨depth, h⟩ := h
    exact unmarked_of_governs hg h hbel
  cases ha with
  | inPlace hk hc => exact ⟨_, hh _ (hsub hk (by decide)) _ hc⟩
  | branch hk hb hc => exact ⟨_, unrestricted_item (hh _ (hsub hk (by decide)) _ hb) hc⟩
  | dependent hk hs hc =>
    exact ⟨_, unrestricted_lookup (hh _ (hsub hk (by decide)) _ hs) (hn _ rfl) hc⟩
  | pattern key hs hc =>
    exact ⟨_, unrestricted_lookup (hh _ (by decide) _ hs) (hn _ rfl) hc⟩
  | anyProperty key hk hc => exact ⟨_, hh _ (hsub hk (by decide)) _ hc⟩
  | anyItem i hk hc => exact ⟨_, hh _ (hsub hk (by decide)) _ hc⟩
  | itemAt i hk hs hc =>
    simp only [List.mem_cons, List.not_mem_nil, or_false] at hk
    rcases hk with rfl | rfl
    · exact ⟨_, unrestricted_item (hi _ hs) hc⟩
    · exact ⟨_, unrestricted_item (hh _ (by decide) _ hs) hc⟩
  | reference h => simp [hr] at h

/-! ### The preview of a protected position -/

/-- `Unshadowed` for a schema that may be absent. -/
def UnshadowedSchema (resolves : References) (schema : Option JsonSchema) : Prop :=
  ∀ root ∈ schema, Unshadowed resolves root

theorem Unshadowed.follow {schema child : JsonSchema} {step : Option Step}
    (h : Unshadowed resolves schema) (ha : Applies resolves schema true name step child) :
    Unshadowed resolves child :=
  fun node hr => h node (.head ⟨name, step, ha⟩ hr)

theorem schemaRecord_eq_some {child : JsonSchema} {key : String} :
    schemaRecord (some root) key = some child ↔
      ∃ properties, root.lookup "properties" = some (.obj properties) ∧
        properties.lookup key = some (.obj child) := by
  unfold schemaRecord
  simp only [Option.bind_some]
  constructor
  · intro h
    split at h
    · next properties hp =>
      split at h
      · next hc => cases h; exact ⟨properties, hp, hc⟩
      · cases h
    · cases h
  · rintro ⟨properties, hp, hc⟩
    simp only [hp, hc]

theorem schemaItems_eq_some {child : JsonSchema} :
    schemaItems (some root) = some child ↔ root.lookup "items" = some (.obj child) := by
  unfold schemaItems
  simp only [Option.bind_some]
  constructor
  · intro h
    split at h
    · next hi => cases h; exact hi
    · cases h
  · intro h
    simp only [h]

theorem UnshadowedSchema.record (h : UnshadowedSchema resolves schema)
    (key : String) : UnshadowedSchema resolves (schemaRecord schema key) := by
  intro child hchi
  cases schema with
  | none => cases hchi
  | some root =>
    obtain ⟨properties, hp, hc⟩ := schemaRecord_eq_some.1 hchi
    exact (h root rfl).follow (.property hp hc)

theorem UnshadowedSchema.items (h : UnshadowedSchema resolves schema) :
    UnshadowedSchema resolves (schemaItems schema) := by
  intro child hc
  cases schema with
  | none => cases hc
  | some root => exact (h root rfl).follow (.item 0 (schemaItems_eq_some.1 hc))

/-- The nodes that protect a position below an unmasked schema are those the
redactor follows. -/
theorem follow_of_governs {node : JsonSchema}
    (hm : maskReason (some root) permissions = none) (hcle : Unshadowed resolves root)
    (hg : Governs resolves root path node) (hn : schemaReason (some node) permissions ≠ none) :
    ∃ name step child rest, Applies resolves root true name (some step) child ∧
      Governs resolves child rest node ∧ path = step :: rest := by
  cases hg with
  | here => exact absurd (unmasked hm).1 hn
  | @through _ child _ followed name step rest ha hr =>
    cases followed with
    | false => exact absurd (unmarked_of_held hm hcle ha hr) hn
    | true =>
      cases ha with
      | property hp hc => exact ⟨_, _, _, _, .property hp hc, hr, rfl⟩
      | item i hi => exact ⟨_, _, _, _, .item i hi, hr, rfl⟩

theorem not_protected_nil (hm : maskReason schema permissions = none)
    (hc : UnshadowedSchema resolves schema) : ¬ Protected resolves schema permissions [] := by
  rintro (⟨root, hr, node, hg, hn⟩ | ⟨above, key, hp, -⟩)
  · obtain rfl : schema = some root := hr
    obtain ⟨_, _, _, _, -, -, hp⟩ := follow_of_governs hm (hc root rfl) hg hn
    cases hp
  · exact absurd hp (by simp)

/-- Below a key that does not look secret, what is protected is what the schema
of the key protects. -/
theorem Protected.key {key : String}
    (hm : maskReason schema permissions = none) (hcle : UnshadowedSchema resolves schema)
    (hkey : secretKey key = false) (h : Protected resolves schema permissions (.key key :: path)) :
    Protected resolves (schemaRecord schema key) permissions path := by
  rcases h with ⟨root, hr, node, hg, hn⟩ | ⟨above, k, hpath, hk⟩
  · obtain rfl : schema = some root := hr
    obtain ⟨name, step, child, rest, ha, hrest, hpath⟩ :=
      follow_of_governs hm (hcle root rfl) hg hn
    cases hpath
    cases ha with
    | property hp hc =>
      exact .inl ⟨child, schemaRecord_eq_some.2 ⟨_, hp, hc⟩, node, hrest, hn⟩
  · cases above with
    | nil =>
      rw [List.nil_append, List.cons.injEq] at hpath
      cases hpath.1
      exact absurd hk (by simp [hkey])
    | cons step above => exact .inr ⟨above, k, (List.cons.inj hpath).2, hk⟩

/-- Below an index, what is protected is what the schema of the items protects. -/
theorem Protected.index {i : ℕ}
    (hm : maskReason schema permissions = none) (hc : UnshadowedSchema resolves schema)
    (h : Protected resolves schema permissions (.index i :: path)) :
    Protected resolves (schemaItems schema) permissions path := by
  rcases h with ⟨root, hr, node, hg, hn⟩ | ⟨above, k, hp, hk⟩
  · obtain rfl : schema = some root := hr
    obtain ⟨name, step, child, rest, ha, hrest, hp⟩ :=
      follow_of_governs hm (hc root rfl) hg hn
    cases hp
    cases ha with
    | item i hi => exact .inl ⟨child, schemaItems_eq_some.2 hi, node, hrest, hn⟩
  · cases above with
    | nil => cases (List.cons.inj hp).1
    | cons step above => exact .inr ⟨above, k, (List.cons.inj hp).2, hk⟩

/-- Two values the redactor shows the same of: its results are equal, and so are
the values when it has changed nothing. -/
def ShownAlike (permissions : List String) (schema : Option JsonSchema) (v w : Json) : Prop :=
  redact permissions v schema = redact permissions w schema ∧
    ((redact permissions v schema).changed = false → v = w)

/-- `ShownAlike` for two entries of objects with the schema `schema`: the same
key, and a value that is masked or shown alike. -/
def EntryShownAlike (permissions : List String) (schema : Option JsonSchema)
    (e f : String × Json) : Prop :=
  e.1 = f.1 ∧
    ((secretKey e.1 || (schemaReason (schemaRecord schema e.1) permissions).isSome) = false →
      ShownAlike permissions (schemaRecord schema e.1) e.2 f.2)

theorem redact_of_maskReason {reason : RedactionReason} (v : Json)
    (h : maskReason schema permissions = some reason) :
    redact permissions v schema =
      { value := redactedText, changed := true, reason := some reason } := by
  cases v <;> simp [redact, h]

theorem shownAlike_of_maskReason {reason : RedactionReason}
    (v w : Json) (h : maskReason schema permissions = some reason) :
    ShownAlike permissions schema v w := by
  simp [ShownAlike, redact_of_maskReason _ h]

theorem redactItems_congr {vs ws : List Json}
    (h : List.Forall₂ (ShownAlike permissions schema) vs ws) :
    redactItems permissions vs schema = redactItems permissions ws schema ∧
      ((redactItems permissions vs schema).changed = false → vs = ws) := by
  induction h with
  | nil => exact ⟨rfl, fun _ => rfl⟩
  | cons hvw _ ih =>
    refine ⟨by simp only [redactItems, hvw.1, ih.1], fun hc => ?_⟩
    simp only [redactItems, Bool.or_eq_false_iff] at hc
    rw [hvw.2 hc.1, ih.2 hc.2]

theorem redactEntries_congr {vs ws : List (String × Json)}
    (h : List.Forall₂ (EntryShownAlike permissions schema) vs ws) :
    redactEntries permissions vs schema = redactEntries permissions ws schema ∧
      ((redactEntries permissions vs schema).changed = false → vs = ws) := by
  induction h with
  | nil => exact ⟨rfl, fun _ => rfl⟩
  | @cons e f _ _ hef _ ih =>
    obtain ⟨key, v⟩ := e
    obtain ⟨key', w⟩ := f
    obtain ⟨hk, hvw⟩ := hef
    cases hk
    by_cases hh : (secretKey key || (schemaReason (schemaRecord schema key) permissions).isSome)
    · refine ⟨by simp only [redactEntries, if_pos hh, ih.1], fun hc => ?_⟩
      simp [redactEntries, hh] at hc
    · have hvw : ShownAlike permissions (schemaRecord schema key) v w := hvw (by simpa using hh)
      refine ⟨by simp only [redactEntries, if_neg hh, hvw.1, ih.1], fun hc => ?_⟩
      simp only [redactEntries, if_neg hh, Bool.or_eq_false_iff] at hc
      rw [hvw.2 hc.1, ih.2 hc.2]

/-- **The redactor hides what is protected.**  Values that agree outside the
protected positions are shown alike. -/
theorem shownAlike_of_agreeExcept {P : List Step → Prop} {v w : Json} (h : AgreeExcept P v w) :
    ∀ {schema : Option JsonSchema}, UnshadowedSchema resolves schema →
      (∀ path, P path → Protected resolves schema permissions path) →
      ShownAlike permissions schema v w := by
  induction h with
  | @hidden P v w hP =>
    intro schema hcle hprot
    cases hm : maskReason schema permissions with
    | none => exact absurd (hprot _ hP) (not_protected_nil hm hcle)
    | some reason => exact shownAlike_of_maskReason _ _ hm
  | same v => exact fun _ _ => ⟨rfl, fun _ => rfl⟩
  | @items P vs ws hl _ ih =>
    intro schema hcle hprot
    cases hm : maskReason schema permissions with
    | some reason => exact shownAlike_of_maskReason _ _ hm
    | none =>
      have ha : List.Forall₂ (ShownAlike permissions (schemaItems schema)) vs ws :=
        List.forall₂_iff_get.2 ⟨hl, fun i hv hw =>
          ih i _ _ (List.getElem?_eq_getElem hv) (List.getElem?_eq_getElem hw) hcle.items
            fun path hp => (hprot _ hp).index hm hcle⟩
      obtain ⟨heq, hs⟩ := redactItems_congr ha
      refine ⟨by simp only [redact, hm, heq], fun hc => ?_⟩
      simp only [redact, hm] at hc
      rw [hs hc]
  | @fields P vs ws hk _ ih =>
    intro schema hcle hprot
    cases hm : maskReason schema permissions with
    | some reason => exact shownAlike_of_maskReason _ _ hm
    | none =>
      have ha : List.Forall₂ (EntryShownAlike permissions schema) vs ws := by
        refine List.forall₂_iff_get.2 ⟨by simpa using congrArg List.length hk, fun i hv hw => ?_⟩
        have hkey : (vs.get ⟨i, hv⟩).1 = (ws.get ⟨i, hw⟩).1 := by
          simpa [hv, hw] using congrArg (·[i]?) hk
        refine ⟨hkey, fun hshow => ?_⟩
        rw [Bool.or_eq_false_iff] at hshow
        exact ih i _ _ _ (List.getElem?_eq_getElem hv)
          (by rw [hkey]; exact List.getElem?_eq_getElem hw) (hcle.record _)
          fun path hp => (hprot _ hp).key hm hcle hshow.1
      obtain ⟨heq, hs⟩ := redactEntries_congr ha
      refine ⟨by simp only [redact, hm, heq], fun hc => ?_⟩
      simp only [redact, hm] at hc
      rw [hs hc]

/-! ### Agreement of the evidence -/

theorem safePayloadEvidence_truncated_iff [Host] (v : Json) (schemaId : String)
    (schema : Option JsonSchema) (permissions : List String) :
    (safePayloadEvidence (some v) schemaId schema permissions).state = .truncated ↔
      8 * 1024 < jsonByteSize v := by
  unfold safePayloadEvidence
  simp only
  split
  · next hv => exact ⟨fun _ => hv, fun _ => rfl⟩
  · next hv =>
    refine ⟨fun h => ?_, fun h => absurd h hv⟩
    split at h <;> cases h

/-- **Evidence shows nothing protected.**  For two values that agree outside the
protected positions of a schema no data keyword shadows, everything but the
digest and the size of their evidence is the same, exactly when both canonical
texts are within the size limit of a preview or both are beyond it. -/
theorem safePayloadEvidence_agree [Host] (resolves : References) (schemaId : String)
    (schema : Option JsonSchema) (permissions : List String) (v w : Json)
    (hclear : UnshadowedSchema resolves schema)
    (hagree : AgreeExcept (Protected resolves schema permissions) v w) :
    (safePayloadEvidence (some v) schemaId schema permissions).blankDigest =
        (safePayloadEvidence (some w) schemaId schema permissions).blankDigest ↔
      (8 * 1024 < jsonByteSize v ↔ 8 * 1024 < jsonByteSize w) := by
  obtain ⟨hs, hu⟩ := shownAlike_of_agreeExcept hagree hclear fun _ hp => hp
  constructor
  · intro h
    rw [← safePayloadEvidence_truncated_iff v schemaId schema permissions,
      ← safePayloadEvidence_truncated_iff w schemaId schema permissions]
    have hsta := congrArg WorkflowPayloadEvidence.state h
    simp only [WorkflowPayloadEvidence.blankDigest] at hsta
    rw [hsta]
  · intro h
    unfold safePayloadEvidence
    by_cases hv : 8 * 1024 < jsonByteSize v
    · simp only [if_pos hv, if_pos (h.1 hv), WorkflowPayloadEvidence.blankDigest]
    · simp only [if_neg hv, if_neg fun hw => hv (h.2 hw), ← hs]
      cases hc : (redact permissions v schema).changed with
      | true => rfl
      | false => rw [hu hc]

/-- A schema whose keywords the redactor follows applies nothing through opaque
ones. -/
theorem not_applies_held {schema child : JsonSchema} {step : Option Step}
    (hh : ∀ key ∈ opaqueSchemaKeys, schema.lookup key = none)
    (hr : hasReference schema = false)
    (hi : ∀ items, schema.lookup "items" ≠ some (.arr items)) :
    ¬ Applies resolves schema false name step child := by
  have hn : ∀ {keyword : String} {keywords : List String} {value : Json}, keyword ∈ keywords →
      (∀ k ∈ keywords, k ∈ opaqueSchemaKeys) → schema.lookup keyword ≠ some value :=
    fun hk hs h => by simp [hh _ (hs _ hk)] at h
  intro ha
  cases ha with
  | inPlace hk hc => exact hn hk (by decide) hc
  | branch hk hb hc => exact hn hk (by decide) hb
  | dependent hk hs hc => exact hn hk (by decide) hs
  | pattern key hs hc => exact hn (List.mem_singleton_self _) (by decide) hs
  | anyProperty key hk hc => exact hn hk (by decide) hc
  | anyItem i hk hc => exact hn hk (by decide) hc
  | itemAt i hk hs hc =>
    simp only [List.mem_cons, List.not_mem_nil, or_false] at hk
    rcases hk with rfl | rfl
    · exact hi _ hs
    · exact hn (List.mem_singleton_self _) (by decide) hs
  | reference h => simp [hr] at h

/-- A schema with one secret property. -/
def ssnSchema : JsonSchema :=
  [("properties", .obj [("ssn", .obj [("x-flowdular-secret", .bool true)])])]

theorem unshadowed_ssnSchema (resolves : References) :
    UnshadowedSchema resolves (some ssnSchema) := by
  intro root hroot
  cases hroot
  intro node hr
  have hn : node = ssnSchema ∨ node = [("x-flowdular-secret", .bool true)] := by
    induction hr with
    | refl => exact .inl rfl
    | tail _ ha ih =>
      obtain ⟨name, step, ha⟩ := ha
      cases ha with
      | property hp hc =>
        rcases ih with rfl | rfl
        · cases hp
          rw [List.lookup_cons] at hc
          split at hc
          · cases hc
            exact .inr rfl
          · cases hc
        · cases hp
      | item i hi => rcases ih with rfl | rfl <;> cases hi
  intro name step child ha
  refine absurd ha ?_
  rcases hn with rfl | rfl
  · exact not_applies_held (by decide) (by decide) (by intro items h; cases h)
  · exact not_applies_held (by decide) (by decide) (by intro items h; cases h)

theorem agreeExcept_ssn (resolves : References) (permissions : List String) (v w : Json) :
    AgreeExcept (Protected resolves (some ssnSchema) permissions)
      (.obj [("ssn", v)]) (.obj [("ssn", w)]) := by
  refine .fields rfl fun i key v' w' hv hw => .hidden _ _
    (.inl ⟨ssnSchema, rfl, [("x-flowdular-secret", .bool true)], ?_, by simp [schemaReason]⟩)
  have hk : key = "ssn" := by
    cases i with
    | zero => cases hv; rfl
    | succ i => cases hv
  exact hk ▸ .through (.property rfl rfl) (.here _)

/-- Two numbers in a secret property give the same evidence. -/
theorem safePayloadEvidence_agree_ssn :
    (@safePayloadEvidence plainHost (some (.obj [("ssn", .num 1)])) "person.v1" (some ssnSchema)
        []).blankDigest =
      (@safePayloadEvidence plainHost (some (.obj [("ssn", .num 2)])) "person.v1" (some ssnSchema)
        []).blankDigest :=
  (@safePayloadEvidence_agree plainHost (fun _ _ => False) "person.v1" (some ssnSchema) []
    (.obj [("ssn", .num 1)]) (.obj [("ssn", .num 2)]) (unshadowed_ssnSchema _)
    (agreeExcept_ssn _ _ _ _)).2 (by decide +kernel)

/-! ### What is disclosed -/

theorem flatMap_quoteChar_replicate (n : ℕ) :
    (List.replicate n 'x').flatMap Json.quoteChar = List.replicate n 'x' := by
  induction n with
  | zero => rfl
  | succ n ih => rw [List.replicate_succ, List.flatMap_cons, ih]; rfl

theorem utf8ByteSize_replicate (n : ℕ) :
    (String.ofList (List.replicate n 'x')).utf8ByteSize = n := by
  induction n with
  | zero => rfl
  | succ n ih =>
    rw [List.replicate_succ, String.ofList_cons, String.utf8ByteSize_append, ih, Nat.add_comm]
    rfl

/-- The value under the key `ssn`, `n` characters long. -/
def ssnOfLength (n : ℕ) : Json :=
  .obj [("ssn", .str (String.ofList (List.replicate n 'x')))]

theorem jsonByteSize_ssnOfLength [Host] (n : ℕ) : jsonByteSize (ssnOfLength n) = n + 10 := by
  have hq : Json.quote (String.ofList (List.replicate n 'x')) =
      String.singleton (Char.ofNat 0x22) ++ String.ofList (List.replicate n 'x') ++
        String.singleton (Char.ofNat 0x22) := by
    rw [Json.quote, String.toList_ofList, flatMap_quoteChar_replicate, List.cons_append,
      String.ofList_cons, String.ofList_append, ← String.append_assoc]
    rfl
  have hf : Json.sortEntries
      (Json.canonicalFields [("ssn", .str (String.ofList (List.replicate n 'x')))]) =
        [("ssn", Json.quote (String.ofList (List.replicate n 'x')))] := rfl
  have hk : (Json.quote "ssn").utf8ByteSize = 5 := by decide
  rw [jsonByteSize, ssnOfLength, Json.canonical, hf, List.map_singleton,
    String.intercalate_singleton, hq]
  simp only [String.utf8ByteSize_append, utf8ByteSize_replicate, hk]
  show 1 + (5 + 1 + (1 + n + 1)) + 1 = n + 10
  omega

/-- The size of a secret shows: a long one truncates the evidence, a short one
does not. -/
theorem safePayloadEvidence_size [Host] {m n : ℕ} (hm : m + 10 ≤ 8 * 1024)
    (hn : 8 * 1024 < n + 10) (schemaId : String) :
    (safePayloadEvidence (some (ssnOfLength m)) schemaId (some ssnSchema) []).blankDigest ≠
      (safePayloadEvidence (some (ssnOfLength n)) schemaId (some ssnSchema) []).blankDigest := by
  intro h
  have hi := (safePayloadEvidence_agree (fun _ _ => False) schemaId (some ssnSchema) []
    (ssnOfLength m) (ssnOfLength n) (unshadowed_ssnSchema _) (agreeExcept_ssn _ _ _ _)).1 h
  rw [jsonByteSize_ssnOfLength, jsonByteSize_ssnOfLength] at hi
  omega

/-- A schema whose undeclared entries hold a secret property named `default`. -/
def defaultSchema : JsonSchema :=
  [("additionalProperties",
    .obj [("properties", .obj [("default", .obj [("x-flowdular-secret", .bool true)])])])]

/-- A value with that property. -/
def withDefault (v : Json) : Json :=
  .obj [("entry", .obj [("default", v)])]

theorem agreeExcept_withDefault (resolves : References) (permissions : List String) (v w : Json) :
    AgreeExcept (Protected resolves (some defaultSchema) permissions)
      (withDefault v) (withDefault w) := by
  refine .fields rfl fun i key v' w' hv hw => ?_
  cases i with
  | succ i => cases hv
  | zero =>
    cases hv
    cases hw
    refine .fields rfl fun i key v' w' hv hw => .hidden _ _
      (.inl ⟨defaultSchema, rfl, [("x-flowdular-secret", .bool true)], ?_, by simp [schemaReason]⟩)
    have hk : key = "default" := by
      cases i with
      | zero => cases hv; rfl
      | succ i => cases hv
    exact hk ▸ .through (.anyProperty "entry" (List.mem_cons_self ..) rfl)
      (.through (.property rfl rfl) (.here _))

/-- **Evidence is not blind to all that is protected.**  The length of a secret
decides whether there is a preview, and a secret property called `default` below
`additionalProperties` is shown in it. -/
theorem safePayloadEvidence_discloses :
    (AgreeExcept (Protected (fun _ _ => False) (some ssnSchema) []) (ssnOfLength 1)
        (ssnOfLength 8192) ∧
      (@safePayloadEvidence plainHost (some (ssnOfLength 1)) "person.v1" (some ssnSchema)
          []).blankDigest ≠
        (@safePayloadEvidence plainHost (some (ssnOfLength 8192)) "person.v1" (some ssnSchema)
          []).blankDigest) ∧
    AgreeExcept (Protected (fun _ _ => False) (some defaultSchema) []) (withDefault (.num 1))
        (withDefault (.num 2)) ∧
      (@safePayloadEvidence plainHost (some (withDefault (.num 1))) "person.v1"
          (some defaultSchema) []).blankDigest ≠
        (@safePayloadEvidence plainHost (some (withDefault (.num 2))) "person.v1"
          (some defaultSchema) []).blankDigest :=
  ⟨⟨agreeExcept_ssn _ _ _ _, @safePayloadEvidence_size plainHost 1 8192 (by omega) (by omega) _⟩,
    agreeExcept_withDefault _ _ _ _, by decide +kernel⟩

end Flowdular.Workflows
