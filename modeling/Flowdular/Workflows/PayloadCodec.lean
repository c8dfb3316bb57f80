/-
# Safe evidence of a payload

`src/modules/workflows/src/services/payload-codec.ts`, lines 112-370.

A run keeps evidence of every payload: a digest, a size and, up to 8 KB, a
preview in which `redact` has replaced what the schema protects.  The functions
below are the source's; an absent schema (`undefined`) is `none`, and a reading
of `properties` that would find only a member of `Object.prototype` is absent
too, since none of those members carries a mark.  What the previews show of two
values is compared in `Flowdular.Workflows.PreviewAgreement`.
-/

import Flowdular.Workflows.Types
import Mathlib.Data.List.Infix

namespace Flowdular.Workflows

open Json (jsonHash jsonByteSize)

/-! ### The redactor -/

inductive RedactionReason where
  | secret
  | scopeDenied
deriving DecidableEq

/-- The reason an evidence gives for a redaction. -/
def RedactionReason.toEvidence : RedactionReason → EvidenceReason
  | .secret => .secret
  | .scopeDenied => .scopeDenied

/-- The fragments `SECRET_KEY` looks for, `api[-_]?key` written out. -/
def secretFragments : List String :=
  ["password", "secret", "token", "credential", "apikey", "api-key", "api_key", "authorization"]

/-- `SECRET_KEY.test`: one of the fragments occurs in the key, letter case
ignored. -/
def secretKey (key : String) : Bool :=
  secretFragments.any fun fragment => decide (fragment.toList <:+: key.toList.map Char.toLower)

/-- `schemaRecord`: the schema `properties` gives a key. -/
def schemaRecord (schema : Option JsonSchema) (key : String) : Option JsonSchema :=
  match schema.bind (·.lookup "properties") with
  | some (.obj properties) =>
    match properties.lookup key with
    | some (.obj child) => some child
    | _ => none
  | _ => none

/-- `schemaItems`: the schema of the items, when there is one for all of them. -/
def schemaItems (schema : Option JsonSchema) : Option JsonSchema :=
  match schema.bind (·.lookup "items") with
  | some (.obj items) => some items
  | _ => none

/-- `schemaReason`: a node marked secret, or one that asks for a permission the
reader does not have. -/
def schemaReason (schema : Option JsonSchema) (permissions : List String) :
    Option RedactionReason :=
  if schema.bind (·.lookup "writeOnly") = some (.bool true) ∨
      schema.bind (·.lookup "x-flowdular-secret") = some (.bool true) then
    some .secret
  else
    match schema.bind (·.lookup "x-flowdular-read-permission") with
    | some (.str permission) => if permission ∈ permissions then none else some .scopeDenied
    | _ => none

/-- `OPAQUE_SCHEMA_KEYS`. -/
def opaqueSchemaKeys : List String :=
  ["allOf", "anyOf", "oneOf", "if", "then", "else", "not", "dependentSchemas", "dependencies",
    "patternProperties", "additionalProperties", "unevaluatedProperties", "propertyNames",
    "contains", "prefixItems", "additionalItems", "unevaluatedItems"]

/-- `REFERENCE_SCHEMA_KEYS`. -/
def referenceSchemaKeys : List String :=
  ["$ref", "$dynamicRef", "$recursiveRef"]

/-- `SCHEMA_DATA_KEYS`. -/
def schemaDataKeys : List String :=
  ["default", "const", "enum", "example", "examples"]

/-- Whether a schema holds one of the reference keywords. -/
def hasReference (schema : JsonSchema) : Bool :=
  referenceSchemaKeys.any fun key => (schema.lookup key).isSome

mutual

/-- `restrictedSchemaDescendant`: the first reason to redact found anywhere in a
value read as a schema.  Data keywords are skipped, references and anything
deeper than 24 count as secret. -/
def restrictedSchemaDescendant (permissions : List String) : Json → ℕ → Option RedactionReason
  | .arr items, depth =>
    if 24 < depth then some .secret else restrictedItems permissions items (depth + 1)
  | .obj fields, depth =>
    if 24 < depth then some .secret
    else if hasReference fields then some .secret
    else
      match schemaReason (some fields) permissions with
      | some reason => some reason
      | none => restrictedEntries permissions fields (depth + 1)
  | _, depth => if 24 < depth then some .secret else none

/-- The loop over the items of an array. -/
def restrictedItems (permissions : List String) : List Json → ℕ → Option RedactionReason
  | [], _ => none
  | item :: items, depth =>
    match restrictedSchemaDescendant permissions item depth with
    | some reason => some reason
    | none => restrictedItems permissions items depth

/-- The loop over the entries of an object. -/
def restrictedEntries (permissions : List String) :
    List (String × Json) → ℕ → Option RedactionReason
  | [], _ => none
  | (key, child) :: fields, depth =>
    if key ∈ schemaDataKeys then restrictedEntries permissions fields depth
    else
      match restrictedSchemaDescendant permissions child depth with
      | some reason => some reason
      | none => restrictedEntries permissions fields depth

end

variable {permissions : List String}

variable {depth : ℕ}

theorem restrictedItems_eq_none {items : List Json} :
    restrictedItems permissions items depth = none ↔
      ∀ item ∈ items, restrictedSchemaDescendant permissions item depth = none := by
  induction items with
  | nil => simp [restrictedItems]
  | cons item items ih =>
    rw [restrictedItems, List.forall_mem_cons]
    split
    · next h => simp [h]
    · next h => simp [h, ih]

theorem restrictedEntries_eq_none {fields : List (String × Json)} :
    restrictedEntries permissions fields depth = none ↔ ∀ e ∈ fields, e.1 ∉ schemaDataKeys →
        restrictedSchemaDescendant permissions e.2 depth = none := by
  induction fields with
  | nil => simp [restrictedEntries]
  | cons e fields ih =>
    obtain ⟨key, child⟩ := e
    rw [restrictedEntries, List.forall_mem_cons]
    split
    · next h => simp [h, ih]
    · next h =>
      split
      · next h' => simp [h, h']
      · next h' => simp [h', ih]

theorem schemaReason_nil_ne_none {schema : Option JsonSchema}
    (h : schemaReason schema permissions ≠ none) : schemaReason schema [] ≠ none := by
  unfold schemaReason at h ⊢
  split
  · exact Option.some_ne_none _
  · next hm =>
    rw [if_neg hm] at h
    split at h
    · simp
    · exact absurd rfl h

/-- **Fewer permissions restrict more.**  What is restricted to a reader with
some permissions is restricted to one without any. -/
theorem restrictedSchemaDescendant_nil_ne_none (permissions : List String) (value : Json) :
    ∀ depth, restrictedSchemaDescendant permissions value depth ≠ none →
      restrictedSchemaDescendant [] value depth ≠ none := by
  induction value using Json.induction with
  | null => exact fun depth h => h
  | bool b => exact fun depth h => h
  | num n => exact fun depth h => h
  | str s => exact fun depth h => h
  | arr items ih =>
    intro depth h
    rw [restrictedSchemaDescendant] at h ⊢
    split
    · exact Option.some_ne_none _
    · next hd =>
      rw [if_neg hd] at h
      contrapose! h
      rw [restrictedItems_eq_none] at h ⊢
      exact fun v hv => not_not.1 fun hne => ih v hv _ hne (h v hv)
  | obj fields ih =>
    intro depth h
    rw [restrictedSchemaDescendant] at h ⊢
    split
    · exact Option.some_ne_none _
    · next hd =>
      rw [if_neg hd] at h
      split
      · exact Option.some_ne_none _
      · next href =>
        rw [if_neg href] at h
        cases hr : schemaReason (some fields) [] with
        | some reason => exact Option.some_ne_none _
        | none =>
          have hp : schemaReason (some fields) permissions = none :=
            not_not.1 fun hne => schemaReason_nil_ne_none hne hr
          rw [hp] at h
          contrapose! h
          rw [restrictedEntries_eq_none] at h ⊢
          exact fun e he hk => not_not.1 fun hne => ih e he _ hne (h e he hk)

/-- `schemaHasRestrictedEvidence`: restricted to a reader without permissions. -/
def schemaHasRestrictedEvidence (schema : JsonSchema) : Bool :=
  (restrictedSchemaDescendant [] (.obj schema) 0).isSome

/-- `opaqueSchemaReason`: the reason to mask the whole value a schema node applies
to, because a keyword that may apply to it in a way the redactor does not follow
holds something restricted. -/
def opaqueSchemaReason (schema : Option JsonSchema) (permissions : List String) :
    Option RedactionReason :=
  match schema with
  | none => none
  | some schema =>
    if hasReference schema then some .secret
    else
      match opaqueSchemaKeys.findSome? fun key =>
          (schema.lookup key).bind (restrictedSchemaDescendant permissions · 0) with
      | some reason => some reason
      | none =>
        match schema.lookup "items" with
        | some (.arr items) => restrictedSchemaDescendant permissions (.arr items) 0
        | _ => none

/-- What `redact` returns for a value; `α` is the kind of value. -/
structure Redacted (α : Type) where
  value : α
  changed : Bool
  reason : Option RedactionReason
deriving DecidableEq

/-- The text a protected value is replaced with. -/
def redactedText : Json := .str "[redacted]"

/-- The whole-value reason `redact` checks before it looks inside. -/
def maskReason (schema : Option JsonSchema) (permissions : List String) : Option RedactionReason :=
  match schemaReason schema permissions with
  | some reason => some reason
  | none => opaqueSchemaReason schema permissions

mutual

def redact (permissions : List String) : Json → Option JsonSchema → Redacted Json
  | value, schema =>
    match maskReason schema permissions with
    | some reason => { value := redactedText, changed := true, reason := some reason }
    | none =>
      match value with
      | .arr items =>
        let result := redactItems permissions items (schemaItems schema)
        { result with value := .arr result.value }
      | .obj fields =>
        let result := redactEntries permissions fields schema
        { result with value := .obj result.value }
      | value => { value, changed := false, reason := none }

/-- The loop of `redact` over the items of an array. -/
def redactItems (permissions : List String) : List Json → Option JsonSchema → Redacted (List Json)
  | [], _ => { value := [], changed := false, reason := none }
  | entry :: entries, schema =>
    let child := redact permissions entry schema
    let rest := redactItems permissions entries schema
    { value := child.value :: rest.value
      changed := child.changed || rest.changed
      reason := child.reason <|> rest.reason }

/-- The loop of `redact` over the entries of an object.  `result["__proto__"] = …`
sets a prototype and adds no entry. -/
def redactEntries (permissions : List String) :
    List (String × Json) → Option JsonSchema → Redacted (List (String × Json))
  | [], _ => { value := [], changed := false, reason := none }
  | (key, entry) :: fields, schema =>
    let childSchema := schemaRecord schema key
    let childReason := schemaReason childSchema permissions
    let child :=
      if secretKey key || childReason.isSome then
        { value := redactedText, changed := true, reason := some (childReason.getD .secret) }
      else redact permissions entry childSchema
    let rest := redactEntries permissions fields schema
    { value := if key = "__proto__" then rest.value else (key, child.value) :: rest.value
      changed := child.changed || rest.changed
      reason := child.reason <|> rest.reason }

end

variable [Host]

/-- `safePayloadEvidence`: `none` is a payload that was not emitted. -/
def safePayloadEvidence (value : Option Json) (schemaId : String) (schema : Option JsonSchema)
    (permissionSnapshot : List String) : WorkflowPayloadEvidence :=
  match value with
  | none =>
    { policyMarked := true, state := .absent, schemaId, hash := jsonHash .null
      originalByteSize := 0, reason := some .notEmitted }
  | some value =>
    let originalByteSize := jsonByteSize value
    let hash := jsonHash value
    if 8 * 1024 < originalByteSize then
      { policyMarked := true, state := .truncated, schemaId, hash, originalByteSize
        reason := some .sizeLimit }
    else
      let safe := redact permissionSnapshot value schema
      if safe.changed then
        { policyMarked := true, state := .redacted, schemaId, hash, originalByteSize
          preview := some safe.value
          reason := some (safe.reason.getD .secret).toEvidence }
      else
        { policyMarked := true, state := .available, schemaId, hash, originalByteSize
          preview := some value }

end Flowdular.Workflows
