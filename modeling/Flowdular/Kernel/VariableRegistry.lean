/-
# The registry of variable sources

`src/packages/kernel/src/variable-registry.ts` and `normalizeActor` of `actor.ts`.

Sources register their definitions, with or without a resolver, and every key has one
owner (`Registered.owned`).  A template is resolved in one pass: its keys are checked
against the definitions and the permissions, a value the caller supplies is taken where
the owner has no resolver, the resolvers are asked for the rest, and the pieces of the
template are put together (`resolve_template`).
-/

import Flowdular.Contracts.Variables
import Flowdular.Lib.Prog
import Flowdular.Workflows.GraphSecurity

namespace Flowdular.Kernel

open Contracts
open Lib (Prog)
open Workflows (trimChars utf16Length objectPrototypeNames)

/-! ### Actors -/

inductive Actor where
  | user (id label : String)
  | agent (id label runId : String)
  | service (id label : String) (configuredBy : Actor)
deriving DecidableEq, Repr

/-- `value.trim()`. -/
def trimmed (value : String) : String :=
  String.ofList (trimChars value.toList)

/-- The trimmed text, if it is neither empty nor longer than a bound. -/
def boundedText (value : String) (maximum : ℕ) : Option String :=
  if trimmed value = "" ∨ maximum < utf16Length (trimmed value) then none else some (trimmed value)

def normalizeActor : Actor → Option Actor
  | .user id label => do return .user (← boundedText id 128) (← boundedText label 160)
  | .agent id label runId => do
    return .agent (← boundedText id 128) (← boundedText label 160) (← boundedText runId 128)
  | .service id label configuredBy => do
    let id ← boundedText id 128
    let label ← boundedText label 160
    match ← normalizeActor configuredBy with
    | .user userId userLabel => return .service id label (.user userId userLabel)
    | _ => none

/-! ### Errors and requests -/

/-- The codes of `VariableResolutionError`. -/
inductive VariableErrorCode where
  | invalidContext
  | unknownVariable
  | forbiddenVariable
  | missingBinding
  | valueUnavailable
  | sourceFailed
  | aborted
deriving DecidableEq, Repr

/-- The code as it stands. -/
def VariableErrorCode.text : VariableErrorCode → String
  | .invalidContext => "INVALID_VARIABLE_CONTEXT"
  | .unknownVariable => "UNKNOWN_TEMPLATE_VARIABLE"
  | .forbiddenVariable => "FORBIDDEN_TEMPLATE_VARIABLE"
  | .missingBinding => "MISSING_VARIABLE_BINDING"
  | .valueUnavailable => "VARIABLE_VALUE_UNAVAILABLE"
  | .sourceFailed => "VARIABLE_SOURCE_FAILED"
  | .aborted => "VARIABLE_RESOLUTION_ABORTED"

/-- The messages of `sourceFailure`. -/
def VariableErrorCode.sourceMessage : VariableErrorCode → String
  | .invalidContext => "The variable source context is invalid."
  | .unknownVariable => "The variable source is unknown."
  | .forbiddenVariable => "The variable source is unavailable to this actor."
  | .missingBinding => "A required variable binding is missing."
  | .valueUnavailable => "A variable value is unavailable."
  | .sourceFailed => "The variable source could not be resolved."
  | .aborted => "Variable resolution was aborted."

/-- `VariableResolutionRequest`, but for the signal. -/
structure VariableResolutionRequest where
  tenantId : String
  actor : Actor
  permissionSnapshot : List String
  bindings : List (String × String)
  values : Option (List (String × String)) := none

/-- `VariableSourceResolutionContext`, but for the signal. -/
structure VariableSourceResolutionContext where
  tenantId : String
  actor : Actor
  permissionSnapshot : List String
  bindings : List (String × String)
  keys : List String

/-- What a resolver answers: values, of which some may be missing, an error of the
registry's own kind, or another one. -/
inductive SourceReply where
  | resolved (values : List (String × Option String))
  | refused (code : VariableErrorCode)
  | failed

/-- What a resolution asks from outside: whether its signal is aborted, and the
resolver of a source. -/
inductive VariableCall where
  | aborted
  | source (index : ℕ) (context : VariableSourceResolutionContext)

/-- The replies. -/
abbrev VariableReply : VariableCall → Type
  | .aborted => Bool
  | .source _ _ => SourceReply

/-- A resolution. -/
abbrev VariableProg :=
  Prog VariableCall VariableReply

/-- `throw new VariableResolutionError(code, message)`. -/
def throwVariable {α : Type} (code : VariableErrorCode) (message : String) : VariableProg α :=
  .fail (code.text ++ ": " ++ message)

def abortIfNeeded : VariableProg Unit := do
  if ← (Prog.ask VariableCall.aborted : VariableProg Bool) then
    throwVariable .aborted "Variable resolution was aborted."

/-! ### The registry -/

/-- `VariableSourceResolver`, but for `resolve`, which is a call. -/
structure VariableSourceResolver where
  requiredBindings : Option (List (String × List String)) := none
deriving DecidableEq, Repr

structure RegisteredSource where
  source : VariableSource
  resolver : Option VariableSourceResolver
deriving DecidableEq, Repr

/-- The variables of a registry: the sources, and the place among them of the source a
key was registered with. -/
structure VariableRegistry where
  sources : List RegisteredSource := []
  byKey : List (String × ℕ) := []
deriving DecidableEq, Repr

/-- The loop of `register` over the definitions. -/
def checkDefinitions (byKey : List (String × ℕ)) (sourceKeys : List String) :
    List VariableDefinition → Except String Unit
  | [] => .ok ()
  | definition :: definitions =>
    if isVariableKey definition.key = false then
      .error ("INVALID_VARIABLE_KEY: Variable key " ++ definition.key ++ " is invalid.")
    else if (byKey.lookup definition.key).isSome ∨ definition.key ∈ sourceKeys then
      .error ("DUPLICATE_VARIABLE_KEY: Variable key " ++ definition.key ++ " is already registered.")
    else checkDefinitions byKey (sourceKeys ++ [definition.key]) definitions

/-- The loop of `register` over the bindings a resolver declares. -/
def checkBindings (source : VariableSource) : List (String × List String) → Except String Unit
  | [] => .ok ()
  | (key, bindings) :: required =>
    if key ∉ source.definitions.map (·.key) then
      .error ("INVALID_VARIABLE_BINDING: Variable binding declaration " ++ key ++
        " is not part of source " ++ source.id ++ ".")
    else
      match bindings.find? (isVariableKey · = false) with
      | some binding =>
        .error ("INVALID_VARIABLE_BINDING: Variable binding " ++ binding ++ " is invalid.")
      | none => checkBindings source required

def VariableRegistry.register (registry : VariableRegistry) (source : VariableSource)
    (resolver : Option VariableSourceResolver) : Except String VariableRegistry := do
  if trimmed source.id = "" then
    .error "INVALID_VARIABLE_SOURCE: Variable source id is required."
  checkDefinitions registry.byKey [] source.definitions
  checkBindings source ((resolver.bind (·.requiredBindings)).getD [])
  return {
    sources := registry.sources ++ [⟨source, resolver⟩]
    byKey := registry.byKey ++ source.definitions.map fun d => (d.key, registry.sources.length) }

/-- The definitions of a registry. -/
def VariableRegistry.available (registry : VariableRegistry) : List VariableDefinition :=
  variableDefinitions (registry.sources.map (·.source))

/-- The source a key was registered with, and its place. -/
def VariableRegistry.owner (registry : VariableRegistry) (key : String) :
    Option (ℕ × RegisteredSource) := do
  let index ← registry.byKey.lookup key
  return (index, ← registry.sources[index]?)

/-! ### Resolving a template -/

def boundedContext (value field : String) (maximum : ℕ) : VariableProg String :=
  match boundedText value maximum with
  | none => throwVariable .invalidContext (field ++ " is invalid.")
  | some value => .pure value

/-- `byKey.get(key)!`. -/
def VariableRegistry.entry (registry : VariableRegistry) (key : String) :
    VariableProg (ℕ × RegisteredSource) :=
  match registry.owner key with
  | none => .fail "TypeError"
  | some entry => .pure entry

/-- The value of the caller, where the owner of the key has no resolver. -/
def localValue (request : VariableResolutionRequest) (key : String) (entry : RegisteredSource) :
    Option String :=
  if entry.resolver.isNone then (request.values.getD []).lookup key else none

/-- The first loop over the keys: the values of the caller. -/
def localValues (registry : VariableRegistry) (request : VariableResolutionRequest) :
    List String → List (String × String) → VariableProg (List (String × String))
  | [], values => .pure values
  | key :: keys, values => do
    let (_, entry) ← registry.entry key
    match localValue request key entry with
    | some value =>
      if 100000 < utf16Length value then
        throwVariable .invalidContext "A variable value is too large."
      else localValues registry request keys ((key, value) :: values)
    | none => localValues registry request keys values

/-- `requestedBySource.set(entry, [...keys, key])`. -/
def addRequested (index : ℕ) (key : String) : List (ℕ × List String) → List (ℕ × List String)
  | [] => [(index, [key])]
  | (i, keys) :: requested =>
    if i = index then (i, keys ++ [key]) :: requested
    else (i, keys) :: addRequested index key requested

/-- The second loop over the keys: what is asked of each source. -/
def requestedBySource (registry : VariableRegistry) (values : List (String × String)) :
    List String → List (ℕ × List String) → VariableProg (List (ℕ × List String))
  | [], requested => .pure requested
  | key :: keys, requested =>
    if (values.lookup key).isSome then requestedBySource registry values keys requested
    else do
      let (index, _) ← registry.entry key
      requestedBySource registry values keys (addRequested index key requested)

/-- A binding is missing, blank or too long. -/
def bindingMissing (bindings : List (String × String)) (binding : String) : Bool :=
  match bindings.lookup binding with
  | none => true
  | some value => (trimChars value.toList).isEmpty || 256 < utf16Length value

/-- The bindings a resolver requires for a key.  A key that every object inherits a
member of, and that is not declared, has no list to loop over. -/
def requiredBindings (resolver : VariableSourceResolver) (key : String) :
    VariableProg (List String) :=
  match resolver.requiredBindings with
  | none => .pure []
  | some declared =>
    match declared.lookup key with
    | some bindings => .pure bindings
    | none => if key ∈ objectPrototypeNames then .fail "TypeError" else .pure []

/-- The bindings of the keys asked of a source. -/
def checkRequired (resolver : VariableSourceResolver) (bindings : List (String × String)) :
    List String → VariableProg Unit
  | [] => .pure ()
  | key :: keys => do
    if (← requiredBindings resolver key).any (bindingMissing bindings) then
      throwVariable .missingBinding "A required variable binding is missing."
    else checkRequired resolver bindings keys

/-- The values a resolver answered with. -/
def takeResolved (resolved : List (String × Option String)) :
    List String → List (String × String) → VariableProg (List (String × String))
  | [], values => .pure values
  | key :: keys, values =>
    match resolved.lookup key with
    | some (some value) =>
      if 100000 < utf16Length value then
        throwVariable .sourceFailed "The variable source could not be resolved."
      else takeResolved resolved keys ((key, value) :: values)
    | _ => throwVariable .valueUnavailable "A variable value is unavailable."

/-- The values of one source, in the context of the request. -/
def resolveSource (registry : VariableRegistry) (context : VariableSourceResolutionContext)
    (index : ℕ) (keys : List String) (values : List (String × String)) :
    VariableProg (List (String × String)) := do
  abortIfNeeded
  match registry.sources[index]?.bind (·.resolver) with
  | none => throwVariable .valueUnavailable "A variable value is unavailable."
  | some resolver =>
    checkRequired resolver context.bindings keys
    match ← (Prog.ask (VariableCall.source index { context with keys }) :
        VariableProg SourceReply) with
    | .refused code => throwVariable code code.sourceMessage
    | .failed => throwVariable .sourceFailed "The variable source could not be resolved."
    | .resolved resolved =>
      abortIfNeeded
      takeResolved resolved keys values

/-- The loop over the sources. -/
def resolveSources (registry : VariableRegistry) (context : VariableSourceResolutionContext) :
    List (ℕ × List String) → List (String × String) → VariableProg (List (String × String))
  | [], values => .pure values
  | (index, keys) :: requested, values => do
    let values ← resolveSource registry context index keys values
    resolveSources registry context requested values

/-- The context of a request, for the actor it names. -/
def VariableResolutionRequest.context (request : VariableResolutionRequest) (actor : Actor) :
    VariableSourceResolutionContext where
  tenantId := request.tenantId
  actor := actor
  permissionSnapshot := request.permissionSnapshot
  bindings := request.bindings
  keys := []

def VariableRegistry.resolve (registry : VariableRegistry) (template : String)
    (request : VariableResolutionRequest) : VariableProg String := do
  abortIfNeeded
  if 100000 < utf16Length template then
    throwVariable .invalidContext "The variable template is too large."
  else
    let _ ← boundedContext request.tenantId "tenantId" 128
    match normalizeActor request.actor with
    | none => throwVariable .invalidContext "actor is invalid."
    | some actor =>
      let report := validateTemplate template registry.available (some request.permissionSnapshot)
      if report.unknown ≠ [] then
        throwVariable .unknownVariable "The template contains an unknown variable."
      else if report.forbidden ≠ [] then
        throwVariable .forbiddenVariable
          "The template contains a variable unavailable to this actor."
      else
        let keys := extractVariables template
        let values ← localValues registry request keys []
        let requested ← requestedBySource registry values keys []
        let values ← resolveSources registry (request.context actor) requested values
        let output := resolveTemplate template values
        if 250000 < utf16Length output then
          throwVariable .sourceFailed "The resolved template is too large."
        else return output

/-! ### Every key has one owner -/

/-- The registries that come of registering sources. -/
inductive Registered : VariableRegistry → Prop
  | empty : Registered {}
  | register {registry registry' : VariableRegistry} {source : VariableSource}
      {resolver : Option VariableSourceResolver} (h : Registered registry)
      (hok : registry.register source resolver = .ok registry') : Registered registry'

/-- A key belongs to the one source that defines it, and every key to a definition. -/
structure Owned (registry : VariableRegistry) : Prop where
  defined : ∀ key, (registry.byKey.lookup key).isSome ↔ ∃ d ∈ registry.available, d.key = key
  found : ∀ key i, registry.byKey.lookup key = some i → i < registry.sources.length
  nodup : (registry.available.map (·.key)).Nodup

theorem checkDefinitions_eq_ok {byKey : List (String × ℕ)} :
    ∀ {definitions : List VariableDefinition} {sourceKeys : List String},
      checkDefinitions byKey sourceKeys definitions = .ok () →
        (∀ d ∈ definitions, byKey.lookup d.key = none ∧ d.key ∉ sourceKeys) ∧
          (definitions.map (·.key)).Nodup := by
  intro definitions
  induction definitions with
  | nil => simp
  | cons d definitions ih =>
    intro sourceKeys h
    unfold checkDefinitions at h
    split at h
    · cases h
    · split at h
      · cases h
      · next hnew =>
        rw [not_or] at hnew
        obtain ⟨ha, hn⟩ := ih h
        refine ⟨?_, ?_⟩
        · refine List.forall_mem_cons.2 ⟨⟨Option.not_isSome_iff_eq_none.1 hnew.1, hnew.2⟩, ?_⟩
          exact fun e he => ⟨(ha e he).1, fun hm => (ha e he).2 (List.mem_append_left _ hm)⟩
        · rw [List.map_cons, List.nodup_cons]
          refine ⟨fun hm => ?_, hn⟩
          obtain ⟨e, he, hk⟩ := List.mem_map.1 hm
          exact (ha e he).2 (by rw [hk]; simp)

theorem registerSource_eq_ok {registry registry' : VariableRegistry} {source : VariableSource}
    {resolver : Option VariableSourceResolver}
    (h : registry.register source resolver = .ok registry') :
    checkDefinitions registry.byKey [] source.definitions = .ok () ∧ registry' = {
        sources := registry.sources ++ [⟨source, resolver⟩]
        byKey := registry.byKey ++ source.definitions.map fun d => (d.key, registry.sources.length) } := by
  unfold VariableRegistry.register at h
  split at h
  · cases h
  · obtain ⟨u, hc, h⟩ := Lib.bind_eq_ok h
    obtain ⟨v, -, h⟩ := Lib.bind_eq_ok h
    exact ⟨hc, (Except.ok.inj h).symm⟩

theorem lookup_map_const (i : ℕ) (key : String) : ∀ definitions : List VariableDefinition,
    (definitions.map fun d => (d.key, i)).lookup key =
      if key ∈ definitions.map (·.key) then some i else none := by
  intro definitions
  induction definitions with
  | nil => rfl
  | cons d definitions ih =>
    rw [List.map_cons, List.lookup_cons, ih]
    by_cases hk : key = d.key
    · simp [hk]
    · simp [hk, beq_eq_false_iff_ne.2 hk]

theorem available_register (registry : VariableRegistry) (entry : RegisteredSource)
    (byKey : List (String × ℕ)) :
    ({ sources := registry.sources ++ [entry], byKey } : VariableRegistry).available =
      registry.available ++ entry.source.definitions := by
  simp [VariableRegistry.available, variableDefinitions]

/-- **Every key has one owner** in a registry sources were registered with. -/
theorem Registered.owned {registry : VariableRegistry} (h : Registered registry) :
    Owned registry := by
  induction h with
  | empty => exact ⟨fun key => by simp [VariableRegistry.available, variableDefinitions], by nofun,
      List.nodup_nil⟩
  | @register registry registry' source resolver _ hok ih =>
    obtain ⟨hc, rfl⟩ := registerSource_eq_ok hok
    obtain ⟨hf, hn⟩ := checkDefinitions_eq_ok hc
    refine ⟨fun key => ?_, fun key i hl => ?_, ?_⟩
    · rw [available_register, List.lookup_append, lookup_map_const, Option.isSome_or,
        Bool.or_eq_true, ih.defined]
      constructor
      · rintro (⟨d, hd, hkey⟩ | hm)
        · exact ⟨d, List.mem_append_left _ hd, hkey⟩
        · split at hm
          · next hm' =>
            obtain ⟨d, hd, hkey⟩ := List.mem_map.1 hm'
            exact ⟨d, List.mem_append_right _ hd, hkey⟩
          · cases hm
      · rintro ⟨d, hd, hkey⟩
        rcases List.mem_append.1 hd with hd | hd
        · exact .inl ⟨d, hd, hkey⟩
        · rw [if_pos (List.mem_map.2 ⟨d, hd, hkey⟩)]
          exact .inr rfl
    · rw [List.lookup_append, lookup_map_const, Option.or_eq_some_iff] at hl
      simp only [List.length_append, List.length_singleton]
      rcases hl with hl | ⟨-, hl⟩
      · have := ih.found key i hl
        omega
      · split at hl
        · cases hl
          omega
        · cases hl
    · rw [available_register, List.map_append]
      refine List.nodup_append.2 ⟨ih.nodup, hn, ?_⟩
      rintro key hkey other ho rfl
      obtain ⟨d, hd, rfl⟩ := List.mem_map.1 hkey
      obtain ⟨e, he, hk⟩ := List.mem_map.1 ho
      have hs := (ih.defined d.key).2 ⟨d, hd, rfl⟩
      rw [← hk, (hf e he).1] at hs
      cases hs

/-! ### The values of the caller -/

/-- Two supplies of values that agree on every key whose owner has no resolver. -/
def AgreeLocally (registry : VariableRegistry) (values values' : Option (List (String × String))) :
    Prop :=
  ∀ key i entry, registry.owner key = some (i, entry) → entry.resolver = none →
    (values'.getD []).lookup key = (values.getD []).lookup key

theorem localValues_congr {registry : VariableRegistry} {request : VariableResolutionRequest}
    {values' : Option (List (String × String))}
    (h : AgreeLocally registry request.values values') :
    ∀ (keys : List String) (values : List (String × String)),
      localValues registry { request with values := values' } keys values =
        localValues registry request keys values := by
  intro keys
  induction keys with
  | nil => exact fun _ => rfl
  | cons key keys ih =>
    intro values
    rw [localValues, localValues, VariableRegistry.entry]
    cases ho : registry.owner key with
    | none => rfl
    | some found =>
      obtain ⟨i, entry⟩ := found
      have hl : localValue { request with values := values' } key entry =
          localValue request key entry := by
        unfold localValue
        split
        · next hr => exact h key i entry ho (Option.isNone_iff_eq_none.1 hr)
        · rfl
      simp only [Prog.pure_bind, hl, ih]

/-- **No value for a key a resolver owns has any part in a resolution.** -/
theorem resolve_congr {registry : VariableRegistry} {request : VariableResolutionRequest}
    {values' : Option (List (String × String))}
    (h : AgreeLocally registry request.values values') (template : String) :
    registry.resolve template { request with values := values' } =
      registry.resolve template request := by
  have hc : ∀ actor, ({ request with values := values' } :
      VariableResolutionRequest).context actor = request.context actor := fun _ => rfl
  unfold VariableRegistry.resolve
  simp only [localValues_congr h, hc]

/-! ### What a resolution yields -/

/-- The permissions cover a key: it is defined, and every definition of it is in scope. -/
def InScope (registry : VariableRegistry) (permissions : List String) (key : String) : Prop :=
  (∃ d ∈ registry.available, d.key = key) ∧
    ∀ d ∈ registry.available, d.key = key → ∀ scope, d.scope = some scope → scope ∈ permissions

/-- What a resolution may ask: whether it is aborted, and a resolver for keys of its own
that the template has, under the permissions of the request. -/
def AsksOwn (registry : VariableRegistry) (template : String)
    (request : VariableResolutionRequest) : VariableCall → Prop
  | .aborted => True
  | .source index context => context.permissionSnapshot = request.permissionSnapshot ∧
      ∀ key ∈ context.keys, key ∈ extractVariables template ∧ ∃ entry,
        registry.owner key = some (index, entry) ∧ entry.resolver.isSome = true

section

variable {registry : VariableRegistry} {template : String} {request : VariableResolutionRequest}

theorem yields_abortIfNeeded {post : Unit → Prop} (h : post ()) :
    abortIfNeeded.Yields (AsksOwn registry template request) post := by
  refine ⟨trivial, fun r => ?_⟩
  cases r with
  | true => exact trivial
  | false => exact h

theorem yields_boundedContext {value field : String} {maximum : ℕ} {post : String → Prop}
    (h : ∀ value, post value) :
    (boundedContext value field maximum).Yields (AsksOwn registry template request) post := by
  unfold boundedContext
  split
  · exact trivial
  · exact h _

/-- The first loop takes the values of the caller, for keys whose owner has no
resolver. -/
theorem yields_localValues {keys : List String} : ∀ {values : List (String × String)},
    (localValues registry request keys values).Yields (AsksOwn registry template request)
      fun values' => ∀ key, (values'.lookup key).isSome →
        (values.lookup key).isSome ∨ key ∈ keys := by
  induction keys with
  | nil => exact fun key h => .inl h
  | cons key keys ih =>
    intro values
    rw [localValues, VariableRegistry.entry]
    have hr : ∀ values₁ : List (String × String),
        (∀ k, (values₁.lookup k).isSome → (values.lookup k).isSome ∨ k = key) →
          (localValues registry request keys values₁).Yields (AsksOwn registry template request)
            fun values' => ∀ k, (values'.lookup k).isSome →
              (values.lookup k).isSome ∨ k ∈ key :: keys := by
      intro values₁ h₁
      refine Prog.Yields.mono (fun values' h k hk => ?_) (@ih values₁)
      rcases h k hk with h | h
      · exact (h₁ k h).imp id fun heq => by rw [heq]; exact List.mem_cons_self
      · exact .inr (List.mem_cons_of_mem key h)
    cases registry.owner key with
    | none => exact trivial
    | some found =>
      obtain ⟨i, entry⟩ := found
      rw [Prog.pure_bind]
      simp only
      split
      · next value _ =>
        split
        · exact trivial
        · refine hr _ fun k hk => ?_
          by_cases hkey : k = key
          · exact .inr hkey
          · rw [List.lookup_cons, beq_eq_false_iff_ne.2 hkey] at hk
            exact .inl hk
      · exact hr values fun k hk => .inl hk

/-- The keys asked of the sources. -/
def RequestedKeys (requested : List (ℕ × List String)) (key : String) : Prop :=
  ∃ index keys, (index, keys) ∈ requested ∧ key ∈ keys

/-- Each source is asked for keys of its own. -/
def RequestsOwn (registry : VariableRegistry) (keys : List String)
    (requested : List (ℕ × List String)) : Prop :=
  ∀ index asked, (index, asked) ∈ requested → ∀ key ∈ asked, key ∈ keys ∧
    ∃ entry, registry.owner key = some (index, entry)

theorem requestedKeys_addRequested {index : ℕ} {key k : String} :
    ∀ {requested : List (ℕ × List String)},
      RequestedKeys (addRequested index key requested) k ↔ k = key ∨ RequestedKeys requested k := by
  intro requested
  induction requested with
  | nil => simp [RequestedKeys, addRequested]
  | cons entry requested ih =>
    obtain ⟨i, keys⟩ := entry
    have hc : ∀ {i : ℕ} {keys : List String} {rest : List (ℕ × List String)},
        RequestedKeys ((i, keys) :: rest) k ↔ k ∈ keys ∨ RequestedKeys rest k := by
      intro i keys rest
      constructor
      · rintro ⟨j, asked, hm, hk⟩
        rcases List.mem_cons.1 hm with heq | hm
        · cases heq
          exact .inl hk
        · exact .inr ⟨j, asked, hm, hk⟩
      · rintro (hk | ⟨j, asked, hm, hk⟩)
        · exact ⟨i, keys, List.mem_cons_self, hk⟩
        · exact ⟨j, asked, List.mem_cons_of_mem _ hm, hk⟩
    rw [addRequested]
    split
    · rw [hc, hc, List.mem_append, List.mem_singleton]
      tauto
    · rw [hc, hc, ih]
      tauto

theorem requestsOwn_addRequested {keys : List String} {index : ℕ} {key : String}
    (hkey : key ∈ keys ∧ ∃ entry, registry.owner key = some (index, entry)) :
    ∀ {requested : List (ℕ × List String)}, RequestsOwn registry keys requested →
      RequestsOwn registry keys (addRequested index key requested) := by
  intro requested
  induction requested with
  | nil =>
    intro _ i asked hm k hk
    cases List.mem_singleton.1 hm
    rw [List.mem_singleton.1 hk]
    exact hkey
  | cons entry requested ih =>
    obtain ⟨j, others⟩ := entry
    intro h
    rw [addRequested]
    split
    · next heq =>
      intro i asked hm k hk
      rcases List.mem_cons.1 hm with hf | hm
      · cases hf
        rcases List.mem_append.1 hk with hk | hk
        · exact h _ _ List.mem_cons_self k hk
        · rw [List.mem_singleton.1 hk, heq]
          exact hkey
      · exact h i asked (List.mem_cons_of_mem _ hm) k hk
    · intro i asked hm k hk
      rcases List.mem_cons.1 hm with hf | hm
      · cases hf
        exact h _ _ List.mem_cons_self k hk
      · exact ih (fun i asked hm => h i asked (List.mem_cons_of_mem _ hm)) i asked hm k hk

/-- The second loop asks for every key without a value, of its owner. -/
theorem yields_requestedBySource {values : List (String × String)} {all keys : List String} :
    ∀ {requested : List (ℕ × List String)}, (∀ key ∈ keys, key ∈ all) →
      RequestsOwn registry all requested →
        (requestedBySource registry values keys requested).Yields
          (AsksOwn registry template request) fun requested' =>
            RequestsOwn registry all requested' ∧ ∀ key, RequestedKeys requested' key ↔
              RequestedKeys requested key ∨ key ∈ keys ∧ values.lookup key = none := by
  induction keys with
  | nil => exact fun _ h => ⟨h, by simp⟩
  | cons key keys ih =>
    intro requested ha h
    have ha' : ∀ k ∈ keys, k ∈ all := fun k hk => ha k (List.mem_cons_of_mem key hk)
    rw [requestedBySource]
    split
    · next hs =>
      refine Prog.Yields.mono (fun requested' hp => ⟨hp.1, fun k => ?_⟩) (ih ha' h)
      rw [hp.2 k, List.mem_cons]
      have : ¬(k = key ∧ values.lookup k = none) := by
        rintro ⟨rfl, hn⟩
        rw [hn] at hs
        cases hs
      tauto
    · next hn =>
      rw [VariableRegistry.entry]
      cases ho : registry.owner key with
      | none => exact trivial
      | some found =>
        obtain ⟨i, entry⟩ := found
        rw [Prog.pure_bind]
        simp only
        refine Prog.Yields.mono (fun requested' hp => ⟨hp.1, fun k => ?_⟩)
          (ih ha' (requestsOwn_addRequested ⟨ha key List.mem_cons_self, entry, ho⟩ h))
        rw [hp.2 k, requestedKeys_addRequested, List.mem_cons]
        have : k = key → values.lookup k = none := by
          rintro rfl
          exact Option.not_isSome_iff_eq_none.1 hn
        tauto

/-- Values for some keys are added, and the others stay. -/
def Extends (asked : String → Prop) (values values' : List (String × String)) : Prop :=
  ∀ key, (asked key → (values'.lookup key).isSome) ∧
    (¬asked key → values'.lookup key = values.lookup key)

theorem yields_takeResolved {resolved : List (String × Option String)} {keys : List String} :
    ∀ {values : List (String × String)},
      (takeResolved resolved keys values).Yields (AsksOwn registry template request)
        (Extends (· ∈ keys) values) := by
  induction keys with
  | nil => exact fun key => ⟨by simp, fun _ => rfl⟩
  | cons key keys ih =>
    intro values
    rw [takeResolved]
    split
    · next value _ =>
      split
      · exact trivial
      · refine Prog.Yields.mono (fun values' h k => ?_) (@ih ((key, value) :: values))
        obtain ⟨ha, ho⟩ := h k
        by_cases hm : k ∈ keys
        · exact ⟨fun _ => ha hm, fun hn => absurd (List.mem_cons_of_mem key hm) hn⟩
        · have hl := ho hm
          by_cases hk : k = key
          · rw [hk, List.lookup_cons_self] at hl
            rw [hk, hl]
            exact ⟨fun _ => rfl, fun hn => absurd List.mem_cons_self hn⟩
          · rw [List.lookup_cons, beq_eq_false_iff_ne.2 hk] at hl
            refine ⟨fun h => ?_, fun _ => hl⟩
            rcases List.mem_cons.1 h with heq | h
            · exact absurd heq hk
            · exact absurd h hm
    · exact trivial

theorem yields_checkRequired {resolver : VariableSourceResolver} {bindings : List (String × String)}
    {keys : List String} {post : Unit → Prop} (h : post ()) :
    (checkRequired resolver bindings keys).Yields (AsksOwn registry template request) post := by
  induction keys with
  | nil => exact h
  | cons key keys ih =>
    rw [checkRequired]
    refine Prog.yields_bind ?_
    have hr : ∀ required : List String, (if required.any (bindingMissing bindings) then
          throwVariable .missingBinding "A required variable binding is missing."
        else checkRequired resolver bindings keys).Yields (AsksOwn registry template request)
          post := by
      intro required
      split
      · exact trivial
      · exact ih
    unfold requiredBindings
    split
    · exact hr []
    · split
      · exact hr _
      · split
        · exact trivial
        · exact hr []

theorem yields_resolveSource {actor : Actor} {index : ℕ} {keys : List String}
    {values : List (String × String)}
    (hown : ∀ key ∈ keys, key ∈ extractVariables template ∧ ∃ entry,
      registry.owner key = some (index, entry)) :
    (resolveSource registry (request.context actor) index keys values).Yields
      (AsksOwn registry template request) (Extends (· ∈ keys) values) := by
  rw [resolveSource]
  refine Prog.yields_bind (yields_abortIfNeeded ?_)
  split
  · exact trivial
  · next resolver hr =>
    refine Prog.yields_bind (yields_checkRequired ?_)
    refine ⟨⟨rfl, fun key hk => ?_⟩, fun reply => ?_⟩
    · obtain ⟨hm, entry, ho⟩ := hown key hk
      refine ⟨hm, entry, ho, ?_⟩
      unfold VariableRegistry.owner at ho
      obtain ⟨i, -, ho⟩ := Option.bind_eq_some_iff.1 ho
      obtain ⟨entry', he, heq⟩ := Option.bind_eq_some_iff.1 ho
      cases heq
      rw [he, Option.bind_some] at hr
      rw [hr]
      rfl
    · cases reply with
      | refused code => exact trivial
      | failed => exact trivial
      | resolved resolved =>
        show Prog.Yields _ _ (abortIfNeeded >>= fun _ => takeResolved resolved keys values)
        exact Prog.yields_bind (yields_abortIfNeeded yields_takeResolved)

/-- The loop over the sources has a value for every key that is asked for. -/
theorem yields_resolveSources {actor : Actor} {requested : List (ℕ × List String)} :
    ∀ {values : List (String × String)},
      RequestsOwn registry (extractVariables template) requested →
        (resolveSources registry (request.context actor) requested values).Yields
          (AsksOwn registry template request) (Extends (RequestedKeys requested) values) := by
  induction requested with
  | nil =>
    intro values _ key
    exact ⟨fun ⟨_, _, hm, _⟩ => absurd hm List.not_mem_nil, fun _ => rfl⟩
  | cons entry requested ih =>
    obtain ⟨index, keys⟩ := entry
    intro values h
    rw [resolveSources]
    refine Prog.yields_bind (Prog.Yields.mono (fun values₁ h₁ => ?_)
      (yields_resolveSource (h index keys List.mem_cons_self)))
    refine Prog.Yields.mono (fun values' h' key => ?_)
      (ih fun i asked hm => h i asked (List.mem_cons_of_mem _ hm))
    have hc : RequestedKeys ((index, keys) :: requested) key ↔
        key ∈ keys ∨ RequestedKeys requested key := by
      constructor
      · rintro ⟨j, asked, hm, hk⟩
        rcases List.mem_cons.1 hm with heq | hm
        · cases heq
          exact .inl hk
        · exact .inr ⟨j, asked, hm, hk⟩
      · rintro (hk | ⟨j, asked, hm, hk⟩)
        · exact ⟨index, keys, List.mem_cons_self, hk⟩
        · exact ⟨j, asked, List.mem_cons_of_mem _ hm, hk⟩
    rw [hc]
    obtain ⟨ha, ho⟩ := h' key
    by_cases hr : RequestedKeys requested key
    · exact ⟨fun _ => ha hr, fun hn => absurd (.inr hr) hn⟩
    · rw [ho hr]
      refine ⟨fun hk => (h₁ key).1 (hk.resolve_right hr), fun hn => (h₁ key).2 ?_⟩
      exact fun hk => hn (.inl hk)

/-- A key the checks let pass is defined, and in scope. -/
theorem inScope_of_validated (h : Owned registry) {permissions : List String}
    (hu : (validateTemplate template registry.available (some permissions)).unknown = [])
    (hf : (validateTemplate template registry.available (some permissions)).forbidden = [])
    {key : String} (hk : key ∈ extractVariables template) :
    InScope registry permissions key := by
  obtain ⟨hmemUnknown, hmemForbidden⟩ := @mem_validateTemplate template key registry.available
    (some permissions)
  rw [hu] at hmemUnknown
  rw [hf] at hmemForbidden
  have hdefined : definitionOf registry.available key ≠ none :=
    fun hnone => absurd (hmemUnknown.2 ⟨hk, hnone⟩) List.not_mem_nil
  obtain ⟨definition, hdef⟩ := Option.ne_none_iff_exists'.1 hdefined
  have hm : definition ∈ registry.available :=
    List.mem_reverse.1 (List.mem_of_find?_eq_some hdef)
  have hn : definition.key = key := by simpa using List.find?_some hdef
  refine ⟨⟨definition, hm, hn⟩, fun d hd hdkey scope hs => ?_⟩
  -- there is one definition of the key
  obtain rfl : d = definition :=
    List.inj_on_of_nodup_map h.nodup hd hm (hdkey.trans hn.symm)
  by_contra hnot
  refine absurd (hmemForbidden.2 ⟨hk, d, hdef, ?_⟩) List.not_mem_nil
  simp [VariableDefinition.isForbidden, hs, hnot]

/-- What a resolution puts together: the pieces of the template, with one value for
each of its keys, all of them in scope. -/
def Substituted (registry : VariableRegistry) (template : String)
    (request : VariableResolutionRequest) (output : String) : Prop :=
  ∃ values : List (String × String),
    output.toList = (tokenizeTemplate template).flatMap (·.rendered values .keep) ∧
      (∀ key, (values.lookup key).isSome ↔ key ∈ extractVariables template) ∧
        ∀ key ∈ extractVariables template, InScope registry request.permissionSnapshot key

theorem yields_resolve (h : Owned registry) :
    (registry.resolve template request).Yields (AsksOwn registry template request)
      (Substituted registry template request) := by
  unfold VariableRegistry.resolve
  refine Prog.yields_bind (yields_abortIfNeeded ?_)
  split
  · exact trivial
  · refine Prog.yields_bind (yields_boundedContext fun _ => ?_)
    split
    · exact trivial
    · next actor _ =>
      simp only
      split
      · exact trivial
      · next hu =>
        rw [ne_eq, not_not] at hu
        split
        · exact trivial
        · next hfor =>
          rw [ne_eq, not_not] at hfor
          refine Prog.yields_bind (Prog.Yields.mono (fun values hv => ?_)
            (@yields_localValues registry template request _ []))
          refine Prog.yields_bind (Prog.Yields.mono (fun requested hr => ?_)
            (@yields_requestedBySource registry template request values _ _ []
              (fun key hk => hk) (by nofun)))
          refine Prog.yields_bind (Prog.Yields.mono (fun values' hv' => ?_)
            (yields_resolveSources hr.1))
          split
          · exact trivial
          · refine ⟨values', resolveTemplate_eq .., fun key => ?_,
              fun key hk => inScope_of_validated h hu hfor hk⟩
            -- a key has its value from the caller or from its source
            have hl := hv key
            have ha := hr.2 key
            obtain ⟨hf, ho⟩ := hv' key
            by_cases hk : RequestedKeys requested key
            · refine iff_of_true (hf hk) ?_
              rcases ha.1 hk with ⟨_, _, hm, _⟩ | ⟨hm, -⟩
              · exact absurd hm List.not_mem_nil
              · exact hm
            · rw [ho hk]
              constructor
              · intro hs
                exact (hl hs).resolve_left (by simp)
              · intro hm
                by_contra hn
                exact hk (ha.2 (.inr ⟨hm, Option.not_isSome_iff_eq_none.1 hn⟩))

end

/-! ### Substitution respects scope -/

/-- The functions on a template agree on its pieces: they concatenate to it, the keys
extracted are those of its variables that are not blank, the validation reports on
just these, and a substitution is one of each piece by itself. -/
structure PiecesAgree (template : String) : Prop where
  source : (tokenizeTemplate template).flatMap (·.source.toList) = template.toList
  extracted : ∀ key, key ∈ extractVariables template ↔
    key ≠ "" ∧ ∃ text, .variable key text ∈ tokenizeTemplate template
  validated : ∀ available allowedScopes key,
    (key ∈ (validateTemplate template available allowedScopes).unknown ↔
        key ∈ extractVariables template ∧ definitionOf available key = none) ∧
      (key ∈ (validateTemplate template available allowedScopes).forbidden ↔
        key ∈ extractVariables template ∧ ∃ definition, definitionOf available key = some definition ∧
          definition.isForbidden allowedScopes = true)
  resolved : ∀ values onMissing, (resolveTemplate template values onMissing).toList =
    (tokenizeTemplate template).flatMap (·.rendered values onMissing)

/-- **Substitution respects scope.**  A value of the caller for a key a resolver owns
has no part in a resolution; whatever the resolvers reply, they are asked for their
own keys only, and the output is the pieces of the template with values for keys in
scope put in, which are not looked at again; and the functions on a template agree on
its pieces. -/
theorem resolve_respects_scope (registry : VariableRegistry) (h : Registered registry)
    (template : String) (request : VariableResolutionRequest) :
    (∀ values', AgreeLocally registry request.values values' →
        registry.resolve template { request with values := values' } =
          registry.resolve template request) ∧
      (registry.resolve template request).Yields (AsksOwn registry template request)
        (Substituted registry template request) ∧
      PiecesAgree template :=
  ⟨fun _ ha => resolve_congr ha template, yields_resolve h.owned,
    source_tokenizeTemplate template, fun _ => mem_extractVariables,
    fun _ _ _ => mem_validateTemplate, resolveTemplate_eq template⟩

/-- One source with a resolver, whose variable is in a scope. -/
def partyRegistry : VariableRegistry where
  sources := [⟨⟨"parties.records", [⟨"party.name", some "parties.records.read"⟩]⟩,
    some ⟨some [("party.name", ["partyId"])]⟩⟩]
  byKey := [("party.name", 0)]

/-- A request that supplies a value for the variable of the source. -/
def spoofingRequest : VariableResolutionRequest where
  tenantId := "tenant-a"
  actor := .user "account-a" "Account A"
  permissionSnapshot := ["parties.records.read"]
  bindings := [("partyId", "party-a")]
  values := some [("party.name", "Mallory")]

theorem resolve_respects_scope_party : partyRegistry.resolve "Hello \x7b\x7b party.name \x7d\x7d"
        { spoofingRequest with values := none } =
      partyRegistry.resolve "Hello \x7b\x7b party.name \x7d\x7d" spoofingRequest := by
  have hr : Registered partyRegistry :=
    @Registered.register {} partyRegistry
      ⟨"parties.records", [⟨"party.name", some "parties.records.read"⟩]⟩
      (some ⟨some [("party.name", ["partyId"])]⟩) .empty (by decide +kernel)
  refine (resolve_respects_scope _ hr _ spoofingRequest).1 none ?_
  intro key i entry ho hres
  by_cases hk : key = "party.name"
  · subst hk
    cases ho
    cases hres
  · have hn : partyRegistry.owner key = none := by
      have hl : partyRegistry.byKey.lookup key = none := by
        rw [partyRegistry, List.lookup_cons, beq_eq_false_iff_ne.2 hk]
        rfl
      rw [VariableRegistry.owner, hl]
      rfl
    rw [hn] at ho
    cases ho

/-- **A blank token is a variable to one function and none to another.** -/
theorem blank_token_disagrees :
    ∃ template : String, .variable "" template ∈ tokenizeTemplate template ∧
      extractVariables template = [] ∧ resolveTemplate template [("", "x")] = "x" := by
  refine ⟨"\x7b\x7b\x7d\x7d", ?_⟩
  decide +kernel

end Flowdular.Kernel
