/-
# What the compiler keeps from failing

`src/modules/workflows/src/domain/graph.ts`, lines 432-511, 541-643 and 1507-1671.

The mappings of an accepted graph never fail on their target: a root mapping has a
literal object or reads a position whose schema is an object's, and every other
target is one that can be written.

A gate expression is followed here as the value it comes as, where any member may be
missing or of another type, so that the errors of the language are seen besides the
declared ones (`evaluateRaw`).  What the validator of expressions accepts is never
met by one of them, and is evaluated within as many nested calls as it was
validated in.
-/

import Flowdular.Workflows.CompileSoundness
import Flowdular.Workflows.SourcePointers

namespace Flowdular.Workflows

/-! ### Gate expressions as they come -/

/-- What the evaluation of a gate throws: a declared error, an error of the language
or of its call stack. -/
inductive GateFault where
  | code (code : String)
  | typeError
  | stackOverflow
deriving DecidableEq

/-- The errors `evaluateGate` declares. -/
def gateErrors : List String :=
  ["WORKFLOW_GATE_PATH_MISSING", "WORKFLOW_GATE_TYPE_MISMATCH", "WORKFLOW_GATE_RESULT_INVALID"]

/-- `required`. -/
def rawRequired : Option Json → Except GateFault Json
  | some value => .ok value
  | none => .error (.code "WORKFLOW_GATE_PATH_MISSING")

/-- `boolean`. -/
def rawBoolean (value : Option Json) : Except GateFault Bool := do
  match ← rawRequired value with
  | .bool b => return b
  | _ => .error (.code "WORKFLOW_GATE_TYPE_MISMATCH")

/-- `values.every`. -/
def rawEvery (test : Json → Except GateFault Bool) : List Json → Except GateFault Bool
  | [] => .ok true
  | value :: values => do if ← test value then rawEvery test values else return false

/-- `values.some`. -/
def rawSome (test : Json → Except GateFault Bool) : List Json → Except GateFault Bool
  | [] => .ok false
  | value :: values => do if ← test value then return true else rawSome test values

/-- The operators of a gate; `other` is what `op` may be besides. -/
inductive GateOp where
  | literal
  | path
  | exists
  | not
  | and
  | or
  | eq
  | order (op : OrderOp)
  | in
  | other
deriving DecidableEq

/-- The operators by their names. -/
def gateOps : List (String × GateOp) :=
  [("literal", .literal), ("path", .path), ("exists", .exists), ("not", .not), ("and", .and),
    ("or", .or), ("eq", .eq), ("gt", .order .gt), ("gte", .order .gte), ("lt", .order .lt),
    ("lte", .order .lte), ("in", .in)]

/-- The operator `op` names. -/
def gateOp : Option Json → GateOp
  | some (.str name) => (gateOps.lookup name).getD .other
  | _ => .other

section

variable [Host]

/-- `evaluate` on an expression that may be anything (`none` where it is
`undefined`), with the calls the stack has room for. -/
def evaluateRaw (input : Json) : ℕ → Option Json → Except GateFault (Option Json)
  | 0, _ => .error .stackOverflow
  | _ + 1, none => .error .typeError
  | _ + 1, some .null => .error .typeError
  | frames + 1, some entry =>
    let operand (name : String) := evaluateRaw input frames (entry.get? name)
    let test := fun value => do rawBoolean (← evaluateRaw input frames (some value))
    match gateOp (entry.get? "op") with
    | .literal => .ok (entry.get? "value")
    | .path =>
      match entry.get? "pointer" with
      | some (.str pointer) => .ok (readJsonPointer input pointer)
      | _ => .ok none
    | .exists => do return some (.bool (← operand "value").isSome)
    | .not => do return some (.bool !(← rawBoolean (← operand "value")))
    | .and =>
      match entry.get? "values" with
      | some (.arr values) => do return some (.bool (← rawEvery test values))
      | _ => .error .typeError
    | .or =>
      match entry.get? "values" with
      | some (.arr values) => do return some (.bool (← rawSome test values))
      | _ => .error .typeError
    | .eq => do
      let left ← rawRequired (← operand "left")
      let right ← rawRequired (← operand "right")
      return some (.bool (Json.canonical left = Json.canonical right))
    | .order op => do
      match ← operand "left", ← operand "right" with
      | some (.num left), some (.num right) => return some (.bool (op.holds left.toRat right.toRat))
      | _, _ => .error (.code "WORKFLOW_GATE_TYPE_MISMATCH")
    | .in => do
      let right ← rawRequired (← operand "right")
      let left ← rawRequired (← operand "left")
      match right with
      | .arr items =>
        return some (.bool (items.any fun item => Json.canonical item = Json.canonical left))
      | _ => .error (.code "WORKFLOW_GATE_TYPE_MISMATCH")
    | .other => .ok none

/-- `evaluateGate` on an expression that may be anything. -/
def evaluateRawGate (frames : ℕ) (expression input : Json) : Except GateFault Bool := do
  match ← evaluateRaw input frames (some expression) with
  | some (.bool b) => return b
  | _ => .error (.code "WORKFLOW_GATE_RESULT_INVALID")

end

/-- An issue of a gate expression. -/
def gateIssue (nodeId message : String) (path : Option String := none) :
    WorkflowValidationIssue :=
  { code := "WORKFLOW_GATE_INVALID", message, location := .node nodeId path }

/-- `validateGateExpression` on an expression that may be anything, with the depths
that are left: 17 at the root. -/
def validateRaw (nodeId : String) : ℕ → Option Json → List WorkflowValidationIssue
  | depths + 1, some (.obj fields) =>
    let operand (name : String) := validateRaw nodeId depths (fields.lookup name)
    let operands :=
      match fields.lookup "values" with
      | some (.arr (value :: values)) =>
        (value :: values).flatMap fun value => validateRaw nodeId depths (some value)
      | _ => [gateIssue nodeId "Logical gates require at least one operand."]
    match gateOp (fields.lookup "op") with
    | .literal =>
      issueIf (!(fields.lookup "value").any (isJson · 0))
        (gateIssue nodeId "Gate literal is not JSON.")
    | .path =>
      match fields.lookup "pointer" with
      | some (.str pointer) =>
        issueIf (!validPointer pointer) (gateIssue nodeId "Gate path is not an RFC 6901 pointer.")
      | _ => [gateIssue nodeId "Gate path is not an RFC 6901 pointer."]
    | .not => operand "value"
    | .exists => operand "value"
    | .and => operands
    | .or => operands
    | .eq => operand "left" ++ operand "right"
    | .order _ => operand "left" ++ operand "right"
    | .in => operand "left" ++ operand "right"
    | .other =>
      match fields.lookup "op" with
      | some (.str _) => [gateIssue nodeId "Gate operator is not supported."]
      | _ => [gateIssue nodeId "Gate expression is invalid or too deep." (some "/expression")]
  | _, _ => [gateIssue nodeId "Gate expression is invalid or too deep." (some "/expression")]

/-! ### Only declared errors -/

/-- A result that is none of the errors of the language. -/
def Declared {α : Type} (result : Except GateFault α) : Prop :=
  ∀ fault, result = .error fault → ∃ code ∈ gateErrors, fault = .code code

variable {α β : Type}

theorem Declared.ok (a : α) : Declared (.ok a) := by
  intro fault h
  cases h

theorem Declared.code {code : String} (h : code ∈ gateErrors) :
    Declared (.error (.code code) : Except GateFault α) := by
  intro fault hf
  cases hf
  exact ⟨code, h, rfl⟩

theorem Declared.bind {result : Except GateFault α} {f : α → Except GateFault β}
    (h : Declared result) (hf : ∀ a, Declared (f a)) : Declared (result >>= f) := by
  cases result with
  | ok a => exact hf a
  | error fault => exact fun fault' h' => h fault' (by cases h'; rfl)

theorem declared_required (value : Option Json) : Declared (rawRequired value) := by
  cases value with
  | none => exact .code (by decide)
  | some v => exact .ok v

theorem declared_boolean (value : Option Json) : Declared (rawBoolean value) := by
  refine (declared_required value).bind fun v => ?_
  cases v with
  | bool b => exact .ok b
  | _ => exact .code (by decide)

theorem declared_every {test : Json → Except GateFault Bool} : ∀ {values : List Json},
    (∀ v ∈ values, Declared (test v)) → Declared (rawEvery test values)
  | [], _ => .ok true
  | v :: values, h => (h v List.mem_cons_self).bind fun b => by
    cases b with
    | true => exact declared_every fun w hw => h w (List.mem_cons_of_mem v hw)
    | false => exact .ok false

theorem declared_some {test : Json → Except GateFault Bool} : ∀ {values : List Json},
    (∀ v ∈ values, Declared (test v)) → Declared (rawSome test values)
  | [], _ => .ok false
  | v :: values, h => (h v List.mem_cons_self).bind fun b => by
    cases b with
    | true => exact .ok true
    | false => exact declared_some fun w hw => h w (List.mem_cons_of_mem v hw)

section

variable [Host]

variable {nodeId : String}

omit [Host] in
theorem exists_fields_of_validateRaw {depths : ℕ} {expression : Option Json}
    (h : validateRaw nodeId depths expression = []) :
    ∃ fields, expression = some (.obj fields) := by
  unfold validateRaw at h
  split at h
  · exact ⟨_, rfl⟩
  · cases h

/-- **An accepted expression meets no error of the language**, in as many nested
calls as it has depths.  By induction on the depths. -/
theorem declared_evaluateRaw (input : Json) (depths : ℕ) :
    ∀ (expression : Option Json) (frames : ℕ), depths ≤ frames →
      validateRaw nodeId depths expression = [] → Declared (evaluateRaw input frames expression) := by
  induction depths with
  | zero => intro expression frames _ h; simp [validateRaw] at h
  | succ depths ih =>
    intro expression frames hf h
    obtain ⟨frames, rfl⟩ : ∃ m, frames = m + 1 := ⟨frames - 1, by omega⟩
    have hle : depths ≤ frames := by omega
    obtain ⟨fields, rfl⟩ := exists_fields_of_validateRaw h
    have ho : ∀ name, validateRaw nodeId depths (fields.lookup name) = [] →
        Declared (evaluateRaw input frames (fields.lookup name)) :=
      fun name => ih (fields.lookup name) frames hle
    have ht : ∀ values : List Json,
        (∀ v ∈ values, validateRaw nodeId depths (some v) = []) → ∀ v ∈ values,
          Declared (evaluateRaw input frames (some v) >>= rawBoolean) :=
      fun values hval v hv => (ih (some v) frames hle (hval v hv)).bind declared_boolean
    have hope : (match fields.lookup "values" with
          | some (.arr (value :: values)) =>
            (value :: values).flatMap fun value => validateRaw nodeId depths (some value)
          | _ => [gateIssue nodeId "Logical gates require at least one operand."]) = [] →
        ∃ values, fields.lookup "values" = some (.arr values) ∧
          ∀ v ∈ values, validateRaw nodeId depths (some v) = [] := by
      intro h
      split at h
      · next value values hval => exact ⟨_, hval, List.flatMap_eq_nil_iff.1 h⟩
      · cases h
    unfold validateRaw at h
    unfold evaluateRaw
    simp only [Json.get?]
    cases hop : gateOp (fields.lookup "op") with
    | literal => exact .ok _
    | path =>
      simp only
      split
      · exact .ok _
      · exact .ok _
    | «exists» =>
      simp only [hop] at h
      exact (ho "value" h).bind fun v => .ok _
    | not =>
      simp only [hop] at h
      exact (ho "value" h).bind fun v => (declared_boolean v).bind fun b => .ok _
    | and =>
      simp only [hop] at h
      obtain ⟨values, hval, ha⟩ := hope h
      simp only [hval]
      exact (declared_every (ht values ha)).bind fun b => .ok _
    | or =>
      simp only [hop] at h
      obtain ⟨values, hval, ha⟩ := hope h
      simp only [hval]
      exact (declared_some (ht values ha)).bind fun b => .ok _
    | eq =>
      simp only [hop, List.append_eq_nil_iff] at h
      exact (ho "left" h.1).bind fun l => (declared_required l).bind fun _ =>
        (ho "right" h.2).bind fun r => (declared_required r).bind fun _ => .ok _
    | order op =>
      simp only [hop, List.append_eq_nil_iff] at h
      refine (ho "left" h.1).bind fun l => (ho "right" h.2).bind fun r => ?_
      split
      · exact .ok _
      · exact .code (by decide)
    | «in» =>
      simp only [hop, List.append_eq_nil_iff] at h
      refine (ho "right" h.2).bind fun r => (declared_required r).bind fun right =>
        (ho "left" h.1).bind fun l => (declared_required l).bind fun left => ?_
      split
      · exact .ok _
      · exact .code (by decide)
    | other => exact .ok _

theorem declared_evaluateRawGate {expression : Json} (input : Json)
    {frames : ℕ} (hf : 17 ≤ frames) (h : validateRaw nodeId 17 (some expression) = []) :
    Declared (evaluateRawGate frames expression input) := by
  refine (declared_evaluateRaw input 17 (some expression) frames hf h).bind fun v => ?_
  split
  · exact .ok _
  · exact .code (by decide)

end

/-! ### The expressions of a graph -/

/-- The name of an order comparison. -/
def OrderOp.name : OrderOp → String
  | .gt => "gt"
  | .gte => "gte"
  | .lt => "lt"
  | .lte => "lte"

mutual

/-- The expression of a graph as the value it comes as. -/
def WorkflowGateExpression.json : WorkflowGateExpression → Json
  | .literal value => .obj [("op", .str "literal"), ("value", value)]
  | .path pointer => .obj [("op", .str "path"), ("pointer", .str pointer)]
  | .exists value => .obj [("op", .str "exists"), ("value", value.json)]
  | .not value => .obj [("op", .str "not"), ("value", value.json)]
  | .and values => .obj [("op", .str "and"), ("values", .arr (jsonOfAll values))]
  | .or values => .obj [("op", .str "or"), ("values", .arr (jsonOfAll values))]
  | .eq left right => .obj [("op", .str "eq"), ("left", left.json), ("right", right.json)]
  | .order op left right => .obj [("op", .str op.name), ("left", left.json), ("right", right.json)]
  | .in left right => .obj [("op", .str "in"), ("left", left.json), ("right", right.json)]
  | .unsupported => .obj [("op", .str "")]

/-- The operands of a logical gate as the values they come as. -/
def WorkflowGateExpression.jsonOfAll : List WorkflowGateExpression → List Json
  | [] => []
  | value :: values => value.json :: jsonOfAll values

end

open WorkflowGateExpression (jsonOfAll)

mutual

/-- What the compiler accepts of a graph is accepted as the value it comes as. -/
theorem validateRaw_json (nodeId : String) : ∀ (expression : WorkflowGateExpression) (depth : ℕ),
    validateGateExpression nodeId expression depth = [] →
      validateRaw nodeId (17 - depth) (some expression.json) = []
  | expression, depth, h => by
    have hdep : depth ≤ 16 := by
      by_contra hd
      unfold validateGateExpression at h
      simp [Nat.lt_of_not_le hd] at h
    have hf : 17 - depth = (17 - (depth + 1)) + 1 := by omega
    rw [hf]
    unfold validateGateExpression at h
    simp only [Nat.not_lt.2 hdep, if_false] at h
    cases expression with
    | literal value =>
      have hj : isJson value 0 = true := by simpa using h
      show issueIf (!isJson value 0) _ = []
      rw [hj]
      rfl
    | path pointer => exact h
    | «exists» value => exact validateRaw_json nodeId value (depth + 1) h
    | not value => exact validateRaw_json nodeId value (depth + 1) h
    | and values =>
      cases values with
      | nil => simp at h
      | cons value values =>
        exact List.flatMap_eq_nil_iff.2 (validateRaw_jsonOfAll nodeId _ (depth + 1) h)
    | or values =>
      cases values with
      | nil => simp at h
      | cons value values =>
        exact List.flatMap_eq_nil_iff.2 (validateRaw_jsonOfAll nodeId _ (depth + 1) h)
    | eq left right =>
      obtain ⟨hl, hr⟩ := List.append_eq_nil_iff.1 h
      exact List.append_eq_nil_iff.2 ⟨validateRaw_json nodeId left (depth + 1) hl,
        validateRaw_json nodeId right (depth + 1) hr⟩
    | order op left right =>
      obtain ⟨hl, hr⟩ := List.append_eq_nil_iff.1 h
      have hp := List.append_eq_nil_iff.2 ⟨validateRaw_json nodeId left (depth + 1) hl,
        validateRaw_json nodeId right (depth + 1) hr⟩
      cases op <;> exact hp
    | «in» left right =>
      obtain ⟨hl, hr⟩ := List.append_eq_nil_iff.1 h
      exact List.append_eq_nil_iff.2 ⟨validateRaw_json nodeId left (depth + 1) hl,
        validateRaw_json nodeId right (depth + 1) hr⟩
    | unsupported => simp at h

theorem validateRaw_jsonOfAll (nodeId : String) :
    ∀ (values : List WorkflowGateExpression) (depth : ℕ),
      validateGateExpressions nodeId values depth = [] →
        ∀ v ∈ jsonOfAll values, validateRaw nodeId (17 - depth) (some v) = []
  | [], _, _ => by simp [jsonOfAll]
  | value :: values, depth, h => by
    rw [validateGateExpressions, List.append_eq_nil_iff] at h
    rw [jsonOfAll, List.forall_mem_cons]
    exact ⟨validateRaw_json nodeId value depth h.1, validateRaw_jsonOfAll nodeId values depth h.2⟩

end

/-- A declared error as what the evaluation throws. -/
def thrown {α : Type} (result : Except String α) : Except GateFault α :=
  result.mapError .code

theorem thrown_bind (result : Except String α) (f : α → Except String β) :
    thrown (result >>= f) = thrown result >>= fun a => thrown (f a) := by
  cases result <;> rfl

theorem thrown_required (value : Option Json) :
    thrown (gateRequired value) = rawRequired value := by
  cases value <;> rfl

theorem thrown_boolean (value : Option Json) : thrown (gateBoolean value) = rawBoolean value := by
  rw [gateBoolean, rawBoolean, thrown_bind, thrown_required]
  congr 1
  funext v
  cases v <;> rfl

section

variable [Host]

mutual

/-- **An expression of a graph is evaluated as the value it comes as.** -/
theorem evaluateRaw_json (nodeId : String) (input : Json) :
    ∀ (expression : WorkflowGateExpression) (depth frames : ℕ),
      validateGateExpression nodeId expression depth = [] → 17 ≤ frames + depth →
        evaluateRaw input frames (some expression.json) = thrown (gateValue input expression)
  | expression, depth, frames, h, hf => by
    have hdep : depth ≤ 16 := by
      by_contra hd
      unfold validateGateExpression at h
      simp [Nat.lt_of_not_le hd] at h
    obtain ⟨frames, rfl⟩ : ∃ m, frames = m + 1 := ⟨frames - 1, by omega⟩
    have hn : 17 ≤ frames + (depth + 1) := by omega
    unfold validateGateExpression at h
    simp only [Nat.not_lt.2 hdep, if_false] at h
    cases expression with
    | literal value => rfl
    | path pointer => rfl
    | «exists» value =>
      have ih := evaluateRaw_json nodeId input value (depth + 1) frames h hn
      rw [gateValue, thrown_bind, ← ih]
      rfl
    | not value =>
      have ih := evaluateRaw_json nodeId input value (depth + 1) frames h hn
      simp only [gateValue, thrown_bind, thrown_boolean, ← ih]
      rfl
    | and values =>
      have hv : validateGateExpressions nodeId values (depth + 1) = [] := by
        cases values with
        | nil => simp at h
        | cons value values => exact h
      have ih := (evaluateRaw_jsonOfAll nodeId input values (depth + 1) frames hv hn).1
      rw [gateValue, thrown_bind, ← ih]
      rfl
    | or values =>
      have hv : validateGateExpressions nodeId values (depth + 1) = [] := by
        cases values with
        | nil => simp at h
        | cons value values => exact h
      have ih := (evaluateRaw_jsonOfAll nodeId input values (depth + 1) frames hv hn).2
      rw [gateValue, thrown_bind, ← ih]
      rfl
    | eq left right =>
      obtain ⟨hl, hr⟩ := List.append_eq_nil_iff.1 h
      have ihl := evaluateRaw_json nodeId input left (depth + 1) frames hl hn
      have ihr := evaluateRaw_json nodeId input right (depth + 1) frames hr hn
      simp only [gateValue, thrown_bind, thrown_required, ← ihl, ← ihr]
      rfl
    | order op left right =>
      obtain ⟨hl, hr⟩ := List.append_eq_nil_iff.1 h
      have ihl := evaluateRaw_json nodeId input left (depth + 1) frames hl hn
      have ihr := evaluateRaw_json nodeId input right (depth + 1) frames hr hn
      have hop : evaluateRaw input (frames + 1)
          (some (WorkflowGateExpression.order op left right).json) =
            (evaluateRaw input frames (some left.json) >>= fun l =>
              evaluateRaw input frames (some right.json) >>= fun r =>
                match l, r with
                | some (.num left), some (.num right) =>
                  .ok (some (.bool (op.holds left.toRat right.toRat)))
                | _, _ => .error (.code "WORKFLOW_GATE_TYPE_MISMATCH")) := by
        cases op <;> rfl
      rw [hop, gateValue, thrown_bind, ihl]
      congr 1
      funext l
      rw [thrown_bind, ihr]
      congr 1
      funext r
      rcases l with - | (- | - | - | - | - | -) <;> rcases r with - | (- | - | - | - | - | -) <;> rfl
    | «in» left right =>
      obtain ⟨hl, hr⟩ := List.append_eq_nil_iff.1 h
      have ihl := evaluateRaw_json nodeId input left (depth + 1) frames hl hn
      have ihr := evaluateRaw_json nodeId input right (depth + 1) frames hr hn
      simp only [gateValue, thrown_bind, thrown_required, ← ihl, ← ihr]
      show (evaluateRaw input frames (some right.json) >>= fun r => rawRequired r >>= fun right =>
        evaluateRaw input frames (some left.json) >>= fun l => rawRequired l >>= fun left => _) = _
      congr 1
      funext r
      congr 1
      funext right
      congr 1
      funext l
      congr 1
      funext left
      cases right <;> rfl
    | unsupported => rfl

theorem evaluateRaw_jsonOfAll (nodeId : String) (input : Json) :
    ∀ (values : List WorkflowGateExpression) (depth frames : ℕ),
      validateGateExpressions nodeId values depth = [] → 17 ≤ frames + depth →
        rawEvery (fun v => do rawBoolean (← evaluateRaw input frames (some v)))
            (jsonOfAll values) = thrown (gateEvery input values) ∧
          rawSome (fun v => do rawBoolean (← evaluateRaw input frames (some v)))
            (jsonOfAll values) = thrown (gateSome input values)
  | [], _, _, _, _ => ⟨rfl, rfl⟩
  | value :: values, depth, frames, h, hf => by
    rw [validateGateExpressions, List.append_eq_nil_iff] at h
    have ih := evaluateRaw_json nodeId input value depth frames h.1 hf
    obtain ⟨he, hs⟩ := evaluateRaw_jsonOfAll nodeId input values depth frames h.2 hf
    constructor
    · rw [jsonOfAll, rawEvery, gateEvery, he, ih]
      cases gateValue input value with
      | error code => rfl
      | ok v =>
        rcases v with - | (- | (- | -) | - | - | - | -) <;> rfl
    · rw [jsonOfAll, rawSome, gateSome, hs, ih]
      cases gateValue input value with
      | error code => rfl
      | ok v =>
        rcases v with - | (- | (- | -) | - | - | - | -) <;> rfl

end

/-- The gate of a graph is evaluated as the value it comes as. -/
theorem evaluateRawGate_json {nodeId : String} {expression : WorkflowGateExpression} (input : Json)
    {frames : ℕ} (hf : 17 ≤ frames) (h : validateGateExpression nodeId expression 0 = []) :
    evaluateRawGate frames expression.json input = thrown (evaluateGate expression input) := by
  rw [evaluateRawGate, evaluateGate, thrown_bind,
    evaluateRaw_json nodeId input expression 0 frames h hf]
  congr 1
  funext v
  rcases v with - | (- | - | - | - | - | -) <;> rfl

end

/-! ### The mappings of a graph -/

/-- Every output that is there conforms to the schemas of the ports it is the output
of. -/
def OutputsConform [Host] (graph : WorkflowGraph) (outputs : MappingOutputs) : Prop :=
  ∀ (source : MappingSource) value,
    outputs (source.sourceNodeId ++ ":" ++ source.sourcePort) = some value →
      ∀ lookup ∈ sourcePortSchema graph source, ∀ schema ∈ lookup.record?, Conforms value schema

section

variable [Host]

/-- What a pointer selects conforms to the schema the check of the pointer ends at. -/
theorem conforms_of_follow (segments : List String) : ∀ {schema selected : JsonSchema}
    {value found : Json} {path : List Step}, followSource schema segments = some selected →
    Conforms value schema → Json.pathOf segments value = some path →
    Json.at? path value = some found → Conforms found selected := by
  induction segments with
  | nil =>
    intro schema selected value found path hfol hc hp hf
    rw [followSource, Option.some_inj] at hfol
    simp only [Json.pathOf, Option.some.injEq] at hp
    subst hfol hp
    simp only [Json.at?, Option.some.injEq] at hf
    rwa [← hf]
  | cons segment segments ih =>
    intro schema selected value found path hfol hc hp hf
    rw [followSource] at hfol
    split at hfol
    · cases hfol
    next hr =>
    simp only [Bool.or_eq_true, not_or, Bool.not_eq_true] at hr
    split at hfol
    · next child hchi =>
      simp only [Json.pathOf, Option.bind_eq_some_iff, Option.map_eq_some_iff] at hp
      obtain ⟨step, hs, inner, hi, rest, hrest, rfl⟩ := hp
      have hi' : Conforms inner child := (@pointerSchemaChild_covers _ schema child child
        value inner segment step hr.2 hc hchi hs hi).1
      rw [Json.at?, hi, Option.bind_some] at hf
      exact ih hfol hi' hrest hf
    · cases hfol

/-- **What a pointer to an object selects is an object.** -/
theorem isRecord_of_pointerIsObject {schema : JsonSchema} {value found : Json} {pointer : String}
    (ho : sourcePointerIsObject (some schema) pointer = true)
    (hc : Conforms value schema) (hr : readJsonPointer value pointer = some found) :
    found.isRecord = true := by
  obtain ⟨path, hp, hf⟩ := exists_path_of_read hr
  rw [sourcePointerIsObject, Bool.and_eq_true] at ho
  have ht := ho.2
  split at ht
  · next selected hfol =>
    have := conforms_of_follow _ hfol hc hp hf
    obtain ⟨fields, rfl⟩ := object_of_type (by simpa using ht) this.type
    rfl
  · cases ht

variable {graph : WorkflowGraph} {outputs : MappingOutputs}

omit [Host] in
/-- What a checked mapping leaves: a target that can be written and, at the root, a
literal object or a source whose schema is an object's. -/
theorem mappingIssues_eq_nil {node : WorkflowNode}
    {mapping : WorkflowTargetMapping} (h : mappingIssues graph node mapping = []) :
    writableTargetPointer mapping.targetPointer = true ∧ (mapping.targetPointer = "" →
        (∃ fields, mapping.binding = .literal (.obj fields)) ∨
          ∃ source lookup, mapping.binding = .path source ∧
            sourcePortSchema graph source = some lookup ∧
            sourcePointerIsObject lookup.record? source.pointer = true) := by
  simp only [mappingIssues, List.append_eq_nil_iff, issueIf_eq_nil, List.flatMap_eq_nil_iff,
    Bool.not_eq_false'] at h
  obtain ⟨⟨⟨hw, hr⟩, -⟩, hs⟩ := h
  refine ⟨hw, fun hroot => ?_⟩
  simp only [hroot, decide_true, Bool.true_and] at hr hs
  cases hb : mapping.binding with
  | literal value =>
    rw [hb] at hr
    cases value with
    | obj fields => exact .inl ⟨fields, rfl⟩
    | _ => simp [Json.isRecord] at hr
  | template template vars =>
    rw [hb] at hr
    cases hr
  | path source =>
    rw [hb] at hs
    have hi := hs source (List.mem_singleton_self _)
    simp only [sourceIssues, List.append_eq_nil_iff, issueIf_eq_nil, Bool.not_eq_false'] at hi
    obtain ⟨⟨hv, hu⟩, hsch⟩ := hi
    cases hl : sourcePortSchema graph source with
    | none =>
      -- an upstream source has a port
      simp only [sourceIsUpstream, Bool.and_eq_true] at hu
      obtain ⟨owner, ho, hp⟩ := (Option.any_eq_true _ _).1 hu.1.2
      obtain ⟨port, hm, hn⟩ := List.any_eq_true.1 hp
      have hf : (owner.outputPorts.find? (·.name = source.sourcePort)).isSome :=
        List.find?_isSome.2 ⟨port, hm, hn⟩
      simp only [sourcePortSchema, ho, Option.bind_some, Option.map_eq_none_iff] at hl
      rw [hl] at hf
      cases hf
    | some lookup =>
      simp only [hl, hv, Bool.not_true, Bool.false_eq_true, if_false,
        List.append_eq_nil_iff, issueIf_eq_nil, decide_true, Bool.true_and,
        Bool.not_eq_false'] at hsch
      exact .inr ⟨source, lookup, rfl, hl, hsch.2⟩

/-! What a binding fails with is never its target. -/

omit [Host] in
theorem variableText_fails {value : Option Json} {code : String}
    (h : variableText value = .error code) : code = "WORKFLOW_MAPPING_SOURCE_INVALID" := by
  unfold variableText at h
  split at h <;> cases h
  rfl

omit [Host] in
theorem readSource_fails {source : MappingSource} {code : String}
    (h : readSource outputs source = .error code) : code = "WORKFLOW_MAPPING_SOURCE_INVALID" := by
  unfold readSource at h
  split at h <;> cases h
  rfl

omit [Host] in
theorem readVariables_fails {outputs : MappingOutputs} {code : String} :
    ∀ {vars : List (String × MappingSource)}, readVariables outputs vars = .error code →
      code = "WORKFLOW_MAPPING_SOURCE_INVALID"
  | [], h => by cases h
  | (name, source) :: vars, h => by
    have ih := @readVariables_fails outputs code vars
    rw [readVariables] at h
    cases hs : readSource outputs source with
    | error failed =>
      rw [hs] at h
      cases h
      exact readSource_fails hs
    | ok value =>
      rw [hs] at h
      change (variableText value >>= fun text => _) = _ at h
      cases ht : variableText value with
      | error failed =>
        rw [ht] at h
        cases h
        exact variableText_fails ht
      | ok text =>
        rw [ht] at h
        change (readVariables outputs vars >>= fun rest => _) = _ at h
        cases hr : readVariables outputs vars with
        | error failed =>
          rw [hr] at h
          cases h
          exact ih hr
        | ok rest =>
          rw [hr] at h
          cases h

omit [Host] in
theorem replaceTokens_fails {vars : List (String × String)} {code : String} :
    ∀ {fuel : ℕ} {cs : List Char}, replaceTokens vars fuel cs = .error code →
      code = "WORKFLOW_TEMPLATE_VARIABLE_MISSING"
  | 0, _, h => by cases h
  | _ + 1, [], h => by cases h
  | fuel + 1, c :: cs, h => by
    have ih := @replaceTokens_fails vars code fuel
    rw [replaceTokens] at h
    split at h
    · next name rest _ =>
      split at h
      · cases h
        rfl
      · next text _ =>
        cases hr : replaceTokens vars fuel rest with
        | error failed =>
          rw [hr] at h
          cases h
          exact ih hr
        | ok out =>
          rw [hr] at h
          cases h
    · cases hr : replaceTokens vars fuel cs with
      | error failed =>
        rw [hr] at h
        cases h
        exact ih hr
      | ok out =>
        rw [hr] at h
        cases h

omit [Host] in
theorem bindingValue_ne_target (outputs : MappingOutputs) (binding : WorkflowBinding) :
    bindingValue outputs binding ≠ .error "WORKFLOW_MAPPING_TARGET_INVALID" := by
  have hs : "WORKFLOW_MAPPING_TARGET_INVALID" ≠ "WORKFLOW_MAPPING_SOURCE_INVALID" := by decide
  have htem : "WORKFLOW_MAPPING_TARGET_INVALID" ≠ "WORKFLOW_TEMPLATE_VARIABLE_MISSING" := by
    decide
  intro h
  cases binding with
  | literal value => cases h
  | path source =>
    rw [bindingValue] at h
    cases hr : readSource outputs source with
    | error failed =>
      rw [hr] at h
      cases h
      exact hs (readSource_fails hr)
    | ok value =>
      rw [hr] at h
      cases value with
      | none => exact hs (Except.error.inj h).symm
      | some value => cases h
  | template template vars =>
    rw [bindingValue] at h
    cases htex : readVariables outputs vars with
    | error failed =>
      rw [htex] at h
      cases h
      exact hs (readVariables_fails htex)
    | ok texts =>
      rw [htex] at h
      change (replaceTokens texts _ _ >>= fun cs => _) = _ at h
      cases ht : replaceTokens texts (template.length + 1) template.toList with
      | error failed =>
        rw [ht] at h
        cases h
        exact htem (replaceTokens_fails ht)
      | ok cs =>
        rw [ht] at h
        cases h

/-- **The value of a checked root mapping is an object.** -/
theorem isRecord_of_root {node : WorkflowNode} {mapping : WorkflowTargetMapping} {value : Json}
    (hi : mappingIssues graph node mapping = []) (hr : mapping.targetPointer = "")
    (hc : OutputsConform graph outputs)
    (hv : bindingValue outputs mapping.binding = .ok value) : value.isRecord = true := by
  rcases (mappingIssues_eq_nil hi).2 hr with
    ⟨fields, hb⟩ | ⟨source, lookup, hb, hl, ho⟩
  · rw [hb] at hv
    cases hv
    rfl
  · rw [hb, bindingValue, readSource] at hv
    cases hout : outputs (source.sourceNodeId ++ ":" ++ source.sourcePort) with
    | none =>
      rw [hout] at hv
      cases hv
    | some output =>
      rw [hout] at hv
      change (match readJsonPointer output source.pointer with
        | some value => Except.ok value
        | none => .error "WORKFLOW_MAPPING_SOURCE_INVALID") = .ok value at hv
      split at hv
      · next found hf =>
        cases hv
        cases hs : lookup.record? with
        | none =>
          rw [hs] at ho
          cases ho
        | some schema =>
          rw [hs] at ho
          exact isRecord_of_pointerIsObject ho (hc source output hout lookup hl schema hs) hf
      · cases hv

/-- The mappings of a node never fail on a target.  By induction on the mappings; each
write is made at a target that can be written. -/
theorem applyMappings_ne_target {node : WorkflowNode} (hc : OutputsConform graph outputs) :
    ∀ {mappings : List WorkflowTargetMapping} (target : List (String × Json)),
      (∀ mapping ∈ mappings, mappingIssues graph node mapping = []) →
        applyMappings outputs mappings target ≠ .error "WORKFLOW_MAPPING_TARGET_INVALID" := by
  intro mappings
  induction mappings with
  | nil => intro target _ h; cases h
  | cons mapping mappings ih =>
    intro target hiss h
    have hi := hiss mapping List.mem_cons_self
    rw [applyMappings] at h
    cases hv : bindingValue outputs mapping.binding with
    | error failed =>
      rw [hv] at h
      cases h
      exact bindingValue_ne_target outputs mapping.binding hv
    | ok value =>
      obtain ⟨written, hwri⟩ : ∃ written,
          writeJsonPointer target mapping.targetPointer value = .ok written := by
        have hw := (mappingIssues_eq_nil hi).1
        by_cases hr : mapping.targetPointer = ""
        · have hrec := isRecord_of_root hi hr hc hv
          cases value with
          | obj fields =>
            rw [hr] at hw
            exact ⟨fields, by simp [writeJsonPointer, hw, hr]⟩
          | _ => cases hrec
        · exact ⟨_, by simp [writeJsonPointer, hw, hr]; rfl⟩
      rw [hv] at h
      change (writeJsonPointer target mapping.targetPointer value >>=
        fun target => applyMappings outputs mappings target) = _ at h
      rw [hwri] at h
      exact ih written (fun m hm => hiss m (List.mem_cons_of_mem _ hm)) h

/-- What the compiler leaves of the mappings of a node. -/
theorem NoIssues.mapping (h : NoIssues graph) {node : WorkflowNode} (hn : node ∈ graph.nodes)
    {mapping : WorkflowTargetMapping} (hm : mapping ∈ node.mappings) :
    mappingIssues graph node mapping = [] := by
  have hf := h.flow node hn
  simp only [flowIssues, List.append_eq_nil_iff, List.flatMap_eq_nil_iff] at hf
  obtain ⟨i, hi, hg⟩ := List.mem_iff_getElem.1 hm
  have hiss := hf.2 (mapping, i) (List.mem_zipIdx_iff_getElem?.2 (by simp [hi, hg]))
  exact hiss.1.1

/-- And of a gate. -/
theorem NoIssues.gate (h : NoIssues graph) {node : WorkflowNode} (hn : node ∈ graph.nodes)
    {expression : WorkflowGateExpression} (hc : node.config = .gate expression) :
    validateGateExpression node.id expression 0 = [] := by
  have hf := h.flow node hn
  rw [flowIssues, hc, List.append_eq_nil_iff] at hf
  exact hf.1

end

/-- A gate on the input, whose branches hand the input on as a whole and write one
field of it. -/
def gateGraph : WorkflowGraph where
  nodes :=
    [{ id := "gate.in", label := "In", config := .input, inputPorts := []
       outputPorts := [⟨"data", "order.v1"⟩] },
      { id := "gate.check", label := "Check"
        config := .gate (.order .gt (.path "/total") (.literal (.num 10)))
        inputPorts := [⟨"input", "order.v1"⟩]
        outputPorts := [⟨"pass", "order.v1"⟩, ⟨"fail", "order.v1"⟩] },
      { id := "gate.pass", label := "Pass", config := .output
        inputPorts := [⟨"input", "order.v1"⟩], outputPorts := []
        mappings := [⟨"", .path ⟨"gate.in", "data", ""⟩⟩] },
      { id := "gate.fail", label := "Fail", config := .output
        inputPorts := [⟨"input", "order.v1"⟩], outputPorts := []
        mappings := [⟨"/total", .path ⟨"gate.in", "data", "/total"⟩⟩] }]
  edges :=
    [{ id := "gate.edge1", source := ⟨"gate.in", "data"⟩, target := ⟨"gate.check", "input"⟩ },
      { id := "gate.edge2", source := ⟨"gate.check", "pass"⟩, target := ⟨"gate.pass", "input"⟩ },
      { id := "gate.edge3", source := ⟨"gate.check", "fail"⟩, target := ⟨"gate.fail", "input"⟩ }]
  schemas :=
    [("order.v1", [("type", .str "object"), ("additionalProperties", .bool false),
      ("properties", .obj [("total", .obj [("type", .str "number")])])])]

end Flowdular.Workflows
