/-
# The data of a workflow

`src/modules/workflows/src/domain/types.ts`: the limits (lines 11-30), the graph
a definition publishes (lines 58-249), the statuses of runs, nodes and attempts
(lines 369-409) and the evidence kept of a payload (lines 458-475).

A definition reaches the code as JSON that only its outermost fields were
checked of (`parseWorkflowGraph`), so where the code lets a missing field
through, the field is optional here.  The retry bounds are what a numeric
comparison sees of them: `none` is `NaN`, which an absent field and every value
that is no number convert to.  A node and the graph keep the JSON they were read from
(`raw`) for the checks that walk all of it.
-/

import Flowdular.Workflows.Json

namespace Flowdular.Workflows

/-- `WORKFLOW_LIMITS`, lines 11-30. -/
structure Limits where
  maxNodes : ℕ := 100
  maxEdges : ℕ := 200
  maxSchemas : ℕ := 32
  maxGraphBytes : ℕ := 64 * 1024
  maxInputBytes : ℕ := 64 * 1024
  maxEnvelopeBytes : ℕ := 64 * 1024
  maxSafePayloadBytes : ℕ := 1024 * 1024
  maxAttemptsPerNode : ℕ := 5
  maxChildObservationMs : ℕ := 60 * 60 * 1000
  maxLiveDurationMs : ℕ := 24 * 60 * 60 * 1000
  maxRunEvents : ℕ := 10000
  maxInteractivePage : ℕ := 100
  maxReplayEvents : ℕ := 100
  maxApprovalDecisions : ℕ := 16
  maxApprovalExpiryDays : ℕ := 90
deriving DecidableEq

/-- The one value of `Limits` the code uses. -/
def workflowLimits : Limits := {}

/-! ### Nodes -/

/-- `WorkflowPortV1`. -/
structure WorkflowPort where
  name : String
  schemaId : String
deriving DecidableEq

/-- The `backoff` of a failure policy. -/
inductive BackoffKind where
  | fixed
  | exponential
deriving DecidableEq

/-- What a node does with a failure no retry is left for. -/
inductive OnExhausted where
  | emitFailure
  | failRun
deriving DecidableEq

/-- `WorkflowNodeFailurePolicyV1`.  A numeric field is `none` where a comparison
with it converts to `NaN`. -/
structure WorkflowNodeFailurePolicy where
  maxAttempts : Option ℚ
  retryOn : List String
  kind : BackoffKind
  initialMs : Option ℚ
  maximumMs : Option ℚ
  onExhausted : OnExhausted
deriving DecidableEq

/-- One place an earlier node's output is read from: a path binding, or one
variable of a template. -/
structure MappingSource where
  sourceNodeId : String
  sourcePort : String
  pointer : String
deriving DecidableEq

/-- `WorkflowBindingV1`.  The variables of a template carry their names. -/
inductive WorkflowBinding where
  | literal (value : Json)
  | path (source : MappingSource)
  | template (template : String) (vars : List (String × MappingSource))
deriving DecidableEq

/-- `WorkflowTargetMappingV1`. -/
structure WorkflowTargetMapping where
  targetPointer : String
  binding : WorkflowBinding
deriving DecidableEq

/-- The order comparisons a gate may make. -/
inductive OrderOp where
  | gt
  | gte
  | lt
  | lte
deriving DecidableEq

/-- `WorkflowGateExpressionV1`; `unsupported` is an expression whose `op` is none
of the known ones. -/
inductive WorkflowGateExpression where
  | literal (value : Json)
  | path (pointer : String)
  | exists (value : WorkflowGateExpression)
  | not (value : WorkflowGateExpression)
  | and (values : List WorkflowGateExpression)
  | or (values : List WorkflowGateExpression)
  | eq (left right : WorkflowGateExpression)
  | order (op : OrderOp) (left right : WorkflowGateExpression)
  | in (left right : WorkflowGateExpression)
  | unsupported

/-- The kinds of question a typed decision asks. -/
inductive QuestionKind where
  | choice
  | noul
  | score
deriving DecidableEq

/-- `WorkflowTypedDecisionQuestionV1`; absent answers are the empty list. -/
structure WorkflowTypedDecisionQuestion where
  key : String
  kind : QuestionKind
  instruction : String
  answers : List String
deriving DecidableEq

/-- The pinned agent revision of an agent node. -/
structure AgentReference where
  agentId : String
  revision : ℕ
deriving DecidableEq

/-- The pinned action contract of an action node. -/
structure ActionReference where
  actionId : String
  contractVersion : ℕ
  descriptorDigest : Option String
deriving DecidableEq

/-- What the types of node carry besides their ports: one constructor for each
member of `WorkflowNodeV1`, and `other` for a `type` that is none of them. -/
inductive NodeConfig where
  | input
  | agent (agent : AgentReference) (toolGrants : List String) (outputSchemaId : String)
  | agentDecision (agent : AgentReference) (toolGrants : List String)
      (passSchemaId failSchemaId : String)
  | typedDecision (decidingQuestion : String) (questions : List WorkflowTypedDecisionQuestion)
      (passAnswer : String) (confidenceThreshold : Decimal) (statePaths : List String)
  | gate (expression : WorkflowGateExpression)
  | validator (schemaId : String)
  | action (action : ActionReference)
  | humanApproval (requirement : Json) (prompt : Option String)
  | merge
  | output
  | other (type : String)

def NodeConfig.type : NodeConfig → String
  | .input => "input"
  | .agent .. => "agent"
  | .agentDecision .. => "agent-decision"
  | .typedDecision .. => "typed-decision"
  | .gate .. => "gate"
  | .validator .. => "validator"
  | .action .. => "action"
  | .humanApproval .. => "human-approval"
  | .merge => "merge"
  | .output => "output"
  | .other type => type

/-- `WorkflowNodeV1`; absent mappings are the empty list. -/
structure WorkflowNode where
  id : String
  label : String
  config : NodeConfig
  inputPorts : List WorkflowPort
  outputPorts : List WorkflowPort
  mappings : List WorkflowTargetMapping := []
  failurePolicy : Option WorkflowNodeFailurePolicy := none
  raw : Json := .null

/-- `node.type === 'input'`. -/
def WorkflowNode.isInput (node : WorkflowNode) : Bool :=
  match node.config with
  | .input => true
  | _ => false

/-- `node.type === 'output'`. -/
def WorkflowNode.isOutput (node : WorkflowNode) : Bool :=
  match node.config with
  | .output => true
  | _ => false

/-- The pinned contract when `node.type === 'action'`. -/
def WorkflowNode.action? (node : WorkflowNode) : Option ActionReference :=
  match node.config with
  | .action action => some action
  | _ => none

/-- The places a binding reads: the one of a path, those of a template's
variables, none of a literal. -/
def WorkflowBinding.sources : WorkflowBinding → List MappingSource
  | .literal _ => []
  | .path source => [source]
  | .template _ vars => vars.map Prod.snd

/-! ### Graphs -/

/-- One end of an edge. -/
structure Endpoint where
  nodeId : String
  port : String
deriving DecidableEq

/-- `WorkflowEdgeV1`. -/
structure WorkflowEdge where
  id : String
  source : Endpoint
  target : Endpoint
deriving DecidableEq

/-- `WorkflowGraphV1`.  The schemas stand in the order `Object.entries` lists
them. -/
structure WorkflowGraph where
  schemaVersion : ℕ := 1
  nodes : List WorkflowNode
  edges : List WorkflowEdge
  schemas : List (String × JsonSchema)
  raw : Json := .null

/-! ### Statuses -/

inductive WorkflowRunStatus where
  | queued
  | running
  | waitingAgent
  | waitingApproval
  | waitingRetry
  | cancelRequested
  | succeeded
  | failed
  | refused
  | cancelled
deriving DecidableEq

inductive WorkflowNodeStatus where
  | pending
  | ready
  | running
  | waitingChild
  | waitingRetry
  | succeeded
  | failed
  | refused
  | skipped
  | cancelled
deriving DecidableEq

inductive WorkflowAttemptStatus where
  | running
  | waitingChild
  | succeeded
  | failed
  | refused
  | cancelled
deriving DecidableEq

/-! ### Evidence -/

/-- The `state` of payload evidence. -/
inductive EvidenceState where
  | available
  | redacted
  | truncated
  | expired
  | absent
deriving DecidableEq

/-- The `reason` of payload evidence. -/
inductive EvidenceReason where
  | secret
  | scopeDenied
  | sizeLimit
  | retention
  | notEmitted
deriving DecidableEq

/-- `WorkflowPayloadEvidenceV1`; `policyMarked` is `redactionPolicyVersion === 2`. -/
structure WorkflowPayloadEvidence where
  policyMarked : Bool := false
  state : EvidenceState
  schemaId : String
  hash : String
  originalByteSize : ℕ
  preview : Option Json := none
  reason : Option EvidenceReason := none
deriving DecidableEq

/-- Evidence with its digest and its size blanked. -/
def WorkflowPayloadEvidence.blankDigest (evidence : WorkflowPayloadEvidence) :
    WorkflowPayloadEvidence :=
  { evidence with hash := "", originalByteSize := 0 }

end Flowdular.Workflows
