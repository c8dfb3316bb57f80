/-
# The rows of a run

`src/modules/workflows/src/services/migration.ts`, lines 50-186, and
`services/database-repository.ts`: the row of a run, its node states, its attempts
and its edge transfers.

Payloads have random ids and are read back through the row that names them, so a
row holds its payload itself, and no payload once retention deleted it.  The
columns of the audit log, of the catalog of workflows and of notifications are not
here.  A time is a number of milliseconds.
-/

import Flowdular.Lib.Table
import Flowdular.Workflows.Types

namespace Flowdular.Workflows

open Lib

/-- A moment, in milliseconds. -/
abbrev Time := ℕ

inductive WorkflowRunMode where
  | live
  | simulate
deriving DecidableEq

/-- The statuses no run leaves (`TERMINAL_RUNS`). -/
def WorkflowRunStatus.isTerminal : WorkflowRunStatus → Bool
  | .succeeded | .failed | .refused | .cancelled => true
  | _ => false

/-- The status a run is settled with. -/
abbrev SettledStatus := {status : WorkflowRunStatus // status.isTerminal = true}

/-- The statuses a node is done in (`worker.ts`, line 715). -/
def WorkflowNodeStatus.isTerminal : WorkflowNodeStatus → Bool
  | .succeeded | .failed | .refused | .skipped | .cancelled => true
  | _ => false

/-- Whether an attempt is still open: `running` or `waiting-child`. -/
def WorkflowAttemptStatus.isOpen : WorkflowAttemptStatus → Bool
  | .running | .waitingChild => true
  | _ => false

/-- The status a settled attempt leaves its node in. -/
def WorkflowAttemptStatus.toNode : WorkflowAttemptStatus → WorkflowNodeStatus
  | .running => .running
  | .waitingChild => .waitingChild
  | .succeeded => .succeeded
  | .failed => .failed
  | .refused => .refused
  | .cancelled => .cancelled

/-- The `child_kind` of an attempt. -/
inductive ChildKind where
  | agent
  | action
  | approval
deriving DecidableEq

/-- The `retry_classification` of an attempt. -/
inductive RetryClassification where
  | retryable
  | permanent
deriving DecidableEq

/-- The `state` of an edge transfer. -/
inductive EdgeState where
  | emitted
  | closed
  | skipped
deriving DecidableEq

/-- The `state` of a roll-up. -/
inductive RollupState where
  | notApplicable
  | provisional
  | final
deriving DecidableEq

/-- `WorkflowUsageRollupV1`. -/
structure WorkflowUsageRollup where
  state : RollupState := .provisional
  inputTokens : ℕ := 0
  outputTokens : ℕ := 0
  totalTokens : ℕ := 0
  includedChildRunIds : List String := []
  unpricedChildRuns : ℕ := 0
  actionInvocations : ℕ := 0
  unpricedActions : ℕ := 0
deriving DecidableEq

/-- `WorkflowCostRollupV1`. -/
structure WorkflowCostRollup where
  state : RollupState := .provisional
  unpricedChildRuns : ℕ := 0
  unpricedActions : ℕ := 0
deriving DecidableEq

/-- The key of a run. -/
structure RunKey where
  tenantId : String
  id : String
deriving DecidableEq

/-- A row of `workflow_runs`. -/
structure RunRow where
  key : RunKey
  mode : WorkflowRunMode := .live
  graph : WorkflowGraph
  compiledOrder : List String
  authorizationSubject : Option String := none
  permissionSnapshot : List String := []
  input : Option Json
  inputEvidence : WorkflowPayloadEvidence
  queuedAt : Time
  status : WorkflowRunStatus := .queued
  leaseOwner : Option String := none
  leaseExpiresAt : Option Time := none
  startedAt : Option Time := none
  cancellationRequestedAt : Option Time := none
  completedAt : Option Time := none
  completedNodes : ℕ := 0
  failureCode : Option String := none
  output : Option WorkflowPayloadEvidence := none
  usage : WorkflowUsageRollup := {}
  cost : WorkflowCostRollup := {}

/-- A row of `workflow_node_states`. -/
structure NodeStateRow where
  nodeId : String
  status : WorkflowNodeStatus := .pending
  latestAttempt : ℕ := 0
  selectedOutcomePort : Option String := none
  nextAttemptAt : Option Time := none
  readyAt : Option Time := none
  startedAt : Option Time := none
  settledAt : Option Time := none
deriving DecidableEq

/-- A row of `workflow_node_attempts`. -/
structure AttemptRow where
  nodeId : String
  attempt : ℕ
  nodeType : String
  status : WorkflowAttemptStatus := .running
  outcomePort : Option String := none
  semanticGroup : String
  sideEffectIdempotencyKey : String
  input : Option Json
  inputEvidence : WorkflowPayloadEvidence
  output : Option Json := none
  outputEvidence : WorkflowPayloadEvidence
  childKind : Option ChildKind := none
  childId : Option String := none
  childObservationDeadlineAt : Option Time := none
  failureCode : Option String := none
  retryClassification : Option RetryClassification := none
  selectedBackoffMs : Option ℕ := none
  nextAttemptAt : Option Time := none
  startedAt : Time
  completedAt : Option Time := none
  durationMs : Option ℕ := none
deriving DecidableEq

/-- The primary key of an attempt within its run. -/
def AttemptRow.key (row : AttemptRow) : String × ℕ :=
  (row.nodeId, row.attempt)

/-- A row of `workflow_edge_transfers`. -/
structure EdgeTransferRow where
  edgeId : String
  sourceNodeId : String
  sourcePort : String
  sourceAttempt : Option ℕ
  targetNodeId : String
  targetPort : String
  state : EdgeState
  reason : Option String
  schemaId : String
  payload : Option Json
  evidence : WorkflowPayloadEvidence
  settledAt : Time
deriving DecidableEq

/-- The rows of one run. -/
structure StoredRun where
  run : RunRow
  nodes : List NodeStateRow := []
  attempts : List AttemptRow := []
  edges : List EdgeTransferRow := []

namespace StoredRun

/-! ### Lookups -/

/-- The state of a node. -/
def node? (rows : StoredRun) (nodeId : String) : Option NodeStateRow :=
  rows.nodes.find? fun row => decide (row.nodeId = nodeId)

/-- `getAttempt`. -/
def attempt? (rows : StoredRun) (nodeId : String) (attempt : ℕ) : Option AttemptRow :=
  rows.attempts.find? fun row => decide (row.key = (nodeId, attempt))

/-- The transfer of an edge. -/
def edge? (rows : StoredRun) (edgeId : String) : Option EdgeTransferRow :=
  rows.edges.find? fun row => decide (row.edgeId = edgeId)

/-! ### Updates by key -/

/-- `UPDATE workflow_runs`. -/
def setRun (rows : StoredRun) (change : RunRow → RunRow) : StoredRun :=
  { rows with run := change rows.run }

/-- `UPDATE workflow_node_states … WHERE node_id = …`, for the states a further
condition selects. -/
def setNode (rows : StoredRun) (nodeId : String) (selects : NodeStateRow → Bool)
    (change : NodeStateRow → NodeStateRow) : StoredRun :=
  { rows with
    nodes := Table.update (fun row => decide (row.nodeId = nodeId) && selects row) change rows.nodes }

/-- `UPDATE workflow_node_attempts … WHERE node_id = … AND attempt = …`. -/
def setAttempt (rows : StoredRun) (nodeId : String) (attempt : ℕ)
    (change : AttemptRow → AttemptRow) : StoredRun :=
  { rows with
    attempts := Table.update (fun row => decide (row.key = (nodeId, attempt))) change rows.attempts }

/-! ### What lookups find -/

variable {rows : StoredRun}

variable {nodeId : String}

theorem nodeId_of_node? {state : NodeStateRow} (h : rows.node? nodeId = some state) :
    state ∈ rows.nodes ∧ state.nodeId = nodeId :=
  ⟨List.mem_of_find?_eq_some h, by simpa using List.find?_some h⟩

theorem key_of_attempt? {attempt : ℕ} {row : AttemptRow}
    (h : rows.attempt? nodeId attempt = some row) : row ∈ rows.attempts ∧ row.key = (nodeId, attempt) :=
  ⟨List.mem_of_find?_eq_some h, by simpa using List.find?_some h⟩

theorem any_node?
    (hn : nodeId ∈ rows.nodes.map (·.nodeId)) : (rows.node? nodeId).any (fun _ => true) = true := by
  obtain ⟨state, hs, hid⟩ := List.mem_map.1 hn
  cases hf : rows.node? nodeId with
  | none => exact absurd (by simpa using hid) (List.find?_eq_none.1 hf state hs)
  | some _ => rfl

theorem node?_setNode {selects : NodeStateRow → Bool}
    {change : NodeStateRow → NodeStateRow} (hk : ∀ state, (change state).nodeId = state.nodeId)
    (other : String) : (rows.setNode nodeId selects change).node? other =
      (rows.node? other).map fun state =>
        if decide (state.nodeId = nodeId) && selects state then change state else state :=
  Table.find?_update NodeStateRow.nodeId hk other

end StoredRun

end Flowdular.Workflows
