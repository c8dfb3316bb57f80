/-
# The events of a run and their projection

`src/modules/workflows/src/domain/events.ts`: `projectWorkflowRunEvents` rebuilds
the status of a run, of its nodes, its attempts and its edges from the stored
stream.

An event carries the payload the operations of the repository write for its type,
so the fields `EVENT_REQUIREMENTS` lists are there; what the projector checks
beyond that stays: the envelope, names that must not be empty, attempts that must
be positive, and the transitions.  A `Map` is a function to optional values.
-/

import Flowdular.Workflows.Rows
import Flowdular.Workflows.Text

namespace Flowdular.Workflows

/-! ### Events -/

/-- The stage of a cancellation a `node.cancel.…` event records. -/
inductive CancelStage where
  | requested
  | acknowledged
  | notAcknowledged (reason : String)
deriving DecidableEq

/-- `WorkflowRunEventTypeV1` with the payload of each type. -/
inductive WorkflowRunEvent where
  | runQueued (mode : WorkflowRunMode)
  | runClaimed (workerId : String) (leaseExpiresAt : Time)
  | runRecovered (priorLease workerId : String)
  | nodeReady (nodeId : String)
  | nodeAttemptStarted (nodeId : String) (attempt : ℕ) (semanticGroup : String)
      (input : WorkflowPayloadEvidence)
  | nodeChildWaiting (nodeId : String) (attempt : ℕ) (childKind : ChildKind) (childId : String)
      (observationDeadlineAt : Time)
  | nodeAttemptSettled (nodeId : String) (attempt : ℕ) (status : WorkflowAttemptStatus)
      (outcomePort : Option String) (output : WorkflowPayloadEvidence) (failureCode : Option String)
      (retryClassification : Option RetryClassification)
  | nodeRetryScheduled (nodeId : String) (attempt : ℕ)
      (classification : Option RetryClassification) (backoffMs : Option ℕ) (nextAttemptAt : Time)
  | nodeRetryStarted (nodeId : String) (attempt : ℕ) (semanticGroup : String)
  | nodeSkipped (nodeId reason : String)
  | edgeSettled (edgeId : String) (state : EdgeState) (sourceAttempt : Option ℕ)
      (targetNodeId : String) (evidence : WorkflowPayloadEvidence)
  | runCancelRequested (requestedAt : Time)
  | nodeCancel (stage : CancelStage) (nodeId : String) (attempt : ℕ) (childKind : ChildKind)
      (childId : String)
  | nodeResultLateIgnored (nodeId : String) (attempt : ℕ) (childKind : ChildKind) (childId : String)
      (terminalStatus outputHash : String) (evidenceState : EvidenceState)
  | payloadRetentionApplied (hash : String)
  | runSettled (status : SettledStatus) (failureCode : Option String)
      (output : WorkflowPayloadEvidence) (usage : WorkflowUsageRollup) (cost : WorkflowCostRollup)
deriving DecidableEq

/-- The text of a status. -/
def WorkflowRunStatus.name : WorkflowRunStatus → String
  | .queued => "queued"
  | .running => "running"
  | .waitingAgent => "waiting-agent"
  | .waitingApproval => "waiting-approval"
  | .waitingRetry => "waiting-retry"
  | .cancelRequested => "cancel-requested"
  | .succeeded => "succeeded"
  | .failed => "failed"
  | .refused => "refused"
  | .cancelled => "cancelled"

def WorkflowRunEvent.type : WorkflowRunEvent → String
  | .runQueued _ => "run.queued"
  | .runClaimed .. => "run.claimed"
  | .runRecovered .. => "run.recovered"
  | .nodeReady _ => "node.ready"
  | .nodeAttemptStarted .. => "node.attempt.started"
  | .nodeChildWaiting .. => "node.child.waiting"
  | .nodeAttemptSettled .. => "node.attempt.settled"
  | .nodeRetryScheduled .. => "node.retry.scheduled"
  | .nodeRetryStarted .. => "node.retry.started"
  | .nodeSkipped .. => "node.skipped"
  | .edgeSettled .. => "edge.settled"
  | .runCancelRequested _ => "run.cancel.requested"
  | .nodeCancel .requested .. => "node.cancel.requested"
  | .nodeCancel .acknowledged .. => "node.cancel.acknowledged"
  | .nodeCancel (.notAcknowledged _) .. => "node.cancel.not-acknowledged"
  | .nodeResultLateIgnored .. => "node.result.late-ignored"
  | .payloadRetentionApplied _ => "payload.retention.applied"
  | .runSettled status .. => "run." ++ status.1.name

/-- Whether an event is a `payload.retention.applied`. -/
def WorkflowRunEvent.isRetention : WorkflowRunEvent → Bool
  | .payloadRetentionApplied _ => true
  | _ => false

/-- Whether an event is the end of its run: `run.succeeded`, `run.failed`, `run.refused` or
`run.cancelled`. -/
def WorkflowRunEvent.isSettled : WorkflowRunEvent → Bool
  | .runSettled .. => true
  | _ => false

/-- `WorkflowRunEventV1`: an event in the stream of its run. -/
structure StoredEvent where
  key : RunKey
  sequence : ℕ
  event : WorkflowRunEvent
deriving DecidableEq

/-! ### The projection -/

/-- `WorkflowEventProjectionError`. -/
inductive ProjectionError where
  | schemaUnsupported (message : String)
  | transitionInvalid (message : String)
deriving DecidableEq

def transitionError (event : WorkflowRunEvent) (status : WorkflowRunStatus) : ProjectionError :=
  .transitionInvalid
    ("Workflow event " ++ event.type ++ " is illegal while the run is " ++ status.name ++ ".")

/-- `WorkflowEventProjectionV1` without its envelope. -/
structure EventProjection where
  status : WorkflowRunStatus := .queued
  nodeStatuses : String → Option WorkflowNodeStatus := fun _ => none
  edgeStates : String → Option EdgeState := fun _ => none
  attempts : String → Option (WorkflowAttemptStatus × Option String) := fun _ => none

def attemptKey (nodeId : String) (attempt : ℕ) : String :=
  nodeId ++ ":" ++ toString attempt

def requiredString (value key : String) : Except ProjectionError Unit :=
  if value = "" then
    .error (.schemaUnsupported ("Workflow event payload is missing string field " ++ quoted key ++ "."))
  else .ok ()

def requiredInteger (value : ℕ) (key : String) : Except ProjectionError Unit :=
  if value < 1 ∨ 2 ^ 53 ≤ value then
    .error (.schemaUnsupported
      ("Workflow event payload is missing positive integer field " ++ quoted key ++ "."))
  else .ok ()

/-- `SETTLEABLE`. -/
def settleableStatuses : List WorkflowRunStatus :=
  [.running, .waitingAgent, .waitingApproval, .waitingRetry]

namespace EventProjection

/-- `nodeStatuses.set`. -/
def setNode (p : EventProjection) (nodeId : String) (status : WorkflowNodeStatus) :
    EventProjection :=
  { p with nodeStatuses := Function.update p.nodeStatuses nodeId (some status) }

/-- `attempts.set`. -/
def setAttempt (p : EventProjection) (nodeId : String) (attempt : ℕ)
    (status : WorkflowAttemptStatus) (outcomePort : Option String) : EventProjection :=
  { p with
    attempts := Function.update p.attempts (attemptKey nodeId attempt) (some (status, outcomePort)) }

/-- `status = …`. -/
def setStatus (p : EventProjection) (status : WorkflowRunStatus) : EventProjection :=
  { p with status }

/-- `if (status !== 'cancel-requested') status = …`. -/
def moveStatus (p : EventProjection) (status : WorkflowRunStatus) : EventProjection :=
  if p.status = .cancelRequested then p else p.setStatus status

/-- The status a run has while it waits for a child. -/
def waitingStatus : ChildKind → WorkflowRunStatus
  | .agent => .waitingAgent
  | .approval => .waitingApproval
  | .action => .running

/-- An event the projection refuses under a condition. -/
def refuseIf (p : EventProjection) (condition : Bool) (event : WorkflowRunEvent) :
    Except ProjectionError Unit :=
  if condition then .error (transitionError event p.status) else .ok ()

/-- One case of the `switch`, for an event that is not the first. -/
def apply (p : EventProjection) (event : WorkflowRunEvent) : Except ProjectionError EventProjection :=
  match event with
  | .runQueued _ => .error (transitionError event p.status)
  | .runClaimed .. => do
    p.refuseIf
      (p.status ∉ [.queued, .running, .waitingAgent, .waitingApproval, .waitingRetry]) event
    return p.setStatus .running
  | .runRecovered .. => do
    p.refuseIf (p.status = .queued || p.status.isTerminal) event
    return p
  | .nodeReady nodeId => do
    p.refuseIf (p.status = .cancelRequested) event
    requiredString nodeId "nodeId"
    return (p.setNode nodeId .ready).setStatus .running
  | .nodeAttemptStarted nodeId attempt .. => do
    p.refuseIf (p.status = .cancelRequested) event
    requiredString nodeId "nodeId"
    requiredInteger attempt "attempt"
    p.refuseIf (p.attempts (attemptKey nodeId attempt)).isSome event
    return ((p.setAttempt nodeId attempt .running none).setNode nodeId .running).setStatus .running
  | .nodeChildWaiting nodeId attempt childKind .. => do
    requiredString nodeId "nodeId"
    requiredInteger attempt "attempt"
    p.refuseIf (!(p.attempts (attemptKey nodeId attempt)).any (·.1 = .running)) event
    return ((p.setAttempt nodeId attempt .waitingChild none).setNode nodeId .waitingChild).moveStatus
      (waitingStatus childKind)
  | .nodeAttemptSettled nodeId attempt status outcomePort .. => do
    requiredString nodeId "nodeId"
    requiredInteger attempt "attempt"
    p.refuseIf (!(p.attempts (attemptKey nodeId attempt)).any (·.1.isOpen)) event
    if status.isOpen then .error (.schemaUnsupported "Workflow attempt status is unsupported.")
    else
      return ((p.setAttempt nodeId attempt status outcomePort).setNode nodeId
        status.toNode).moveStatus .running
  | .nodeRetryScheduled nodeId .. => do
    requiredString nodeId "nodeId"
    return (p.setNode nodeId .waitingRetry).moveStatus .waitingRetry
  | .nodeRetryStarted nodeId .. => do
    requiredString nodeId "nodeId"
    return (p.setNode nodeId .running).setStatus .running
  | .nodeSkipped nodeId _ => do
    requiredString nodeId "nodeId"
    return p.setNode nodeId .skipped
  | .runCancelRequested _ => do
    p.refuseIf p.status.isTerminal event
    return p.setStatus .cancelRequested
  | .runSettled status .. => do
    p.refuseIf (match status.1 with
        | .cancelled => p.status ≠ .cancelRequested
        | .refused => p.status = .cancelRequested || p.status.isTerminal
        | _ => p.status ∉ settleableStatuses)
      event
    return p.setStatus status
  | .edgeSettled edgeId state .. => do
    requiredString edgeId "edgeId"
    return { p with edgeStates := Function.update p.edgeStates edgeId (some state) }
  | .nodeCancel .. | .nodeResultLateIgnored .. | .payloadRetentionApplied _ => .ok p

example {p : EventProjection} {mode : WorkflowRunMode} :
    p.apply (.runQueued mode) = .error (transitionError (.runQueued mode) p.status) := by
  rw [apply]

/-- An event that is not the first: the end of the run and the case of the event. -/
def advance (p : EventProjection) (event : WorkflowRunEvent) :
    Except ProjectionError EventProjection := do
  p.refuseIf (p.status.isTerminal && !event.isRetention) event
  p.apply event

/-- One turn of the loop, for the event at an index from 1 on, with its envelope. -/
def next (key : RunKey) (p : EventProjection) (stored : StoredEvent) (index : ℕ) :
    Except ProjectionError EventProjection :=
  if stored.sequence ≠ index + 1 ∨ stored.key ≠ key then
    .error (.schemaUnsupported
      ("Workflow event " ++ toString (index + 1) ++ " has an unsupported envelope."))
  else p.advance stored.event

/-- The loop from an index on. -/
def replay (key : RunKey) : ℕ → EventProjection → List StoredEvent →
    Except ProjectionError EventProjection
  | _, p, [] => .ok p
  | index, p, stored :: events => do
    let p ← p.next key stored index
    replay key (index + 1) p events

end EventProjection

def projectWorkflowRunEvents : List StoredEvent → Except ProjectionError EventProjection
  | { key, sequence := 1, event := .runQueued _ } :: events => EventProjection.replay key 1 {} events
  | _ => .error (.transitionInvalid
      "Workflow event projection must begin with run.queued at sequence 1.")

end Flowdular.Workflows
