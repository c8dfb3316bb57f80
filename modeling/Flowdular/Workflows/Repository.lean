/-
# The operations of the repository on one run

`src/modules/workflows/src/services/database-repository.ts`, lines 580-725 (the
statements) and 1692-2595 (the operations).

An operation is a transaction: it fails and leaves the rows, or it leaves new rows
and appends events.  Where a transaction reads a row, decides on it and updates
under a guard (`#claim`, `settleRun`, `requestCancellation`), others may commit in
between, so the update takes the row that was read.  `settleAttempt` checks the
attempt it read and updates without a guard, so it takes that attempt.  The audit
chain is left out.
-/

import Flowdular.Lib.Prog
import Flowdular.Workflows.Events

namespace Flowdular.Workflows

open Json (jsonByteSize)
open Lib

/-- What a transaction that commits returns and leaves. -/
structure Written (α : Type) where
  result : α
  rows : StoredRun
  events : List WorkflowRunEvent := []

/-- A transaction on the rows of a run. -/
abbrev Transaction (α : Type) := StoredRun → Except String (Written α)

/-! ### Claims and leases -/

/-- `lease_expires_at IS NULL OR lease_expires_at <= now`. -/
def RunRow.leaseExpired (row : RunRow) (now : Time) : Bool :=
  row.leaseExpiresAt.all fun expiresAt => expiresAt ≤ now

/-- Whether `#claim` takes a row it has read. -/
def RunRow.claimable (row : RunRow) (now : Time) : Bool :=
  row.mode = .live &&
    (row.status = .queued ||
      row.status ∈ [.running, .waitingAgent, .cancelRequested, .waitingRetry, .waitingApproval] &&
        row.leaseExpired now)

/-- The events of a claim that succeeded. -/
def claimEvents (read : RunRow) (workerId : String) (leaseExpiresAt : Time) :
    List WorkflowRunEvent :=
  match read.leaseOwner with
  | some priorLease =>
    if read.status ≠ .queued then [.runRecovered priorLease workerId]
    else [.runClaimed workerId leaseExpiresAt]
  | none => if read.status = .queued then [.runClaimed workerId leaseExpiresAt] else []

/-- The columns `SQL.claimRun` sets. -/
def RunRow.claimed (run read : RunRow) (workerId : String) (now leaseExpiresAt : Time) : RunRow :=
  { run with
    status := if read.status = .queued then .running else read.status
    leaseOwner := some workerId
    leaseExpiresAt := some leaseExpiresAt
    startedAt := run.startedAt.or (some now) }

/-- The update of `#claim`, on a claimable row it has read: `SQL.claimRun` and the
events behind it. -/
def claimRun (read : RunRow) (workerId : String) (now leaseExpiresAt : Time) : Transaction Bool :=
  fun rows =>
    if (rows.run.leaseOwner.isNone || rows.run.leaseExpiresAt.any (· ≤ now) ||
          rows.run.leaseOwner = some workerId) && rows.run.status = read.status then
      .ok
        { result := true
          rows := rows.setRun fun run => run.claimed read workerId now leaseExpiresAt
          events := claimEvents read workerId leaseExpiresAt }
    else .ok { result := false, rows }

def renewLease (workerId : String) (leaseExpiresAt : Time) : Transaction Bool := fun rows =>
  if rows.run.leaseOwner = some workerId && !rows.run.status.isTerminal then
    .ok
      { result := true
        rows := rows.setRun fun run => { run with leaseExpiresAt := some leaseExpiresAt } }
  else .ok { result := false, rows }

def releaseLease (workerId : String) : Transaction Unit := fun rows =>
  if rows.run.leaseOwner = some workerId then
    .ok
      { result := ()
        rows := rows.setRun fun run => { run with leaseOwner := none, leaseExpiresAt := none } }
  else .ok { result := (), rows }

/-! ### Attempts -/

def appendRunEvent (event : WorkflowRunEvent) : Transaction Unit := fun rows =>
  .ok { result := (), rows, events := [event] }

variable [Host]

/-- `#storePayload`: `encrypt` refuses a value of more than 64 KB. -/
def storePayload (value : Json) : Except String Unit :=
  if workflowLimits.maxEnvelopeBytes < jsonByteSize value then .error "WORKFLOW_LIMIT_EXCEEDED"
  else .ok ()

/-- `#storePayload` where there may be no value. -/
def storeAny : Option Json → Except String Unit
  | some value => storePayload value
  | none => .ok ()

structure StartAttemptWrite where
  nodeId : String
  nodeType : String
  attempt : ℕ
  semanticGroup : String
  sideEffectIdempotencyKey : String
  input : Json
  inputEvidence : WorkflowPayloadEvidence
  schemaId : String
  recordedAt : Time

/-- The evidence of an output that is not there yet. -/
def absentEvidence (schemaId hash : String) : WorkflowPayloadEvidence :=
  { state := .absent, schemaId, hash, originalByteSize := 0, reason := some .notEmitted }

/-- The row `startAttempt` inserts. -/
def StartAttemptWrite.row (write : StartAttemptWrite) : AttemptRow where
  nodeId := write.nodeId
  attempt := write.attempt
  nodeType := write.nodeType
  semanticGroup := write.semanticGroup
  sideEffectIdempotencyKey := write.sideEffectIdempotencyKey
  input := some write.input
  inputEvidence := write.inputEvidence
  outputEvidence := absentEvidence write.schemaId write.inputEvidence.hash
  startedAt := write.recordedAt

/-- The events of `startAttempt`. -/
def StartAttemptWrite.events (write : StartAttemptWrite) : List WorkflowRunEvent :=
  [.nodeReady write.nodeId] ++
    (if 1 < write.attempt then [.nodeRetryStarted write.nodeId write.attempt write.semanticGroup]
      else []) ++
    [.nodeAttemptStarted write.nodeId write.attempt write.semanticGroup write.inputEvidence]

/-- `SQL.startNodeState`. -/
def StartAttemptWrite.startNode (write : StartAttemptWrite) (state : NodeStateRow) : NodeStateRow :=
  { state with
    status := .running
    latestAttempt := write.attempt
    nextAttemptAt := none
    readyAt := state.readyAt.or (some write.recordedAt)
    startedAt := state.startedAt.or (some write.recordedAt) }

/-- The rows `startAttempt` leaves. -/
def StartAttemptWrite.apply (write : StartAttemptWrite) (rows : StoredRun) : StoredRun :=
  let resumed := rows.setRun fun run =>
    if run.status = .waitingRetry then { run with status := .running } else run
  let inserted := { resumed with attempts := resumed.attempts ++ [write.row] }
  inserted.setNode write.nodeId (fun _ => true) write.startNode

/-- `startAttempt`.  The table refuses a second row of a key and numbers out of
the range of its column. -/
def startAttempt (write : StartAttemptWrite) : Transaction (Option AttemptRow) := fun rows =>
  if rows.run.status = .cancelRequested || rows.run.status.isTerminal then
    .ok { result := none, rows }
  else do
    storePayload write.input
    if write.attempt < 1 ∨ 2 ^ 31 ≤ write.attempt then .error "new row violates check constraint"
    else if (rows.attempt? write.nodeId write.attempt).isSome then
      .error "duplicate key value violates unique constraint"
    else return { result := some write.row, rows := write.apply rows, events := write.events }

/-- What `markChildWaiting` is told of the child. -/
structure ChildWrite where
  nodeId : String
  attempt : ℕ
  childKind : ChildKind
  childId : String
  observationDeadlineAt : Time
  recordedAt : Time
  recheckAt : Option Time := none

/-- `SQL.markAttemptWaitingChild`. -/
def ChildWrite.waitAttempt (write : ChildWrite) (row : AttemptRow) : AttemptRow :=
  { row with
    status := .waitingChild
    childKind := some write.childKind
    childId := some write.childId
    childObservationDeadlineAt := some write.observationDeadlineAt }

/-- `SQL.markNodeWaitingChild`, and `SQL.armNodeRecheck` for an approval. -/
def ChildWrite.waitNode (write : ChildWrite) (state : NodeStateRow) : NodeStateRow :=
  { state with
    status := .waitingChild
    nextAttemptAt :=
      if write.childKind = .approval then some (write.recheckAt.getD write.recordedAt) else none }

/-- `SQL.markRunWaitingAgent` or `SQL.markRunWaitingApproval`. -/
def waitRun (childKind : ChildKind) (run : RunRow) : RunRow :=
  match childKind with
  | .agent => if run.status = .running then { run with status := .waitingAgent } else run
  | .approval =>
    if run.status = .running || run.status = .waitingApproval then
      { run with status := .waitingApproval }
    else run
  | .action => run

/-- The rows `markChildWaiting` leaves. -/
def ChildWrite.apply (write : ChildWrite) (rows : StoredRun) : StoredRun :=
  let marked := rows.setAttempt write.nodeId write.attempt write.waitAttempt
  let waiting := marked.setNode write.nodeId (fun _ => true) write.waitNode
  waiting.setRun (waitRun write.childKind)

def markChildWaiting (write : ChildWrite) : Transaction Unit := fun rows =>
  if (rows.attempt? write.nodeId write.attempt).any (·.status = .running) then
    .ok
      { result := ()
        rows := write.apply rows
        events :=
          [.nodeChildWaiting write.nodeId write.attempt write.childKind write.childId
            write.observationDeadlineAt] }
  else .error "WORKFLOW_ATTEMPT_TERMINAL"

def suspendApproval (nodeId : String) (recheckAt : Time) : Transaction Unit := fun rows =>
  let armed := rows.setNode nodeId (·.status = .waitingChild) fun state =>
    { state with nextAttemptAt := some recheckAt }
  .ok { result := (), rows := armed.setRun (waitRun .approval) }

/-- Whether a node waits for an approval request in its latest attempt. -/
def StoredRun.awaits (rows : StoredRun) (requestId : String) (state : NodeStateRow) : Bool :=
  state.status = .waitingChild &&
    (rows.attempt? state.nodeId state.latestAttempt).any fun attempt =>
      attempt.childKind = some .approval && attempt.childId = some requestId

def wakeApproval (requestId : String) (now : Time) : Transaction Unit := fun rows =>
  .ok
    { result := ()
      rows :=
        { rows with
          nodes := Table.update (rows.awaits requestId)
            (fun state => { state with nextAttemptAt := some now }) rows.nodes } }

/-- `SettleAttemptWrite`.  A number of milliseconds is what the source computed,
`none` where that is `NaN`. -/
structure SettleAttemptWrite where
  nodeId : String
  attempt : ℕ
  status : {status : WorkflowAttemptStatus // status.isOpen = false}
  outcomePort : Option String
  output : Option Json := none
  outputEvidence : WorkflowPayloadEvidence
  failureCode : Option String := none
  retryClassification : Option RetryClassification := none
  selectedBackoffMs : Option (Option ℚ) := none
  nextAttemptAt : Option (Option ℚ) := none
  recordedAt : Time

/-- A value of a `BIGINT` column, which takes whole numbers only. -/
def bigint : Option (Option ℚ) → Except String (Option ℕ)
  | none => .ok none
  | some none => .error "invalid input syntax for type bigint"
  | some (some n) =>
    if n.den = 1 ∧ 0 ≤ n then .ok (some n.num.toNat)
    else .error "invalid input syntax for type bigint"

/-- The events of `settleAttempt`. -/
def SettleAttemptWrite.events (write : SettleAttemptWrite) (backoffMs nextAttemptAt : Option ℕ) :
    List WorkflowRunEvent :=
  .nodeAttemptSettled write.nodeId write.attempt write.status.1 write.outcomePort
      write.outputEvidence write.failureCode write.retryClassification ::
    match nextAttemptAt with
    | some at' =>
      [.nodeRetryScheduled write.nodeId write.attempt write.retryClassification backoffMs at']
    | none => []

/-- `SQL.settleAttempt`. -/
def SettleAttemptWrite.settle (write : SettleAttemptWrite) (prior : AttemptRow)
    (backoffMs nextAttemptAt : Option ℕ) (row : AttemptRow) : AttemptRow :=
  { row with
    status := write.status.1
    outcomePort := write.outcomePort
    output := write.output
    outputEvidence := write.outputEvidence
    failureCode := write.failureCode
    retryClassification := write.retryClassification
    selectedBackoffMs := backoffMs
    nextAttemptAt
    completedAt := some write.recordedAt
    durationMs := some (write.recordedAt - prior.startedAt) }

/-- `SQL.settleNodeState`. -/
def SettleAttemptWrite.settleNode (write : SettleAttemptWrite) (nextAttemptAt : Option ℕ)
    (state : NodeStateRow) : NodeStateRow :=
  { state with
    status := if nextAttemptAt.isSome then .waitingRetry else write.status.1.toNode
    selectedOutcomePort := write.outcomePort
    nextAttemptAt
    settledAt := if nextAttemptAt.isSome then none else some write.recordedAt }

def advanceRunProgress (retrying : Bool) (run : RunRow) : RunRow :=
  if run.status = .cancelRequested || run.status.isTerminal then run
  else
    { run with
      status := if retrying then .waitingRetry else .running
      completedNodes := run.completedNodes + if retrying then 0 else 1 }

/-- The roll-ups after an action invocation. -/
def countAction (run : RunRow) : RunRow :=
  { run with
    usage :=
      { run.usage with
        actionInvocations := run.usage.actionInvocations + 1
        unpricedActions := run.usage.unpricedActions + 1 }
    cost := { run.cost with unpricedActions := run.cost.unpricedActions + 1 } }

/-- The rows `settleAttempt` leaves. -/
def SettleAttemptWrite.apply (write : SettleAttemptWrite) (prior : AttemptRow)
    (backoffMs nextAttemptAt : Option ℕ) (rows : StoredRun) : StoredRun :=
  let settled := rows.setAttempt write.nodeId write.attempt
    (write.settle prior backoffMs nextAttemptAt)
  let counted := if prior.childKind = some .action then settled.setRun countAction else settled
  let node := counted.setNode write.nodeId (fun _ => true) (write.settleNode nextAttemptAt)
  node.setRun (advanceRunProgress nextAttemptAt.isSome)

/-- `settleAttempt`, with the attempt it has read. -/
def settleAttempt (prior : Option AttemptRow) (write : SettleAttemptWrite) : Transaction Unit :=
  fun rows =>
    match prior with
    | none => .error "WORKFLOW_ATTEMPT_TERMINAL"
    | some prior =>
      if !prior.status.isOpen then .error "WORKFLOW_ATTEMPT_TERMINAL"
      else do
        storeAny write.output
        let backoffMs ← bigint write.selectedBackoffMs
        let nextAttemptAt ← bigint write.nextAttemptAt
        return {
            result := ()
            rows := write.apply prior backoffMs nextAttemptAt rows
            events := write.events backoffMs nextAttemptAt }

/-- `settleEdge`.  The table refuses a second transfer of an edge. -/
def settleEdge (transfer : EdgeTransferRow) : Transaction Unit := fun rows => do
  storeAny transfer.payload
  if (rows.edge? transfer.edgeId).isSome then
    .error "duplicate key value violates unique constraint"
  else return {
      result := ()
      rows := { rows with edges := rows.edges ++ [transfer] }
      events :=
        [.edgeSettled transfer.edgeId transfer.state transfer.sourceAttempt transfer.targetNodeId
          transfer.evidence] }

/-- The states `SQL.skipNodeState` skips. -/
def skippable (state : NodeStateRow) : Bool :=
  state.status = .pending || state.status = .ready

/-- The rows `markNodeSkipped` leaves. -/
def StoredRun.skip (rows : StoredRun) (nodeId : String) (recordedAt : Time) : StoredRun :=
  let skipped := rows.setNode nodeId skippable fun state =>
    { state with status := .skipped, settledAt := some recordedAt }
  skipped.setRun fun run => { run with completedNodes := run.completedNodes + 1 }

def markNodeSkipped (nodeId reason : String) (recordedAt : Time) : Transaction Unit := fun rows =>
  if (rows.node? nodeId).any skippable then
    .ok
      { result := ()
        rows := rows.skip nodeId recordedAt
        events := [.nodeSkipped nodeId reason] }
  else .ok { result := (), rows }

/-! ### Runs -/

/-- The columns of a run that `SQL.settleRun` sets. -/
structure SettleRunWrite where
  status : SettledStatus
  failureCode : Option String
  output : WorkflowPayloadEvidence
  usage : WorkflowUsageRollup
  cost : WorkflowCostRollup
  recordedAt : Time

/-- `SQL.settleRun`. -/
def SettleRunWrite.settle (write : SettleRunWrite) (run : RunRow) : RunRow :=
  { run with
    status := write.status.1
    failureCode := write.failureCode
    output := some write.output
    usage := write.usage
    cost := write.cost
    completedAt := some write.recordedAt
    leaseOwner := none
    leaseExpiresAt := none }

/-- `settleRun`, with the row it has read. -/
def settleRun (before : RunRow) (write : SettleRunWrite) : Transaction RunRow := fun rows =>
  if before.status.isTerminal then .ok { result := before, rows }
  else if before.status = .cancelRequested && write.status.1 ≠ .cancelled then
    .ok { result := before, rows }
  else if rows.run.status ≠ before.status then .ok { result := rows.run, rows }
  else
    .ok
      { result := write.settle rows.run
        rows := rows.setRun write.settle
        events :=
          [.runSettled write.status write.failureCode write.output write.usage write.cost] }

/-- `requestCancellation`, with the row it has read; whether it was this call that
requested it. -/
def requestCancellation (read : RunRow) (recordedAt : Time) : Transaction Bool := fun rows =>
  if read.status.isTerminal || read.status = .cancelRequested then .ok { result := false, rows }
  else if rows.run.status.isTerminal || rows.run.status = .cancelRequested then
    .ok { result := false, rows }
  else
    .ok
      { result := true
        rows := rows.setRun fun run =>
          { run with status := .cancelRequested, cancellationRequestedAt := some recordedAt }
        events := [.runCancelRequested recordedAt] }

/-- The `usage` of an agent run. -/
structure AgentUsage where
  inputTokens : ℤ
  outputTokens : ℤ
  totalTokens : ℤ
deriving DecidableEq

def recordAgentUsage (childRunId : String) (usage : AgentUsage) : Transaction Unit := fun rows =>
  if childRunId ∈ rows.run.usage.includedChildRunIds then .ok { result := (), rows }
  else
    .ok
      { result := ()
        rows := rows.setRun fun run =>
          { run with
            usage :=
              { run.usage with
                inputTokens := run.usage.inputTokens + usage.inputTokens.toNat
                outputTokens := run.usage.outputTokens + usage.outputTokens.toNat
                totalTokens := run.usage.totalTokens + usage.totalTokens.toNat
                includedChildRunIds := run.usage.includedChildRunIds ++ [childRunId]
                unpricedChildRuns := run.usage.unpricedChildRuns + 1 }
            cost := { run.cost with unpricedChildRuns := run.cost.unpricedChildRuns + 1 } } }

/-! ### Retention -/

/-- The row a payload belongs to. -/
inductive PayloadSite where
  | runInput
  | attemptInput (nodeId : String) (attempt : ℕ)
  | attemptOutput (nodeId : String) (attempt : ℕ)
  | edge (edgeId : String)
deriving DecidableEq

/-- `expire(column)`. -/
def WorkflowPayloadEvidence.expire (evidence : WorkflowPayloadEvidence) : WorkflowPayloadEvidence :=
  { evidence with preview := none, state := .expired, reason := some .retention }

/-- The evidence updates and the deletion for one payload. -/
def StoredRun.expire (rows : StoredRun) : PayloadSite → StoredRun
  | .runInput =>
    rows.setRun fun run => { run with input := none, inputEvidence := run.inputEvidence.expire }
  | .attemptInput nodeId attempt =>
    rows.setAttempt nodeId attempt fun row =>
      { row with input := none, inputEvidence := row.inputEvidence.expire }
  | .attemptOutput nodeId attempt =>
    rows.setAttempt nodeId attempt fun row =>
      { row with output := none, outputEvidence := row.outputEvidence.expire }
  | .edge edgeId =>
    { rows with
      edges := Table.update (fun row => decide (row.edgeId = edgeId))
        (fun row => { row with payload := none, evidence := row.evidence.expire }) rows.edges }

/-- `countExecutionPayloads` is zero. -/
def StoredRun.payloadsGone (rows : StoredRun) : Bool :=
  rows.run.input.isNone &&
    (rows.attempts.all fun row => row.input.isNone && row.output.isNone) &&
    rows.edges.all (·.payload.isNone)

/-- The transaction of `applyPayloadRetention` for one payload of a settled run. -/
def applyPayloadRetention (site : PayloadSite) (hash : String) : Transaction Unit := fun rows =>
  let expired := rows.expire site
  .ok
    { result := ()
      rows :=
        if expired.payloadsGone then
          expired.setRun fun run => { run with output := run.output.map (·.expire) }
        else expired
      events := [.payloadRetentionApplied hash] }

/-! ### The operations of a pass -/

/-- The operations a pass over a run works with, claims, leases and the end of the run
apart. -/
inductive RunWork where
  | appendRunEvent (stage : CancelStage) (nodeId : String) (attempt : ℕ) (childKind : ChildKind)
      (childId : String)
  | ignoreLateResult (nodeId : String) (attempt : ℕ) (childKind : ChildKind) (childId : String)
      (terminalStatus outputHash : String) (evidenceState : EvidenceState)
  | startAttempt (write : StartAttemptWrite)
  | markChildWaiting (write : ChildWrite)
  | suspendApproval (nodeId : String) (recheckAt : Time)
  | settleAttempt (prior : Option AttemptRow) (write : SettleAttemptWrite)
  | settleEdge (transfer : EdgeTransferRow)
  | markNodeSkipped (nodeId reason : String) (recordedAt : Time)
  | recordAgentUsage (childRunId : String) (usage : AgentUsage)

/-- Forget the result of a transaction. -/
def Transaction.done {α : Type} (transaction : Transaction α) : Transaction Unit := fun rows =>
  (transaction rows).map fun written =>
    { result := (), rows := written.rows, events := written.events }

/-- The transaction of an operation. -/
def RunWork.transaction : RunWork → Transaction Unit
  | .appendRunEvent stage nodeId attempt childKind childId =>
    Workflows.appendRunEvent (.nodeCancel stage nodeId attempt childKind childId)
  | .ignoreLateResult nodeId attempt childKind childId terminalStatus outputHash evidenceState =>
    Workflows.appendRunEvent (.nodeResultLateIgnored nodeId attempt childKind childId terminalStatus outputHash
      evidenceState)
  | .startAttempt write => Transaction.done (Workflows.startAttempt write)
  | .markChildWaiting write => Workflows.markChildWaiting write
  | .suspendApproval nodeId recheckAt => Workflows.suspendApproval nodeId recheckAt
  | .settleAttempt prior write => Workflows.settleAttempt prior write
  | .settleEdge transfer => Workflows.settleEdge transfer
  | .markNodeSkipped nodeId reason recordedAt => Workflows.markNodeSkipped nodeId reason recordedAt
  | .recordAgentUsage childRunId usage => Workflows.recordAgentUsage childRunId usage

/-! ### What a transaction that commits did -/

section Cases

variable {rows : StoredRun}

omit [Host] in
theorem claimRun_cases {read : RunRow} {workerId : String} {now leaseExpiresAt : Time}
    {written : Written Bool} (h : claimRun read workerId now leaseExpiresAt rows = .ok written) :
    written = { result := false, rows } ∨
      (rows.run.leaseOwner = none ∨ (∃ expiresAt ≤ now, rows.run.leaseExpiresAt = some expiresAt) ∨
          rows.run.leaseOwner = some workerId) ∧
        rows.run.status = read.status ∧
        written =
          { result := true
            rows := rows.setRun fun run => run.claimed read workerId now leaseExpiresAt
            events := claimEvents read workerId leaseExpiresAt } := by
  unfold claimRun at h
  split at h
  · next hg =>
    rw [Bool.and_eq_true, Bool.or_eq_true, Bool.or_eq_true, Option.isNone_iff_eq_none,
      decide_eq_true_eq, decide_eq_true_eq, Option.any_eq_true] at hg
    refine .inr ⟨?_, hg.2, (Except.ok.inj h).symm⟩
    rcases hg.1 with (hn | ⟨expiresAt, hs, hle⟩) | ho
    · exact .inl hn
    · exact .inr (.inl ⟨expiresAt, by simpa using hle, hs⟩)
    · exact .inr (.inr ho)
  · exact .inl (Except.ok.inj h).symm

theorem startAttempt_cases {write : StartAttemptWrite} {written : Written (Option AttemptRow)}
    (h : startAttempt write rows = .ok written) :
    ((rows.run.status = .cancelRequested ∨ rows.run.status.isTerminal = true) ∧
        written = { result := none, rows }) ∨
      rows.run.status ≠ .cancelRequested ∧ rows.run.status.isTerminal = false ∧
        1 ≤ write.attempt ∧ write.attempt < 2 ^ 31 ∧
        rows.attempt? write.nodeId write.attempt = none ∧
        written = { result := some write.row, rows := write.apply rows, events := write.events } := by
  unfold startAttempt at h
  split at h
  · next hs => exact .inl ⟨by simpa using hs, (Except.ok.inj h).symm⟩
  · next hl =>
    obtain ⟨-, -, h⟩ := bind_eq_ok h
    split at h
    · cases h
    · next hr =>
      split at h
      · cases h
      · next hf =>
        rw [Bool.or_eq_true, decide_eq_true_eq, not_or, Bool.not_eq_true] at hl
        rw [not_or, not_lt, not_le] at hr
        exact .inr ⟨hl.1, hl.2, hr.1, hr.2, by simpa using hf, (Except.ok.inj h).symm⟩

omit [Host] in
theorem markChildWaiting_cases {write : ChildWrite} {written : Written Unit}
    (h : markChildWaiting write rows = .ok written) :
    (∃ row, rows.attempt? write.nodeId write.attempt = some row ∧ row.status = .running) ∧
      written =
        { result := ()
          rows := write.apply rows
          events :=
            [.nodeChildWaiting write.nodeId write.attempt write.childKind write.childId
              write.observationDeadlineAt] } := by
  unfold markChildWaiting at h
  split at h
  · next hr =>
    obtain ⟨row, hrow, hs⟩ := (Option.any_eq_true _ _).1 hr
    exact ⟨⟨row, hrow, by simpa using hs⟩, (Except.ok.inj h).symm⟩
  · cases h

theorem settleAttempt_cases {prior : Option AttemptRow} {write : SettleAttemptWrite}
    {written : Written Unit} (h : settleAttempt prior write rows = .ok written) :
    ∃ row backoffMs nextAttemptAt, prior = some row ∧ row.status.isOpen = true ∧
      bigint write.selectedBackoffMs = .ok backoffMs ∧
      bigint write.nextAttemptAt = .ok nextAttemptAt ∧
      written =
        { result := ()
          rows := write.apply row backoffMs nextAttemptAt rows
          events := write.events backoffMs nextAttemptAt } := by
  unfold settleAttempt at h
  split at h
  · cases h
  · next row =>
    split at h
    · cases h
    · next ho =>
      obtain ⟨-, -, h⟩ := bind_eq_ok h
      obtain ⟨backoffMs, hb, h⟩ := bind_eq_ok h
      obtain ⟨nextAttemptAt, hn, h⟩ := bind_eq_ok h
      exact ⟨row, backoffMs, nextAttemptAt, rfl, by simpa using ho, hb, hn, (Except.ok.inj h).symm⟩

theorem settleEdge_cases {transfer : EdgeTransferRow} {written : Written Unit}
    (h : settleEdge transfer rows = .ok written) :
    rows.edge? transfer.edgeId = none ∧
      written =
        { result := ()
          rows := { rows with edges := rows.edges ++ [transfer] }
          events :=
            [.edgeSettled transfer.edgeId transfer.state transfer.sourceAttempt transfer.targetNodeId
              transfer.evidence] } := by
  unfold settleEdge at h
  obtain ⟨-, -, h⟩ := bind_eq_ok h
  split at h
  · cases h
  · next hf => exact ⟨by simpa using hf, (Except.ok.inj h).symm⟩

omit [Host] in
theorem markNodeSkipped_cases {nodeId reason : String} {recordedAt : Time} {written : Written Unit}
    (h : markNodeSkipped nodeId reason recordedAt rows = .ok written) :
    written = { result := (), rows } ∨
      (∃ state, rows.node? nodeId = some state ∧ skippable state = true) ∧
        written =
          { result := ()
            rows := rows.skip nodeId recordedAt
            events := [.nodeSkipped nodeId reason] } := by
  unfold markNodeSkipped at h
  split at h
  · next hs => exact .inr ⟨(Option.any_eq_true _ _).1 hs, (Except.ok.inj h).symm⟩
  · exact .inl (Except.ok.inj h).symm

omit [Host] in
theorem settleRun_cases {before : RunRow} {write : SettleRunWrite} {written : Written RunRow}
    (h : settleRun before write rows = .ok written) :
    (written.rows = rows ∧ written.events = []) ∨
      before.status.isTerminal = false ∧
        (before.status = .cancelRequested → write.status.1 = .cancelled) ∧
        rows.run.status = before.status ∧
        written =
          { result := write.settle rows.run
            rows := rows.setRun write.settle
            events :=
              [.runSettled write.status write.failureCode write.output write.usage write.cost] } := by
  unfold settleRun at h
  split at h
  · rw [← Except.ok.inj h]
    exact .inl ⟨rfl, rfl⟩
  · next ht =>
    split at h
    · rw [← Except.ok.inj h]
      exact .inl ⟨rfl, rfl⟩
    · next hc =>
      split at h
      · rw [← Except.ok.inj h]
        exact .inl ⟨rfl, rfl⟩
      · next hs =>
        refine .inr ⟨by simpa using ht, fun hr => ?_, by simpa using hs, (Except.ok.inj h).symm⟩
        simpa [hr] using hc

omit [Host] in
theorem requestCancellation_cases {read : RunRow} {recordedAt : Time} {written : Written Bool}
    (h : requestCancellation read recordedAt rows = .ok written) :
    (written.rows = rows ∧ written.events = []) ∨
      rows.run.status.isTerminal = false ∧ rows.run.status ≠ .cancelRequested ∧
        written =
          { result := true
            rows := rows.setRun fun run =>
              { run with status := .cancelRequested, cancellationRequestedAt := some recordedAt }
            events := [.runCancelRequested recordedAt] } := by
  unfold requestCancellation at h
  split at h
  · rw [← Except.ok.inj h]
    exact .inl ⟨rfl, rfl⟩
  · split at h
    · rw [← Except.ok.inj h]
      exact .inl ⟨rfl, rfl⟩
    · next hl =>
      rw [Bool.or_eq_true, decide_eq_true_eq, not_or, Bool.not_eq_true] at hl
      exact .inr ⟨hl.1, hl.2, (Except.ok.inj h).symm⟩

omit [Host] in
theorem done_cases {α : Type} {transaction : Transaction α} {written : Written Unit}
    (h : transaction.done rows = .ok written) :
    ∃ inner, transaction rows = .ok inner ∧
      written = { result := (), rows := inner.rows, events := inner.events } := by
  unfold Transaction.done at h
  cases hi : transaction rows with
  | error e => rw [hi] at h; cases h
  | ok inner =>
    rw [hi] at h
    exact ⟨inner, rfl, (Except.ok.inj h).symm⟩

omit [Host] in
theorem recordAgentUsage_cases {childRunId : String} {usage : AgentUsage} {written : Written Unit}
    (h : recordAgentUsage childRunId usage rows = .ok written) :
    written.events = [] ∧ ∃ usage cost,
      written.rows = rows.setRun fun run => { run with usage, cost } := by
  unfold recordAgentUsage at h
  split at h
  · rw [← Except.ok.inj h]
    exact ⟨rfl, rows.run.usage, rows.run.cost, rfl⟩
  · rw [← Except.ok.inj h]
    exact ⟨rfl, _, _, rfl⟩

end Cases

/-! ### New runs -/

/-- The rows `createRun` inserts for a run: the node states of its graph. -/
def createRun (run : RunRow) : Written Unit where
  result := ()
  rows := { run, nodes := run.graph.nodes.map fun node => { nodeId := node.id } }
  events := [.runQueued run.mode]

/-- A run of an empty graph. -/
def bareRun : RunRow where
  key := ⟨"tenant", "run"⟩
  graph := { nodes := [], edges := [], schemas := [] }
  compiledOrder := []
  input := none
  inputEvidence := absentEvidence "workflow.input" ""
  queuedAt := 0

end Flowdular.Workflows
