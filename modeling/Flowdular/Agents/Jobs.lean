/-
# Agent runs and action invocations

`src/modules/agents/src/services/database-repository.ts`, lines 1128-1222 (the statements),
2637-2702 (`claimRun`, `renewLease`), 2768-2885 (`completeRun`, `failRun`, `cancelRun`) and
2978-3134 (`claimAction` … `cancelAction`); the callers, with the audit events they pass, in
`worker.ts`, lines 289-310, 340-355, 456-535, `server/action-execution.ts`, lines 971-1130,
1175-1300, and `agent-service.ts`, lines 2074-2090.

A transaction whose statements follow an `UPDATE` of its row holds that row until it commits,
so all of them are one step; a transaction that reads the row before it updates it reads what
is committed, and is two.  The lease columns are written together and are one column here.
The result of a run and its structured output are one column, and the rows are those of every
workspace.
-/

import Flowdular.Lib.Record
import Flowdular.Lib.Table
import Flowdular.Workflows.Audit

namespace Flowdular.Agents

open Lib Workflows

/-! ### Rows -/

/-- The status of a run, and of an invocation. -/
inductive Status
  | queued
  | running
  | succeeded
  | failed
  | cancelled
deriving DecidableEq

/-- `TERMINAL_STATUSES`. -/
def Status.terminal : Status → Bool
  | .queued => false
  | .running => false
  | _ => true

/-- The text of a status. -/
def Status.text : Status → String
  | .queued => "queued"
  | .running => "running"
  | .succeeded => "succeeded"
  | .failed => "failed"
  | .cancelled => "cancelled"

/-- `lease_owner` and `lease_expires_at`. -/
structure Lease where
  owner : String
  expiresAt : ℤ
deriving DecidableEq

/-- A row of `agent_runs` or `agent_action_invocations`; a running one is leased. -/
structure JobRow (about output : Type) where
  id : String
  tenantId : String
  about : about
  status : Status := .queued
  output : Option output := none
  failureCode : Option String := none
  failureMessage : Option String := none
  attempt : ℕ := 0
  startedAt : Option ℤ := none
  completedAt : Option ℤ := none
  lease : Option Lease := none
  leased : status = .running ↔ lease.isSome = true := by decide

structure AgentUsage where
  inputTokens : ℤ
  outputTokens : ℤ
  totalTokens : ℤ

structure AgentExecutionResult where
  output : String
  structuredOutput : Option Json := none
  usage : AgentUsage
  startedAt : ℤ
  completedAt : ℤ

/-- The agent of a run. -/
structure RunAgent where
  agentId : String
  agentName : String
  model : String

/-- A row of `agent_runs`. -/
abbrev RunRow := JobRow RunAgent AgentExecutionResult

/-- A row of `agent_action_invocations`. -/
abbrev ActionRow := JobRow Unit Json

/-- A row of `agent_run_costs`. -/
structure RunCost where
  runId : String
  tenantId : String
  agentId : String
  agentName : String
  model : String
  day : String
  inputTokens : ℤ
  outputTokens : ℤ
  costMicroUsd : Option ℤ
  completedAt : ℤ

/-- `PendingAgentAuditEvent`. -/
structure AuditEvent where
  tenantId : String
  actorId : String
  action : String
  subjectType : String
  subjectId : String
  metadata : List (String × Json)
  occurredAt : ℤ

/-- `usageDay`, and `usageCostMicros` of the price list. -/
class Metering where
  usageDay : ℤ → String
  usageCostMicros : String → AgentUsage → Option ℤ

/-- The tables, and the clock. -/
structure AgentTables where
  runs : List RunRow
  actions : List ActionRow
  costs : List RunCost := []
  audit : List AuditEvent := []
  clock : ℤ := 0
  /-- The primary keys. -/
  runIds : (runs.map (·.id)).Nodup
  actionIds : (actions.map (·.id)).Nodup

/-! ### What a statement does to a row -/

namespace JobRow

variable {β α : Type} (row : JobRow β α)

/-- `tenant_id = $1 AND id = $2`. -/
def is (tenantId id : String) : Bool :=
  row.tenantId = tenantId && row.id = id

/-- `status = 'queued' OR (status = 'running' AND lease_expires_at < $6)`. -/
def claimable (now : ℤ) : Bool :=
  row.status = .queued || (row.status = .running && row.lease.any fun l => l.expiresAt < now)

/-- `status = 'running' AND lease_owner = $4`. -/
def heldBy (workerId : String) : Bool :=
  row.status = .running && row.lease.any fun l => l.owner = workerId

/-- `status IN ('queued', 'running')`. -/
def unsettled : Bool :=
  row.status = .queued || row.status = .running

/-- The row behind a claim. -/
def claimed (workerId : String) (now leaseExpiresAt : ℤ) : JobRow β α :=
  { row with
    status := .running
    lease := some ⟨workerId, leaseExpiresAt⟩
    startedAt := some (row.startedAt.getD now)
    attempt := row.attempt + 1
    leased := by simp }

/-- The row behind a renewal. -/
def renewed (leaseExpiresAt : ℤ) : JobRow β α :=
  { row with
    lease := row.lease.map fun l => { l with expiresAt := leaseExpiresAt }
    leased := by rw [Option.isSome_map]; exact row.leased }

/-- The row behind a release. -/
def released : JobRow β α :=
  { row with status := .queued, lease := none, leased := by simp }

/-- The row behind a completion. -/
def succeeded (output : α) (completedAt : ℤ) : JobRow β α :=
  { row with
    status := .succeeded, output := some output, completedAt := some completedAt
    lease := none, leased := by simp }

/-- The row behind a failure; an invocation keeps no message. -/
def failed (code : String) (message : Option String) (completedAt : ℤ) : JobRow β α :=
  { row with
    status := .failed, failureCode := some code, failureMessage := message
    completedAt := some completedAt, lease := none, leased := by simp }

/-- The row behind a cancellation. -/
def cancelled (code : String) (message : Option String) (completedAt : ℤ) : JobRow β α :=
  { row with
    status := .cancelled, failureCode := some code, failureMessage := message
    completedAt := some completedAt, lease := none, leased := by simp }

end JobRow

/-- `INSERT INTO agent_run_costs … ON CONFLICT(run_id) DO UPDATE`. -/
def insertCost (cost : RunCost) (costs : List RunCost) : List RunCost :=
  if costs.any fun c => c.runId = cost.runId then
    Table.update (fun c => c.runId = cost.runId) (fun c => { c with
        inputTokens := cost.inputTokens, outputTokens := cost.outputTokens
        costMicroUsd := cost.costMicroUsd, day := cost.day, completedAt := cost.completedAt }) costs
  else costs ++ [cost]

/-! ### Transactions -/

namespace AgentTables

variable (s : AgentTables)

/-- Change runs, but not their ids. -/
def updateRuns (selects : RunRow → Bool) (change : RunRow → RunRow) (hid : ∀ row, (change row).id = row.id) :
    AgentTables :=
  { s with
    runs := Table.update selects change s.runs
    runIds := by rw [Table.map_update _ hid]; exact s.runIds }

/-- Change invocations, but not their ids. -/
def updateActions (selects : ActionRow → Bool) (change : ActionRow → ActionRow)
    (hid : ∀ row, (change row).id = row.id) : AgentTables :=
  { s with
    actions := Table.update selects change s.actions
    actionIds := by rw [Table.map_update _ hid]; exact s.actionIds }

def appendAuditEvent (event : AuditEvent) : AgentTables :=
  { s with audit := s.audit ++ [event] }

/-- An event with one more entry in its metadata. -/
def withMetadata (event : AuditEvent) (key : String) (value : Json) : AuditEvent :=
  { event with metadata := event.metadata ++ [(key, value)] }

def claimRun (tenantId runId workerId : String) (now leaseExpiresAt : ℤ) (audit : AuditEvent) :
    Option RunRow × AgentTables :=
  let selects := fun row : RunRow => row.is tenantId runId && row.claimable now
  let s' := s.updateRuns selects (fun row => row.claimed workerId now leaseExpiresAt) fun _ => rfl
  if s.runs.countP selects ≠ 1 then (none, s')
  else
    match s'.runs.find? fun row => row.is tenantId runId with
    | none => (none, s')
    | some row => (some row, s'.appendAuditEvent (withMetadata audit "attempt" (.num (.ofNat row.attempt))))

def renewLease (tenantId runId workerId : String) (leaseExpiresAt : ℤ) : Bool × AgentTables :=
  let selects := fun row : RunRow => row.is tenantId runId && row.heldBy workerId
  (s.runs.countP selects = 1, s.updateRuns selects (fun row => row.renewed leaseExpiresAt) fun _ => rfl)

/-- The row a completion inserts. -/
def costOf [Metering] (tenantId runId : String) (agent : RunAgent) (result : AgentExecutionResult) : RunCost where
  runId := runId
  tenantId := tenantId
  agentId := agent.agentId
  agentName := agent.agentName
  model := agent.model
  day := Metering.usageDay result.completedAt
  inputTokens := max 0 result.usage.inputTokens
  outputTokens := max 0 result.usage.outputTokens
  costMicroUsd := Metering.usageCostMicros agent.model result.usage
  completedAt := result.completedAt

theorem costOf_runId [Metering] {tenantId runId : String} {agent : RunAgent} {result : AgentExecutionResult} :
    (costOf tenantId runId agent result).runId = runId :=
  rfl

/-- The refusal of a worker that has lost the run. -/
def leaseLost : String :=
  "Error: Agent run lease was lost."

def completeRun [Metering] (tenantId runId workerId : String) (result : AgentExecutionResult)
    (audit : AuditEvent) : Except String AgentTables :=
  let selects := fun row : RunRow => row.is tenantId runId && row.heldBy workerId
  if s.runs.countP selects ≠ 1 then .error leaseLost
  else
    let s := s.updateRuns selects (fun row => row.succeeded result result.completedAt) fun _ => rfl
    match s.runs.find? fun row => row.is tenantId runId with
    | none => .error "TypeError: Cannot read properties of undefined"
    | some row =>
      let s := { s with costs := insertCost (costOf tenantId runId row.about result) s.costs }
      .ok (s.appendAuditEvent audit)

def failRun (tenantId runId workerId code message : String) (completedAt : ℤ) (audit : AuditEvent) :
    Except String AgentTables :=
  let selects := fun row : RunRow => row.is tenantId runId && row.heldBy workerId
  if s.runs.countP selects ≠ 1 then .error leaseLost
  else
    .ok ((s.updateRuns selects (fun row => row.failed code (some message) completedAt) fun _ => rfl).appendAuditEvent
      audit)

/-- `cancelRun2`, and the event that follows it. -/
def cancelRun2 (tenantId runId message : String) (completedAt : ℤ) (audit : AuditEvent) : AgentTables :=
  (s.updateRuns (fun row => row.is tenantId runId)
    (fun row => row.cancelled "RUN_CANCELLED" (some message) completedAt) fun _ => rfl).appendAuditEvent audit

def claimAction (tenantId invocationId workerId : String) (now leaseExpiresAt : ℤ) (audit : AuditEvent) :
    Option ActionRow × AgentTables :=
  let selects := fun row : ActionRow => row.is tenantId invocationId && row.claimable now
  let s' := s.updateActions selects (fun row => row.claimed workerId now leaseExpiresAt) fun _ => rfl
  if s.actions.countP selects ≠ 1 then (none, s')
  else
    match s'.actions.find? fun row => row.is tenantId invocationId with
    | none => (none, s')
    | some row => (some row, s'.appendAuditEvent (withMetadata audit "attempt" (.num (.ofNat row.attempt))))

def renewActionLease (tenantId invocationId workerId : String) (leaseExpiresAt : ℤ) : Bool × AgentTables :=
  let selects := fun row : ActionRow => row.is tenantId invocationId && row.heldBy workerId
  (s.actions.countP selects = 1,
    s.updateActions selects (fun row => row.renewed leaseExpiresAt) fun _ => rfl)

def releaseAction (tenantId invocationId workerId : String) : Bool × AgentTables :=
  let selects := fun row : ActionRow => row.is tenantId invocationId && row.heldBy workerId
  (s.actions.countP selects = 1, s.updateActions selects (fun row => row.released) fun _ => rfl)

/-- An invocation is settled, and told where a row was changed. -/
def settleAction (selects : ActionRow → Bool) (change : ActionRow → ActionRow)
    (hid : ∀ row, (change row).id = row.id) (audit : AuditEvent) : Bool × AgentTables :=
  let s' := s.updateActions selects change hid
  if s.actions.countP selects = 1 then (true, s'.appendAuditEvent audit) else (false, s')

def completeAction (tenantId invocationId workerId : String) (output : Json) (completedAt : ℤ)
    (audit : AuditEvent) : Bool × AgentTables :=
  s.settleAction (fun row => row.is tenantId invocationId && row.heldBy workerId)
    (fun row => row.succeeded output completedAt) (fun _ => rfl) audit

def failAction (tenantId invocationId workerId code : String) (completedAt : ℤ) (audit : AuditEvent) :
    Bool × AgentTables :=
  s.settleAction (fun row => row.is tenantId invocationId && row.heldBy workerId)
    (fun row => row.failed code none completedAt) (fun _ => rfl) audit

/-- `cancelAction`, the statement and the event that follows it. -/
def cancelAction2 (tenantId invocationId : String) (completedAt : ℤ) (audit : AuditEvent) :
    Bool × AgentTables :=
  s.settleAction (fun row => row.is tenantId invocationId && row.unsettled)
    (fun row => row.cancelled "ACTION_CANCELLED" none completedAt) (fun _ => rfl) audit

end AgentTables

/-! ### Calls -/

/-- A transaction, or a read of the clock. -/
inductive AgentCall
  | readClock
  | claimRun (tenantId runId workerId : String) (now leaseExpiresAt : ℤ) (audit : AuditEvent)
  | renewLease (tenantId runId workerId : String) (leaseExpiresAt : ℤ)
  | completeRun (tenantId runId workerId : String) (result : AgentExecutionResult) (audit : AuditEvent)
  | failRun (tenantId runId workerId code message : String) (completedAt : ℤ) (audit : AuditEvent)
  | cancelRun1 (tenantId runId : String)
  | cancelRun2 (tenantId runId message : String) (completedAt : ℤ) (audit : AuditEvent)
  | claimAction (tenantId invocationId workerId : String) (now leaseExpiresAt : ℤ) (audit : AuditEvent)
  | renewActionLease (tenantId invocationId workerId : String) (leaseExpiresAt : ℤ)
  | releaseAction (tenantId invocationId workerId : String)
  | completeAction (tenantId invocationId workerId : String) (output : Json) (completedAt : ℤ)
      (audit : AuditEvent)
  | failAction (tenantId invocationId workerId code : String) (completedAt : ℤ) (audit : AuditEvent)
  | getAction (tenantId invocationId : String)
  | cancelAction2 (tenantId invocationId : String) (completedAt : ℤ) (audit : AuditEvent)

/-- What a call answers. -/
@[reducible] def AgentCall.Answer : AgentCall → Type
  | .readClock => ℤ
  | .claimRun .. => Option RunRow
  | .renewLease .. => Bool
  | .cancelRun1 .. => Option Status
  | .claimAction .. => Option ActionRow
  | .renewActionLease .. => Bool
  | .releaseAction .. => Bool
  | .completeAction .. => Bool
  | .failAction .. => Bool
  | .getAction .. => Option ActionRow
  | .cancelAction2 .. => Bool
  | _ => Unit

/-- How a call ends: it fails, before or after it was committed, or it is answered; and the
time that passes before it takes effect. -/
structure AgentChoice where
  fails : Option (Bool × String) := none
  elapsed : ℕ := 0

/-- What a transaction leaves, with no answer of its own. -/
def AgentTables.committed (s : AgentTables) : Except String AgentTables → Except String Unit × AgentTables
  | .ok s' => (.ok (), s')
  | .error e => (.error e, s)

/-- What a call does where it does not fail. -/
def AgentCall.perform [Metering] (c : AgentCall) (s : AgentTables) : Except String c.Answer × AgentTables :=
  match c with
  | .readClock => (.ok s.clock, s)
  | .claimRun tenantId runId workerId now leaseExpiresAt audit =>
    (.ok (s.claimRun tenantId runId workerId now leaseExpiresAt audit).1,
      (s.claimRun tenantId runId workerId now leaseExpiresAt audit).2)
  | .renewLease tenantId runId workerId leaseExpiresAt =>
    (.ok (s.renewLease tenantId runId workerId leaseExpiresAt).1,
      (s.renewLease tenantId runId workerId leaseExpiresAt).2)
  | .completeRun tenantId runId workerId result audit =>
    s.committed (s.completeRun tenantId runId workerId result audit)
  | .failRun tenantId runId workerId code message completedAt audit =>
    s.committed (s.failRun tenantId runId workerId code message completedAt audit)
  | .cancelRun1 tenantId runId =>
    (.ok ((s.runs.find? fun row => row.is tenantId runId).map (·.status)), s)
  | .cancelRun2 tenantId runId message completedAt audit =>
    (.ok (), s.cancelRun2 tenantId runId message completedAt audit)
  | .claimAction tenantId invocationId workerId now leaseExpiresAt audit =>
    (.ok (s.claimAction tenantId invocationId workerId now leaseExpiresAt audit).1,
      (s.claimAction tenantId invocationId workerId now leaseExpiresAt audit).2)
  | .renewActionLease tenantId invocationId workerId leaseExpiresAt =>
    (.ok (s.renewActionLease tenantId invocationId workerId leaseExpiresAt).1,
      (s.renewActionLease tenantId invocationId workerId leaseExpiresAt).2)
  | .releaseAction tenantId invocationId workerId =>
    (.ok (s.releaseAction tenantId invocationId workerId).1,
      (s.releaseAction tenantId invocationId workerId).2)
  | .completeAction tenantId invocationId workerId output completedAt audit =>
    (.ok (s.completeAction tenantId invocationId workerId output completedAt audit).1,
      (s.completeAction tenantId invocationId workerId output completedAt audit).2)
  | .failAction tenantId invocationId workerId code completedAt audit =>
    (.ok (s.failAction tenantId invocationId workerId code completedAt audit).1,
      (s.failAction tenantId invocationId workerId code completedAt audit).2)
  | .getAction tenantId invocationId =>
    (.ok (s.actions.find? fun row => row.is tenantId invocationId), s)
  | .cancelAction2 tenantId invocationId completedAt audit =>
    (.ok (s.cancelAction2 tenantId invocationId completedAt audit).1,
      (s.cancelAction2 tenantId invocationId completedAt audit).2)

/-- The tables later. -/
def AgentTables.later (s : AgentTables) (elapsed : ℕ) : AgentTables :=
  { s with clock := s.clock + elapsed }

/-- A call, answered. -/
def AgentCall.serve [Metering] (c : AgentCall) (s : AgentTables) (choice : AgentChoice) :
    Prog.Reply AgentCall.Answer c × AgentTables :=
  match choice.fails with
  | none => c.perform (s.later choice.elapsed)
  | some (kept, error) =>
    (.error error, if kept then (c.perform (s.later choice.elapsed)).2 else s.later choice.elapsed)

/-- A call with its reply. -/
abbrev AgentEntry :=
  Σ c, Prog.Reply AgentCall.Answer c

/-- A program of calls. -/
abbrev AgentService (α : Type) :=
  Prog AgentCall (Prog.Reply AgentCall.Answer) α

/-- A call of a program. -/
def agentCall (c : AgentCall) : AgentService c.Answer :=
  Prog.need c

/-! ### Operations -/

/-- The events of a run. -/
def runEvent (tenantId actorId action runId : String) (metadata : List (String × Json)) (occurredAt : ℤ) :
    AuditEvent :=
  ⟨tenantId, actorId, action, "agent-run", runId, metadata, occurredAt⟩

/-- The events of an invocation. -/
def actionEvent (tenantId actorId action invocationId : String) (metadata : List (String × Json))
    (occurredAt : ℤ) : AuditEvent :=
  ⟨tenantId, actorId, action, "agent-action", invocationId, metadata, occurredAt⟩

/-- `cancelRun` of the repository. -/
def cancelRun (tenantId runId message : String) (completedAt : ℤ) (audit : AuditEvent) :
    AgentService (Option Status) := do
  let current ← agentCall (.cancelRun1 tenantId runId)
  match current with
  | none => .pure none
  | some status =>
    if status ≠ .queued ∧ status ≠ .running then .pure none
    else do
      let _ ← agentCall (.cancelRun2 tenantId runId message completedAt
        (AgentTables.withMetadata audit "previousStatus" (.str status.text)))
      return some status

/-- `cancelAction` of the repository. -/
def cancelAction (tenantId invocationId : String) (completedAt : ℤ) (audit : AuditEvent) :
    AgentService (Option Status) := do
  let current ← agentCall (.getAction tenantId invocationId)
  match current with
  | none => .pure none
  | some row =>
    if row.status ≠ .queued ∧ row.status ≠ .running then .pure none
    else do
      let changed ← agentCall (.cancelAction2 tenantId invocationId completedAt
        (AgentTables.withMetadata audit "previousStatus" (.str row.status.text)))
      return if changed then some row.status else none

/-- An operation on a run or an invocation, as its caller makes it. -/
inductive JobRequest
  | claimRun (tenantId runId workerId : String) (leaseMs : ℤ)
  | renewLease (tenantId runId workerId : String) (leaseMs : ℤ)
  | completeRun (tenantId runId workerId : String) (result : AgentExecutionResult)
  | failRun (tenantId runId workerId code message : String)
  | cancelRun (tenantId actorId runId : String)
  | claimAction (tenantId invocationId workerId : String) (leaseMs : ℤ)
  | renewActionLease (tenantId invocationId workerId : String) (leaseMs : ℤ)
  | releaseAction (tenantId invocationId workerId : String)
  | completeAction (tenantId invocationId workerId actorId : String) (output : Json)
      (metadata : List (String × Json))
  | failAction (tenantId invocationId workerId actorId code : String) (metadata : List (String × Json))
  | cancelAction (tenantId invocationId actorId : String) (metadata : List (String × Json))

/-- The program of an operation. -/
def JobRequest.program : JobRequest → AgentService Unit
  | .claimRun tenantId runId workerId leaseMs => do
    let now ← agentCall .readClock
    let _ ← agentCall (.claimRun tenantId runId workerId now (now + leaseMs)
      (runEvent tenantId workerId "agent-run.claimed" runId [] now))
    return ()
  | .renewLease tenantId runId workerId leaseMs => do
    let now ← agentCall .readClock
    let _ ← agentCall (.renewLease tenantId runId workerId (now + leaseMs))
    return ()
  | .completeRun tenantId runId workerId result =>
    agentCall (.completeRun tenantId runId workerId result
      (runEvent tenantId workerId "agent-run.succeeded" runId
        [("durationMs", .num (.ofInt (result.completedAt - result.startedAt))),
          ("totalTokens", .num (.ofInt result.usage.totalTokens))] result.completedAt))
  | .failRun tenantId runId workerId code message => do
    let completedAt ← agentCall .readClock
    agentCall (.failRun tenantId runId workerId code message completedAt
      (runEvent tenantId workerId "agent-run.failed" runId [("code", .str code)] completedAt))
  | .cancelRun tenantId actorId runId => do
    let cancelledAt ← agentCall .readClock
    let _ ← Agents.cancelRun tenantId runId ("Cancelled by " ++ actorId ++ ".") cancelledAt
      (runEvent tenantId actorId "agent-run.cancelled" runId [] cancelledAt)
    return ()
  | .claimAction tenantId invocationId workerId leaseMs => do
    let now ← agentCall .readClock
    let _ ← agentCall (.claimAction tenantId invocationId workerId now (now + leaseMs)
      (actionEvent tenantId workerId "agent-action.claimed" invocationId [] now))
    return ()
  | .renewActionLease tenantId invocationId workerId leaseMs => do
    let now ← agentCall .readClock
    let _ ← agentCall (.renewActionLease tenantId invocationId workerId (now + leaseMs))
    return ()
  | .releaseAction tenantId invocationId workerId => do
    let _ ← agentCall (.releaseAction tenantId invocationId workerId)
    return ()
  | .completeAction tenantId invocationId workerId actorId output metadata => do
    let completedAt ← agentCall .readClock
    let _ ← agentCall (.completeAction tenantId invocationId workerId output completedAt
      (actionEvent tenantId actorId "agent-action.succeeded" invocationId metadata completedAt))
    return ()
  | .failAction tenantId invocationId workerId actorId code metadata => do
    let completedAt ← agentCall .readClock
    let _ ← agentCall (.failAction tenantId invocationId workerId code completedAt
      (actionEvent tenantId actorId "agent-action.failed" invocationId metadata completedAt))
    return ()
  | .cancelAction tenantId invocationId actorId metadata => do
    let cancelledAt ← agentCall .readClock
    let _ ← Agents.cancelAction tenantId invocationId cancelledAt
      (actionEvent tenantId actorId "agent-action.cancelled" invocationId metadata cancelledAt)
    return ()

/-- An operation and its process. -/
abbrev JobProcess :=
  JobRequest × Prog.Recorded AgentCall (Prog.Reply AgentCall.Answer) Unit

/-- The operations, by any number of workers and callers. -/
def jobOperations [Metering] : Machine AgentTables JobProcess JobRequest AgentChoice :=
  (Prog.recorder JobRequest.program AgentCall.serve).signed

end Flowdular.Agents
