/-
# The event stream of a run

`src/modules/agents/src/services/worker.ts`, lines 75-95 (`failure`), 279-332 (`#drain`) and 333-560
(`#execute`); `database-repository.ts`, lines 1149-1153 and 2744-2766 (`appendRunEvent`);
`agent-service.ts`, lines 2060-2098 (`cancelRun`); `packages/harness/src/runtime.ts`, lines 966-986
and 1660-1668 (`emit`).

A worker claims a run and executes it.  The harness calls `onEvent` synchronously, and the events wait
behind each other to be written; beside them run the heartbeat that renews the lease and the probe that
classifies an event that was refused.  The harness takes no event once it has returned.  The run is
settled where nothing waits any more.  `appendRunEvent` takes the lock of its run and is one step.
-/

import Flowdular.Agents.Jobs
import Flowdular.Lib.Crew

namespace Flowdular.Agents

open Lib Workflows

/-- `AgentExecutionEvent`, without the number the harness gives it. -/
structure AgentExecutionEvent where
  type : String
  message : String
  metadata : List (String × Json) := []
  timestamp : ℤ

/-- A row of `agent_run_events`. -/
structure RunEventRow where
  runId : String
  tenantId : String
  sequence : ℕ
  event : AgentExecutionEvent

/-- What happened to a run: a call left it standing with a status and an attempt, or an event that an
attempt produced was stored. -/
inductive RunMark
  | stood (tenantId runId : String) (status : Status) (attempt : ℕ)
  | stored (tenantId runId : String) (attempt : ℕ)
deriving DecidableEq

/-- The tables, and the runs the workers have in flight.  The log, the newest first, is a history
variable: nothing reads it. -/
structure RunStream where
  tables : AgentTables
  events : List RunEventRow := []
  inFlight : List (String × String) := []
  log : List RunMark := []

/-- The row of a run. -/
def AgentTables.run? (s : AgentTables) (tenantId runId : String) : Option RunRow :=
  s.runs.find? fun row => row.is tenantId runId

/-- What the log says of a run. -/
def AgentTables.mark (s : AgentTables) (tenantId runId : String) : List RunMark :=
  match s.run? tenantId runId with
  | some row => [.stood tenantId runId row.status row.attempt]
  | none => []

/-- The events of a run. -/
def eventsOf (events : List RunEventRow) (tenantId runId : String) : List RunEventRow :=
  events.filter fun row => row.runId = runId && row.tenantId = tenantId

/-- `COALESCE(MAX(sequence), 0) + 1`. -/
def nextSequence (events : List RunEventRow) : ℕ :=
  (events.map (·.sequence)).max?.getD 0 + 1

/-- `appendRunEvent`; the run is a foreign key, and a run and a number are a key. -/
def RunStream.appendRunEvent (s : RunStream) (tenantId runId : String) (event : AgentExecutionEvent)
    (attempt : ℕ) : Except String RunStream :=
  let sequence := nextSequence (eventsOf s.events tenantId runId)
  if (s.tables.runs.any fun row => row.id = runId) = false then
    .error "violates foreign key constraint"
  else if s.events.any fun row => row.runId = runId && row.sequence = sequence then
    .error "violates unique constraint"
  else .ok { s with
    events := s.events ++ [⟨runId, tenantId, sequence, event⟩]
    log := .stored tenantId runId attempt :: s.log }

/-- Why a controller is aborted. -/
inductive Abort
  | cancelled
  | shutdown
  | leaseLost
  | eventPersistenceFailed
deriving DecidableEq

/-- The code and the message of a failed run. -/
structure RunFailure where
  code : String
  message : String

/-- `failure`, of an error without a stable code. -/
def failure (error : String) : RunFailure :=
  ⟨"AGENT_EXECUTION_FAILED", String.ofList (error.toList.take 1000)⟩

/-- Where an execution is: the harness runs, or calls `onEvent`, or has returned or thrown; or the run
is completed. -/
inductive ExecutionPhase
  | executing
  | calling (event : AgentExecutionEvent)
  | returned (result : AgentExecutionResult)
  | threw (failed : RunFailure)
  | completed

/-- `#execute`: the run it claimed, the events that wait, the failure of one that was refused while it
is classified and behind that, and why the controller is aborted. -/
structure Execution where
  tenantId : String
  runId : String
  workerId : String
  leaseMs : ℤ
  attempt : ℕ
  phase : ExecutionPhase := .executing
  eventWrites : List AgentExecutionEvent := []
  eventFailure : Option String := none
  classifying : Bool := false
  aborted : Option Abort := none

/-- `controller.abort`; the first reason stays. -/
def Execution.abort (x : Execution) (reason : Abort) : Execution :=
  { x with aborted := x.aborted <|> some reason }

/-- An event was refused: what waits behind it is not written. -/
def Execution.refused (x : Execution) (error : String) : Execution :=
  { x with eventWrites := [], eventFailure := some error, classifying := true }

/-- The processes: a worker claims a run and executes it, or a person cancels a run. -/
inductive StreamProcess
  | candidate (tenantId runId workerId : String) (leaseMs : ℤ)
  | claiming (tenantId runId workerId : String) (leaseMs now : ℤ)
  | executing (x : Execution)
  | cancel (tenantId actorId runId : String)
  | reading (tenantId actorId runId : String) (cancelledAt : ℤ)
  | cancelling (tenantId actorId runId : String) (cancelledAt : ℤ) (previous : Status)
  | over

/-- A worker takes up a run, or a person cancels it. -/
inductive StreamRequest
  | work (tenantId runId workerId : String) (leaseMs : ℤ)
  | cancel (tenantId actorId runId : String)

/-- Which of the things an execution waits for happens: the harness has an event, is answered, returns
or throws; the first event is written; the probe or the heartbeat renews the lease; the controller is
aborted from without; or the execution goes on behind the harness. -/
inductive ExecutionTurn
  | event (event : AgentExecutionEvent)
  | onEvent
  | result (result : AgentExecutionResult)
  | raise (failed : RunFailure)
  | write
  | classify
  | renew
  | cancelled
  | shutdown
  | settle

/-- What a move leaves open. -/
structure StreamChoice where
  turn : ExecutionTurn := .settle
  call : AgentChoice := {}

variable [Metering]

/-- A call, answered. -/
def RunStream.serve (s : RunStream) (tenantId runId : String) (c : AgentCall) (choice : AgentChoice) :
    Prog.Reply AgentCall.Answer c × RunStream :=
  let tables := (c.serve s.tables choice).2
  ((c.serve s.tables choice).1,
    { s with tables := tables, log := tables.mark tenantId runId ++ s.log })

/-- The lease is renewed for another `leaseMs`. -/
def RunStream.renew (s : RunStream) (x : Execution) (choice : AgentChoice) :
    Except String Bool × RunStream :=
  s.serve x.tenantId x.runId
    (.renewLease x.tenantId x.runId x.workerId (s.tables.clock + x.leaseMs)) choice

/-- The first event that waits is written. -/
def writeEvent (s : RunStream) (x : Execution) (event : AgentExecutionEvent)
    (rest : List AgentExecutionEvent) (choice : AgentChoice) : RunStream × Execution :=
  match s.appendRunEvent x.tenantId x.runId event x.attempt, choice.fails with
  | .ok s', none => (s', { x with eventWrites := rest })
  | .ok s', some (kept, error) => (if kept then s' else s, x.refused error)
  | .error error, _ => (s, x.refused error)

/-- The audit event of a completion. -/
def completionEvent (x : Execution) (result : AgentExecutionResult) : AuditEvent :=
  runEvent x.tenantId x.workerId "agent-run.succeeded" x.runId
    [("durationMs", .num (.ofInt (result.completedAt - result.startedAt))),
      ("totalTokens", .num (.ofInt result.usage.totalTokens))] result.completedAt

/-- The run is completed. -/
def completeExecution (s : RunStream) (x : Execution) (result : AgentExecutionResult)
    (choice : AgentChoice) : RunStream × Execution :=
  let served := s.serve x.tenantId x.runId
    (.completeRun x.tenantId x.runId x.workerId result (completionEvent x result)) choice
  match served.1 with
  | .ok _ => (served.2, { x with phase := .completed })
  | .error error => (served.2, { x with phase := .threw (failure error) })

/-- The execution is no more in flight. -/
def RunStream.leave (s : RunStream) (x : Execution) : RunStream :=
  { s with inFlight := s.inFlight.filter (· ≠ (x.workerId, x.runId)) }

/-- The run is failed. -/
def failExecution (s : RunStream) (x : Execution) (failed : RunFailure) (choice : AgentChoice) :
    RunStream :=
  let completedAt := s.tables.clock
  (s.serve x.tenantId x.runId
    (.failRun x.tenantId x.runId x.workerId failed.code failed.message completedAt
      (runEvent x.tenantId x.workerId "agent-run.failed" x.runId [("code", .str failed.code)]
        completedAt)) choice).2

/-- What a thrown execution is failed with. -/
def Execution.failed (x : Execution) (error : RunFailure) : RunFailure :=
  match x.eventFailure with
  | some eventFailure => failure eventFailure
  | none =>
    if x.aborted.isSome then ⟨"AGENT_LEASE_LOST", "The worker lost its lease on the run."⟩ else error

/-- The execution goes on where the harness has returned or thrown. -/
def settleExecution (s : RunStream) (x : Execution) (choice : AgentChoice) :
    Option (RunStream × StreamProcess) :=
  match x.phase with
  | .returned result =>
    match x.eventWrites, x.eventFailure with
    | _ :: _, _ => none
    | [], some error => some (s, .executing { x with phase := .threw (failure error) })
    | [], none =>
      let done := completeExecution s x result choice
      some (done.1, .executing done.2)
  | .completed =>
    match choice.fails with
    | some (_, error) => some (s, .executing { x with phase := .threw (failure error) })
    | none => some (s.leave x, .over)
  | .threw error =>
    if x.eventWrites ≠ [] ∨ x.classifying = true then none
    else if x.aborted = some .cancelled ∨ x.aborted = some .shutdown ∨ x.aborted = some .leaseLost then
      some (s.leave x, .over)
    else some ((failExecution s x (x.failed error) choice).leave x, .over)
  | _ => none

/-- The harness is at work. -/
def Execution.working (x : Execution) : Bool :=
  match x.phase with
  | .executing => true
  | _ => false

/-- The harness calls `onEvent`. -/
def Execution.calling (x : Execution) : Bool :=
  match x.phase with
  | .calling _ => true
  | _ => false

/-- What an execution does next; between an event and its `onEvent` it does nothing else. -/
def executionNext (s : RunStream) (x : Execution) (turn : ExecutionTurn) (choice : AgentChoice) :
    Option (RunStream × StreamProcess) :=
  match x.phase, turn with
  | .calling event, .onEvent =>
    some (s, .executing { x with
      phase := .executing
      eventWrites := if x.eventFailure.isSome then x.eventWrites else x.eventWrites ++ [event] })
  | .calling _, _ => none
  | _, .onEvent => none
  | _, .event event =>
    if x.working then some (s, .executing { x with phase := .calling event }) else none
  | _, .result result =>
    if x.working then some (s, .executing { x with phase := .returned result }) else none
  | _, .raise failed =>
    if x.working then some (s, .executing { x with phase := .threw failed }) else none
  | _, .write =>
    match x.eventWrites with
    | [] => none
    | event :: rest =>
      let written := writeEvent s x event rest choice
      some (written.1, .executing written.2)
  | _, .classify =>
    if x.classifying then
      let renewed := s.renew x choice
      some (renewed.2, .executing ({ x with classifying := false }.abort
          (if renewed.1 matches .ok true then .eventPersistenceFailed else .leaseLost)))
    else none
  | _, .renew =>
    let renewed := s.renew x choice
    some (renewed.2, .executing (if renewed.1 matches .ok true then x else x.abort .leaseLost))
  | _, .cancelled => some (s, .executing (x.abort .cancelled))
  | _, .shutdown => some (s, .executing (x.abort .shutdown))
  | _, .settle => settleExecution s x choice

/-- A claim; a worker does not claim a run that it has in flight. -/
def claimNext (s : RunStream) (tenantId runId workerId : String) (leaseMs now : ℤ)
    (choice : AgentChoice) : RunStream × StreamProcess :=
  if (workerId, runId) ∈ s.inFlight then (s, .over)
  else
    let served := s.serve tenantId runId (.claimRun tenantId runId workerId now (now + leaseMs)
        (runEvent tenantId workerId "agent-run.claimed" runId [] now)) choice
    match served.1 with
    | .ok (some row) =>
      ({ served.2 with inFlight := (workerId, runId) :: served.2.inFlight },
        .executing { tenantId, runId, workerId, leaseMs, attempt := row.attempt })
    | _ => (served.2, .over)

/-- What a process does next. -/
def streamNext (s : RunStream) (choice : StreamChoice) : StreamProcess → Option (RunStream × StreamProcess)
  | .candidate tenantId runId workerId leaseMs =>
    some (s, .claiming tenantId runId workerId leaseMs s.tables.clock)
  | .claiming tenantId runId workerId leaseMs now =>
    some (claimNext s tenantId runId workerId leaseMs now choice.call)
  | .executing x => executionNext s x choice.turn choice.call
  | .cancel tenantId actorId runId => some (s, .reading tenantId actorId runId s.tables.clock)
  | .reading tenantId actorId runId cancelledAt =>
    let served := s.serve tenantId runId (.cancelRun1 tenantId runId) choice.call
    match served.1 with
    | .ok (some status) =>
      some (served.2, if status.terminal then .over
        else .cancelling tenantId actorId runId cancelledAt status)
    | _ => some (served.2, .over)
  | .cancelling tenantId actorId runId cancelledAt previous =>
    some ((s.serve tenantId runId
      (.cancelRun2 tenantId runId ("Cancelled by " ++ actorId ++ ".") cancelledAt
        (AgentTables.withMetadata (runEvent tenantId actorId "agent-run.cancelled" runId [] cancelledAt)
          "previousStatus" (.str previous.text))) choice.call).2, .over)
  | .over => none

/-- The workers and those who cancel, any number of them; an execution that stops is no more in
flight. -/
def runStreams : Machine RunStream StreamProcess StreamRequest StreamChoice where
  enter _ r :=
    match r with
    | .work tenantId runId workerId leaseMs => some (.candidate tenantId runId workerId leaseMs)
    | .cancel tenantId actorId runId => some (.cancel tenantId actorId runId)
  next s p choice := streamNext s choice p
  stop s p :=
    match p with
    | .executing x => s.leave x
    | _ => s

end Flowdular.Agents
