/-
# The projection of the events and the rows

`src/modules/workflows/src/domain/events.ts`, `projectWorkflowRunEvents`, beside the
operations of `services/database-repository.ts` that write rows and events in one
transaction.

A run is a list of operations in any order: an operation has its arguments and the
rows it read before, which may be old by now.  `Orderly` is the condition on the
rows an operation finds under which its events and its rows say the same: most of
the operations check the status of the run or of the attempt neither in their
update nor at all.  A run of orderly operations keeps the projection of its events
equal to its rows (`projection_of_orderly`); a worker that settles its attempt
behind the end of the run breaks it (`projection_of_stale_worker`).
-/

import Flowdular.Workflows.CompileSoundness
import Flowdular.Workflows.Repository

namespace Flowdular.Workflows

open Lib

/-! ### Operations on a stream -/

/-- The operations on one run, with the rows they have read. -/
inductive Operation where
  | claim (read : RunRow) (workerId : String) (now leaseExpiresAt : Time)
  | renewLease (workerId : String) (leaseExpiresAt : Time)
  | releaseLease (workerId : String)
  | work (work : RunWork)
  | wakeApproval (requestId : String) (now : Time)
  | settleRun (before : RunRow) (write : SettleRunWrite)
  | requestCancellation (read : RunRow) (recordedAt : Time)
  | applyPayloadRetention (site : PayloadSite) (hash : String)

/-- The transaction of an operation.  `#claim` updates a row it found claimable. -/
def Operation.transaction [Host] : Operation → Transaction Unit
  | .claim read workerId now leaseExpiresAt =>
    if read.claimable now then (claimRun read workerId now leaseExpiresAt).done
    else fun rows => .ok { result := (), rows }
  | .renewLease workerId leaseExpiresAt => (Workflows.renewLease workerId leaseExpiresAt).done
  | .releaseLease workerId => Workflows.releaseLease workerId
  | .work task => task.transaction
  | .wakeApproval requestId now => Workflows.wakeApproval requestId now
  | .settleRun before write => (Workflows.settleRun before write).done
  | .requestCancellation read recordedAt => (Workflows.requestCancellation read recordedAt).done
  | .applyPayloadRetention site hash => Workflows.applyPayloadRetention site hash

/-- The rows of a run and its stored events. -/
structure RunStream where
  rows : StoredRun
  events : List StoredEvent

/-- `SQL.maxEventSequence`, and one more. -/
def nextSequence (events : List StoredEvent) : ℕ :=
  (events.map (·.sequence)).max?.getD 0 + 1

def appendEvent (key : RunKey) (events : List StoredEvent) (event : WorkflowRunEvent) :
    Except String (List StoredEvent) :=
  let sequence := nextSequence events
  if workflowLimits.maxRunEvents < sequence then .error "WORKFLOW_LIMIT_EXCEEDED"
  else .ok (events ++ [⟨key, sequence, event⟩])

namespace RunStream

/-- `createRun`. -/
def create (run : RunRow) : RunStream where
  rows := (createRun run).rows
  events := [{ key := run.key, sequence := 1, event := .runQueued run.mode }]

/-- The commit of a transaction, which appends its events. -/
def commit (s : RunStream) (written : Written Unit) : Except String RunStream := do
  let events ← written.events.foldlM (appendEvent s.rows.run.key) s.events
  return { rows := written.rows, events }

/-- An operation; one that fails is rolled back. -/
def step [Host] (s : RunStream) (operation : Operation) : RunStream :=
  match operation.transaction s.rows >>= s.commit with
  | .ok s' => s'
  | .error _ => s

/-- Operations one after the other. -/
def after [Host] (s : RunStream) (operations : List Operation) : RunStream :=
  operations.foldl step s

end RunStream

/-- Callers name nodes and edges of the graph. -/
def Operation.OfGraph (graph : WorkflowGraph) : Operation → Prop
  | .work (.startAttempt write) => ∃ node ∈ graph.nodes, node.id = write.nodeId
  | .work (.settleEdge transfer) => ∃ edge ∈ graph.edges, edge.id = transfer.edgeId
  | _ => True

/-! ### What the projection should say -/

/-- The status of a node in the rows; a node without a row is pending. -/
def StoredRun.nodeStatus (rows : StoredRun) (nodeId : String) : WorkflowNodeStatus :=
  (rows.node? nodeId).elim .pending (·.status)

/-- The status and the outcome port of the attempt with a key in the rows. -/
def StoredRun.attemptOutcome (rows : StoredRun) (key : String) :
    Option (WorkflowAttemptStatus × Option String) :=
  (rows.attempts.find? fun row => decide (attemptKey row.nodeId row.attempt = key)).map fun row =>
    (row.status, row.outcomePort)

/-- A projection says what the rows say. -/
structure EventProjection.Shows (p : EventProjection) (rows : StoredRun) : Prop where
  status : p.status = rows.run.status
  nodes : ∀ nodeId, (p.nodeStatuses nodeId).getD .pending = rows.nodeStatus nodeId
  attempts : ∀ key, p.attempts key = rows.attemptOutcome key
  edges : ∀ edgeId, p.edgeStates edgeId = (rows.edge? edgeId).map (·.state)

/-- Only retention follows the end of a run. -/
def OnlyRetentionAfterEnd (events : List StoredEvent) : Prop :=
  ∀ before settled after, events = before ++ settled :: after → settled.event.isSettled = true →
    ∀ stored ∈ after, stored.event.isRetention = true

/-- The events of a run project to its rows. -/
def RunStream.Agrees (s : RunStream) : Prop :=
  (∃ p, projectWorkflowRunEvents s.events = .ok p ∧ p.Shows s.rows) ∧ OnlyRetentionAfterEnd s.events

/-! ### The condition -/

/-- What an operation that commits has to find for its events and its rows to say the
same. -/
def Operation.Orderly (rows : StoredRun) : Operation → Prop
  | .work (.appendRunEvent ..) | .work (.ignoreLateResult ..) | .work (.settleEdge _) =>
    rows.run.status.isTerminal = false
  | .work (.startAttempt _) => rows.run.status ∉ [.queued, .waitingAgent, .waitingApproval]
  | .work (.markChildWaiting write) =>
    rows.run.status ∈ [.running, .cancelRequested, EventProjection.waitingStatus write.childKind]
  | .work (.suspendApproval ..) => rows.run.status ≠ .running
  | .work (.settleAttempt _ write) =>
    rows.run.status.isTerminal = false ∧
      (rows.attempt? write.nodeId write.attempt).any (·.status.isOpen) = true
  | .work (.markNodeSkipped nodeId ..) =>
    (rows.node? nodeId).any skippable = true → rows.run.status.isTerminal = false
  | .settleRun before write =>
    rows.run.status = before.status → before.status.isTerminal = false →
      (write.status.1 = .cancelled → before.status = .cancelRequested) ∧
        (write.status.1 = .succeeded ∨ write.status.1 = .failed → before.status ≠ .queued)
  | _ => True

/-- Every operation that commits finds what it has to. -/
def RunStream.Orderly [Host] : RunStream → List Operation → Prop
  | _, [] => True
  | s, operation :: operations =>
    ((operation.transaction s.rows >>= s.commit).isOk = true → operation.Orderly s.rows) ∧
      (s.step operation).Orderly operations

/-! ### Replaying a stream -/

/-- The events of one run, numbered from its `run.queued` on. -/
structure Numbered (key : RunKey) (events : List StoredEvent) : Prop where
  first : ∃ mode rest, events = ⟨key, 1, .runQueued mode⟩ :: rest
  sequences : events.map (·.sequence) = List.range' 1 events.length

theorem Numbered.nextSequence {key : RunKey} {events : List StoredEvent} (h : Numbered key events) :
    nextSequence events = events.length + 1 := by
  obtain ⟨mode, rest, hf⟩ := h.first
  have hm : (events.map (·.sequence)).max? = some events.length := by
    rw [h.sequences, List.max?_eq_some_iff]
    simp only [List.mem_range'_1]
    have hpos : 0 < events.length := by
      rw [hf]
      exact Nat.succ_pos _
    exact ⟨by omega, fun n hn => by omega⟩
  rw [Workflows.nextSequence, hm]
  rfl

theorem Numbered.append {key : RunKey} {events : List StoredEvent} (h : Numbered key events)
    (event : WorkflowRunEvent) : Numbered key (events ++ [⟨key, events.length + 1, event⟩]) := by
  obtain ⟨mode, rest, hf⟩ := h.first
  refine ⟨⟨mode, rest ++ [⟨key, events.length + 1, event⟩], by rw [hf]; rfl⟩, ?_⟩
  rw [List.map_append, h.sequences, List.length_append, List.length_singleton, List.range'_concat]
  simp [Nat.add_comm]

namespace EventProjection

theorem replay_append {key : RunKey} (stored after : List StoredEvent) :
    ∀ (index : ℕ) (p : EventProjection), replay key index p (stored ++ after) =
      replay key index p stored >>= fun q => replay key (index + stored.length) q after := by
  induction stored with
  | nil => exact fun index p => rfl
  | cons first stored ih =>
    intro index p
    rw [List.cons_append, replay, replay, bind_assoc]
    congr 1
    funext q
    rw [ih, List.length_cons, Nat.add_right_comm, Nat.add_assoc]

variable {index : ℕ} {p q : EventProjection} {stored : StoredEvent} {event : WorkflowRunEvent}

theorem next_eq {key : RunKey} (hs : stored.sequence = index + 1) (hk : stored.key = key) :
    p.next key stored index = p.advance stored.event := by
  rw [next, if_neg (by rw [hs, hk]; simp)]

theorem advance_of_next {key : RunKey}
    (h : p.next key stored index = .ok q) : p.advance stored.event = .ok q := by
  unfold next at h
  split at h
  · cases h
  · exact h

theorem refuseIf_bind_eq_ok {condition : Bool} {f : Unit → Except ProjectionError EventProjection}
    (h : (p.refuseIf condition event >>= f) = .ok q) : condition = false ∧ f () = .ok q := by
  unfold refuseIf at h
  cases condition with
  | false => exact ⟨rfl, h⟩
  | true => cases h

/-- The end of a run leaves a terminal status. -/
theorem isTerminal_of_advance
    (h : p.advance event = .ok q) (hs : event.isSettled = true) : q.status.isTerminal = true := by
  obtain ⟨-, h⟩ := refuseIf_bind_eq_ok h
  cases event with
  | runSettled status =>
    obtain ⟨-, h⟩ := refuseIf_bind_eq_ok h
    rw [← Except.ok.inj h]
    exact status.2
  | _ => cases hs

/-- Behind the end of a run the projection takes retention only, and it changes nothing. -/
theorem advance_of_isTerminal (h : p.advance event = .ok q) (ht : p.status.isTerminal = true) :
    event.isRetention = true ∧ q = p := by
  obtain ⟨hr, h⟩ := refuseIf_bind_eq_ok h
  rw [ht, Bool.true_and, Bool.not_eq_false'] at hr
  cases event with
  | payloadRetentionApplied => exact ⟨rfl, (Except.ok.inj h).symm⟩
  | _ => cases hr

theorem isRetention_of_replay {key : RunKey}
    (ht : p.status.isTerminal = true) : ∀ {index : ℕ} {events : List StoredEvent},
    replay key index p events = .ok q → ∀ stored ∈ events, stored.event.isRetention = true := by
  intro index events
  induction events generalizing index with
  | nil => simp
  | cons first events ih =>
    intro h
    rw [replay] at h
    obtain ⟨m, hf, hrest⟩ := bind_eq_ok h
    obtain ⟨hr, rfl⟩ := advance_of_isTerminal (advance_of_next hf) ht
    exact List.forall_mem_cons.2 ⟨hr, ih hrest⟩

end EventProjection

theorem projectWorkflowRunEvents_cons (key : RunKey) (mode : WorkflowRunMode)
    (events : List StoredEvent) :
    projectWorkflowRunEvents (⟨key, 1, .runQueued mode⟩ :: events) =
      EventProjection.replay key 1 {} events :=
  rfl

variable {p : EventProjection} {graph : WorkflowGraph} {operation : Operation}

theorem Numbered.project_append {key : RunKey} {events : List StoredEvent} {q : EventProjection}
    {event : WorkflowRunEvent} (h : Numbered key events)
    (hp : projectWorkflowRunEvents events = .ok p) (hq : p.advance event = .ok q) :
    projectWorkflowRunEvents (events ++ [⟨key, events.length + 1, event⟩]) = .ok q := by
  obtain ⟨mode, rest, rfl⟩ := h.first
  rw [projectWorkflowRunEvents_cons] at hp
  rw [List.cons_append, projectWorkflowRunEvents_cons, EventProjection.replay_append, hp]
  show EventProjection.replay key (1 + rest.length) p [_] = .ok q
  have hs : rest.length + 1 + 1 = 1 + rest.length + 1 := by omega
  have hn : p.next key ⟨key, rest.length + 1 + 1, event⟩ (1 + rest.length) = .ok q :=
    (EventProjection.next_eq hs rfl).trans hq
  rw [List.length_cons, EventProjection.replay, hn]
  rfl

/-- The events a transaction appends, when the projection takes them. -/
theorem Numbered.commit {key : RunKey} : ∀ {new : List WorkflowRunEvent} {events events' : List StoredEvent}
    {p q : EventProjection}, Numbered key events → projectWorkflowRunEvents events = .ok p →
    new.foldlM EventProjection.advance p = .ok q →
    new.foldlM (appendEvent key) events = .ok events' →
    Numbered key events' ∧ projectWorkflowRunEvents events' = .ok q := by
  intro new
  induction new with
  | nil =>
    intro events events' p q h hp hq ha
    rw [← Except.ok.inj hq, ← Except.ok.inj ha]
    exact ⟨h, hp⟩
  | cons event new ih =>
    intro events events' p q h hp hq ha
    rw [List.foldlM_cons] at hq ha
    obtain ⟨m, hm, hq⟩ := bind_eq_ok hq
    obtain ⟨events₁, hevents₁, ha⟩ := bind_eq_ok ha
    have he : events₁ = events ++ [⟨key, events.length + 1, event⟩] := by
      simp only [appendEvent] at hevents₁
      split at hevents₁
      · cases hevents₁
      · rw [← Except.ok.inj hevents₁, h.nextSequence]
    subst he
    exact ih (h.append event) (h.project_append hp hm) hq ha

/-- **Only retention follows the end** in a stream that projects. -/
theorem onlyRetentionAfterEnd_of_project {events : List StoredEvent}
    (hp : projectWorkflowRunEvents events = .ok p) : OnlyRetentionAfterEnd events := by
  rintro before settled after rfl hs
  unfold projectWorkflowRunEvents at hp
  split at hp
  · next key mode events he =>
    -- The end of the run is not the first event.
    cases before with
    | nil =>
      rw [List.nil_append] at he
      rw [(List.cons.inj he).1] at hs
      cases hs
    | cons first before =>
      rw [← (List.cons.inj he).2, List.append_eq, EventProjection.replay_append] at hp
      obtain ⟨m, -, hp⟩ := bind_eq_ok hp
      rw [EventProjection.replay] at hp
      obtain ⟨m', hend, hp⟩ := bind_eq_ok hp
      have ht := EventProjection.isTerminal_of_advance (EventProjection.advance_of_next hend) hs
      exact EventProjection.isRetention_of_replay ht hp
  · cases hp

/-! ### What an update shows -/

theorem attemptKey_inj {nodeId nodeId' : String} {attempt attempt' : ℕ}
    (h : attemptKey nodeId attempt = attemptKey nodeId' attempt') :
    nodeId = nodeId' ∧ attempt = attempt' := by
  have hl := congrArg (fun s : String => s.toList.reverse) h
  simp only [attemptKey, String.toList_append, List.reverse_append] at hl
  have hc : ∀ n : ℕ, ':' ∉ (toString n).toList.reverse := fun n hm =>
    colon_notMem_toString n (List.mem_reverse.1 hm)
  obtain ⟨hd, hn⟩ := append_colon_inj (hc attempt) (hc attempt') hl
  refine ⟨String.toList_inj.1 (List.reverse_injective hn), toDigits_inj ?_⟩
  have ht := List.reverse_injective hd
  rwa [show ∀ n : ℕ, (toString n).toList = Nat.toDigits 10 n from fun n => Nat.toList_repr,
    show ∀ n : ℕ, (toString n).toList = Nat.toDigits 10 n from fun n => Nat.toList_repr] at ht

namespace StoredRun

variable {rows : StoredRun}

variable {nodeId : String} {change : NodeStateRow → NodeStateRow} {selects : NodeStateRow → Bool}

theorem attemptKey_eq_iff {row : AttemptRow} {attempt : ℕ} :
    attemptKey row.nodeId row.attempt = attemptKey nodeId attempt ↔ row.key = (nodeId, attempt) := by
  constructor
  · intro h
    obtain ⟨hn, ha⟩ := attemptKey_inj h
    exact Prod.ext hn ha
  · intro h
    rw [show row.nodeId = nodeId from congrArg Prod.fst h,
      show row.attempt = attempt from congrArg Prod.snd h]

theorem attemptOutcome_attemptKey (nodeId : String) (attempt : ℕ) :
    rows.attemptOutcome (attemptKey nodeId attempt) =
      (rows.attempt? nodeId attempt).map fun row => (row.status, row.outcomePort) := by
  simp only [attemptOutcome, attempt?, attemptKey_eq_iff]

/-! #### Nodes -/

theorem nodeStatus_setNode (hk : ∀ state, (change state).nodeId = state.nodeId)
    (other : String) : (rows.setNode nodeId selects change).nodeStatus other =
      (rows.node? other).elim .pending fun state =>
        (if state.nodeId = nodeId ∧ selects state = true then change state else state).status := by
  rw [nodeStatus, node?_setNode hk]
  cases rows.node? other with
  | none => rfl
  | some state => simp

/-- The node that is there has the new status. -/
theorem nodeStatus_setNode_self {status : WorkflowNodeStatus}
    (hk : ∀ state, (change state).nodeId = state.nodeId)
    (hs : ∀ state, (change state).status = status)
    (hn : (rows.node? nodeId).any selects = true) :
    (rows.setNode nodeId selects change).nodeStatus nodeId = status := by
  rw [nodeStatus_setNode hk]
  obtain ⟨state, hsta, hsel⟩ := (Option.any_eq_true _ _).1 hn
  rw [hsta]
  show (if _ then change state else state).status = status
  rw [if_pos ⟨(nodeId_of_node? hsta).2, hsel⟩, hs]

theorem nodeStatus_setNode_of_ne {other : String}
    (hk : ∀ state, (change state).nodeId = state.nodeId)
    (hne : other ≠ nodeId) :
    (rows.setNode nodeId selects change).nodeStatus other = rows.nodeStatus other := by
  rw [nodeStatus_setNode hk, nodeStatus]
  cases hs : rows.node? other with
  | none => rfl
  | some state =>
    have hid : state.nodeId ≠ nodeId := by rwa [(nodeId_of_node? hs).2]
    show (if _ then change state else state).status = state.status
    rw [if_neg fun h => hid h.1]

/-- An update that keeps statuses shows nothing. -/
theorem nodeStatus_update (hk : ∀ state, (change state).nodeId = state.nodeId)
    (hs : ∀ state, (change state).status = state.status) (nodeId : String) :
    nodeStatus { rows with nodes := Table.update selects change rows.nodes } nodeId =
      rows.nodeStatus nodeId := by
  have hf : node? { rows with nodes := Table.update selects change rows.nodes } nodeId =
      (rows.node? nodeId).map fun state => if selects state then change state else state :=
    Table.find?_update NodeStateRow.nodeId hk nodeId
  rw [nodeStatus, hf, nodeStatus]
  cases rows.node? nodeId with
  | none => rfl
  | some state =>
    show (if selects state = true then change state else state).status = state.status
    split
    · exact hs state
    · rfl

/-! #### Attempts -/

theorem attemptOutcome_setAttempt {attempt : ℕ} {change : AttemptRow → AttemptRow}
    (hk : ∀ row, (change row).key = row.key) (key : String) :
    (rows.setAttempt nodeId attempt change).attemptOutcome key =
      (rows.attempts.find? fun row => decide (attemptKey row.nodeId row.attempt = key)).map fun row =>
        ((if row.key = (nodeId, attempt) then change row else row).status,
          (if row.key = (nodeId, attempt) then change row else row).outcomePort) := by
  have hattemptKey : ∀ row, attemptKey (change row).nodeId (change row).attempt =
      attemptKey row.nodeId row.attempt := fun row => attemptKey_eq_iff.2 (hk row)
  have hf : (rows.setAttempt nodeId attempt change).attempts.find?
      (fun row => decide (attemptKey row.nodeId row.attempt = key)) =
        (rows.attempts.find? fun row => decide (attemptKey row.nodeId row.attempt = key)).map fun row =>
          if decide (row.key = (nodeId, attempt)) then change row else row :=
    Table.find?_update (fun row : AttemptRow => attemptKey row.nodeId row.attempt) hattemptKey key
  rw [attemptOutcome, hf, Option.map_map]
  simp only [decide_eq_true_eq]
  rfl

theorem attemptOutcome_setAttempt_self {attempt : ℕ}
    {change : AttemptRow → AttemptRow} {status : WorkflowAttemptStatus} {outcomePort : Option String}
    (hk : ∀ row, (change row).key = row.key) {row : AttemptRow}
    (hr : rows.attempt? nodeId attempt = some row)
    (hc : ((change row).status, (change row).outcomePort) = (status, outcomePort)) :
    (rows.setAttempt nodeId attempt change).attemptOutcome (attemptKey nodeId attempt) =
      some (status, outcomePort) := by
  rw [attemptOutcome_setAttempt hk]
  simp only [attemptKey_eq_iff]
  rw [show rows.attempts.find? (fun row => decide (row.key = (nodeId, attempt))) = some row from hr,
    Option.map_some, if_pos (key_of_attempt? hr).2, hc]

theorem attemptOutcome_setAttempt_of_ne {key : String} {attempt : ℕ}
    {change : AttemptRow → AttemptRow} (hk : ∀ row, (change row).key = row.key)
    (hne : key ≠ attemptKey nodeId attempt) :
    (rows.setAttempt nodeId attempt change).attemptOutcome key = rows.attemptOutcome key := by
  rw [attemptOutcome_setAttempt hk, attemptOutcome]
  refine Option.map_congr fun row hr => ?_
  have hrowKey : attemptKey row.nodeId row.attempt = key := by simpa using List.find?_some hr
  have ho : row.key ≠ (nodeId, attempt) := fun h =>
    hne (hrowKey.symm.trans (attemptKey_eq_iff.2 h))
  rw [if_neg ho]

/-- An update that keeps outcomes shows nothing. -/
theorem attemptOutcome_setAttempt_same {attempt : ℕ}
    {change : AttemptRow → AttemptRow} (hk : ∀ row, (change row).key = row.key)
    (hc : ∀ row, ((change row).status, (change row).outcomePort) = (row.status, row.outcomePort))
    (key : String) :
    (rows.setAttempt nodeId attempt change).attemptOutcome key = rows.attemptOutcome key := by
  rw [attemptOutcome_setAttempt hk, attemptOutcome]
  refine Option.map_congr fun row hr => ?_
  split
  · exact hc row
  · rfl

theorem attemptOutcome_append_self {row : AttemptRow}
    (hf : rows.attempt? row.nodeId row.attempt = none) :
    attemptOutcome { rows with attempts := rows.attempts ++ [row] }
      (attemptKey row.nodeId row.attempt) = some (row.status, row.outcomePort) := by
  have hn : ∀ other ∈ rows.attempts,
      attemptKey other.nodeId other.attempt ≠ attemptKey row.nodeId row.attempt := by
    intro other ho hk
    exact List.find?_eq_none.1 hf other ho (by simpa using attemptKey_eq_iff.1 hk)
  exact congrArg (Option.map fun row : AttemptRow => (row.status, row.outcomePort))
    (Table.find?_append_of_eq (fun row : AttemptRow => attemptKey row.nodeId row.attempt) rfl hn)

theorem attemptOutcome_append_of_ne {row : AttemptRow} {key : String}
    (hne : key ≠ attemptKey row.nodeId row.attempt) :
    attemptOutcome { rows with attempts := rows.attempts ++ [row] } key = rows.attemptOutcome key :=
  congrArg (Option.map fun row : AttemptRow => (row.status, row.outcomePort))
    (Table.find?_append_of_ne (fun row : AttemptRow => attemptKey row.nodeId row.attempt) hne.symm)

end StoredRun

namespace EventProjection

variable {p : EventProjection} {rows : StoredRun}

/-! #### Projections -/

variable {change : RunRow → RunRow} {status : WorkflowRunStatus} {nodeId : String}
  {selects : NodeStateRow → Bool}

theorem Shows.setStatus (h : p.Shows rows)
    (hs : (change rows.run).status = status) : (p.setStatus status).Shows (rows.setRun change) :=
  ⟨hs.symm, h.nodes, h.attempts, h.edges⟩

/-- A change of the run that keeps its status shows nothing. -/
theorem Shows.setRun (h : p.Shows rows)
    (hs : (change rows.run).status = rows.run.status) : p.Shows (rows.setRun change) :=
  ⟨h.status.trans hs.symm, h.nodes, h.attempts, h.edges⟩

/-- A status moves unless a cancellation was requested. -/
theorem Shows.moveStatus (h : p.Shows rows)
    (hs : (change rows.run).status =
      if rows.run.status = .cancelRequested then .cancelRequested else status) :
    (p.moveStatus status).Shows (rows.setRun change) := by
  unfold EventProjection.moveStatus
  rw [h.status]
  split
  · next hc =>
    rw [if_pos hc] at hs
    exact h.setRun (hs.trans hc.symm)
  · next hc =>
    rw [if_neg hc] at hs
    exact h.setStatus hs

theorem Shows.setNode (h : p.Shows rows)
    {change : NodeStateRow → NodeStateRow} {status : WorkflowNodeStatus}
    (hk : ∀ state, (change state).nodeId = state.nodeId)
    (hs : ∀ state, (change state).status = status)
    (hn : (rows.node? nodeId).any selects = true) :
    (p.setNode nodeId status).Shows (rows.setNode nodeId selects change) := by
  refine ⟨h.status, fun other => ?_, h.attempts, h.edges⟩
  show (Function.update p.nodeStatuses nodeId (some status) other).getD .pending = _
  by_cases hid : other = nodeId
  · subst hid
    rw [Function.update_self, StoredRun.nodeStatus_setNode_self hk hs hn]
    rfl
  · rw [Function.update_of_ne hid, h.nodes, StoredRun.nodeStatus_setNode_of_ne hk hid]

theorem Shows.updateNodes (h : p.Shows rows)
    {change : NodeStateRow → NodeStateRow} (hk : ∀ state, (change state).nodeId = state.nodeId)
    (hs : ∀ state, (change state).status = state.status) :
    p.Shows { rows with nodes := Table.update selects change rows.nodes } :=
  ⟨h.status, fun nodeId => (h.nodes nodeId).trans (StoredRun.nodeStatus_update hk hs nodeId).symm,
    h.attempts, h.edges⟩

theorem Shows.setAttempt (h : p.Shows rows) {attempt : ℕ}
    {change : AttemptRow → AttemptRow} {status : WorkflowAttemptStatus} {outcomePort : Option String}
    (hk : ∀ row, (change row).key = row.key) {row : AttemptRow}
    (hr : rows.attempt? nodeId attempt = some row)
    (hc : ((change row).status, (change row).outcomePort) = (status, outcomePort)) :
    (p.setAttempt nodeId attempt status outcomePort).Shows (rows.setAttempt nodeId attempt change) := by
  refine ⟨h.status, h.nodes, fun key => ?_, h.edges⟩
  show Function.update p.attempts (attemptKey nodeId attempt) (some (status, outcomePort)) key = _
  by_cases hs : key = attemptKey nodeId attempt
  · subst hs
    rw [Function.update_self, StoredRun.attemptOutcome_setAttempt_self hk hr hc]
  · rw [Function.update_of_ne hs, h.attempts, StoredRun.attemptOutcome_setAttempt_of_ne hk hs]

theorem Shows.setAttempt_same (h : p.Shows rows) {attempt : ℕ}
    {change : AttemptRow → AttemptRow} (hk : ∀ row, (change row).key = row.key)
    (hc : ∀ row, ((change row).status, (change row).outcomePort) = (row.status, row.outcomePort)) :
    p.Shows (rows.setAttempt nodeId attempt change) :=
  ⟨h.status, h.nodes,
    fun key => (h.attempts key).trans (StoredRun.attemptOutcome_setAttempt_same hk hc key).symm,
    h.edges⟩

theorem Shows.addAttempt (h : p.Shows rows) {row : AttemptRow}
    (hf : rows.attempt? row.nodeId row.attempt = none) :
    (p.setAttempt row.nodeId row.attempt row.status row.outcomePort).Shows
      { rows with attempts := rows.attempts ++ [row] } := by
  refine ⟨h.status, h.nodes, fun key => ?_, h.edges⟩
  show Function.update p.attempts _ (some (row.status, row.outcomePort)) key = _
  by_cases hs : key = attemptKey row.nodeId row.attempt
  · subst hs
    rw [Function.update_self, StoredRun.attemptOutcome_append_self hf]
  · rw [Function.update_of_ne hs, h.attempts, StoredRun.attemptOutcome_append_of_ne hs]

theorem Shows.addEdge (h : p.Shows rows) {transfer : EdgeTransferRow}
    (hf : rows.edge? transfer.edgeId = none) :
    Shows { p with edgeStates := Function.update p.edgeStates transfer.edgeId (some transfer.state) }
      { rows with edges := rows.edges ++ [transfer] } := by
  refine ⟨h.status, h.nodes, h.attempts, fun edgeId => ?_⟩
  show Function.update p.edgeStates _ (some transfer.state) edgeId = _
  by_cases hs : edgeId = transfer.edgeId
  · subst hs
    have hn : ∀ other ∈ rows.edges, other.edgeId ≠ transfer.edgeId := fun other ho hk =>
      List.find?_eq_none.1 hf other ho (by simpa using hk)
    rw [Function.update_self]
    exact (congrArg (Option.map (·.state))
      (Table.find?_append_of_eq EdgeTransferRow.edgeId rfl hn)).symm
  · rw [Function.update_of_ne hs, h.edges]
    exact (congrArg (Option.map (·.state))
      (Table.find?_append_of_ne EdgeTransferRow.edgeId (Ne.symm hs))).symm

theorem Shows.updateEdges (h : p.Shows rows) {selects : EdgeTransferRow → Bool}
    {change : EdgeTransferRow → EdgeTransferRow} (hk : ∀ row, (change row).edgeId = row.edgeId)
    (hs : ∀ row, (change row).state = row.state) :
    p.Shows { rows with edges := Table.update selects change rows.edges } := by
  refine ⟨h.status, h.nodes, h.attempts, fun edgeId => ?_⟩
  have hf : StoredRun.edge? { rows with edges := Table.update selects change rows.edges } edgeId =
      (rows.edge? edgeId).map fun row => if selects row then change row else row :=
    Table.find?_update EdgeTransferRow.edgeId hk edgeId
  rw [h.edges, hf, Option.map_map]
  refine Option.map_congr fun row _ => ?_
  show row.state = (if selects row = true then change row else row).state
  split
  · exact (hs row).symm
  · rfl

/-- The attempt of a key, as the projection has it. -/
theorem Shows.attempt (h : p.Shows rows) (nodeId : String) (attempt : ℕ) :
    p.attempts (attemptKey nodeId attempt) =
      (rows.attempt? nodeId attempt).map fun row => (row.status, row.outcomePort) :=
  (h.attempts _).trans (StoredRun.attemptOutcome_attemptKey nodeId attempt)

end EventProjection

/-! ### What an event does to a projection -/

namespace EventProjection

variable {p : EventProjection}

variable {event : WorkflowRunEvent} {workerId nodeId semanticGroup : String}
  {outcomePort failureCode : Option String} {output : WorkflowPayloadEvidence}
  {status : WorkflowAttemptStatus}

theorem advance_of_live (hl : p.status.isTerminal = false) : p.advance event = p.apply event := by
  unfold advance refuseIf
  rw [hl]
  rfl

theorem requiredString_eq_ok {value key : String} (h : value ≠ "") :
    requiredString value key = .ok () :=
  if_neg h

theorem requiredInteger_eq_ok {value : ℕ} {key : String} (hpos : 1 ≤ value) (hlt : value < 2 ^ 31) :
    requiredInteger value key = .ok () :=
  if_neg (by omega)

theorem refuseIf_eq_ok {condition : Bool} (h : condition = false) :
    p.refuseIf condition event = .ok () := by
  rw [refuseIf, h]
  rfl

theorem advance_runClaimed {leaseExpiresAt : Time} (hq : p.status = .queued) :
    p.advance (.runClaimed workerId leaseExpiresAt) = .ok (p.setStatus .running) := by
  rw [advance_of_live (by rw [hq]; rfl), apply, refuseIf_eq_ok (by rw [hq]; rfl)]
  rfl

theorem advance_runRecovered {priorLease : String} (hl : p.status.isTerminal = false)
    (hq : p.status ≠ .queued) : p.advance (.runRecovered priorLease workerId) = .ok p := by
  rw [advance_of_live hl, apply, refuseIf_eq_ok (by simp [hq, hl])]
  rfl

theorem advance_nodeReady (hl : p.status.isTerminal = false)
    (hc : p.status ≠ .cancelRequested) (hn : nodeId ≠ "") :
    p.advance (.nodeReady nodeId) = .ok ((p.setNode nodeId .ready).setStatus .running) := by
  rw [advance_of_live hl, apply, refuseIf_eq_ok (by simpa using hc), requiredString_eq_ok hn]
  rfl

theorem advance_nodeRetryStarted {attempt : ℕ}
    (hl : p.status.isTerminal = false) (hn : nodeId ≠ "") :
    p.advance (.nodeRetryStarted nodeId attempt semanticGroup) =
      .ok ((p.setNode nodeId .running).setStatus .running) := by
  rw [advance_of_live hl, apply, requiredString_eq_ok hn]
  rfl

theorem advance_nodeAttemptStarted {attempt : ℕ}
    {input : WorkflowPayloadEvidence} (hl : p.status.isTerminal = false)
    (hc : p.status ≠ .cancelRequested) (hn : nodeId ≠ "") (hpos : 1 ≤ attempt)
    (hlt : attempt < 2 ^ 31) (hf : p.attempts (attemptKey nodeId attempt) = none) :
    p.advance (.nodeAttemptStarted nodeId attempt semanticGroup input) =
      .ok (((p.setAttempt nodeId attempt .running none).setNode nodeId .running).setStatus .running) := by
  rw [advance_of_live hl, apply, refuseIf_eq_ok (by simpa using hc), requiredString_eq_ok hn,
    requiredInteger_eq_ok hpos hlt, refuseIf_eq_ok (by rw [hf]; rfl)]
  rfl

theorem advance_nodeChildWaiting {childId : String} {attempt : ℕ} {childKind : ChildKind}
    {deadline : Time} (hl : p.status.isTerminal = false)
    (hn : nodeId ≠ "") (hpos : 1 ≤ attempt) (hlt : attempt < 2 ^ 31)
    (hr : p.attempts (attemptKey nodeId attempt) = some (.running, outcomePort)) :
    p.advance (.nodeChildWaiting nodeId attempt childKind childId deadline) =
      .ok (((p.setAttempt nodeId attempt .waitingChild none).setNode nodeId .waitingChild).moveStatus
        (waitingStatus childKind)) := by
  rw [advance_of_live hl, apply, requiredString_eq_ok hn, requiredInteger_eq_ok hpos hlt]
  show (p.refuseIf _ _ >>= _) = _
  rw [refuseIf_eq_ok (by rw [hr]; rfl)]
  rfl

theorem advance_nodeAttemptSettled {attempt : ℕ}
    {retryClassification : Option RetryClassification} {prior : WorkflowAttemptStatus × Option String}
    (hl : p.status.isTerminal = false) (hn : nodeId ≠ "") (hpos : 1 ≤ attempt)
    (hlt : attempt < 2 ^ 31) (ho : p.attempts (attemptKey nodeId attempt) = some prior)
    (hpri : prior.1.isOpen = true) (hs : status.isOpen = false) :
    p.advance (.nodeAttemptSettled nodeId attempt status outcomePort output failureCode
        retryClassification) =
      .ok (((p.setAttempt nodeId attempt status outcomePort).setNode nodeId status.toNode).moveStatus
        .running) := by
  rw [advance_of_live hl, apply, requiredString_eq_ok hn, requiredInteger_eq_ok hpos hlt]
  show (p.refuseIf _ _ >>= _) = _
  rw [refuseIf_eq_ok (by rw [ho, Option.any_some, hpri]; rfl), hs]
  rfl

theorem advance_nodeRetryScheduled {attempt : ℕ}
    {classification : Option RetryClassification} {backoffMs : Option ℕ} {nextAttemptAt : Time}
    (hl : p.status.isTerminal = false) (hn : nodeId ≠ "") :
    p.advance (.nodeRetryScheduled nodeId attempt classification backoffMs nextAttemptAt) =
      .ok ((p.setNode nodeId .waitingRetry).moveStatus .waitingRetry) := by
  rw [advance_of_live hl, apply, requiredString_eq_ok hn]
  rfl

theorem advance_nodeSkipped {reason : String} (hl : p.status.isTerminal = false)
    (hn : nodeId ≠ "") : p.advance (.nodeSkipped nodeId reason) = .ok (p.setNode nodeId .skipped) := by
  rw [advance_of_live hl, apply, requiredString_eq_ok hn]
  rfl

theorem advance_edgeSettled {edgeId targetNodeId : String} {state : EdgeState}
    {sourceAttempt : Option ℕ} {evidence : WorkflowPayloadEvidence}
    (hl : p.status.isTerminal = false) (he : edgeId ≠ "") :
    p.advance (.edgeSettled edgeId state sourceAttempt targetNodeId evidence) =
      .ok { p with edgeStates := Function.update p.edgeStates edgeId (some state) } := by
  rw [advance_of_live hl, apply, requiredString_eq_ok he]
  rfl

/-- The last status of a node and of the run stays. -/
theorem moveStatus_setNode_moveStatus {nodeStatus nodeStatus' : WorkflowNodeStatus}
    {status status' : WorkflowRunStatus} (hs : status ≠ .cancelRequested) :
    ((((p.setNode nodeId nodeStatus).moveStatus status).setNode nodeId nodeStatus').moveStatus status') =
      (p.setNode nodeId nodeStatus').moveStatus status' := by
  by_cases hc : p.status = .cancelRequested
  · simp [moveStatus, setNode, hc]
  · simp [moveStatus, setNode, setStatus, hc, hs]

theorem advance_runSettled {status : SettledStatus}
    {usage : WorkflowUsageRollup} {cost : WorkflowCostRollup}
    (hl : p.status.isTerminal = false) (hc : p.status = .cancelRequested ↔ status.1 = .cancelled)
    (hq : status.1 = .succeeded ∨ status.1 = .failed → p.status ≠ .queued) :
    p.advance (.runSettled status failureCode output usage cost) = .ok (p.setStatus status) := by
  rw [advance_of_live hl, apply, refuseIf_eq_ok]
  · rfl
  · revert hl hc hq
    obtain ⟨status, ht⟩ := status
    revert ht
    cases status <;> cases p.status <;> decide

theorem advance_runCancelRequested {requestedAt : Time} (hl : p.status.isTerminal = false) :
    p.advance (.runCancelRequested requestedAt) = .ok (p.setStatus .cancelRequested) := by
  rw [advance_of_live hl, apply, refuseIf_eq_ok hl]
  rfl

/-- An attempt that is still open has no outcome. -/
def Idle (p : EventProjection) : Prop :=
  ∀ key status outcomePort, p.attempts key = some (status, outcomePort) → status.isOpen = true →
    outcomePort = none

theorem Idle.setAttempt (h : p.Idle) {attempt : ℕ}
    (hn : status.isOpen = true → outcomePort = none) :
    (p.setAttempt nodeId attempt status outcomePort).Idle := by
  intro key status' outcomePort' hk
  change Function.update p.attempts (attemptKey nodeId attempt) _ key = _ at hk
  by_cases hs : key = attemptKey nodeId attempt
  · subst hs
    rw [Function.update_self] at hk
    obtain ⟨rfl, rfl⟩ := Prod.mk.inj (Option.some.inj hk)
    exact hn
  · rw [Function.update_of_ne hs] at hk
    exact h key status' outcomePort' hk

theorem Idle.moveStatus (h : p.Idle) (status : WorkflowRunStatus) : (p.moveStatus status).Idle := by
  unfold EventProjection.moveStatus
  split
  · exact h
  · exact h

theorem Idle.of_advance {q : EventProjection} (h : p.Idle)
    (hq : p.advance event = .ok q) : q.Idle := by
  obtain ⟨-, hq⟩ := refuseIf_bind_eq_ok hq
  cases event with
  | runQueued => cases hq
  | nodeCancel | nodeResultLateIgnored | payloadRetentionApplied => exact Except.ok.inj hq ▸ h
  | runClaimed | runRecovered | runCancelRequested | runSettled =>
    obtain ⟨-, hq⟩ := refuseIf_bind_eq_ok hq
    rw [← Except.ok.inj hq]
    exact h
  | nodeReady =>
    obtain ⟨-, hq⟩ := refuseIf_bind_eq_ok hq
    obtain ⟨-, -, hq⟩ := bind_eq_ok hq
    rw [← Except.ok.inj hq]
    exact h
  | nodeRetryStarted | nodeSkipped | edgeSettled =>
    obtain ⟨-, -, hq⟩ := bind_eq_ok hq
    rw [← Except.ok.inj hq]
    exact h
  | nodeRetryScheduled nodeId =>
    obtain ⟨-, -, hq⟩ := bind_eq_ok hq
    rw [← Except.ok.inj hq]
    have hn : (p.setNode nodeId .waitingRetry).Idle := h
    exact hn.moveStatus _
  | nodeAttemptStarted nodeId attempt =>
    obtain ⟨-, hq⟩ := refuseIf_bind_eq_ok hq
    obtain ⟨-, -, hq⟩ := bind_eq_ok hq
    obtain ⟨-, -, hq⟩ := bind_eq_ok hq
    obtain ⟨-, hq⟩ := refuseIf_bind_eq_ok hq
    rw [← Except.ok.inj hq]
    exact h.setAttempt fun _ => rfl
  | nodeChildWaiting nodeId attempt childKind =>
    obtain ⟨-, -, hq⟩ := bind_eq_ok hq
    obtain ⟨-, -, hq⟩ := bind_eq_ok hq
    obtain ⟨-, hq⟩ := refuseIf_bind_eq_ok hq
    rw [← Except.ok.inj hq]
    have hw : ((p.setAttempt nodeId attempt .waitingChild none).setNode nodeId
        .waitingChild).Idle := h.setAttempt fun _ => rfl
    exact hw.moveStatus _
  | nodeAttemptSettled nodeId attempt status outcomePort =>
    obtain ⟨-, -, hq⟩ := bind_eq_ok hq
    obtain ⟨-, -, hq⟩ := bind_eq_ok hq
    obtain ⟨-, hq⟩ := refuseIf_bind_eq_ok hq
    split at hq
    · cases hq
    · next hc =>
      rw [← Except.ok.inj hq]
      have hs : ((p.setAttempt nodeId attempt status outcomePort).setNode nodeId
          status.toNode).Idle := h.setAttempt fun ho => absurd ho hc
      exact hs.moveStatus _

end EventProjection

/-! ### One operation -/

/-- Nodes and edges have names. -/
structure WorkflowGraph.Named (graph : WorkflowGraph) : Prop where
  nodes : ∀ node ∈ graph.nodes, node.id ≠ ""
  edges : ∀ edge ∈ graph.edges, edge.id ≠ ""

/-- The rows of a run over a graph: its nodes, and attempts of these. -/
structure StoredRun.OfGraph (graph : WorkflowGraph) (rows : StoredRun) : Prop where
  nodes : rows.nodes.map (·.nodeId) = graph.nodes.map (·.id)
  attempts : ∀ row ∈ rows.attempts, row.nodeId ∈ rows.nodes.map (·.nodeId) ∧
    1 ≤ row.attempt ∧ row.attempt < 2 ^ 31

namespace StoredRun.OfGraph

variable {graph : WorkflowGraph} {rows : StoredRun}

variable {change : NodeStateRow → NodeStateRow} {selects : NodeStateRow → Bool} {nodeId : String}

theorem updateNodes (h : rows.OfGraph graph) (hk : ∀ state, (change state).nodeId = state.nodeId) :
    OfGraph graph { rows with nodes := Table.update selects change rows.nodes } := by
  have hn : (Table.update selects change rows.nodes).map (·.nodeId) = rows.nodes.map (·.nodeId) :=
    Table.map_update _ hk
  refine ⟨hn.trans h.nodes, ?_⟩
  show ∀ row ∈ rows.attempts, row.nodeId ∈ (Table.update selects change rows.nodes).map (·.nodeId) ∧ _
  rw [hn]
  exact h.attempts

theorem setNode (h : rows.OfGraph graph) (hk : ∀ state, (change state).nodeId = state.nodeId) :
    (rows.setNode nodeId selects change).OfGraph graph :=
  h.updateNodes hk

theorem setAttempt (h : rows.OfGraph graph) {attempt : ℕ}
    {change : AttemptRow → AttemptRow} (hk : ∀ row, (change row).key = row.key) :
    (rows.setAttempt nodeId attempt change).OfGraph graph := by
  refine ⟨h.nodes, fun row hr => ?_⟩
  obtain ⟨old, hold, rfl⟩ := Table.mem_update.1 hr
  have hs : ∀ row, (change row).nodeId = row.nodeId ∧ (change row).attempt = row.attempt :=
    fun row => ⟨congrArg Prod.fst (hk row), congrArg Prod.snd (hk row)⟩
  split
  · rw [(hs old).1, (hs old).2]
    exact h.attempts old hold
  · exact h.attempts old hold

theorem addAttempt (h : rows.OfGraph graph) {row : AttemptRow}
    (hn : row.nodeId ∈ rows.nodes.map (·.nodeId)) (hpos : 1 ≤ row.attempt)
    (hlt : row.attempt < 2 ^ 31) :
    OfGraph graph { rows with attempts := rows.attempts ++ [row] } := by
  refine ⟨h.nodes, fun other ho => ?_⟩
  rcases List.mem_append.1 ho with ho | ho
  · exact h.attempts other ho
  · rw [List.mem_singleton.1 ho]
    exact ⟨hn, hpos, hlt⟩

theorem node_ne (h : rows.OfGraph graph) (hnam : graph.Named)
    (hn : nodeId ∈ rows.nodes.map (·.nodeId)) : nodeId ≠ "" := by
  rw [h.nodes] at hn
  obtain ⟨node, hm, rfl⟩ := List.mem_map.1 hn
  exact hnam.nodes node hm

theorem attempt (h : rows.OfGraph graph) {nodeId : String} {attempt : ℕ} {row : AttemptRow}
    (hr : rows.attempt? nodeId attempt = some row) :
    nodeId ∈ rows.nodes.map (·.nodeId) ∧ 1 ≤ attempt ∧ attempt < 2 ^ 31 := by
  obtain ⟨hm, hk⟩ := key_of_attempt? hr
  obtain ⟨hn, hpos, hlt⟩ := h.attempts row hm
  rw [show row.nodeId = nodeId from congrArg Prod.fst hk] at hn
  rw [show row.attempt = attempt from congrArg Prod.snd hk] at hpos hlt
  exact ⟨hn, hpos, hlt⟩

end StoredRun.OfGraph

/-- The projection takes the events a transaction appends and says what the rows it
leaves say. -/
def Written.Projects (graph : WorkflowGraph) (p : EventProjection) (rows : StoredRun)
    (written : Written Unit) : Prop :=
  ∃ q, written.events.foldlM EventProjection.advance p = .ok q ∧ q.Shows written.rows ∧
    written.rows.OfGraph graph ∧ written.rows.run.key = rows.run.key

section Operations

open EventProjection

variable {graph : WorkflowGraph} {p : EventProjection} {rows : StoredRun}

variable {rows' : StoredRun} {now recordedAt : Time} {nodeId : String}

/-- A transaction that appends nothing and changes nothing the projection shows. -/
theorem projects_silent (hp : p.Shows rows') (hrows : rows'.OfGraph graph)
    (hk : rows'.run.key = rows.run.key) :
    Written.Projects graph p rows { result := (), rows := rows' } :=
  ⟨p, rfl, hp, hrows, hk⟩

theorem projects_one {q : EventProjection} {event : WorkflowRunEvent}
    (he : p.advance event = .ok q) (hq : q.Shows rows') (hrows : rows'.OfGraph graph)
    (hk : rows'.run.key = rows.run.key) :
    Written.Projects graph p rows { result := (), rows := rows', events := [event] } := by
  refine ⟨q, ?_, hq, hrows, hk⟩
  rw [List.foldlM_cons, he]
  rfl

variable (hp : p.Shows rows) (hrows : rows.OfGraph graph)

include hp

theorem live_of_live (hl : rows.run.status.isTerminal = false) : p.status.isTerminal = false := by
  rw [hp.status, hl]

include hrows

/-! #### Claims -/

omit hp hrows in
theorem RunRow.claimable_live {run : RunRow} (h : run.claimable now = true) :
    run.status.isTerminal = false := by
  rw [RunRow.claimable, Bool.and_eq_true, Bool.or_eq_true, Bool.and_eq_true] at h
  rcases h.2 with hq | ⟨hs, -⟩
  · rw [of_decide_eq_true hq]
    rfl
  · revert hs
    cases run.status <;> decide

theorem projects_claimRun {read : RunRow} {workerId : String} {leaseExpiresAt : Time}
    {written : Written Bool} (hc : read.claimable now = true)
    (h : claimRun read workerId now leaseExpiresAt rows = .ok written) :
    Written.Projects graph p rows { result := (), rows := written.rows, events := written.events } := by
  rcases claimRun_cases h with rfl | ⟨-, hs, rfl⟩
  · exact projects_silent hp hrows rfl
  have hl : p.status.isTerminal = false :=
    live_of_live hp (by rw [hs]; exact RunRow.claimable_live hc)
  by_cases hq : read.status = .queued
  · have he : claimEvents read workerId leaseExpiresAt = [.runClaimed workerId leaseExpiresAt] := by
      unfold claimEvents
      split <;> simp [hq]
    rw [he]
    have hr : (rows.run.claimed read workerId now leaseExpiresAt).status = .running :=
      if_pos hq
    have hsho : (p.setStatus .running).Shows
        (rows.setRun fun run => run.claimed read workerId now leaseExpiresAt) :=
      hp.setStatus hr
    exact projects_one (advance_runClaimed (by rw [hp.status, hs, hq])) hsho ⟨hrows.1, hrows.2⟩ rfl
  · have hk : p.Shows (rows.setRun fun run => run.claimed read workerId now leaseExpiresAt) :=
      hp.setRun ((if_neg hq).trans hs.symm)
    unfold claimEvents
    split
    · rw [if_pos hq]
      exact projects_one (advance_runRecovered hl (by rwa [hp.status, hs])) hk
        ⟨hrows.1, hrows.2⟩ rfl
    · rw [if_neg hq]
      exact projects_silent hk ⟨hrows.1, hrows.2⟩ rfl

/-! #### Attempts -/

theorem projects_startAttempt [Host] (hnam : graph.Named) {write : StartAttemptWrite}
    {written : Written (Option AttemptRow)} (hn : ∃ node ∈ graph.nodes, node.id = write.nodeId)
    (ho : rows.run.status ∉ [.queued, .waitingAgent, .waitingApproval])
    (h : startAttempt write rows = .ok written) :
    Written.Projects graph p rows { result := (), rows := written.rows, events := written.events } := by
  rcases startAttempt_cases h with ⟨-, rfl⟩ | ⟨hc, hl, hpos, hlt, hf, rfl⟩
  · exact projects_silent hp hrows rfl
  have hm : write.nodeId ∈ rows.nodes.map (·.nodeId) := by
    obtain ⟨node, hn, hid⟩ := hn
    rw [hrows.nodes, ← hid]
    exact List.mem_map_of_mem hn
  have hne := hrows.node_ne hnam hm
  have hpfr : p.attempts (attemptKey write.nodeId write.attempt) = none := by
    rw [hp.attempt, hf]
    rfl
  -- The attempt starts from any projection the events before it lead to.
  have hsta : ∀ m : EventProjection, m.status = .running → m.attempts = p.attempts →
      [WorkflowRunEvent.nodeAttemptStarted write.nodeId write.attempt write.semanticGroup
          write.inputEvidence].foldlM advance m =
        .ok (((m.setAttempt write.nodeId write.attempt .running none).setNode write.nodeId
          .running).setStatus .running) := by
    intro m hs hatt
    rw [List.foldlM_cons, advance_nodeAttemptStarted (by rw [hs]; rfl) (by rw [hs]; decide) hne
      hpos hlt (by rw [hatt, hpfr])]
    rfl
  let ready := (p.setNode write.nodeId .ready).setStatus .running
  have he : write.events.foldlM advance p =
      .ok (((p.setStatus .running).setAttempt write.nodeId write.attempt .running none).setNode
        write.nodeId .running) := by
    rw [StartAttemptWrite.events, List.append_assoc, List.singleton_append, List.foldlM_cons,
      advance_nodeReady (live_of_live hp hl) (by rwa [hp.status]) hne]
    show List.foldlM advance ready _ = _
    split
    · rw [List.singleton_append, List.foldlM_cons, advance_nodeRetryStarted rfl hne]
      refine (hsta ((ready.setNode write.nodeId .running).setStatus .running) rfl rfl).trans ?_
      simp [ready, setNode, setStatus, setAttempt]
    · refine (hsta ready rfl rfl).trans ?_
      simp [ready, setNode, setStatus, setAttempt]
  -- The run was running or waiting for a retry.
  have hr : (if rows.run.status = .waitingRetry then { rows.run with status := .running }
      else rows.run).status = .running := by
    split
    · rfl
    · next hret =>
      revert hret ho hl hc
      cases rows.run.status <;> decide
  have hres : (p.setStatus .running).Shows (rows.setRun fun run =>
      if run.status = .waitingRetry then { run with status := .running } else run) :=
    hp.setStatus hr
  have hk : (if rows.run.status = .waitingRetry then { rows.run with status := .running }
      else rows.run).key = rows.run.key := by
    split <;> rfl
  refine ⟨_, he, ?_, ?_, hk⟩
  · have ha := @Shows.addAttempt _ _ hres write.row hf
    exact ha.setNode (fun _ => rfl) (fun _ => rfl) (StoredRun.any_node? hm)
  · have hresumedRows : (rows.setRun fun run =>
        if run.status = .waitingRetry then { run with status := .running } else run).OfGraph graph :=
      ⟨hrows.1, hrows.2⟩
    have ha := @StoredRun.OfGraph.addAttempt _ _ hresumedRows write.row hm hpos hlt
    exact ha.setNode fun _ => rfl

omit hp hrows in
theorem waitRun_status (childKind : ChildKind) (run : RunRow) :
    (waitRun childKind run).status =
      if run.status = .running then waitingStatus childKind else run.status := by
  cases childKind with
  | agent => simp only [waitRun, waitingStatus, apply_ite RunRow.status]
  | action => simp [waitRun, waitingStatus]
  | approval =>
    simp only [waitRun, waitingStatus, apply_ite RunRow.status]
    cases run.status <;> rfl

omit hp hrows in
theorem waitRun_key (childKind : ChildKind) (run : RunRow) : (waitRun childKind run).key = run.key := by
  cases childKind <;> simp only [waitRun] <;> split <;> rfl

theorem projects_markChildWaiting (hn : graph.Named) (hi : p.Idle) {write : ChildWrite}
    {written : Written Unit}
    (ho : rows.run.status ∈ [.running, .cancelRequested, waitingStatus write.childKind])
    (h : markChildWaiting write rows = .ok written) : written.Projects graph p rows := by
  obtain ⟨⟨row, hrow, hr⟩, rfl⟩ := markChildWaiting_cases h
  obtain ⟨hmem, hpos, hlt⟩ := hrows.attempt hrow
  have hpat : p.attempts (attemptKey write.nodeId write.attempt) = some (.running, row.outcomePort) := by
    rw [hp.attempt, hrow, Option.map_some, hr]
  have hport : row.outcomePort = none := hi _ _ _ hpat rfl
  have hl : rows.run.status.isTerminal = false := by
    revert ho
    cases write.childKind <;> cases rows.run.status <;> decide
  -- The status moves as the projection has it move.
  have hmov : (waitRun write.childKind rows.run).status =
      if rows.run.status = .cancelRequested then .cancelRequested
        else waitingStatus write.childKind := by
    rw [waitRun_status]
    simp only [List.mem_cons, List.not_mem_nil, or_false] at ho
    rcases ho with hs | hs | hs
    · simp [hs]
    · simp [hs]
    · rw [hs]
      cases write.childKind <;> rfl
  have hm : (p.setAttempt write.nodeId write.attempt .waitingChild none).Shows
      (rows.setAttempt write.nodeId write.attempt write.waitAttempt) :=
    hp.setAttempt (fun _ => rfl) hrow (Prod.ext rfl hport)
  have hmarkedRows : (rows.setAttempt write.nodeId write.attempt write.waitAttempt).OfGraph graph :=
    hrows.setAttempt fun _ => rfl
  have hw : ((p.setAttempt write.nodeId write.attempt .waitingChild none).setNode write.nodeId
      .waitingChild).Shows ((rows.setAttempt write.nodeId write.attempt write.waitAttempt).setNode
        write.nodeId (fun _ => true) write.waitNode) :=
    hm.setNode (fun _ => rfl) (fun _ => rfl) (StoredRun.any_node? hmem)
  have hwaitingRows : ((rows.setAttempt write.nodeId write.attempt write.waitAttempt).setNode
      write.nodeId (fun _ => true) write.waitNode).OfGraph graph :=
    hmarkedRows.setNode fun _ => rfl
  exact projects_one
    (advance_nodeChildWaiting (live_of_live hp hl) (hrows.node_ne hn hmem) hpos hlt hpat)
    (hw.moveStatus hmov) ⟨hwaitingRows.1, hwaitingRows.2⟩ (waitRun_key ..)

theorem projects_suspendApproval {recheckAt : Time} {written : Written Unit}
    (ho : rows.run.status ≠ .running) (h : suspendApproval nodeId recheckAt rows = .ok written) :
    written.Projects graph p rows := by
  rw [← Except.ok.inj h]
  have ha : p.Shows (rows.setNode nodeId (·.status = .waitingChild) fun state =>
      { state with nextAttemptAt := some recheckAt }) :=
    hp.updateNodes (fun _ => rfl) (fun _ => rfl)
  have harmedRows : (rows.setNode nodeId (·.status = .waitingChild) fun state =>
      { state with nextAttemptAt := some recheckAt }).OfGraph graph := hrows.setNode fun _ => rfl
  have hs : (waitRun .approval rows.run).status = rows.run.status := by
    rw [waitRun_status, if_neg ho]
  exact projects_silent (ha.setRun hs) ⟨harmedRows.1, harmedRows.2⟩ (waitRun_key ..)

theorem projects_wakeApproval {requestId : String} {written : Written Unit}
    (h : wakeApproval requestId now rows = .ok written) : written.Projects graph p rows := by
  rw [← Except.ok.inj h]
  exact projects_silent (hp.updateNodes (fun _ => rfl) fun _ => rfl) (hrows.updateNodes fun _ => rfl) rfl

omit hp hrows in
theorem advanceRunProgress_status {retrying : Bool} {run : RunRow} (hl : run.status.isTerminal = false) :
    (advanceRunProgress retrying run).status =
      if run.status = .cancelRequested then .cancelRequested
        else if retrying then .waitingRetry else .running := by
  unfold advanceRunProgress
  by_cases hc : run.status = .cancelRequested
  · simp [hc]
  · simp [hc, hl]

omit hp hrows in
theorem advanceRunProgress_key (retrying : Bool) (run : RunRow) :
    (advanceRunProgress retrying run).key = run.key := by
  unfold advanceRunProgress
  split <;> rfl

theorem projects_settleAttempt [Host] (hn : graph.Named) {prior : Option AttemptRow}
    {write : SettleAttemptWrite} {written : Written Unit} (hl : rows.run.status.isTerminal = false)
    (ho : (rows.attempt? write.nodeId write.attempt).any (·.status.isOpen) = true)
    (h : settleAttempt prior write rows = .ok written) : written.Projects graph p rows := by
  obtain ⟨read, backoffMs, nextAttemptAt, -, -, -, -, rfl⟩ := settleAttempt_cases h
  obtain ⟨row, hr, hrowOpen⟩ := (Option.any_eq_true _ _).1 ho
  obtain ⟨hmem, hpos, hlt⟩ := hrows.attempt hr
  have hne := hrows.node_ne hn hmem
  have hpli := live_of_live hp hl
  have hpat : p.attempts (attemptKey write.nodeId write.attempt) =
      some (row.status, row.outcomePort) := by
    rw [hp.attempt, hr, Option.map_some]
  -- The node ends in the status of the attempt, or waits for the retry.
  let nodeStatus := if nextAttemptAt.isSome then .waitingRetry else write.status.1.toNode
  let status : WorkflowRunStatus := if nextAttemptAt.isSome then .waitingRetry else .running
  let settled := p.setAttempt write.nodeId write.attempt write.status.1 write.outcomePort
  have he : (write.events backoffMs nextAttemptAt).foldlM advance p =
      .ok ((settled.setNode write.nodeId nodeStatus).moveStatus status) := by
    unfold SettleAttemptWrite.events
    rw [List.foldlM_cons, advance_nodeAttemptSettled hpli hne hpos hlt hpat hrowOpen write.status.2]
    cases nextAttemptAt with
    | none => rfl
    | some at' =>
      show List.foldlM advance ((settled.setNode write.nodeId _).moveStatus .running) [_] = _
      have hmovedLive : ((settled.setNode write.nodeId write.status.1.toNode).moveStatus
          .running).status.isTerminal = false := by
        unfold moveStatus
        split
        · exact hpli
        · rfl
      rw [List.foldlM_cons, advance_nodeRetryScheduled hmovedLive hne,
        moveStatus_setNode_moveStatus (by decide)]
      rfl
  have hs : settled.Shows (rows.setAttempt write.nodeId write.attempt
      (write.settle read backoffMs nextAttemptAt)) :=
    hp.setAttempt (fun _ => rfl) hr rfl
  have hsettledRows : (rows.setAttempt write.nodeId write.attempt
      (write.settle read backoffMs nextAttemptAt)).OfGraph graph := hrows.setAttempt fun _ => rfl
  -- Counting an action shows nothing.
  let counted := if read.childKind = some .action then
      (rows.setAttempt write.nodeId write.attempt
        (write.settle read backoffMs nextAttemptAt)).setRun countAction
    else rows.setAttempt write.nodeId write.attempt (write.settle read backoffMs nextAttemptAt)
  have hc : settled.Shows counted ∧ counted.OfGraph graph ∧
      counted.run.status = rows.run.status ∧ counted.run.key = rows.run.key ∧
      counted.nodes = rows.nodes := by
    by_cases ha : read.childKind = some .action
    · rw [show counted = _ from if_pos ha]
      exact ⟨hs.setRun rfl, ⟨hsettledRows.1, hsettledRows.2⟩, rfl, rfl, rfl⟩
    · rw [show counted = _ from if_neg ha]
      exact ⟨hs, hsettledRows, rfl, rfl, rfl⟩
  obtain ⟨hsho, hcountedRows, hsta, hk, hnod⟩ := hc
  have hnode : (counted.node? write.nodeId).any (fun _ => true) = true :=
    StoredRun.any_node? (by rw [hnod]; exact hmem)
  have hnodeShown : (settled.setNode write.nodeId nodeStatus).Shows
      (counted.setNode write.nodeId (fun _ => true) (write.settleNode nextAttemptAt)) :=
    hsho.setNode (fun _ => rfl) (fun _ => rfl) hnode
  have hnodeRows : (counted.setNode write.nodeId (fun _ => true)
      (write.settleNode nextAttemptAt)).OfGraph graph := hcountedRows.setNode fun _ => rfl
  have hm : (advanceRunProgress nextAttemptAt.isSome counted.run).status =
      if counted.run.status = .cancelRequested then .cancelRequested else status :=
    advanceRunProgress_status (by rw [hsta, hl])
  exact ⟨_, he, hnodeShown.moveStatus hm, ⟨hnodeRows.1, hnodeRows.2⟩,
    (advanceRunProgress_key ..).trans hk⟩

/-! #### Edges and nodes -/

theorem projects_settleEdge [Host] (hn : graph.Named) {transfer : EdgeTransferRow}
    {written : Written Unit} (he : ∃ edge ∈ graph.edges, edge.id = transfer.edgeId)
    (hl : rows.run.status.isTerminal = false) (h : settleEdge transfer rows = .ok written) :
    written.Projects graph p rows := by
  obtain ⟨hf, rfl⟩ := settleEdge_cases h
  obtain ⟨edge, hm, hid⟩ := he
  have hne : transfer.edgeId ≠ "" := hid ▸ hn.edges edge hm
  exact projects_one (advance_edgeSettled (live_of_live hp hl) hne) (hp.addEdge hf)
    ⟨hrows.1, hrows.2⟩ rfl

theorem projects_markNodeSkipped (hn : graph.Named) {reason : String} {written : Written Unit}
    (ho : (rows.node? nodeId).any skippable = true → rows.run.status.isTerminal = false)
    (h : markNodeSkipped nodeId reason recordedAt rows = .ok written) :
    written.Projects graph p rows := by
  rcases markNodeSkipped_cases h with rfl | ⟨⟨state, hsta, hs⟩, rfl⟩
  · exact projects_silent hp hrows rfl
  have ha : (rows.node? nodeId).any skippable = true := by rw [hsta]; exact hs
  obtain ⟨hm, hid⟩ := StoredRun.nodeId_of_node? hsta
  have hne : nodeId ≠ "" := hrows.node_ne hn (hid ▸ List.mem_map_of_mem hm)
  have hski : (p.setNode nodeId .skipped).Shows (rows.setNode nodeId skippable fun state =>
      { state with status := .skipped, settledAt := some recordedAt }) :=
    hp.setNode (fun _ => rfl) (fun _ => rfl) ha
  have hskippedRows : (rows.setNode nodeId skippable fun state =>
      { state with status := .skipped, settledAt := some recordedAt }).OfGraph graph :=
    hrows.setNode fun _ => rfl
  exact projects_one (advance_nodeSkipped (live_of_live hp (ho ha)) hne)
    ⟨hski.status, hski.nodes, hski.attempts, hski.edges⟩
    ⟨hskippedRows.1, hskippedRows.2⟩ rfl

/-! #### The run -/

theorem projects_recordAgentUsage {childRunId : String} {usage : AgentUsage} {written : Written Unit}
    (h : recordAgentUsage childRunId usage rows = .ok written) : written.Projects graph p rows := by
  obtain ⟨he, usage, cost, hr⟩ := recordAgentUsage_cases h
  refine ⟨p, by rw [he]; rfl, ?_, ?_, by rw [hr]; rfl⟩
  · rw [hr]
    exact hp.setRun rfl
  · rw [hr]
    exact ⟨hrows.1, hrows.2⟩

theorem projects_settleRun {before : RunRow} {write : SettleRunWrite} {written : Written RunRow}
    (ho : rows.run.status = before.status → before.status.isTerminal = false →
      (write.status.1 = .cancelled → before.status = .cancelRequested) ∧
        (write.status.1 = .succeeded ∨ write.status.1 = .failed → before.status ≠ .queued))
    (h : settleRun before write rows = .ok written) :
    Written.Projects graph p rows { result := (), rows := written.rows, events := written.events } := by
  rcases settleRun_cases h with ⟨hs, hn⟩ | ⟨hl, hc, hsta, rfl⟩
  · rw [hs, hn]
    exact projects_silent hp hrows rfl
  · obtain ⟨hcan, hq⟩ := ho hsta hl
    have hb : p.status = before.status := hp.status.trans hsta
    rw [← hb] at hl hc hcan hq
    exact projects_one (advance_runSettled hl ⟨hc, hcan⟩ hq) (hp.setStatus rfl)
      ⟨hrows.1, hrows.2⟩ rfl

theorem projects_requestCancellation {read : RunRow} {written : Written Bool}
    (h : requestCancellation read recordedAt rows = .ok written) :
    Written.Projects graph p rows { result := (), rows := written.rows, events := written.events } := by
  rcases requestCancellation_cases h with ⟨hs, hn⟩ | ⟨hl, -, rfl⟩
  · rw [hs, hn]
    exact projects_silent hp hrows rfl
  · exact projects_one (advance_runCancelRequested (live_of_live hp hl))
      ⟨rfl, hp.nodes, hp.attempts, hp.edges⟩ ⟨hrows.1, hrows.2⟩ rfl

/-! #### Retention -/

theorem projects_applyPayloadRetention {site : PayloadSite} {hash : String} {written : Written Unit}
    (h : applyPayloadRetention site hash rows = .ok written) : written.Projects graph p rows := by
  rw [← Except.ok.inj h]
  have he : p.Shows (rows.expire site) ∧ (rows.expire site).OfGraph graph ∧
      (rows.expire site).run.key = rows.run.key := by
    cases site with
    | runInput => exact ⟨⟨hp.status, hp.nodes, hp.attempts, hp.edges⟩, ⟨hrows.1, hrows.2⟩, rfl⟩
    | attemptInput | attemptOutput =>
      exact ⟨hp.setAttempt_same (fun _ => rfl) fun _ => rfl, hrows.setAttempt fun _ => rfl, rfl⟩
    | edge => exact ⟨hp.updateEdges (fun _ => rfl) fun _ => rfl, ⟨hrows.1, hrows.2⟩, rfl⟩
  obtain ⟨hs, hexpiredRows, hk⟩ := he
  have hr : p.advance (.payloadRetentionApplied hash) = .ok p := by
    unfold advance
    rw [refuseIf_eq_ok (by simp [WorkflowRunEvent.isRetention])]
    rfl
  refine projects_one hr ?_ ?_ ?_
  · show p.Shows (if _ then _ else _)
    split
    · exact hs.setRun rfl
    · exact hs
  · show StoredRun.OfGraph graph (if _ then _ else _)
    split
    · exact ⟨hexpiredRows.1, hexpiredRows.2⟩
    · exact hexpiredRows
  · show (if _ then _ else _ : StoredRun).run.key = _
    split
    · exact hk
    · exact hk

end Operations

/-! ### Runs -/

theorem isIdentifier_ne {s : String} (h : isIdentifier s = true) : s ≠ "" := by
  rintro rfl
  exact absurd h (by decide +kernel)

/-- The compiler checks names. -/
theorem named_of_accepted [Host] {catalog : Option WorkflowReferenceCatalog}
    (h : Accepted graph catalog = true) : graph.Named := by
  obtain ⟨report, hr, hv⟩ := exists_report_of_accepted h
  obtain ⟨hno, -⟩ := noIssues_of_valid hr hv
  refine ⟨fun node hn => isIdentifier_ne (hno.nodes node hn).identifier, fun edge he => ?_⟩
  obtain ⟨before, hi⟩ := hno.edges edge he
  exact isIdentifier_ne (edgeIssues_eq_nil hi).1.1

/-- **One orderly operation** appends events the projection takes to the new rows. -/
theorem projects_operation [Host] {rows : StoredRun}
    (hn : graph.Named) (hp : p.Shows rows) (hi : p.Idle) (hrows : rows.OfGraph graph)
    (hg : operation.OfGraph graph) (ho : operation.Orderly rows)
    {written : Written Unit} (h : operation.transaction rows = .ok written) :
    written.Projects graph p rows := by
  cases operation with
  | claim read workerId now leaseExpiresAt =>
    simp only [Operation.transaction] at h
    split at h
    · next hc =>
      obtain ⟨inner, hinn, rfl⟩ := done_cases h
      exact projects_claimRun hp hrows hc hinn
    · rw [← Except.ok.inj h]
      exact projects_silent hp hrows rfl
  | renewLease workerId leaseExpiresAt =>
    obtain ⟨inner, hinn, rfl⟩ := done_cases h
    unfold renewLease at hinn
    split at hinn
    · rw [← Except.ok.inj hinn]
      exact projects_silent ⟨hp.status, hp.nodes, hp.attempts, hp.edges⟩ ⟨hrows.1, hrows.2⟩ rfl
    · rw [← Except.ok.inj hinn]
      exact projects_silent hp hrows rfl
  | releaseLease workerId =>
    simp only [Operation.transaction, releaseLease] at h
    split at h
    · rw [← Except.ok.inj h]
      exact projects_silent ⟨hp.status, hp.nodes, hp.attempts, hp.edges⟩ ⟨hrows.1, hrows.2⟩ rfl
    · rw [← Except.ok.inj h]
      exact projects_silent hp hrows rfl
  | wakeApproval requestId now => exact projects_wakeApproval hp hrows h
  | settleRun before write =>
    obtain ⟨inner, hinn, rfl⟩ := done_cases h
    exact projects_settleRun hp hrows ho hinn
  | requestCancellation read recordedAt =>
    obtain ⟨inner, hinn, rfl⟩ := done_cases h
    exact projects_requestCancellation hp hrows hinn
  | applyPayloadRetention site hash => exact projects_applyPayloadRetention hp hrows h
  | work task =>
    cases task with
    | appendRunEvent | ignoreLateResult =>
      rw [← Except.ok.inj h]
      exact projects_one (EventProjection.advance_of_live (live_of_live hp ho)) hp hrows rfl
    | startAttempt write =>
      obtain ⟨inner, hinn, rfl⟩ := done_cases h
      exact projects_startAttempt hp hrows hn hg ho hinn
    | markChildWaiting write => exact projects_markChildWaiting hp hrows hn hi ho h
    | suspendApproval nodeId recheckAt => exact projects_suspendApproval hp hrows ho h
    | settleAttempt prior write =>
      exact projects_settleAttempt hp hrows hn ho.1 ho.2 h
    | settleEdge transfer => exact projects_settleEdge hp hrows hn hg ho h
    | markNodeSkipped nodeId reason recordedAt =>
      exact projects_markNodeSkipped hp hrows hn ho h
    | recordAgentUsage childRunId usage => exact projects_recordAgentUsage hp hrows h

/-- The stream of a run projects to its rows. -/
structure RunStream.Inv (graph : WorkflowGraph) (s : RunStream) : Prop where
  numbered : Numbered s.rows.run.key s.events
  rows : s.rows.OfGraph graph
  projects : ∃ p, projectWorkflowRunEvents s.events = .ok p ∧ p.Shows s.rows ∧ p.Idle

theorem RunStream.inv_create (run : RunRow) (hq : run.status = .queued) :
    (RunStream.create run).Inv run.graph where
  numbered := ⟨⟨run.mode, [], rfl⟩, rfl⟩
  rows := ⟨by simp [RunStream.create, createRun], fun _ h => (nomatch h)⟩
  projects := by
    refine ⟨{}, rfl, ⟨hq.symm, fun nodeId => ?_, fun _ => rfl, fun _ => rfl⟩,
      fun _ _ _ h => (nomatch h)⟩
    -- A new node is pending.
    unfold StoredRun.nodeStatus
    cases hn : (RunStream.create run).rows.node? nodeId with
    | none => rfl
    | some state =>
      obtain ⟨node, -, rfl⟩ := List.mem_map.1 (StoredRun.nodeId_of_node? hn).1
      rfl

theorem EventProjection.Idle.of_foldlM : ∀ {events : List WorkflowRunEvent} {p q : EventProjection},
    p.Idle → events.foldlM EventProjection.advance p = .ok q → q.Idle := by
  intro events
  induction events with
  | nil => exact fun h hq => Except.ok.inj hq ▸ h
  | cons event events ih =>
    intro p q h hq
    rw [List.foldlM_cons] at hq
    obtain ⟨m, hm, hq⟩ := bind_eq_ok hq
    exact ih (h.of_advance hm) hq

theorem RunStream.Inv.step [Host] {s : RunStream} (h : s.Inv graph)
    (hnam : graph.Named) (hg : operation.OfGraph graph)
    (ho : (operation.transaction s.rows >>= s.commit).isOk = true → operation.Orderly s.rows) :
    (s.step operation).Inv graph := by
  unfold RunStream.step
  split
  · next s' hs' =>
    -- The operation commits: its events project to its rows.
    rw [hs'] at ho
    obtain ⟨written, hw, hc⟩ := bind_eq_ok hs'
    obtain ⟨events, ha, hs⟩ := bind_eq_ok hc
    obtain rfl := Except.ok.inj hs
    obtain ⟨p, hpro, hp, hi⟩ := h.projects
    obtain ⟨q, hq, hsho, hrows, hk⟩ :=
      projects_operation hnam hp hi h.rows hg (ho rfl) hw
    obtain ⟨hn, he⟩ := h.numbered.commit hpro hq ha
    exact ⟨by rw [hk]; exact hn, hrows, q, he, hsho, hi.of_foldlM hq⟩
  · exact h

theorem RunStream.Inv.after [Host] (hn : graph.Named) :
    ∀ {operations : List Operation} {s : RunStream}, s.Inv graph →
      (∀ operation ∈ operations, operation.OfGraph graph) → s.Orderly operations →
        (s.after operations).Inv graph := by
  intro operations
  induction operations with
  | nil => exact fun h _ _ => h
  | cons operation operations ih =>
    intro s h hg ho
    rw [List.forall_mem_cons] at hg
    exact ih (h.step hn hg.1 ho.1) hg.2 ho.2

/-- **The events of an orderly run project to its rows.**  Operations of any number of
workers and callers, in any order, each of which finds on its commit what it has to,
leave a stream whose projection is the rows, with retention alone behind its end. -/
theorem projection_of_orderly [Host] (run : RunRow) (catalog : Option WorkflowReferenceCatalog)
    (haccepted : Accepted run.graph catalog = true) (hqueued : run.status = .queued)
    (operations : List Operation) (hgraph : ∀ operation ∈ operations, operation.OfGraph run.graph)
    (horderly : (RunStream.create run).Orderly operations) :
    ((RunStream.create run).after operations).Agrees := by
  obtain ⟨-, -, p, hp, hs, -⟩ :=
    RunStream.Inv.after (named_of_accepted haccepted) (RunStream.inv_create run hqueued) hgraph horderly
  exact ⟨⟨p, hp, hs⟩, onlyRetentionAfterEnd_of_project hp⟩

instance (rows : StoredRun) : (operation : Operation) → Decidable (operation.Orderly rows)
  | .work (.appendRunEvent ..) | .work (.ignoreLateResult ..) | .work (.settleEdge _) =>
    inferInstanceAs (Decidable (_ = false))
  | .work (.startAttempt _) => inferInstanceAs (Decidable (_ ∉ [_, _, _]))
  | .work (.markChildWaiting _) => inferInstanceAs (Decidable (_ ∈ [_, _, _]))
  | .work (.suspendApproval ..) => inferInstanceAs (Decidable (_ ≠ WorkflowRunStatus.running))
  | .work (.settleAttempt ..) => inferInstanceAs (Decidable (_ = false ∧ _ = true))
  | .work (.markNodeSkipped ..) => inferInstanceAs (Decidable (_ = true → _ = false))
  | .settleRun before write =>
    inferInstanceAs (Decidable (rows.run.status = before.status → before.status.isTerminal = false →
      (write.status.1 = .cancelled → before.status = .cancelRequested) ∧
        (write.status.1 = .succeeded ∨ write.status.1 = .failed → before.status ≠ .queued)))
  | .claim .. | .renewLease .. | .releaseLease _ | .work (.recordAgentUsage ..) | .wakeApproval ..
  | .requestCancellation .. | .applyPayloadRetention .. => instDecidableTrue

instance RunStream.decidableOrderly [Host] :
    (s : RunStream) → (operations : List Operation) → Decidable (s.Orderly operations)
  | _, [] => instDecidableTrue
  | s, operation :: operations =>
    let _ := decidableOrderly (s.step operation) operations
    inferInstanceAs (Decidable ((_ → _) ∧ _))

/-- A run of one input wired to one output. -/
def wireRun : RunRow :=
  { bareRun with
    graph := wireGraph "order.v1" [("order.v1", [])]
    compiledOrder := ["wire.in", "wire.out"] }

/-- The start of its input node. -/
def startWire : StartAttemptWrite where
  nodeId := "wire.in"
  nodeType := "input"
  attempt := 1
  semanticGroup := "tenant:run:wire.in"
  sideEffectIdempotencyKey := "tenant:run:wire.in"
  input := .null
  inputEvidence := absentEvidence "order.v1" ""
  schemaId := "order.v1"
  recordedAt := 1

/-- The end of its input node. -/
def settleWire : Operation :=
  .work (.settleAttempt (some startWire.row)
    { nodeId := "wire.in"
      attempt := 1
      status := ⟨.succeeded, rfl⟩
      outcomePort := some "data"
      outputEvidence := absentEvidence "order.v1" ""
      recordedAt := 3 })

/-- The row of the run while a worker holds it, and once a cancellation is requested. -/
def heldWire (status : WorkflowRunStatus) : RunRow :=
  { wireRun with status, leaseOwner := some "first", leaseExpiresAt := some 10 }

/-- A worker starts the input node, a caller cancels the run. -/
def cancelledWire : List Operation :=
  [.claim wireRun "first" 0 10, .work (.startAttempt startWire),
    .requestCancellation (heldWire .running) 2]

/-- Another worker takes over and settles the run. -/
def takenOverWire : List Operation :=
  [.claim (heldWire .cancelRequested) "second" 10 20,
    .settleRun { heldWire .cancelRequested with leaseOwner := some "second" }
      { status := ⟨.cancelled, rfl⟩
        failureCode := none
        output := absentEvidence "order.v1" ""
        usage := {}
        cost := {}
        recordedAt := 11 }]

/-- The first worker settles its attempt before another one takes over. -/
theorem projection_of_orderly_wire :
    (@RunStream.after plainHost (RunStream.create wireRun)
      (cancelledWire ++ settleWire :: takenOverWire)).Agrees := by
  let _ := plainHost
  refine projection_of_orderly wireRun none (by decide +kernel) rfl _ ?_ (by decide +kernel)
  simp [cancelledWire, settleWire, takenOverWire, Operation.OfGraph, startWire, wireRun, wireGraph]

/-- **A stale worker breaks the projection.**  The first worker settles its attempt
after the other one settled the run: `settleAttempt` looks at the attempt alone, and
the projection refuses an event behind the end of the run. -/
theorem projection_of_stale_worker :
    ¬ ∀ (run : RunRow) (catalog : Option WorkflowReferenceCatalog),
      @Accepted plainHost run.graph catalog = true → run.status = .queued →
      ∀ operations : List Operation, (∀ operation ∈ operations, operation.OfGraph run.graph) →
        (@RunStream.after plainHost (RunStream.create run) operations).Agrees := by
  let _ := plainHost
  intro ha
  obtain ⟨⟨p, hp, -⟩, -⟩ := ha wireRun none (by decide +kernel) rfl
    (cancelledWire ++ takenOverWire ++ [settleWire])
    (by simp [cancelledWire, settleWire, takenOverWire, Operation.OfGraph, startWire, wireRun, wireGraph])
  have he : (projectWorkflowRunEvents ((RunStream.create wireRun).after
      (cancelledWire ++ takenOverWire ++ [settleWire])).events).isOk = false := by
    decide +kernel
  rw [hp] at he
  cases he

end Flowdular.Workflows
