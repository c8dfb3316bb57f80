/-
# Runs and invocations settle once

Workers and callers take turns transaction by transaction.  `cancelRun` reads the status of a
run in one statement and writes it in another that does not look again; where the run is still
open at that moment, a run or an invocation is settled once, by the worker that holds it or by
a cancellation, its one event names how, and a run has a cost where it succeeded
(`jobs_settle_once`).  Each row moves as a job that is leased (`Lease`), at the time of its
step.
-/

import Flowdular.Agents.Jobs
import Flowdular.Lib.Lease

namespace Flowdular.Agents

open Lib Workflows
open Prog (History Recorded recorder recorder_signed_enter recorder_signed_next Along along_bind along_need_bind)

/-! ### What is said of the tables -/

/-- A run, or an invocation. -/
inductive Kind
  | run
  | action
deriving DecidableEq

/-- The subject of the events. -/
def Kind.subjectType : Kind → String
  | .run => "agent-run"
  | .action => "agent-action"

/-- How an event of its action says a row was settled, if it says so. -/
def Kind.settlement : Kind → String → Option Status
  | .run, what =>
    if what = "agent-run.succeeded" then some .succeeded
    else if what = "agent-run.failed" then some .failed
    else if what = "agent-run.cancelled" then some .cancelled
    else none
  | .action, what =>
    if what = "agent-action.succeeded" then some .succeeded
    else if what = "agent-action.failed" then some .failed
    else if what = "agent-action.cancelled" then some .cancelled
    else none

/-- A row, by its table and its key. -/
structure JobKey where
  kind : Kind
  tenantId : String
  id : String
deriving DecidableEq

/-- How an event says a row was settled, if it says so. -/
def AuditEvent.settles (e : AuditEvent) (k : JobKey) : Option Status :=
  if e.tenantId = k.tenantId ∧ e.subjectType = k.kind.subjectType ∧ e.subjectId = k.id then
    k.kind.settlement e.action
  else none

/-- The events that say a row was settled. -/
def AgentTables.settlements (s : AgentTables) (k : JobKey) : List Status :=
  s.audit.filterMap fun e => e.settles k

/-- How a row was settled. -/
def Status.settlement (status : Status) : List Status :=
  if status.terminal then [status] else []

/-- The key of a row. -/
def JobRow.key {β α : Type} (row : JobRow β α) (kind : Kind) : JobKey :=
  ⟨kind, row.tenantId, row.id⟩

/-- Each row that is settled has one event that says how, and a run has one cost where it
succeeded. -/
structure SettledOnce (s : AgentTables) : Prop where
  runs : ∀ row ∈ s.runs, s.settlements (row.key .run) = row.status.settlement
  actions : ∀ row ∈ s.actions, s.settlements (row.key .action) = row.status.settlement
  costs : ∀ row ∈ s.runs,
    (s.costs.countP fun c => c.runId = row.id) = if row.status = .succeeded then 1 else 0

/-- The operation settles a row so, of the worker that holds it. -/
def JobRequest.settles (r : JobRequest) (k : JobKey) (status : Status) (holder : Option String) : Bool :=
  match r with
  | .completeRun tenantId runId workerId _ =>
    k = ⟨.run, tenantId, runId⟩ && status = .succeeded && holder = some workerId
  | .failRun tenantId runId workerId _ _ =>
    k = ⟨.run, tenantId, runId⟩ && status = .failed && holder = some workerId
  | .cancelRun tenantId _ runId => k = ⟨.run, tenantId, runId⟩ && status = .cancelled
  | .completeAction tenantId invocationId workerId _ _ _ =>
    k = ⟨.action, tenantId, invocationId⟩ && status = .succeeded && holder = some workerId
  | .failAction tenantId invocationId workerId _ _ _ =>
    k = ⟨.action, tenantId, invocationId⟩ && status = .failed && holder = some workerId
  | .cancelAction tenantId invocationId _ _ =>
    k = ⟨.action, tenantId, invocationId⟩ && status = .cancelled
  | _ => false

/-- The operation gives a row back. -/
def JobRequest.releases (r : JobRequest) (k : JobKey) (holder : String) : Bool :=
  match r with
  | .releaseAction tenantId invocationId workerId =>
    k = ⟨.action, tenantId, invocationId⟩ && holder = workerId
  | _ => false

/-- What is said of a row behind a step: what is settled stays as it is, a row is settled by
its holder or cancelled, and a lease that has not run out stays with its holder until the row
is settled or given back. -/
structure RowStep {β α : Type} (now : ℤ) (requests : List JobRequest) (kind : Kind)
    (row row' : JobRow β α) : Prop where
  key : row'.key kind = row.key kind
  terminal : row.status.terminal = true → row' = row
  settled : row.status.terminal = false → row'.status.terminal = true →
    ∃ r ∈ requests, r.settles (row.key kind) row'.status (row.lease.map (·.owner)) = true
  lease : ∀ l, row.lease = some l → now ≤ l.expiresAt →
    (∃ l', row'.lease = some l' ∧ l'.owner = l.owner) ∨ row'.status.terminal = true ∨
      ∃ r ∈ requests, r.releases (row.key kind) l.owner = true

/-- What is said of a step. -/
structure JobStep (s s' : AgentTables) (ps : List JobProcess) : Prop where
  runs : ∀ row ∈ s.runs, ∃ row' ∈ s'.runs, RowStep s'.clock (ps.map (·.1)) .run row row'
  actions : ∀ row ∈ s.actions, ∃ row' ∈ s'.actions, RowStep s'.clock (ps.map (·.1)) .action row row'

/-- The call was answered, and settled a row. -/
def settledBy (k : JobKey) (entry : AgentEntry) : Bool :=
  match entry with
  | ⟨.completeRun tenantId runId _ _ _, .ok _⟩ => k = ⟨.run, tenantId, runId⟩
  | ⟨.failRun tenantId runId _ _ _ _ _, .ok _⟩ => k = ⟨.run, tenantId, runId⟩
  | ⟨.cancelRun2 tenantId runId _ _ _, .ok _⟩ => k = ⟨.run, tenantId, runId⟩
  | ⟨.completeAction tenantId invocationId _ _ _ _, .ok true⟩ => k = ⟨.action, tenantId, invocationId⟩
  | ⟨.failAction tenantId invocationId _ _ _ _, .ok true⟩ => k = ⟨.action, tenantId, invocationId⟩
  | ⟨.cancelAction2 tenantId invocationId _ _, .ok true⟩ => k = ⟨.action, tenantId, invocationId⟩
  | _ => false

/-- What all processes were answered. -/
def entriesOf (ps : List JobProcess) : List AgentEntry :=
  ps.flatMap fun p => p.2.history

/-- How many operations were told that they settled a row. -/
def told (ps : List JobProcess) (k : JobKey) : ℕ :=
  (entriesOf ps).countP (settledBy k)

/-- What is said of the tables and the operations: a row is settled once, and one operation is
told so. -/
structure JobsSettled (s : AgentTables) (ps : List JobProcess) : Prop where
  once : SettledOnce s
  runs : ∀ row ∈ s.runs, told ps (row.key .run) ≤ row.status.settlement.length
  actions : ∀ row ∈ s.actions, told ps (row.key .action) ≤ row.status.settlement.length

/-! ### The condition -/

/-- A cancellation is written over a run that is open. -/
def cancelsOpen (s : AgentTables) (p : JobProcess) : Bool :=
  match p.2.rest with
  | .call (.cancelRun2 tenantId runId _ _ _) _ =>
    s.runs.all fun row => !row.is tenantId runId || row.unsettled
  | _ => true

/-- `cancelsOpen`, as a condition of the machine. -/
def CancelsOpen : Machine.Condition AgentTables JobProcess :=
  fun s _ p => cancelsOpen s p = true

/-! ### Rows as jobs -/

/-- A row as a job that is leased. -/
def JobRow.job {β α : Type} (row : JobRow β α) : Job String Status ℤ where
  lease := row.lease.map fun l => (l.owner, l.expiresAt)
  outcome := if row.status.terminal then some row.status else none

/-- The row a call is about, and what it does to it. -/
def AgentCall.act : AgentCall → Option (JobKey × Job.Act String Status ℤ)
  | .claimRun tenantId runId workerId _ leaseExpiresAt _ =>
    some (⟨.run, tenantId, runId⟩, .claim workerId leaseExpiresAt)
  | .renewLease tenantId runId workerId leaseExpiresAt =>
    some (⟨.run, tenantId, runId⟩, .renew workerId leaseExpiresAt)
  | .completeRun tenantId runId workerId _ _ =>
    some (⟨.run, tenantId, runId⟩, .settle workerId .succeeded)
  | .failRun tenantId runId workerId _ _ _ _ => some (⟨.run, tenantId, runId⟩, .settle workerId .failed)
  | .cancelRun2 tenantId runId _ _ _ => some (⟨.run, tenantId, runId⟩, .cancel .cancelled)
  | .claimAction tenantId invocationId workerId _ leaseExpiresAt _ =>
    some (⟨.action, tenantId, invocationId⟩, .claim workerId leaseExpiresAt)
  | .renewActionLease tenantId invocationId workerId leaseExpiresAt =>
    some (⟨.action, tenantId, invocationId⟩, .renew workerId leaseExpiresAt)
  | .releaseAction tenantId invocationId workerId =>
    some (⟨.action, tenantId, invocationId⟩, .release workerId)
  | .completeAction tenantId invocationId workerId _ _ _ =>
    some (⟨.action, tenantId, invocationId⟩, .settle workerId .succeeded)
  | .failAction tenantId invocationId workerId _ _ _ =>
    some (⟨.action, tenantId, invocationId⟩, .settle workerId .failed)
  | .cancelAction2 tenantId invocationId _ _ => some (⟨.action, tenantId, invocationId⟩, .cancel .cancelled)
  | _ => none

section Rows

variable {β α : Type} {row : JobRow β α} {w code : String} {message : Option String} {now till : ℤ}
  {output : α} {completedAt : ℤ}

theorem JobRow.lease_none (h : row.status ≠ .running) : row.lease = none := by
  cases hl : row.lease with
  | none => rfl
  | some l =>
    refine absurd (row.leased.2 ?_) h
    rw [hl]
    rfl

/-- A worker claims a row as a job. -/
theorem step_claimed (h : row.claimable now = true) :
    Job.Step now (.claim w till) row.job (row.claimed w now till).job := by
  have ho : row.status.terminal = false := by
    unfold JobRow.claimable at h
    cases hs : row.status <;> simp [hs, Status.terminal] at h ⊢
  rw [JobRow.job, JobRow.job, ho]
  refine .claim fun l hl => ?_
  obtain ⟨l, hlea, rfl⟩ := Option.map_eq_some_iff.1 hl
  rw [JobRow.claimable, Bool.or_eq_true] at h
  rcases h with h | h
  · have hn : row.lease = none := JobRow.lease_none (by rw [of_decide_eq_true h]; decide)
    rw [hn] at hlea
    cases hlea
  · rw [hlea, Bool.and_eq_true] at h
    exact of_decide_eq_true h.2

/-- A row that is held is open, and leased to the worker. -/
theorem JobRow.heldBy_iff : row.heldBy w = true ↔
    row.status = .running ∧ ∃ l, row.lease = some l ∧ l.owner = w := by
  rw [JobRow.heldBy, Bool.and_eq_true, decide_eq_true_eq, Option.any_eq_true]
  simp

theorem job_of_held (h : row.heldBy w = true) : ∃ till, row.job = ⟨some (w, till), none⟩ := by
  obtain ⟨hs, l, hl, rfl⟩ := JobRow.heldBy_iff.1 h
  exact ⟨l.expiresAt, by rw [JobRow.job, hl, hs]; rfl⟩

theorem step_renewed (h : row.heldBy w = true) :
    Job.Step now (.renew w till) row.job (row.renewed till).job := by
  obtain ⟨till', hj⟩ := job_of_held h
  obtain ⟨hs, l, hl, rfl⟩ := JobRow.heldBy_iff.1 h
  have hj' : (row.renewed till).job =
      ⟨(row.lease.map fun l => { l with expiresAt := till }).map fun l => (l.owner, l.expiresAt),
        if row.status.terminal then some row.status else none⟩ := rfl
  rw [hl, hs] at hj'
  rw [hj, hj']
  exact .renew

theorem step_released (h : row.heldBy w = true) : Job.Step now (.release w) row.job row.released.job := by
  obtain ⟨till', hj⟩ := job_of_held h
  rw [hj]
  exact .release

theorem step_succeeded (h : row.heldBy w = true) :
    Job.Step now (.settle w .succeeded) row.job (row.succeeded output completedAt).job := by
  obtain ⟨till', hj⟩ := job_of_held h
  rw [hj]
  exact .settle

theorem step_failed (h : row.heldBy w = true) :
    Job.Step now (.settle w .failed) row.job (row.failed code message completedAt).job := by
  obtain ⟨till', hj⟩ := job_of_held h
  rw [hj]
  exact .settle

theorem step_cancelled (h : row.unsettled = true) :
    Job.Step now (.cancel .cancelled) row.job (row.cancelled code message completedAt).job := by
  have ho : row.status.terminal = false := by
    unfold JobRow.unsettled at h
    cases hs : row.status <;> simp [hs, Status.terminal] at h ⊢
  have hj : row.job = ⟨row.lease.map fun l => (l.owner, l.expiresAt), none⟩ := by
    rw [JobRow.job, ho]
    rfl
  rw [hj]
  exact .cancel

/-- A row that moves is open. -/
theorem open_of_step {a : Job.Act String Status ℤ} {j : Job String Status ℤ}
    (h : Job.Step now a row.job j) : row.status.terminal = false := by
  have hn := h.unsettled
  cases ht : row.status.terminal with
  | false => rfl
  | true =>
    rw [JobRow.job, ht] at hn
    cases hn

end Rows

/-! ### What a call does to a row -/

/-- What a call leaves of a row: it moves as a job, and the event says how it was settled. -/
structure RowEffect {β α : Type} (s s' : AgentTables) (act : Option (JobKey × Job.Act String Status ℤ))
    (kind : Kind) (row row' : JobRow β α) : Prop where
  key : row'.key kind = row.key kind
  moves : row' = row ∨ ∃ a, act = some (row.key kind, a) ∧ Job.Step s.clock a row.job row'.job
  settlements : s'.settlements (row.key kind) =
    s.settlements (row.key kind) ++ if row.status.terminal then [] else row'.status.settlement

/-- What a call leaves of the rows of a table. -/
def RowEffects {β α : Type} (s s' : AgentTables) (act : Option (JobKey × Job.Act String Status ℤ))
    (kind : Kind) (rows rows' : List (JobRow β α)) : Prop :=
  ∃ f, rows' = rows.map f ∧ ∀ row ∈ rows, RowEffect s s' act kind row (f row)

section Effects

variable {β α : Type} {s s' : AgentTables} {kind : Kind} {act : Option (JobKey × Job.Act String Status ℤ)}
  {rows : List (JobRow β α)} {selects : JobRow β α → Bool} {change : JobRow β α → JobRow β α}
  {tenantId id : String}

theorem Status.settlement_open {status : Status} (h : status.terminal = false) : status.settlement = [] := by
  rw [Status.settlement, h]
  rfl

theorem Status.settlement_terminal {status : Status} (h : status.terminal = true) :
    status.settlement = [status] := by
  rw [Status.settlement, h]
  rfl

theorem effect_same {row : JobRow β α} (h : s'.settlements (row.key kind) = s.settlements (row.key kind)) :
    RowEffect s s' act kind row row := by
  refine ⟨rfl, .inl rfl, ?_⟩
  rw [h]
  cases ht : row.status.terminal with
  | true => simp
  | false => simp [Status.settlement_open ht]

theorem JobRow.is_iff {row : JobRow β α} : row.is tenantId id = true ↔ row.key kind = ⟨kind, tenantId, id⟩ := by
  simp [JobRow.is, JobRow.key]

/-- **An update that settles nothing.** -/
theorem effects_open (hset : ∀ k, s'.settlements k = s.settlements k)
    (h : ∀ row, selects row = true → row.is tenantId id = true ∧ (change row).key kind = row.key kind ∧
      (change row).status.terminal = false ∧
      ∃ a, act = some (⟨kind, tenantId, id⟩, a) ∧ Job.Step s.clock a row.job (change row).job) :
    RowEffects s s' act kind rows (Table.update selects change rows) := by
  refine ⟨_, rfl, fun row hr => ?_⟩
  split_ifs with hsel
  · obtain ⟨his, hk, ho, a, ha, hs⟩ := h row hsel
    refine ⟨hk, .inr ⟨a, ?_, hs⟩, ?_⟩
    · rw [JobRow.is_iff.1 his]
      exact ha
    · rw [hset, Status.settlement_open ho]
      simp
  · exact effect_same (hset _)

/-- **An update that settles a row**, and the event that says so. -/
theorem effects_settled {status : Status} (ht : status.terminal = true)
    (hset : ∀ k, s'.settlements k = s.settlements k ++ if k = ⟨kind, tenantId, id⟩ then [status] else [])
    (hc : ∀ row ∈ rows, row.is tenantId id = true → selects row = true)
    (h : ∀ row ∈ rows, selects row = true → row.is tenantId id = true ∧ (change row).key kind = row.key kind ∧
      (change row).status = status ∧
      ∃ a, act = some (⟨kind, tenantId, id⟩, a) ∧ Job.Step s.clock a row.job (change row).job) :
    RowEffects s s' act kind rows (Table.update selects change rows) := by
  refine ⟨_, rfl, fun row hrow => ?_⟩
  split_ifs with hsel
  · obtain ⟨his, hk, hsta, a, ha, hs⟩ := h row hrow hsel
    have hr : row.key kind = ⟨kind, tenantId, id⟩ := JobRow.is_iff.1 his
    refine ⟨hk, .inr ⟨a, ?_, hs⟩, ?_⟩
    · rw [hr]
      exact ha
    · rw [hset, hr, if_pos rfl, open_of_step hs, hsta, Status.settlement_terminal ht]
      rfl
  · have hne : row.key kind ≠ ⟨kind, tenantId, id⟩ :=
      fun hk => hsel (hc row hrow (JobRow.is_iff.2 hk))
    refine effect_same ?_
    rw [hset, if_neg hne, List.append_nil]

theorem effects_same (h : ∀ row ∈ rows, s'.settlements (row.key kind) = s.settlements (row.key kind)) :
    RowEffects s s' act kind rows rows :=
  ⟨id, (List.map_id rows).symm, fun row hr => effect_same (h row hr)⟩

/-- At most one row is selected by its key. -/
theorem countP_le_one (hi : (rows.map (·.id)).Nodup)
    (h : ∀ row, selects row = true → row.is tenantId id = true) : rows.countP selects ≤ 1 := by
  have hle : rows.countP selects ≤ rows.countP fun row => row.id = id := by
    refine List.countP_mono_left fun row _ hs => ?_
    have his := h row hs
    rw [JobRow.is, Bool.and_eq_true] at his
    exact his.2
  have hc : (rows.countP fun row => row.id = id) = (rows.map (·.id)).count id := by
    rw [List.count, List.countP_map]
    exact List.countP_congr fun row _ => by simp
  have ho := List.nodup_iff_count_le_one.1 hi id
  omega

/-- Where one row is selected by its key, every row of the key is. -/
theorem selected_of_countP (hi : (rows.map (·.id)).Nodup) (hc : rows.countP selects = 1)
    (h : ∀ row, selects row = true → row.is tenantId id = true) :
    ∀ row ∈ rows, row.is tenantId id = true → selects row = true := by
  intro row hr his
  have hp : 0 < rows.countP selects := by omega
  obtain ⟨row', hr', hs⟩ := List.countP_pos_iff.1 hp
  have his' := h row' hs
  have hid : row'.id = row.id := by
    simp only [JobRow.is, Bool.and_eq_true, decide_eq_true_eq] at his his'
    exact his'.2.trans his.2.symm
  rw [← List.inj_on_of_nodup_map hi hr' hr hid]
  exact hs

end Effects

/-! ### The events -/

/-- The event says that a row was settled so, and says nothing of any other. -/
def AuditEvent.Tells (e : AuditEvent) (k : JobKey) (status : Status) : Prop :=
  ∀ k', e.settles k' = if k' = k then some status else none

/-- The event says of no row that it was settled. -/
def AuditEvent.Quiet (e : AuditEvent) : Prop :=
  ∀ k, e.settles k = none

section Events

variable {s : AgentTables} {k : JobKey} {e : AuditEvent} {status : Status} {tenantId actorId id : String}
  {what : String} {metadata : List (String × Json)} {occurredAt : ℤ}

theorem settles_runEvent : (runEvent tenantId actorId what id metadata occurredAt).settles k =
    if k = ⟨.run, tenantId, id⟩ then Kind.settlement .run what else none := by
  obtain ⟨kind, t, i⟩ := k
  cases kind with
  | run =>
    unfold AuditEvent.settles runEvent
    refine if_congr ?_ rfl rfl
    simp only [Kind.subjectType, JobKey.mk.injEq, true_and]
    exact ⟨fun h => ⟨h.1.symm, h.2.symm⟩, fun h => ⟨h.1.symm, h.2.symm⟩⟩
  | action => simp [AuditEvent.settles, runEvent, Kind.subjectType]

theorem settles_actionEvent : (actionEvent tenantId actorId what id metadata occurredAt).settles k =
    if k = ⟨.action, tenantId, id⟩ then Kind.settlement .action what else none := by
  obtain ⟨kind, t, i⟩ := k
  cases kind with
  | action =>
    unfold AuditEvent.settles actionEvent
    refine if_congr ?_ rfl rfl
    simp only [Kind.subjectType, JobKey.mk.injEq, true_and]
    exact ⟨fun h => ⟨h.1.symm, h.2.symm⟩, fun h => ⟨h.1.symm, h.2.symm⟩⟩
  | run => simp [AuditEvent.settles, actionEvent, Kind.subjectType]

theorem tells_runEvent (h : Kind.settlement .run what = some status) :
    (runEvent tenantId actorId what id metadata occurredAt).Tells ⟨.run, tenantId, id⟩ status := by
  intro k
  rw [settles_runEvent, h]

theorem tells_actionEvent (h : Kind.settlement .action what = some status) :
    (actionEvent tenantId actorId what id metadata occurredAt).Tells ⟨.action, tenantId, id⟩ status := by
  intro k
  rw [settles_actionEvent, h]

theorem quiet_runEvent (h : Kind.settlement .run what = none) :
    (runEvent tenantId actorId what id metadata occurredAt).Quiet := by
  intro k
  rw [settles_runEvent, h, ite_self]

theorem quiet_actionEvent (h : Kind.settlement .action what = none) :
    (actionEvent tenantId actorId what id metadata occurredAt).Quiet := by
  intro k
  rw [settles_actionEvent, h, ite_self]

theorem settlements_append :
    (s.appendAuditEvent e).settlements k = s.settlements k ++ (e.settles k).toList := by
  rw [AgentTables.settlements, AgentTables.appendAuditEvent, List.filterMap_append]
  rw [AgentTables.settlements, List.filterMap_cons]
  cases e.settles k <;> rfl

theorem settlements_tells {k' : JobKey} (h : e.Tells k' status) :
    (s.appendAuditEvent e).settlements k = s.settlements k ++ if k = k' then [status] else [] := by
  rw [settlements_append, h k]
  split_ifs <;> rfl

theorem settlements_quiet (h : e.Quiet) : (s.appendAuditEvent e).settlements k = s.settlements k := by
  rw [settlements_append, h k]
  exact List.append_nil _

end Events

/-! ### The calls of an operation -/

/-- The calls an operation may make: those of its own row and worker, with the event that says
what is done, and a claim at a time that was read. -/
def JobRequest.makes (r : JobRequest) (history : History AgentCall (Prog.Reply AgentCall.Answer))
    (c : AgentCall) : Prop :=
  match c with
  | .readClock => True
  | .cancelRun1 .. => True
  | .getAction .. => True
  | .claimRun tenantId runId workerId now _ audit =>
    (∃ leaseMs, r = .claimRun tenantId runId workerId leaseMs) ∧
      (⟨.readClock, .ok now⟩ : AgentEntry) ∈ history ∧ audit.Quiet
  | .renewLease tenantId runId workerId _ => ∃ leaseMs, r = .renewLease tenantId runId workerId leaseMs
  | .completeRun tenantId runId workerId result audit =>
    r = .completeRun tenantId runId workerId result ∧ audit.Tells ⟨.run, tenantId, runId⟩ .succeeded
  | .failRun tenantId runId workerId code message _ audit =>
    r = .failRun tenantId runId workerId code message ∧ audit.Tells ⟨.run, tenantId, runId⟩ .failed
  | .cancelRun2 tenantId runId _ _ audit =>
    (∃ actorId, r = .cancelRun tenantId actorId runId) ∧ audit.Tells ⟨.run, tenantId, runId⟩ .cancelled
  | .claimAction tenantId invocationId workerId now _ audit =>
    (∃ leaseMs, r = .claimAction tenantId invocationId workerId leaseMs) ∧
      (⟨.readClock, .ok now⟩ : AgentEntry) ∈ history ∧ audit.Quiet
  | .renewActionLease tenantId invocationId workerId _ =>
    ∃ leaseMs, r = .renewActionLease tenantId invocationId workerId leaseMs
  | .releaseAction tenantId invocationId workerId => r = .releaseAction tenantId invocationId workerId
  | .completeAction tenantId invocationId workerId output _ audit =>
    (∃ actorId metadata, r = .completeAction tenantId invocationId workerId actorId output metadata) ∧
      audit.Tells ⟨.action, tenantId, invocationId⟩ .succeeded
  | .failAction tenantId invocationId workerId code _ audit =>
    (∃ actorId metadata, r = .failAction tenantId invocationId workerId actorId code metadata) ∧
      audit.Tells ⟨.action, tenantId, invocationId⟩ .failed
  | .cancelAction2 tenantId invocationId _ audit =>
    (∃ actorId metadata, r = .cancelAction tenantId invocationId actorId metadata) ∧
      audit.Tells ⟨.action, tenantId, invocationId⟩ .cancelled

section Programs

variable {r : JobRequest} {history : History AgentCall (Prog.Reply AgentCall.Answer)}

theorem along_last {ok : History AgentCall (Prog.Reply AgentCall.Answer) → AgentCall → Prop} {c : AgentCall}
    {α : Type} {f : c.Answer → α} (hc : ok history c) :
    Along ok history (agentCall c >>= fun a => Prog.pure (f a)) :=
  along_need_bind hc fun _ => .pure

/-- **The calls of an operation** are those it may make. -/
theorem along_program : Along r.makes [] r.program := by
  have hr : ∀ now : ℤ, (⟨.readClock, .ok now⟩ : AgentEntry) ∈ ([] ++ [⟨.readClock, .ok now⟩] : List AgentEntry) :=
    fun now => List.mem_singleton_self _
  cases r with
  | claimRun tenantId runId workerId leaseMs =>
    exact along_need_bind trivial fun now =>
      along_last ⟨⟨leaseMs, rfl⟩, hr now, quiet_runEvent (by decide)⟩
  | renewLease tenantId runId workerId leaseMs =>
    exact along_need_bind trivial fun now => along_last ⟨leaseMs, rfl⟩
  | completeRun tenantId runId workerId result =>
    refine .call ⟨rfl, tells_runEvent (by decide)⟩ fun reply => ?_
    cases reply with
    | error e => exact .fail
    | ok a => exact .pure
  | failRun tenantId runId workerId code message =>
    refine along_need_bind trivial fun completedAt =>
      .call ⟨rfl, tells_runEvent (by decide)⟩ fun reply => ?_
    cases reply with
    | error e => exact .fail
    | ok a => exact .pure
  | cancelRun tenantId actorId runId =>
    refine along_need_bind trivial fun cancelledAt => along_bind ?_ fun _ _ _ => .pure
    have ht : (runEvent tenantId actorId "agent-run.cancelled" runId [] cancelledAt).Tells
        ⟨.run, tenantId, runId⟩ .cancelled := tells_runEvent (by decide)
    refine along_need_bind trivial fun current => ?_
    cases current with
    | none => exact .pure
    | some status =>
      dsimp only
      split_ifs
      · exact .pure
      · exact along_last ⟨⟨actorId, rfl⟩, ht⟩
  | claimAction tenantId invocationId workerId leaseMs =>
    exact along_need_bind trivial fun now =>
      along_last ⟨⟨leaseMs, rfl⟩, hr now, quiet_actionEvent (by decide)⟩
  | renewActionLease tenantId invocationId workerId leaseMs =>
    exact along_need_bind trivial fun now => along_last ⟨leaseMs, rfl⟩
  | releaseAction tenantId invocationId workerId => exact along_last rfl
  | completeAction tenantId invocationId workerId actorId output metadata =>
    exact along_need_bind trivial fun completedAt =>
      along_last ⟨⟨actorId, metadata, rfl⟩, tells_actionEvent (by decide)⟩
  | failAction tenantId invocationId workerId actorId code metadata =>
    exact along_need_bind trivial fun completedAt =>
      along_last ⟨⟨actorId, metadata, rfl⟩, tells_actionEvent (by decide)⟩
  | cancelAction tenantId invocationId actorId metadata =>
    refine along_need_bind trivial fun cancelledAt => along_bind ?_ fun _ _ _ => .pure
    have ht : (actionEvent tenantId actorId "agent-action.cancelled" invocationId metadata cancelledAt).Tells
        ⟨.action, tenantId, invocationId⟩ .cancelled := tells_actionEvent (by decide)
    refine along_need_bind trivial fun current => ?_
    cases current with
    | none => exact .pure
    | some row =>
      dsimp only
      split_ifs
      · exact .pure
      · exact along_last ⟨⟨actorId, metadata, rfl⟩, ht⟩

end Programs

/-! ### The transactions -/

section Transactions

variable {s s' : AgentTables} {tenantId id workerId code message : String} {now till completedAt : ℤ}
  {audit : AuditEvent} {k : JobKey} {status : Status} {result : AgentExecutionResult}

/-- How a row was settled, the events say in addition. -/
def Adds (s s' : AgentTables) (k : JobKey) (statuses : List Status) : Prop :=
  ∀ k', s'.settlements k' = s.settlements k' ++ if k' = k then statuses else []

theorem adds_none (h : ∀ k', s'.settlements k' = s.settlements k') : Adds s s' k [] := by
  intro k'
  rw [ite_self, List.append_nil]
  exact h k'

theorem claimRun_leaves (hq : audit.Quiet) :
    (s.claimRun tenantId id workerId now till audit).2.runs =
      Table.update (fun row => row.is tenantId id && row.claimable now) (fun row => row.claimed workerId now till)
        s.runs ∧
    (s.claimRun tenantId id workerId now till audit).2.actions = s.actions ∧
    (s.claimRun tenantId id workerId now till audit).2.costs = s.costs ∧
    Adds s (s.claimRun tenantId id workerId now till audit).2 k [] := by
  unfold AgentTables.claimRun
  dsimp only
  split_ifs
  · exact ⟨rfl, rfl, rfl, adds_none fun _ => rfl⟩
  · split
    · exact ⟨rfl, rfl, rfl, adds_none fun _ => rfl⟩
    · exact ⟨rfl, rfl, rfl, adds_none fun _ => settlements_quiet hq⟩

theorem claimAction_leaves (hq : audit.Quiet) :
    (s.claimAction tenantId id workerId now till audit).2.actions =
      Table.update (fun row => row.is tenantId id && row.claimable now) (fun row => row.claimed workerId now till)
        s.actions ∧
    (s.claimAction tenantId id workerId now till audit).2.runs = s.runs ∧
    (s.claimAction tenantId id workerId now till audit).2.costs = s.costs ∧
    Adds s (s.claimAction tenantId id workerId now till audit).2 k [] := by
  unfold AgentTables.claimAction
  dsimp only
  split_ifs
  · exact ⟨rfl, rfl, rfl, adds_none fun _ => rfl⟩
  · split
    · exact ⟨rfl, rfl, rfl, adds_none fun _ => rfl⟩
    · exact ⟨rfl, rfl, rfl, adds_none fun _ => settlements_quiet hq⟩

/-- What an invocation that is settled leaves. -/
theorem settleAction_leaves {selects : ActionRow → Bool} {change : ActionRow → ActionRow}
    {hid : ∀ row, (change row).id = row.id} (ht : audit.Tells k status) :
    (s.settleAction selects change hid audit).2.actions = Table.update selects change s.actions ∧
    (s.settleAction selects change hid audit).2.runs = s.runs ∧
    (s.settleAction selects change hid audit).2.costs = s.costs ∧
    (s.settleAction selects change hid audit).1 = decide (s.actions.countP selects = 1) ∧
    Adds s (s.settleAction selects change hid audit).2 k
      (if s.actions.countP selects = 1 then [status] else []) := by
  unfold AgentTables.settleAction
  dsimp only
  split_ifs with ho
  · exact ⟨rfl, rfl, rfl, (decide_eq_true ho).symm, fun _ => settlements_tells ht⟩
  · exact ⟨rfl, rfl, rfl, (decide_eq_false ho).symm, adds_none fun _ => rfl⟩

/-- **What a completion leaves**, where it is not refused. -/
theorem completeRun_leaves [Metering] (ht : audit.Tells k status)
    (h : s.completeRun tenantId id workerId result audit = .ok s') :
    (s.runs.countP fun row => row.is tenantId id && row.heldBy workerId) = 1 ∧
    s'.runs = Table.update (fun row => row.is tenantId id && row.heldBy workerId)
      (fun row => row.succeeded result result.completedAt) s.runs ∧
    s'.actions = s.actions ∧ (∃ cost : RunCost, cost.runId = id ∧ s'.costs = insertCost cost s.costs) ∧
    Adds s s' k [status] := by
  unfold AgentTables.completeRun at h
  dsimp only at h
  split_ifs at h with ho
  rw [not_not] at ho
  split at h
  · cases h
  · next row hr =>
    cases h
    exact ⟨ho, rfl, rfl, ⟨_, AgentTables.costOf_runId, rfl⟩, fun _ => settlements_tells ht⟩

theorem failRun_leaves (ht : audit.Tells k status)
    (h : s.failRun tenantId id workerId code message completedAt audit = .ok s') :
    (s.runs.countP fun row => row.is tenantId id && row.heldBy workerId) = 1 ∧
    s'.runs = Table.update (fun row => row.is tenantId id && row.heldBy workerId)
      (fun row => row.failed code (some message) completedAt) s.runs ∧
    s'.actions = s.actions ∧ s'.costs = s.costs ∧ Adds s s' k [status] := by
  unfold AgentTables.failRun at h
  dsimp only at h
  split_ifs at h with ho
  rw [not_not] at ho
  cases h
  exact ⟨ho, rfl, rfl, rfl, fun _ => settlements_tells ht⟩

end Transactions

/-! ### What a call does to the rows it selects -/

section Calls

variable {β α : Type} {s s' : AgentTables} {kind : Kind} {act : Option (JobKey × Job.Act String Status ℤ)}
  {rows : List (JobRow β α)} {change : JobRow β α → JobRow β α} {tenantId id workerId : String}
  {now till : ℤ} {status : Status}

theorem is_of_selects {row : JobRow β α} {P : Bool} (h : (row.is tenantId id && P) = true) :
    row.is tenantId id = true :=
  (Bool.and_eq_true_iff.1 h).1

/-- A claim, at a time that was read. -/
theorem effects_claimed (ht : Adds s s' ⟨kind, tenantId, id⟩ []) (hn : now ≤ s.clock)
    (ha : act = some (⟨kind, tenantId, id⟩, .claim workerId till)) :
    RowEffects s s' act kind rows
      (Table.update (fun row => row.is tenantId id && row.claimable now)
        (fun row => row.claimed workerId now till) rows) := by
  refine effects_open (fun k => ?_) fun row hsel => ⟨is_of_selects hsel, rfl, rfl, _, ha, ?_⟩
  · rw [ht _, ite_self, List.append_nil]
  · have hs : Job.Step now (.claim workerId till) row.job (row.claimed workerId now till).job :=
      step_claimed (Bool.and_eq_true_iff.1 hsel).2
    exact hs.later hn

theorem effects_renewed (hset : ∀ k, s'.settlements k = s.settlements k)
    (ha : act = some (⟨kind, tenantId, id⟩, .renew workerId till)) :
    RowEffects s s' act kind rows
      (Table.update (fun row => row.is tenantId id && row.heldBy workerId) (fun row => row.renewed till) rows) := by
  refine effects_open hset fun row hs => ⟨is_of_selects hs, rfl, ?_, _, ha, ?_⟩
  · have hh := (Bool.and_eq_true_iff.1 hs).2
    have hr : row.status = .running := (JobRow.heldBy_iff.1 hh).1
    show row.status.terminal = false
    rw [hr]
    rfl
  · exact step_renewed (Bool.and_eq_true_iff.1 hs).2

/-- The holder of a row settles it. -/
theorem effects_held (hi : (rows.map (·.id)).Nodup) (ht : status.terminal = true)
    (hcou : (rows.countP fun row => row.is tenantId id && row.heldBy workerId) = 1)
    (htel : Adds s s' ⟨kind, tenantId, id⟩ [status])
    (ha : act = some (⟨kind, tenantId, id⟩, .settle workerId status))
    (hc : ∀ row, (change row).key kind = row.key kind ∧ (change row).status = status)
    (hs : ∀ row, row.heldBy workerId = true →
      Job.Step s.clock (.settle workerId status) row.job (change row).job) :
    RowEffects s s' act kind rows
      (Table.update (fun row => row.is tenantId id && row.heldBy workerId) change rows) := by
  refine effects_settled ht htel
    (selected_of_countP hi hcou fun row => is_of_selects) fun row _ hsel => ?_
  refine ⟨is_of_selects hsel, (hc row).1, (hc row).2, _, ha, hs row ?_⟩
  exact (Bool.and_eq_true_iff.1 hsel).2

theorem effects_other {k : JobKey} {statuses : List Status} (hk : k.kind ≠ kind)
    (ht : Adds s s' k statuses) : RowEffects s s' act kind rows rows := by
  refine effects_same fun row _ => ?_
  rw [ht _, if_neg (by rintro rfl; exact hk rfl), List.append_nil]

/-- A cost that is inserted. -/
theorem countP_insertCost {cost : RunCost} {costs : List RunCost} {id : String}
    (hn : (costs.countP fun c => c.runId = cost.runId) = 0) :
    ((insertCost cost costs).countP fun c => c.runId = id) =
      (costs.countP fun c => c.runId = id) + if cost.runId = id then 1 else 0 := by
  have ha : (costs.any fun c => c.runId = cost.runId) = false := by
    by_contra ha
    obtain ⟨c, hc, hid⟩ := List.any_eq_true.1 (Bool.eq_true_of_not_eq_false ha)
    exact absurd hn (List.countP_pos_iff.2 ⟨c, hc, hid⟩).ne'
  rw [insertCost, ha, if_neg Bool.false_ne_true, List.countP_append, List.countP_singleton]
  simp

/-- A call that completes no run leaves as many that succeeded. -/
theorem succeeded_of_effect {row row' : JobRow β α} (h : RowEffect s s' act kind row row')
    (hact : ∀ k a, act = some (k, a) → (∀ w, a ≠ .settle w .succeeded) ∧ a ≠ .cancel .succeeded) :
    row'.status = .succeeded ↔ row.status = .succeeded := by
  rcases h.moves with rfl | ⟨a, ha, hs⟩
  · exact Iff.rfl
  · have hopen := open_of_step hs
    refine iff_of_false (fun hsta => ?_) (fun hsta => ?_)
    · have ho : row'.job.outcome = some .succeeded := by
        rw [JobRow.job, hsta]
        rfl
      rcases hs.settles ho with ⟨w, till, rfl, -⟩ | rfl
      · exact (hact _ _ ha).1 w rfl
      · exact (hact _ _ ha).2 rfl
    · rw [hsta] at hopen
      cases hopen

/-- A run has a cost where it succeeded. -/
def Costed (runs : List RunRow) (costs : List RunCost) : Prop :=
  ∀ row ∈ runs, (costs.countP fun c => c.runId = row.id) = if row.status = .succeeded then 1 else 0

theorem costed_of_effects (h : Costed s.runs s.costs) (he : RowEffects s s' act .run s.runs s'.runs)
    (hc : s'.costs = s.costs)
    (ha : ∀ k a, act = some (k, a) → (∀ w, a ≠ .settle w .succeeded) ∧ a ≠ .cancel .succeeded) :
    Costed s'.runs s'.costs := by
  obtain ⟨f, hf, heff⟩ := he
  intro row' hr'
  rw [hf] at hr'
  obtain ⟨row, hr, rfl⟩ := List.mem_map.1 hr'
  have hid : (f row).id = row.id := congrArg JobKey.id (heff row hr).key
  rw [hc, hid, h row hr]
  exact if_congr (succeeded_of_effect (heff row hr) ha).symm rfl rfl

/-- The run that is completed, and its cost. -/
theorem costed_completed {result : AgentExecutionResult} {cost : RunCost} (h : Costed s.runs s.costs)
    (hcou : (s.runs.countP fun row => row.is tenantId id && row.heldBy workerId) = 1)
    (hruns : s'.runs = Table.update (fun row => row.is tenantId id && row.heldBy workerId)
      (fun row => row.succeeded result result.completedAt) s.runs)
    (hc : cost.runId = id) (hcos : s'.costs = insertCost cost s.costs) : Costed s'.runs s'.costs := by
  have hselected : ∀ {row : RunRow}, (row.is tenantId id && row.heldBy workerId) = true →
      row.status = .running ∧ row.id = id := by
    intro row hs
    have his := is_of_selects hs
    rw [JobRow.is, Bool.and_eq_true] at his
    exact ⟨(JobRow.heldBy_iff.1 (Bool.and_eq_true_iff.1 hs).2).1, of_decide_eq_true his.2⟩
  have hp : 0 < s.runs.countP fun row => row.is tenantId id && row.heldBy workerId := by omega
  obtain ⟨held, hh, hs⟩ := List.countP_pos_iff.1 hp
  obtain ⟨hr, hid⟩ := hselected hs
  have hn : (s.costs.countP fun c => c.runId = cost.runId) = 0 := by
    rw [hc, ← hid, h held hh, hr]
    rfl
  intro row' hrow'
  rw [hruns] at hrow'
  obtain ⟨row, hrow, rfl⟩ := Table.mem_update.1 hrow'
  rw [hcos, countP_insertCost hn, hc]
  cases hsel : (row.is tenantId id && row.heldBy workerId) with
  | true =>
    obtain ⟨hsame, hrowid⟩ := hselected hsel
    rw [if_pos rfl]
    show (s.costs.countP fun c => c.runId = row.id) + (if id = row.id then 1 else 0) = 1
    rw [h row hrow, hsame, if_pos hrowid.symm]
    rfl
  | false =>
    have hne : id ≠ row.id := by
      intro heq
      have hsame : row = held := List.inj_on_of_nodup_map s.runIds hrow hh (heq.symm.trans hid.symm)
      rw [hsame, hs] at hsel
      cases hsel
    rw [if_neg Bool.false_ne_true, h row hrow, if_neg hne]
    rfl

/-! ### What a call does -/

variable {r : JobRequest} {history : History AgentCall (Prog.Reply AgentCall.Answer)} {c : AgentCall}
  {reply : Prog.Reply AgentCall.Answer c} {k : JobKey} {next : Prog.Reply AgentCall.Answer c → AgentService Unit}

/-- What a call leaves: its rows move, and what the operation is told, an event says. -/
structure Performed (s s' : AgentTables) (c : AgentCall) (reply : Prog.Reply AgentCall.Answer c) :
    Prop where
  runs : RowEffects s s' c.act .run s.runs s'.runs
  actions : RowEffects s s' c.act .action s.actions s'.actions
  costs : Costed s.runs s.costs → Costed s'.runs s'.costs
  told : ∀ k, (if settledBy k ⟨c, reply⟩ then 1 else 0) + (s.settlements k).length ≤ (s'.settlements k).length

/-- A call that leaves the tables as they are. -/
theorem performed_same (hr : ∀ k, settledBy k ⟨c, reply⟩ = false) : Performed s s c reply := by
  refine ⟨effects_same fun _ _ => rfl, effects_same fun _ _ => rfl, fun h => h, fun k => ?_⟩
  rw [hr k]
  exact (Nat.zero_add _).le

theorem told_of_tells {statuses : List Status} (ht : Adds s s' k statuses)
    (hr : ∀ k', settledBy k' ⟨c, reply⟩ = true → k' = k ∧ statuses ≠ []) (k' : JobKey) :
    (if settledBy k' ⟨c, reply⟩ then 1 else 0) + (s.settlements k').length ≤ (s'.settlements k').length := by
  rw [ht k', List.length_append]
  split_ifs with hs hk hk
  · have hp := List.length_pos_iff.2 (hr k' hs).2
    omega
  · exact absurd (hr k' hs).1 hk
  · omega
  · omega

theorem performed_run {statuses : List Status} (ht : Adds s s' ⟨.run, tenantId, id⟩ statuses)
    (hrep : ∀ k, settledBy k ⟨c, reply⟩ = true → k = ⟨.run, tenantId, id⟩ ∧ statuses ≠ [])
    (ha : s'.actions = s.actions) (hr : RowEffects s s' c.act .run s.runs s'.runs)
    (hc : Costed s.runs s.costs → Costed s'.runs s'.costs) : Performed s s' c reply := by
  refine ⟨hr, ?_, hc, told_of_tells ht hrep⟩
  rw [ha]
  exact effects_other (by nofun) ht

/-- A call that completes no run. -/
theorem performed_other {statuses : List Status} (ht : Adds s s' ⟨.run, tenantId, id⟩ statuses)
    (hrep : ∀ k, settledBy k ⟨c, reply⟩ = true → k = ⟨.run, tenantId, id⟩ ∧ statuses ≠ [])
    (ha : s'.actions = s.actions) (hc : s'.costs = s.costs)
    (hact : ∀ k a, c.act = some (k, a) → (∀ w, a ≠ .settle w .succeeded) ∧ a ≠ .cancel .succeeded)
    (hr : RowEffects s s' c.act .run s.runs s'.runs) : Performed s s' c reply :=
  performed_run ht hrep ha hr fun h => costed_of_effects h hr hc hact

theorem performed_action {statuses : List Status} (ht : Adds s s' ⟨.action, tenantId, id⟩ statuses)
    (hrep : ∀ k, settledBy k ⟨c, reply⟩ = true → k = ⟨.action, tenantId, id⟩ ∧ statuses ≠ [])
    (hr : s'.runs = s.runs) (hc : s'.costs = s.costs)
    (ha : RowEffects s s' c.act .action s.actions s'.actions) : Performed s s' c reply := by
  refine ⟨?_, ha, ?_, told_of_tells ht hrep⟩
  · rw [hr]
    exact effects_other (by nofun) ht
  · rw [hr, hc]
    exact fun h => h

/-- An invocation is settled where it is selected, and the event says so. -/
theorem performed_settleAction {selects : ActionRow → Bool} {change : ActionRow → ActionRow}
    {hid : ∀ row, (change row).id = row.id} {audit : AuditEvent} {a : Job.Act String Status ℤ}
    (htel : audit.Tells ⟨.action, tenantId, id⟩ status) (ht : status.terminal = true)
    (his : ∀ row, selects row = true → row.is tenantId id = true)
    (hact : c.act = some (⟨.action, tenantId, id⟩, a))
    (hcha : ∀ row, (change row).key .action = row.key .action ∧ (change row).status = status)
    (hs : ∀ row, selects row = true → Job.Step s.clock a row.job (change row).job)
    (hrep : ∀ k, settledBy k ⟨c, reply⟩ = true →
      k = ⟨.action, tenantId, id⟩ ∧ (s.settleAction selects change hid audit).1 = true) :
    Performed s (s.settleAction selects change hid audit).2 c reply := by
  obtain ⟨ha, hr, hcos, hc, hl⟩ :=
    @settleAction_leaves s audit _ status selects change hid htel
  rw [hc] at hrep
  refine performed_action hl (fun k hset => ?_) hr hcos ?_
  · have ho := of_decide_eq_true (hrep k hset).2
    rw [if_pos ho]
    exact ⟨(hrep k hset).1, List.cons_ne_nil _ _⟩
  · rw [ha]
    by_cases ho : s.actions.countP selects = 1
    · rw [if_pos ho] at hl
      exact effects_settled ht hl (selected_of_countP s.actionIds ho his)
        fun row _ hsel => ⟨his row hsel, (hcha row).1, (hcha row).2, a, hact, hs row hsel⟩
    · have hle : s.actions.countP selects ≤ 1 := countP_le_one s.actionIds his
      have hn : ∀ row ∈ s.actions, selects row = false := by
        intro row hrow
        by_contra hsel
        have hp := List.countP_pos_iff.2 ⟨row, hrow, Bool.eq_true_of_not_eq_false hsel⟩
        omega
      rw [Table.update_eq_self hn]
      refine effects_same fun row _ => ?_
      rw [hl _, if_neg ho, ite_self, List.append_nil]

theorem told_completeAction {b : Bool} {output : Json} {audit : AuditEvent}
    (h : settledBy k ⟨.completeAction tenantId id workerId output now audit, .ok b⟩ = true) :
    k = ⟨.action, tenantId, id⟩ ∧ b = true := by
  cases b with
  | false => cases h
  | true => exact ⟨of_decide_eq_true h, rfl⟩

theorem told_failAction {b : Bool} {code : String} {audit : AuditEvent}
    (h : settledBy k ⟨.failAction tenantId id workerId code now audit, .ok b⟩ = true) :
    k = ⟨.action, tenantId, id⟩ ∧ b = true := by
  cases b with
  | false => cases h
  | true => exact ⟨of_decide_eq_true h, rfl⟩

theorem told_cancelAction2 {b : Bool} {audit : AuditEvent}
    (h : settledBy k ⟨.cancelAction2 tenantId id now audit, .ok b⟩ = true) :
    k = ⟨.action, tenantId, id⟩ ∧ b = true := by
  cases b with
  | false => cases h
  | true => exact ⟨of_decide_eq_true h, rfl⟩

/-- **What a call does.** -/
theorem performed [Metering] (hm : r.makes history c)
    (hc : cancelsOpen s (r, ⟨history, .call c next⟩) = true)
    (hclo : ∀ now : ℤ, (⟨.readClock, .ok now⟩ : AgentEntry) ∈ history → now ≤ s.clock) :
    Performed s (c.perform s).2 c (c.perform s).1 := by
  cases c with
  | readClock => exact performed_same fun _ => rfl
  | cancelRun1 => exact performed_same fun _ => rfl
  | getAction => exact performed_same fun _ => rfl
  | claimRun tenantId runId workerId now till audit =>
    obtain ⟨-, hread, hq⟩ := hm
    obtain ⟨hr, ha, hcos, ht⟩ :=
      @claimRun_leaves s tenantId runId workerId now till audit ⟨.run, tenantId, runId⟩ hq
    refine performed_other ht nofun ha hcos (by rintro _ _ ⟨⟩; exact ⟨nofun, nofun⟩) ?_
    rw [AgentCall.perform, hr]
    exact effects_claimed ht (hclo now hread) rfl
  | renewLease tenantId runId workerId till =>
    exact performed_other (adds_none (k := ⟨.run, tenantId, runId⟩) fun _ => rfl) nofun rfl rfl
      (by rintro _ _ ⟨⟩; exact ⟨nofun, nofun⟩) (effects_renewed (fun _ => rfl) rfl)
  | completeRun tenantId runId workerId result audit =>
    rw [AgentCall.perform]
    cases hcom : s.completeRun tenantId runId workerId result audit with
    | error e => exact performed_same fun _ => rfl
    | ok s' =>
      obtain ⟨hcou, hr, ha, ⟨cost, hcost, hcos⟩, ht⟩ := completeRun_leaves hm.2 hcom
      refine performed_run ht (fun k hk => ⟨of_decide_eq_true hk, List.cons_ne_nil _ _⟩) ha ?_
        fun h => costed_completed h hcou hr hcost hcos
      rw [AgentTables.committed, hr]
      exact effects_held s.runIds rfl hcou ht rfl (fun _ => ⟨rfl, rfl⟩) fun _ => step_succeeded
  | failRun tenantId runId workerId code message completedAt audit =>
    rw [AgentCall.perform]
    cases hf : s.failRun tenantId runId workerId code message completedAt audit with
    | error e => exact performed_same fun _ => rfl
    | ok s' =>
      obtain ⟨hcou, hr, ha, hcos, ht⟩ := failRun_leaves hm.2 hf
      refine performed_other ht (fun k hk => ⟨of_decide_eq_true hk, List.cons_ne_nil _ _⟩) ha hcos
        (by rintro _ _ ⟨⟩; exact ⟨nofun, nofun⟩) ?_
      rw [AgentTables.committed, hr]
      exact effects_held s.runIds rfl hcou ht rfl (fun _ => ⟨rfl, rfl⟩) fun _ => step_failed
  | cancelRun2 tenantId runId message completedAt audit =>
    have ht : Adds s (s.cancelRun2 tenantId runId message completedAt audit) ⟨.run, tenantId, runId⟩
        [.cancelled] := fun _ => settlements_tells hm.2
    refine performed_other ht (fun k hk => ⟨of_decide_eq_true hk, List.cons_ne_nil _ _⟩) rfl rfl
      (by rintro _ _ ⟨⟩; exact ⟨nofun, nofun⟩) ?_
    refine effects_settled rfl ht (fun _ _ his => his) fun row hrow his =>
      ⟨his, rfl, rfl, _, rfl, step_cancelled ?_⟩
    have hall := List.all_eq_true.1 hc row hrow
    rw [his] at hall
    exact hall
  | claimAction tenantId invocationId workerId now till audit =>
    obtain ⟨-, hread, hq⟩ := hm
    obtain ⟨ha, hr, hcos, ht⟩ :=
      @claimAction_leaves s tenantId invocationId workerId now till audit ⟨.action, tenantId, invocationId⟩ hq
    refine performed_action ht nofun hr hcos ?_
    rw [AgentCall.perform, ha]
    exact effects_claimed ht (hclo now hread) rfl
  | renewActionLease tenantId invocationId workerId till =>
    exact performed_action (adds_none (k := ⟨.action, tenantId, invocationId⟩) fun _ => rfl) nofun rfl rfl
      (effects_renewed (fun _ => rfl) rfl)
  | releaseAction tenantId invocationId workerId =>
    refine performed_action (adds_none (k := ⟨.action, tenantId, invocationId⟩) fun _ => rfl) nofun rfl rfl
      (effects_open (fun _ => rfl) fun row hs => ⟨is_of_selects hs, rfl, rfl, _, rfl, ?_⟩)
    exact step_released (Bool.and_eq_true_iff.1 hs).2
  | completeAction tenantId invocationId workerId output completedAt audit =>
    exact performed_settleAction hm.2 rfl (fun _ => is_of_selects) rfl (fun _ => ⟨rfl, rfl⟩)
      (fun row hs => step_succeeded (Bool.and_eq_true_iff.1 hs).2) fun _ => told_completeAction
  | failAction tenantId invocationId workerId code completedAt audit =>
    exact performed_settleAction hm.2 rfl (fun _ => is_of_selects) rfl (fun _ => ⟨rfl, rfl⟩)
      (fun row hs => step_failed (Bool.and_eq_true_iff.1 hs).2) fun _ => told_failAction
  | cancelAction2 tenantId invocationId completedAt audit =>
    exact performed_settleAction hm.2 rfl (fun _ => is_of_selects) rfl (fun _ => ⟨rfl, rfl⟩)
      (fun row hs => step_cancelled (Bool.and_eq_true_iff.1 hs).2) fun _ => told_cancelAction2

theorem clock_settleAction {selects : ActionRow → Bool} {change : ActionRow → ActionRow}
    {hid : ∀ row, (change row).id = row.id} {audit : AuditEvent} :
    (s.settleAction selects change hid audit).2.clock = s.clock := by
  unfold AgentTables.settleAction
  dsimp only
  split_ifs <;> rfl

/-- A call reads the clock and does not set it. -/
theorem clock_perform [Metering] : (c.perform s).2.clock = s.clock := by
  cases c with
  | claimRun tenantId runId workerId now till audit =>
    rw [AgentCall.perform, AgentTables.claimRun]
    dsimp only
    split_ifs
    · rfl
    · split <;> rfl
  | claimAction tenantId invocationId workerId now till audit =>
    rw [AgentCall.perform, AgentTables.claimAction]
    dsimp only
    split_ifs
    · rfl
    · split <;> rfl
  | completeRun tenantId runId workerId result audit =>
    rw [AgentCall.perform, AgentTables.completeRun]
    dsimp only
    split_ifs
    · rfl
    · split <;> rfl
  | failRun tenantId runId workerId code message completedAt audit =>
    rw [AgentCall.perform, AgentTables.failRun]
    split_ifs <;> rfl
  | completeAction => exact clock_settleAction
  | failAction => exact clock_settleAction
  | cancelAction2 => exact clock_settleAction
  | _ => rfl

end Calls

/-! ### One step -/

section Steps

variable {β α : Type} [Metering] {start s s' : AgentTables} {kind : Kind} {r : JobRequest}
  {history : History AgentCall (Prog.Reply AgentCall.Answer)} {c : AgentCall}
  {next : Prog.Reply AgentCall.Answer c → AgentService Unit} {choice : AgentChoice}
  {ps : List JobProcess} {k : JobKey} {status : Status}

omit [Metering] in
/-- A row is settled by the operation of its holder. -/
theorem settles_of_act (hm : r.makes history c) {w : String}
    (ha : c.act = some (k, .settle w status)) : r.settles k status (some w) = true := by
  cases c with
  | completeRun =>
    cases ha
    rw [hm.1]
    simp [JobRequest.settles]
  | failRun =>
    cases ha
    rw [hm.1]
    simp [JobRequest.settles]
  | completeAction =>
    cases ha
    obtain ⟨⟨actorId, metadata, rfl⟩, -⟩ := hm
    simp [JobRequest.settles]
  | failAction =>
    cases ha
    obtain ⟨⟨actorId, metadata, rfl⟩, -⟩ := hm
    simp [JobRequest.settles]
  | _ => cases ha

omit [Metering] in
/-- A row is cancelled by a cancellation. -/
theorem cancels_of_act (hm : r.makes history c) (ha : c.act = some (k, .cancel status))
    (holder : Option String) : r.settles k status holder = true := by
  cases c with
  | cancelRun2 =>
    cases ha
    obtain ⟨⟨actorId, rfl⟩, -⟩ := hm
    simp [JobRequest.settles]
  | cancelAction2 =>
    cases ha
    obtain ⟨⟨actorId, metadata, rfl⟩, -⟩ := hm
    simp [JobRequest.settles]
  | _ => cases ha

omit [Metering] in
theorem releases_of_act (hm : r.makes history c) {w : String} (ha : c.act = some (k, .release w)) :
    r.releases k w = true := by
  cases c with
  | releaseAction =>
    cases ha
    have hr : r = _ := hm
    rw [hr]
    simp [JobRequest.releases]
  | _ => cases ha

omit [Metering] in
/-- **A row behind a step**, of the operation that makes it. -/
theorem rowStep_of_effect {row row' : JobRow β α} {now : ℤ} {requests : List JobRequest}
    (h : RowEffect s s' c.act kind row row') (hm : r.makes history c) (hmem : r ∈ requests)
    (hn : s.clock ≤ now) : RowStep now requests kind row row' := by
  have hout : row'.status.terminal = true → row'.job.outcome = some row'.status := by
    intro ht
    rw [JobRow.job, ht]
    rfl
  refine ⟨h.key, fun ht => ?_, fun ho ht => ?_, fun l hlea hu => ?_⟩
  · rcases h.moves with hsame | ⟨a, -, hs⟩
    · exact hsame
    · have ho := open_of_step hs
      rw [ht] at ho
      cases ho
  · rcases h.moves with rfl | ⟨a, ha, hs⟩
    · rw [ho] at ht
      cases ht
    · rcases hs.settles (hout ht) with ⟨w, till, rfl, hh⟩ | rfl
      · obtain ⟨l, hlea, hl⟩ := Option.map_eq_some_iff.1 hh
        have hown : row.lease.map (·.owner) = some w := by
          rw [hlea, Option.map_some]
          exact congrArg (some ∘ Prod.fst) hl
        exact ⟨r, hmem, by rw [hown]; exact settles_of_act hm ha⟩
      · exact ⟨r, hmem, cancels_of_act hm ha _⟩
  · rcases h.moves with rfl | ⟨a, ha, hs⟩
    · exact .inl ⟨l, hlea, rfl⟩
    · have hh : row.job.lease = some (l.owner, l.expiresAt) := by
        rw [JobRow.job, hlea]
        rfl
      have ht : ∀ k, row'.job.outcome = some k → row'.status.terminal = true := by
        intro k hk
        cases hsta : row'.status.terminal with
        | true => rfl
        | false =>
          rw [JobRow.job, hsta] at hk
          cases hk
      rcases hs.keeps hh (hn.trans hu) with ⟨till, hkept⟩ | rfl | ⟨k, rfl⟩ | ⟨k, rfl⟩
      · obtain ⟨l', hlea', hl'⟩ := Option.map_eq_some_iff.1 hkept
        exact .inl ⟨l', hlea', congrArg Prod.fst hl'⟩
      · exact .inr (.inr ⟨r, hmem, releases_of_act hm ha⟩)
      · exact .inr (.inl (ht k hs.outcome_settle))
      · exact .inr (.inl (ht k hs.outcome_cancel))

omit [Metering] in
theorem settledOnce_of_effects (hr : RowEffects s s' c.act .run s.runs s'.runs)
    (ha : RowEffects s s' c.act .action s.actions s'.actions) (hc : Costed s'.runs s'.costs)
    (h : SettledOnce s) : SettledOnce s' := by
  have hrow : ∀ {β α : Type} {kind : Kind} {row row' : JobRow β α}, RowEffect s s' c.act kind row row' →
      s.settlements (row.key kind) = row.status.settlement →
      s'.settlements (row'.key kind) = row'.status.settlement := by
    intro β α kind row row' he hb
    rw [he.key, he.settlements, hb]
    cases ht : row.status.terminal with
    | true =>
      rcases he.moves with rfl | ⟨a, -, hs⟩
      · simp
      · have ho := open_of_step hs
        rw [ht] at ho
        cases ho
    | false => simp [Status.settlement_open ht]
  refine ⟨fun row' hrow' => ?_, fun row' hrow' => ?_, hc⟩
  · obtain ⟨f, hf, he⟩ := hr
    rw [hf] at hrow'
    obtain ⟨row, hm, rfl⟩ := List.mem_map.1 hrow'
    exact hrow (he row hm) (h.runs row hm)
  · obtain ⟨f, hf, he⟩ := ha
    rw [hf] at hrow'
    obtain ⟨row, hm, rfl⟩ := List.mem_map.1 hrow'
    exact hrow (he row hm) (h.actions row hm)

/-! ### Runs -/

/-- What holds of the tables and all processes there were. -/
structure JobRun (start s : AgentTables) (ps : List JobProcess) : Prop where
  allowed : ∀ p ∈ ps, Along p.1.makes p.2.history p.2.rest
  clock : ∀ p ∈ ps, ∀ now : ℤ, (⟨.readClock, .ok now⟩ : AgentEntry) ∈ p.2.history → now ≤ s.clock
  once : SettledOnce s
  told : ∀ k, told ps k + (start.settlements k).length ≤ (s.settlements k).length

omit [Metering] in
theorem told_cons {p : JobProcess} : told (p :: ps) k = p.2.history.countP (settledBy k) + told ps k := by
  rw [told, entriesOf, List.flatMap_cons, List.countP_append]
  rfl

omit [Metering] in
theorem settledBy_error {e : String} : settledBy k ⟨c, .error e⟩ = false := by
  cases c <;> rfl

omit [Metering] in
theorem SettledOnce.later (h : SettledOnce s) (n : ℕ) : SettledOnce (s.later n) :=
  ⟨h.runs, h.actions, h.costs⟩

/-- **What a call does**, answered or not. -/
theorem performed_serve (hm : r.makes history c)
    (hc : cancelsOpen s (r, ⟨history, .call c next⟩) = true)
    (hclo : ∀ now : ℤ, (⟨.readClock, .ok now⟩ : AgentEntry) ∈ history → now ≤ s.clock) :
    Performed (s.later choice.elapsed) (c.serve s choice).2 c (c.serve s choice).1 := by
  have hp : Performed (s.later choice.elapsed) _ c _ := performed hm hc fun now hn => by
    have hle := hclo now hn
    show now ≤ s.clock + choice.elapsed
    omega
  unfold AgentCall.serve
  split
  · exact hp
  · next kept error _ =>
    cases kept with
    | false => exact performed_same fun _ => settledBy_error
    | true =>
      refine ⟨hp.runs, hp.actions, hp.costs, fun k => ?_⟩
      have ht := hp.told k
      rw [settledBy_error, if_neg Bool.false_ne_true]
      show 0 + _ ≤ ((c.perform (s.later choice.elapsed)).2.settlements k).length
      omega

theorem serve_cases : (c.serve s choice).2 = s.later choice.elapsed ∨
    (c.serve s choice).2 = (c.perform (s.later choice.elapsed)).2 := by
  unfold AgentCall.serve
  split
  · exact .inr rfl
  · next kept error _ =>
    cases kept with
    | false => exact .inl rfl
    | true => exact .inr rfl

/-- The clock does not go back. -/
theorem clock_serve : (c.serve s choice).2.clock = s.clock + choice.elapsed := by
  rcases @serve_cases _ s c choice with hs | hp
  · rw [hs]
    rfl
  · rw [hp, clock_perform]
    rfl

/-- A time that was read has come. -/
theorem readClock_serve {now : ℤ}
    (h : (⟨.readClock, .ok now⟩ : AgentEntry) = ⟨c, (c.serve s choice).1⟩) : now ≤ (c.serve s choice).2.clock := by
  cases c with
  | readClock =>
    rw [clock_serve]
    unfold AgentCall.serve at h
    split at h
    · have hr := eq_of_heq (Sigma.mk.inj h).2
      exact (Except.ok.inj hr).le
    · exact nomatch eq_of_heq (Sigma.mk.inj h).2
  | _ => exact nomatch (Sigma.mk.inj h).1

/-- **One call of an operation.** -/
theorem JobRun.call (h : JobRun start s ((r, ⟨history, .call c next⟩) :: ps))
    (hcond : cancelsOpen s (r, ⟨history, .call c next⟩) = true) :
    JobRun start (c.serve s choice).2
      ((r, ⟨history ++ [⟨c, (c.serve s choice).1⟩], next (c.serve s choice).1⟩) :: ps) := by
  obtain ⟨hp, ho⟩ := List.forall_mem_cons.1 h.allowed
  obtain ⟨hc, hclo⟩ := List.forall_mem_cons.1 h.clock
  have hs := @performed_serve _ _ _ _ _ _ choice (Along.ok_call hp) hcond hc
  have hr : (c.serve s choice).2.clock = s.clock + choice.elapsed := clock_serve
  have hm : s.clock ≤ (c.serve s choice).2.clock := by omega
  refine ⟨List.forall_mem_cons.2 ⟨Along.next hp _, ho⟩,
    List.forall_mem_cons.2 ⟨fun now hn => ?_, fun p hp now hn => ?_⟩, ?_, fun k => ?_⟩
  · rcases List.mem_append.1 hn with hn | hn
    · exact (hc now hn).trans hm
    · exact readClock_serve (List.mem_singleton.1 hn)
  · exact (hclo p hp now hn).trans hm
  · exact settledOnce_of_effects hs.runs hs.actions (hs.costs h.once.costs) (h.once.later _)
  · have hb := h.told k
    have ht := hs.told k
    have hl : ((s.later choice.elapsed).settlements k).length = (s.settlements k).length := rfl
    rw [told_cons] at hb ⊢
    rw [List.countP_append, List.countP_singleton]
    dsimp only at hb ⊢
    omega

/-- What holds of the tables and all processes. -/
def jobChronicle (start : AgentTables) : Chronicle jobOperations CancelsOpen where
  holds := JobRun start
  perm := by
    intro s ps ps' hperm h
    refine ⟨fun p hp => h.allowed p (hperm.mem_iff.2 hp), fun p hp => h.clock p (hperm.mem_iff.2 hp),
      h.once, fun k => ?_⟩
    have hentries : (entriesOf ps).Perm (entriesOf ps') := hperm.flatMap_right _
    rw [Agents.told, ← hentries.countP_eq]
    exact h.told k
  start := by
    rintro s ps r p h hstart
    obtain rfl := recorder_signed_enter hstart
    refine ⟨List.forall_mem_cons.2 ⟨along_program, h.allowed⟩,
      List.forall_mem_cons.2 ⟨fun _ hnow => (nomatch hnow), h.clock⟩, h.once, fun k => ?_⟩
    rw [told_cons]
    exact (Nat.zero_add _).symm ▸ h.told k
  stop h := h
  move := by
    rintro s others gone p choice s' p' h hcond hmove
    obtain ⟨r, history, c, next, rfl, rfl, rfl⟩ := recorder_signed_next hmove
    exact h.call hcond

/-- **What one step does to the rows.** -/
theorem jobStep_of_step {crew crew' : Crew (AgentTables × List JobProcess) JobProcess}
    (halo : ∀ p ∈ crew.processes, Along p.1.makes p.2.history p.2.rest)
    (hread : ∀ p ∈ crew.processes, ∀ now : ℤ, (⟨.readClock, .ok now⟩ : AgentEntry) ∈ p.2.history →
      now ≤ crew.shared.1.clock)
    (hstep : Crew.Step jobOperations.ledger (Machine.Condition.ledger CancelsOpen) crew crew') :
    JobStep crew.shared.1 crew'.shared.1 crew.processes := by
  have hs : ∀ {β α : Type} {now : ℤ} {requests : List JobRequest} {kind : Kind} (row : JobRow β α),
      RowStep now requests kind row row := by
    intro β α now requests kind row
    refine ⟨rfl, fun _ => rfl, fun ho ht => ?_, fun l hl _ => .inl ⟨l, hl, rfl⟩⟩
    rw [ho] at ht
    cases ht
  have hsame : ∀ s s' : AgentTables, s'.runs = s.runs → s'.actions = s.actions → ∀ ps, JobStep s s' ps := by
    intro s s' hruns ha ps
    refine ⟨fun row hrow => ⟨row, ?_, hs row⟩, fun row hrow => ⟨row, ?_, hs row⟩⟩
    · rw [hruns]
      exact hrow
    · rw [ha]
      exact hrow
  cases hstep with
  | start h => exact hsame _ _ rfl rfl _
  | stop => exact hsame _ _ rfl rfl _
  | @move s s' before behind p p' choice h hc =>
    obtain ⟨r, history, c, next, rfl, hserved⟩ := Prog.recorder_ledger_next h
    rw [hserved]
    have hmem : ((r, ⟨history, .call c next⟩) : JobProcess) ∈ before ++ (r, ⟨history, .call c next⟩) :: behind :=
      List.mem_append_right _ List.mem_cons_self
    have hp := halo _ hmem
    have hm : r.makes history c := Along.ok_call hp
    have hr : r ∈ (before ++ ((r, ⟨history, .call c next⟩) : JobProcess) :: behind).map (·.1) :=
      List.mem_map.2 ⟨_, hmem, rfl⟩
    have hser := @performed_serve _ _ _ _ _ _ choice hm hc (hread _ hmem)
    have hcl : (s.1.later choice.elapsed).clock ≤ (c.serve s.1 choice).2.clock := by
      rw [clock_serve]
      exact le_rfl
    obtain ⟨f, hf, he⟩ := hser.runs
    obtain ⟨g, hg, he'⟩ := hser.actions
    refine ⟨fun row hrow => ⟨f row, ?_, ?_⟩, fun row hrow => ⟨g row, ?_, ?_⟩⟩
    · rw [hf]
      exact List.mem_map_of_mem hrow
    · exact rowStep_of_effect (he row hrow) hm hr hcl
    · rw [hg]
      exact List.mem_map_of_mem hrow
    · exact rowStep_of_effect (he' row hrow) hm hr hcl

/-- **Runs and invocations settle once**: in every run in which a run that is cancelled is open
when its row is written, each row is settled once, by its holder or by a cancellation, and its
lease is not taken before it runs out. -/
theorem jobs_settle_once (hstart : SettledOnce start)
    {crew : Crew (AgentTables × List JobProcess) JobProcess}
    (h : Crew.Reachable jobOperations.ledger (Machine.Condition.ledger CancelsOpen) (start, []) crew) :
    JobsSettled crew.shared.1 crew.everyone ∧
      ∀ crew', Crew.Step jobOperations.ledger (Machine.Condition.ledger CancelsOpen) crew crew' →
        JobStep crew.shared.1 crew'.shared.1 crew.processes := by
  have hemp : JobRun start start [] :=
    ⟨fun _ hp => (nomatch hp), fun _ hp => (nomatch hp), hstart, fun _ => (Nat.zero_add _).le⟩
  have he : JobRun start crew.shared.1 crew.everyone := (jobChronicle start).reachable hemp h
  refine ⟨⟨he.once, fun row hr => ?_, fun row hr => ?_⟩, fun crew' hs => ?_⟩
  · have ht := he.told (row.key .run)
    rw [he.once.runs row hr] at ht
    omega
  · have ht := he.told (row.key .action)
    rw [he.once.actions row hr] at ht
    omega
  · exact jobStep_of_step (fun p hp => he.allowed p (List.mem_append_left _ hp))
      (fun p hp => he.clock p (List.mem_append_left _ hp)) hs

end Steps

/-! ### Sample runs -/

/-- Prices and days of no interest. -/
@[reducible] def flatMetering : Metering where
  usageDay _ := "2024-01-01"
  usageCostMicros _ usage := some usage.totalTokens

theorem queued_leased : Status.queued = Status.running ↔ (none : Option Lease).isSome = true := by
  decide

/-- A run that is queued. -/
def sampleRun : RunRow where
  id := "run"
  tenantId := "t"
  about := ⟨"agent", "Agent", "model"⟩
  leased := queued_leased

/-- A workspace with a run. -/
def sampleTables : AgentTables where
  runs := [sampleRun]
  actions := []
  runIds := List.nodup_singleton _
  actionIds := List.nodup_nil

theorem sampleTables_settled : SettledOnce sampleTables := by
  refine ⟨fun row hr => ?_, fun row hr => (nomatch hr), fun row hr => ?_⟩
  · rw [List.mem_singleton.1 hr]
    rfl
  · rw [List.mem_singleton.1 hr]
    rfl

/-- What a worker answers. -/
def sampleResult : AgentExecutionResult where
  output := "done"
  usage := ⟨1, 1, 2⟩
  startedAt := 1
  completedAt := 2

/-- Moves of the operation at a position. -/
def jobMoves (i n : ℕ) : List (Crew.Turn JobRequest AgentChoice) :=
  List.replicate n (.move i {})

/-- The runs, as far as they are told, what the events say of the sample run, and the costs. -/
def sampleStatus (crew : Crew (AgentTables × List JobProcess) JobProcess) :
    List (Status × Bool) × List Status × List String :=
  (crew.shared.1.runs.map fun row => (row.status, row.output.isSome),
    crew.shared.1.settlements ⟨.run, "t", "run"⟩, crew.shared.1.costs.map (·.runId))

/-- A run that is claimed and completed. -/
theorem jobs_settle_completed : ∃ crew,
    Crew.Reachable (@jobOperations flatMetering).ledger (Machine.Condition.ledger CancelsOpen)
      (sampleTables, []) crew ∧
    sampleStatus crew = ([(.succeeded, true)], [.succeeded], ["run"]) ∧
    JobsSettled crew.shared.1 crew.everyone ∧
    ∀ crew', Crew.Step (@jobOperations flatMetering).ledger (Machine.Condition.ledger CancelsOpen) crew crew' →
      JobStep crew.shared.1 crew'.shared.1 crew.processes := by
  have hp : (Crew.play (@jobOperations flatMetering).ledger
      (fun s _ p => cancelsOpen s.1 p = true) ⟨(sampleTables, []), []⟩
      (.start (.claimRun "t" "run" "w" 1000) :: jobMoves 0 2 ++
        .start (.completeRun "t" "run" "w" sampleResult) :: jobMoves 0 1)).map sampleStatus =
        some ([(.succeeded, true)], [.succeeded], ["run"]) := by decide +kernel
  obtain ⟨crew, hc, hs⟩ := Option.map_eq_some_iff.1 hp
  have hr : Crew.Reachable (@jobOperations flatMetering).ledger
      (Machine.Condition.ledger CancelsOpen) (sampleTables, []) crew :=
    (Crew.reachable_of_play hc).mono fun _ _ _ h => h
  exact ⟨crew, hr, hs, @jobs_settle_once flatMetering sampleTables sampleTables_settled crew hr⟩

/-- A cancellation that reads the status of a run before it is completed, and writes it behind
the completion: the run is settled twice, and keeps its output and its cost. -/
theorem jobs_settled_twice : ∃ crew,
    Crew.Reachable (@jobOperations flatMetering).ledger (fun _ _ _ => True) (sampleTables, []) crew ∧
    sampleStatus crew = ([(.cancelled, true)], [.succeeded, .cancelled], ["run"]) ∧
    ¬ JobsSettled crew.shared.1 crew.everyone := by
  have hp : (Crew.play (@jobOperations flatMetering).ledger (fun _ _ _ => True)
      ⟨(sampleTables, []), []⟩ (.start (.claimRun "t" "run" "w" 1000) :: jobMoves 0 2 ++
        .start (.cancelRun "t" "ada" "run") :: jobMoves 0 2 ++
        .start (.completeRun "t" "run" "w" sampleResult) :: jobMoves 0 1 ++ jobMoves 1 1)).map (fun crew =>
          (sampleStatus crew, crew.shared.1.runs.map fun row => row.key .run)) =
        some (([(.cancelled, true)], [.succeeded, .cancelled], ["run"]), [⟨.run, "t", "run"⟩]) := by
    decide +kernel
  obtain ⟨crew, hc, hr⟩ := Option.map_eq_some_iff.1 hp
  obtain ⟨hs, hk⟩ := Prod.mk.inj hr
  refine ⟨crew, Crew.reachable_of_play hc, hs, fun h => ?_⟩
  obtain ⟨-, hset⟩ := Prod.mk.inj hs
  have hrow : (⟨.run, "t", "run"⟩ : JobKey) ∈ crew.shared.1.runs.map fun row => row.key .run := by
    rw [hk]
    exact List.mem_singleton_self _
  obtain ⟨row, hrow, hkey⟩ := List.mem_map.1 hrow
  have ho := h.once.runs row hrow
  rw [hkey, (Prod.mk.inj hset).1, Status.settlement] at ho
  split_ifs at ho
  simp at ho

end Flowdular.Agents
