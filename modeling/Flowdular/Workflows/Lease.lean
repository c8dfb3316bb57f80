/-
# Leases and statuses under concurrent workers

`src/modules/workflows/src/services/database-repository.ts`, lines 602-713,
1692-1839 and 2383-2509: `claimNext`, `#claim`, `renewLease`, `releaseLease`,
`settleRun`, `requestCancellation` and `wakeApproval`.

Workers share the rows and a clock.  An operation is a program over the statements
of its transaction: the reads, and the guarded update with what its transaction
does behind it, which the row lock keeps others out of until it commits or is
rolled back.  In between others run, also the operations of a pass that move the
status of a run without touching its lease.

A worker holds what the last claim or renewal granted it until it releases it or it
expires, whatever the rows say by then (`granted`).  Still no two workers hold an
unexpired lease on one run, no operation changes a terminal status or takes a
requested cancellation back, and a worker another one took over from can neither
renew nor release (`lease_exclusion`).
-/

import Flowdular.Lib.Pool
import Flowdular.Workflows.Repository

namespace Flowdular.Workflows

open Lib

/-! ### Statements -/

/-- The statements of the operations, with what their transactions do behind an
update. -/
inductive LeaseCall where
  | claimCandidates (now : Time)
  | getRun (key : RunKey)
  | claimRun (key : RunKey) (read : RunRow) (workerId : String) (now leaseExpiresAt : Time)
  | renewLease (key : RunKey) (workerId : String) (leaseExpiresAt : Time)
  | releaseLease (key : RunKey) (workerId : String)
  | settleRun (key : RunKey) (before : RunRow) (write : SettleRunWrite)
  | requestCancellation (key : RunKey) (read : RunRow) (recordedAt : Time)
  | wakeApproval (key : RunKey) (requestId : String) (now : Time)

/-- The replies; an update that was rolled back has none. -/
@[reducible] def LeaseCall.Reply : LeaseCall → Type
  | .claimCandidates _ => List RunKey
  | .getRun _ => Option RunRow
  | .claimRun .. | .renewLease .. | .requestCancellation .. => Option Bool
  | .releaseLease .. | .wakeApproval .. => Option Unit
  | .settleRun .. => Option RunRow

/-- A program over the statements. -/
abbrev LeaseProg := Prog LeaseCall LeaseCall.Reply

def getRun (key : RunKey) : LeaseProg (Option RunRow) :=
  Prog.ask (LeaseCall.getRun key)

/-- `SQL.claimRun`, with the events behind it. -/
def updateClaim (key : RunKey) (read : RunRow) (workerId : String) (now leaseExpiresAt : Time) :
    LeaseProg (Option Bool) :=
  Prog.ask (LeaseCall.claimRun key read workerId now leaseExpiresAt)

def claimCandidates (now : Time) : LeaseProg (List RunKey) :=
  Prog.ask (LeaseCall.claimCandidates now)

/-- Do a statement without looking at the reply. -/
def doCall (call : LeaseCall) : LeaseProg Unit :=
  .call call fun _ => .pure ()

/-! ### Operations -/

def claim (key : RunKey) (workerId : String) (now leaseExpiresAt : Time) :
    LeaseProg (Option RunRow) := do
  match ← getRun key with
  | none => return none
  | some row =>
    if row.claimable now then
      match ← updateClaim key row workerId now leaseExpiresAt with
      | none => .fail "WORKFLOW_LIMIT_EXCEEDED"
      | some true => getRun key
      | some false => return none
    else return none

/-- The loop of `claimNext`. -/
def claimFirst (workerId : String) (now leaseExpiresAt : Time) :
    List RunKey → LeaseProg (Option RunRow)
  | [] => return none
  | key :: candidates => do
    match ← claim key workerId now leaseExpiresAt with
    | some claimed => return some claimed
    | none => claimFirst workerId now leaseExpiresAt candidates

def claimNext (workerId : String) (now leaseExpiresAt : Time) : LeaseProg (Option RunRow) := do
  claimFirst workerId now leaseExpiresAt (← claimCandidates now)

/-- The operations, with their arguments. -/
inductive LeaseOperation where
  | claimNext (workerId : String) (now leaseExpiresAt : Time)
  | claim (key : RunKey) (workerId : String) (now leaseExpiresAt : Time)
  | renewLease (key : RunKey) (workerId : String) (leaseExpiresAt : Time)
  | releaseLease (key : RunKey) (workerId : String)
  | settleRun (key : RunKey) (write : SettleRunWrite)
  | requestCancellation (key : RunKey) (recordedAt : Time)
  | wakeApproval (key : RunKey) (requestId : String) (now : Time)

/-- The program of an operation. -/
def LeaseOperation.program : LeaseOperation → LeaseProg Unit
  | .claimNext workerId now leaseExpiresAt => do
    let _ ← Workflows.claimNext workerId now leaseExpiresAt
    return ()
  | .claim key workerId now leaseExpiresAt => do
    let _ ← Workflows.claim key workerId now leaseExpiresAt
    return ()
  | .renewLease key workerId leaseExpiresAt => doCall (.renewLease key workerId leaseExpiresAt)
  | .releaseLease key workerId => doCall (.releaseLease key workerId)
  | .settleRun key write => do
    match ← getRun key with
    | none => return ()
    | some before => doCall (.settleRun key before write)
  | .requestCancellation key recordedAt => do
    match ← getRun key with
    | none => return ()
    | some read => doCall (.requestCancellation key read recordedAt)
  | .wakeApproval key requestId now => doCall (.wakeApproval key requestId now)

/-- A claim uses a time its worker has read off the clock. -/
def LeaseOperation.startsAt (clock : Time) : LeaseOperation → Prop
  | .claimNext _ now _ | .claim _ _ now _ => now ≤ clock
  | _ => True

/-! ### The shared state -/

/-- The clock, the runs in the order of their creation, and the leases granted. -/
structure LeaseState where
  clock : Time
  keys : List RunKey := []
  runs : RunKey → Option StoredRun := fun _ => none
  granted : RunKey → String → Option Time := fun _ _ => none

/-- Some node in a status is due. -/
def StoredRun.nodeDue (rows : StoredRun) (status : WorkflowNodeStatus) (now : Time) : Bool :=
  rows.nodes.any fun state => state.status = status && state.nextAttemptAt.any (· ≤ now)

/-- The condition of `SQL.claimCandidates`. -/
def StoredRun.isCandidate (rows : StoredRun) (now : Time) : Bool :=
  rows.run.mode = .live && match rows.run.status with
    | .queued => true
    | .running | .waitingAgent | .cancelRequested => rows.run.leaseExpired now
    | .waitingRetry => rows.run.leaseExpired now && rows.nodeDue .waitingRetry now
    | .waitingApproval => rows.run.leaseExpired now && rows.nodeDue .waitingChild now
    | _ => false

namespace LeaseState

/-- `SQL.claimCandidates`. -/
def candidates (s : LeaseState) (now : Time) : List RunKey :=
  ((((s.keys.filterMap s.runs).filter (·.isCandidate now)).map (·.run)).insertionSort
    fun a b => a.queuedAt < b.queuedAt ∨ (a.queuedAt = b.queuedAt ∧ a.key.id ≤ b.key.id)).map (·.key)
    |>.take 20

/-- New rows for a run. -/
def setRows (s : LeaseState) (key : RunKey) (rows : StoredRun) : LeaseState :=
  { s with runs := Function.update s.runs key (some rows) }

/-- A new run. -/
def create (s : LeaseState) (run : RunRow) : LeaseState :=
  { s.setRows run.key (createRun run).rows with keys := s.keys ++ [run.key] }

/-- A new grant for a worker, or none. -/
def grant (s : LeaseState) (key : RunKey) (workerId : String) (until' : Option Time) : LeaseState :=
  { s with granted := Function.update s.granted key (Function.update (s.granted key) workerId until') }

/-- A transaction on a run is rolled back, or it commits. -/
def Transacts {α : Type} (s : LeaseState) (key : RunKey) (transaction : Transaction α)
    (reply : Option α) (s' : LeaseState) : Prop :=
  (reply = none ∧ s' = s) ∨
    ∃ rows written, s.runs key = some rows ∧ transaction rows = .ok written ∧
      reply = some written.result ∧ s' = s.setRows key written.rows

end LeaseState

/-- What the statements do.  A claim and a renewal that commit with success grant, a
release gives up. -/
def serveLease : Prog.Service LeaseCall LeaseCall.Reply LeaseState
  | .claimCandidates now, s, reply, s' => reply = s.candidates now ∧ s' = s
  | .getRun key, s, reply, s' => reply = (s.runs key).map (·.run) ∧ s' = s
  | .claimRun key read workerId now leaseExpiresAt, s, reply, s' =>
    ∃ m, s.Transacts key (claimRun read workerId now leaseExpiresAt) reply m ∧
      s' = if (reply : Option Bool) = some true then m.grant key workerId (some leaseExpiresAt) else m
  | .renewLease key workerId leaseExpiresAt, s, reply, s' =>
    ∃ m, s.Transacts key (renewLease workerId leaseExpiresAt) reply m ∧
      s' = if (reply : Option Bool) = some true then m.grant key workerId (some leaseExpiresAt) else m
  | .releaseLease key workerId, s, reply, s' =>
    ∃ m, s.Transacts key (releaseLease workerId) reply m ∧
      s' = if (reply : Option Unit).isSome then m.grant key workerId none else m
  | .settleRun key before write, s, reply, s' => s.Transacts key (settleRun before write) reply s'
  | .requestCancellation key read recordedAt, s, reply, s' =>
    s.Transacts key (requestCancellation read recordedAt) reply s'
  | .wakeApproval key requestId now, s, reply, s' =>
    s.Transacts key (wakeApproval requestId now) reply s'

/-- The operations that may start. -/
def startsLease (s : LeaseState) (program : LeaseProg Unit) : Prop :=
  ∃ operation : LeaseOperation, operation.startsAt s.clock ∧ program = operation.program

/-- What happens besides: time passes, runs are created, passes work on a run. -/
inductive LeaseWorld [Host] : LeaseState → LeaseState → Prop
  | tick {s : LeaseState} (clock : Time) (h : s.clock ≤ clock) : LeaseWorld s { s with clock }
  | create {s : LeaseState} (run : RunRow) (hnew : s.runs run.key = none)
      (hqueued : run.status = .queued) (hlease : run.leaseOwner = none) :
      LeaseWorld s (s.create run)
  | work {s s' : LeaseState} {reply : Option Unit} (key : RunKey) (work : RunWork)
      (h : s.Transacts key work.transaction reply s') : LeaseWorld s s'

/-! ### How a status may change -/

/-- A terminal status stays, a requested cancellation stays or ends as cancelled. -/
def WorkflowRunStatus.Follows (before after : WorkflowRunStatus) : Prop :=
  (before.isTerminal = true → after = before) ∧
    (before = .cancelRequested → after = .cancelRequested ∨ after = .cancelled)

namespace WorkflowRunStatus

theorem Follows.refl (status : WorkflowRunStatus) : status.Follows status :=
  ⟨fun _ => rfl, fun h => .inl h⟩

theorem Follows.trans {a b c : WorkflowRunStatus} (hab : a.Follows b) (hbc : b.Follows c) :
    a.Follows c := by
  constructor
  · intro ha
    have hb := hab.1 ha
    rw [← hb] at ha ⊢
    exact hbc.1 ha
  · intro ha
    rcases hab.2 ha with hb | hb
    · exact hbc.2 hb
    · have ht : b.isTerminal = true := by rw [hb]; rfl
      exact .inr ((hbc.1 ht).trans hb)

theorem follows_of_live {before after : WorkflowRunStatus} (ht : before.isTerminal = false)
    (hc : before ≠ .cancelRequested) : before.Follows after := by
  refine ⟨fun h => ?_, fun h => absurd h hc⟩
  rw [ht] at h
  cases h

end WorkflowRunStatus

/-- What work on a run keeps of its row. -/
structure KeepsLease (before after : RunRow) : Prop where
  key : after.key = before.key
  owner : after.leaseOwner = before.leaseOwner
  expires : after.leaseExpiresAt = before.leaseExpiresAt
  terminal : after.status.isTerminal = before.status.isTerminal
  follows : before.status.Follows after.status

theorem KeepsLease.refl (run : RunRow) : KeepsLease run run :=
  ⟨rfl, rfl, rfl, rfl, .refl _⟩

theorem KeepsLease.trans {a b c : RunRow} (hab : KeepsLease a b) (hbc : KeepsLease b c) :
    KeepsLease a c :=
  ⟨hbc.key.trans hab.key, hbc.owner.trans hab.owner, hbc.expires.trans hab.expires,
    hbc.terminal.trans hab.terminal, hab.follows.trans hbc.follows⟩

/-- Only the status changes, from one the run goes on in to another. -/
theorem keepsLease_status {run : RunRow} {status : WorkflowRunStatus}
    (hl : run.status.isTerminal = false) (hc : run.status ≠ .cancelRequested)
    (hn : status.isTerminal = false) : KeepsLease run { run with status } :=
  ⟨rfl, rfl, rfl, hn.trans hl.symm, WorkflowRunStatus.follows_of_live hl hc⟩

theorem keepsLease_waitRun (childKind : ChildKind) (run : RunRow) :
    KeepsLease run (waitRun childKind run) := by
  have hm : ∀ status : WorkflowRunStatus, status.isTerminal = false →
      run.status = .running ∨ run.status = .waitingApproval → KeepsLease run { run with status } := by
    intro status hn hl
    refine keepsLease_status ?_ ?_ hn
    · rcases hl with h | h <;> rw [h] <;> rfl
    · rcases hl with h | h <;> rw [h] <;> decide
  unfold waitRun
  split
  · split
    · next h => exact hm _ rfl (.inl h)
    · exact .refl run
  · split
    · next h => exact hm _ rfl (by simpa using h)
    · exact .refl run
  · exact .refl run

theorem keepsLease_advanceRunProgress (retrying : Bool) (run : RunRow) :
    KeepsLease run (advanceRunProgress retrying run) := by
  unfold advanceRunProgress
  split
  · exact .refl run
  · next h =>
    rw [Bool.or_eq_true, decide_eq_true_eq, not_or, Bool.not_eq_true] at h
    have hn : (if retrying then WorkflowRunStatus.waitingRetry else .running).isTerminal = false := by
      split <;> rfl
    exact ⟨rfl, rfl, rfl, hn.trans h.2.symm, WorkflowRunStatus.follows_of_live h.2 h.1⟩

/-- **Work keeps the lease of a run.** -/
theorem keepsLease_of_work [Host] {work : RunWork} {rows : StoredRun} {written : Written Unit}
    (h : work.transaction rows = .ok written) : KeepsLease rows.run written.rows.run := by
  cases work with
  | appendRunEvent =>
    rw [← Except.ok.inj h]
    exact .refl _
  | ignoreLateResult =>
    rw [← Except.ok.inj h]
    exact .refl _
  | startAttempt write =>
    obtain ⟨inner, hi, rfl⟩ := done_cases h
    rcases startAttempt_cases hi with ⟨-, rfl⟩ | ⟨hc, ht, -, -, -, rfl⟩
    · exact .refl _
    · have hrun : (write.apply rows).run =
          if rows.run.status = .waitingRetry then { rows.run with status := .running } else rows.run :=
        rfl
      rw [hrun]
      split
      · exact keepsLease_status ht hc rfl
      · exact .refl _
  | markChildWaiting write =>
    obtain ⟨-, rfl⟩ := markChildWaiting_cases h
    exact keepsLease_waitRun _ _
  | suspendApproval nodeId recheckAt =>
    rw [← Except.ok.inj h]
    exact keepsLease_waitRun .approval rows.run
  | settleAttempt prior write =>
    obtain ⟨row, backoffMs, nextAttemptAt, -, -, -, -, rfl⟩ := settleAttempt_cases h
    have hcou : KeepsLease rows.run
        (if row.childKind = some .action then countAction rows.run else rows.run) := by
      split
      · exact ⟨rfl, rfl, rfl, rfl, .refl _⟩
      · exact .refl _
    have hrun : (write.apply row backoffMs nextAttemptAt rows).run =
        advanceRunProgress nextAttemptAt.isSome
          (if row.childKind = some .action then countAction rows.run else rows.run) := by
      unfold SettleAttemptWrite.apply
      split <;> rfl
    rw [hrun]
    exact hcou.trans (keepsLease_advanceRunProgress _ _)
  | settleEdge transfer =>
    obtain ⟨-, rfl⟩ := settleEdge_cases h
    exact .refl _
  | markNodeSkipped nodeId reason recordedAt =>
    rcases markNodeSkipped_cases h with rfl | ⟨-, rfl⟩
    · exact .refl _
    · exact ⟨rfl, rfl, rfl, rfl, .refl _⟩
  | recordAgentUsage childRunId usage =>
    obtain ⟨-, usage, cost, hr⟩ := recordAgentUsage_cases h
    rw [hr]
    exact ⟨rfl, rfl, rfl, rfl, .refl _⟩

/-! ### The invariant of one run -/

/-- What holds between the row of a run and the leases granted on it. -/
structure RunLease (clock : Time) (granted : String → Option Time) (run : RunRow) : Prop where
  /-- A grant is in the row, over, or on a run that has ended. -/
  held : ∀ w e, granted w = some e →
    (run.leaseOwner = some w ∧ run.leaseExpiresAt = some e) ∨ e ≤ clock ∨ run.status.isTerminal = true
  owned : ∀ w, run.leaseOwner = some w → ∃ e, run.leaseExpiresAt = some e ∧ granted w = some e
  exclusive : ∀ w w' e e', granted w = some e → granted w' = some e' → clock < e → clock < e' → w = w'
  ended : run.status.isTerminal = true → run.leaseOwner = none

namespace RunLease

variable {clock : Time} {granted : String → Option Time} {run run' : RunRow} {w : String}

theorem tick (h : RunLease clock granted run) {clock' : Time} (hc : clock ≤ clock') :
    RunLease clock' granted run where
  held := fun w e hw => by
    rcases h.held w e hw with ho | hover | hend
    · exact .inl ho
    · exact .inr (.inl (hover.trans hc))
    · exact .inr (.inr hend)
  owned := h.owned
  exclusive := fun w w' e e' hw hw' he he' =>
    h.exclusive w w' e e' hw hw' (hc.trans_lt he) (hc.trans_lt he')
  ended := h.ended

/-- Work keeps the invariant while the run has not ended by it. -/
theorem keep (h : RunLease clock granted run) (ho : run'.leaseOwner = run.leaseOwner)
    (he : run'.leaseExpiresAt = run.leaseExpiresAt)
    (hs : run'.status.isTerminal = run.status.isTerminal) : RunLease clock granted run' where
  held := by rw [ho, he, hs]; exact h.held
  owned := by rw [ho, he]; exact h.owned
  exclusive := h.exclusive
  ended := by rw [ho, hs]; exact h.ended

variable {e expiresAt : Time}

/-- The holder of a lease is its owner in the row of a run that goes on. -/
theorem owner_of_held (h : RunLease clock granted run) (hl : run.status.isTerminal = false)
    (hw : granted w = some e) (he : clock < e) :
    run.leaseOwner = some w ∧ run.leaseExpiresAt = some e := by
  rcases h.held w e hw with ho | hover | hend
  · exact ho
  · exact absurd he (not_lt.2 hover)
  · rw [hl] at hend
    cases hend

/-- Granting a lease to the owner, when no one else holds one. -/
theorem grant (ho : ∀ w' e, w' ≠ w → granted w' = some e → e ≤ clock)
    (hown : run.leaseOwner = some w) (hexp : run.leaseExpiresAt = some expiresAt)
    (hl : run.status.isTerminal = false) :
    RunLease clock (Function.update granted w (some expiresAt)) run := by
  have hs : ∀ w' e, Function.update granted w (some expiresAt) w' = some e → clock < e → w' = w := by
    intro w' e hw' he
    by_contra hne
    rw [Function.update_of_ne hne] at hw'
    exact absurd he (not_lt.2 (ho w' e hne hw'))
  refine ⟨fun w' e hw' => ?_, fun w' hw' => ?_, fun w₁ w₂ e₁ e₂ h₁ h₂ he₁ he₂ => ?_, fun hend => ?_⟩
  · by_cases hw : w' = w
    · subst hw
      rw [Function.update_self] at hw'
      exact .inl ⟨hown, hexp.trans hw'⟩
    · rw [Function.update_of_ne hw] at hw'
      exact .inr (.inl (ho w' e hw hw'))
  · obtain rfl : w = w' := Option.some.inj (hown.symm.trans hw')
    exact ⟨expiresAt, hexp, Function.update_self ..⟩
  · rw [hs w₁ e₁ h₁ he₁, hs w₂ e₂ h₂ he₂]
  · rw [hl] at hend
    cases hend

/-- **A claim** takes a lease that no one holds, or renews one's own. -/
theorem claim (h : RunLease clock granted run) {read : RunRow} {now : Time}
    (hnow : now ≤ clock) (hl : run.status.isTerminal = false)
    (hr : read.status.isTerminal = false)
    (hf : run.leaseOwner = none ∨ (∃ e ≤ now, run.leaseExpiresAt = some e) ∨
      run.leaseOwner = some w) :
    RunLease clock (Function.update granted w (some expiresAt))
      (run.claimed read w now expiresAt) := by
  refine grant (fun w' e hne hw' => ?_) rfl rfl ?_
  · by_contra hlt
    obtain ⟨ho, hexp⟩ := h.owner_of_held hl hw' (not_le.1 hlt)
    rcases hf with hn | ⟨e', he', hs⟩ | hself
    · rw [ho] at hn
      cases hn
    · obtain rfl : e = e' := Option.some.inj (hexp.symm.trans hs)
      exact hlt (he'.trans hnow)
    · exact hne (Option.some.inj (ho.symm.trans hself))
  · show (if read.status = .queued then WorkflowRunStatus.running else read.status).isTerminal = false
    split
    · rfl
    · exact hr

/-- **A renewal** by the owner moves the end of the one lease. -/
theorem renew (h : RunLease clock granted run)
    (ho : run.leaseOwner = some w) (hl : run.status.isTerminal = false) :
    RunLease clock (Function.update granted w (some expiresAt))
      { run with leaseExpiresAt := some expiresAt } := by
  refine grant (fun w' e hne hw' => ?_) ho rfl hl
  by_contra hlt
  obtain ⟨ho', -⟩ := h.owner_of_held hl hw' (not_le.1 hlt)
  exact hne (Option.some.inj (ho'.symm.trans ho))

theorem granted_of_dropped {w' : String}
    (h : Function.update granted w none w' = some e) : w' ≠ w ∧ granted w' = some e := by
  by_cases hw : w' = w
  · subst hw
    rw [Function.update_self] at h
    cases h
  · rw [Function.update_of_ne hw] at h
    exact ⟨hw, h⟩

/-- Dropping the grant of a worker that is not the owner any more. -/
theorem drop (h : RunLease clock granted run) (ho : run.leaseOwner ≠ some w) :
    RunLease clock (Function.update granted w none) run where
  held := fun w' e hw' => h.held w' e (granted_of_dropped hw').2
  owned := fun w' hw' => by
    obtain ⟨e, he, hg⟩ := h.owned w' hw'
    have hne : w' ≠ w := by
      rintro rfl
      exact ho hw'
    exact ⟨e, he, by rw [Function.update_of_ne hne, hg]⟩
  exclusive := fun w₁ w₂ e₁ e₂ h₁ h₂ =>
    h.exclusive w₁ w₂ e₁ e₂ (granted_of_dropped h₁).2 (granted_of_dropped h₂).2
  ended := h.ended

/-- **A release** by the owner leaves a run without a lease. -/
theorem release (h : RunLease clock granted run) (ho : run.leaseOwner = some w) :
    RunLease clock (Function.update granted w none)
      { run with leaseOwner := none, leaseExpiresAt := none } where
  held := fun w' e hw' => by
    obtain ⟨hne, hg⟩ := granted_of_dropped hw'
    rcases h.held w' e hg with ⟨ho', -⟩ | hover | he
    · exact absurd (Option.some.inj (ho'.symm.trans ho)) hne
    · exact .inr (.inl hover)
    · exact .inr (.inr he)
  owned := fun _ hw => (nomatch hw)
  exclusive := fun w₁ w₂ e₁ e₂ h₁ h₂ =>
    h.exclusive w₁ w₂ e₁ e₂ (granted_of_dropped h₁).2 (granted_of_dropped h₂).2
  ended := fun _ => rfl

/-- **The end of a run** leaves it without a lease. -/
theorem settle (h : RunLease clock granted run) (write : SettleRunWrite) :
    RunLease clock granted (write.settle run) where
  held := fun _ _ _ => .inr (.inr write.status.2)
  owned := fun _ hw => (nomatch hw)
  exclusive := h.exclusive
  ended := fun _ => rfl

end RunLease

/-! ### The invariant of the shared state -/

/-- Every run and the leases granted on it. -/
structure LeaseInv (s : LeaseState) : Prop where
  run : ∀ key rows, s.runs key = some rows → RunLease s.clock (s.granted key) rows.run
  fresh : ∀ key, s.runs key = none → ∀ w, s.granted key w = none

/-- Time goes on and statuses follow. -/
def LeaseRely (s s' : LeaseState) : Prop :=
  s.clock ≤ s'.clock ∧ ∀ key rows, s.runs key = some rows →
    ∃ rows', s'.runs key = some rows' ∧ rows.run.status.Follows rows'.run.status

theorem LeaseRely.refl (s : LeaseState) : LeaseRely s s :=
  ⟨le_rfl, fun _ rows h => ⟨rows, h, .refl _⟩⟩

theorem LeaseRely.trans (a b c : LeaseState) (hab : LeaseRely a b) (hbc : LeaseRely b c) :
    LeaseRely a c := by
  refine ⟨hab.1.trans hbc.1, fun key rows h => ?_⟩
  obtain ⟨rows', h', hf⟩ := hab.2 key rows h
  obtain ⟨rows'', h'', hf'⟩ := hbc.2 key rows' h'
  exact ⟨rows'', h'', hf.trans hf'⟩

variable {s s' : LeaseState} {now expiresAt : Time} {reply : Option Bool} {w : String}

theorem LeaseInv.set (hi : LeaseInv s) {key : RunKey} {rows rows' : StoredRun}
    (hrows : s.runs key = some rows) {granted : String → Option Time}
    (hrun : RunLease s.clock granted rows'.run)
    (hf : rows.run.status.Follows rows'.run.status) :
    LeaseInv { s with
        runs := Function.update s.runs key (some rows')
        granted := Function.update s.granted key granted } ∧
      LeaseRely s { s with
        runs := Function.update s.runs key (some rows')
        granted := Function.update s.granted key granted } := by
  refine ⟨⟨fun k r hr => ?_, fun k hk => ?_⟩, le_rfl, fun k r hr => ?_⟩
  · by_cases hkey : k = key
    · subst hkey
      rw [show r = rows' by simpa using hr.symm]
      simpa using hrun
    · simp only [Function.update_of_ne hkey] at hr ⊢
      exact hi.run k r hr
  · by_cases hkey : k = key
    · subst hkey
      simp at hk
    · simp only [Function.update_of_ne hkey] at hk ⊢
      exact hi.fresh k hk
  · by_cases hkey : k = key
    · subst hkey
      obtain rfl : rows = r := Option.some.inj (hrows.symm.trans hr)
      exact ⟨rows', Function.update_self .., hf⟩
    · exact ⟨r, by simpa [Function.update_of_ne hkey] using hr, .refl _⟩

/-- A transaction that keeps the invariant of its run keeps the one of the state. -/
theorem LeaseInv.transacts (hi : LeaseInv s) {key : RunKey}
    {transaction : Transaction α} {reply : Option α} (h : s.Transacts key transaction reply s')
    (hk : ∀ rows written, s.runs key = some rows → transaction rows = .ok written →
      RunLease s.clock (s.granted key) written.rows.run ∧
        rows.run.status.Follows written.rows.run.status) :
    LeaseInv s' ∧ LeaseRely s s' := by
  rcases h with ⟨-, rfl⟩ | ⟨rows, written, hr, hw, -, rfl⟩
  · exact ⟨hi, .refl _⟩
  · obtain ⟨hrun, hf⟩ := hk rows written hr hw
    have hs := hi.set hr hrun hf
    rwa [Function.update_eq_self] at hs

/-! ### The statements keep it -/

/-- What the programs see to: a claim is made of a row that was claimable, at a time
that has come. -/
def LeaseCall.Good (clock : Time) : LeaseCall → Prop
  | .claimRun _ read _ now _ => read.claimable now = true ∧ now ≤ clock
  | _ => True

theorem RunRow.isTerminal_of_claimable {row : RunRow} (h : row.claimable now = true) :
    row.status.isTerminal = false := by
  rw [RunRow.claimable, Bool.and_eq_true] at h
  cases hs : row.status with
  | succeeded | failed | refused | cancelled => simp [hs] at h
  | _ => rfl

/-- A claimed run goes on: a queued one starts, another keeps its status. -/
theorem RunRow.follows_claimed {run read : RunRow} (hs : run.status = read.status) (w : String)
    (now expiresAt : Time) : run.status.Follows (run.claimed read w now expiresAt).status := by
  show run.status.Follows (if read.status = .queued then .running else read.status)
  rw [hs]
  split
  · next hq => exact WorkflowRunStatus.follows_of_live (by rw [hq]; rfl) (by rw [hq]; decide)
  · exact .refl _

theorem serveLease_claimRun (hi : LeaseInv s) {key : RunKey} {read : RunRow}
    (hr : read.claimable now = true)
    (hn : now ≤ s.clock) (h : serveLease (.claimRun key read w now expiresAt) s reply s') :
    LeaseInv s' ∧ LeaseRely s s' := by
  obtain ⟨m, hm, rfl⟩ := h
  rcases hm with ⟨rfl, rfl⟩ | ⟨rows, written, hrows, hw, rfl, rfl⟩
  · exact ⟨hi, .refl _⟩
  · rcases claimRun_cases hw with rfl | ⟨hf, hs, rfl⟩
    · have hset := hi.set hrows (hi.run key rows hrows) (.refl _)
      rw [Function.update_eq_self key s.granted] at hset
      exact hset
    · have hl : rows.run.status.isTerminal = false := by
        rw [hs]
        exact RunRow.isTerminal_of_claimable hr
      exact hi.set hrows
        ((hi.run key rows hrows).claim hn hl (RunRow.isTerminal_of_claimable hr) hf)
        (RunRow.follows_claimed hs w now expiresAt)

theorem serveLease_renewLease (hi : LeaseInv s) {key : RunKey}
    (h : serveLease (.renewLease key w expiresAt) s reply s') : LeaseInv s' ∧ LeaseRely s s' := by
  obtain ⟨m, hm, rfl⟩ := h
  rcases hm with ⟨rfl, rfl⟩ | ⟨rows, written, hr, hw, rfl, rfl⟩
  · exact ⟨hi, .refl _⟩
  · unfold renewLease at hw
    split at hw
    · next hg =>
      rw [Bool.and_eq_true, decide_eq_true_eq, Bool.not_eq_true'] at hg
      rw [← Except.ok.inj hw]
      exact hi.set hr ((hi.run key rows hr).renew hg.1 hg.2) (.refl _)
    · rw [← Except.ok.inj hw]
      have hs := hi.set hr (hi.run key rows hr) (.refl _)
      rw [Function.update_eq_self key s.granted] at hs
      exact hs

theorem serveLease_releaseLease (hi : LeaseInv s) {key : RunKey}
    {reply : Option Unit} (h : serveLease (.releaseLease key w) s reply s') :
    LeaseInv s' ∧ LeaseRely s s' := by
  obtain ⟨m, hm, rfl⟩ := h
  rcases hm with ⟨rfl, rfl⟩ | ⟨rows, written, hr, hw, rfl, rfl⟩
  · exact ⟨hi, .refl _⟩
  · unfold releaseLease at hw
    split at hw
    · next ho =>
      rw [← Except.ok.inj hw]
      exact hi.set hr ((hi.run key rows hr).release (by simpa using ho)) (.refl _)
    · next ho =>
      rw [← Except.ok.inj hw]
      exact hi.set hr ((hi.run key rows hr).drop (by simpa using ho)) (.refl _)

/-- **Every good statement keeps the invariant.** -/
theorem serveLease_keeps (hi : LeaseInv s) {call : LeaseCall}
    (hg : call.Good s.clock) {reply : call.Reply} (h : serveLease call s reply s') :
    LeaseInv s' ∧ LeaseRely s s' := by
  cases call with
  | claimCandidates now =>
    obtain ⟨-, rfl⟩ := h
    exact ⟨hi, .refl _⟩
  | getRun key =>
    obtain ⟨-, rfl⟩ := h
    exact ⟨hi, .refl _⟩
  | claimRun key read w now expiresAt => exact serveLease_claimRun hi hg.1 hg.2 h
  | renewLease key w expiresAt => exact serveLease_renewLease hi h
  | releaseLease key w => exact serveLease_releaseLease hi h
  | settleRun key before write =>
    refine hi.transacts h fun rows written hrows hw => ?_
    rcases settleRun_cases hw with ⟨hs, -⟩ | ⟨hl, hc, hsta, rfl⟩
    · rw [hs]
      exact ⟨hi.run key rows hrows, .refl _⟩
    · refine ⟨(hi.run key rows hrows).settle write, fun he => ?_, fun hr => ?_⟩
      · rw [hsta, hl] at he
        cases he
      · exact .inr (hc (hsta.symm.trans hr))
  | requestCancellation key read recordedAt =>
    refine hi.transacts h fun rows written hrows hw => ?_
    rcases requestCancellation_cases hw with ⟨hs, -⟩ | ⟨hl, hc, rfl⟩
    · rw [hs]
      exact ⟨hi.run key rows hrows, .refl _⟩
    · exact ⟨(hi.run key rows hrows).keep rfl rfl hl.symm, WorkflowRunStatus.follows_of_live hl hc⟩
  | wakeApproval key requestId now =>
    refine hi.transacts h fun rows written hrows hw => ?_
    rw [← Except.ok.inj hw]
    exact ⟨hi.run key rows hrows, .refl _⟩

/-- What workers that share a database agree on. -/
@[reducible] def leaseDiscipline : Discipline LeaseCall LeaseCall.Reply LeaseState where
  serve := serveLease
  inv := LeaseInv
  rely := LeaseRely
  ok := fun call s => call.Good s.clock
  refl := .refl
  trans := .trans _ _ _
  keeps := fun hinv hgood h => serveLease_keeps hinv hgood h

/-! ### The programs are safe -/

/-- The end of an operation: time went on. -/
def EndsAfter {α : Type} (clock : Time) (_ : Except String α) (s : LeaseState) : Prop :=
  clock ≤ s.clock

variable {α : Type} {post : Except String α → LeaseState → Prop}

/-- A program is safe if its first call is good and what follows is safe. -/
theorem safe_call {call : LeaseCall} {next : call.Reply → LeaseProg α}
    (hg : ∀ clock, s.clock ≤ clock → call.Good clock)
    (hn : ∀ reply (s' : LeaseState), s.clock ≤ s'.clock →
      leaseDiscipline.Safe post (next reply) s') :
    leaseDiscipline.Safe post (.call call next) s := by
  intro s₁ hr hi
  refine ⟨hg _ hr.1, fun reply s₂ hs => ?_⟩
  obtain ⟨-, hr'⟩ := serveLease_keeps hi (hg _ hr.1) hs
  exact hn reply s₂ (hr.1.trans hr'.1)

/-- A claim is safe at a time that has come. -/
theorem safe_claim (key : RunKey) (w : String) (expiresAt : Time) (hn : now ≤ s.clock) :
    leaseDiscipline.Safe (EndsAfter now) (claim key w now expiresAt) s := by
  refine safe_call (fun _ _ => trivial) fun read s₁ h₁ => ?_
  cases read with
  | none => exact hn.trans h₁
  | some row =>
    show leaseDiscipline.Safe _ (if row.claimable now = true then _ else _) s₁
    split
    · next hc =>
      refine safe_call (fun clock hclo => ⟨hc, (hn.trans h₁).trans hclo⟩) fun changed s₂ h₂ => ?_
      have hnow₂ : now ≤ s₂.clock := (hn.trans h₁).trans h₂
      match changed with
      | none => exact hnow₂
      | some false => exact hnow₂
      | some true => exact safe_call (fun _ _ => trivial) fun _ _ h₃ => hnow₂.trans h₃
    · exact hn.trans h₁

theorem safe_claimFirst (w : String) (expiresAt : Time) :
    ∀ (candidates : List RunKey) {s : LeaseState}, now ≤ s.clock →
      leaseDiscipline.Safe (EndsAfter now) (claimFirst w now expiresAt candidates) s := by
  intro candidates
  induction candidates with
  | nil => exact fun hn => hn
  | cons key candidates ih =>
    intro s hn
    rw [claimFirst, Discipline.safe_bind]
    refine (safe_claim key w expiresAt hn).mono fun out s' ho => ?_
    match out with
    | .error e => exact ho
    | .ok none => exact ih ho
    | .ok (some claimed) => exact ho

/-- **Every operation is safe.** -/
theorem safe_operation {operation : LeaseOperation} (hs : operation.startsAt s.clock) :
    leaseDiscipline.Safe (fun _ _ => True) operation.program s := by
  have he : ∀ {α : Type} (now : Time) {p : LeaseProg α} {s : LeaseState},
      leaseDiscipline.Safe (EndsAfter now) p s →
        leaseDiscipline.Safe (fun (_ : Except String Unit) _ => True) (p >>= fun _ => pure ()) s := by
    intro α now p s hp
    rw [Discipline.safe_bind]
    refine hp.mono fun out s' _ => ?_
    cases out <;> trivial
  cases operation with
  | claimNext w now expiresAt =>
    refine he now ?_
    refine safe_call (fun _ _ => trivial) fun candidates s' h => ?_
    exact safe_claimFirst w expiresAt candidates (le_trans hs h)
  | claim key w now expiresAt => exact he now (safe_claim key w expiresAt hs)
  | renewLease | releaseLease | wakeApproval =>
    exact safe_call (fun _ _ => trivial) fun _ _ _ => trivial
  | settleRun key write =>
    refine safe_call (fun _ _ => trivial) fun before s' _ => ?_
    cases before with
    | none => trivial
    | some before => exact safe_call (fun _ _ => trivial) fun _ _ _ => trivial
  | requestCancellation key recordedAt =>
    refine safe_call (fun _ _ => trivial) fun read s' _ => ?_
    cases read with
    | none => trivial
    | some read => exact safe_call (fun _ _ => trivial) fun _ _ _ => trivial

/-! ### Exclusion -/

/-- A worker holds an unexpired lease on a run. -/
def LeaseState.Holds (s : LeaseState) (key : RunKey) (w : String) : Prop :=
  ∃ expiresAt, s.granted key w = some expiresAt ∧ s.clock < expiresAt

/-- The steps of workers that share a clock. -/
abbrev LeaseStep [Host] := Pool.Step serveLease startsLease LeaseWorld

/-- What workers that share a clock reach from a database without runs. -/
abbrev LeaseReachable [Host] (clock : Time) := Pool.Reachable serveLease startsLease LeaseWorld { clock }

/-- A new run has no lease. -/
theorem LeaseInv.create (hi : LeaseInv s) {run : RunRow}
    (hnew : s.runs run.key = none) (hl : run.leaseOwner = none) :
    LeaseInv (s.create run) ∧ LeaseRely s (s.create run) := by
  have ho : ∀ key, key ≠ run.key → (s.create run).runs key = s.runs key :=
    fun key hk => Function.update_of_ne hk _ _
  have hs : (s.create run).runs run.key = some (createRun run).rows := Function.update_self ..
  refine ⟨⟨fun key rows h => ?_, fun key h => ?_⟩, le_rfl, fun key rows h => ?_⟩
  · by_cases hk : key = run.key
    · subst hk
      obtain rfl : (createRun run).rows = rows := Option.some.inj (hs.symm.trans h)
      have hn : ∀ w e, (s.create run).granted run.key w ≠ some e := by
        intro w e hw
        exact absurd ((hi.fresh _ hnew w).symm.trans hw) (by simp)
      refine ⟨fun w e hw => absurd hw (hn w e), fun w hw => ?_,
        fun w w' e e' hw => absurd hw (hn w e), fun _ => hl⟩
      exact absurd (hl.symm.trans hw) (by simp)
    · exact hi.run key rows ((ho key hk).symm.trans h)
  · have hk : key ≠ run.key := by
      rintro rfl
      exact absurd (hs.symm.trans h) (by simp)
    exact hi.fresh key ((ho key hk).symm.trans h)
  · have hk : key ≠ run.key := by
      rintro rfl
      exact absurd (hnew.symm.trans h) (by simp)
    exact ⟨rows, (ho key hk).trans h, .refl _⟩

theorem leaseKeeps [Host] : Pool.Keeps leaseDiscipline startsLease LeaseWorld where
  starts := by
    rintro s p - ⟨operation, hs, rfl⟩
    exact safe_operation hs
  world := by
    intro s s' (hi : LeaseInv s) hwor
    cases hwor with
    | tick clock hc =>
      exact ⟨⟨fun key rows h => (hi.run key rows h).tick hc, hi.fresh⟩, hc,
        fun key rows h => ⟨rows, h, .refl _⟩⟩
    | create run hn hq hl => exact hi.create hn hl
    | work key work ht =>
      refine hi.transacts ht fun rows written hr hw => ?_
      have hk := keepsLease_of_work hw
      exact ⟨(hi.run key rows hr).keep hk.owner hk.expires hk.terminal, hk.follows⟩

/-- A worker that is not the owner in the row can neither renew nor release. -/
theorem not_owner {rows : StoredRun} (h : rows.run.leaseOwner ≠ some w)
    (expiresAt : Time) : renewLease w expiresAt rows = .ok { result := false, rows } ∧
      releaseLease w rows = .ok { result := (), rows } := by
  constructor
  · unfold renewLease
    rw [if_neg (by simp [h])]
  · unfold releaseLease
    rw [if_neg h]

/-- **Lease exclusion and monotone statuses.**  In every state workers reach, at most
one holds an unexpired lease on a run, and it is the one the row names; a step leaves
a terminal status and takes a requested cancellation at most to cancelled; and a
worker another one took over from can neither renew nor release. -/
theorem lease_exclusion [Host] (clock : Time) (pool : Pool LeaseCall LeaseCall.Reply LeaseState)
    (h : LeaseReachable clock pool) :
    (∀ key w w', pool.shared.Holds key w → pool.shared.Holds key w' → w = w') ∧
      (∀ key rows w expiresAt, pool.shared.runs key = some rows → rows.run.leaseOwner = some w →
        rows.run.leaseExpiresAt = some expiresAt → pool.shared.clock < expiresAt →
          pool.shared.Holds key w) ∧
      (∀ pool', LeaseStep pool pool' → ∀ key rows, pool.shared.runs key = some rows →
        ∃ rows', pool'.shared.runs key = some rows' ∧ rows.run.status.Follows rows'.run.status) ∧
      ∀ key rows w w', pool.shared.runs key = some rows → w ≠ w' →
        (rows.run.leaseOwner = some w' ∨ pool.shared.Holds key w') → ∀ expiresAt,
          renewLease w expiresAt rows = .ok { result := false, rows } ∧
            releaseLease w rows = .ok { result := (), rows } := by
  have hsta : LeaseInv { clock } := ⟨fun _ _ h => (nomatch h), fun _ _ _ => rfl⟩
  have hi : LeaseInv pool.shared := Pool.invariant leaseKeeps hsta h
  refine ⟨?_, ?_, fun pool' hs => (Pool.step_rely leaseKeeps hsta h hs).2, ?_⟩
  · rintro key w w' ⟨e, hw, he⟩ ⟨e', hw', he'⟩
    cases hr : pool.shared.runs key with
    | none =>
      rw [hi.fresh key hr w] at hw
      cases hw
    | some rows => exact (hi.run key rows hr).exclusive w w' e e' hw hw' he he'
  · intro key rows w expiresAt hr ho hexp hlt
    obtain ⟨e, he, hg⟩ := (hi.run key rows hr).owned w ho
    obtain rfl : expiresAt = e := Option.some.inj (hexp.symm.trans he)
    exact ⟨expiresAt, hg, hlt⟩
  · intro key rows w w' hr hne hh expiresAt
    have hrun := hi.run key rows hr
    refine not_owner (fun hw => ?_) expiresAt
    rcases hh with ho | ⟨e, hg, he⟩
    · exact hne (Option.some.inj (hw.symm.trans ho))
    · cases ht : rows.run.status.isTerminal with
      | true =>
        rw [hrun.ended ht] at hw
        cases hw
      | false =>
        obtain ⟨ho, -⟩ := hrun.owner_of_held ht hg he
        exact hne (Option.some.inj (hw.symm.trans ho))

/-- The run has been created and a worker has claimed it. -/
def claimedState : LeaseState :=
  ((LeaseState.create { clock := 0 } bareRun).setRows bareRun.key
    ((createRun bareRun).rows.setRun fun run => run.claimed bareRun "worker" 0 100)).grant
    bareRun.key "worker" (some 100)

theorem claimedState_reachable :
    ∃ threads, @LeaseReachable plainHost 0 ⟨claimedState, threads⟩ := by
  let _ := plainHost
  have hc : LeaseReachable 0 ⟨LeaseState.create { clock := 0 } bareRun, []⟩ :=
    .single (.world (.create bareRun rfl rfl rfl))
  have hs := hc.tail (.start ⟨.claim bareRun.key "worker" 0 100, le_rfl, rfl⟩)
  have hr := hs.tail (@Pool.Step.call _ _ _ _ _ _ _ _ [] [] (LeaseCall.getRun bareRun.key) _
    (some bareRun) ⟨rfl, rfl⟩)
  have hcla := hr.tail (@Pool.Step.call _ _ _ _ _ _ _ claimedState [] []
    (LeaseCall.claimRun bareRun.key bareRun "worker" 0 100) _ (some true)
    ⟨_, .inr ⟨(createRun bareRun).rows, _, rfl, rfl, rfl, rfl⟩, rfl⟩)
  exact ⟨_, hcla⟩

theorem lease_exclusion_claimed : claimedState.Holds bareRun.key "worker" ∧
    ∀ w, claimedState.Holds bareRun.key w → w = "worker" := by
  have hh : claimedState.Holds bareRun.key "worker" := ⟨100, rfl, by decide⟩
  obtain ⟨threads, hr⟩ := claimedState_reachable
  exact ⟨hh, fun w hw => (@lease_exclusion plainHost 0 _ hr).1 _ _ _ hw hh⟩

end Flowdular.Workflows
