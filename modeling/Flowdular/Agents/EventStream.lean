/-
# What an event stream keeps

An event is appended without the lease that the terminal writes ask for.  So the stream of a run
belongs to its holder where a cancellation, or a claim of a run whose lease is over, finds no event
waiting to be written, and where the harness calls `onEvent` only while its execution holds the run
(`Undisturbed`).  What a move does is one of five things (`StreamEffect`), and the outline
(`streamOutline`) is derived from them.

Otherwise an event that waits is stored in a run that is cancelled, or that another worker claimed
(`event_stored_late`), although "an event refused on a run this worker no longer holds is the lost
lease".
-/

import Flowdular.Agents.RunStandings

namespace Flowdular.Agents

open Lib Workflows

/-- An execution of the run has events that wait to be written. -/
def StreamProcess.waits (tenantId runId : String) : StreamProcess → Bool
  | .executing x => x.tenantId = tenantId && x.runId = runId && !x.eventWrites.isEmpty
  | _ => false

/-- The execution holds its run. -/
def RunStream.holds (s : RunStream) (x : Execution) : Bool :=
  s.tables.runs.any fun row =>
    row.is x.tenantId x.runId && row.status = .running && row.attempt = x.attempt

/-- A run is taken from an execution only where none of its events waits, and an execution that lost
its run produces none. -/
def Undisturbed : Machine.Condition RunStream StreamProcess := fun s others p =>
  match p with
  | .claiming tenantId runId _ _ now =>
    (s.tables.runs.any fun row => row.is tenantId runId && row.claimable now) = true →
      ∀ q ∈ others, q.waits tenantId runId = false
  | .cancelling tenantId _ runId _ _ => ∀ q ∈ others, q.waits tenantId runId = false
  | .executing x => x.calling = true → x.eventFailure.isSome = true ∨ s.holds x = true
  | _ => True

instance (s : RunStream) (others : List StreamProcess) :
    (p : StreamProcess) → Decidable (Undisturbed s others p)
  | .claiming _ _ _ _ _ => inferInstanceAs (Decidable (_ → ∀ q ∈ others, _))
  | .cancelling _ _ _ _ _ => inferInstanceAs (Decidable (∀ q ∈ others, _))
  | .executing _ => inferInstanceAs (Decidable (_ → _))
  | .candidate _ _ _ _ => isTrue trivial
  | .cancel _ _ _ => isTrue trivial
  | .reading _ _ _ _ => isTrue trivial
  | .over => isTrue trivial

/-- The events of each run are numbered 1 to n. -/
def Numbered (events : List RunEventRow) : Prop :=
  ∀ tenantId runId, (eventsOf events tenantId runId).map (·.sequence) =
    List.range' 1 (eventsOf events tenantId runId).length

/-- The log says how each run stands. -/
def RunStream.begin (tables : AgentTables) (events : List RunEventRow) : RunStream :=
  { tables, events, log := tables.runs.map fun row => .stood row.tenantId row.id row.status row.attempt }

/-- **A stream that belongs to the holder of its run.**  The events of a run are numbered 1 to n; the
log says how each run stands; and an event is stored where the run has never stood with a terminal
status, nor with an attempt behind the one that produced it. -/
structure EventStreamExact (s : RunStream) : Prop where
  numbered : Numbered s.events
  told : ∀ row ∈ s.tables.runs, .stood row.tenantId row.id row.status row.attempt ∈ s.log
  held : ∀ recent tenantId runId attempt earlier,
    s.log = recent ++ .stored tenantId runId attempt :: earlier →
    ∀ status attempt', .stood tenantId runId status attempt' ∈ earlier →
      status.terminal = false ∧ attempt' ≤ attempt

/-! ### The moves -/

/-- An execution goes on, with no events that wait where none waited. -/
structure Execution.Goes (x x' : Execution) : Prop where
  tenantId : x'.tenantId = x.tenantId := by rfl
  runId : x'.runId = x.runId := by rfl
  workerId : x'.workerId = x.workerId := by rfl
  attempt : x'.attempt = x.attempt := by rfl
  waits : x.eventWrites = [] → x'.eventWrites = []

/-- What is an execution behind a move goes on. -/
def Continues (p p' : StreamProcess) : Prop :=
  ∀ x', p' = .executing x' → ∃ x, p = .executing x ∧ x.Goes x'

/-- What is in flight stays so, but for an execution that is over. -/
def Flies (s s' : RunStream) (p p' : StreamProcess) : Prop :=
  ∀ entry ∈ s.inFlight, entry ∈ s'.inFlight ∨
    p' = .over ∧ ∃ x, p = .executing x ∧ entry = (x.workerId, x.runId)

/-- The log is told how a run stands. -/
def Tells (s s' : RunStream) (tenantId runId : String) : Prop :=
  s'.events = s.events ∧ s'.log = s'.tables.mark tenantId runId ++ s.log

/-- **What a move does:** no run stands otherwise and no event is stored; or the harness calls
`onEvent`; or an event is stored; or a run is claimed; or a run is settled, by its holder, where none of
its events waits, or by one who cancels it. -/
inductive StreamEffect (s s' : RunStream) (p p' : StreamProcess) : Prop
  | quiet (hsame : SameStanding s.tables s'.tables) (hevents : s'.events = s.events)
      (hlog : s'.log = s.log ∨ ∃ tenantId runId, Tells s s' tenantId runId)
      (hcont : Continues p p') (hflight : Flies s s' p p')
  | queue (x : Execution) (event : AgentExecutionEvent) (hp : p = .executing x)
      (hcalling : x.calling = true) (hfailure : x.eventFailure = none) (hs : s' = s)
      (hp' : p' = .executing { x with
        phase := .executing, eventWrites := x.eventWrites ++ [event] })
  | store (x : Execution) (event : AgentExecutionEvent) (hp : p = .executing x)
      (hwaits : x.eventWrites ≠ [])
      (hs : s.appendRunEvent x.tenantId x.runId event x.attempt = .ok s') (hcont : Continues p p')
      (hplace : p' ≠ .over)
  | claim (tenantId runId workerId : String) (leaseMs now : ℤ) (row : RunRow)
      (hp : p = .claiming tenantId runId workerId leaseMs now)
      (hclaims : Claims s.tables s'.tables tenantId runId workerId now row)
      (hfree : (workerId, runId) ∉ s.inFlight) (htells : Tells s s' tenantId runId)
      (hp' : p' = .over ∧ s'.inFlight = s.inFlight ∨
        p' = .executing { tenantId, runId, workerId, leaseMs, attempt := row.attempt + 1 } ∧
          s'.inFlight = (workerId, runId) :: s.inFlight)
  | settle (tenantId runId : String) (row : RunRow) (status : Status)
      (hp : (∃ actorId cancelledAt previous,
          p = .cancelling tenantId actorId runId cancelledAt previous) ∨
        ∃ x, p = .executing x ∧ x.tenantId = tenantId ∧ x.runId = runId ∧ x.eventWrites = [] ∧
          row.heldBy x.workerId = true)
      (hsettles : Settles s.tables s'.tables tenantId runId row status)
      (htells : Tells s s' tenantId runId) (hcont : Continues p p') (hflight : Flies s s' p p')

section Moves

variable {s s' : RunStream} {p p' : StreamProcess} {x x' : Execution} {choice : AgentChoice}

theorem continues_over : Continues p .over :=
  fun _ hx' => nomatch hx'

variable {leaseMs now cancelledAt : ℤ} {runId tenantId workerId : String} {c : AgentCall}

theorem continues_claiming : Continues p (.claiming tenantId runId workerId leaseMs now) :=
  fun _ hx' => nomatch hx'

theorem continues_reading {actorId : String} :
    Continues p (.reading tenantId actorId runId cancelledAt) :=
  fun _ hx' => nomatch hx'

theorem continues_cancelling {actorId : String} {previous : Status} :
    Continues p (.cancelling tenantId actorId runId cancelledAt previous) :=
  fun _ hx' => nomatch hx'

theorem continues_goes (h : x.Goes x') : Continues (.executing x) (.executing x') := by
  intro x'' hx''
  cases hx''
  exact ⟨x, rfl, h⟩

theorem flies_same (h : s'.inFlight = s.inFlight) : Flies s s' p p' :=
  fun _ he => .inl (h ▸ he)

theorem flies_leave (h : s'.inFlight = s.inFlight) : Flies s (s'.leave x) (.executing x) .over := by
  intro entry he
  by_cases heq : entry = (x.workerId, x.runId)
  · exact .inr ⟨rfl, x, rfl, heq⟩
  · refine .inl (List.mem_filter.2 ⟨h ▸ he, ?_⟩)
    simpa using heq

/-- A move that leaves the tables. -/
theorem effect_still (h : x.Goes x') : StreamEffect s s (.executing x) (.executing x') :=
  .quiet (fun _ _ => rfl) rfl (.inl rfl) (continues_goes h) (flies_same rfl)

/-- A write of the first event that waits. -/
theorem effect_write {event : AgentExecutionEvent} {rest : List AgentExecutionEvent}
    (hw : x.eventWrites = event :: rest) :
    StreamEffect s (writeEvent s x event rest choice).1 (.executing x)
      (.executing (writeEvent s x event rest choice).2) := by
  have hne : x.eventWrites ≠ [] := by
    rw [hw]
    exact List.cons_ne_nil _ _
  have hrest : x.Goes { x with eventWrites := rest } := { waits := fun h => absurd h hne }
  have hr : ∀ error, x.Goes (x.refused error) := fun _ => { waits := fun _ => rfl }
  rw [writeEvent]
  cases ha : s.appendRunEvent x.tenantId x.runId event x.attempt with
  | error error => exact effect_still (hr error)
  | ok stored =>
    rcases choice.fails with _ | ⟨_ | _, error⟩
    · exact .store x event rfl hne ha (continues_goes hrest) nofun
    · exact effect_still (hr error)
    · exact .store x event rfl hne ha (continues_goes (hr error)) nofun

variable [Metering]

/-! What a call of the stream leaves, whichever it is. -/

theorem serve_tables : (s.serve tenantId runId c choice).2.tables = (c.serve s.tables choice).2 :=
  rfl

theorem serve_tells : Tells s (s.serve tenantId runId c choice).2 tenantId runId :=
  ⟨rfl, rfl⟩

theorem serve_inFlight : (s.serve tenantId runId c choice).2.inFlight = s.inFlight :=
  rfl

theorem effect_renew (h : x.Goes x') :
    StreamEffect s (s.renew x choice).2 (.executing x) (.executing x') := by
  refine .quiet ?_ rfl (.inr ⟨x.tenantId, x.runId, rfl, rfl⟩) (continues_goes h) (flies_same rfl)
  exact serve_state (P := SameStanding s.tables) (fun _ _ => rfl) standing_renewLease

/-- What a transaction that settles a run does, where it is that of the holder. -/
theorem effect_settle {status : Status} (hw : x.eventWrites = [])
    (hser : SettlesHeld x.tenantId x.runId x.workerId status s.tables (c.serve s.tables choice).2)
    (ht : s'.tables = (s.serve x.tenantId x.runId c choice).2.tables)
    (htel : Tells s s' x.tenantId x.runId) (hc : Continues (.executing x) p')
    (hf : Flies s s' (.executing x) p') : StreamEffect s s' (.executing x) p' := by
  rw [← serve_tables, ← ht] at hser
  rcases hser with hsame | ⟨row, hh, hs⟩
  · exact .quiet hsame htel.1 (.inr ⟨_, _, htel⟩) hc hf
  · exact .settle x.tenantId x.runId row status (.inr ⟨x, rfl, rfl, rfl, hw, hh⟩) hs htel hc hf

theorem effect_complete {result : AgentExecutionResult} (hw : x.eventWrites = []) :
    StreamEffect s (completeExecution s x result choice).1 (.executing x)
      (.executing (completeExecution s x result choice).2) := by
  have hs : SettlesHeld x.tenantId x.runId x.workerId .succeeded s.tables
      ((AgentCall.completeRun x.tenantId x.runId x.workerId result (completionEvent x result)).serve
        s.tables choice).2 := by
    refine serve_state (.inl fun _ _ => rfl) (committed_state (.inl fun _ _ => rfl) fun tables h => ?_)
    exact (standing_completeRun h).of_later
  have hg : ∀ phase, Continues (.executing x) (.executing { x with phase := phase }) :=
    fun _ => continues_goes { waits := fun h => h }
  simp only [completeExecution]
  split
  · exact effect_settle hw hs rfl serve_tells (hg _) (flies_same serve_inFlight)
  · exact effect_settle hw hs rfl serve_tells (hg _) (flies_same serve_inFlight)

omit [Metering] in
/-- An execution leaves behind a call. -/
theorem tells_leave (h : Tells s s' tenantId runId) : Tells s (s'.leave x) tenantId runId :=
  h

theorem effect_fail {failed : RunFailure} (hw : x.eventWrites = []) :
    StreamEffect s ((failExecution s x failed choice).leave x) (.executing x) .over := by
  have hs : SettlesHeld x.tenantId x.runId x.workerId .failed s.tables
      ((AgentCall.failRun x.tenantId x.runId x.workerId failed.code failed.message s.tables.clock
        (runEvent x.tenantId x.workerId "agent-run.failed" x.runId [("code", .str failed.code)]
          s.tables.clock)).serve s.tables choice).2 := by
    refine serve_state (.inl fun _ _ => rfl) (committed_state (.inl fun _ _ => rfl) fun tables h => ?_)
    exact (standing_failRun h).of_later
  rw [failExecution]
  exact effect_settle hw hs rfl (tells_leave serve_tells) continues_over
    (flies_leave serve_inFlight)

omit [Metering] in
theorem effect_over (hs : s' = s.leave x) : StreamEffect s s' (.executing x) .over := by
  rw [hs]
  exact .quiet (fun _ _ => rfl) rfl (.inl rfl) continues_over (flies_leave rfl)

theorem settleExecution_effect (h : settleExecution s x choice = some (s', p')) :
    StreamEffect s s' (.executing x) p' := by
  have hg : ∀ phase, x.Goes { x with phase := phase } := fun _ => { waits := fun h => h }
  rw [settleExecution] at h
  split at h
  · next result hp =>
    split at h
    · cases h
    · cases h
      exact effect_still (hg _)
    · next hw hf =>
      cases h
      exact effect_complete hw
  · split at h
    · cases h
      exact effect_still (hg _)
    · cases h
      exact effect_over rfl
  · next failed hp =>
    split at h
    · cases h
    · next hi =>
      rw [not_or, not_not] at hi
      split at h
      · cases h
        exact effect_over rfl
      · cases h
        exact effect_fail hi.1
  · cases h

theorem executionNext_effect {turn : ExecutionTurn}
    (h : executionNext s x turn choice = some (s', p')) : StreamEffect s s' (.executing x) p' := by
  unfold executionNext at h
  split at h
  · next event hp =>
    cases h
    have hc : x.calling = true := by rw [Execution.calling, hp]
    cases hf : x.eventFailure with
    | none =>
      refine .queue x event rfl hc hf rfl ?_
      rw [hf]
      rfl
    | some error => exact effect_still { waits := fun h => h }
  · cases h
  · cases h
  · split at h
    · cases h
      exact effect_still { waits := fun h => h }
    · cases h
  · split at h
    · cases h
      exact effect_still { waits := fun h => h }
    · cases h
  · split at h
    · cases h
      exact effect_still { waits := fun h => h }
    · cases h
  · split at h
    · cases h
    · next event rest hw =>
      cases h
      exact effect_write hw
  · split at h
    · cases h
      exact effect_renew { waits := fun h => h }
    · cases h
  · cases h
    split
    · exact effect_renew { waits := fun h => h }
    · exact effect_renew { waits := fun h => h }
  · cases h
    exact effect_still { waits := fun h => h }
  · cases h
    exact effect_still { waits := fun h => h }
  · exact settleExecution_effect h

theorem claimNext_effect (h : claimNext s tenantId runId workerId leaseMs now choice = (s', p')) :
    StreamEffect s s' (.claiming tenantId runId workerId leaseMs now) p' := by
  simp only [claimNext] at h
  split at h
  · cases h
    exact .quiet (fun _ _ => rfl) rfl (.inl rfl) continues_over (flies_same rfl)
  · next hf =>
    split at h
    · next row' ha =>
      obtain ⟨hsta, hcla⟩ := serve_answer ha
      obtain ⟨row, hc, rfl⟩ := claimRun_answer (Except.ok.inj hcla)
      cases h
      refine .claim tenantId runId workerId leaseMs now row rfl ?_ hf ⟨rfl, rfl⟩ (.inr ⟨rfl, rfl⟩)
      show Claims s.tables (AgentCall.serve _ s.tables choice).2 _ _ _ _ _
      rw [hsta]
      exact hc.of_later
    · next ha =>
      cases h
      have hsta : SameStanding s.tables (AgentCall.serve _ s.tables choice).2 ∨
          ∃ row, Claims s.tables (AgentCall.serve _ s.tables choice).2 tenantId runId workerId now row :=
        serve_state (c := .claimRun tenantId runId workerId now (now + leaseMs)
          (runEvent tenantId workerId "agent-run.claimed" runId [] now))
          (P := fun tables => SameStanding s.tables tables ∨
            ∃ row, Claims s.tables tables tenantId runId workerId now row) (.inl fun _ _ => rfl)
          (standing_claimRun.imp id fun ⟨row, hc⟩ => ⟨row, hc.of_later⟩)
      rcases hsta with hs | ⟨row, hc⟩
      · exact .quiet hs rfl (.inr ⟨tenantId, runId, rfl, rfl⟩) continues_over (flies_same rfl)
      · exact .claim tenantId runId workerId leaseMs now row rfl hc hf ⟨rfl, rfl⟩ (.inl ⟨rfl, rfl⟩)

theorem streamNext_effect {choice : StreamChoice} (h : streamNext s choice p = some (s', p')) :
    StreamEffect s s' p p' := by
  cases p with
  | candidate tenantId runId workerId leaseMs =>
    cases h
    exact .quiet (fun _ _ => rfl) rfl (.inl rfl) continues_claiming (flies_same rfl)
  | claiming tenantId runId workerId leaseMs now =>
    exact claimNext_effect (Option.some.inj h)
  | executing x => exact executionNext_effect h
  | cancel tenantId actorId runId =>
    cases h
    exact .quiet (fun _ _ => rfl) rfl (.inl rfl) continues_reading (flies_same rfl)
  | reading tenantId actorId runId cancelledAt =>
    have hsame : SameStanding s.tables
        (s.serve tenantId runId (.cancelRun1 tenantId runId) choice.call).2.tables :=
      serve_state (P := SameStanding s.tables) (fun _ _ => rfl) fun _ _ => rfl
    rw [streamNext] at h
    split at h
    · cases h
      refine .quiet hsame rfl (.inr ⟨tenantId, runId, rfl, rfl⟩) ?_ (flies_same rfl)
      split
      · exact continues_over
      · exact continues_cancelling
    · cases h
      exact .quiet hsame rfl (.inr ⟨tenantId, runId, rfl, rfl⟩) continues_over (flies_same rfl)
  | cancelling tenantId actorId runId cancelledAt previous =>
    cases h
    have hsta : SameStanding s.tables (AgentCall.serve _ s.tables choice.call).2 ∨
        ∃ row, Settles s.tables (AgentCall.serve _ s.tables choice.call).2 tenantId runId row .cancelled :=
      serve_state (c := .cancelRun2 tenantId runId ("Cancelled by " ++ actorId ++ ".") cancelledAt
        (AgentTables.withMetadata (runEvent tenantId actorId "agent-run.cancelled" runId [] cancelledAt)
          "previousStatus" (.str previous.text)))
        (P := fun tables => SameStanding s.tables tables ∨
          ∃ row, Settles s.tables tables tenantId runId row .cancelled) (.inl fun _ _ => rfl)
        (standing_cancelRun2.imp id fun ⟨row, hs⟩ => ⟨row, hs.of_later⟩)
    rcases hsta with hsame | ⟨row, hs⟩
    · exact .quiet hsame rfl (.inr ⟨tenantId, runId, rfl, rfl⟩) continues_over (flies_same rfl)
    · exact .settle tenantId runId row .cancelled (.inl ⟨actorId, cancelledAt, previous, rfl⟩) hs
        ⟨rfl, rfl⟩ continues_over (flies_same rfl)
  | «over» => cases h

end Moves

/-! ### What is kept -/

/-- What is kept of a stream: its events are numbered, the log says how each run stands, a run that
stood stands with no attempt before that and stays settled, and each event was stored where the run
stood with its attempt, unsettled. -/
structure StreamKept (s : RunStream) : Prop where
  numbered : Numbered s.events
  told : ∀ tenantId runId st, s.tables.standing tenantId runId = some st →
    .stood tenantId runId st.status st.attempt ∈ s.log
  past : ∀ tenantId runId status attempt, .stood tenantId runId status attempt ∈ s.log →
    ∃ st, s.tables.standing tenantId runId = some st ∧ attempt ≤ st.attempt ∧
      (status.terminal = true → st.status.terminal = true)
  held : ∀ recent tenantId runId attempt earlier,
    s.log = recent ++ .stored tenantId runId attempt :: earlier →
    ∀ status attempt', .stood tenantId runId status attempt' ∈ earlier →
      status.terminal = false ∧ attempt' ≤ attempt

/-- How a run stands beside an execution of it: the execution is that of the attempt where its worker
owns the run, and of no later one; where its events wait, it holds the run. -/
structure Beside (x : Execution) (st : Standing) : Prop where
  attempt : x.attempt ≤ st.attempt
  owner : st.status = .running → st.attempt = x.attempt → st.owner = some x.workerId
  owned : st.status = .running → st.owner = some x.workerId → st.attempt = x.attempt
  waits : x.eventWrites ≠ [] → st.status = .running ∧ st.attempt = x.attempt

/-- What a process knows of the stream. -/
def StreamKnows (s : RunStream) (p : StreamProcess) : Prop :=
  ∀ x, p = .executing x → (x.workerId, x.runId) ∈ s.inFlight ∧
    ∃ st, s.tables.standing x.tenantId x.runId = some st ∧ Beside x st

/-- No worker executes a run twice. -/
def StreamApart (p q : StreamProcess) : Prop :=
  ∀ x y, p = .executing x → q = .executing y → (x.workerId, x.runId) ≠ (y.workerId, y.runId)

/-- A run that stands goes on: with no attempt before, and settled where it was. -/
def GoesOn (s s' : AgentTables) : Prop :=
  ∀ tenantId runId st, s.standing tenantId runId = some st →
    ∃ st', s'.standing tenantId runId = some st' ∧ st.attempt ≤ st'.attempt ∧
      (st.status.terminal = true → st'.status.terminal = true)

section Kept

variable {s s' : AgentTables} {tenantId runId workerId : String} {row : RunRow}

theorem SameStanding.goesOn (h : SameStanding s s') : GoesOn s s' := by
  intro tenantId runId st hst
  exact ⟨st, (h tenantId runId).trans hst, le_rfl, id⟩

theorem goesOn_of_others (ho : SameBut s s' tenantId runId)
    (hst : ∀ st, s.standing tenantId runId = some st →
      ∃ st', s'.standing tenantId runId = some st' ∧ st.attempt ≤ st'.attempt ∧
        (st.status.terminal = true → st'.status.terminal = true)) : GoesOn s s' := by
  intro tenantId' runId' st h
  by_cases hk : tenantId' = tenantId ∧ runId' = runId
  · rw [hk.1, hk.2] at h ⊢
    exact hst st h
  · exact ⟨st, (ho tenantId' runId' fun ht hr => hk ⟨ht, hr⟩).trans h, le_rfl, id⟩

theorem standing_of_run? (h : s.run? tenantId runId = some row) :
    s.standing tenantId runId = some row.standing := by
  rw [AgentTables.standing, h]
  rfl

variable {now : ℤ}

/-- What can be claimed is not settled. -/
theorem open_of_claimable (h : row.claimable now = true) : row.status.terminal = false := by
  rw [JobRow.claimable] at h
  cases hs : row.status <;> simp [hs, Status.terminal] at h ⊢

theorem Claims.goesOn (h : Claims s s' tenantId runId workerId now row) : GoesOn s s' := by
  refine goesOn_of_others h.others fun st hst => ⟨_, h.claimed, ?_, fun ht => ?_⟩
  · rw [standing_of_run? h.found, Option.some.injEq] at hst
    rw [← hst]
    exact Nat.le_succ _
  · rw [standing_of_run? h.found, Option.some.injEq] at hst
    rw [← hst] at ht
    rw [JobRow.standing, open_of_claimable h.claimable] at ht
    cases ht

theorem Settles.goesOn {status : Status} (h : Settles s s' tenantId runId row status) : GoesOn s s' := by
  refine goesOn_of_others h.others fun st hst => ⟨_, h.settled, ?_, fun _ => h.terminal⟩
  rw [standing_of_run? h.found, Option.some.injEq] at hst
  rw [← hst]
  exact le_rfl

end Kept

section Logs

variable {s s' : RunStream} {tenantId runId : String}

theorem mark_eq : s.tables.mark tenantId runId = [] ∨ ∃ st, s.tables.standing tenantId runId = some st ∧
    s.tables.mark tenantId runId = [.stood tenantId runId st.status st.attempt] := by
  rw [AgentTables.mark, AgentTables.standing]
  cases s.tables.run? tenantId runId with
  | none => exact .inl rfl
  | some row => exact .inr ⟨row.standing, rfl, rfl⟩

/-- What is stored below marks of runs was stored before. -/
theorem stored_below {marks log recent earlier : List RunMark} {attempt : ℕ}
    (hm : ∀ t r a, RunMark.stored t r a ∉ marks)
    (h : marks ++ log = recent ++ .stored tenantId runId attempt :: earlier) :
    ∃ recent', log = recent' ++ .stored tenantId runId attempt :: earlier := by
  rcases List.append_eq_append_iff.1 h with ⟨middle, hr, hl⟩ | ⟨middle, hm', hl⟩
  · exact ⟨middle, hl⟩
  · cases middle with
    | nil => exact ⟨[], hl.symm⟩
    | cons mark middle =>
      rw [List.cons_append, List.cons.injEq] at hl
      refine absurd ?_ (hm tenantId runId attempt)
      rw [hm', hl.1]
      exact List.mem_append_right _ List.mem_cons_self

/-- **The log is told.** -/
theorem StreamKept.tells (h : StreamKept s) (htel : Tells s s' tenantId runId)
    (hg : GoesOn s.tables s'.tables) (ho : SameBut s.tables s'.tables tenantId runId) :
    StreamKept s' := by
  have hmar : ∀ t r a, RunMark.stored t r a ∉ s'.tables.mark tenantId runId := by
    intro t r a hmem
    rcases @mark_eq s' tenantId runId with hm | ⟨st, -, hm⟩
    · rw [hm] at hmem
      cases hmem
    · rw [hm, List.mem_singleton] at hmem
      cases hmem
  refine ⟨htel.1 ▸ h.numbered, fun t r st hst => ?_, fun t r status attempt hmem => ?_, ?_⟩
  · rw [htel.2]
    by_cases hk : t = tenantId ∧ r = runId
    · rcases @mark_eq s' tenantId runId with hm | ⟨st', hst', hm⟩
      · rw [AgentTables.mark] at hm
        rw [AgentTables.standing, hk.1, hk.2] at hst
        obtain ⟨row, hrow, -⟩ := Option.map_eq_some_iff.1 hst
        rw [hrow] at hm
        cases hm
      · rw [hk.1, hk.2, hst', Option.some.injEq] at hst
        rw [hm, hk.1, hk.2, hst]
        exact List.mem_append_left _ List.mem_cons_self
    · rw [ho t r fun ht hr => hk ⟨ht, hr⟩] at hst
      exact List.mem_append_right _ (h.told t r st hst)
  · rw [htel.2, List.mem_append] at hmem
    rcases hmem with hmem | hmem
    · rcases @mark_eq s' tenantId runId with hm | ⟨st, hst, hm⟩
      · rw [hm] at hmem
        cases hmem
      · rw [hm, List.mem_singleton] at hmem
        cases hmem
        exact ⟨st, hst, le_rfl, id⟩
    · obtain ⟨st, hst, hle, hter⟩ := h.past t r status attempt hmem
      obtain ⟨st', hst', hle', hter'⟩ := hg t r st hst
      exact ⟨st', hst', hle.trans hle', fun h => hter' (hter h)⟩
  · intro recent t r attempt earlier hl
    rw [htel.2] at hl
    obtain ⟨recent', hl'⟩ := stored_below hmar hl
    exact h.held recent' t r attempt earlier hl'

/-- Only what is read of the tables is asked of them. -/
theorem StreamKept.same (h : StreamKept s) (he : s'.events = s.events) (hl : s'.log = s.log)
    (hs : SameStanding s.tables s'.tables) : StreamKept s' := by
  refine ⟨he ▸ h.numbered, fun t r st hst => ?_, fun t r status attempt hm => ?_, ?_⟩
  · rw [hl]
    exact h.told t r st ((hs t r).symm.trans hst)
  · rw [hl] at hm
    obtain ⟨st, hst, hp⟩ := h.past t r status attempt hm
    exact ⟨st, (hs t r).trans hst, hp⟩
  · rw [hl]
    exact h.held

end Logs

section Numbers

variable {events : List RunEventRow} {tenantId runId : String} {event : AgentExecutionEvent}

theorem nextSequence_eq {n : ℕ} (h : events.map (·.sequence) = List.range' 1 n) :
    nextSequence events = n + 1 := by
  rw [nextSequence, h]
  cases n with
  | zero => rfl
  | succ n =>
    have hmax : (List.range' 1 (n + 1)).max? = some (n + 1) := by
      refine List.max?_eq_some_iff.2 ⟨?_, fun m hm => ?_⟩
      · exact List.mem_range'_1.2 (by omega)
      · have := List.mem_range'_1.1 hm
        omega
    rw [hmax]
    rfl

theorem eventsOf_append {row : RunEventRow} : eventsOf (events ++ [row]) tenantId runId =
    if row.runId = runId ∧ row.tenantId = tenantId then eventsOf events tenantId runId ++ [row]
    else eventsOf events tenantId runId := by
  rw [eventsOf, List.filter_append, eventsOf]
  split_ifs with h
  · rw [List.filter_cons_of_pos (by simpa using h)]
    rfl
  · rw [List.filter_cons_of_neg (by simpa using h), List.filter_nil, List.append_nil]

/-- An event with the next number keeps the events numbered. -/
theorem Numbered.append (h : Numbered events) :
    Numbered (events ++ [⟨runId, tenantId, nextSequence (eventsOf events tenantId runId), event⟩]) := by
  intro t r
  rw [eventsOf_append]
  split_ifs with hk
  · obtain ⟨hr, ht⟩ := hk
    have hr' : runId = r := hr
    have ht' : tenantId = t := ht
    rw [List.map_append, List.length_append, List.length_singleton, ← hr', ← ht', h]
    rw [nextSequence_eq (h tenantId runId), List.range'_1_concat, Nat.add_comm 1]
    rfl
  · exact h t r

end Numbers

section Appends

variable {s s' : RunStream} {tenantId runId : String} {event : AgentExecutionEvent} {attempt : ℕ}

theorem appendRunEvent_ok (h : s.appendRunEvent tenantId runId event attempt = .ok s') :
    s' = { s with
      events := s.events ++
        [⟨runId, tenantId, nextSequence (eventsOf s.events tenantId runId), event⟩]
      log := .stored tenantId runId attempt :: s.log } := by
  simp only [RunStream.appendRunEvent] at h
  split at h
  · cases h
  · split at h
    · cases h
    · exact (Except.ok.inj h).symm

/-- **An event is stored in a run that stands with the attempt that produced it.** -/
theorem StreamKept.appends (h : StreamKept s) {st : Standing}
    (hst : s.tables.standing tenantId runId = some st) (hr : st.status = .running)
    (ha : st.attempt = attempt) (hs : s.appendRunEvent tenantId runId event attempt = .ok s') :
    StreamKept s' := by
  rw [appendRunEvent_ok hs]
  refine ⟨h.numbered.append, fun t r st hst => List.mem_cons_of_mem _ (h.told t r st hst),
    fun t r status a hmem => ?_, fun recent t r a earlier hl => ?_⟩
  · rcases List.mem_cons.1 hmem with hmem | hmem
    · cases hmem
    · exact h.past t r status a hmem
  · cases recent with
    | nil =>
      rw [List.nil_append, List.cons.injEq] at hl
      obtain ⟨hm, rfl⟩ := hl
      cases hm
      intro status attempt' hsto
      obtain ⟨st', hst', hle, ht⟩ := h.past _ _ status attempt' hsto
      rw [hst, Option.some.injEq] at hst'
      rw [← hst', ha] at hle
      rw [← hst', hr] at ht
      exact ⟨Bool.eq_false_iff.2 fun h => (nomatch ht h), hle⟩
    | cons mark recent =>
      rw [List.cons_append, List.cons.injEq] at hl
      exact h.held recent t r a earlier hl.2

end Appends

section Effects

variable {s s' : RunStream} {p p' q : StreamProcess} {x y : Execution} {others : List StreamProcess}

variable {runId tenantId : String}

theorem SameStanding.but {s s' : AgentTables} (h : SameStanding s s') :
    SameBut s s' tenantId runId :=
  fun t r _ => h t r

/-- **A move keeps the stream.** -/
theorem StreamEffect.kept (h : StreamEffect s s' p p') (hs : StreamKept s) (hp : StreamKnows s p) :
    StreamKept s' := by
  cases h with
  | quiet hsame he hl hcont hfli =>
    rcases hl with hl | ⟨t, r, ht⟩
    · exact hs.same he hl hsame
    · exact hs.tells ht hsame.goesOn hsame.but
  | queue x event hx hcal hfai hs' hp' => exact hs' ▸ hs
  | store x event hx hw hs' hcont hpla =>
    obtain ⟨-, st, hst, hb⟩ := hp x hx
    obtain ⟨hr, ha⟩ := hb.waits hw
    exact hs.appends hst hr ha hs'
  | claim t r w leaseMs now row hp hc hf ht hp' =>
    exact hs.tells ht hc.goesOn hc.others
  | settle t r row status hp hset ht hcont hfli =>
    exact hs.tells ht hset.goesOn hset.others

theorem Execution.Goes.beside {x' : Execution} {st : Standing} (h : x.Goes x') (hst : Beside x st) :
    Beside x' st := by
  refine ⟨?_, ?_, ?_, fun hw => ?_⟩
  · rw [h.attempt]
    exact hst.attempt
  · rw [h.attempt, h.workerId]
    exact hst.owner
  · rw [h.attempt, h.workerId]
    exact hst.owned
  · rw [h.attempt]
    exact hst.waits fun hn => hw (h.waits hn)

/-- Beside a run that is settled stands an execution without events that wait. -/
theorem beside_settled {status : Status} {attempt : ℕ} (ht : status.terminal = true)
    (hle : x.attempt ≤ attempt) (hw : x.eventWrites = []) : Beside x ⟨status, attempt, none⟩ := by
  have hn : status ≠ .running := by
    rintro rfl
    cases ht
  exact ⟨hle, fun h => absurd h hn, fun h => absurd h hn, fun h => absurd hw h⟩

/-- What an execution that goes on has in flight stays there. -/
theorem Flies.stays (h : Flies s s' p p') (hp : p' ≠ .over) {entry : String × String}
    (he : entry ∈ s.inFlight) : entry ∈ s'.inFlight :=
  (h entry he).resolve_right fun ho => hp ho.1

/-- Where the run of an execution is found, it stands like this. -/
theorem standing_of_holds (h : s.holds x = true) :
    ∃ st, s.tables.standing x.tenantId x.runId = some st ∧ st.status = .running ∧
      st.attempt = x.attempt := by
  rw [RunStream.holds, List.any_eq_true] at h
  obtain ⟨row, hr, hh⟩ := h
  rw [Bool.and_eq_true, Bool.and_eq_true, decide_eq_true_eq, decide_eq_true_eq] at hh
  exact ⟨row.standing, standing_of_run? (run?_of_mem hr hh.1.1), hh.1.2, hh.2⟩

/-- What an execution that goes on knows where its run stands as before. -/
theorem StreamKnows.goes (hp : StreamKnows s p) (hc : Continues p p') (hfli : Flies s s' p p')
    (hst : ∀ x st, p = .executing x → s.tables.standing x.tenantId x.runId = some st → Beside x st →
      ∃ st', s'.tables.standing x.tenantId x.runId = some st' ∧ Beside x st') : StreamKnows s' p' := by
  intro x' hx'
  obtain ⟨x, hx, hg⟩ := hc x' hx'
  obtain ⟨he, st, hf, hb⟩ := hp x hx
  obtain ⟨st', hf', hb'⟩ := hst x st hx hf hb
  have hpla : p' ≠ .over := by
    rw [hx']
    nofun
  refine ⟨?_, st', ?_, hg.beside hb'⟩
  · rw [hg.workerId, hg.runId]
    exact hfli.stays hpla he
  · rw [hg.tenantId, hg.runId, hf']

/-- **A process knows behind its move what it has to.** -/
theorem StreamEffect.knows (h : StreamEffect s s' p p') (hp : StreamKnows s p)
    (hcond : Undisturbed s others p) : StreamKnows s' p' := by
  cases h with
  | quiet hsame heve hl hc hfli =>
    exact hp.goes hc hfli fun x st _ hst hb => ⟨st, (hsame _ _).trans hst, hb⟩
  | queue x event hx hcal hf hs' hp' =>
    rw [hs', hp']
    rintro x' hx'
    cases hx'
    obtain ⟨he, st, hst, hb⟩ := hp x hx
    rw [hx] at hcond
    rcases hcond hcal with hfai | hh
    · rw [hf] at hfai
      cases hfai
    · obtain ⟨st', hst', hr, ha⟩ := standing_of_holds hh
      rw [hst, Option.some.injEq] at hst'
      rw [← hst'] at hr ha
      exact ⟨he, st, hst, hb.attempt, hb.owner, hb.owned, fun _ => ⟨hr, ha⟩⟩
  | store x event hx hw hs' hc hpla =>
    have ht : s'.tables = s.tables := by rw [appendRunEvent_ok hs']
    have hinFlight : s'.inFlight = s.inFlight := by rw [appendRunEvent_ok hs']
    refine hp.goes hc (flies_same hinFlight) fun x st _ hst hb => ⟨st, ?_, hb⟩
    rw [ht, hst]
  | claim t r w leaseMs now row hcla hclaims hfree htel hp' =>
    rcases hp' with ⟨ho, -⟩ | ⟨hexe, hinFlight⟩
    · rw [ho]
      exact fun x hx => nomatch hx
    · rw [hexe]
      rintro x' hx'
      cases hx'
      refine ⟨?_, _, hclaims.claimed, le_rfl, fun _ _ => rfl, fun _ _ => rfl, fun h => absurd rfl h⟩
      rw [hinFlight]
      exact List.mem_cons_self
  | settle t r row status hset hsettles htel hc hfli =>
    refine hp.goes hc hfli fun x st hx hst hb => ?_
    rcases hset with ⟨actorId, cancelledAt, previous, hcan⟩ | ⟨x', hx', rfl, rfl, hw, -⟩
    · rw [hx] at hcan
      cases hcan
    · rw [hx] at hx'
      cases hx'
      rw [standing_of_run? hsettles.found, Option.some.injEq] at hst
      refine ⟨_, hsettles.settled, beside_settled hsettles.terminal ?_ hw⟩
      rw [← hst] at hb
      exact hb.attempt

/-- What goes on is apart from what it was apart from. -/
theorem StreamApart.goes (h : StreamApart p q) (hc : Continues p p') : StreamApart p' q := by
  intro x' y hx' hy
  obtain ⟨x, hx, hg⟩ := hc x' hx'
  rw [hg.workerId, hg.runId]
  exact h x y hx hy

/-- What another execution has in flight stays there. -/
theorem Flies.other (h : Flies s s' p p') (ha : StreamApart p (.executing y))
    (he : (y.workerId, y.runId) ∈ s.inFlight) : (y.workerId, y.runId) ∈ s'.inFlight := by
  rcases h _ he with hs | ⟨-, x, hx, heq⟩
  · exact hs
  · exact absurd heq.symm (ha x y hx rfl)

/-- What another execution knows where its run stands as it has to. -/
theorem StreamKnows.other (hq : StreamKnows s q) (ha : StreamApart p q) (hfli : Flies s s' p p')
    (hst : ∀ y st, q = .executing y → s.tables.standing y.tenantId y.runId = some st → Beside y st →
      ∃ st', s'.tables.standing y.tenantId y.runId = some st' ∧ Beside y st') : StreamKnows s' q := by
  intro y hy
  obtain ⟨he, st, hf, hb⟩ := hq y hy
  rw [hy] at ha
  exact ⟨hfli.other ha he, hst y st hy hf hb⟩

/-- What does not wait has no events. -/
theorem idle_of_waits (h : q.waits tenantId runId = false)
    (hq : q = .executing y) (ht : y.tenantId = tenantId) (hr : y.runId = runId) :
    y.eventWrites = [] := by
  rw [hq, StreamProcess.waits, ht, hr] at h
  simpa using h

/-- **Another process knows behind a move what it knew.** -/
theorem StreamEffect.other (h : StreamEffect s s' p p') (hq : StreamKnows s q)
    (ha : StreamApart p q) (hm : q ∈ others) (hcond : Undisturbed s others p) :
    StreamKnows s' q ∧ StreamApart p' q := by
  cases h with
  | quiet hsame heve hlog hcont hfli =>
    refine ⟨hq.other ha hfli fun y st _ hst hb => ?_, ha.goes hcont⟩
    exact ⟨st, (hsame _ _).trans hst, hb⟩
  | queue x event hx hcal hfai hs' hp' =>
    rw [hs', hp']
    refine ⟨hq, fun x' y hx' hy => ?_⟩
    cases hx'
    exact ha x y hx hy
  | store x event hx hwai hs' hcont hpla =>
    have htab : s'.tables = s.tables := by rw [appendRunEvent_ok hs']
    have hinFlight : s'.inFlight = s.inFlight := by rw [appendRunEvent_ok hs']
    refine ⟨hq.other ha (@flies_same s s' p p' hinFlight) fun y st _ hst hb => ⟨st, ?_, hb⟩,
      ha.goes hcont⟩
    rw [htab, hst]
  | claim t r w leaseMs now row hcla hc hf htel hp' =>
    have hsta : ∀ entry ∈ s.inFlight, entry ∈ s'.inFlight := by
      rcases hp' with ⟨-, hinFlight⟩ | ⟨-, hinFlight⟩
      · exact fun entry he => hinFlight ▸ he
      · exact fun entry he => hinFlight ▸ List.mem_cons_of_mem _ he
    refine ⟨fun y hy => ?_, fun x' y hx' hy => ?_⟩
    · obtain ⟨he, st, hst, hb⟩ := hq y hy
      refine ⟨hsta _ he, ?_⟩
      by_cases hk : y.tenantId = t ∧ y.runId = r
      · -- The claim takes the run from an execution whose events are written.
        rw [hcla] at hcond
        have hany : (s.tables.runs.any fun row => row.is t r && row.claimable now) = true := by
          refine List.any_eq_true.2 ⟨row, mem_of_run? hc.found, ?_⟩
          rw [is_of_run? hc.found, hc.claimable]
          rfl
        have hi := idle_of_waits (hcond hany q hm) hy hk.1 hk.2
        have hw : w ≠ y.workerId := by
          rintro rfl
          exact hf (hk.2 ▸ he)
        rw [hk.1, hk.2, standing_of_run? hc.found, Option.some.injEq] at hst
        have hle : y.attempt ≤ row.attempt := by
          have := hb.attempt
          rwa [← hst] at this
        refine ⟨_, by rw [hk.1, hk.2, hc.claimed], Nat.le_succ_of_le hle, fun _ heq => ?_,
          fun _ ho => absurd (Option.some.inj ho) hw, fun h => absurd hi h⟩
        have hsucc : row.attempt + 1 = y.attempt := heq
        omega
      · exact ⟨st, (hc.others _ _ fun ht hr => hk ⟨ht, hr⟩).trans hst, hb⟩
    · rcases hp' with ⟨hover, -⟩ | ⟨hexe, -⟩
      · rw [hover] at hx'
        cases hx'
      · rw [hexe] at hx'
        cases hx'
        intro heq
        rw [heq] at hf
        exact hf (hq y hy).1
  | settle t r row status hset hsettles htel hcont hfli =>
    refine ⟨hq.other ha hfli fun y st hy hst hb => ?_, ha.goes hcont⟩
    by_cases hk : y.tenantId = t ∧ y.runId = r
    · rw [hk.1, hk.2, standing_of_run? hsettles.found, Option.some.injEq] at hst
      rw [← hst] at hb
      have hi : y.eventWrites = [] := by
        rcases hset with ⟨actorId, cancelledAt, previous, hcan⟩ | ⟨x, hx, hxt, hxr, -, hh⟩
        · rw [hcan] at hcond
          exact idle_of_waits (hcond q hm) hy hk.1 hk.2
        · -- One whose events wait owns the run, and so does the one that settles it.
          by_contra hwai
          obtain ⟨hrun, hatt⟩ := hb.waits hwai
          have ho := hb.owner hrun hatt
          obtain ⟨-, l, hl, hw⟩ := JobRow.heldBy_iff.1 hh
          rw [JobRow.standing, hl, Option.map_some, Option.some.injEq] at ho
          refine ha x y hx hy ?_
          rw [← hw, ho, hxr, hk.2]
      rw [hk.1, hk.2]
      exact ⟨_, hsettles.settled, beside_settled hsettles.terminal hb.attempt hi⟩
    · exact ⟨st, (hsettles.others _ _ fun ht hr => hk ⟨ht, hr⟩).trans hst, hb⟩

end Effects

/-! ### The outline -/

variable [Metering]

/-- **Executions and cancellations keep a stream.** -/
def streamOutline : Outline runStreams Undisturbed where
  inv := StreamKept
  knows := StreamKnows
  apart := StreamApart
  apart_symm h x y hx hy := (h y x hy hx).symm
  start {s r p} _ henter := by
    have hplace : ∀ x, p ≠ .executing x := by
      rintro x rfl
      cases r <;> cases henter
    exact ⟨fun x hx => absurd hx (hplace x), fun q _ x y hx _ => absurd hx (hplace x)⟩
  stop {s p} hs _ := by
    cases p with
    | executing x => exact hs.same rfl rfl fun _ _ => rfl
    | _ => exact hs
  stop_other {s p q} _ _ hq hapart := by
    cases p with
    | executing x => exact hq.other hapart (flies_leave rfl) fun y st _ hst hbeside => ⟨st, hst, hbeside⟩
    | _ => exact hq
  move hs hp hothers hcond hnext :=
    ⟨(streamNext_effect hnext).kept hs hp, (streamNext_effect hnext).knows hp hcond⟩
  move_other hs hp hothers hcond hnext hq :=
    (streamNext_effect hnext).other (hothers _ hq).1 (hothers _ hq).2 hq hcond

omit [Metering] in
/-- A stream whose log says how each run stands is kept. -/
theorem streamKept_begin {tables : AgentTables} {events : List RunEventRow} (h : Numbered events) :
    StreamKept (RunStream.begin tables events) := by
  have hk : ∀ {t r row}, tables.run? t r = some row → row.tenantId = t ∧ row.id = r := by
    intro t r row hr
    have his := is_of_run? hr
    rwa [JobRow.is, Bool.and_eq_true, decide_eq_true_eq, decide_eq_true_eq] at his
  refine ⟨h, fun t r st hst => ?_, fun t r status attempt hm => ?_, fun recent t r a earlier hl => ?_⟩
  · obtain ⟨row, hr, rfl⟩ := Option.map_eq_some_iff.1 hst
    obtain ⟨rfl, rfl⟩ := hk hr
    exact List.mem_map.2 ⟨row, mem_of_run? hr, rfl⟩
  · obtain ⟨row, hr, heq⟩ := List.mem_map.1 hm
    cases heq
    have hh : tables.run? row.tenantId row.id = some row := run?_of_mem hr (by simp [JobRow.is])
    exact ⟨row.standing, standing_of_run? hh, le_rfl, id⟩
  · have hm : RunMark.stored t r a ∈ (RunStream.begin tables events).log := by
      rw [hl]
      exact List.mem_append_right _ List.mem_cons_self
    obtain ⟨row, -, heq⟩ := List.mem_map.1 hm
    cases heq

/-- **The events of a run belong to its holder**, in every run of workers and cancellations whose moves
are undisturbed. -/
theorem event_stream_exact {tables : AgentTables} {events : List RunEventRow} (h : Numbered events)
    {crew : Crew RunStream StreamProcess}
    (hcrew : Crew.Reachable runStreams Undisturbed (RunStream.begin tables events) crew) :
    EventStreamExact crew.shared := by
  have hk := (streamOutline.reachable (streamKept_begin h) hcrew).inv
  refine ⟨hk.numbered, fun row hr => ?_, hk.held⟩
  exact hk.told row.tenantId row.id row.standing
    (standing_of_run? (run?_of_mem hr (by simp [JobRow.is])))

omit [Metering]

/-- An event of no interest. -/
def sampleRunEvent : AgentExecutionEvent where
  type := "run.started"
  message := "Harness accepted the claimed run."
  timestamp := 1

/-- A worker takes up the sample run, and the harness produces an event. -/
def sampleEmission : List (Crew.Turn StreamRequest StreamChoice) :=
  [.start (.work "t" "run" "w" 1000), .move 0 {}, .move 0 {},
    .move 0 { turn := .event sampleRunEvent }, .move 0 { turn := .onEvent }]

/-- A run that is completed behind its event. -/
theorem event_stream_completed : ∃ crew,
    Crew.Reachable (@runStreams flatMetering) Undisturbed (RunStream.begin sampleTables []) crew ∧
    crew.shared.log = [.stood "t" "run" .succeeded 1, .stored "t" "run" 1,
      .stood "t" "run" .running 1, .stood "t" "run" .queued 0] ∧
    EventStreamExact crew.shared := by
  have hp : (Crew.play (@runStreams flatMetering) Undisturbed
      ⟨RunStream.begin sampleTables [], []⟩ (sampleEmission ++
        [.move 0 { turn := .write }, .move 0 { turn := .result sampleResult }, .move 0 {},
          .move 0 {}])).map (·.shared.log) =
        some [.stood "t" "run" .succeeded 1, .stored "t" "run" 1, .stood "t" "run" .running 1,
          .stood "t" "run" .queued 0] := by decide +kernel
  obtain ⟨crew, hc, hl⟩ := Option.map_eq_some_iff.1 hp
  have hr := Crew.reachable_of_play hc
  exact ⟨crew, hr, hl, @event_stream_exact flatMetering sampleTables [] (fun _ _ => rfl) crew hr⟩

/-- An event that waits while its run is cancelled is stored behind the cancellation. -/
theorem event_stored_late : ∃ crew,
    Crew.Reachable (@runStreams flatMetering) (fun _ _ _ => True) (RunStream.begin sampleTables []) crew ∧
    ¬EventStreamExact crew.shared := by
  have hp : (Crew.play (@runStreams flatMetering) (fun _ _ _ => True)
      ⟨RunStream.begin sampleTables [], []⟩ (sampleEmission ++
        [.start (.cancel "t" "ada" "run"), .move 0 {}, .move 0 {}, .move 0 {},
          .move 1 { turn := .write }])).map (·.shared.log) =
        some [.stored "t" "run" 1, .stood "t" "run" .cancelled 1, .stood "t" "run" .running 1,
          .stood "t" "run" .running 1, .stood "t" "run" .queued 0] := by decide +kernel
  obtain ⟨crew, hc, hl⟩ := Option.map_eq_some_iff.1 hp
  refine ⟨crew, Crew.reachable_of_play hc, fun h => ?_⟩
  have ho := (h.held [] "t" "run" 1 _ hl .cancelled 1 List.mem_cons_self).1
  cases ho

end Flowdular.Agents
