/-
# The job runner

`src/packages/server/src/jobs/runner.ts`: `jobBackoff` and `createJobRunner`.

A pass is made of the places of its workers (`JobPass.step`); a promise that is chained behind
another is a callback that is attached to it, is ready once it settles, and is called at any
time from then on (`runnerStep`).  What a pass claims and how its items settle, and the order of
the calls of the runner's functions, is told by the events.  A pool of one makes its first claim
while `tick` still runs: the job's code is called before the pass is kept in flight, and may call
the runner (`JobOpening`).  A queue of claims is the list of the workers that wait for theirs, in
order.  The trace, the log and the clock are left out.
-/

import Flowdular.Lib.Events
import Mathlib.Data.Int.Notation
import Mathlib.Data.Nat.Notation
import Mathlib.Algebra.GroupWithZero.Nat

namespace Flowdular.Server

/-! ### Options -/

structure JobBackoff where
  initialMs : ℕ
  maxMs : ℕ
  multiplier : ℕ

def jobBackoff (intervalMs : ℕ) : JobBackoff :=
  ⟨intervalMs, max intervalMs (min 60000 (intervalMs * 10)), 2⟩

def DEFAULT_JOB_BATCH_LIMIT : ℕ := 25

def MAX_JOB_CONCURRENCY : ℤ := 64

def MAX_BACKOFF_DOUBLINGS : ℕ := 30

/-- `JobRunnerOptions`, whose numbers are whole. -/
structure JobRunnerOptions where
  intervalMs : ℕ := 1000
  hasHeartbeat : Bool := true
  backoff : Option JobBackoff := none
  batchLimit : Option ℤ := none
  concurrency : Option ℤ := none

namespace JobRunnerOptions

variable (options : JobRunnerOptions)

/-- `intervalMs`, at least one. -/
def interval : ℕ :=
  max 1 options.intervalMs

/-- `batchLimit`, at least one. -/
def batch : ℕ :=
  (max 1 (options.batchLimit.getD DEFAULT_JOB_BATCH_LIMIT)).toNat

/-- `concurrency`, clamped. -/
def slots : ℕ :=
  let requested := options.concurrency.getD 1
  if -9007199254740991 ≤ requested ∧ requested ≤ 9007199254740991 then
    (min MAX_JOB_CONCURRENCY (max 1 requested)).toNat
  else 1

/-- `delay`, by the number of failures. -/
def delay (failures : ℕ) : ℕ :=
  match options.backoff with
  | none => options.interval
  | some backoff =>
    if failures = 0 then options.interval
    else
      let doublings := min (failures - 1) MAX_BACKOFF_DOUBLINGS
      min backoff.maxMs (backoff.initialMs * max 1 backoff.multiplier ^ doublings)

end JobRunnerOptions

/-! ### Passes -/

structure JobPassReport where
  claimed : ℕ
  performed : ℕ
  failed : ℕ
  claimLost : ℕ
deriving DecidableEq

/-- The place of a worker: it waits for its turn to claim, its claim is made, its claim was answered
with an item or none, it performs an item, whose claim may be lost, or it returned. -/
inductive JobWorker
  | waiting
  | claiming
  | answered (found : Bool)
  | performing (lost : Bool)
  | done
deriving DecidableEq

/-- A pass: its identity, its counts and flags, the workers that wait for their claims, and all
workers. -/
structure JobPass where
  id : ℕ
  attempts : ℕ := 0
  claimed : ℕ := 0
  performed : ℕ := 0
  failed : ℕ := 0
  claimLost : ℕ := 0
  raised : Bool := false
  drained : Bool := false
  queue : List ℕ
  workers : List JobWorker

/-- What a claim answers. -/
inductive ClaimAnswer
  | item
  | empty
  | raised

/-- What happens in a pass: the next claim of the queue is taken, it is answered, a worker goes on
with the answer, a renewal is answered (`none` where it raised), an item settles. -/
inductive JobPassEvent
  | take
  | claim (answer : ClaimAnswer)
  | resume (slot : ℕ)
  | beat (slot : ℕ) (kept : Option Bool)
  | settle (slot : ℕ) (resolved : Bool)

namespace JobPass

variable (options : JobRunnerOptions) (pass : JobPass)

/-- `take`, up to its claim. -/
def take (slot : ℕ) (rest : List ℕ) : JobPass :=
  if pass.drained || options.batch ≤ pass.attempts then
    { pass with queue := rest, workers := pass.workers.set slot (.answered false) }
  else { pass with attempts := pass.attempts + 1, workers := pass.workers.set slot .claiming }

/-- A pass as it begins: every worker asks for its claim, and a pool of one makes it at once. -/
def begin (id : ℕ) : JobPass :=
  let size := min options.slots options.batch
  let pass := { id, queue := List.range size, workers := List.replicate size .waiting : JobPass }
  if options.slots = 1 then pass.take options 0 [] else pass

/-- `take`, behind its claim. -/
def claim (slot : ℕ) (rest : List ℕ) : ClaimAnswer → JobPass
  | .raised =>
    { pass with
      drained := true
      raised := true
      queue := rest
      workers := pass.workers.set slot (.answered false) }
  | .empty =>
    { pass with
      drained := true
      queue := rest
      workers := pass.workers.set slot (.answered false) }
  | .item =>
    { pass with
      claimed := pass.claimed + 1
      queue := rest
      workers := pass.workers.set slot (.answered true) }

/-- An item settles: its worker counts it, and asks for the next claim. -/
def settle (slot : ℕ) (lost resolved : Bool) : JobPass :=
  let pass := { pass with queue := pass.queue ++ [slot], workers := pass.workers.set slot .waiting }
  if resolved then { pass with performed := pass.performed + 1 }
  else if lost then { pass with claimLost := pass.claimLost + 1 }
  else { pass with failed := pass.failed + 1, raised := true }

/-- What happens in a pass, where it can. -/
def step : JobPassEvent → Option JobPass
  | .take =>
    match pass.queue with
    | slot :: rest =>
      if pass.workers[slot]? = some .waiting then some (pass.take options slot rest) else none
    | [] => none
  | .claim answer =>
    match pass.queue with
    | slot :: rest =>
      if pass.workers[slot]? = some .claiming then some (pass.claim slot rest answer) else none
    | [] => none
  | .resume slot =>
    match pass.workers[slot]? with
    | some (.answered found) =>
      let next := if found then .performing false else .done
      some { pass with workers := pass.workers.set slot next }
    | _ => none
  | .beat slot kept =>
    match pass.workers[slot]? with
    | some (.performing false) =>
      if options.hasHeartbeat then
        some { pass with workers := pass.workers.set slot (.performing (kept = some false)) }
      else none
    | _ => none
  | .settle slot resolved =>
    match pass.workers[slot]? with
    | some (.performing lost) => some (pass.settle slot lost resolved)
    | _ => none

/-- All workers returned. -/
def «over» : Bool :=
  pass.workers.all fun worker => worker = .done

/-- The report of a pass. -/
def report : JobPassReport :=
  ⟨pass.claimed, pass.performed, pass.failed, pass.claimLost⟩

end JobPass

/-! ### The runner -/

/-- What is chained behind a pass: that of `run`, with its chain, or that of `wake`. -/
inductive JobCallback
  | ran (chain : ℕ)
  | woke
deriving DecidableEq

/-- A timer that is set. -/
structure JobTimer where
  handle : ℕ
  chain : ℕ
  delayMs : ℕ

/-- A call of `tick` that began a pass and has not returned: the pass, and the chain of the `run`
that made the call. -/
structure JobOpening where
  pass : ℕ
  chain : Option ℕ

/-- The variables of a runner; then the calls that have not returned, the innermost first, and what
the platform keeps: the passes, those that returned and are not yet cleared, and the callbacks; last
the history: the passes that began, their reports, and for each wake the number of passes that began
before it. -/
structure JobRunner where
  disposed : Bool := false
  started : Bool := false
  waking : Bool := false
  failures : ℕ := 0
  inFlight : Option ℕ := none
  timer : Option ℕ := none
  generation : ℕ := 0
  timers : List JobTimer := []
  handles : ℕ := 0
  openings : List JobOpening := []
  passes : List JobPass := []
  ended : List ℕ := []
  attached : List (ℕ × JobCallback) := []
  ready : List JobCallback := []
  begun : ℕ := 0
  reports : List JobPassReport := []
  wakes : List ℕ := []

namespace JobRunner

variable (options : JobRunnerOptions) (s : JobRunner)

/-- `run`, behind the call of `tick`: it chains itself behind the pass. -/
def join (id : ℕ) : Option ℕ → JobRunner
  | some chain => { s with attached := s.attached ++ [(id, .ran chain)] }
  | none => s

/-- `tick`, behind the call of `pass`: the pass is kept in flight. -/
def keep (opening : JobOpening) : JobRunner :=
  { s with inFlight := some opening.pass }.join opening.pass opening.chain

/-- `tick`, where nothing is in flight. -/
def beginPass (chain : Option ℕ) : JobRunner :=
  let opening : JobOpening := ⟨s.begun, chain⟩
  let s := { s with passes := s.passes ++ [JobPass.begin options s.begun], begun := s.begun + 1 }
  if options.slots = 1 then { s with openings := opening :: s.openings } else s.keep opening

/-- `tick`, with the chain of the `run` that calls it: the pass that is in flight, or one that
begins; none where the runner is disposed. -/
def tick (chain : Option ℕ) : JobRunner :=
  if s.disposed then
    match chain with
    | some chain => { s with ready := s.ready ++ [.ran chain] }
    | none => s
  else
    match s.inFlight with
    | some id => s.join id chain
    | none => s.beginPass options chain

def schedule (delayMs chain : ℕ) : JobRunner :=
  { s with
    timers := s.timers ++ [⟨s.handles, chain, delayMs⟩]
    timer := some s.handles
    handles := s.handles + 1 }

def run (chain : ℕ) : JobRunner :=
  s.tick options (some chain)

def start : JobRunner :=
  if s.disposed || s.started then s
  else { s with started := true }.run options s.generation

def stop : JobRunner :=
  { s with
    started := false
    waking := false
    generation := s.generation + 1
    timers := s.timers.filter fun timer => s.timer ≠ some timer.handle
    timer := none }

def wake : JobRunner :=
  if s.disposed then s
  else
    let s := { s with wakes := s.wakes ++ [s.begun] }
    match s.inFlight with
    | none => s.tick options none
    | some id =>
      if s.waking then s else { s with waking := true, attached := s.attached ++ [(id, .woke)] }

def dispose : JobRunner :=
  if s.disposed then s
  else { s.stop with disposed := true }

/-- A callback is called. -/
def callback : JobCallback → JobRunner
  | .ran chain =>
    if s.disposed || chain ≠ s.generation then s
    else s.schedule (options.delay s.failures) chain
  | .woke =>
    if s.waking then { s with waking := false }.tick options none
    else s

/-- A pass returns. -/
def endPass (pass : JobPass) : JobRunner :=
  { s with
    passes := s.passes.filter fun p => p.id ≠ pass.id
    ended := s.ended ++ [pass.id]
    failures := if pass.raised then min (s.failures + 1) (MAX_BACKOFF_DOUBLINGS + 1) else 0
    reports := s.reports ++ [pass.report] }

/-- The promise of a pass settles: it is cleared, and what is chained behind it is ready. -/
def settlePass (id : ℕ) : JobRunner :=
  { s with
    ended := s.ended.filter (· ≠ id)
    inFlight := if s.inFlight = some id then none else s.inFlight
    attached := s.attached.filter fun a => a.1 ≠ id
    ready := s.ready ++ (s.attached.filter fun a => a.1 = id).map (·.2) }

end JobRunner

/-- The calls of a runner's functions, and what happens in between: a call of `tick` returns; or,
while none is open, something happens in a pass, at its end, to its promise, to a callback that is
ready or to a timer that is due. -/
inductive JobRunnerEvent
  | start
  | tick
  | wake
  | stop
  | quiesce
  | dispose
  | returned
  | pass (id : ℕ) (event : JobPassEvent)
  | ended (id : ℕ)
  | settled (id : ℕ)
  | callback (place : ℕ)
  | due (place : ℕ)

namespace JobRunner

variable (options : JobRunnerOptions) (s : JobRunner)

/-- What happens while no call is open, where it can. -/
def turn : JobRunnerEvent → Option JobRunner
  | .pass id event =>
    match s.passes.find? fun p => p.id = id with
    | some pass =>
      (pass.step options event).map fun pass' =>
        { s with passes := s.passes.map fun p => if p.id = id then pass' else p }
    | none => none
  | .ended id =>
    match s.passes.find? fun p => p.id = id with
    | some pass => if pass.over then some (s.endPass pass) else none
    | none => none
  | .settled id => if id ∈ s.ended then some (s.settlePass id) else none
  | .callback place =>
    match s.ready[place]? with
    | some callback => some ({ s with ready := s.ready.eraseIdx place }.callback options callback)
    | none => none
  | .due place =>
    match s.timers[place]? with
    | some timer =>
      some ({ s with timers := s.timers.eraseIdx place, timer := none }.run options timer.chain)
    | none => none
  | _ => none

end JobRunner

/-- What an event leaves, where it can happen. -/
def runnerStep (options : JobRunnerOptions) (s : JobRunner) : JobRunnerEvent → Option JobRunner
  | .start => some (s.start options)
  | .tick => some (s.tick options none)
  | .wake => some (s.wake options)
  | .stop => some s.stop
  | .quiesce => some s.stop
  | .dispose => some s.dispose
  | .returned =>
    match s.openings with
    | opening :: rest => some ({ s with openings := rest }.keep opening)
    | [] => none
  | event => if s.openings.isEmpty then s.turn options event else none

end Flowdular.Server
