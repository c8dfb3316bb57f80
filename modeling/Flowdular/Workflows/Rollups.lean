/-
# The roll-ups of a run

`src/modules/workflows/src/services/database-repository.ts`, lines 687-688 (`SQL.setRunRollups`),
2192-2205 (the action of `settleAttempt`), 2383-2453 (`settleRun`) and 2558-2593
(`recordAgentUsage`); `worker.ts`, lines 147-153 and 960-964.

`Flowdular.Workflows.Repository` takes `recordAgentUsage` as one transaction.  At read committed it
reads the roll-ups and writes them back whole, so others may commit in between; a worker that
settles the run writes the roll-ups of a row it read before.  Here both are two steps or more, and
where nobody comes in between they are what they were (`recordAgentUsage_rows`).

Where the roll-ups that are written over are those that were read (`UnmovedRollups`), they are the
sums over the children that were recorded, each counted once (`rollups_exact`).  Two workers, one of
which lost its lease, may record two children at once, and then one of them is not counted
(`child_usage_lost`).
-/

import Flowdular.Lib.Crew
import Flowdular.Workflows.Repository
import Mathlib.Algebra.GroupWithZero.Nat

namespace Flowdular.Workflows

open Lib

/-! ### The statements -/

/-- `finalUsage` of the worker. -/
def finalUsage (run : RunRow) : WorkflowUsageRollup :=
  { run.usage with state := .final }

/-- `finalCost` of the worker. -/
def finalCost (run : RunRow) : WorkflowCostRollup :=
  { run.cost with state := .final }

/-- The roll-ups of a row behind the usage of a child. -/
def addChildUsage (read : RunRow) (childRunId : String) (usage : AgentUsage) : WorkflowUsageRollup :=
  { read.usage with
    inputTokens := read.usage.inputTokens + usage.inputTokens.toNat
    outputTokens := read.usage.outputTokens + usage.outputTokens.toNat
    totalTokens := read.usage.totalTokens + usage.totalTokens.toNat
    includedChildRunIds := read.usage.includedChildRunIds ++ [childRunId]
    unpricedChildRuns := read.usage.unpricedChildRuns + 1 }

def setRunRollups (usage : WorkflowUsageRollup) (cost : WorkflowCostRollup) (run : RunRow) : RunRow :=
  { run with usage, cost }

/-- The write of `recordAgentUsage`, of the row it has read. -/
def writeChildUsage (read : RunRow) (childRunId : String) (usage : AgentUsage) (run : RunRow) : RunRow :=
  setRunRollups (addChildUsage read childRunId usage)
    { read.cost with unpricedChildRuns := read.cost.unpricedChildRuns + 1 } run

/-- **Where nobody comes in between**, the read and the write are the transaction. -/
theorem recordAgentUsage_rows (childRunId : String) (usage : AgentUsage) (rows : StoredRun) :
    recordAgentUsage childRunId usage rows = .ok
      { result := ()
        rows := if childRunId ∈ rows.run.usage.includedChildRunIds then rows
          else rows.setRun (writeChildUsage rows.run childRunId usage) } := by
  rw [recordAgentUsage]
  split_ifs
  · rfl
  · rfl

/-! ### The processes -/

/-- The rows of the run, and the usages that were recorded, the newest first: a history variable. -/
structure CountedRun where
  rows : StoredRun
  recorded : List (String × AgentUsage) := []

/-- What touches the roll-ups: the usage of a child, an action that is settled, and the end of the
run; and a status that something else gives it. -/
inductive RollupRequest
  | recordAgentUsage (childRunId : String) (usage : AgentUsage)
  | settleAction
  | settleRun (status : SettledStatus) (failureCode : Option String) (output : WorkflowPayloadEvidence)
      (recordedAt : Time)
  | setStatus (status : WorkflowRunStatus)

/-- Where one of them is. -/
inductive RollupProcess
  | recording (childRunId : String) (usage : AgentUsage)
  | counted (childRunId : String) (usage : AgentUsage) (read : RunRow)
  | acting
  | acted (read : RunRow)
  | settling (status : SettledStatus) (failureCode : Option String) (output : WorkflowPayloadEvidence)
      (recordedAt : Time)
  | copied (write : SettleRunWrite) (copy : RunRow)
  | decided (write : SettleRunWrite) (copy before : RunRow)
  | moving (status : WorkflowRunStatus)
  | done

/-- The row is written. -/
def CountedRun.setRun (s : CountedRun) (change : RunRow → RunRow) : CountedRun :=
  { s with rows := s.rows.setRun change }

/-- What a worker settles a run with, of the row it has read. -/
def settleWrite (copy : RunRow) (status : SettledStatus) (failureCode : Option String)
    (output : WorkflowPayloadEvidence) (recordedAt : Time) : SettleRunWrite :=
  { status, failureCode, output, usage := finalUsage copy, cost := finalCost copy, recordedAt }

/-- The end of the run, of the rows that were read. -/
def settledRows (before : RunRow) (write : SettleRunWrite) (rows : StoredRun) : StoredRun :=
  match settleRun before write rows with
  | .ok written => written.rows
  | .error _ => rows

/-- What a process does next. -/
def rollupNext (s : CountedRun) : RollupProcess → Option (CountedRun × RollupProcess)
  | .recording childRunId usage =>
    if childRunId ∈ s.rows.run.usage.includedChildRunIds then
      some ({ s with recorded := (childRunId, usage) :: s.recorded }, .done)
    else some (s, .counted childRunId usage s.rows.run)
  | .counted childRunId usage read =>
    some ({ s.setRun (writeChildUsage read childRunId usage) with
      recorded := (childRunId, usage) :: s.recorded }, .done)
  | .acting => some (s, .acted s.rows.run)
  | .acted read =>
    some (s.setRun (setRunRollups (countAction read).usage (countAction read).cost), .done)
  | .settling status failureCode output recordedAt =>
    some (s, .copied (settleWrite s.rows.run status failureCode output recordedAt) s.rows.run)
  | .copied write copy => some (s, .decided write copy s.rows.run)
  | .decided write _ before => some ({ s with rows := settledRows before write s.rows }, .done)
  | .moving status =>
    some (if s.rows.run.status.isTerminal then s
      else s.setRun fun run => { run with status }, .done)
  | .done => none

/-- Any number of workers. -/
def rollupWorkers : Machine CountedRun RollupProcess RollupRequest Unit where
  enter _ r := some (match r with
    | .recordAgentUsage childRunId usage => .recording childRunId usage
    | .settleAction => .acting
    | .settleRun status failureCode output recordedAt =>
      .settling status failureCode output recordedAt
    | .setStatus status => .moving status)
  next s p _ := rollupNext s p
  stop s _ := s

/-! ### What is counted -/

/-- The usages of the children, each with the one it was first recorded with. -/
def childUsages : List (String × AgentUsage) → List (String × AgentUsage)
  | [] => []
  | entry :: recorded =>
    if entry.1 ∈ (childUsages recorded).map (·.1) then childUsages recorded
    else childUsages recorded ++ [entry]

/-- The roll-ups of a row are the sums over the children that were recorded. -/
structure CountsChildren (run : RunRow) (recorded : List (String × AgentUsage)) : Prop where
  included : run.usage.includedChildRunIds = (childUsages recorded).map (·.1)
  inputTokens : run.usage.inputTokens = ((childUsages recorded).map (·.2.inputTokens.toNat)).sum
  outputTokens : run.usage.outputTokens = ((childUsages recorded).map (·.2.outputTokens.toNat)).sum
  totalTokens : run.usage.totalTokens = ((childUsages recorded).map (·.2.totalTokens.toNat)).sum
  unpriced : run.usage.unpricedChildRuns = (childUsages recorded).length
  costUnpriced : run.cost.unpricedChildRuns = (childUsages recorded).length

/-- **Each child is counted once**, and no step takes one away. -/
structure RollupsExact (cond : Machine.Condition CountedRun RollupProcess)
    (crew : Crew CountedRun RollupProcess) : Prop where
  counts : CountsChildren crew.shared.rows.run crew.shared.recorded
  once : crew.shared.rows.run.usage.includedChildRunIds.Nodup
  keeps : ∀ crew', Crew.Step rollupWorkers cond crew crew' →
    ∀ childRunId ∈ crew.shared.rows.run.usage.includedChildRunIds,
      childRunId ∈ crew'.shared.rows.run.usage.includedChildRunIds

/-- The roll-ups of two rows are the same. -/
def SameRollups (run read : RunRow) : Prop :=
  run.usage = read.usage ∧ run.cost = read.cost

instance (run read : RunRow) : Decidable (SameRollups run read) :=
  inferInstanceAs (Decidable (_ ∧ _))

/-- Roll-ups are written over those that were read; a run is settled where its status is the one
that was read. -/
def UnmovedRollups : Machine.Condition CountedRun RollupProcess := fun s _ p =>
  match p with
  | .counted _ _ read => SameRollups s.rows.run read
  | .acted read => SameRollups s.rows.run read
  | .decided _ copy before => s.rows.run.status = before.status → SameRollups s.rows.run copy
  | _ => True

instance (s : CountedRun) (others : List RollupProcess) :
    (p : RollupProcess) → Decidable (UnmovedRollups s others p)
  | .counted _ _ _ => inferInstanceAs (Decidable (SameRollups _ _))
  | .acted _ => inferInstanceAs (Decidable (SameRollups _ _))
  | .decided _ _ _ => inferInstanceAs (Decidable (_ → SameRollups _ _))
  | .recording _ _ => isTrue trivial
  | .acting => isTrue trivial
  | .settling _ _ _ _ => isTrue trivial
  | .copied _ _ => isTrue trivial
  | .moving _ => isTrue trivial
  | .done => isTrue trivial

theorem childUsages_nodup (recorded : List (String × AgentUsage)) :
    ((childUsages recorded).map (·.1)).Nodup := by
  induction recorded with
  | nil => exact List.nodup_nil
  | cons entry recorded ih =>
    rw [childUsages]
    split_ifs with hm
    · exact ih
    · rw [List.map_append, List.map_singleton]
      refine List.nodup_append.2 ⟨ih, List.nodup_singleton _, fun id hid id' hid' heq => ?_⟩
      rw [heq, List.mem_singleton.1 hid'] at hid
      exact hm hid

section Steps

variable {run : RunRow} {recorded : List (String × AgentUsage)} {childRunId : String} {usage : AgentUsage}

/-- What only keeps the counts of the children. -/
theorem CountsChildren.of_same (h : CountsChildren run recorded) {run' : RunRow}
    (hi : run'.usage.includedChildRunIds = run.usage.includedChildRunIds)
    (hinp : run'.usage.inputTokens = run.usage.inputTokens)
    (ho : run'.usage.outputTokens = run.usage.outputTokens)
    (ht : run'.usage.totalTokens = run.usage.totalTokens)
    (hu : run'.usage.unpricedChildRuns = run.usage.unpricedChildRuns)
    (hc : run'.cost.unpricedChildRuns = run.cost.unpricedChildRuns) :
    CountsChildren run' recorded where
  included := hi.trans h.included
  inputTokens := hinp.trans h.inputTokens
  outputTokens := ho.trans h.outputTokens
  totalTokens := ht.trans h.totalTokens
  unpriced := hu.trans h.unpriced
  costUnpriced := hc.trans h.costUnpriced

/-- A child that is counted already adds nothing. -/
theorem CountsChildren.again (h : CountsChildren run recorded)
    (hm : childRunId ∈ run.usage.includedChildRunIds) :
    CountsChildren run ((childRunId, usage) :: recorded) := by
  have hs : childUsages ((childRunId, usage) :: recorded) = childUsages recorded := by
    rw [childUsages, if_pos (h.included ▸ hm)]
  refine ⟨?_, ?_, ?_, ?_, ?_, ?_⟩
  all_goals rw [hs]
  · exact h.included
  · exact h.inputTokens
  · exact h.outputTokens
  · exact h.totalTokens
  · exact h.unpriced
  · exact h.costUnpriced

/-- **A child that is new** is counted once, where the roll-ups are those that were read. -/
theorem CountsChildren.add (h : CountsChildren run recorded) {read : RunRow} (hr : SameRollups run read)
    (hm : childRunId ∉ read.usage.includedChildRunIds) :
    CountsChildren (writeChildUsage read childRunId usage run) ((childRunId, usage) :: recorded) := by
  have hn : childUsages ((childRunId, usage) :: recorded) =
      childUsages recorded ++ [(childRunId, usage)] := by
    rw [childUsages, if_neg]
    rwa [← h.included, hr.1]
  refine ⟨?_, ?_, ?_, ?_, ?_, ?_⟩
  all_goals
    simp only [hn, writeChildUsage, setRunRollups, addChildUsage, ← hr.1, ← hr.2,
      List.map_append, List.map_singleton, List.sum_append, List.sum_singleton, List.length_append,
      List.length_singleton]
  · rw [h.included]
  · rw [h.inputTokens]
  · rw [h.outputTokens]
  · rw [h.totalTokens]
  · rw [h.unpriced]
  · rw [h.costUnpriced]

/-- What a run is settled with: the row it is, or its roll-ups as final ones. -/
theorem settledRows_cases (before : RunRow) (write : SettleRunWrite) (rows : StoredRun) :
    settledRows before write rows = rows ∨
      rows.run.status = before.status ∧ settledRows before write rows = rows.setRun write.settle := by
  rw [settledRows, settleRun]
  split_ifs with ht hc hs
  · exact .inl rfl
  · exact .inl rfl
  · exact .inl rfl
  · exact .inr ⟨not_not.1 hs, rfl⟩

end Steps

/-! ### The crew -/

/-- What a process knows: a child it is about to count was not counted in the row it read, and a
run is settled with the roll-ups of the row that was copied. -/
def RollupKnows : RollupProcess → Prop
  | .counted childRunId _ read => childRunId ∉ read.usage.includedChildRunIds
  | .copied write copy => write.usage = finalUsage copy ∧ write.cost = finalCost copy
  | .decided write copy _ => write.usage = finalUsage copy ∧ write.cost = finalCost copy
  | _ => True

/-- **A move counts** what it records, and takes no child away. -/
theorem rollupNext_counts {s s' : CountedRun} {p p' : RollupProcess} {others : List RollupProcess}
    (h : rollupNext s p = some (s', p')) (hcou : CountsChildren s.rows.run s.recorded)
    (hk : RollupKnows p) (hc : UnmovedRollups s others p) :
    CountsChildren s'.rows.run s'.recorded ∧ RollupKnows p' ∧
      ∀ childRunId ∈ s.rows.run.usage.includedChildRunIds,
        childRunId ∈ s'.rows.run.usage.includedChildRunIds := by
  cases p with
  | recording childRunId usage =>
    rw [rollupNext] at h
    split_ifs at h with hm
    · obtain ⟨rfl, rfl⟩ := Prod.mk.inj (Option.some.inj h)
      exact ⟨hcou.again hm, trivial, fun _ hid => hid⟩
    · obtain ⟨rfl, rfl⟩ := Prod.mk.inj (Option.some.inj h)
      exact ⟨hcou, hm, fun _ hid => hid⟩
  | counted childRunId usage read =>
    obtain ⟨rfl, rfl⟩ := Prod.mk.inj (Option.some.inj h)
    refine ⟨hcou.add hc hk, trivial, fun id hid => ?_⟩
    rw [hc.1] at hid
    exact List.mem_append_left _ hid
  | acting =>
    obtain ⟨rfl, rfl⟩ := Prod.mk.inj (Option.some.inj h)
    exact ⟨hcou, trivial, fun _ hid => hid⟩
  | acted read =>
    obtain ⟨rfl, rfl⟩ := Prod.mk.inj (Option.some.inj h)
    have hu : s.rows.run.usage = read.usage := hc.1
    have hcost : s.rows.run.cost = read.cost := hc.2
    refine ⟨hcou.of_same ?_ ?_ ?_ ?_ ?_ ?_, trivial, fun id hid => ?_⟩
    · rw [hu]; rfl
    · rw [hu]; rfl
    · rw [hu]; rfl
    · rw [hu]; rfl
    · rw [hu]; rfl
    · rw [hcost]; rfl
    · rw [hu] at hid
      exact hid
  | settling status failureCode output recordedAt =>
    obtain ⟨rfl, rfl⟩ := Prod.mk.inj (Option.some.inj h)
    exact ⟨hcou, ⟨rfl, rfl⟩, fun _ hid => hid⟩
  | copied write copy =>
    obtain ⟨rfl, rfl⟩ := Prod.mk.inj (Option.some.inj h)
    exact ⟨hcou, hk, fun _ hid => hid⟩
  | decided write copy before =>
    obtain ⟨rfl, rfl⟩ := Prod.mk.inj (Option.some.inj h)
    rcases settledRows_cases before write s.rows with hr | ⟨hs, hr⟩
    · rw [hr]
      exact ⟨hcou, trivial, fun _ hid => hid⟩
    · obtain ⟨hu, hcost⟩ : SameRollups s.rows.run copy := hc hs
      have hw : (write.settle s.rows.run).usage = { s.rows.run.usage with state := .final } := by
        rw [hu]
        exact hk.1
      have hw' : (write.settle s.rows.run).cost = { s.rows.run.cost with state := .final } := by
        rw [hcost]
        exact hk.2
      rw [hr]
      change CountsChildren (write.settle s.rows.run) s.recorded ∧ True ∧ ∀ childRunId ∈ _,
        childRunId ∈ (write.settle s.rows.run).usage.includedChildRunIds
      refine ⟨hcou.of_same ?_ ?_ ?_ ?_ ?_ ?_, trivial, fun id hid => ?_⟩
      · rw [hw]
      · rw [hw]
      · rw [hw]
      · rw [hw]
      · rw [hw]
      · rw [hw']
      · rw [hw]
        exact hid
  | moving status =>
    obtain ⟨rfl, rfl⟩ := Prod.mk.inj (Option.some.inj h)
    split_ifs
    · exact ⟨hcou, trivial, fun _ hid => hid⟩
    · exact ⟨hcou.of_same rfl rfl rfl rfl rfl rfl, trivial, fun _ hid => hid⟩
  | done => cases h

/-- **The outline of the workers.** -/
def rollupOutline : Outline rollupWorkers UnmovedRollups where
  inv s := CountsChildren s.rows.run s.recorded
  knows _ p := RollupKnows p
  apart _ _ := True
  apart_symm _ := trivial
  start {s r p} _ henter := by
    rw [← Option.some.inj henter]
    refine ⟨?_, fun _ _ => trivial⟩
    cases r <;> trivial
  stop hinv _ := hinv
  stop_other _ _ hq _ := hq
  move hinv hp _ hcond hnext :=
    let hmoved := rollupNext_counts hnext hinv hp hcond
    ⟨hmoved.1, hmoved.2.1⟩
  move_other _ _ hothers _ _ hq := ⟨(hothers _ hq).1, trivial⟩

/-- **The roll-ups are the sums over the children**, where they are written over those that were
read. -/
theorem rollups_exact {rows : StoredRun} (hrows : CountsChildren rows.run [])
    {crew : Crew CountedRun RollupProcess}
    (h : Crew.Reachable rollupWorkers UnmovedRollups { rows } crew) :
    RollupsExact UnmovedRollups crew := by
  have hsta : rollupOutline.inv { rows } := hrows
  have hh := rollupOutline.reachable hsta h
  have hi : CountsChildren crew.shared.rows.run crew.shared.recorded := hh.inv
  refine ⟨hi, ?_, fun crew' hs => ?_⟩
  · rw [hi.included]
    exact childUsages_nodup _
  · cases hs with
    | start _ => exact fun _ hid => hid
    | stop => exact fun _ hid => hid
    | move hn hc =>
      have hp := (Outline.Holds.others hh).1
      exact (rollupNext_counts hn hi hp hc).2.2

/-! ### Runs -/

/-- The rows of a run that began. -/
def bareRollups : StoredRun where
  run := { bareRun with status := .running }

theorem bareRollups_counts : CountsChildren bareRollups.run [] :=
  ⟨rfl, rfl, rfl, rfl, rfl, rfl⟩

/-- The usage of a child. -/
def sampleUsage (tokens : ℤ) : AgentUsage where
  inputTokens := tokens
  outputTokens := 1
  totalTokens := tokens + 1

/-- What is counted, and how many children were recorded. -/
def sampleRollups (crew : Crew CountedRun RollupProcess) : List String × ℕ × ℕ :=
  (crew.shared.rows.run.usage.includedChildRunIds, crew.shared.rows.run.usage.inputTokens,
    (childUsages crew.shared.recorded).length)

/-- Two children, one of them recorded twice, and the end of the run. -/
theorem rollups_exact_settled : ∃ crew,
    Crew.Reachable rollupWorkers UnmovedRollups { rows := bareRollups } crew ∧
      sampleRollups crew = (["c1", "c2"], 12, 2) ∧ RollupsExact UnmovedRollups crew := by
  have hp : (Crew.play rollupWorkers UnmovedRollups ⟨{ rows := bareRollups }, []⟩
      [.start (.recordAgentUsage "c1" (sampleUsage 5)), .move 0 (), .move 0 (),
        .start (.recordAgentUsage "c2" (sampleUsage 7)), .move 0 (), .move 0 (),
        .start (.recordAgentUsage "c1" (sampleUsage 5)), .move 0 (),
        .start (.settleRun ⟨.succeeded, rfl⟩ none (absentEvidence "workflow.output" "") 9),
        .move 0 (), .move 0 (), .move 0 ()]).map sampleRollups = some (["c1", "c2"], 12, 2) := by
    decide +kernel
  obtain ⟨crew, hc, hcou⟩ := Option.map_eq_some_iff.1 hp
  have hr := Crew.reachable_of_play hc
  exact ⟨crew, hr, hcou, rollups_exact bareRollups_counts hr⟩

/-- Two workers record two children, both of a row that counts neither: only one is counted. -/
theorem child_usage_lost : ∃ crew,
    Crew.Reachable rollupWorkers (fun _ _ _ => True) { rows := bareRollups } crew ∧
      sampleRollups crew = (["c1"], 5, 2) ∧ ¬ RollupsExact (fun _ _ _ => True) crew := by
  have hp : (Crew.play rollupWorkers (fun _ _ _ => True) ⟨{ rows := bareRollups }, []⟩
      [.start (.recordAgentUsage "c1" (sampleUsage 5)), .move 0 (),
        .start (.recordAgentUsage "c2" (sampleUsage 7)), .move 0 (), .move 0 (), .move 1 ()]).map
        sampleRollups = some (["c1"], 5, 2) := by decide +kernel
  obtain ⟨crew, hc, hcou⟩ := Option.map_eq_some_iff.1 hp
  refine ⟨crew, Crew.reachable_of_play hc, hcou, fun he => ?_⟩
  obtain ⟨hi, hcou⟩ := Prod.mk.inj hcou
  have hl := congrArg List.length he.counts.included
  rw [hi, List.length_map, (Prod.mk.inj hcou).2] at hl
  cases hl

end Flowdular.Workflows
