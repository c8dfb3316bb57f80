/-
# How runs stand

What the transactions of `Jobs` do to how a run stands: its status, its attempt and the owner of its
lease.  A statement changes the rows of one run where it selects them (`Changes`), so no run stands
otherwise, or one is claimed (`Claims`) or settled (`Settles`).
-/

import Flowdular.Agents.JobsSettle
import Flowdular.Agents.RunEvents

namespace Flowdular.Agents

open Lib Workflows

/-! ### How runs stand -/

/-- How a run stands. -/
structure Standing where
  status : Status
  attempt : ℕ
  owner : Option String

/-- How the run of a row stands. -/
def JobRow.standing (row : RunRow) : Standing :=
  ⟨row.status, row.attempt, row.lease.map (·.owner)⟩

/-- How a run stands, if there is one. -/
def AgentTables.standing (s : AgentTables) (tenantId runId : String) : Option Standing :=
  (s.run? tenantId runId).map (·.standing)

/-- No run stands otherwise. -/
def SameStanding (s s' : AgentTables) : Prop :=
  ∀ tenantId runId, s'.standing tenantId runId = s.standing tenantId runId

/-- No run but one stands otherwise. -/
def SameBut (s s' : AgentTables) (tenantId runId : String) : Prop :=
  ∀ tenantId' runId', (tenantId' = tenantId → runId' ≠ runId) →
    s'.standing tenantId' runId' = s.standing tenantId' runId'

/-- A run that could be claimed is claimed. -/
structure Claims (s s' : AgentTables) (tenantId runId workerId : String) (now : ℤ) (row : RunRow) :
    Prop where
  found : s.run? tenantId runId = some row
  claimable : row.claimable now = true
  claimed : s'.standing tenantId runId = some ⟨.running, row.attempt + 1, some workerId⟩
  others : SameBut s s' tenantId runId

/-- A run is settled. -/
structure Settles (s s' : AgentTables) (tenantId runId : String) (row : RunRow) (status : Status) :
    Prop where
  found : s.run? tenantId runId = some row
  terminal : status.terminal = true
  settled : s'.standing tenantId runId = some ⟨status, row.attempt, none⟩
  others : SameBut s s' tenantId runId

/-- Nothing is done, or a run is settled that a worker holds. -/
def SettlesHeld (tenantId runId workerId : String) (status : Status) (s s' : AgentTables) : Prop :=
  SameStanding s s' ∨ ∃ row, row.heldBy workerId = true ∧ Settles s s' tenantId runId row status

section Updates

variable {s s' : AgentTables} {selects : RunRow → Bool} {change : RunRow → RunRow}
  {tenantId runId : String}

/-- The rows of one run are changed where a statement selects them. -/
def Changes (s s' : AgentTables) (selects : RunRow → Bool) (change : RunRow → RunRow) : Prop :=
  ∀ tenantId runId, s'.run? tenantId runId =
    (s.run? tenantId runId).map fun row => if selects row then change row else row

theorem changes_of_runs (hid : ∀ row, (change row).id = row.id)
    (ht : ∀ row, (change row).tenantId = row.tenantId)
    (hr : s'.runs = Table.update selects change s.runs) : Changes s s' selects change := by
  intro tenantId runId
  rw [AgentTables.run?, hr, Table.update, List.find?_map, AgentTables.run?]
  congr 2
  funext row
  rw [Function.comp_apply, JobRow.is, JobRow.is]
  split_ifs
  · rw [hid, ht]
  · rfl

theorem is_of_run? {row : RunRow} (h : s.run? tenantId runId = some row) :
    row.is tenantId runId = true :=
  List.find?_some (p := fun row : RunRow => row.is tenantId runId) h

theorem mem_of_run? {row : RunRow} (h : s.run? tenantId runId = some row) : row ∈ s.runs :=
  List.mem_of_find?_eq_some h

/-- A row is that of its key. -/
theorem run?_of_mem {row : RunRow} (hr : row ∈ s.runs) (his : row.is tenantId runId = true) :
    s.run? tenantId runId = some row := by
  cases hf : s.run? tenantId runId with
  | none => exact absurd his (List.find?_eq_none.1 hf row hr)
  | some row' =>
    have his' := is_of_run? hf
    rw [JobRow.is, Bool.and_eq_true, decide_eq_true_eq, decide_eq_true_eq] at his his'
    rw [List.inj_on_of_nodup_map s.runIds (mem_of_run? hf) hr (his'.2.trans his.2.symm)]

/-- Where what is selected stands as before, no run stands otherwise. -/
theorem Changes.same (h : Changes s s' selects change)
    (hs : ∀ row, s.run? row.tenantId row.id = some row → selects row = true →
      (change row).standing = row.standing) : SameStanding s s' := by
  intro tenantId runId
  rw [AgentTables.standing, h, AgentTables.standing, Option.map_map]
  cases hr : s.run? tenantId runId with
  | none => rfl
  | some row =>
    have his := is_of_run? hr
    rw [JobRow.is, Bool.and_eq_true, decide_eq_true_eq, decide_eq_true_eq] at his
    have hf : s.run? row.tenantId row.id = some row := by rw [his.1, his.2, hr]
    rw [Option.map_some, Option.map_some, Function.comp_apply]
    by_cases hsel : selects row = true
    · rw [if_pos hsel, hs row hf hsel]
    · rw [if_neg hsel]

/-- Only the run that is selected stands otherwise. -/
theorem Changes.others (h : Changes s s' selects change)
    (his : ∀ row, selects row = true → row.is tenantId runId = true) : SameBut s s' tenantId runId := by
  intro tenantId' runId' hne
  rw [AgentTables.standing, h, AgentTables.standing, Option.map_map]
  cases hr : s.run? tenantId' runId' with
  | none => rfl
  | some row =>
    have his' := is_of_run? hr
    have hn : ¬selects row = true := by
      intro hs
      have hr' := his row hs
      rw [JobRow.is, Bool.and_eq_true, decide_eq_true_eq, decide_eq_true_eq] at hr' his'
      exact hne (his'.1.symm.trans hr'.1) (his'.2.symm.trans hr'.2)
    rw [Option.map_some, Option.map_some, Function.comp_apply, if_neg hn]

/-- **What a change of one run does:** nothing, or it changes how that run stands. -/
theorem Changes.cases (h : Changes s s' selects change)
    (his : ∀ row, selects row = true → row.is tenantId runId = true) :
    SameStanding s s' ∨ ∃ row, s.run? tenantId runId = some row ∧ selects row = true ∧
        s'.standing tenantId runId = some (change row).standing ∧ SameBut s s' tenantId runId := by
  by_cases hr : ∃ row, s.run? tenantId runId = some row ∧ selects row = true
  · obtain ⟨row, hr, hs⟩ := hr
    refine .inr ⟨row, hr, hs, ?_, h.others his⟩
    rw [AgentTables.standing, h, hr, Option.map_some, if_pos hs, Option.map_some]
  · refine .inl (h.same fun row hf hs => absurd ⟨row, ?_, hs⟩ hr)
    have hk := his row hs
    rw [JobRow.is, Bool.and_eq_true, decide_eq_true_eq, decide_eq_true_eq] at hk
    rw [← hk.1, ← hk.2, hf]

end Updates

/-! ### Calls -/

section Later

variable {s s' : AgentTables} {elapsed : ℕ} {tenantId runId workerId : String} {status : Status}

/-! No run stands otherwise a while later. -/

theorem Settles.of_later {row : RunRow} (h : Settles (s.later elapsed) s' tenantId runId row status) :
    Settles s s' tenantId runId row status :=
  ⟨h.found, h.terminal, h.settled, h.others⟩

theorem SettlesHeld.of_later (h : SettlesHeld tenantId runId workerId status (s.later elapsed) s') :
    SettlesHeld tenantId runId workerId status s s' :=
  h.imp id fun ⟨row, hh, hs⟩ => ⟨row, hh, hs.of_later⟩

theorem Claims.of_later {now : ℤ} {row : RunRow}
    (h : Claims (s.later elapsed) s' tenantId runId workerId now row) :
    Claims s s' tenantId runId workerId now row :=
  ⟨h.found, h.claimable, h.claimed, h.others⟩

end Later

section Calls

variable {s s' : AgentTables} {tenantId runId workerId : String} {now till : ℤ} {audit : AuditEvent}

theorem changes_claimRun : Changes s (s.claimRun tenantId runId workerId now till audit).2
    (fun row => row.is tenantId runId && row.claimable now) fun row => row.claimed workerId now till := by
  refine changes_of_runs (fun _ => rfl) (fun _ => rfl) ?_
  simp only [AgentTables.claimRun]
  split
  · rfl
  · split <;> rfl

theorem standing_claimRun : SameStanding s (s.claimRun tenantId runId workerId now till audit).2 ∨
      ∃ row, Claims s (s.claimRun tenantId runId workerId now till audit).2 tenantId runId workerId now
        row := by
  rcases changes_claimRun.cases fun row h => (Bool.and_eq_true_iff.1 h).1 with
    hs | ⟨row, hf, hsel, hr, ho⟩
  · exact .inl hs
  · exact .inr ⟨row, hf, (Bool.and_eq_true_iff.1 hsel).2, hr, ho⟩

/-- A claim that answers a row has claimed the run. -/
theorem claimRun_answer {row' : RunRow}
    (h : (s.claimRun tenantId runId workerId now till audit).1 = some row') :
    ∃ row, Claims s (s.claimRun tenantId runId workerId now till audit).2 tenantId runId workerId now row ∧
      row' = row.claimed workerId now till := by
  have ha : s.runs.countP (fun row => row.is tenantId runId && row.claimable now) = 1 ∧
      (s.claimRun tenantId runId workerId now till audit).2.run? tenantId runId = some row' := by
    simp only [AgentTables.claimRun] at h ⊢
    split at h
    · cases h
    · next hc =>
      rw [if_neg hc]
      split at h
      · cases h
      · next hf =>
        rw [← Option.some.inj h]
        exact ⟨by simpa using hc, hf⟩
  have hrun := ha.2
  rw [changes_claimRun] at hrun
  obtain ⟨row, hr, hr'⟩ := Option.map_eq_some_iff.1 hrun
  have hs := selected_of_countP s.runIds ha.1
    (fun row h => (Bool.and_eq_true_iff.1 h).1) row (mem_of_run? hr) (is_of_run? hr)
  rw [if_pos hs] at hr'
  refine ⟨row, ⟨hr, (Bool.and_eq_true_iff.1 hs).2, ?_, ?_⟩, hr'.symm⟩
  · rw [AgentTables.standing, ha.2, ← hr']
    rfl
  · exact changes_claimRun.others fun row h => (Bool.and_eq_true_iff.1 h).1

theorem standing_renewLease : SameStanding s (s.renewLease tenantId runId workerId till).2 := by
  have hc : Changes s (s.renewLease tenantId runId workerId till).2
      (fun row => row.is tenantId runId && row.heldBy workerId) fun row => row.renewed till :=
    changes_of_runs (fun _ => rfl) (fun _ => rfl) rfl
  refine hc.same fun row _ _ => ?_
  rw [JobRow.standing, JobRow.renewed, Option.map_map]
  rfl

theorem Changes.settles {selects : RunRow → Bool} {change : RunRow → RunRow} {status : Status}
    (h : Changes s s' selects change)
    (his : ∀ row, selects row = true → row.is tenantId runId = true)
    (hsta : ∀ row, (change row).standing = ⟨status, row.attempt, none⟩)
    (ht : status.terminal = true) :
    SameStanding s s' ∨ ∃ row, selects row = true ∧ Settles s s' tenantId runId row status := by
  rcases h.cases his with hs | ⟨row, hf, hsel, hr, ho⟩
  · exact .inl hs
  · exact .inr ⟨row, hsel, hf, ht, by rw [hr, hsta], ho⟩

theorem held_of_and {row : RunRow} (h : (row.is tenantId runId && row.heldBy workerId) = true) :
    row.is tenantId runId = true ∧ row.heldBy workerId = true :=
  Bool.and_eq_true_iff.1 h

variable [Metering]

theorem standing_completeRun {result : AgentExecutionResult}
    (h : s.completeRun tenantId runId workerId result audit = .ok s') :
    SettlesHeld tenantId runId workerId .succeeded s s' := by
  have hc : Changes s s' (fun row => row.is tenantId runId && row.heldBy workerId)
      fun row => row.succeeded result result.completedAt := by
    refine changes_of_runs (fun _ => rfl) (fun _ => rfl) ?_
    simp only [AgentTables.completeRun] at h
    split at h
    · cases h
    · split at h
      · cases h
      · rw [← Except.ok.inj h]
        rfl
  rcases hc.settles (fun row hr => (held_of_and hr).1) (fun _ => rfl) rfl with
    hsame | ⟨row, hsel, hs⟩
  · exact .inl hsame
  · exact .inr ⟨row, (held_of_and hsel).2, hs⟩

variable {completedAt : ℤ} {message : String} {P : AgentTables → Prop} {c : AgentCall}
  {choice : AgentChoice}

omit [Metering] in
theorem standing_failRun {code : String}
    (h : s.failRun tenantId runId workerId code message completedAt audit = .ok s') :
    SettlesHeld tenantId runId workerId .failed s s' := by
  have hc : Changes s s' (fun row => row.is tenantId runId && row.heldBy workerId)
      fun row => row.failed code (some message) completedAt := by
    refine changes_of_runs (fun _ => rfl) (fun _ => rfl) ?_
    simp only [AgentTables.failRun] at h
    split at h
    · cases h
    · rw [← Except.ok.inj h]
      rfl
  rcases hc.settles (fun row hr => (held_of_and hr).1) (fun _ => rfl) rfl with
    hsame | ⟨row, hsel, hs⟩
  · exact .inl hsame
  · exact .inr ⟨row, (held_of_and hsel).2, hs⟩

omit [Metering] in
theorem standing_cancelRun2 :
    SameStanding s (s.cancelRun2 tenantId runId message completedAt audit) ∨
      ∃ row, Settles s (s.cancelRun2 tenantId runId message completedAt audit) tenantId runId row
        .cancelled := by
  have hc : Changes s (s.cancelRun2 tenantId runId message completedAt audit)
      (fun row => row.is tenantId runId)
      fun row => row.cancelled "RUN_CANCELLED" (some message) completedAt :=
    changes_of_runs (fun _ => rfl) (fun _ => rfl) rfl
  rcases hc.settles (fun row hr => hr) (fun _ => rfl) rfl with hsame | ⟨row, -, hs⟩
  · exact .inl hsame
  · exact .inr ⟨row, hs⟩

/-- A call that is committed has done what it does, or nothing but take time. -/
theorem serve_state
    (hl : P (s.later choice.elapsed)) (hp : P (c.perform (s.later choice.elapsed)).2) :
    P (c.serve s choice).2 := by
  rcases @serve_cases _ s c choice with h | h
  · rw [h]
    exact hl
  · rw [h]
    exact hp

/-- A call that is answered has done what it does. -/
theorem serve_answer {a : c.Answer} (h : (c.serve s choice).1 = .ok a) :
    (c.serve s choice).2 = (c.perform (s.later choice.elapsed)).2 ∧
      (c.perform (s.later choice.elapsed)).1 = .ok a := by
  obtain ⟨fails, elapsed⟩ := choice
  rcases fails with _ | ⟨kept, error⟩
  · exact ⟨rfl, h⟩
  · cases h

omit [Metering] in
/-- A transaction that is refused leaves the tables. -/
theorem committed_state {done : Except String AgentTables} (hs : P s)
    (hd : ∀ s', done = .ok s' → P s') : P (s.committed done).2 := by
  cases done with
  | error e => exact hs
  | ok s' => exact hd s' rfl

end Calls

end Flowdular.Agents
