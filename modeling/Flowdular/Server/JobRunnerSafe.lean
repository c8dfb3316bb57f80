/-
# The safety of the job runner

`src/packages/server/src/jobs/runner.ts`.  A pass keeps its counts in balance and makes its claims
one at a time (`JobPass.Balanced`).  A runner runs one pass at most and, started, one chain
(`JobRunner.Steady`), unless a call that begins a pass is made while another call of `tick` has
begun one and has not returned (`JobRunner.begins`): there `inFlight` is not set, and two passes
overlap.
-/

import Flowdular.Server.JobRunner
import Mathlib.Tactic.SplitIfs
import Mathlib.Data.List.Basic

namespace Flowdular.Server

open Lib

variable {options : JobRunnerOptions}

/-! ### Passes -/

/-- A worker that holds an item. -/
def JobWorker.holds : JobWorker → Bool
  | .answered found => found
  | .performing _ => true
  | _ => false

/-- A worker whose claim is made. -/
def JobWorker.claims : JobWorker → Bool
  | .claiming => true
  | _ => false

/-- A worker that performs its item. -/
def JobWorker.performs : JobWorker → Bool
  | .performing _ => true
  | _ => false

namespace JobPass

/-- The claims that are being made. -/
def claims (pass : JobPass) : ℕ :=
  pass.workers.countP (·.claims)

/-- The items that are being performed. -/
def performing (pass : JobPass) : ℕ :=
  pass.workers.countP (·.performs)

/-- The items that are held. -/
def held (pass : JobPass) : ℕ :=
  pass.workers.countP (·.holds)

/-- A pass of at most a batch of attempts, whose items are held or counted, and whose one claim is
that of the head of its queue. -/
structure Balanced (options : JobRunnerOptions) (pass : JobPass) : Prop where
  size : pass.workers.length = min options.slots options.batch
  attempts : pass.attempts ≤ options.batch
  claimed : pass.claimed + pass.claims ≤ pass.attempts
  balance : pass.claimed = pass.performed + pass.failed + pass.claimLost + pass.held
  head : pass.claims = 0 ∨
    pass.claims = 1 ∧ ∃ slot, pass.queue.head? = some slot ∧ pass.workers[slot]? = some .claiming

section Place

variable {pass pass' : JobPass} {slot : ℕ} {was is : JobWorker}

/-- **Counting at a place**: what is counted of the worker that was there is counted of the one that
is. -/
theorem countP_set_place (p : JobWorker → Bool) (h : pass.workers[slot]? = some was)
    (hset : pass'.workers = pass.workers.set slot is) :
    pass'.workers.countP p + (p was).toNat = pass.workers.countP p + (p is).toNat := by
  obtain ⟨hs, hw⟩ := List.getElem?_eq_some_iff.1 h
  have hle : (p was).toNat ≤ pass.workers.countP p := by
    cases hp : p was with
    | false => exact Nat.zero_le _
    | true => exact List.countP_pos_iff.2 ⟨was, hw ▸ List.getElem_mem hs, hp⟩
  rw [hset, List.countP_set hs, hw]
  cases hp : p was <;> cases hi : p is <;> rw [hp] at hle <;>
    simp only [Bool.toNat_true, Bool.toNat_false, if_true, Bool.false_eq_true, if_false] at hle ⊢ <;>
    omega

theorem claims_set (h : pass.workers[slot]? = some was)
    (hs : pass'.workers = pass.workers.set slot is) :
    pass'.claims + was.claims.toNat = pass.claims + is.claims.toNat :=
  countP_set_place _ h hs

theorem held_set (h : pass.workers[slot]? = some was)
    (hs : pass'.workers = pass.workers.set slot is) :
    pass'.held + was.holds.toNat = pass.held + is.holds.toNat :=
  countP_set_place _ h hs

/-- The head that claims stays where another worker goes on. -/
theorem head_set (hne : was ≠ .claiming) (h : pass.workers[slot]? = some was)
    (hs : pass'.workers = pass.workers.set slot is)
    (hque : ∀ head, pass.queue.head? = some head → pass'.queue.head? = some head)
    (hc : pass'.claims = pass.claims)
    (hh : pass.claims = 0 ∨ pass.claims = 1 ∧
        ∃ head, pass.queue.head? = some head ∧ pass.workers[head]? = some .claiming) :
    pass'.claims = 0 ∨ pass'.claims = 1 ∧
        ∃ head, pass'.queue.head? = some head ∧ pass'.workers[head]? = some .claiming := by
  rw [hc, hs]
  refine hh.imp_right fun ⟨hone, head, hq, hw⟩ => ⟨hone, head, hque head hq, ?_⟩
  have ho : slot ≠ head := fun heq => hne (Option.some.inj ((heq ▸ h).symm.trans hw))
  rwa [List.getElem?_set_ne ho]

end Place

namespace Balanced

variable {pass pass' : JobPass} {slot : ℕ} {rest : List ℕ}

theorem take (hp : Balanced options pass) (hq : pass.queue = slot :: rest)
    (hs : pass.workers[slot]? = some .waiting) :
    Balanced options (pass.take options slot rest) := by
  obtain ⟨hsize, ha, hclaimed, hb, hhead⟩ := hp
  have hn : pass.claims = 0 := by
    rcases hhead with hz | ⟨-, head, hhead, hcla⟩
    · exact hz
    · rw [hq] at hhead
      cases Option.some.inj hhead
      rw [hs] at hcla
      exact absurd hcla (by nofun)
  have hlt := (List.getElem?_eq_some_iff.1 hs).1
  unfold JobPass.take
  split_ifs with hd
  · set pass' : JobPass :=
      { pass with queue := rest, workers := pass.workers.set slot (.answered false) }
    have hset : pass'.workers = pass.workers.set slot (.answered false) := rfl
    have hc : pass'.claims + 0 = pass.claims + 0 := claims_set hs hset
    have hh : pass'.held + 0 = pass.held + 0 := held_set hs hset
    refine ⟨?_, ha, ?_, ?_, Or.inl (hc.trans hn)⟩
    · rw [← hsize]
      exact List.length_set
    · show pass.claimed + pass'.claims ≤ pass.attempts
      omega
    · show pass.claimed = pass.performed + pass.failed + pass.claimLost + pass'.held
      omega
  · set pass' : JobPass :=
      { pass with attempts := pass.attempts + 1, workers := pass.workers.set slot .claiming }
    have hset : pass'.workers = pass.workers.set slot .claiming := rfl
    have hc : pass'.claims + 0 = pass.claims + 1 := claims_set hs hset
    have hh : pass'.held + 0 = pass.held + 0 := held_set hs hset
    have hm : ¬options.batch ≤ pass.attempts := by
      intro hle
      simp [hle] at hd
    refine ⟨?_, ?_, ?_, ?_, Or.inr ⟨?_, slot, ?_, ?_⟩⟩
    · rw [← hsize]
      exact List.length_set
    · show pass.attempts + 1 ≤ options.batch
      omega
    · show pass.claimed + pass'.claims ≤ pass.attempts + 1
      omega
    · show pass.claimed = pass.performed + pass.failed + pass.claimLost + pass'.held
      omega
    · omega
    · show pass.queue.head? = some slot
      rw [hq]
      rfl
    · exact List.getElem?_set_self hlt

theorem claim (hp : Balanced options pass) (hs : pass.workers[slot]? = some .claiming)
    (answer : ClaimAnswer) : Balanced options (pass.claim slot rest answer) := by
  obtain ⟨hsize, ha, hcla, hb, hhead⟩ := hp
  have key {pass' : JobPass} (found : Bool)
      (hset : pass'.workers = pass.workers.set slot (.answered found))
      (hatt : pass'.attempts = pass.attempts)
      (hclaim : pass'.claimed = pass.claimed + found.toNat)
      (hcou : pass'.performed + pass'.failed + pass'.claimLost =
        pass.performed + pass.failed + pass.claimLost) : Balanced options pass' := by
    have hc : pass'.claims + 1 = pass.claims + 0 := claims_set hs hset
    have hh : pass'.held + 0 = pass.held + found.toNat := held_set hs hset
    refine ⟨by rw [hset, List.length_set, hsize], hatt ▸ ha, ?_, ?_, Or.inl ?_⟩
    · have hle := found.toNat_le
      omega
    · omega
    · omega
  cases answer with
  | item => exact key true rfl rfl rfl rfl
  | empty => exact key false rfl rfl rfl rfl
  | raised => exact key false rfl rfl rfl rfl

theorem goOn (hp : Balanced options pass) {was is : JobWorker}
    (hs : pass.workers[slot]? = some was) (hw : was.claims = false) (his : is.claims = false)
    (hh : was.holds = is.holds) :
    Balanced options { pass with workers := pass.workers.set slot is } := by
  obtain ⟨hsize, ha, hcla, hb, hhead⟩ := hp
  set pass' : JobPass := { pass with workers := pass.workers.set slot is }
  have hc : pass'.claims + was.claims.toNat = pass.claims + is.claims.toNat :=
    claims_set hs rfl
  have hheld : pass'.held + was.holds.toNat = pass.held + is.holds.toNat := held_set hs rfl
  rw [hw, his] at hc
  rw [hh] at hheld
  refine ⟨?_, ha, ?_, ?_, ?_⟩
  · rw [← hsize]
    exact List.length_set
  · show pass.claimed + pass'.claims ≤ pass.attempts
    omega
  · show pass.claimed = pass.performed + pass.failed + pass.claimLost + pass'.held
    omega
  · refine head_set ?_ hs rfl (fun head hq => hq) (Nat.add_right_cancel hc) hhead
    rintro rfl
    exact absurd hw (by nofun)

theorem settle (hp : Balanced options pass) {lost : Bool}
    (hs : pass.workers[slot]? = some (.performing lost)) (resolved : Bool) :
    Balanced options (pass.settle slot lost resolved) := by
  obtain ⟨hsize, ha, hcla, hb, hhead⟩ := hp
  have key {pass' : JobPass} (hset : pass'.workers = pass.workers.set slot .waiting)
      (hque : pass'.queue = pass.queue ++ [slot])
      (hatt : pass'.attempts = pass.attempts) (hclaim : pass'.claimed = pass.claimed)
      (hcou : pass'.performed + pass'.failed + pass'.claimLost =
        pass.performed + pass.failed + pass.claimLost + 1) : Balanced options pass' := by
    have hc : pass'.claims + 0 = pass.claims + 0 := claims_set hs hset
    have hh : pass'.held + 1 = pass.held + 0 := held_set hs hset
    refine ⟨by rw [hset, List.length_set, hsize], hatt ▸ ha, by omega, by omega, ?_⟩
    refine head_set (by nofun) hs hset (fun head hq => ?_) hc hhead
    rw [hque, List.head?_append, hq]
    rfl
  unfold JobPass.settle
  split_ifs with hr hl
  · exact key rfl rfl rfl rfl (by show pass.performed + 1 + pass.failed + pass.claimLost = _; omega)
  · exact key rfl rfl rfl rfl (by show pass.performed + pass.failed + (pass.claimLost + 1) = _; omega)
  · exact key rfl rfl rfl rfl (by show pass.performed + (pass.failed + 1) + pass.claimLost = _; omega)

/-- **A pass stays balanced**, whatever happens in it. -/
theorem step (hp : Balanced options pass) {event : JobPassEvent}
    (h : pass.step options event = some pass') : Balanced options pass' := by
  cases event with
  | take =>
    simp only [JobPass.step] at h
    split at h
    case h_1 slot rest hq =>
      split_ifs at h with hs
      exact Option.some.inj h ▸ hp.take hq hs
    case h_2 => exact absurd h (by nofun)
  | claim answer =>
    simp only [JobPass.step] at h
    split at h
    case h_1 slot rest hq =>
      split_ifs at h with hs
      exact Option.some.inj h ▸ hp.claim hs answer
    case h_2 => exact absurd h (by nofun)
  | resume slot =>
    simp only [JobPass.step] at h
    split at h
    case h_1 found hs =>
      rw [← Option.some.inj h]
      cases found with
      | true => exact hp.goOn hs rfl rfl rfl
      | false => exact hp.goOn hs rfl rfl rfl
    case h_2 => exact absurd h (by nofun)
  | beat slot kept =>
    simp only [JobPass.step] at h
    split at h
    case h_1 hs =>
      split_ifs at h
      exact Option.some.inj h ▸ hp.goOn hs rfl rfl rfl
    case h_2 => exact absurd h (by nofun)
  | settle slot resolved =>
    simp only [JobPass.step] at h
    split at h
    case h_1 lost hs => exact Option.some.inj h ▸ hp.settle hs resolved
    case h_2 => exact absurd h (by nofun)

/-- A pass begins balanced. -/
theorem begin (id : ℕ) : Balanced options (JobPass.begin options id) := by
  set size := min options.slots options.batch
  set pass : JobPass := { id, queue := List.range size, workers := List.replicate size .waiting }
  have hp : Balanced options pass := by
    have hc : pass.claims = 0 := List.countP_replicate
    have hh : pass.held = 0 := List.countP_replicate
    refine ⟨List.length_replicate, Nat.zero_le _, ?_, ?_, Or.inl hc⟩
    · show 0 + pass.claims ≤ 0
      omega
    · show 0 = 0 + 0 + 0 + pass.held
      omega
  unfold JobPass.begin
  show Balanced options (if options.slots = 1 then pass.take options 0 [] else pass)
  split_ifs with hslo
  · have hb : 1 ≤ options.batch := by
      unfold JobRunnerOptions.batch
      omega
    have hs : size = 1 := by omega
    refine hp.take ?_ ?_
    · show List.range size = [0]
      rw [hs]
      rfl
    · show (List.replicate size JobWorker.waiting)[0]? = some .waiting
      rw [hs]
      rfl
  · exact hp

theorem performing_le (hp : Balanced options pass) : pass.performing ≤ options.slots :=
  calc pass.performing ≤ pass.workers.length := List.countP_le_length
    _ = min options.slots options.batch := hp.size
    _ ≤ options.slots := Nat.min_le_left _ _

theorem claims_le (hp : Balanced options pass) : pass.claims ≤ 1 := by
  rcases hp.head with hz | ⟨ho, -⟩ <;> omega

theorem claimed_le (hp : Balanced options pass) : pass.claimed ≤ options.batch := by
  have hc := hp.claimed
  have ha := hp.attempts
  omega

/-- A pass whose workers returned holds no item. -/
theorem report_balance (hp : Balanced options pass) (ho : pass.over = true) :
    pass.claimed = pass.performed + pass.failed + pass.claimLost := by
  have hh : pass.held = 0 := by
    refine List.countP_eq_zero.2 fun worker hw => ?_
    have hd : worker = .done := by simpa using List.all_eq_true.1 ho worker hw
    rw [hd]
    nofun
  have hb := hp.balance
  omega

end Balanced

theorem id_begin (id : ℕ) : (JobPass.begin options id).id = id := by
  unfold JobPass.begin JobPass.take
  dsimp only
  split_ifs <;> rfl

theorem id_step {pass pass' : JobPass} {event : JobPassEvent}
    (h : pass.step options event = some pass') : pass'.id = pass.id := by
  cases event <;> simp only [JobPass.step, JobPass.take, JobPass.claim, JobPass.settle] at h <;>
    grind

end JobPass
/-! ### What a call of `tick` leaves -/

/-- The chain that a callback goes on with. -/
def JobCallback.chain : JobCallback → Option ℕ
  | .ran chain => some chain
  | .woke => none

@[simp]
theorem JobCallback.chain_ran (chain : ℕ) : (JobCallback.ran chain).chain = some chain := rfl

@[simp]
theorem JobCallback.chain_woke : JobCallback.woke.chain = none := rfl

namespace JobRunner

variable {s s' : JobRunner} {chain : Option ℕ}

/-- The chains of a runner: each waits at a timer, in a call of `tick`, behind a pass or to be
called. -/
def chains (s : JobRunner) : List ℕ :=
  s.timers.map (·.chain) ++ s.openings.flatMap (·.chain.toList) ++
    s.attached.flatMap (·.2.chain.toList) ++ s.ready.flatMap (·.chain.toList)

/-- The chains that no stop retired. -/
def liveChains (s : JobRunner) : ℕ :=
  s.chains.count s.generation

/-- What no call of `tick` changes. -/
structure Apart (s s' : JobRunner) : Prop where
  disposed : s'.disposed = s.disposed
  started : s'.started = s.started
  generation : s'.generation = s.generation
  timers : s'.timers = s.timers
  timer : s'.timer = s.timer

theorem apart_join (s : JobRunner) (id : ℕ) (chain : Option ℕ) : Apart s (s.join id chain) := by
  cases chain <;> exact ⟨rfl, rfl, rfl, rfl, rfl⟩

theorem apart_keep (s : JobRunner) (opening : JobOpening) : Apart s (s.keep opening) := by
  cases hc : opening.chain <;> simp only [keep, hc] <;> exact ⟨rfl, rfl, rfl, rfl, rfl⟩

theorem apart_tick (options : JobRunnerOptions) (s : JobRunner) (chain : Option ℕ) :
    Apart s (s.tick options chain) := by
  unfold tick
  split_ifs with hd
  · cases chain <;> exact ⟨rfl, rfl, rfl, rfl, rfl⟩
  · split
    · exact apart_join _ _ _
    · unfold beginPass
      dsimp only
      split_ifs
      · exact ⟨rfl, rfl, rfl, rfl, rfl⟩
      · obtain ⟨h₁, h₂, h₃, h₄, h₅⟩ := apart_keep
          { s with passes := s.passes ++ [JobPass.begin options s.begun], begun := s.begun + 1 }
          ⟨s.begun, chain⟩
        exact ⟨h₁, h₂, h₃, h₄, h₅⟩

theorem count_chains_join (s : JobRunner) (id : ℕ) (chain : Option ℕ) (c : ℕ) :
    (s.join id chain).chains.count c = s.chains.count c + chain.toList.count c := by
  cases chain with
  | none => rfl
  | some chain =>
    simp only [chains, join, List.flatMap_append, List.count_append, List.flatMap_singleton,
      JobCallback.chain_ran]
    omega

/-- The chain of a call that returns is chained behind its pass. -/
theorem count_chains_keep (s : JobRunner) (opening : JobOpening) (c : ℕ) :
    (s.keep opening).chains.count c = s.chains.count c + opening.chain.toList.count c :=
  count_chains_join { s with inFlight := some opening.pass } opening.pass opening.chain c

/-- **A chain is passed on**: a call of `tick` adds the chain of its `run`, and no other. -/
theorem count_chains_tick (options : JobRunnerOptions) (s : JobRunner) (chain : Option ℕ) (c : ℕ) :
    (s.tick options chain).chains.count c = s.chains.count c + chain.toList.count c := by
  unfold tick
  split_ifs with hd
  · cases chain with
    | none => rfl
    | some chain =>
      simp only [chains, List.flatMap_append, List.count_append, List.flatMap_singleton,
        JobCallback.chain_ran]
      omega
  · split
    · exact count_chains_join s _ chain c
    · unfold beginPass
      dsimp only
      split_ifs
      · simp only [chains, List.flatMap_cons, List.count_append]
        omega
      · exact count_chains_keep
          { s with passes := s.passes ++ [JobPass.begin options s.begun], begun := s.begun + 1 }
          ⟨s.begun, chain⟩ c

/-! ### One pass -/

/-- What is in flight: nothing, a pass whose call of `tick` has not returned, one that runs, or one
that returned and is not yet cleared. -/
inductive Flight (s : JobRunner) : Prop
  | idle (hflight : s.inFlight = none) (hopenings : s.openings = []) (hpasses : s.passes = [])
    (hended : s.ended = []) (hattached : s.attached = [])
  | opening (opening : JobOpening) (pass : JobPass) (hflight : s.inFlight = none)
    (hopenings : s.openings = [opening]) (hpasses : s.passes = [pass])
    (hid : pass.id = opening.pass) (hended : s.ended = []) (hattached : s.attached = [])
  | running (pass : JobPass) (hflight : s.inFlight = some pass.id) (hopenings : s.openings = [])
    (hpasses : s.passes = [pass]) (hended : s.ended = [])
    (hattached : ∀ a ∈ s.attached, a.1 = pass.id)
  | ended (id : ℕ) (hflight : s.inFlight = some id) (hopenings : s.openings = [])
    (hpasses : s.passes = []) (hended : s.ended = [id]) (hattached : ∀ a ∈ s.attached, a.1 = id)

/-- A report whose items are all counted, and are a batch at most. -/
def Accounts (options : JobRunnerOptions) (report : JobPassReport) : Prop :=
  report.claimed = report.performed + report.failed + report.claimLost ∧
    report.claimed ≤ options.batch

/-- A runner with one pass at most, that is balanced, and the reports of those before. -/
structure Flown (options : JobRunnerOptions) (s : JobRunner) : Prop where
  flight : Flight s
  balanced : ∀ pass ∈ s.passes, JobPass.Balanced options pass
  reports : ∀ report ∈ s.reports, Accounts options report

theorem attached_append {attached : List (ℕ × JobCallback)} {id : ℕ} (callback : JobCallback)
    (h : ∀ a ∈ attached, a.1 = id) : ∀ a ∈ attached ++ [(id, callback)], a.1 = id := by
  intro a ha
  rcases List.mem_append.1 ha with ha | ha
  · exact h a ha
  · rw [List.mem_singleton.1 ha]

namespace Flown

/-- What is in flight, where nothing of it is changed. -/
theorem frame (hs : Flown options s) (hf : s'.inFlight = s.inFlight)
    (ho : s'.openings = s.openings) (hp : s'.passes = s.passes)
    (he : s'.ended = s.ended) (ha : s'.attached = s.attached)
    (hr : s'.reports = s.reports) : Flown options s' := by
  refine ⟨?_, hp ▸ hs.balanced, hr ▸ hs.reports⟩
  cases hs.flight with
  | idle h₁ h₂ h₃ h₄ h₅ =>
    exact .idle (hf.trans h₁) (ho.trans h₂) (hp.trans h₃) (he.trans h₄) (ha.trans h₅)
  | opening opening pass h₁ h₂ h₃ hid h₄ h₅ =>
    exact .opening opening pass (hf.trans h₁) (ho.trans h₂) (hp.trans h₃) hid
      (he.trans h₄) (ha.trans h₅)
  | running pass h₁ h₂ h₃ h₄ h₅ =>
    exact .running pass (hf.trans h₁) (ho.trans h₂) (hp.trans h₃) (he.trans h₄) (ha ▸ h₅)
  | ended id h₁ h₂ h₃ h₄ h₅ =>
    exact .ended id (hf.trans h₁) (ho.trans h₂) (hp.trans h₃) (he.trans h₄) (ha ▸ h₅)

variable {id : ℕ} {pass : JobPass}

theorem attach (hs : Flown options s) (hid : s.inFlight = some id) (callback : JobCallback)
    (waking : Bool) :
    Flown options { s with waking := waking, attached := s.attached ++ [(id, callback)] } := by
  refine ⟨?_, hs.balanced, hs.reports⟩
  cases hs.flight with
  | idle hf => exact absurd (hid.symm.trans hf) (by nofun)
  | opening _ _ hf => exact absurd (hid.symm.trans hf) (by nofun)
  | running pass hf ho hp he ha =>
    obtain rfl : id = pass.id := Option.some.inj (hid.symm.trans hf)
    exact .running pass hf ho hp he (attached_append callback ha)
  | ended id' hf ho hp he ha =>
    obtain rfl : id = id' := Option.some.inj (hid.symm.trans hf)
    exact .ended id hf ho hp he (attached_append callback ha)

theorem join (hs : Flown options s) (hid : s.inFlight = some id) (chain : Option ℕ) :
    Flown options (s.join id chain) := by
  cases chain with
  | none => exact hs
  | some chain => exact hs.attach hid (.ran chain) s.waking

/-- A pass that begins where nothing is in flight, or open. -/
theorem beginPass (hs : Flown options s) (hf : s.inFlight = none) (hope : s.openings = [])
    (chain : Option ℕ) : Flown options (s.beginPass options chain) := by
  obtain ⟨hp, he, ha⟩ : s.passes = [] ∧ s.ended = [] ∧ s.attached = [] := by
    cases hs.flight with
    | idle _ _ hp he ha => exact ⟨hp, he, ha⟩
    | opening _ _ _ ho => exact absurd (ho.symm.trans hope) (by nofun)
    | running _ hfly => exact absurd (hfly.symm.trans hf) (by nofun)
    | ended _ hfly => exact absurd (hfly.symm.trans hf) (by nofun)
  have hb : ∀ pass ∈ s.passes ++ [JobPass.begin options s.begun],
      JobPass.Balanced options pass := by
    rw [hp]
    intro pass hpass
    rw [List.mem_singleton.1 hpass]
    exact .begin s.begun
  have hid : (JobPass.begin options s.begun).id = s.begun := JobPass.id_begin s.begun
  unfold JobRunner.beginPass
  dsimp only
  split_ifs
  · refine ⟨.opening ⟨s.begun, chain⟩ (JobPass.begin options s.begun) hf ?_ ?_ hid he
      ha, hb, hs.reports⟩
    · rw [hope]
    · rw [hp, List.nil_append]
  · set kept : JobRunner :=
      { s with
        passes := s.passes ++ [JobPass.begin options s.begun]
        begun := s.begun + 1
        inFlight := some s.begun }
    have hk : Flown options kept := by
      refine ⟨.running (JobPass.begin options s.begun) ?_ hope ?_ he ?_, hb, hs.reports⟩
      · rw [hid]
      · show s.passes ++ _ = _
        rw [hp, List.nil_append]
      · show ∀ a ∈ s.attached, _
        rw [ha]
        nofun
    exact hk.join rfl chain

/-- A call of `tick`, where it begins no pass inside of another such call. -/
theorem tick (hs : Flown options s)
    (hc : s.disposed = false → s.inFlight = none → s.openings = []) (chain : Option ℕ) :
    Flown options (s.tick options chain) := by
  unfold JobRunner.tick
  split_ifs with hd
  · cases chain with
    | none => exact hs
    | some chain => exact hs.frame rfl rfl rfl rfl rfl rfl
  · split
    case h_1 id hid => exact hs.join hid chain
    case h_2 hf =>
      exact hs.beginPass hf (hc (Bool.not_eq_true _ ▸ hd) hf) chain

/-- The call that began the pass returns. -/
theorem returned (hs : Flown options s) {opening : JobOpening} {rest : List JobOpening}
    (hope : s.openings = opening :: rest) :
    Flown options ({ s with openings := rest }.keep opening) := by
  cases hs.flight with
  | idle _ ho => exact absurd (hope.symm.trans ho) (by nofun)
  | running _ _ ho => exact absurd (hope.symm.trans ho) (by nofun)
  | ended _ _ ho => exact absurd (hope.symm.trans ho) (by nofun)
  | opening opening' pass hf ho hp hid he ha =>
    obtain ⟨rfl, rfl⟩ := List.cons.inj (hope.symm.trans ho)
    set kept : JobRunner := { s with openings := [], inFlight := some opening.pass }
    have hk : Flown options kept := by
      refine ⟨.running pass ?_ rfl hp he ?_, hs.balanced, hs.reports⟩
      · rw [hid]
      · show ∀ a ∈ s.attached, _
        rw [ha]
        nofun
    exact hk.join rfl opening.chain

/-- The one pass, where a pass is found while no call is open. -/
theorem running_of_find (hs : Flown options s) (hope : s.openings = [])
    (hf : s.passes.find? (fun p => p.id = id) = some pass) :
    pass.id = id ∧ s.inFlight = some id ∧ s.passes = [pass] ∧ s.ended = [] ∧
      ∀ a ∈ s.attached, a.1 = id := by
  have hid : pass.id = id := by simpa using List.find?_some hf
  have hm := List.mem_of_find?_eq_some hf
  cases hs.flight with
  | idle _ _ hp =>
    rw [hp] at hm
    exact absurd hm List.not_mem_nil
  | opening _ _ _ ho => exact absurd (hope.symm.trans ho) (by nofun)
  | running running hfli _ hp he ha =>
    rw [hp] at hm
    obtain rfl := List.mem_singleton.1 hm
    subst hid
    exact ⟨rfl, hfli, hp, he, ha⟩
  | ended _ _ _ hp =>
    rw [hp] at hm
    exact absurd hm List.not_mem_nil

theorem inPass (hs : Flown options s) (ho : s.openings = []) {pass' : JobPass}
    {event : JobPassEvent} (hf : s.passes.find? (fun p => p.id = id) = some pass)
    (hstep : pass.step options event = some pass') :
    Flown options { s with passes := s.passes.map fun p => if p.id = id then pass' else p } := by
  obtain ⟨hid, hfli, hpas, he, ha⟩ := hs.running_of_find ho hf
  have hid' : pass'.id = id := (JobPass.id_step hstep).trans hid
  have hm : (s.passes.map fun p => if p.id = id then pass' else p) = [pass'] := by
    rw [hpas]
    simp [hid]
  refine ⟨.running pass' (hid'.symm ▸ hfli) ho hm he (hid'.symm ▸ ha), ?_, hs.reports⟩
  show ∀ p ∈ (s.passes.map fun p => if p.id = id then pass' else p), _
  rw [hm]
  intro p hp
  rw [List.mem_singleton.1 hp]
  exact (hs.balanced pass (hpas ▸ List.mem_singleton_self pass)).step hstep

theorem endPass (hs : Flown options s) (hope : s.openings = [])
    (hf : s.passes.find? (fun p => p.id = id) = some pass) (ho : pass.over = true) :
    Flown options (s.endPass pass) := by
  obtain ⟨hid, hfli, hp, he, ha⟩ := hs.running_of_find hope hf
  have hn : (s.passes.filter fun p => p.id ≠ pass.id) = [] := by
    rw [hp]
    simp
  have hb := hs.balanced pass (hp ▸ List.mem_singleton_self pass)
  refine ⟨.ended id hfli hope hn ?_ ha, ?_, ?_⟩
  · show s.ended ++ [pass.id] = [id]
    rw [he, hid, List.nil_append]
  · show ∀ p ∈ (s.passes.filter fun p => p.id ≠ pass.id), _
    rw [hn]
    nofun
  · intro report hr
    rcases List.mem_append.1 hr with hr | hr
    · exact hs.reports report hr
    · rw [List.mem_singleton.1 hr]
      exact ⟨hb.report_balance ho, hb.claimed_le⟩

theorem settlePass (hs : Flown options s) (hid : id ∈ s.ended) :
    Flown options (s.settlePass id) := by
  cases hs.flight with
  | idle _ _ _ he => exact absurd (he ▸ hid) List.not_mem_nil
  | opening _ _ _ _ _ _ he => exact absurd (he ▸ hid) List.not_mem_nil
  | running _ _ _ _ he => exact absurd (he ▸ hid) List.not_mem_nil
  | ended id' hf ho hp he hatt =>
    obtain rfl : id = id' := List.mem_singleton.1 (he ▸ hid)
    refine ⟨.idle ?_ ho hp ?_ ?_, hs.balanced, hs.reports⟩
    · show (if s.inFlight = some id then none else s.inFlight) = none
      rw [hf, if_pos rfl]
    · show s.ended.filter (· ≠ id) = []
      rw [he]
      simp
    · show s.attached.filter (fun a => a.1 ≠ id) = []
      exact List.filter_eq_nil_iff.2 fun a ha => by simp [hatt a ha]

end Flown

/-! ### One chain -/

/-- A runner with one timer at most, whose chain is live, and with one live chain while it is
started. -/
structure Chained (s : JobRunner) : Prop where
  timer : s.timers = [] ∧ s.timer = none ∨ ∃ t, s.timers = [t] ∧ s.timer = some t.handle
  current : ∀ t ∈ s.timers, t.chain = s.generation
  retired : ∀ chain ∈ s.chains, chain ≤ s.generation
  live : s.liveChains = s.started.toNat
  disposed : s.disposed = true → s.started = false

namespace Chained

/-- Where the chains are those that were, and no timer is set or cleared. -/
theorem frame (hs : Chained s) (ha : Apart s s')
    (hcha : ∀ c, s'.chains.count c = s.chains.count c) : Chained s' := by
  refine ⟨?_, ?_, fun chain hc => ?_, ?_, ?_⟩
  · rw [ha.timers, ha.timer]
    exact hs.timer
  · rw [ha.timers, ha.generation]
    exact hs.current
  · rw [ha.generation]
    refine hs.retired chain ?_
    rw [← List.count_pos_iff, ← hcha]
    exact List.count_pos_iff.2 hc
  · rw [liveChains, hcha, ha.generation, ha.started]
    exact hs.live
  · rw [ha.disposed, ha.started]
    exact hs.disposed

theorem tick (hs : Chained s) (options : JobRunnerOptions) : Chained (s.tick options none) :=
  hs.frame (apart_tick options s none) fun c => count_chains_tick options s none c

/-- A live chain is timed, or it is not. -/
theorem live_le (hs : Chained s) : s.liveChains ≤ 1 := by
  rw [hs.live]
  exact Bool.toNat_le _

/-- `run`, where its chain is the live one and no other is. -/
theorem run (options : JobRunnerOptions) (hn : s.timers = [] ∧ s.timer = none)
    (hr : ∀ chain ∈ s.chains, chain ≤ s.generation) (hl : s.liveChains = 0)
    (hs : s.started = true) (hd : s.disposed = false) :
    Chained (s.run options s.generation) := by
  have ha := apart_tick options s (some s.generation)
  have hc := count_chains_tick options s (some s.generation)
  refine ⟨Or.inl ?_, ?_, fun chain hcha => ?_, ?_, fun h => ?_⟩
  · exact ⟨ha.timers.trans hn.1, ha.timer.trans hn.2⟩
  · intro t ht
    have ht' : t ∈ s.timers := ha.timers ▸ ht
    rw [hn.1] at ht'
    exact absurd ht' List.not_mem_nil
  · rw [JobRunner.run, ha.generation]
    by_cases heq : chain = s.generation
    · exact Nat.le_of_eq heq
    · refine hr chain (List.count_pos_iff.1 ?_)
      have hp : 0 < (s.tick options (some s.generation)).chains.count chain :=
        List.count_pos_iff.2 hcha
      rw [hc, Option.toList_some, List.count_singleton, if_neg (by simpa using Ne.symm heq)] at hp
      exact hp
  · rw [JobRunner.run, liveChains, ha.generation, ha.started, hs, hc]
    have hz : s.chains.count s.generation = 0 := hl
    simp [hz]
  · have hcon : s.disposed = true := ha.disposed ▸ h
    rw [hd] at hcon
    exact absurd hcon (by nofun)

theorem start (hs : Chained s) (options : JobRunnerOptions) : Chained (s.start options) := by
  unfold JobRunner.start
  split_ifs with hno
  · exact hs
  · simp only [Bool.or_eq_true, not_or, Bool.not_eq_true] at hno
    obtain ⟨hd, hsta⟩ := hno
    have hl : s.liveChains = 0 := by
      rw [hs.live, hsta]
      rfl
    have hn : s.timers = [] ∧ s.timer = none := by
      rcases hs.timer with hn | ⟨t, ht, -⟩
      · exact hn
      · have hm : t ∈ s.timers := ht ▸ List.mem_singleton_self t
        have hp : t.chain ∈ s.chains := by
          simp only [chains, List.mem_append]
          exact Or.inl (Or.inl (Or.inl (List.mem_map_of_mem hm)))
        rw [hs.current t hm, ← List.count_pos_iff] at hp
        exact absurd hl (Nat.pos_iff_ne_zero.1 hp)
    set begun : JobRunner := { s with started := true }
    have hb : Chained (begun.run options begun.generation) :=
      run options hn hs.retired hl rfl hd
    exact hb

theorem stop (hs : Chained s) : Chained s.stop := by
  have hn : (s.timers.filter fun timer => s.timer ≠ some timer.handle) = [] := by
    rcases hs.timer with ⟨ht, -⟩ | ⟨t, ht, htim⟩
    · rw [ht]
      rfl
    · rw [ht, htim]
      simp
  have hle : ∀ chain ∈ s.stop.chains, chain ≤ s.generation := by
    intro chain hc
    refine hs.retired chain ?_
    simp only [chains, JobRunner.stop, hn, List.map_nil, List.nil_append, List.mem_append] at hc ⊢
    tauto
  refine ⟨Or.inl ⟨hn, rfl⟩, ?_, fun chain hc => ?_, ?_, fun _ => rfl⟩
  · show ∀ t ∈ (s.timers.filter fun timer => s.timer ≠ some timer.handle), _
    rw [hn]
    nofun
  · exact Nat.le_succ_of_le (hle chain hc)
  · refine List.count_eq_zero.2 fun hm => ?_
    exact absurd (hle _ hm) (Nat.not_succ_le_self s.generation)

theorem dispose (hs : Chained s) : Chained s.dispose := by
  unfold JobRunner.dispose
  split_ifs
  · exact hs
  · have hstop := hs.stop
    exact ⟨hstop.timer, hstop.current, hstop.retired, hstop.live, fun _ => rfl⟩

/-- The call that began a pass returns. -/
theorem returned (hs : Chained s) {opening : JobOpening} {rest : List JobOpening}
    (ho : s.openings = opening :: rest) :
    Chained ({ s with openings := rest }.keep opening) := by
  obtain ⟨h₁, h₂, h₃, h₄, h₅⟩ := apart_keep { s with openings := rest } opening
  refine hs.frame ⟨h₁, h₂, h₃, h₄, h₅⟩ fun c => ?_
  rw [count_chains_keep]
  simp only [chains, ho, List.flatMap_cons, List.count_append]
  omega

/-- A pass is cleared: what was chained behind it is ready. -/
theorem settlePass (hs : Chained s) (id : ℕ) : Chained (s.settlePass id) := by
  refine hs.frame ⟨rfl, rfl, rfl, rfl, rfl⟩ fun c => ?_
  have hp : ((s.attached.filter fun a => a.1 = id) ++ s.attached.filter fun a => a.1 ≠ id).Perm
      s.attached := by
    simpa using List.filter_append_perm (fun a : ℕ × JobCallback => decide (a.1 = id)) s.attached
  have hc := (hp.flatMap_right (·.2.chain.toList)).count_eq c
  rw [List.flatMap_append, List.count_append] at hc
  simp only [chains, JobRunner.settlePass, List.flatMap_append, List.flatMap_map, List.count_append]
  omega

theorem count_chains_ready {place : ℕ} {callback : JobCallback}
    (hp : s.ready[place]? = some callback) (c : ℕ) :
    s.chains.count c =
      { s with ready := s.ready.eraseIdx place }.chains.count c + callback.chain.toList.count c := by
  obtain ⟨hlt, hg⟩ := List.getElem?_eq_some_iff.1 hp
  have hperm : s.ready.Perm (callback :: s.ready.eraseIdx place) := by
    rw [← hg]
    exact (List.perm_cons_erase (List.getElem_mem hlt)).trans ((List.erase_getElem hlt).cons _)
  have hc := (hperm.flatMap_right (·.chain.toList)).count_eq c
  rw [List.flatMap_cons, List.count_append] at hc
  simp only [chains, List.count_append]
  omega

/-- A timer that is due is taken: it was the only one. -/
theorem due (hs : Chained s) (options : JobRunnerOptions) {place : ℕ} {timer : JobTimer}
    (hp : s.timers[place]? = some timer) :
    Chained
      ({ s with timers := s.timers.eraseIdx place, timer := none }.run options timer.chain) := by
  obtain ⟨t, ht, -⟩ : ∃ t, s.timers = [t] ∧ s.timer = some t.handle := by
    rcases hs.timer with ⟨hn, -⟩ | ho
    · rw [hn] at hp
      exact absurd hp (by nofun)
    · exact ho
  have hm : timer ∈ s.timers := List.mem_of_getElem? hp
  obtain rfl : timer = t := List.mem_singleton.1 (ht ▸ hm)
  have hg : s.timers.eraseIdx place = [] := by
    have hlt := (List.getElem?_eq_some_iff.1 hp).1
    rw [ht] at hlt ⊢
    obtain rfl : place = 0 := by simpa using hlt
    rfl
  have hc : timer.chain = s.generation := hs.current timer hm
  set taken : JobRunner := { s with timers := s.timers.eraseIdx place, timer := none }
  have hcou (c : ℕ) : s.chains.count c = taken.chains.count c + [timer.chain].count c := by
    simp only [chains, taken]
    rw [hg, ht]
    simp only [List.map_nil, List.map_cons, List.nil_append, List.count_append]
    omega
  have hl : s.liveChains = taken.liveChains + 1 := by
    have ho := hcou s.generation
    rw [hc, List.count_singleton_self] at ho
    exact ho
  have hle := hs.live_le
  have hsta : s.started = true := by
    cases hsta : s.started with
    | true => rfl
    | false =>
      have hz := hs.live
      rw [hsta, hl] at hz
      exact absurd hz (by simp)
  have hd : s.disposed = false := by
    cases hd : s.disposed with
    | false => rfl
    | true =>
      have hno := hs.disposed hd
      rw [hsta] at hno
      exact absurd hno (by nofun)
  rw [hc]
  refine run options ⟨hg, rfl⟩ (fun chain hm => hs.retired chain ?_) (by omega) hsta hd
  rw [← List.count_pos_iff] at hm ⊢
  have := hcou chain
  omega

theorem callback (hs : Chained s) (options : JobRunnerOptions) {place : ℕ} {callback : JobCallback}
    (hp : s.ready[place]? = some callback) :
    Chained ({ s with ready := s.ready.eraseIdx place }.callback options callback) := by
  have hcou := count_chains_ready hp
  set taken : JobRunner := { s with ready := s.ready.eraseIdx place }
  cases callback with
  | woke =>
    have htak : Chained taken := hs.frame ⟨rfl, rfl, rfl, rfl, rfl⟩ fun c => by
      simpa using (hcou c).symm
    unfold JobRunner.callback
    dsimp only
    split_ifs
    · have hw : Chained { taken with waking := false } :=
        htak.frame ⟨rfl, rfl, rfl, rfl, rfl⟩ fun _ => rfl
      exact hw.tick options
    · exact htak
  | ran chain =>
    have hle : ∀ c ∈ taken.chains, c ≤ s.generation := fun c hc => by
      refine hs.retired c ?_
      rw [← List.count_pos_iff] at hc ⊢
      have := hcou c
      omega
    have ho : s.liveChains = taken.liveChains + [chain].count s.generation := hcou s.generation
    unfold JobRunner.callback
    dsimp only
    split_ifs with hno
    · -- a chain that a stop retired, or of a runner that is disposed, ends here
      have hsame : taken.liveChains = s.liveChains := by
        simp only [Bool.or_eq_true, decide_eq_true_eq] at hno
        rcases hno with hd | hne
        · have hz := hs.live
          rw [hs.disposed hd] at hz
          simp only [Bool.toNat_false] at hz
          omega
        · rw [List.count_singleton, if_neg (by simpa using hne)] at ho
          exact ho.symm
      exact ⟨hs.timer, hs.current, hle, hsame.trans hs.live, hs.disposed⟩
    · simp only [Bool.or_eq_true, decide_eq_true_eq, not_or, not_not, Bool.not_eq_true] at hno
      obtain ⟨hd, hcha⟩ := hno
      have hg : chain = s.generation := hcha
      subst hg
      rw [List.count_singleton_self] at ho
      have hl := hs.live_le
      have hn : s.timers = [] := by
        rcases hs.timer with ⟨hnil, -⟩ | ⟨t, ht, -⟩
        · exact hnil
        · have hm : t ∈ s.timers := ht ▸ List.mem_singleton_self t
          have hpos : t.chain ∈ taken.chains := by
            simp only [chains, List.mem_append]
            exact Or.inl (Or.inl (Or.inl (List.mem_map_of_mem hm)))
          rw [hs.current t hm, ← List.count_pos_iff] at hpos
          have hz : taken.liveChains = 0 := by omega
          exact absurd hz (Nat.pos_iff_ne_zero.1 hpos)
      have hsch (c : ℕ) (delayMs : ℕ) :
          (taken.schedule delayMs s.generation).chains.count c = s.chains.count c := by
        rw [hcou c]
        simp only [chains, JobRunner.schedule, List.map_append, List.count_append, List.map_cons,
          List.map_nil, JobCallback.chain_ran, Option.toList_some]
        omega
      refine ⟨Or.inr ⟨⟨s.handles, s.generation, options.delay s.failures⟩, ?_, rfl⟩, ?_,
        fun c hc => ?_, ?_, hs.disposed⟩
      · show s.timers ++ [_] = [_]
        rw [hn, List.nil_append]
      · show ∀ t ∈ s.timers ++ [_], _
        rw [hn]
        intro t ht
        rw [List.mem_singleton.1 ht]
        rfl
      · refine hs.retired c (List.count_pos_iff.1 ?_)
        rw [← hsch c (options.delay s.failures)]
        exact List.count_pos_iff.2 hc
      · exact (hsch s.generation (options.delay s.failures)).trans hs.live

end Chained

/-! ### Runs -/

/-- A call that begins a pass: nothing is in flight, and it asks for one. -/
def begins (s : JobRunner) : JobRunnerEvent → Prop
  | .tick => s.disposed = false ∧ s.inFlight = none
  | .wake => s.disposed = false ∧ s.inFlight = none
  | .start => s.disposed = false ∧ s.started = false ∧ s.inFlight = none
  | _ => False

instance (s : JobRunner) : (event : JobRunnerEvent) → Decidable (s.begins event)
  | .tick => inferInstanceAs (Decidable (_ ∧ _))
  | .wake => inferInstanceAs (Decidable (_ ∧ _))
  | .start => inferInstanceAs (Decidable (_ ∧ _ ∧ _))
  | .stop | .quiesce | .dispose | .returned | .pass _ _ | .ended _ | .settled _ | .callback _
  | .due _ => isFalse not_false

/-- An event is calm if it begins no pass while a call that began one is open: the code that makes
the first claim of a pool of one asks for no pass. -/
def Calm (s : JobRunner) (event : JobRunnerEvent) : Prop :=
  s.begins event → s.openings = []

instance (s : JobRunner) (event : JobRunnerEvent) : Decidable (s.Calm event) :=
  inferInstanceAs (Decidable (s.begins event → s.openings = []))

/-- A runner that runs one pass, and one chain while it is started. -/
structure Steady (options : JobRunnerOptions) (s : JobRunner) : Prop where
  flown : Flown options s
  chained : Chained s

namespace Steady

theorem init (options : JobRunnerOptions) : Steady options {} :=
  ⟨⟨.idle rfl rfl rfl rfl rfl, nofun, nofun⟩, ⟨Or.inl ⟨rfl, rfl⟩, nofun, nofun, rfl, nofun⟩⟩

theorem tick (hs : Steady options s)
    (hc : s.disposed = false → s.inFlight = none → s.openings = []) :
    Steady options (s.tick options none) :=
  ⟨hs.flown.tick hc none, hs.chained.tick options⟩

theorem start (hs : Steady options s)
    (hc : s.disposed = false → s.started = false → s.inFlight = none → s.openings = []) :
    Steady options (s.start options) := by
  refine ⟨?_, hs.chained.start options⟩
  unfold JobRunner.start
  split_ifs with hno
  · exact hs.flown
  · simp only [Bool.or_eq_true, not_or, Bool.not_eq_true] at hno
    have hb : Flown options { s with started := true } :=
      hs.flown.frame rfl rfl rfl rfl rfl rfl
    exact hb.tick (fun hd => hc hd hno.2) (some s.generation)

theorem wake (hs : Steady options s)
    (hc : s.disposed = false → s.inFlight = none → s.openings = []) :
    Steady options (s.wake options) := by
  unfold JobRunner.wake
  split_ifs with hd
  · exact hs
  · have hw : Steady options { s with wakes := s.wakes ++ [s.begun] } :=
      ⟨hs.flown.frame rfl rfl rfl rfl rfl rfl,
        hs.chained.frame ⟨rfl, rfl, rfl, rfl, rfl⟩ fun _ => rfl⟩
    dsimp only
    split
    · exact hw.tick hc
    · split_ifs
      · exact hw
      case neg id hid _ =>
        refine ⟨hw.flown.attach hid .woke true, ?_⟩
        refine hw.chained.frame ⟨rfl, rfl, rfl, rfl, rfl⟩ fun c => ?_
        simp only [chains, List.flatMap_append, List.flatMap_singleton, JobCallback.chain_woke,
          Option.toList_none, List.append_nil]

theorem stop (hs : Steady options s) : Steady options s.stop :=
  ⟨hs.flown.frame rfl rfl rfl rfl rfl rfl, hs.chained.stop⟩

theorem dispose (hs : Steady options s) : Steady options s.dispose := by
  refine ⟨?_, hs.chained.dispose⟩
  unfold JobRunner.dispose
  split_ifs
  · exact hs.flown
  · exact hs.flown.frame rfl rfl rfl rfl rfl rfl

variable {event : JobRunnerEvent}

/-- What happens while no call is open keeps the runner steady. -/
theorem turn (hs : Steady options s) (hope : s.openings = [])
    (h : s.turn options event = some s') : Steady options s' := by
  unfold JobRunner.turn at h
  split at h
  case h_1 id event =>
    split at h
    case h_1 pass hf =>
      obtain ⟨pass', hstep, rfl⟩ := Option.map_eq_some_iff.1 h
      exact ⟨hs.flown.inPass hope hf hstep, hs.chained.frame ⟨rfl, rfl, rfl, rfl, rfl⟩ fun _ => rfl⟩
    case h_2 => exact absurd h (by nofun)
  case h_2 id =>
    split at h
    case h_1 pass hf =>
      split_ifs at h with ho
      rw [← Option.some.inj h]
      exact ⟨hs.flown.endPass hope hf ho, hs.chained.frame ⟨rfl, rfl, rfl, rfl, rfl⟩ fun _ => rfl⟩
    case h_2 => exact absurd h (by nofun)
  case h_3 id =>
    split_ifs at h with hid
    exact Option.some.inj h ▸ ⟨hs.flown.settlePass hid, hs.chained.settlePass id⟩
  case h_4 place =>
    split at h
    case h_1 callback hp =>
      rw [← Option.some.inj h]
      refine ⟨?_, hs.chained.callback options hp⟩
      have ht : Flown options { s with ready := s.ready.eraseIdx place } :=
        hs.flown.frame rfl rfl rfl rfl rfl rfl
      unfold JobRunner.callback
      split
      · split_ifs
        · exact ht
        · exact ht.frame rfl rfl rfl rfl rfl rfl
      · split_ifs
        · have hw : Flown options { s with ready := s.ready.eraseIdx place, waking := false } :=
            hs.flown.frame rfl rfl rfl rfl rfl rfl
          exact hw.tick (fun _ _ => hope) none
        · exact ht
    case h_2 => exact absurd h (by nofun)
  case h_5 place =>
    split at h
    case h_1 timer hp =>
      rw [← Option.some.inj h]
      refine ⟨?_, hs.chained.due options hp⟩
      have ht : Flown options { s with timers := s.timers.eraseIdx place, timer := none } :=
        hs.flown.frame rfl rfl rfl rfl rfl rfl
      exact ht.tick (fun _ _ => hope) (some timer.chain)
    case h_2 => exact absurd h (by nofun)
  case h_6 => exact absurd h (by nofun)

/-- **Every calm event keeps a runner steady.** -/
theorem step (hs : Steady options s) (hc : s.Calm event)
    (h : runnerStep options s event = some s') : Steady options s' := by
  have ht : ∀ event, (if s.openings.isEmpty then s.turn options event else none) = some s' →
      Steady options s' := by
    intro event h
    split_ifs at h with ho
    exact hs.turn (List.isEmpty_iff.1 ho) h
  cases event with
  | start =>
    exact Option.some.inj h ▸ hs.start fun h₁ h₂ h₃ => hc ⟨h₁, h₂, h₃⟩
  | tick => exact Option.some.inj h ▸ hs.tick fun h₁ h₂ => hc ⟨h₁, h₂⟩
  | wake => exact Option.some.inj h ▸ hs.wake fun h₁ h₂ => hc ⟨h₁, h₂⟩
  | stop => exact Option.some.inj h ▸ hs.stop
  | quiesce => exact Option.some.inj h ▸ hs.stop
  | dispose => exact Option.some.inj h ▸ hs.dispose
  | returned =>
    simp only [runnerStep] at h
    split at h
    case h_1 opening rest ho =>
      exact Option.some.inj h ▸ ⟨hs.flown.returned ho, hs.chained.returned ho⟩
    case h_2 => exact absurd h (by nofun)
  | pass id event => exact ht _ h
  | ended id => exact ht _ h
  | settled id => exact ht _ h
  | callback place => exact ht _ h
  | due place => exact ht _ h

end Steady

end JobRunner

/-- The safety of a runner: no two passes, no two claims that are made, no more items performed than
the concurrency; every pass and every report within its batch, every report in balance; and one live
chain while the runner is started and not disposed. -/
structure JobRunnerSafe (options : JobRunnerOptions) (s : JobRunner) : Prop where
  passes : s.passes.length ≤ 1
  claims : (s.passes.map (·.claims)).sum ≤ 1
  performing : (s.passes.map (·.performing)).sum ≤ options.slots
  batch : ∀ pass ∈ s.passes, pass.claimed ≤ options.batch
  reports : ∀ report ∈ s.reports,
    report.claimed = report.performed + report.failed + report.claimLost ∧
      report.claimed ≤ options.batch
  chain : s.started = true → s.disposed = false → s.liveChains = 1

variable {s : JobRunner}

/-- A steady runner is safe. -/
theorem JobRunner.Steady.safe (hs : JobRunner.Steady options s) : JobRunnerSafe options s := by
  have ho : s.passes = [] ∨ ∃ pass, s.passes = [pass] := by
    cases hs.flown.flight with
    | idle _ _ hp => exact Or.inl hp
    | opening _ pass _ _ hp => exact Or.inr ⟨pass, hp⟩
    | running pass _ _ hp => exact Or.inr ⟨pass, hp⟩
    | ended _ _ _ hp => exact Or.inl hp
  have hb := hs.flown.balanced
  refine ⟨?_, ?_, ?_, fun pass hpass => (hb pass hpass).claimed_le, hs.flown.reports,
    fun hsta _ => ?_⟩
  · obtain hn | ⟨pass, hpass⟩ := ho
    · simp [hn]
    · simp [hpass]
  · obtain hn | ⟨pass, hpass⟩ := ho
    · simp [hn]
    · simpa [hpass] using (hb pass (hpass ▸ List.mem_singleton_self pass)).claims_le
  · obtain hn | ⟨pass, hpass⟩ := ho
    · simp [hn]
    · simpa [hpass] using (hb pass (hpass ▸ List.mem_singleton_self pass)).performing_le
  · have hl := hs.chained.live
    rwa [hsta] at hl

/-- A pass that begins comes behind the passes there are. -/
theorem JobRunner.length_passes_tick (hd : s.disposed = false)
    (hf : s.inFlight = none) (chain : Option ℕ) :
    (s.tick options chain).passes.length = s.passes.length + 1 := by
  unfold JobRunner.tick
  rw [if_neg (by simp [hd]), hf]
  unfold JobRunner.beginPass JobRunner.keep
  dsimp only
  split_ifs
  · exact List.length_append
  · cases chain <;> exact List.length_append

/-- **An event that is not calm makes two passes overlap.** -/
theorem JobRunner.Steady.overlap (hs : JobRunner.Steady options s)
    {event : JobRunnerEvent} (hc : ¬s.Calm event) :
    ∃ s', runnerStep options s event = some s' ∧ ¬JobRunnerSafe options s' := by
  unfold JobRunner.Calm at hc
  obtain ⟨hb, ho⟩ := Classical.not_imp.1 hc
  have hone : s.passes.length = 1 := by
    cases hs.flown.flight with
    | idle _ hn => exact absurd hn ho
    | opening _ pass _ _ hp => rw [hp]; rfl
    | running _ _ hn => exact absurd hn ho
    | ended _ _ hn => exact absurd hn ho
  have key (t : JobRunner) (chain : Option ℕ) (hd : t.disposed = false)
      (hf : t.inFlight = none) (hp : t.passes = s.passes) :
      ¬JobRunnerSafe options (t.tick options chain) := by
    intro hsafe
    have ht := hsafe.passes
    rw [JobRunner.length_passes_tick hd hf, hp, hone] at ht
    omega
  cases event with
  | tick => exact ⟨_, rfl, key s none hb.1 hb.2 rfl⟩
  | wake =>
    refine ⟨_, rfl, ?_⟩
    unfold JobRunner.wake
    rw [if_neg (by simp [hb.1])]
    dsimp only
    split
    case h_1 =>
      exact key { s with wakes := s.wakes ++ [s.begun] } none hb.1 hb.2 rfl
    case h_2 id hid => exact absurd (hid.symm.trans hb.2) (by nofun)
  | start =>
    obtain ⟨hd, hsta, hf⟩ := hb
    refine ⟨_, rfl, ?_⟩
    unfold JobRunner.start
    rw [if_neg (by simp [hd, hsta])]
    exact key { s with started := true } (some s.generation) hd hf rfl
  | _ => exact absurd hb not_false

/-- **When a runner is safe.**  A runner is safe in every state of a script exactly when no event of
the script begins a pass while a call that began one is open: when the code that makes the first
claim of a pass of a pool of one asks for no pass before it answers. -/
theorem jobRunner_safe_iff (options : JobRunnerOptions) (script : List JobRunnerEvent) :
    Events.Everywhere (runnerStep options) (JobRunnerSafe options) {} script ↔
      Events.Meets (runnerStep options) JobRunner.Calm {} script := by
  have hstep : ∀ s e s', JobRunner.Steady options s → s.Calm e →
      runnerStep options s e = some s' → JobRunner.Steady options s' :=
    fun _ _ _ hs hc hstep => hs.step hc hstep
  exact Events.everywhere_iff_meets hstep (fun _ hs => hs.safe)
    (fun _ _ hs hc => hs.overlap hc) (.init options)

/-- A wake by the code that makes the first claim begins a second pass. -/
theorem jobRunner_passes_overlap :
    ¬∀ (options : JobRunnerOptions) (script : List JobRunnerEvent) (s : JobRunner),
      Events.play (runnerStep options) {} script = some s → JobRunnerSafe options s := by
  intro ha
  have hp : (Events.play (runnerStep {}) {} [.start, .wake]).map (·.passes.length) = some 2 := by
    decide +kernel
  obtain ⟨s, hs, ht⟩ := Option.map_eq_some_iff.1 hp
  have ho := (ha {} _ s hs).passes
  omega

end Flowdular.Server
