/-
# The wakes of the job runner

`src/packages/server/src/jobs/runner.ts`: `wake` asks for a pass that begins after it, and with a
pass in flight leaves the request in one flag and a callback behind that pass.  A `stop` clears the
flag: a wake that waits for its follow-up is dropped (`wake_dropped_by_stop`), though a wake is said
to ignore `start` and `stop`.  A wake that finds the flag still set behind a pass that ended, while
the next is already in flight, adds no callback to that one, and may be answered by it.  Every other
wake is followed (`wakes_followed`).
-/

import Flowdular.Server.JobRunnerSafe

namespace Flowdular.Server

open Lib

variable {options : JobRunnerOptions}

namespace JobRunner

variable {s s' : JobRunner} {chain : Option ℕ}

/-- A follow-up is chained behind the pass in flight. -/
def Chains (s : JobRunner) : Prop :=
  ∃ a ∈ s.attached, a.2 = .woke

instance (s : JobRunner) : Decidable s.Chains :=
  inferInstanceAs (Decidable (∃ a ∈ s.attached, a.2 = .woke))

/-- A follow-up is due: the flag is set, and its callback waits for the pass in flight, or is ready
and nothing is in flight. -/
def FollowUp (s : JobRunner) : Prop :=
  s.waking = true ∧ (s.Chains ∨ s.inFlight = none ∧ .woke ∈ s.ready)

/-- A wake waits for its follow-up. -/
def Waits (s : JobRunner) : Prop :=
  s.waking = true ∧ (s.Chains ∨ s.inFlight = none)

instance (s : JobRunner) : Decidable s.Waits :=
  inferInstanceAs (Decidable (_ ∧ _))

/-- What spares the wakes: a stop, or a dispose, where none waits for its follow-up; a wake where no
follow-up of an earlier pass is to be called while another is in flight. -/
def Spares (s : JobRunner) : JobRunnerEvent → Prop
  | .stop => ¬s.Waits
  | .quiesce => ¬s.Waits
  | .dispose => ¬s.Waits
  | .wake => s.inFlight ≠ none → .woke ∉ s.ready
  | _ => True

instance (s : JobRunner) : (event : JobRunnerEvent) → Decidable (s.Spares event)
  | .stop | .quiesce | .dispose => inferInstanceAs (Decidable ¬s.Waits)
  | .wake => inferInstanceAs (Decidable (s.inFlight ≠ none → .woke ∉ s.ready))
  | .start | .tick | .returned | .pass _ _ | .ended _ | .settled _ | .callback _
  | .due _ => isTrue trivial

/-- What heeds the wakes spares them, and begins no second pass. -/
def Heeds (s : JobRunner) (event : JobRunnerEvent) : Prop :=
  s.Calm event ∧ s.Spares event

instance (s : JobRunner) (event : JobRunnerEvent) : Decidable (s.Heeds event) :=
  inferInstanceAs (Decidable (_ ∧ _))

/-- A wake is followed: a pass began after it, or its follow-up is due. -/
structure Followed (s : JobRunner) : Prop where
  wakes : ∀ w ∈ s.wakes, w < s.begun ∨ s.FollowUp
  bound : ∀ w ∈ s.wakes, w ≤ s.begun
  opened : s.openings ≠ [] → ∀ w ∈ s.wakes, w < s.begun
  flag : s.waking = true → s.Chains ∨ .woke ∈ s.ready
  chains : s.Chains → s.waking = true ∧ .woke ∉ s.ready
  silenced : s.disposed = true → s.waking = false

/-! ### What leaves the wakes as they are -/

/-- Nothing changes of the wakes, of the flag or of the follow-ups. -/
structure Silent (s s' : JobRunner) : Prop where
  disposed : s'.disposed = s.disposed
  wakes : s'.wakes = s.wakes
  waking : s'.waking = s.waking
  chains : s'.Chains ↔ s.Chains
  ready : .woke ∈ s'.ready ↔ .woke ∈ s.ready

theorem silent_join (s : JobRunner) (id : ℕ) (chain : Option ℕ) : Silent s (s.join id chain) := by
  cases chain with
  | none => exact ⟨rfl, rfl, rfl, Iff.rfl, Iff.rfl⟩
  | some chain =>
    refine ⟨rfl, rfl, rfl, ?_, Iff.rfl⟩
    simp [Chains, join]

theorem silent_keep (s : JobRunner) (opening : JobOpening) : Silent s (s.keep opening) := by
  obtain ⟨h₁, h₂, h₃, h₄, h₅⟩ :=
    silent_join { s with inFlight := some opening.pass } opening.pass opening.chain
  exact ⟨h₁, h₂, h₃, h₄, h₅⟩

/-- A call of `tick` begins a pass, or changes none. -/
theorem tick_cases (options : JobRunnerOptions) (s : JobRunner) (chain : Option ℕ) :
    Silent s (s.tick options chain) ∧
      ((s.tick options chain).begun = s.begun + 1 ∧ s.disposed = false ∧ s.inFlight = none ∨
        (s.tick options chain).begun = s.begun ∧ (s.tick options chain).inFlight = s.inFlight ∧
          (s.tick options chain).openings = s.openings ∧
            (s.disposed = true ∨ s.inFlight ≠ none)) := by
  unfold tick
  split_ifs with hd
  · cases chain with
    | none => exact ⟨⟨rfl, rfl, rfl, Iff.rfl, Iff.rfl⟩, Or.inr ⟨rfl, rfl, rfl, Or.inl hd⟩⟩
    | some chain =>
      refine ⟨⟨rfl, rfl, rfl, Iff.rfl, ?_⟩, Or.inr ⟨rfl, rfl, rfl, Or.inl hd⟩⟩
      simp
  · split
    case h_1 id hid =>
      refine ⟨silent_join s id chain, Or.inr ?_⟩
      have hs : s.inFlight ≠ none := by simp [hid]
      cases chain <;> exact ⟨rfl, rfl, rfl, Or.inr hs⟩
    case h_2 hn =>
      have hf : s.disposed = false := Bool.eq_false_iff.2 hd
      unfold beginPass
      dsimp only
      split_ifs
      · exact ⟨⟨rfl, rfl, rfl, Iff.rfl, Iff.rfl⟩, Or.inl ⟨rfl, hf, hn⟩⟩
      · set begun : JobRunner :=
          { s with passes := s.passes ++ [JobPass.begin options s.begun], begun := s.begun + 1 }
        obtain ⟨h₁, h₂, h₃, h₄, h₅⟩ := silent_keep begun ⟨s.begun, chain⟩
        refine ⟨⟨h₁, h₂, h₃, h₄, h₅⟩, Or.inl ⟨?_, hf, hn⟩⟩
        cases chain <;> rfl

namespace Followed

theorem init : Followed {} where
  wakes := nofun
  bound := nofun
  opened := nofun
  flag := nofun
  chains := fun ⟨_, ha, _⟩ => absurd ha List.not_mem_nil
  silenced := nofun

/-- Where no pass begins, and one in flight stays. -/
theorem silent (hs : Followed s) (h : Silent s s') (hb : s'.begun = s.begun)
    (hf : s.inFlight = none → s'.inFlight = none ∨ s.openings ≠ [])
    (hope : s'.openings ≠ [] → s.openings ≠ []) : Followed s' := by
  refine ⟨?_, ?_, ?_, ?_, ?_, ?_⟩
  · rw [h.wakes, hb]
    intro w hw
    rcases hs.wakes w hw with hlt | ⟨hwak, hc | ⟨hn, hr⟩⟩
    · exact Or.inl hlt
    · exact Or.inr ⟨h.waking.trans hwak, Or.inl (h.chains.2 hc)⟩
    · rcases hf hn with hn' | ho
      · exact Or.inr ⟨h.waking.trans hwak, Or.inr ⟨hn', h.ready.2 hr⟩⟩
      · exact Or.inl (hs.opened ho w hw)
  · rw [h.wakes, hb]
    exact hs.bound
  · rw [h.wakes, hb]
    exact fun ho => hs.opened (hope ho)
  · rw [h.waking, h.chains, h.ready]
    exact hs.flag
  · rw [h.waking, h.chains, h.ready]
    exact hs.chains
  · rw [h.disposed, h.waking]
    exact hs.silenced

/-- Where a pass begins, every wake is followed. -/
theorem begun (h : Silent s s') (hb : s'.begun = s.begun + 1)
    (hbou : ∀ w ∈ s.wakes, w ≤ s.begun) (hf : s.waking = true → s.Chains ∨ .woke ∈ s.ready)
    (hc : s.Chains → s.waking = true ∧ .woke ∉ s.ready)
    (hs : s.disposed = true → s.waking = false) : Followed s' := by
  have ha : ∀ w ∈ s'.wakes, w < s'.begun := by
    rw [h.wakes, hb]
    exact fun w hw => Nat.lt_succ_of_le (hbou w hw)
  refine ⟨fun w hw => Or.inl (ha w hw), fun w hw => Nat.le_of_lt (ha w hw), fun _ => ha, ?_, ?_, ?_⟩
  · rw [h.waking, h.chains, h.ready]
    exact hf
  · rw [h.waking, h.chains, h.ready]
    exact hc
  · rw [h.disposed, h.waking]
    exact hs

theorem tick (hs : Followed s) (options : JobRunnerOptions) (chain : Option ℕ) :
    Followed (s.tick options chain) := by
  obtain ⟨hsil, ⟨hb, -⟩ | ⟨hb, hf, hope, -⟩⟩ := tick_cases options s chain
  · exact begun hsil hb hs.bound hs.flag hs.chains hs.silenced
  · exact hs.silent hsil hb (fun hn => Or.inl (hf.trans hn)) fun ho => hope ▸ ho

/-- The flag is cleared where no wake waits: every wake is followed already. -/
theorem unflag (hs : Followed s) (hwai : ¬s.Waits) (hb : s'.begun = s.begun)
    (hwakes : s'.wakes = s.wakes) (ha : s'.attached = s.attached)
    (hwak : s'.waking = false) : Followed s' := by
  have hall : ∀ w ∈ s.wakes, w < s.begun := by
    intro w hw
    rcases hs.wakes w hw with hlt | ⟨hwak, hc | ⟨hn, -⟩⟩
    · exact hlt
    · exact absurd ⟨hwak, Or.inl hc⟩ hwai
    · exact absurd ⟨hwak, Or.inr hn⟩ hwai
  have hno : ¬s'.Chains := by
    intro hc
    have hc' : s.Chains := by
      unfold Chains at hc ⊢
      rwa [ha] at hc
    exact hwai ⟨(hs.chains hc').1, Or.inl hc'⟩
  refine ⟨?_, ?_, ?_, fun hset => ?_, fun hc => absurd hc hno, fun _ => hwak⟩
  · rw [hwakes, hb]
    exact fun w hw => Or.inl (hall w hw)
  · rw [hwakes, hb]
    exact hs.bound
  · rw [hwakes, hb]
    exact fun _ => hall
  · rw [hwak] at hset
    exact absurd hset (by nofun)

theorem stop (hs : Followed s) (hw : ¬s.Waits) : Followed s.stop :=
  hs.unflag hw rfl rfl rfl rfl

theorem dispose (hs : Followed s) (hw : ¬s.Waits) : Followed s.dispose := by
  unfold JobRunner.dispose
  split_ifs
  · exact hs
  · exact hs.unflag hw rfl rfl rfl rfl

theorem wake (hs : Followed s) (hf : Flown options s)
    (hr : s.inFlight ≠ none → .woke ∉ s.ready) : Followed (s.wake options) := by
  unfold JobRunner.wake
  split_ifs with hd
  · exact hs
  have hb : ∀ w ∈ s.wakes ++ [s.begun], w ≤ s.begun := by
    intro w hw
    rcases List.mem_append.1 hw with hw | hw
    · exact hs.bound w hw
    · exact Nat.le_of_eq (List.mem_singleton.1 hw)
  dsimp only
  split
  case h_1 hn =>
    obtain ⟨hsil, ⟨hbeg, -⟩ | ⟨-, -, -, hor⟩⟩ :=
      tick_cases options { s with wakes := s.wakes ++ [s.begun] } none
    · exact begun hsil hbeg hb hs.flag hs.chains hs.silenced
    · exact absurd hor (by simp [hd, hn])
  case h_2 id hid =>
    have hno : .woke ∉ s.ready := hr (by simp [hid])
    have hc : s.openings = [] := by
      cases hf.flight with
      | idle _ hope => exact hope
      | opening _ _ hfli => exact absurd (hid.symm.trans hfli) (by nofun)
      | running _ _ hope => exact hope
      | ended _ _ hope => exact hope
    split_ifs with hwak
    · have hcha : s.Chains := (hs.flag hwak).resolve_right hno
      exact ⟨fun _ _ => Or.inr ⟨hwak, Or.inl hcha⟩, hb,
        fun ho => absurd hc ho, hs.flag, hs.chains, hs.silenced⟩
    · set woken : JobRunner :=
        { s with
          wakes := s.wakes ++ [s.begun]
          waking := true
          attached := s.attached ++ [(id, .woke)] }
      have hcha : woken.Chains := ⟨(id, .woke), by simp [woken], rfl⟩
      exact ⟨fun _ _ => Or.inr ⟨rfl, Or.inl hcha⟩, hb, fun ho => absurd hc ho,
        fun _ => Or.inl hcha, fun _ => ⟨rfl, hno⟩, fun h => absurd h hd⟩

theorem returned (hs : Followed s) {opening : JobOpening} {rest : List JobOpening}
    (hope : s.openings = opening :: rest) :
    Followed ({ s with openings := rest }.keep opening) := by
  obtain ⟨h₁, h₂, h₃, h₄, h₅⟩ := silent_keep { s with openings := rest } opening
  have ho : s.openings ≠ [] := by simp [hope]
  refine hs.silent ⟨h₁, h₂, h₃, h₄, h₅⟩ ?_ (fun _ => Or.inr ho) fun _ => ho
  unfold keep
  cases opening.chain <;> rfl

/-- What was chained behind a pass is ready once it is cleared. -/
theorem settlePass (hs : Followed s) (hflo : Flown options s) {id : ℕ} (hid : id ∈ s.ended) :
    Followed (s.settlePass id) := by
  cases hflo.flight with
  | idle _ _ _ he => exact absurd (he ▸ hid) List.not_mem_nil
  | opening _ _ _ _ _ _ he => exact absurd (he ▸ hid) List.not_mem_nil
  | running _ _ _ _ he => exact absurd (he ▸ hid) List.not_mem_nil
  | ended id' hf hope _ he hatt =>
    obtain rfl : id = id' := List.mem_singleton.1 (he ▸ hid)
    have hr : s.Chains → .woke ∈ (s.settlePass id).ready := by
      rintro ⟨a, ha, hwoke⟩
      refine List.mem_append_right _ (List.mem_map.2 ⟨a, ?_, hwoke⟩)
      exact List.mem_filter.2 ⟨ha, by simp [hatt a ha]⟩
    have hn : (s.settlePass id).inFlight = none := by
      show (if s.inFlight = some id then none else s.inFlight) = none
      rw [hf, if_pos rfl]
    refine ⟨fun w hw => ?_, hs.bound, fun ho => absurd hope ho, fun hwak => ?_, ?_, hs.silenced⟩
    · rcases hs.wakes w hw with hlt | ⟨hwak, hc | ⟨hi, -⟩⟩
      · exact Or.inl hlt
      · exact Or.inr ⟨hwak, Or.inr ⟨hn, hr hc⟩⟩
      · exact absurd (hi.symm.trans hf) (by nofun)
    · rcases hs.flag hwak with hc | hwoke
      · exact Or.inr (hr hc)
      · exact Or.inr (List.mem_append_left _ hwoke)
    · rintro ⟨a, ha, -⟩
      obtain ⟨hm, hne⟩ := List.mem_filter.1 ha
      exact absurd (hatt a hm) (by simpa using hne)

/-- A callback is called: that of a wake begins the pass that follows, or the wake was followed. -/
theorem callback (hs : Followed s) {place : ℕ} {callback : JobCallback}
    (hp : s.ready[place]? = some callback) :
    Followed ({ s with ready := s.ready.eraseIdx place }.callback options callback) := by
  cases callback with
  | ran chain =>
    have hsil : Silent s { s with ready := s.ready.eraseIdx place } := by
      refine ⟨rfl, rfl, rfl, Iff.rfl, fun h => List.mem_of_mem_eraseIdx h, fun h => ?_⟩
      obtain ⟨i, hi, hg⟩ := List.mem_iff_getElem.1 h
      refine List.mem_eraseIdx_iff_getElem?.2 ⟨i, ?_, List.getElem?_eq_some_iff.2 ⟨hi, hg⟩⟩
      rintro rfl
      rw [List.getElem?_eq_some_iff.2 ⟨hi, hg⟩] at hp
      exact absurd hp (by nofun)
    have ht : Followed { s with ready := s.ready.eraseIdx place } :=
      hs.silent hsil rfl Or.inl id
    unfold JobRunner.callback
    dsimp only
    split_ifs
    · exact ht
    · exact ht.silent ⟨rfl, rfl, rfl, Iff.rfl, Iff.rfl⟩ rfl Or.inl id
  | woke =>
    have hr : .woke ∈ s.ready := List.mem_of_getElem? hp
    have hno : ¬s.Chains := fun hc => (hs.chains hc).2 hr
    unfold JobRunner.callback
    dsimp only
    split_ifs with hw
    · set woken : JobRunner := { s with ready := s.ready.eraseIdx place, waking := false }
      have hf : woken.waking = true → woken.Chains ∨ .woke ∈ woken.ready := by nofun
      have hc : woken.Chains → woken.waking = true ∧ .woke ∉ woken.ready :=
        fun hc => absurd hc hno
      obtain ⟨hsil, ⟨hb, -⟩ | ⟨hb, hfli, ho, hor⟩⟩ := tick_cases options woken none
      · exact begun hsil hb hs.bound hf hc fun _ => rfl
      · -- a pass is in flight that began behind the one this follow-up was chained to
        have hsome : s.inFlight ≠ none := by
          rcases hor with hd | hsome
          · exact absurd (hs.silenced hd) (by simp [hw])
          · exact hsome
        have hwai : ¬s.Waits := by
          rintro ⟨-, hc | hn⟩
          · exact hno hc
          · exact hsome hn
        have hwok : Followed woken := hs.unflag hwai rfl rfl rfl rfl
        exact hwok.silent hsil hb (fun hn => Or.inl (hfli.trans hn)) fun h => ho ▸ h
    · have hwai : ¬s.Waits := fun hwai => hw hwai.1
      exact hs.unflag hwai rfl rfl rfl (Bool.eq_false_iff.2 hw)

end Followed

/-! ### Runs -/

variable {event : JobRunnerEvent}

/-- What happens while no call is open keeps the wakes followed. -/
theorem Followed.turn (hs : Followed s) (hflo : Flown options s)
    (h : s.turn options event = some s') : Followed s' := by
  unfold JobRunner.turn at h
  split at h
  case h_1 id event =>
    split at h
    case h_1 pass hf =>
      obtain ⟨pass', -, rfl⟩ := Option.map_eq_some_iff.1 h
      exact hs.silent ⟨rfl, rfl, rfl, Iff.rfl, Iff.rfl⟩ rfl Or.inl fun ho => ho
    case h_2 => exact absurd h (by nofun)
  case h_2 id =>
    split at h
    case h_1 pass hf =>
      split_ifs at h
      rw [← Option.some.inj h]
      exact hs.silent ⟨rfl, rfl, rfl, Iff.rfl, Iff.rfl⟩ rfl Or.inl fun ho => ho
    case h_2 => exact absurd h (by nofun)
  case h_3 id =>
    split_ifs at h with hid
    exact Option.some.inj h ▸ hs.settlePass hflo hid
  case h_4 place =>
    split at h
    case h_1 callback hp => exact Option.some.inj h ▸ hs.callback hp
    case h_2 => exact absurd h (by nofun)
  case h_5 place =>
    split at h
    case h_1 timer hp =>
      rw [← Option.some.inj h]
      have ht : Followed { s with timers := s.timers.eraseIdx place, timer := none } :=
        hs.silent ⟨rfl, rfl, rfl, Iff.rfl, Iff.rfl⟩ rfl Or.inl fun ho => ho
      exact ht.tick options (some timer.chain)
    case h_2 => exact absurd h (by nofun)
  case h_6 => exact absurd h (by nofun)

/-- **Every event that heeds the wakes keeps them followed.** -/
theorem Followed.step (hs : Followed s) (hste : Steady options s)
    (hh : s.Heeds event) (h : runnerStep options s event = some s') : Followed s' := by
  have ht : ∀ event, (if s.openings.isEmpty then s.turn options event else none) = some s' →
      Followed s' := by
    intro event h
    split_ifs at h
    exact hs.turn hste.flown h
  cases event with
  | start =>
    rw [← Option.some.inj h]
    unfold JobRunner.start
    split_ifs
    · exact hs
    · have hb : Followed { s with started := true } :=
        hs.silent ⟨rfl, rfl, rfl, Iff.rfl, Iff.rfl⟩ rfl Or.inl fun ho => ho
      exact hb.tick options (some s.generation)
  | tick => exact Option.some.inj h ▸ hs.tick options none
  | wake => exact Option.some.inj h ▸ hs.wake hste.flown hh.2
  | stop => exact Option.some.inj h ▸ hs.stop hh.2
  | quiesce => exact Option.some.inj h ▸ hs.stop hh.2
  | dispose => exact Option.some.inj h ▸ hs.dispose hh.2
  | returned =>
    simp only [runnerStep] at h
    split at h
    case h_1 opening rest hope => exact Option.some.inj h ▸ hs.returned hope
    case h_2 => cases h
  | pass id event => exact ht _ h
  | ended id => exact ht _ h
  | settled id => exact ht _ h
  | callback place => exact ht _ h
  | due place => exact ht _ h

/-- Nothing is in flight, and no callback is to be called. -/
def AtRest (s : JobRunner) : Prop :=
  s.inFlight = none ∧ s.openings = [] ∧ s.ready = []

end JobRunner

/-- No wake is lost: behind every wake a pass began, or its follow-up is due, which begins a pass when its
callback is called with nothing in flight; so a pass began behind each once the runner is at rest. -/
structure WakesFollowed (options : JobRunnerOptions) (s : JobRunner) : Prop where
  due : ∀ w ∈ s.wakes, w < s.begun ∨ s.FollowUp
  begins : ∀ (place : ℕ) (s' : JobRunner), s.inFlight = none → s.ready[place]? = some .woke →
    runnerStep options s (.callback place) = some s' → ∀ w ∈ s'.wakes, w < s'.begun
  rest : s.AtRest → ∀ w ∈ s.wakes, w < s.begun

theorem JobRunner.Followed.wakesFollowed {s : JobRunner} (hs : JobRunner.Followed s)
    (hste : JobRunner.Steady options s) : WakesFollowed options s := by
  refine ⟨hs.wakes, fun place s' hn hp hstep => ?_, fun hrest w hw => ?_⟩
  · have ho : s.openings = [] := by
      by_contra ho
      simp only [runnerStep, List.isEmpty_iff, ho, if_false] at hstep
      cases hstep
    have hr : .woke ∈ s.ready := List.mem_of_getElem? hp
    have hno : ¬s.Chains := fun hc => (hs.chains hc).2 hr
    have ht : s.turn options (.callback place) = some s' := by
      rw [← hstep]
      exact (if_pos (List.isEmpty_iff.2 ho)).symm
    simp only [JobRunner.turn, hp] at ht
    rw [← Option.some.inj ht]
    unfold JobRunner.callback
    dsimp only
    split_ifs with hwak
    · set woken : JobRunner := { s with ready := s.ready.eraseIdx place, waking := false }
      obtain ⟨hsil, ⟨hb, -⟩ | ⟨-, -, -, hor⟩⟩ := JobRunner.tick_cases options woken none
      · rw [hsil.wakes, hb]
        exact fun w hw => Nat.lt_succ_of_le (hs.bound w hw)
      · rcases hor with hd | hsome
        · exact absurd (hs.silenced hd) (by simp [hwak])
        · exact absurd hn hsome
    · intro w hw
      rcases hs.wakes w hw with hlt | ⟨hset, -⟩
      · exact hlt
      · exact absurd hset hwak
  · obtain ⟨hn, -, hr⟩ := hrest
    rcases hs.wakes w hw with hlt | ⟨-, ⟨a, ha, -⟩ | ⟨-, hm⟩⟩
    · exact hlt
    · cases hste.flown.flight with
      | idle _ _ _ _ hatt => exact absurd (hatt ▸ ha) List.not_mem_nil
      | opening _ _ _ _ _ _ _ hatt => exact absurd (hatt ▸ ha) List.not_mem_nil
      | running _ hsome => cases hn.symm.trans hsome
      | ended _ hsome => cases hn.symm.trans hsome
    · rw [hr] at hm
      exact absurd hm List.not_mem_nil

/-- **No wake is lost** in a run whose events heed the wakes: whose stops, and whose dispose, come
where no wake waits for its follow-up, whose wakes come where no follow-up of a pass that ended is
to be called while the next is in flight, and in which no two passes overlap. -/
theorem wakes_followed (options : JobRunnerOptions) (script : List JobRunnerEvent)
    (h : Events.Meets (runnerStep options) JobRunner.Heeds {} script) :
    Events.Everywhere (runnerStep options) (WakesFollowed options) {} script := by
  have hstep : ∀ (s : JobRunner) (e : JobRunnerEvent) (s' : JobRunner), JobRunner.Followed s ∧ JobRunner.Steady options s → s.Heeds e →
      runnerStep options s e = some s' → JobRunner.Followed s' ∧ JobRunner.Steady options s' :=
    fun _ _ _ hs hh h => ⟨hs.1.step hs.2 hh h, hs.2.step hh.1 h⟩
  have hi : JobRunner.Followed {} ∧ JobRunner.Steady options {} := ⟨.init, .init options⟩
  exact (Events.everywhere_of_meets hstep hi h).mono fun _ hs => hs.1.wakesFollowed hs.2

/-- A pass that finds nothing, from its first claim to the end. -/
def emptyPass (id : ℕ) : List JobRunnerEvent :=
  [.returned, .pass id (.claim .empty), .pass id (.resume 0), .ended id, .settled id]

/-- Two wakes in one pass, and a stop behind their follow-up. -/
theorem wakes_followed_follow_up : Events.Everywhere (runnerStep {}) (WakesFollowed {}) {}
      ([.tick, .returned, .wake, .wake, .pass 0 (.claim .empty), .pass 0 (.resume 0), .ended 0,
        .settled 0, .callback 0, .stop] ++ emptyPass 1) := by
  refine wakes_followed {} _ ?_
  decide +kernel

/-- A stop drops a wake that waits for its follow-up: at rest, no pass began behind it. -/
theorem wake_dropped_by_stop :
    ¬∀ (options : JobRunnerOptions) (script : List JobRunnerEvent) (s : JobRunner),
      Events.play (runnerStep options) {} script = some s → s.disposed = false → s.AtRest →
        ∀ w ∈ s.wakes, w < s.begun := by
  intro ha
  have hp : (Events.play (runnerStep {}) {}
      ([.tick, .returned, .wake, .stop] ++ (emptyPass 0).tail ++ [.callback 0])).map (fun s =>
        decide (s.disposed = false ∧ s.inFlight = none ∧ s.openings = [] ∧ s.ready = [] ∧
          s.wakes = [1] ∧ s.begun = 1)) = some true := by
    decide +kernel
  obtain ⟨s, hs, hl⟩ := Option.map_eq_some_iff.1 hp
  obtain ⟨hd, hn, ho, hr, hw, hb⟩ := of_decide_eq_true hl
  have hlt := ha {} _ s hs hd ⟨hn, ho, hr⟩ 1 (by simp [hw])
  omega

/-- So does the flag of a pass that ended: a wake in the next pass finds it set, and its callback
finds that pass in flight. -/
example : (Events.play (runnerStep {}) {}
    ([.tick, .returned, .wake] ++ (emptyPass 0).tail ++ [.tick, .returned, .wake, .callback 0] ++
      (emptyPass 1).tail)).map (fun s =>
        decide (s.inFlight = none ∧ s.openings = [] ∧ s.ready = [] ∧ s.wakes = [1, 2] ∧
          s.begun = 2)) = some true := by
  decide +kernel

end Flowdular.Server
