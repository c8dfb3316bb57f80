/-
# The history of a limit

`src/modules/metering/src/services/database-repository.ts`, lines 457-511 (`setLimit`), over the model of
`Flowdular.Metering.Usage`.

`setLimit` reads the limit with a plain `SELECT` and writes it with an upsert, which holds the row, or the
place for one, to the commit.  So the events of a meter are committed in the order of the limits, and the
stored limit is that of the last (`stored_setLimit`); but an event carries what was read before the row
was held, and is linked to the one before it exactly where the limit did not move in between
(`linked_setLimit_iff`).
-/

import Flowdular.Metering.Accounting
import Mathlib.Data.List.Chain

namespace Flowdular.Metering

open Lib
open Prog (recorder_next)

/-- The events of a meter, in the order they were committed. -/
def MeteringTables.eventsOf (s : MeteringTables) (meter : MeterKey) : List LimitEvent :=
  s.limitEvents.filter fun event => event.meter = meter

/-- The previous limit of each event is the limit of the one before it. -/
def Linked (events : List LimitEvent) : Prop :=
  events.IsChain fun before event => event.previousLimit = some before.monthlyLimit

/-- The limit of the last event. -/
def lastLimit (events : List LimitEvent) : Option ℕ :=
  events.getLast?.map (·.monthlyLimit)

/-- An event linked to the last one extends the chain, and no other does. -/
theorem linked_append_iff {events : List LimitEvent} {event : LimitEvent} (h : Linked events) :
    Linked (events ++ [event]) ↔ events = [] ∨ event.previousLimit = lastLimit events := by
  rw [Linked] at h ⊢
  rw [List.isChain_append, and_iff_right h, and_iff_right (List.isChain_singleton event), lastLimit,
    List.head?_cons]
  constructor
  · intro hlink
    cases hl : events.getLast? with
    | none => exact .inl (List.getLast?_eq_none_iff.1 hl)
    | some last => exact .inr (hlink last hl event rfl)
  · rintro (rfl | hp) last hl event' he
    · cases hl
    · rw [← Option.mem_some_iff.1 he, hp, Option.mem_def.1 hl]
      rfl

section Statements

variable {s : MeteringTables} {row : LimitRow} {previousLimit : Option ℕ} {meter : MeterKey}

/-- The stored limit is that of the last event. -/
def Stored (s : MeteringTables) (meter : MeterKey) : Prop :=
  s.findLimit meter = lastLimit (s.eventsOf meter)

theorem eventsOf_setLimit_self : (s.setLimit row previousLimit).eventsOf row.meter =
    s.eventsOf row.meter ++ [⟨row.meter, row.monthlyLimit, previousLimit, row.setBy, row.updatedAt⟩] := by
  rw [MeteringTables.eventsOf, MeteringTables.setLimit, List.filter_append]
  simp [MeteringTables.eventsOf]

theorem eventsOf_setLimit_of_ne (h : meter ≠ row.meter) :
    (s.setLimit row previousLimit).eventsOf meter = s.eventsOf meter := by
  rw [MeteringTables.eventsOf, MeteringTables.setLimit, List.filter_append]
  simp [MeteringTables.eventsOf, h.symm]

/-- **A limit that is set is stored with its event.** -/
theorem stored_setLimit (h : Stored s meter) : Stored (s.setLimit row previousLimit) meter := by
  rw [Stored, MeteringTables.findLimit]
  by_cases hm : meter = row.meter
  · subst hm
    rw [eventsOf_setLimit_self, lastLimit, List.getLast?_concat]
    show Option.map _ ((Table.upsert (·.meter) row s.limits).find? _) = _
    rw [Table.find?_upsert_self]
    rfl
  · rw [eventsOf_setLimit_of_ne hm]
    show Option.map _ ((Table.upsert (·.meter) row s.limits).find? _) = _
    rw [Table.find?_upsert_of_ne hm]
    exact h

/-- **An event is linked to the one before it exactly where it carries the stored limit.** -/
theorem linked_setLimit_iff (hs : Stored s row.meter) (h : Linked (s.eventsOf row.meter)) :
    Linked ((s.setLimit row previousLimit).eventsOf row.meter) ↔
      s.eventsOf row.meter = [] ∨ previousLimit = s.findLimit row.meter := by
  rw [eventsOf_setLimit_self, linked_append_iff h, hs]

/-- What a call does to the limits and their events: nothing, or one limit is set. -/
theorem limits_serve (c : MeteringCall) (s : MeteringTables) (choice : MeteringChoice) :
    ((c.serve s choice).2.limits = s.limits ∧ (c.serve s choice).2.limitEvents = s.limitEvents) ∨
      ∃ row previousLimit, c = .setLimit row previousLimit ∧
        (c.serve s choice).2 = s.setLimit row previousLimit := by
  have hc : ∀ (meter : MeterKey) (month : UtcMonth) (thresholds : List MeterThreshold)
      (s : MeteringTables), (claimThresholds meter month thresholds s).2.limits = s.limits ∧
        (claimThresholds meter month thresholds s).2.limitEvents = s.limitEvents := by
    intro meter month thresholds
    induction thresholds with
    | nil => exact fun s => ⟨rfl, rfl⟩
    | cons threshold thresholds ih =>
      intro s
      rw [claimThresholds]
      split_ifs
      · exact ih s
      · exact ih { s with notices := s.notices ++ [⟨meter, month, threshold⟩] }
  have hp : ((c.perform choice s).2.limits = s.limits ∧
      (c.perform choice s).2.limitEvents = s.limitEvents) ∨
      ∃ row previousLimit, c = .setLimit row previousLimit ∧
        (c.perform choice s).2 = s.setLimit row previousLimit := by
    cases c with
    | claimThresholds meter month thresholds => exact .inl (hc meter month thresholds s)
    | setLimit row previousLimit => exact .inr ⟨row, previousLimit, rfl, rfl⟩
    | commit recorded => cases recorded <;> exact .inl ⟨rfl, rfl⟩
    | _ => exact .inl ⟨rfl, rfl⟩
  rw [MeteringCall.serve]
  rcases choice.fails with _ | ⟨_ | _, error⟩
  · exact hp
  · exact .inl ⟨rfl, rfl⟩
  · exact hp

end Statements

section Runs

variable [MeteringHost]

/-- Where a limit is set next, it did not move since it was read. -/
def limitUnmoved (s : MeteringTables) (p : MeteringProcess) : Bool :=
  match p.2.rest with
  | .call (.setLimit row previousLimit) _ => previousLimit = s.findLimit row.meter
  | _ => true

/-- `limitUnmoved`, as a condition of the machine. -/
def LimitUnmoved : Machine.Condition MeteringTables MeteringProcess :=
  fun s _ p => limitUnmoved s p = true

/-- The history of each meter: the stored limit is that of its last event, and, where that is asked for,
its events form a chain. -/
structure LimitHistory (chained : Prop) (s : MeteringTables) : Prop where
  stored : ∀ meter, Stored s meter
  linked : chained → ∀ meter, Linked (s.eventsOf meter)

/-- **A move keeps the history.** -/
theorem LimitHistory.move {chained : Prop} {s s' : MeteringTables} {others : List MeteringProcess}
    {p p' : MeteringProcess} {choice : MeteringChoice} (h : LimitHistory chained s)
    (hc : chained → LimitUnmoved s others p)
    (hn : meteringOperations.next s p choice = some (s', p')) : LimitHistory chained s' := by
  obtain ⟨c, next, hr, rfl, -⟩ := recorder_next (Machine.signed_next hn).1
  rcases limits_serve c s choice with ⟨hl, he⟩ | ⟨row, previousLimit, rfl, hset⟩
  · have hs : ∀ meter, (c.serve s choice).2.eventsOf meter = s.eventsOf meter := by
      intro meter
      rw [MeteringTables.eventsOf, he, MeteringTables.eventsOf]
    refine ⟨fun meter => ?_, fun hcha meter => ?_⟩
    · rw [Stored, MeteringTables.findLimit, hl, hs]
      exact h.stored meter
    · rw [hs]
      exact h.linked hcha meter
  · rw [hset]
    refine ⟨fun meter => stored_setLimit (h.stored meter), fun hcha meter => ?_⟩
    by_cases hm : meter = row.meter
    · subst hm
      have hu := hc hcha
      rw [LimitUnmoved, limitUnmoved, hr] at hu
      exact (linked_setLimit_iff (h.stored _) (h.linked hcha _)).2 (.inr (of_decide_eq_true hu))
    · rw [eventsOf_setLimit_of_ne hm]
      exact h.linked hcha meter

/-- The history is kept by the operations. -/
def limitOutline (chained : Prop) {cond : Machine.Condition MeteringTables MeteringProcess}
    (hcond : chained → ∀ s others p, cond s others p → LimitUnmoved s others p) :
    Outline meteringOperations cond where
  inv := LimitHistory chained
  knows _ _ := True
  apart _ _ := True
  apart_symm _ := trivial
  start _ _ := ⟨trivial, fun _ _ => trivial⟩
  stop h _ := h
  stop_other _ _ _ _ := trivial
  move h _ _ hmove hnext :=
    ⟨h.move (fun hchained => hcond hchained _ _ _ hmove) hnext, trivial⟩
  move_other _ _ _ _ _ _ := ⟨trivial, trivial⟩

omit [MeteringHost] in
theorem limitHistory_nil (chained : Prop) : LimitHistory chained {} := by
  refine ⟨fun meter => rfl, fun _ meter => ?_⟩
  exact List.isChain_nil

/-- **The history of a limit.**  In every run the stored limit of a meter is that of its last event; where
no limit moves between its read and its write, the events of each meter form a chain; and an event behind
others is linked exactly where it carries the stored limit. -/
theorem limit_history_exact :
    (∀ crew, Crew.Reachable meteringOperations (fun _ _ _ => True) {} crew →
      ∀ meter, Stored crew.shared meter) ∧
    (∀ crew, Crew.Reachable meteringOperations LimitUnmoved {} crew →
      ∀ meter, Linked (crew.shared.eventsOf meter)) ∧
    ∀ s row previousLimit, Stored s row.meter → Linked (s.eventsOf row.meter) →
      s.eventsOf row.meter ≠ [] → (Linked ((s.setLimit row previousLimit).eventsOf row.meter) ↔
          previousLimit = s.findLimit row.meter) := by
  refine ⟨fun crew hc => ?_, fun crew hc => ?_, fun s row previousLimit hs h hne => ?_⟩
  · exact ((limitOutline False fun hf => hf.elim).reachable (limitHistory_nil False) hc).inv.stored
  · have hh := ((limitOutline True fun _ _ _ _ hu => hu).reachable (limitHistory_nil True) hc).inv
    exact hh.linked trivial
  · rw [linked_setLimit_iff hs h, or_iff_right hne]

end Runs

/-! ### Two changes of one limit -/

instance : ∀ s others p, Decidable (LimitUnmoved s others p) :=
  fun s _ p => inferInstanceAs (Decidable (limitUnmoved s p = true))

instance : ∀ s others p, Decidable (Unblocked s others p) :=
  fun _ others p => inferInstanceAs (Decidable (unblocked others p = true))

/-- A change of the sample meter. -/
def sampleChange (limit : ℕ) : MeteringOperation :=
  .setLimit "t" "ai.tokens" (.ofNat limit) "ops" 0

/-- Each event of a crew: its limit, and the previous one. -/
def limitLinks (crew : Crew MeteringTables MeteringProcess) : List (ℕ × Option ℕ) :=
  (crew.shared.eventsOf sampleNotice.meter).map fun event => (event.monthlyLimit, event.previousLimit)

/-- Two changes, one behind the other. -/
theorem limit_history_in_turn :
    ∃ crew, Crew.Reachable (@meteringOperations sampleHost) LimitUnmoved {} crew ∧
      limitLinks crew = [(200, none), (300, some 200)] ∧
      Linked (crew.shared.eventsOf sampleNotice.meter) := by
  have hp : (Crew.play (@meteringOperations sampleHost) LimitUnmoved ⟨{}, []⟩
      [.start (sampleChange 200), .move 0 {}, .move 0 {}, .start (sampleChange 300), .move 0 {},
        .move 0 {}]).map limitLinks = some [(200, none), (300, some 200)] := by
    decide +kernel
  obtain ⟨crew, hc, hl⟩ := Option.map_eq_some_iff.1 hp
  have hr := Crew.reachable_of_play hc
  exact ⟨crew, hr, hl, (@limit_history_exact sampleHost).2.1 crew hr _⟩

/-- **Two changes that read before either writes:** the events are no chain. -/
theorem limit_history_broken :
    ∃ crew, Crew.Reachable (@meteringOperations sampleHost) Unblocked {} crew ∧
      ¬Linked (crew.shared.eventsOf sampleNotice.meter) := by
  have hp : (Crew.play (@meteringOperations sampleHost) Unblocked ⟨{}, []⟩
      [.start (sampleChange 200), .start (sampleChange 300), .move 0 {}, .move 1 {}, .move 0 {},
        .move 1 {}]).map limitLinks = some [(300, none), (200, none)] := by
    decide +kernel
  obtain ⟨crew, hc, hlin⟩ := Option.map_eq_some_iff.1 hp
  refine ⟨crew, Crew.reachable_of_play hc, fun hl => ?_⟩
  rw [limitLinks] at hlin
  obtain ⟨first, rest, he, hf, hr⟩ := List.map_eq_cons_iff.1 hlin
  obtain ⟨second, rest, rfl, hs, -⟩ := List.map_eq_cons_iff.1 hr
  rw [he, Linked, List.isChain_cons_cons] at hl
  have hpre : second.previousLimit = none := congrArg Prod.snd hs
  rw [hl.1] at hpre
  cases hpre

end Flowdular.Metering
