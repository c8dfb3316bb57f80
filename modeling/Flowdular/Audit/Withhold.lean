/-
# A legal hold withholds

`src/modules/audit/src/services/hold-service.ts`, `sweep-service.ts` and
`erasure-service.ts` as in `Services`; the page of active holds and the limit that
`place` checks before it inserts are `hold-service.ts`, lines 93-117, and
`database-repository.ts`, lines 371-386.

Calls of `place` and `lift`, sweeps and erasures of one workspace take turns call by
call.  A sweep and an erasure check the holds once, before the first call of an owner.  A
program is exposed while it may call an owner without another check (`Exposed`), and
that is what a hold that arrives late does not see.
-/

import Flowdular.Audit.Services
import Flowdular.Lib.Crew
import Flowdular.Lib.Discipline

namespace Flowdular.Audit

open Lib Workflows
open Discipline (All all_bind)

/-! ### Owner calls -/

/-- What the call of an owner removes from. -/
inductive Target
  | dataClass (classId : String)
  | subject (accountId : String)
deriving DecidableEq

/-- The target of a call, if it is one of an owner that removes. -/
def Call.target : Call → Option Target
  | .sweepClass classId _ _ => some (.dataClass classId)
  | .eraseClass _ accountId _ => some (.subject accountId)
  | _ => none

/-- A hold covers a target. -/
def AuditLegalHold.covers (hold : AuditLegalHold) : Target → Bool
  | .dataClass classId => holdCoversClass hold classId
  | .subject accountId => holdCoversSubject hold accountId

/-! ### Custody -/

/-- The tables of a workspace, the holds whose `place` answered, and every call of an
owner so far, with the holds in force at the time. -/
structure Custody where
  tables : Tables
  placed : List String
  removals : List (Target × List AuditLegalHold)

/-- The holds whose `place` answered and which are not lifted. -/
def Custody.inForce (s : Custody) : List AuditLegalHold :=
  s.tables.holds.filter fun hold => hold.active && decide (hold.id ∈ s.placed)

/-- No call of an owner was made under a hold that covers its target. -/
def Custody.Withheld (s : Custody) : Prop :=
  ∀ removal ∈ s.removals, ∀ hold ∈ removal.2, hold.covers removal.1 = false

instance (s : Custody) : Decidable s.Withheld :=
  inferInstanceAs (Decidable (∀ removal ∈ s.removals, ∀ hold ∈ removal.2, hold.covers removal.1 = false))

/-! ### Exposure -/

/-- A call that reads the active holds. -/
def Call.readsHolds : Call → Bool
  | .repository (.listActiveHolds _) => true
  | _ => false

/-- A call that inserts a hold. -/
def Call.insertsHold : Call → Bool
  | .repository (.insertHold _) => true
  | _ => false

/-- A program may call an owner on a target before it reads the active holds again. -/
def Exposed {α : Type} (t : Target) : Service α → Prop
  | .pure _ => False
  | .fail _ => False
  | .call c next => c.target = some t ∨ c.readsHolds = false ∧ ∃ r, Exposed t (next r)

/-- The condition on a move: a hold is inserted only where the page of active holds has
room for it and no other program is exposed to it. -/
def Undisturbed : Machine.Condition Custody (Service PUnit) := fun s others p =>
  ∀ hold next, p = .call (.repository (.insertHold hold)) next →
    (s.tables.holds.filter (·.active)).length < HOLD_LIMITS.active ∧
      ∀ q ∈ others, ∀ t, Exposed t q → hold.covers t = false

/-- Every exposure comes of a reading of the active holds that shows none which covers the
target, and no program that inserts a hold is exposed. -/
def Guarded {α : Type} : Service α → Prop
  | .pure _ => True
  | .fail _ => True
  | .call (.repository (.listActiveHolds limit)) next =>
    (∀ r, Guarded (next r)) ∧ (∀ e t, ¬ Exposed t (next (.error e))) ∧
      ∀ active t, Exposed t (next (.ok active)) →
        limit = HOLD_LIMITS.active ∧ ∀ hold ∈ active, hold.covers t = false
  | .call (.repository (.insertHold _)) next =>
    (∀ r, Guarded (next r)) ∧ ∀ r t, ¬ Exposed t (next r)
  | .call _ next => ∀ r, Guarded (next r)

section

variable {α β : Type} {t : Target}

variable {c : Call} {p : Service α} {target : Target} {f : c.Answer → Service α}

theorem guarded_call {next : Prog.Reply Call.Answer c → Service α}
    (hc : ∀ r, Guarded (next r)) (hq : ∀ r t, ¬ Exposed t (next r)) : Guarded (.call c next) := by
  cases c with
  | repository c =>
    cases c with
    | listActiveHolds limit =>
      exact ⟨hc, fun _ => hq _, fun active t h => absurd h (hq _ t)⟩
    | insertHold hold => exact ⟨hc, hq⟩
    | _ => exact hc
  | _ => exact hc

/-- A program without a call on a target is not exposed to it. -/
theorem not_exposed_of_all (h : All (fun c => c.target ≠ some t) p) : ¬ Exposed t p := by
  induction p with
  | pure a => exact id
  | fail e => exact id
  | call c next ih =>
    rintro (ht | ⟨-, r, hr⟩)
    · exact h.1 ht
    · exact ih r (h.2 r) hr

/-- A program without calls of owners is guarded. -/
theorem guarded_of_quiet (h : All (fun c => c.target = none) p) : Guarded p := by
  induction p with
  | pure a => trivial
  | fail e => trivial
  | call c next ih =>
    refine guarded_call (fun r => ih r (h.2 r)) fun r t => not_exposed_of_all ?_
    exact (h.2 r).mono fun c hc => by simp [hc]

theorem Guarded.next {next : Prog.Reply Call.Answer c → Service α} (h : Guarded (.call c next)) :
    ∀ r, Guarded (next r) := by
  cases c with
  | repository c =>
    cases c with
    | listActiveHolds limit => exact h.1
    | insertHold hold => exact h.1
    | _ => exact h
  | _ => exact h

theorem guarded_bind_pure {b : β} (h : Guarded p) :
    Guarded (p >>= fun _ => pure b) ∧ ∀ t, Exposed t (p >>= fun _ => pure b) → Exposed t p := by
  induction p with
  | pure a => exact ⟨trivial, fun t => id⟩
  | fail e => exact ⟨trivial, fun t => id⟩
  | call c next ih =>
    have he : (∀ r, Guarded (next r)) → ∀ t,
        Exposed t (Prog.call c next >>= fun _ => pure b) → Exposed t (Prog.call c next) := by
      rintro hn t (h | ⟨hr, r, h⟩)
      · exact .inl h
      · exact .inr ⟨hr, r, (ih r (hn r)).2 t h⟩
    cases c with
    | repository c =>
      cases c with
      | listActiveHolds limit =>
        obtain ⟨hn, herr, hok⟩ := h
        refine ⟨⟨fun r => (ih r (hn r)).1, fun e t h => ?_, fun active t h => ?_⟩, he hn⟩
        · exact herr e t ((ih _ (hn _)).2 t h)
        · exact hok active t ((ih _ (hn _)).2 t h)
      | insertHold hold =>
        obtain ⟨hn, hq⟩ := h
        refine ⟨⟨fun r => (ih r (hn r)).1, fun r t h => ?_⟩, he hn⟩
        exact hq r t ((ih r (hn r)).2 t h)
      | _ => exact ⟨fun r => (ih r (h r)).1, he h⟩
    | _ => exact ⟨fun r => (ih r (h r)).1, he h⟩

/-- A call on one target at most, which neither reads the active holds nor inserts one. -/
structure Call.Works (target : Target) (c : Call) : Prop where
  target : ∀ t, c.target = some t → t = target
  reads : c.readsHolds = false
  inserts : c.insertsHold = false

theorem works_of_quiet (ht : c.target = none)
    (hr : c.readsHolds = false) (hi : c.insertsHold = false) : c.Works target :=
  ⟨fun t h => (by rw [ht] at h; cases h), hr, hi⟩

theorem guarded_of_works (h : All (·.Works target) p) : Guarded p := by
  induction p with
  | pure a => trivial
  | fail e => trivial
  | call c next ih =>
    have hn := fun r => ih r (h.2 r)
    obtain ⟨-, hr, hi⟩ := h.1
    cases c with
    | repository c =>
      cases c with
      | listActiveHolds limit => cases hr
      | insertHold hold => exact nomatch hi
      | _ => exact hn
    | _ => exact hn

theorem exposed_of_works (h : All (·.Works target) p) (ht : Exposed t p) : t = target := by
  by_contra hne
  refine not_exposed_of_all (h.mono fun c hc => ?_) ht
  exact fun hct => hne (hc.target t hct)

theorem guarded_bind_call (hc : c.readsHolds = false) (hi : c.insertsHold = false)
    (h : ∀ a, Guarded (f a)) : Guarded (call c >>= f) := by
  rw [call, Prog.need_bind]
  cases c with
  | repository c =>
    cases c with
    | listActiveHolds limit => cases hc
    | insertHold hold => exact nomatch hi
    | _ =>
      rintro (e | a)
      · trivial
      · exact h a
  | _ =>
    rintro (e | a)
    · trivial
    · exact h a

theorem exposed_bind_call (ht : c.target = none)
    (h : Exposed t (call c >>= f)) : ∃ a, Exposed t (f a) := by
  rw [call, Prog.need_bind] at h
  rcases h with h | ⟨-, e | a, h⟩
  · rw [ht] at h
    cases h
  · exact h.elim
  · exact ⟨a, h⟩

/-- **A check of the holds** guards what is behind it. -/
theorem guarded_check {f : List AuditLegalHold → Service α} (hf : ∀ active, Guarded (f active))
    (he : ∀ active t, Exposed t (f active) → ∀ hold ∈ active, hold.covers t = false) :
    Guarded (call (.repository (.listActiveHolds HOLD_LIMITS.active)) >>= f) := by
  refine ⟨fun r => ?_, fun e t => id, fun active t h => ⟨rfl, he active t h⟩⟩
  cases r with
  | ok active => exact hf active
  | error e => trivial

theorem not_exposed_check {f : List AuditLegalHold → Service α} {limit : ℕ} :
    ¬ Exposed t (call (.repository (.listActiveHolds limit)) >>= f) := by
  rintro (h | ⟨h, -⟩)
  · cases h
  · cases h

/-- Calls of the repository remove nothing of an owner. -/
theorem within_quiet (p : ServiceCall α) : All (fun c => c.target = none) p.within := by
  induction p with
  | pure a => trivial
  | fail e => trivial
  | call c next ih => exact ⟨rfl, ih⟩

theorem call_works (ht : c.target = none) (hr : c.readsHolds = false) (hi : c.insertsHold = false) :
    All (·.Works target) (call c) :=
  all_call (works_of_quiet ht hr hi)

variable {subject marker : String} {entries : List ErasableClass} {request : ErasureRequest}
  {draws : ErasureDraws}

theorem plan_works : All (·.Works target) (plan subject entries) :=
  all_plan (works_of_quiet rfl rfl rfl) fun _ => works_of_quiet rfl rfl rfl

theorem eraseAll_works : All (·.Works (.subject subject)) (eraseAll subject entries) :=
  all_eraseAll (works_of_quiet rfl rfl rfl) fun _ _ => ⟨fun _ h => (Option.some.inj h).symm, rfl, rfl⟩

theorem subjectKeyOf_works : All (·.Works target) (subjectKeyOf subject marker) := by
  unfold subjectKeyOf
  refine all_bind (call_works rfl rfl rfl) fun active => ?_
  cases active with
  | none => exact call_works rfl rfl rfl
  | some row => trivial

theorem destroyKey_works : All (·.Works target) (destroyKey request subject marker draws) := by
  unfold destroyKey
  refine all_bind (call_works rfl rfl rfl) fun destroyed => ?_
  cases destroyed with
  | none => exact call_works rfl rfl rfl
  | some row => exact all_bind (call_works rfl rfl rfl) fun _ => trivial

theorem keyAfter_works {keyBefore : Option SubjectKeyRow} :
    All (·.Works target) (keyAfter request subject marker draws keyBefore) := by
  unfold keyAfter
  split_ifs
  · exact destroyKey_works
  · trivial

/-- A page with room for all active holds shows them all. -/
theorem mem_listActiveHolds {tables : Tables} {row : AuditLegalHold}
    (hc : (tables.holds.filter (·.active)).length ≤ HOLD_LIMITS.active)
    (hr : row ∈ tables.holds) (ha : row.active = true) :
    row ∈ tables.listActiveHolds HOLD_LIMITS.active := by
  unfold Tables.listActiveHolds
  rw [List.take_of_length_le (by rwa [List.length_insertionSort]), List.mem_insertionSort]
  exact List.mem_filter.2 ⟨hr, ha⟩

end

/-! ### The machine -/

variable [AuditHost]

/-- A request to one of the services. -/
inductive Request
  | place (tenantId actorId : String) (input : PlaceHoldInput) (draws : HoldDraws)
  | lift (actorId : String) (input : LiftHoldInput) (draws : HoldDraws)
  | sweep (due : DueDataClass) (draws : SweepDraws)
  | erase (request : ErasureRequest) (draws : ErasureDraws)

/-- The program that answers a request. -/
def Request.program : Request → Service PUnit
  | .place tenantId actorId input draws => do
    let hold ← (Audit.place tenantId actorId input draws).within
    let _ ← call (.placed hold)
    return ⟨⟩
  | .lift actorId input draws => do
    let _ ← (Audit.lift actorId input draws).within
    return ⟨⟩
  | .sweep due draws => Audit.sweep due draws
  | .erase request draws => do
    let _ ← run request draws
    return ⟨⟩

/-- A call, answered. -/
def Call.serve (c : Call) (s : Custody) (choice : Choice) : Prog.Reply Call.Answer c × Custody :=
  let s := match c.target with
    | some target => { s with removals := s.removals ++ [(target, s.inForce)] }
    | none => s
  match c, choice.fails with
  | .repository c, none =>
    ((c.perform s.tables).1, { s with tables := (c.perform s.tables).2 })
  | .repository c, some (kept, error) =>
    (.error error, if kept then { s with tables := (c.perform s.tables).2 } else s)
  | .placed hold, _ => (.ok ⟨⟩, { s with placed := hold.id :: s.placed })
  | c, none => ((choice.answer c).elim (.error "no answer") .ok, s)
  | _, some (_, error) => (.error error, s)

/-- The services of one workspace. -/
def withholding : Machine Custody (Service PUnit) Request Choice :=
  Prog.machine Request.program Call.serve

/-! ### The programs of the services -/

section

variable {α β : Type} {due : DueDataClass} {classId : String}

variable {heldBack : Option ℕ} {days : ℕ} {draws : SweepDraws} {hold : HoldDecision}

omit [AuditHost] in
/-- Records and events are written without an owner. -/
theorem refuse_quiet {reason : String} {draws : EventDraws} :
    All (fun c => c.target = none) (refuse due classId reason heldBack draws) := by
  unfold refuse
  refine all_bind (all_call rfl) fun latest => ?_
  split
  · trivial
  · exact all_bind (all_call rfl) fun _ => all_bind (all_call rfl) fun _ => trivial

/-- The batches of a sweep call the owner of their class alone. -/
theorem sweepBatches_works : ∀ {left : ℕ} {removed : Option ℕ},
    All (·.Works (.dataClass classId)) (sweepBatches due classId days draws left removed) := by
  intro left
  induction left with
  | zero => exact fun {_} => trivial
  | succ left ih =>
    intro removed
    rw [sweepBatches]
    refine all_bind (all_call (works_of_quiet rfl rfl rfl)) fun _ => ⟨⟨?_, rfl, rfl⟩, ?_⟩
    · exact fun t h => (Option.some.inj h).symm
    · rintro (e | batchRemoved)
      · trivial
      · dsimp only
        split_ifs
        · trivial
        · trivial
        · exact ih

theorem sweepClass_works :
    All (·.Works (.dataClass classId)) (sweepClass due classId days draws) := by
  unfold sweepClass
  refine all_bind sweepBatches_works fun outcome => all_bind ?_ fun latest => all_bind ?_ fun _ => ?_
  · unfold standing
    split_ifs
    · exact all_call (works_of_quiet rfl rfl rfl)
    · trivial
  · unfold recordRun
    split_ifs
    · exact all_call (works_of_quiet rfl rfl rfl)
    · trivial
  · unfold stamp
    split_ifs
    · exact all_call (works_of_quiet rfl rfl rfl)
    · trivial

omit [AuditHost] in
/-- A decision that holds nothing back saw no hold that covers. -/
theorem decision_held {covers : AuditLegalHold → Bool} {active : List AuditLegalHold}
    (h : (decision (active.filter covers)).held = false) : ∀ hold ∈ active, covers hold = false := by
  intro hold hm
  by_contra hc
  have : hold ∈ active.filter covers := List.mem_filter.2 ⟨hm, by simpa using hc⟩
  simp only [decision, Bool.not_eq_false', List.isEmpty_iff] at h
  rw [h] at this
  cases this

omit [AuditHost] in
theorem countHeld_quiet {now : ℤ} :
    All (fun c => c.target = none) (countHeld heldBack classId days now) := by
  unfold countHeld
  split_ifs
  · trivial
  · exact all_bind (all_call rfl) fun _ => trivial

theorem sweepChecked_guarded : Guarded (sweepChecked due classId days draws hold) ∧
      ∀ t, Exposed t (sweepChecked due classId days draws hold) →
        hold.held = false ∧ t = .dataClass classId := by
  unfold sweepChecked
  cases hh : hold.held with
  | true =>
    rw [if_pos rfl]
    have hq : All (fun c => c.target = none) (do
        let heldBack ← countHeld hold.heldBack classId days due.now
        refuse due classId "HOLD_ACTIVE" heldBack (draws 0).2) :=
      all_bind countHeld_quiet fun _ => refuse_quiet
    refine ⟨guarded_of_quiet hq, fun t h => absurd h (not_exposed_of_all ?_)⟩
    exact hq.mono fun c hc => by simp [hc]
  | false =>
    rw [if_neg Bool.false_ne_true]
    exact ⟨guarded_of_works sweepClass_works, fun t h => ⟨rfl, exposed_of_works sweepClass_works h⟩⟩

theorem sweepRecord_guarded {record : Option AuditDataClass} :
    Guarded (sweepRecord due draws record) ∧ ∀ t, ¬ Exposed t (sweepRecord due draws record) := by
  unfold sweepRecord
  split
  · next classId lastSweptAt days =>
    split_ifs
    · exact ⟨trivial, fun t => id⟩
    · rw [forClass, Prog.bind_assoc]
      refine ⟨guarded_check (fun active => sweepChecked_guarded.1) ?_, fun t => not_exposed_check⟩
      intro active t h
      obtain ⟨hh, rfl⟩ := sweepChecked_guarded.2 t h
      exact decision_held hh
  · exact ⟨trivial, fun t => id⟩

/-- **A sweep is guarded**, and not exposed before its check. -/
theorem sweep_guarded : Guarded (sweep due draws) ∧ ∀ t, ¬ Exposed t (sweep due draws) := by
  unfold sweep
  split_ifs
  · refine ⟨guarded_of_quiet refuse_quiet, fun t => not_exposed_of_all ?_⟩
    exact refuse_quiet.mono fun c hc => by simp [hc]
  · refine ⟨guarded_bind_call rfl rfl fun record => sweepRecord_guarded.1, fun t h => ?_⟩
    obtain ⟨record, h⟩ := exposed_bind_call rfl h
    exact sweepRecord_guarded.2 t h

variable {subject : String} {request : ErasureRequest}

theorem applyErasure_works {draws : ErasureDraws} :
    All (·.Works (.subject subject)) (applyErasure request subject draws) := by
  unfold applyErasure
  refine all_bind subjectKeyOf_works fun keyBefore => all_bind (call_works rfl rfl rfl) fun _ => ?_
  refine all_bind eraseAll_works fun outcomes => all_bind (call_works rfl rfl rfl) fun _ => ?_
  refine all_bind keyAfter_works fun subjectKey => all_bind (call_works rfl rfl rfl) fun anchor => ?_
  refine all_bind (call_works rfl rfl rfl) fun path => ?_
  exact all_bind (call_works rfl rfl rfl) fun _ => trivial

theorem runUnheld_works {draws : ErasureDraws} :
    All (·.Works (.subject subject)) (runUnheld request subject draws) := by
  unfold runUnheld
  split_ifs
  · exact all_bind plan_works fun planned => all_bind subjectKeyOf_works fun key => trivial
  · refine all_bind ?_ fun _ => applyErasure_works
    cases request.directory <;> trivial

theorem runChecked_guarded {draws : ErasureDraws} :
    Guarded (runChecked request subject draws hold) ∧
      ∀ t, Exposed t (runChecked request subject draws hold) →
        hold.held = false ∧ t = .subject subject := by
  unfold runChecked
  cases hh : hold.held with
  | true => exact ⟨trivial, fun t h => h.elim⟩
  | false =>
    rw [if_neg Bool.false_ne_true]
    exact ⟨guarded_of_works runUnheld_works, fun t h => ⟨rfl, exposed_of_works runUnheld_works h⟩⟩

/-- **An erasure is guarded**, and not exposed before its check. -/
theorem run_guarded (request : ErasureRequest) (draws : ErasureDraws) :
    Guarded (run request draws) ∧ ∀ t, ¬ Exposed t (run request draws) := by
  unfold run
  cases bounded request.subject "subject" 1 64 with
  | error e => exact ⟨trivial, fun t => id⟩
  | ok subject =>
    show Guarded (forSubject subject >>= runChecked request subject draws) ∧
      ∀ t, ¬ Exposed t (forSubject subject >>= runChecked request subject draws)
    rw [forSubject, Prog.bind_assoc]
    refine ⟨guarded_check (fun active => runChecked_guarded.1) ?_, fun t => not_exposed_check⟩
    intro active t h
    obtain ⟨hh, rfl⟩ := runChecked_guarded.2 t h
    exact decision_held hh

/-- **What answers a request** is guarded, and not exposed when it starts. -/
theorem program_guarded (r : Request) : Guarded r.program ∧ ∀ t, ¬ Exposed t r.program := by
  have hq : ∀ p : Service PUnit, All (fun c => c.target = none) p →
      Guarded p ∧ ∀ t, ¬ Exposed t p := fun p h =>
    ⟨guarded_of_quiet h, fun t => not_exposed_of_all (h.mono fun c hc => by simp [hc])⟩
  cases r with
  | place tenantId actorId input draws =>
    rw [Request.program]
    generalize Audit.place tenantId actorId input draws = p
    refine hq _ (all_bind (within_quiet p) fun hold => ?_)
    exact all_bind (all_call rfl) fun _ => trivial
  | lift actorId input draws =>
    rw [Request.program]
    generalize Audit.lift actorId input draws = p
    exact hq _ (all_bind (within_quiet p) fun result => True.intro)
  | sweep due draws => exact sweep_guarded
  | erase request draws =>
    rw [Request.program]
    have hr := run_guarded request draws
    generalize run request draws = p at hr ⊢
    obtain ⟨hg, he⟩ := guarded_bind_pure (b := PUnit.unit) hr.1
    exact ⟨hg, fun t ht => hr.2 t (he t ht)⟩

/-! ### What a call does to the holds -/

variable (s : Custody) (c : Call) (choice : Choice)

theorem perform_holds (c : RepositoryCall) (tables : Tables) :
    (c.perform tables).2.holds = tables.holds ∨
      (∃ hold, c = .insertHold hold ∧ (c.perform tables).2.holds = tables.holds ++ [hold]) ∨
      ∃ id lift, (c.perform tables).2.holds =
        Table.update (fun row : AuditLegalHold => row.id = id && row.active)
          (fun row => { row with lifted := some lift }) tables.holds := by
  cases c with
  | insertHold hold =>
    rw [RepositoryCall.perform, Tables.insertHold]
    split_ifs
    · exact .inl rfl
    · exact .inr (.inl ⟨hold, rfl, rfl⟩)
  | liftHold id lift => exact .inr (.inr ⟨id, lift, rfl⟩)
  | appendAuditEvent input draws => exact .inl (holds_append draws)
  | _ => exact .inl rfl

/-- What a call does to the tables is what a repository call does, or nothing. -/
theorem serve_tables : (c.serve s choice).2.tables = s.tables ∨
    ∃ c', c = .repository c' ∧ (c.serve s choice).2.tables = (c'.perform s.tables).2 := by
  obtain ⟨fails, answer⟩ := choice
  cases c with
  | repository c =>
    match fails with
    | none => exact .inr ⟨c, rfl, rfl⟩
    | some (true, error) => exact .inr ⟨c, rfl, rfl⟩
    | some (false, error) => exact .inl rfl
  | placed hold => exact .inl rfl
  | _ =>
    match fails with
    | none => exact .inl rfl
    | some (kept, error) => exact .inl rfl

theorem serve_removals : (c.serve s choice).2.removals =
    s.removals ++ (c.target.map fun target => (target, s.inForce)).toList := by
  obtain ⟨fails, answer⟩ := choice
  cases c with
  | repository c =>
    rw [show (Call.repository c).target = none from rfl, Option.map_none, Option.toList_none,
      List.append_nil]
    match fails with
    | none => rfl
    | some (true, error) => rfl
    | some (false, error) => rfl
  | _ =>
    match fails with
    | none => simp [Call.serve, Call.target]
    | some (kept, error) => simp [Call.serve, Call.target]

variable {s c choice}

/-- A call makes no hold active but the one it inserts. -/
theorem active_of_serve {row : AuditLegalHold} (hr : row ∈ (c.serve s choice).2.tables.holds)
    (ha : row.active = true) :
    row ∈ s.tables.holds ∨ c = .repository (.insertHold row) := by
  rcases serve_tables s c choice with h | ⟨c', rfl, h⟩
  · exact .inl (by rwa [h] at hr)
  · rw [h] at hr
    rcases perform_holds c' s.tables with h | ⟨hold, rfl, h⟩ | ⟨id, lift, h⟩
    · exact .inl (by rwa [h] at hr)
    · rw [h] at hr
      rcases List.mem_append.1 hr with hr | hr
      · exact .inl hr
      · exact .inr (by rw [List.mem_singleton.1 hr])
    · rw [h] at hr
      obtain ⟨old, hold, rfl⟩ := Table.mem_update.1 hr
      split_ifs at ha ⊢
      · cases ha
      · exact .inl hold

/-- A call makes one hold more active at most, and none unless it inserts one. -/
theorem active_length_serve : ((c.serve s choice).2.tables.holds.filter (·.active)).length ≤
    (s.tables.holds.filter (·.active)).length + if c.insertsHold then 1 else 0 := by
  rcases serve_tables s c choice with h | ⟨c', rfl, h⟩
  · rw [h]
    omega
  · rw [h]
    rcases perform_holds c' s.tables with h | ⟨hold, rfl, h⟩ | ⟨id, lift, h⟩
    · rw [h]
      omega
    · rw [h, List.filter_append, List.length_append]
      have := List.length_filter_le (·.active) [hold]
      simp only [Call.insertsHold, if_true]
      simpa using this
    · rw [h, Table.update, List.filter_map, List.length_map]
      refine le_trans ?_ (Nat.le_add_right _ _)
      refine (List.Sublist.length_le (List.monotone_filter_right _ ?_))
      intro row hr
      simp only [Function.comp_apply] at hr
      split_ifs at hr with hs
      · cases hr
      · exact hr

/-! ### The outline -/

/-- What a program knows of the holds: none that is active covers a target it is exposed
to. -/
def Covered (s : Custody) (p : Service PUnit) : Prop :=
  Guarded p ∧ ∀ t, Exposed t p → ∀ row ∈ s.tables.holds, row.active = true → row.covers t = false

/-- **One call** keeps what the program knows. -/
theorem covered_move {next : Prog.Reply Call.Answer c → Service PUnit}
    (hc : (s.tables.holds.filter (·.active)).length ≤ HOLD_LIMITS.active)
    (h : Covered s (.call c next)) :
    Covered (c.serve s choice).2 (next (c.serve s choice).1) := by
  obtain ⟨hg, hcle⟩ := h
  refine ⟨hg.next _, fun t ht row hrow ha => ?_⟩
  cases hr : c.readsHolds with
  | true =>
    obtain ⟨limit, rfl⟩ : ∃ limit, c = .repository (.listActiveHolds limit) := by
      cases c with
      | repository c =>
        cases c with
        | listActiveHolds limit => exact ⟨limit, rfl⟩
        | _ => cases hr
      | _ => cases hr
    obtain ⟨fails, answer⟩ := choice
    match fails with
    | some (true, error) => exact absurd ht (hg.2.1 error t)
    | some (false, error) => exact absurd ht (hg.2.1 error t)
    | none =>
      obtain ⟨rfl, hcov⟩ := hg.2.2 _ t ht
      exact hcov row (mem_listActiveHolds hc hrow ha)
  | false =>
    refine hcle t (.inr ⟨hr, _, ht⟩) row ?_ ha
    refine (active_of_serve hrow ha).resolve_right ?_
    rintro rfl
    exact hg.2 _ t ht

/-- The outline: at most a page of active holds, nothing removed under a hold so far, and
every program knows what it is exposed to. -/
def outline : Outline withholding Undisturbed where
  inv s := s.Withheld ∧ (s.tables.holds.filter (·.active)).length ≤ HOLD_LIMITS.active
  knows := Covered
  apart _ _ := True
  apart_symm _ := trivial
  start := by
    rintro s r p - hstart
    rw [← Option.some.inj hstart]
    obtain ⟨hguarded, hexposed⟩ := program_guarded r
    exact ⟨⟨hguarded, fun t ht => absurd ht (hexposed t)⟩, fun _ _ => trivial⟩
  stop hinv _ := hinv
  stop_other _ _ hq _ := hq
  move := by
    rintro s others p choice s' p' ⟨hwithheld, hcount⟩ hknows - hcond hnext
    obtain ⟨c, next, rfl, rfl, rfl⟩ := Prog.machine_next hnext
    refine ⟨⟨?_, ?_⟩, covered_move hcount hknows⟩
    · intro removal hremoval hold hhold
      rw [serve_removals] at hremoval
      rcases List.mem_append.1 hremoval with hremoval | hremoval
      · exact hwithheld removal hremoval hold hhold
      · obtain ⟨target, htarget, rfl⟩ := by simpa using hremoval
        obtain ⟨hmem, hactive⟩ := List.mem_filter.1 hhold
        refine hknows.2 target (.inl htarget) hold hmem ?_
        simpa using (Bool.and_eq_true_iff.1 hactive).1
    · refine active_length_serve.trans ?_
      cases hinserts : c.insertsHold with
      | false => simpa using hcount
      | true =>
        obtain ⟨hold, rfl⟩ : ∃ hold, c = .repository (.insertHold hold) := by
          cases c with
          | repository c =>
            cases c with
            | insertHold hold => exact ⟨hold, rfl⟩
            | _ => cases hinserts
          | _ => cases hinserts
        have hroom := (hcond hold next rfl).1
        simp only [if_true]
        omega
  move_other := by
    rintro s others p choice s' p' q ⟨-, hcount⟩ hknows hothers hcond hnext hq
    obtain ⟨c, next, rfl, rfl, rfl⟩ := Prog.machine_next hnext
    obtain ⟨hguarded, hclear⟩ := (hothers q hq).1
    refine ⟨⟨hguarded, fun t ht row hrow hactive => ?_⟩, trivial⟩
    rcases active_of_serve hrow hactive with hrow | rfl
    · exact hclear t ht row hrow hactive
    · exact (hcond row next rfl).2 q hq t ht

/-- **A hold withholds** in every run in which a hold is inserted only where the page of
active holds has room for it and no sweep or erasure that it covers is between its check
and its last call of an owner. -/
theorem hold_withholds {start : Custody} (hstart : start.removals = [])
    (hcount : (start.tables.holds.filter (·.active)).length ≤ HOLD_LIMITS.active)
    {crew : Crew Custody (Service PUnit)}
    (h : Crew.Reachable withholding Undisturbed start crew) : crew.shared.Withheld := by
  have hw : start.Withheld := by
    intro removal hr
    rw [hstart] at hr
    cases hr
  have hi : outline.inv start := ⟨hw, hcount⟩
  exact (outline.reachable hi h).inv.1

end

/-! ### Sample runs -/

/-- A class that is due. -/
def sampleDue : DueDataClass where
  tenantId := "t"
  classId := "agents.core.runs"
  lastSweptAt := none
  now := 8640000000
  backupOk := true
  declaresSweep := fun _ => true
  batchSize := 10

/-- A workspace without rows. -/
def emptyCustody : Custody :=
  ⟨⟨[], [], []⟩, [], []⟩

/-- Every call is answered; the class is kept for 30 days and its owner removes three
rows. -/
def sampleChoice : Choice where
  fails := none
  answer
    | .getDataClass classId => some (some ⟨classId, none, some 30⟩)
    | .sweepClass .. => some (some 3)
    | .appendSweepRun _ => some ⟨⟩
    | .stampSwept .. => some ⟨⟩
    | _ => none

/-- The sweep of the sample class. -/
def sampleSweep : Request :=
  .sweep sampleDue fun n => (0, ⟨s!"sweep{n}", s!"key{n}", Vector.replicate 32 0, "iv"⟩)

/-- A hold on the sample class. -/
def samplePlace : Request :=
  .place "t" "operator"
    { scopeKind := "data-class", classId := some "agents.core.runs", reason := some "Matter 7" }
    sampleDraws

/-- Moves of the process at a position. -/
def moves (i n : ℕ) : List (Crew.Turn Request Choice) :=
  List.replicate n (.move i sampleChoice)

omit [AuditHost] in
/-- A sweep checks the holds, a hold on its class is placed, and the owner is called. -/
theorem sweep_removes_under_hold : let _ : AuditHost := sampleHost
    ∃ crew, Crew.Reachable withholding (fun _ _ _ => True) emptyCustody crew ∧
      ¬ crew.shared.Withheld := by
  intro host
  have hp : (Crew.play withholding (fun _ _ _ => True) ⟨emptyCustody, []⟩
      (.start sampleSweep :: .start samplePlace :: moves 1 3 ++ moves 0 4 ++ moves 1 1)).map
      (fun crew => decide crew.shared.Withheld) = some false := by decide +kernel
  obtain ⟨crew, hc, hw⟩ := Option.map_eq_some_iff.1 hp
  exact ⟨crew, Crew.reachable_of_play hc, of_decide_eq_false hw⟩

/-- A hold is inserted by a process that is alone, on a page with room. -/
def alone (s : Custody) (others : List (Service PUnit)) : Service PUnit → Bool
  | .call (.repository (.insertHold _)) _ =>
    others.isEmpty && decide ((s.tables.holds.filter (·.active)).length < HOLD_LIMITS.active)
  | _ => true

omit [AuditHost] in
theorem undisturbed_of_alone {s : Custody} {others : List (Service PUnit)} {p : Service PUnit}
    (h : alone s others p = true) : Undisturbed s others p := by
  rintro hold next rfl
  rw [alone, Bool.and_eq_true, List.isEmpty_iff, decide_eq_true_iff] at h
  refine ⟨h.2, fun q hq => ?_⟩
  rw [h.1] at hq
  cases hq

omit [AuditHost] in
/-- A sweep that ends before a hold on its class is placed. -/
theorem hold_withholds_sweep : let _ : AuditHost := sampleHost
    ∃ crew : Crew Custody (Service PUnit), crew.shared.removals.length = 1 ∧
      crew.shared.placed = ["h1"] ∧ crew.shared.Withheld := by
  intro host
  have hp : (Crew.play withholding (fun s ps p => alone s ps p = true) ⟨emptyCustody, []⟩
      (.start sampleSweep :: moves 0 6 ++ .stop 0 :: .start samplePlace :: moves 0 4)).map
      (fun crew => decide (crew.shared.removals.length = 1 ∧ crew.shared.placed = ["h1"])) =
        some true := by decide +kernel
  obtain ⟨crew, hc, hs⟩ := Option.map_eq_some_iff.1 hp
  obtain ⟨hr, hpla⟩ := of_decide_eq_true hs
  have hrea : Crew.Reachable withholding Undisturbed emptyCustody crew :=
    (Crew.reachable_of_play hc).mono fun _ _ _ h => undisturbed_of_alone h
  exact ⟨crew, hr, hpla, hold_withholds rfl (by decide) hrea⟩

end Flowdular.Audit
