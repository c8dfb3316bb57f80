/-
# Seal runs are safe

A walk visits the events of its workspace one behind the other (`walk_triple`), so the two
walks of a seal run and the one that writes see the same range, whatever is appended
meanwhile.  With the file it wrote and closed a run may record its anchor, which is all the
charter asks of it (`seal_safe`).  So the tables are sound behind every run of appends and
seal runs (`reachable_sound`), and the directory names every anchor's file where the runs
leave files alone (`reachable_filed`).
-/

import Flowdular.Audit.SealRuns

namespace Flowdular.Audit

open Lib Workflows
open Charter (Triple Lasting Stable)
open Prog (History Recorded Reply)

variable [SealHost] {filed : Prop}

/-- What a run knows. -/
abbrev SealAssertion :=
  Charter.Assertion SealCall (Reply SealCall.Answer) Archive

/-! ### What is known for good -/

/-- What holds of every archive that adds to this one. -/
theorem lasting_of_extends {A : Archive → Prop}
    (h : ∀ archive archive', archive.Extends archive' → A archive → A archive') :
    (sealCharter filed).Lasting fun _ archive => A archive where
  stable _ archive archive' hr := h archive archive' hr.grows
  step _ archive c outcome hi _ := h archive _ (serve_extends outcome c hi.sound.events).1

theorem lasting_handle (handle : ℕ) :
    (sealCharter filed).Lasting fun history _ => handle ∈ handles history where
  stable _ _ _ _ h := h
  step history _ c outcome _ _ h := by
    rw [handles_append]
    exact List.mem_append_left _ h

theorem lasting_const (φ : Prop) : (sealCharter filed).Lasting fun _ _ => φ where
  stable _ _ _ _ h := h
  step _ _ _ _ _ _ h := h

/-- An anchor that is recorded, or none, which the first anchor of a workspace follows. -/
def KnownAnchor (tenantId : String) (previous : Option AuditChainAnchor) (archive : Archive) : Prop :=
  ∃ i ≤ (archive.anchorsOf tenantId).length, previous = ((archive.anchorsOf tenantId).take i).getLast?

variable {archive' : Archive} {previous : Option AuditChainAnchor} {tenantId segmentHash : String}
  {A E : SealAssertion} {c : SealCall} {Q : c.Answer → SealAssertion} {cursor : ℤ}
  {event : StoredAuditEvent} {state : PlanState} {anchor : AuditChainAnchor} {handle : ℕ}
  {history : SealHistory} {inode : Inode} {closed : Bool}

omit [SealHost] in
theorem KnownAnchor.mono {archive : Archive} (he : archive.Extends archive')
    (h : KnownAnchor tenantId previous archive) : KnownAnchor tenantId previous archive' := by
  obtain ⟨i, hi, heq⟩ := h
  have hp := he.anchorsOf tenantId
  refine ⟨i, hi.trans hp.length_le, ?_⟩
  obtain ⟨rest, hr⟩ := hp
  rw [← hr, List.take_append_of_le_length hi]
  exact heq

/-! ### Calls -/

/-- **A call that is passed on where it fails.** -/
theorem chain_triple (hA : (sealCharter filed).Stable A)
    (hok : ∀ history archive, Keeps filed archive → A history archive →
      MayCall filed history c archive)
    (hQ : ∀ history archive time answer archive', Keeps filed archive →
      (∀ handle ∈ handles history, handle < archive.inodes.length) → A history archive →
      c.perform time archive = (.ok answer, archive') →
        Q answer (history ++ [⟨c, .ok answer⟩]) archive')
    (hE : ∀ history archive outcome error, Keeps filed archive → A history archive →
      E (history ++ [⟨c, .error error⟩]) (c.serve archive outcome).2) :
    (sealCharter filed).Triple A (chain c) Q E := by
  refine Triple.need hA (fun history archive hi _ => hok history archive hi) ?_
  intro history archive outcome hi hk hh
  show Charter.replied Q E (c.serve archive outcome).1
    (history ++ [⟨c, (c.serve archive outcome).1⟩]) (c.serve archive outcome).2
  cases hr : (c.serve archive outcome).1 with
  | ok answer =>
    obtain ⟨time, hp⟩ := serve_ok hr
    exact hQ history archive time answer _ hi hk hh hp
  | error error => exact hE history archive outcome error hi hh

/-- What a call that only reads leaves as it is. -/
def OnlyReads : SealCall → Prop
  | .latestAnchor _ => True
  | .sealAuditEventsPage .. => True
  | .now => True
  | .directory => True
  | .mkdir => True
  | _ => False

theorem OnlyReads.serve (h : OnlyReads c) (archive : Archive) (outcome : Outcome) :
    (c.serve archive outcome).2 = archive := by
  cases c <;> first | exact h.elim | (cases outcome <;> rfl)

theorem OnlyReads.mayCall (h : OnlyReads c) (history : SealHistory)
    (archive : Archive) : MayCall filed history c archive := by
  cases c <;> first | exact h.elim | trivial

theorem read_triple (hr : OnlyReads c) (hA : (sealCharter filed).Stable A)
    (hg : ∀ history entry archive, A history archive → A (history ++ [entry]) archive)
    (hQ : ∀ history archive time answer, Keeps filed archive → A history archive →
      (c.perform time archive).1 = .ok answer → Q answer history archive)
    (hgrowQ : ∀ answer history entry archive, Q answer history archive →
      Q answer (history ++ [entry]) archive)
    (hE : ∀ history archive, A history archive → E history archive) :
    (sealCharter filed).Triple A (chain c) Q E := by
  refine chain_triple hA (fun history archive _ _ => hr.mayCall history archive) ?_ ?_
  · intro history archive time answer archive' hi _ hh hp
    have hs := hr.serve archive (.done time)
    rw [SealCall.serve, hp] at hs
    obtain rfl : archive' = archive := hs
    exact hgrowQ _ _ _ _ (hQ history archive' time answer hi hh (by rw [hp]))
  · intro history archive outcome error _ hh
    rw [hr.serve archive outcome]
    exact hE _ _ (hg _ _ _ hh)

/-! ### Walks -/

/-- A page holds the events of a workspace behind a sequence, one behind the other. -/
def PageAt (tenantId : String) (cursor : ℤ) (page : List StoredAuditEvent) (archive : Archive) : Prop :=
  ∀ (i : ℕ) event, page[i]? = some event →
    (archive.events tenantId)[cursor.toNat + i]? = some event ∧ event.sequence = cursor + i + 1

omit [SealHost] in
theorem PageAt.mono {page : List StoredAuditEvent}
    {archive : Archive} (hext : archive.Extends archive')
    (h : PageAt tenantId cursor page archive) : PageAt tenantId cursor page archive' := by
  intro i event hi
  obtain ⟨he, hs⟩ := h i event hi
  obtain ⟨rest, hr⟩ := hext.events tenantId
  have hlt := (List.getElem?_eq_some_iff.1 he).1
  refine ⟨?_, hs⟩
  rw [← hr, List.getElem?_append_left hlt]
  exact he

omit [SealHost] in
theorem PageAt.tail {page : List StoredAuditEvent} {archive : Archive} (hc : 0 ≤ cursor)
    (h : PageAt tenantId cursor (event :: page) archive) :
    PageAt tenantId (cursor + 1) page archive := by
  intro i other hi
  obtain ⟨ho, hs⟩ := h (i + 1) other hi
  have hind : (cursor + 1).toNat + i = cursor.toNat + (i + 1) := by omega
  rw [hind]
  refine ⟨ho, ?_⟩
  push_cast at hs
  omega

/-- What is read for a page. -/
theorem pageAt_read {archive : Archive} (h : Chained (archive.events tenantId))
    (hc : 0 ≤ cursor) (limit : ℕ) :
    PageAt tenantId cursor (archive.sealAuditEventsPage tenantId cursor limit) archive := by
  intro i event hi
  rw [h.page archive hc, List.getElem?_take] at hi
  split at hi
  · rw [List.getElem?_drop] at hi
    have hs := h.sequence _ event hi
    refine ⟨hi, ?_⟩
    omega
  · cases hi

/-- A page that is not full ends with the last event. -/
theorem length_read {archive : Archive} (h : Chained (archive.events tenantId))
    (hc : 0 ≤ cursor) {limit : ℕ}
    (hs : (archive.sealAuditEventsPage tenantId cursor limit).length < limit) :
    ((archive.events tenantId).length : ℤ) ≤
      cursor + (archive.sealAuditEventsPage tenantId cursor limit).length := by
  rw [h.page archive hc, List.length_take, List.length_drop] at hs ⊢
  omega

section

variable {β : Type} {tenantId : String} {visit : β → StoredAuditEvent → SealRun (β × Bool)}
  {J : β → ℤ → SealAssertion} {Q : β × Bool → SealAssertion} {E : SealAssertion} {n : ℤ}

/-- The events of a page, one by one. -/
theorem visitPage_triple
    (hc : ∀ state cursor history archive, J state cursor history archive → 0 ≤ cursor)
    (hv : ∀ state cursor event, (sealCharter filed).Triple
      (fun history archive => J state cursor history archive ∧
        (archive.events tenantId)[cursor.toNat]? = some event ∧ event.sequence = cursor + 1)
      (visit state event)
      (fun r history archive => if r.2 then J r.1 (cursor + 1) history archive
        else Q (r.1, false) history archive) E)
    (page : List StoredAuditEvent) : ∀ (state : β) (cursor : ℤ), (sealCharter filed).Triple
      (fun history archive => J state cursor history archive ∧ PageAt tenantId cursor page archive)
      (visitPage visit page state cursor)
      (fun r history archive =>
        if r.2.2 then J r.1 r.2.1 history archive ∧ r.2.1 = cursor + page.length
        else Q (r.1, false) history archive) E := by
  induction page with
  | nil =>
    intro state cursor
    refine Triple.pure fun history archive h => ?_
    exact ⟨h.1, by simp⟩
  | cons event page ih =>
    intro state cursor
    rw [visitPage]
    have hp : (sealCharter filed).Lasting fun _ archive =>
        PageAt tenantId cursor (event :: page) archive :=
      lasting_of_extends fun _ _ he h => h.mono he
    refine Triple.bind (M := fun r history archive => (if r.2 then J r.1 (cursor + 1) history archive
      else Q (r.1, false) history archive) ∧ PageAt tenantId cursor (event :: page) archive ∧
        0 ≤ cursor ∧ event.sequence = cursor + 1) ?_ ?_
    · refine (((hv state cursor event).frame hp).frame
        (lasting_const (0 ≤ cursor ∧ event.sequence = cursor + 1))).mono ?_ ?_ ?_
      · intro history archive ⟨hJ, hat⟩
        obtain ⟨heve, hs⟩ := hat 0 event rfl
        have hseq : event.sequence = cursor + 1 := by simpa using hs
        exact ⟨⟨⟨hJ, by simpa using heve, hseq⟩, hat⟩, hc _ _ _ _ hJ, hseq⟩
      · exact fun r history archive h => ⟨h.1.1, h.1.2, h.2⟩
      · exact fun history archive h => h.1.1
    · rintro ⟨state', go⟩
      cases go with
      | false => exact Triple.pure fun history archive h => h.1
      | true =>
        refine Triple.of_imp (fun history archive h => h.2.2) fun ⟨hpos, hseq⟩ => ?_
        show (sealCharter filed).Triple _ (visitPage visit page state' event.sequence) _ _
        rw [hseq]
        refine (ih state' (cursor + 1)).mono ?_ ?_ fun _ _ h => h
        · exact fun history archive h => ⟨h.1, h.2.1.tail hpos⟩
        · rintro ⟨state'', cursor', go'⟩ history archive h
          cases go' with
          | false => exact h
          | true =>
            refine ⟨h.1, h.2.trans ?_⟩
            rw [List.length_cons]
            push_cast
            omega

/-- **The rule of a walk.**  What the visitor keeps up to its cursor holds at the end of the
events that were there before, if it does not stop. -/
theorem walk_triple (hsta : ∀ state cursor, (sealCharter filed).Stable (J state cursor))
    (hg : ∀ state cursor history entry archive, J state cursor history archive →
      J state cursor (history ++ [entry]) archive)
    (hc : ∀ state cursor history archive, J state cursor history archive →
      0 ≤ cursor ∧ n ≤ (archive.events tenantId).length)
    (hv : ∀ state cursor event, (sealCharter filed).Triple
      (fun history archive => J state cursor history archive ∧
        (archive.events tenantId)[cursor.toNat]? = some event ∧ event.sequence = cursor + 1)
      (visit state event)
      (fun r history archive => if r.2 then J r.1 (cursor + 1) history archive
        else Q (r.1, false) history archive) E)
    (he : ∀ state cursor history archive, J state cursor history archive → n ≤ cursor →
      Q (state, true) history archive)
    (hE : ∀ state cursor history archive, J state cursor history archive → E history archive)
    (pages : ℕ) : ∀ (state : β) (cursor : ℤ), (sealCharter filed).Triple (J state cursor)
      (AuditSealService.walk tenantId visit pages state cursor) Q E := by
  induction pages with
  | zero => exact fun state cursor => Triple.fail (hE state cursor)
  | succ pages ih =>
    intro state cursor
    rw [AuditSealService.walk]
    refine Triple.bind (M := fun page history archive => J state cursor history archive ∧
      PageAt tenantId cursor page archive ∧
        (page.length < SEAL_LIMITS.page → n ≤ cursor + page.length)) ?_ fun page => ?_
    · refine read_triple trivial (hsta state cursor) (hg state cursor) ?_ ?_ (hE state cursor)
      · intro history archive time page hi hJ hp
        obtain rfl : archive.sealAuditEventsPage tenantId cursor SEAL_LIMITS.page = page :=
          Except.ok.inj hp
        obtain ⟨hpos, hn⟩ := hc _ _ _ _ hJ
        refine ⟨hJ, pageAt_read (hi.sound.events tenantId) hpos _, fun hs => ?_⟩
        exact hn.trans (length_read (hi.sound.events tenantId) hpos hs)
      · exact fun page history entry archive h => ⟨hg _ _ _ _ _ h.1, h.2⟩
    · refine Triple.of_imp (fun _ _ h => h.2.2) fun hs => ?_
      refine Triple.bind ((visitPage_triple (fun _ _ _ _ h => (hc _ _ _ _ h).1) hv page state
        cursor).mono (fun _ _ h => ⟨h.1, h.2.1⟩) (fun _ _ _ h => h) fun _ _ h => h) ?_
      rintro ⟨state', cursor', go⟩
      cases go with
      | false => exact Triple.pure fun history archive h => h
      | true =>
        refine Triple.of_imp (fun _ _ h => h.2) fun hl => ?_
        have hl : cursor' = cursor + page.length := hl
        by_cases hf : page.length < SEAL_LIMITS.page
        · simp only [Bool.not_true, Bool.false_eq_true, if_false, hf, if_true]
          refine Triple.pure fun history archive h => he _ _ _ _ h.1 ?_
          rw [hl]
          exact hs hf
        · simp only [Bool.not_true, Bool.false_eq_true, if_false, hf]
          exact (ih state' cursor').mono (fun _ _ h => h.1) (fun _ _ _ h => h) fun _ _ h => h

end

/-! ### The plan -/

/-- A plan takes the events behind the anchor it follows, up to one that is there. -/
structure Planned (tenantId : String) (plan : SealPlan) (archive : Archive) : Prop where
  known : KnownAnchor tenantId plan.previousAnchor archive
  behind : 0 ≤ sealedThrough plan.previousAnchor
  rowCount : 0 ≤ plan.rowCount
  toSequence : plan.toSequence = sealedThrough plan.previousAnchor + plan.rowCount
  covered : plan.toSequence ≤ (archive.events tenantId).length
  fromSequence : plan.rowCount ≠ 0 → plan.fromSequence = sealedThrough plan.previousAnchor + 1

omit [SealHost] in
theorem Planned.mono {plan : SealPlan} {archive : Archive}
    (he : archive.Extends archive') (h : Planned tenantId plan archive) :
    Planned tenantId plan archive' where
  known := h.known.mono he
  behind := h.behind
  rowCount := h.rowCount
  toSequence := h.toSequence
  covered := by
    have := (he.events tenantId).length_le
    have := h.covered
    omega
  fromSequence := h.fromSequence

/-- What `plan` has counted when its walk stands at a cursor. -/
structure Counted (tenantId : String) (previous : Option AuditChainAnchor) (state : PlanState)
    (cursor : ℤ) (archive : Archive) : Prop where
  known : KnownAnchor tenantId previous archive
  behind : 0 ≤ sealedThrough previous
  reached : sealedThrough previous ≤ cursor
  covered : cursor ≤ (archive.events tenantId).length
  rowCount : state.rowCount = cursor - sealedThrough previous
  toSequence : state.toSequence = cursor
  fromSequence : state.rowCount ≠ 0 → state.fromSequence = sealedThrough previous + 1

omit [SealHost] in
theorem Counted.mono {archive : Archive} (he : archive.Extends archive')
    (h : Counted tenantId previous state cursor archive) :
    Counted tenantId previous state cursor archive' where
  known := h.known.mono he
  behind := h.behind
  reached := h.reached
  covered := by
    have := (he.events tenantId).length_le
    have := h.covered
    omega
  rowCount := h.rowCount
  toSequence := h.toSequence
  fromSequence := h.fromSequence

omit [SealHost] in
theorem Counted.visit {archive : Archive} (h : Counted tenantId previous state cursor archive)
    (he : (archive.events tenantId)[cursor.toNat]? = some event)
    (hs : event.sequence = cursor + 1) :
    Counted tenantId previous (state.visit event).1 (cursor + 1) archive where
  known := h.known
  behind := h.behind
  reached := by
    have := h.reached
    omega
  covered := by
    have := (List.getElem?_eq_some_iff.1 he).1
    omega
  rowCount := by
    have := h.rowCount
    show state.rowCount + 1 = _
    omega
  toSequence := hs
  fromSequence _ := by
    show (if state.rowCount = 0 then event.sequence else state.fromSequence) = _
    have := h.rowCount
    split
    · omega
    · next hne => exact h.fromSequence hne

/-- **`plan`** plans for a range that is there. -/
theorem plan_triple (tenantId : String) (pages : ℕ) :
    (sealCharter filed).Triple (fun _ _ => True) (AuditSealService.plan tenantId pages)
      (fun plan _ archive => Planned tenantId plan archive) fun _ _ => True := by
  unfold AuditSealService.plan
  refine Triple.bind (M := fun previous _ archive =>
    Counted tenantId previous ⟨0, 0, sealedThrough previous, none, none⟩ (sealedThrough previous)
      archive) ?_ fun previous => ?_
  · refine read_triple trivial (fun _ _ _ _ h => h) (fun _ _ _ h => h) ?_ (fun _ _ _ _ h => h)
      fun _ _ h => h
    intro history archive time previous hi _ hp
    obtain rfl : archive.latestAnchor tenantId = previous := Except.ok.inj hp
    rw [hi.sound.latestAnchor]
    have hk : KnownAnchor tenantId (archive.anchorsOf tenantId).getLast? archive :=
      ⟨_, le_rfl, by rw [List.take_length]⟩
    have hr : 0 ≤ sealedThrough (archive.anchorsOf tenantId).getLast? ∧
        sealedThrough (archive.anchorsOf tenantId).getLast? ≤ (archive.events tenantId).length := by
      cases hl : (archive.anchorsOf tenantId).getLast? with
      | none => exact ⟨le_rfl, Int.natCast_nonneg _⟩
      | some anchor =>
        have hm := mem_anchorsOf.1 (List.mem_of_getLast? hl)
        obtain ⟨previous, hf⟩ := hi.sound.follows hm.1
        have hto := hf.toSequence
        have hrows := hf.rowCount
        have hb := hf.behind
        have hc := hf.covered
        rw [hm.2] at hc
        exact ⟨show 0 ≤ anchor.toSequence by omega, hc⟩
    exact ⟨hk, hr.1, le_rfl, hr.2, by simp, rfl, fun h => absurd rfl h⟩
  · have hs : ∀ (state : PlanState) (cursor : ℤ), (sealCharter filed).Stable fun _ archive =>
        Counted tenantId previous state cursor archive :=
      fun state cursor => (lasting_of_extends fun _ _ he h => h.mono he).stable
    refine Triple.bind (M := fun r _ archive => ∃ cursor,
      Counted tenantId previous r.1 cursor archive) ?_ ?_
    · refine walk_triple (n := 0) (J := fun state cursor _ archive =>
        Counted tenantId previous state cursor archive) hs (fun _ _ _ _ _ h => h) ?_ ?_ ?_
        (fun _ _ _ _ _ => trivial) pages _ _
      · intro state cursor history archive h
        exact ⟨h.behind.trans h.reached, Int.natCast_nonneg _⟩
      · intro state cursor event
        refine Triple.pure fun history archive h => ?_
        have hv := h.1.visit h.2.1 h.2.2
        split
        · exact hv
        · exact ⟨_, hv⟩
      · exact fun state cursor history archive h _ => ⟨cursor, h⟩
    · rintro ⟨state, complete⟩
      refine Triple.pure fun history archive h => ?_
      obtain ⟨cursor, h⟩ := h
      have h : Counted tenantId previous state cursor archive := h
      have hrows := h.rowCount
      have hcur := h.reached
      exact {
        known := h.known
        behind := h.behind
        rowCount := show 0 ≤ state.rowCount by omega
        toSequence := by
          show state.toSequence = sealedThrough previous + state.rowCount
          have := h.toSequence
          omega
        covered := by
          show state.toSequence ≤ _
          rw [h.toSequence]
          exact h.covered
        fromSequence := fun hne => by
          show (if state.rowCount = 0 then _ else state.fromSequence) = _
          rw [if_neg hne]
          exact h.fromSequence hne }

/-! ### The hash -/

/-- What the first walk of `seal` has hashed at a cursor. -/
structure Hashed (tenantId : String) (plan : SealPlan) (accumulator : String) (cursor : ℤ)
    (archive : Archive) : Prop where
  planned : Planned tenantId plan archive
  reached : sealedThrough plan.previousAnchor ≤ cursor
  within : cursor ≤ plan.toSequence
  accumulator : accumulator = segmentChain (plan.previousAnchor.map (·.anchorHash))
    ((between (archive.events tenantId) (sealedThrough plan.previousAnchor) cursor).map (·.eventHash))

theorem Hashed.mono {plan : SealPlan} {accumulator : String}
    {archive : Archive} (he : archive.Extends archive')
    (h : Hashed tenantId plan accumulator cursor archive) :
    Hashed tenantId plan accumulator cursor archive' where
  planned := h.planned.mono he
  reached := h.reached
  within := h.within
  accumulator := by
    have hle : cursor ≤ (archive.events tenantId).length := h.within.trans h.planned.covered
    rw [between_of_le (he.events tenantId) h.planned.behind hle]
    exact h.accumulator

/-- The first walk of `seal` hashes the events of the plan. -/
theorem hash_triple (tenantId : String) (plan : SealPlan) (pages : ℕ) :
    (sealCharter filed).Triple (fun _ archive => Planned tenantId plan archive)
      (AuditSealService.walk tenantId (fun state event => return hashVisit plan state event) pages
        (plan.previousAnchor.elim "" (·.anchorHash)) (sealedThrough plan.previousAnchor))
      (fun r _ archive => Hashed tenantId plan r.1 plan.toSequence archive) fun _ _ => True := by
  have hsta : ∀ (accumulator : String) (cursor : ℤ), (sealCharter filed).Stable fun _ archive =>
      Hashed tenantId plan accumulator cursor archive :=
    fun accumulator cursor => (lasting_of_extends fun _ _ he h => h.mono he).stable
  refine Triple.mono (A := fun _ archive => Hashed tenantId plan
    (plan.previousAnchor.elim "" (·.anchorHash)) (sealedThrough plan.previousAnchor) archive)
    (walk_triple (n := plan.toSequence) (J := fun accumulator cursor _ archive =>
      Hashed tenantId plan accumulator cursor archive) hsta (fun _ _ _ _ _ h => h) ?_ ?_ ?_
      (fun _ _ _ _ _ => trivial) pages _ _)
    (fun history archive h => ?_) (fun _ _ _ h => h) fun _ _ h => h
  · exact fun accumulator cursor history archive h =>
      ⟨h.planned.behind.trans h.reached, h.planned.covered⟩
  · intro accumulator cursor event
    refine Triple.pure fun history archive h => ?_
    obtain ⟨h, heve, hseq⟩ := h
    unfold hashVisit
    by_cases hs : plan.toSequence < event.sequence
    · have hc : cursor = plan.toSequence := by
        have := h.within
        omega
      rw [if_pos hs]
      rw [hc] at h
      exact h
    · rw [if_neg hs]
      refine ⟨h.planned, by have := h.reached; omega, by omega, ?_⟩
      rw [between_succ h.planned.behind h.reached heve, List.map_append, h.accumulator]
      unfold segmentChain
      rw [List.foldl_append]
      rfl
  · intro accumulator cursor history archive h hn
    have hc : cursor = plan.toSequence := by
      have := h.within
      omega
    rw [hc] at h
    exact h
  · refine ⟨h, le_rfl, ?_, ?_⟩
    · have := h.toSequence
      have := h.rowCount
      omega
    · rw [between_self]
      cases plan.previousAnchor <;> rfl

/-! ### The file -/

variable (filed) in
/-- A run holds the file of its anchor, with some text in it. -/
structure Holds (anchor : AuditChainAnchor) (handle : ℕ) (inode : Inode) (history : SealHistory)
    (archive : Archive) : Prop where
  own : handle ∈ handles history
  inode : archive.inodes[handle]? = some inode
  entry : filed → (anchor.segmentFile, handle) ∈ archive.entries

theorem Holds.stable (anchor : AuditChainAnchor) (handle : ℕ) (inode : Inode) :
    (sealCharter filed).Stable (Holds filed anchor handle inode) := by
  intro history archive archive' hr h
  refine ⟨h.own, ?_, fun hf => hr.entries hf _ handle h.own (h.entry hf)⟩
  rw [hr.inodes handle h.own]
  exact h.inode

omit [SealHost] in
theorem Holds.grow {archive : Archive} (h : Holds filed anchor handle inode history archive)
    (entry : Σ c, Reply SealCall.Answer c) :
    Holds filed anchor handle inode (history ++ [entry]) archive :=
  ⟨by rw [handles_append]; exact List.mem_append_left _ h.own, h.inode, h.entry⟩

omit [SealHost] in
/-- The file has other contents. -/
theorem Holds.set
    {archive : Archive} (h : Holds filed anchor handle inode history archive) (inode' : Inode) :
    Holds filed anchor handle inode' history
      { archive with inodes := archive.inodes.set handle inode' } := by
  refine ⟨h.own, ?_, h.entry⟩
  have hlt := (List.getElem?_eq_some_iff.1 h.inode).1
  show (archive.inodes.set handle inode')[handle]? = some inode'
  rw [List.getElem?_set_self hlt]

theorem write_triple {before : String} (text : String) :
    (sealCharter filed).Triple (Holds filed anchor handle ⟨before, false⟩)
      (chain (.write handle text))
      (fun _ => Holds filed anchor handle ⟨before ++ text, false⟩)
      fun history _ => handle ∈ handles history := by
  refine chain_triple (Holds.stable anchor handle _) (fun _ _ _ h => h.own) ?_ ?_
  · intro history archive time answer archive' _ _ h hp
    rw [SealCall.perform] at hp
    unfold Archive.write at hp
    rw [h.inode] at hp
    rw [← (Prod.mk.inj hp).2]
    exact (h.grow _).set _
  · intro history archive outcome error _ h
    exact (h.grow _).own

theorem close_triple {text : String} :
    (sealCharter filed).Triple (Holds filed anchor handle ⟨text, false⟩) (chain (.close handle))
      (fun _ => Holds filed anchor handle ⟨text, true⟩) fun history _ => handle ∈ handles history := by
  refine chain_triple (Holds.stable anchor handle _) (fun _ _ _ h => h.own) ?_ ?_
  · intro history archive time answer archive' _ _ h hp
    rw [SealCall.perform] at hp
    unfold Archive.close at hp
    rw [h.inode] at hp
    rw [← (Prod.mk.inj hp).2]
    exact (h.grow _).set _
  · intro history archive outcome error _ h
    exact (h.grow _).own

/-- A call that what is known for good outlasts. -/
theorem lasting_triple (hA : (sealCharter filed).Lasting A)
    (hok : ∀ history archive, A history archive → MayCall filed history c archive) :
    (sealCharter filed).Triple A (chain c) (fun _ => A) fun _ _ => True := by
  refine Triple.need hA.stable (fun history archive _ _ => hok history archive) ?_
  intro history archive outcome hi hk h
  have hs := hA.step history archive c outcome hi hk h
  cases hr : ((sealCharter filed).serve c archive outcome).1 with
  | ok answer =>
    rw [hr] at hs
    exact hs
  | error error => trivial

theorem open_triple (hA : (sealCharter filed).Lasting A) (anchor : AuditChainAnchor) :
    (sealCharter filed).Triple A (chain (.openNew anchor.segmentFile))
      (fun handle history archive => Holds filed anchor handle ⟨"", false⟩ history archive ∧
        A history archive) fun _ _ => True := by
  refine chain_triple hA.stable (fun _ _ _ _ => trivial) ?_ fun _ _ _ _ _ _ => trivial
  intro history archive time handle archive' hi hk h hp
  have hs : (SealCall.openNew anchor.segmentFile).serve archive (.done time) =
      (.ok handle, archive') := hp
  have hl := hA.step history archive (.openNew anchor.segmentFile) (.done time) hi hk h
  rw [show (sealCharter filed).serve (.openNew anchor.segmentFile) archive (.done time) =
    (.ok handle, archive') from hs] at hl
  refine ⟨?_, hl⟩
  rw [SealCall.perform] at hp
  split at hp
  · cases hp
  · obtain ⟨hh, ha⟩ := Prod.mk.inj hp
    rw [← ha, ← Except.ok.inj hh]
    refine ⟨?_, by simp, fun _ => List.mem_append_right _ (List.mem_singleton.2 rfl)⟩
    rw [handles_append]
    exact List.mem_append_right _ (List.mem_singleton.2 rfl)

omit [SealHost] in
theorem segmentText_append (anchor : AuditChainAnchor) (events : List StoredAuditEvent)
    (event : StoredAuditEvent) :
    segmentText anchor (events ++ [event]) = segmentText anchor events ++ lineText event.line := by
  unfold segmentText
  rw [List.map_append, String.join_append, String.append_assoc]
  simp [String.join]

variable (filed) in
/-- What the second walk has written at a cursor. -/
structure Writing (plan : SealPlan) (anchor : AuditChainAnchor) (handle : ℕ) (closed : Bool)
    (cursor : ℤ) (history : SealHistory) (archive : Archive) : Prop where
  planned : Planned anchor.tenantId plan archive
  reached : sealedThrough plan.previousAnchor ≤ cursor
  within : cursor ≤ plan.toSequence
  holds : Holds filed anchor handle ⟨segmentText anchor (between (archive.events anchor.tenantId)
    (sealedThrough plan.previousAnchor) cursor), closed⟩ history archive

theorem Writing.stable (plan : SealPlan) (anchor : AuditChainAnchor) (handle : ℕ) (closed : Bool)
    (cursor : ℤ) : (sealCharter filed).Stable (Writing filed plan anchor handle closed cursor) := by
  intro history archive archive' hr h
  have hp := hr.grows.events anchor.tenantId
  have hle : cursor ≤ (archive.events anchor.tenantId).length := h.within.trans h.planned.covered
  refine ⟨h.planned.mono hr.grows, h.reached, h.within, ?_⟩
  rw [between_of_le hp h.planned.behind hle]
  exact Holds.stable _ _ _ history archive archive' hr h.holds

omit [SealHost] in
theorem Writing.own {plan : SealPlan} {archive : Archive}
    (h : Writing filed plan anchor handle closed cursor history archive) : handle ∈ handles history :=
  h.holds.own

/-- What a program does to the file of a run whose plan stands. -/
theorem writing_triple {plan : SealPlan} {closed' : Bool} {cursor' : ℤ} {p : SealRun PUnit}
    {P : List StoredAuditEvent → Prop} (hr : sealedThrough plan.previousAnchor ≤ cursor')
    (hwit : cursor' ≤ plan.toSequence)
    (h : ∀ events : List StoredAuditEvent, P events → (sealCharter filed).Triple
      (Holds filed anchor handle ⟨segmentText anchor
        (between events (sealedThrough plan.previousAnchor) cursor), closed⟩) p
      (fun _ => Holds filed anchor handle ⟨segmentText anchor
        (between events (sealedThrough plan.previousAnchor) cursor'), closed'⟩)
      fun history _ => handle ∈ handles history) :
    (sealCharter filed).Triple (fun history archive =>
        Writing filed plan anchor handle closed cursor history archive ∧
          P (archive.events anchor.tenantId)) p
      (fun _ => Writing filed plan anchor handle closed' cursor')
      fun history _ => handle ∈ handles history := by
  intro history archive ⟨hw, hP⟩
  have hk : (sealCharter filed).Lasting fun _ archive' =>
      archive.events anchor.tenantId <+: archive'.events anchor.tenantId ∧
        Planned anchor.tenantId plan archive' :=
    lasting_of_extends fun _ _ he h =>
      ⟨h.1.trans (he.events anchor.tenantId), h.2.mono he⟩
  have hc := hw.planned.covered
  refine (((h (archive.events anchor.tenantId) hP).frame hk) history archive ?_).mono ?_
  · exact ⟨hw.holds, List.prefix_refl _, hw.planned⟩
  · intro history' out archive' ho
    cases out with
    | error e => exact ho.1
    | ok a =>
      obtain ⟨hh, hpre, hp⟩ := ho
      refine ⟨hp, hr, hwit, ?_⟩
      rw [between_of_le hpre hp.behind (hwit.trans hc)]
      exact hh

/-- One event more is written. -/
theorem writeVisit_triple (plan : SealPlan) (anchor : AuditChainAnchor) (handle : ℕ) (cursor : ℤ)
    (event : StoredAuditEvent) :
    (sealCharter filed).Triple (fun history archive =>
        Writing filed plan anchor handle false cursor history archive ∧
          (archive.events anchor.tenantId)[cursor.toNat]? = some event ∧
            event.sequence = cursor + 1)
      (writeVisit plan handle ⟨⟩ event)
      (fun r history archive =>
        if r.2 then Writing filed plan anchor handle false (cursor + 1) history archive
        else Writing filed plan anchor handle false plan.toSequence history archive)
      fun history _ => handle ∈ handles history := by
  unfold writeVisit
  by_cases hs : plan.toSequence < event.sequence
  · rw [if_pos hs]
    refine Triple.pure fun history archive h => ?_
    obtain ⟨hw, -, hseq⟩ := h
    have hc : cursor = plan.toSequence := by
      have := hw.within
      omega
    rw [hc] at hw
    exact hw
  · rw [if_neg hs]
    refine Triple.of_imp (fun _ _ h => And.intro h.1.reached
      (And.intro h.1.planned.behind h.2.2)) fun ⟨hr, hb, hseq⟩ => ?_
    refine Triple.bind (M := fun _ => Writing filed plan anchor handle false (cursor + 1)) ?_
      fun _ => Triple.pure fun _ _ h => h
    refine (writing_triple (P := fun events => events[cursor.toNat]? = some event)
      (by omega) (by omega) fun events he => ?_).mono (fun _ _ h => ⟨h.1, h.2.1⟩)
      (fun _ _ _ h => h) fun _ _ h => h
    rw [between_succ hb hr he, segmentText_append]
    exact write_triple _

/-- What `#write` does with the file it opened, as long as nothing fails. -/
theorem body_triple (plan : SealPlan) (anchor : AuditChainAnchor) (handle pages : ℕ) :
    (sealCharter filed).Triple (fun history archive =>
        Holds filed anchor handle ⟨"", false⟩ history archive ∧ Planned anchor.tenantId plan archive)
      (do
        let _ ← chain (.write handle (lineText anchor.line))
        let _ ← AuditSealService.walk anchor.tenantId (writeVisit plan handle) pages ⟨⟩
          (sealedThrough plan.previousAnchor)
        chain (.close handle))
      (fun _ => Writing filed plan anchor handle true plan.toSequence)
      fun history _ => handle ∈ handles history := by
  have hpla : (sealCharter filed).Lasting fun _ archive => Planned anchor.tenantId plan archive :=
    lasting_of_extends fun _ _ he h => h.mono he
  refine Triple.bind (M := fun _ =>
    Writing filed plan anchor handle false (sealedThrough plan.previousAnchor)) ?_ fun _ => ?_
  · refine ((write_triple (lineText anchor.line)).frame hpla).mono (fun _ _ h => h) ?_
      fun _ _ h => h.1
    intro _ history archive ⟨hh, hp⟩
    refine ⟨hp, le_rfl, ?_, ?_⟩
    · have := hp.toSequence
      have := hp.rowCount
      omega
    · rw [between_self]
      have ht : segmentText anchor [] = "" ++ lineText anchor.line := by
        simp [segmentText, String.join]
      rw [ht]
      exact hh
  refine Triple.bind (M := fun _ => Writing filed plan anchor handle false plan.toSequence) ?_
    fun _ => ?_
  · refine walk_triple (n := plan.toSequence) (J := fun _ cursor =>
      Writing filed plan anchor handle false cursor)
      (Q := fun _ => Writing filed plan anchor handle false plan.toSequence)
      (fun _ cursor => Writing.stable plan anchor handle false cursor) ?_ ?_
      (fun _ cursor event => writeVisit_triple plan anchor handle cursor event) ?_
      (fun _ _ _ _ h => h.own) pages _ _
    · exact fun _ cursor history entry archive h =>
        ⟨h.planned, h.reached, h.within, h.holds.grow entry⟩
    · exact fun _ cursor history archive h =>
        ⟨h.planned.behind.trans h.reached, h.planned.covered⟩
    · intro _ cursor history archive h hend
      have hc : cursor = plan.toSequence := by
        have := h.within
        omega
      rw [← hc]
      exact h
  · refine Triple.of_imp (fun _ _ h => h.reached) fun hr => ?_
    exact (writing_triple (P := fun _ => True) hr le_rfl fun _ _ => close_triple).mono
      (fun _ _ h => ⟨h, trivial⟩) (fun _ _ _ h => h) fun _ _ h => h

/-- **`#write`** leaves the whole file, closed, or fails. -/
theorem write_run_triple (plan : SealPlan) (anchor : AuditChainAnchor) (pages : ℕ) :
    (sealCharter filed).Triple (fun _ archive => Planned anchor.tenantId plan archive)
      (AuditSealService.write plan anchor pages)
      (fun _ history archive => ∃ handle,
        Writing filed plan anchor handle true plan.toSequence history archive)
      fun _ _ => True := by
  have hp : (sealCharter filed).Lasting fun _ archive => Planned anchor.tenantId plan archive :=
    lasting_of_extends fun _ _ he h => h.mono he
  unfold AuditSealService.write
  refine Triple.bind (lasting_triple hp fun _ _ _ => trivial) fun _ => ?_
  refine Triple.bind (lasting_triple hp fun _ _ _ => trivial) fun _ => ?_
  refine Triple.bind (open_triple hp anchor) fun handle => ?_
  refine Triple.orElse ((body_triple plan anchor handle pages).mono (fun _ _ h => h)
    (fun _ _ _ h => ⟨handle, h⟩) fun _ _ h => h) fun error => ?_
  -- the handler closes the file it owns, removes it and passes the error on
  refine Triple.bind (M := fun _ _ _ => True) ?_ fun _ => ?_
  · unfold closeQuietly
    have hc : (sealCharter filed).Triple (fun history _ => handle ∈ handles history)
        (chain (.close handle)) (fun _ _ _ => True) fun _ _ => True :=
      (lasting_triple (c := .close handle) (lasting_handle handle) fun _ _ h => h).mono
        (fun _ _ h => h) (fun _ _ _ _ => trivial) fun _ _ _ => trivial
    exact Triple.orElse hc fun _ => Triple.pure fun _ _ _ => trivial
  · exact Triple.bind (lasting_triple (lasting_const True) fun _ _ _ => trivial) fun _ =>
      Triple.fail fun _ _ _ => trivial

/-! ### A seal run -/

/-- The anchor of a plan follows the one the plan found. -/
theorem Planned.follows {plan : SealPlan} {request : SealRequest}
    {archive : Archive} (h : Hashed request.tenantId plan segmentHash plan.toSequence archive)
    (hr : plan.rowCount ≠ 0) (sealedAt : ℤ) :
    Follows (archive.events request.tenantId) plan.previousAnchor
      (plan.anchor request segmentHash sealedAt) where
  anchorSequence := rfl
  fromSequence := h.planned.fromSequence hr
  toSequence := h.planned.toSequence
  rowCount := by
    have := h.planned.rowCount
    show 0 < plan.rowCount
    omega
  behind := h.planned.behind
  covered := h.planned.covered
  segmentHash := h.accumulator
  previousAnchorHash := rfl
  anchorHash := rfl
  signed := ⟨request.signer, rfl, rfl⟩
  segmentFile := rfl

/-- A run that wrote its file may record its anchor. -/
theorem mayInsert_of_writing {plan : SealPlan} {request : SealRequest}
    {sealedAt : ℤ} {archive : Archive}
    (hs : archive.Sound) (hr : plan.rowCount ≠ 0)
    (hh : Hashed request.tenantId plan segmentHash plan.toSequence archive)
    (hw : Writing filed plan (plan.anchor request segmentHash sealedAt) handle true
      plan.toSequence history archive) :
    MayInsert filed history (plan.anchor request segmentHash sealedAt) archive := by
  have hf := Planned.follows hh hr sealedAt
  obtain ⟨i, hi, hp⟩ := hh.planned.known
  refine ⟨⟨i, hi, ?_⟩, handle, hw.own, ?_, hw.holds.entry⟩
  · rw [hp] at hf
    exact hf
  · rw [hw.holds.inode]
    unfold Archive.segmentText
    rw [segmentEvents_eq (hs.events _) hf]
    rfl

/-- **`seal`** makes the calls a run may make. -/
theorem seal_triple (request : SealRequest) :
    (sealCharter filed).Triple (fun _ _ => True) (AuditSealService.seal request)
      (fun _ _ _ => True) fun _ _ => True := by
  have ht : (sealCharter filed).Lasting fun _ _ => True := lasting_const True
  unfold AuditSealService.seal
  refine Triple.bind (plan_triple request.tenantId request.pages) fun plan => ?_
  have hp : (sealCharter filed).Lasting fun _ archive => Planned request.tenantId plan archive :=
    lasting_of_extends fun _ _ he h => h.mono he
  split
  · exact Triple.fail fun _ _ _ => trivial
  next hrows =>
  refine Triple.bind (lasting_triple hp fun _ _ _ => trivial) fun _ => ?_
  split
  · exact Triple.pure fun _ _ _ => trivial
  refine Triple.bind (hash_triple request.tenantId plan request.pages) fun ⟨segmentHash, _⟩ => ?_
  have hh : (sealCharter filed).Lasting fun _ archive =>
      Hashed request.tenantId plan segmentHash plan.toSequence archive :=
    lasting_of_extends fun _ _ he h => h.mono he
  refine Triple.bind (lasting_triple hh fun _ _ _ => trivial) fun sealedAt => ?_
  set anchor := plan.anchor request segmentHash sealedAt with ha
  refine Triple.bind (M := fun _ history archive =>
    (∃ handle, Writing filed plan anchor handle true plan.toSequence history archive) ∧
      Hashed request.tenantId plan segmentHash plan.toSequence archive) ?_ fun _ => ?_
  · exact ((write_run_triple plan anchor request.pages).frame hh).mono
      (fun _ _ h => ⟨h.planned, h⟩) (fun _ _ _ h => h) fun _ _ _ => trivial
  refine Triple.bind (M := fun _ _ _ => True) ?_ fun stored => ?_
  · refine chain_triple ?_ ?_ (fun _ _ _ _ _ _ _ _ _ => trivial) fun _ _ _ _ _ _ => trivial
    · intro history archive archive' hr ⟨⟨handle, hw⟩, hhash⟩
      exact ⟨⟨handle, Writing.stable plan anchor handle true _ _ _ _ hr hw⟩,
        hh.stable _ _ _ hr hhash⟩
    · intro history archive hi ⟨⟨handle, hw⟩, hhash⟩
      exact mayInsert_of_writing hi.sound hrows hhash hw
  · refine Triple.bind (lasting_triple ht fun _ _ _ => trivial) fun occurredAt => ?_
    exact Triple.bind (lasting_triple ht fun _ _ _ => trivial) fun _ =>
      Triple.pure fun _ _ _ => trivial

/-- **Every process on the audit chains is safe.** -/
theorem seal_safe (request : ChainRequest) (archive : Archive) :
    (sealCharter filed).Safe (fun _ _ _ => True) [] request.program archive := by
  have ht : (sealCharter filed).Triple (fun _ _ => True) request.program
      (fun _ _ _ => True) fun _ _ => True := by
    cases request with
    | append input draws =>
      exact Triple.bind (lasting_triple (lasting_const True) fun _ _ _ => trivial) fun _ =>
        Triple.pure fun _ _ _ => trivial
    | seal_ request =>
      exact Triple.bind (seal_triple request) fun _ => Triple.pure fun _ _ _ => trivial
  refine (ht [] archive trivial).mono fun _ _ _ _ => trivial

/-! ### Runs -/

theorem keeps_empty : Keeps filed Archive.empty where
  sound := {
    events := fun _ => chained_nil
    anchors := fun _ i anchor h => by
      simp [Archive.anchorsOf, Archive.empty] at h
    written := fun anchor h => absurd h List.not_mem_nil }
  filed _ anchor h := absurd h List.not_mem_nil

variable {crew : Crew Archive SealProcess}

/-- The states of appends and seal runs that take turns, where a run may stop anywhere. -/
abbrev ChainReachable (cond : Machine.Condition Archive SealProcess) :
    Crew Archive SealProcess → Prop :=
  Crew.Reachable (Prog.recorder ChainRequest.program fun c archive outcome =>
    SealCall.serve c archive outcome) cond Archive.empty

/-- **The tables and the files are sound** whatever appends and seal runs do, in any order
and wherever they stop. -/
theorem reachable_sound (h : ChainReachable (fun _ _ _ => True) crew) : crew.shared.Sound := by
  have hc : Crew.Reachable (Prog.recorder ChainRequest.program (sealCharter False).serve)
      (sealCharter False).cond Archive.empty crew := h.mono fun _ _ _ _ hf => hf.elim
  exact (Charter.reachable (fun request archive _ => seal_safe request archive) keeps_empty
    hc).1.sound

/-- **Every recorded anchor has its file** where the runs leave the files of recorded
anchors and of one another alone. -/
theorem reachable_filed (h : ChainReachable LeavesFiles crew) : crew.shared.Filed := by
  have hc : Crew.Reachable (Prog.recorder ChainRequest.program (sealCharter True).serve)
      (sealCharter True).cond Archive.empty crew := h.mono fun _ _ _ hl _ => hl
  exact (Charter.reachable (fun request archive _ => seal_safe request archive) keeps_empty
    hc).1.filed trivial

end Flowdular.Audit
