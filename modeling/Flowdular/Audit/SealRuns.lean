/-
# Appends and seal runs among others

What every call of `Seal` does to the tables and the directory, and the charter the runs
are under (`sealCharter`).  A run owns the files it opened: no other run writes to them.
Whether the directory goes on naming them is another matter, for a run removes what
stands under the name it is about to write.  The charter comes in two forms: runs that may
remove anything, and runs that leave the file of a recorded anchor and the file another
run opened where they are (`LeavesFiles`).

Whatever appends and seal runs do, in any order and wherever they stop, the tables stay
sound (`reachable_sound`), and where they leave files alone every anchor keeps its file
(`reachable_filed`).
-/

import Flowdular.Audit.SealChain
import Flowdular.Lib.Charter

namespace Flowdular.Audit

open Lib Workflows
open Prog (History Recorded Reply)

/-! ### What calls do -/

/-- The handle a call opened. -/
def openedBy : (Σ c, Reply SealCall.Answer c) → Option ℕ
  | ⟨.openNew _, .ok handle⟩ => some handle
  | _ => none

/-- The handles a process opened. -/
def handles (history : History SealCall (Reply SealCall.Answer)) : List ℕ :=
  history.filterMap openedBy

@[simp] theorem handles_append (history : History SealCall (Reply SealCall.Answer))
    (entry : Σ c, Reply SealCall.Answer c) :
    handles (history ++ [entry]) = handles history ++ (openedBy entry).toList := by
  unfold handles
  rw [List.filterMap_append]
  cases h : openedBy entry <;> simp [h]

section

variable {archive : Archive}

theorem write_state (archive : Archive) (handle : ℕ) (text : String) :
    (archive.write handle text).2 = archive ∨ ∃ before,
      archive.inodes[handle]? = some ⟨before, false⟩ ∧ archive.write handle text = (.ok ⟨⟩,
          { archive with inodes := archive.inodes.set handle ⟨before ++ text, false⟩ }) := by
  unfold Archive.write
  split
  · next before h => exact .inr ⟨before, h, rfl⟩
  · exact .inl rfl

theorem close_state (archive : Archive) (handle : ℕ) :
    (archive.close handle).2 = archive ∨ ∃ text, archive.inodes[handle]? = some ⟨text, false⟩ ∧
        archive.close handle = (.ok ⟨⟩,
          { archive with inodes := archive.inodes.set handle ⟨text, true⟩ }) := by
  unfold Archive.close
  split
  · next text h => exact .inr ⟨text, h, rfl⟩
  · exact .inl rfl

/-! ### Single changes -/

/-- A file that is open changes. -/
theorem extends_set {handle : ℕ} {before : String} {inode : Inode}
    (h : archive.inodes[handle]? = some ⟨before, false⟩) :
    archive.Extends { archive with inodes := archive.inodes.set handle inode } where
  events _ := List.prefix_refl _
  anchors := List.prefix_refl _
  inodes := by simp
  closed i other hi hc := by
    have hne : handle ≠ i := by
      rintro rfl
      rw [h] at hi
      rw [← Option.some.inj hi] at hc
      cases hc
    simpa [List.getElem?_set_ne hne] using hi

theorem extends_open (name : String) : archive.Extends { archive with
      entries := archive.entries ++ [(name, archive.inodes.length)]
      inodes := archive.inodes ++ [⟨"", false⟩] } where
  events _ := List.prefix_refl _
  anchors := List.prefix_refl _
  inodes := by simp
  closed i inode hi _ := by
    have hlt := (List.getElem?_eq_some_iff.1 hi).1
    simpa [List.getElem?_append_left hlt] using hi

theorem extends_entries (entries : List (String × ℕ)) :
    archive.Extends { archive with entries := entries } where
  events _ := List.prefix_refl _
  anchors := List.prefix_refl _
  inodes := le_rfl
  closed _ _ h _ := h

theorem extends_anchor (anchor : AuditChainAnchor) :
    archive.Extends { archive with anchors := archive.anchors ++ [anchor] } where
  events _ := List.prefix_refl _
  anchors := List.prefix_append _ _
  inodes := le_rfl
  closed _ _ h _ := h

theorem extends_tables {tenantId : String} {tables : Tables}
    (h : archive.events tenantId <+: tables.events) :
    archive.Extends { archive with tables := Function.update archive.tables tenantId tables } where
  events other := by
    by_cases ho : other = tenantId
    · subst ho
      simpa [Archive.events] using h
    · simp [Archive.events, Function.update_of_ne ho]
  anchors := List.prefix_refl _
  inodes := le_rfl
  closed _ _ h _ := h

end

section

variable [SealHost] {archive : Archive} {outcome : Outcome}

/-- A call that answers was done. -/
theorem serve_ok {c : SealCall} {answer : c.Answer} (h : (c.serve archive outcome).1 = .ok answer) :
    ∃ time, c.perform time archive = (.ok answer, (c.serve archive outcome).2) := by
  cases outcome with
  | done time => exact ⟨time, Prod.ext h rfl⟩
  | lost error => cases h
  | refused error => cases h
  | cut length error => cases c <;> cases h

/-- A call is done or it changes nothing; a write may stop half way. -/
theorem serve_state (archive : Archive) (outcome : Outcome) (c : SealCall) :
    (c.serve archive outcome).2 = archive ∨
    (∃ time, (c.serve archive outcome).2 = (c.perform time archive).2) ∨
    ∃ handle text text', c = .write handle text ∧
      (c.serve archive outcome).2 = (archive.write handle text').2 := by
  cases outcome with
  | done time => exact .inr (.inl ⟨time, rfl⟩)
  | lost error => exact .inr (.inl ⟨0, rfl⟩)
  | refused error => exact .inl rfl
  | cut length error =>
    cases c with
    | write handle text => exact .inr (.inr ⟨handle, text, _, rfl, rfl⟩)
    | _ => exact .inl rfl

variable {archive' : Archive}

/-- **Soundness is kept** where events and anchors stay as they are. -/
theorem sound_of_extends (h : archive.Sound) (he : archive.Extends archive')
    (heve : ∀ tenantId, Chained (archive'.events tenantId))
    (hanc : archive'.anchors = archive.anchors) : archive'.Sound where
  events := heve
  anchors tenantId i anchor hi := by
    have hs : archive'.anchorsOf tenantId = archive.anchorsOf tenantId := by
      unfold Archive.anchorsOf
      rw [hanc]
    rw [hs] at hi ⊢
    exact (h.anchors tenantId i anchor hi).mono (he.events tenantId)
  written anchor ha := by
    rw [hanc] at ha
    obtain ⟨inode, hino, hc, ht⟩ := h.written anchor ha
    obtain ⟨i, hi⟩ := List.getElem?_of_mem hino
    refine ⟨inode, List.mem_of_getElem? (he.closed i inode hi hc), hc, ?_⟩
    rw [he.segmentText h (heve _) ha]
    exact ht

/-- The directory goes on naming the files of the anchors. -/
theorem filed_of_extends (h : archive.Filed) (hs : archive.Sound)
    (hext : archive.Extends archive') (heve : ∀ tenantId, Chained (archive'.events tenantId))
    (hanc : archive'.anchors = archive.anchors)
    (he : ∀ anchor ∈ archive.anchors, ∀ handle, (anchor.segmentFile, handle) ∈ archive.entries →
      (anchor.segmentFile, handle) ∈ archive'.entries) : archive'.Filed := by
  intro anchor ha
  rw [hanc] at ha
  obtain ⟨handle, hent, hi⟩ := h anchor ha
  refine ⟨handle, he anchor ha handle hent, ?_⟩
  rw [hext.segmentText hs (heve _) ha]
  exact hext.closed handle _ hi rfl

/-- An anchor is recorded that follows one of those that are there: the one it follows is
the newest, for else the constraints of the table refuse it. -/
theorem sound_of_insert {anchor : AuditChainAnchor} (h : archive.Sound) {i : ℕ}
    (hi : i ≤ (archive.anchorsOf anchor.tenantId).length)
    (hf : Follows (archive.events anchor.tenantId)
      ((archive.anchorsOf anchor.tenantId).take i).getLast? anchor)
    (hw : ∃ inode ∈ archive.inodes, inode.closed = true ∧ inode.text = archive.segmentText anchor)
    (hr : archive.refusesAnchor anchor = false) :
    ({ archive with anchors := archive.anchors ++ [anchor] } : Archive).Sound where
  events := h.events
  anchors tenantId j other hj := by
    have hl : ({ archive with anchors := archive.anchors ++ [anchor] } : Archive).anchorsOf tenantId =
        archive.anchorsOf tenantId ++ if anchor.tenantId = tenantId then [anchor] else [] := by
      simp only [Archive.anchorsOf, List.filter_append, List.filter_singleton, Bool.cond_decide]
    rw [hl] at hj ⊢
    by_cases ht : anchor.tenantId = tenantId
    · subst ht
      rw [if_pos rfl] at hj ⊢
      rcases Table.getElem?_append_row.1 hj with hj | ⟨rfl, rfl⟩
      · have hlt := (List.getElem?_eq_some_iff.1 hj).1
        rw [List.take_append_of_le_length hlt.le]
        exact h.anchors _ j other hj
      · rw [List.take_left]
        rcases hi.lt_or_eq with hlt | heq
        · -- an anchor stands behind the one that is followed, and has the number of the new one
          exfalso
          have hn := List.getElem?_eq_getElem hlt
          have hs := (h.anchors _ i _ hn).anchorSequence
          have hm := mem_anchorsOf.1 (List.getElem_mem hlt)
          rw [← hf.anchorSequence] at hs
          unfold Archive.refusesAnchor at hr
          rw [Bool.or_eq_false_iff, List.any_eq_false] at hr
          refine hr.2 _ hm.1 ?_
          simp [hm.2, hs]
        · rw [heq, List.take_length] at hf
          exact hf
    · rw [if_neg ht, List.append_nil] at hj ⊢
      exact h.anchors tenantId j other hj
  written other ho := by
    rcases List.mem_append.1 ho with ho | ho
    · exact h.written other ho
    · rw [List.mem_singleton.1 ho]
      exact hw

/-- The row an append stores comes behind the last one. -/
theorem chained_stored {events : List StoredAuditEvent} (h : Chained events)
    (input : AppendAuditEventInput) (draws : EventDraws) (key : Option SubjectKeyMaterial) :
    Chained (events ++ [input.stored draws events.getLast? key]) := by
  refine h.append ?_ rfl rfl
  have hs : (input.stored draws events.getLast? key).sequence =
      (events.getLast?.elim 0 (·.sequence)) + 1 := rfl
  rw [hs, List.getLast?_eq_getElem?]
  cases hl : events[events.length - 1]? with
  | none =>
    have := List.getElem?_eq_none_iff.1 hl
    have hz : events.length = 0 := by omega
    simp [hz]
  | some event =>
    have hlt := (List.getElem?_eq_some_iff.1 hl).1
    have := h.sequence _ event hl
    simp only [Option.elim_some]
    omega

theorem append_events (h : ∀ tenantId, Chained (archive.events tenantId))
    (input : AppendAuditEventInput) (draws : EventDraws) (time : ℤ) :
    let archive' := ((SealCall.appendAuditEvent input draws).perform time archive).2
    archive.Extends archive' ∧ ∀ tenantId, Chained (archive'.events tenantId) := by
  intro archive'
  set done := (RepositoryCall.appendAuditEvent input draws).perform (archive.tables input.tenantId)
    with hd
  have hs : archive' =
      { archive with tables := Function.update archive.tables input.tenantId done.2 } := rfl
  have hl : (archive.tables input.tenantId).latestAuditEvent =
      (archive.events input.tenantId).getLast? := (h input.tenantId).latest _ _
  have hm : ∀ tables : Tables, archive.events input.tenantId <+: tables.events →
      Chained tables.events →
      archive' = { archive with tables := Function.update archive.tables input.tenantId tables } →
      archive.Extends archive' ∧ ∀ tenantId, Chained (archive'.events tenantId) := by
    intro tables hpre hc heq
    rw [heq]
    refine ⟨extends_tables hpre, fun tenantId => ?_⟩
    by_cases ht : tenantId = input.tenantId
    · subst ht
      simpa [Archive.events] using hc
    · simpa [Archive.events, Function.update_of_ne ht] using h tenantId
  rcases Tables.perform_appendAuditEvent (archive.tables input.tenantId) input draws with
    ⟨key, -, -, hp⟩ | ⟨-, e, hp⟩
  · rw [hd, hp] at hs
    refine hm _ (List.prefix_append _ _) ?_ hs
    rw [hl]
    exact chained_stored (h input.tenantId) input draws key
  · rw [hd, hp] at hs
    exact hm _ (List.prefix_refl _) (h input.tenantId) hs

/-- **Every call adds to the archive**, whatever becomes of it. -/
theorem serve_extends (outcome : Outcome) (c : SealCall)
    (h : ∀ tenantId, Chained (archive.events tenantId)) :
    archive.Extends (c.serve archive outcome).2 ∧
      ∀ tenantId, Chained ((c.serve archive outcome).2.events tenantId) := by
  have hs : archive.Extends archive ∧ ∀ tenantId, Chained (archive.events tenantId) :=
    ⟨.refl archive, h⟩
  have hw : ∀ handle text, archive.Extends (archive.write handle text).2 ∧
      ∀ tenantId, Chained ((archive.write handle text).2.events tenantId) := by
    intro handle text
    rcases write_state archive handle text with heq | ⟨before, hb, heq⟩
    · rw [heq]
      exact hs
    · rw [heq]
      exact ⟨extends_set hb, h⟩
  rcases serve_state archive outcome c with
    heq | ⟨time, heq⟩ | ⟨handle, text, text', rfl, heq⟩
  · rw [heq]
    exact hs
  · rw [heq]
    cases c with
    | latestAnchor => exact hs
    | sealAuditEventsPage => exact hs
    | now => exact hs
    | directory => exact hs
    | mkdir => exact hs
    | write handle text => exact hw handle text
    | close handle =>
      rcases close_state archive handle with hc | ⟨before, hb, hc⟩
      · rw [SealCall.perform, hc]
        exact hs
      · rw [SealCall.perform, hc]
        exact ⟨extends_set hb, h⟩
    | appendAuditEvent input draws => exact append_events h input draws time
    | insertAnchor anchor =>
      rw [SealCall.perform]
      split
      · exact hs
      · exact ⟨extends_anchor anchor, h⟩
    | rm name => exact ⟨extends_entries _, h⟩
    | openNew name =>
      rw [SealCall.perform]
      split
      · exact hs
      · exact ⟨extends_open name, h⟩
  · rw [heq]
    exact hw handle text'

/-! ### The charter -/

/-- A process on the audit chains. -/
abbrev SealProcess :=
  Recorded SealCall (Reply SealCall.Answer) PUnit

/-- The history of such a process. -/
abbrev SealHistory :=
  History SealCall (Reply SealCall.Answer)

omit [SealHost] in
/-- A run that is about to remove a file leaves that of a recorded anchor, and one that
another process opened, where they are. -/
def LeavesFiles : Machine.Condition Archive SealProcess :=
  fun archive others p => ∀ name next, p.rest = .call (.rm name) next →
    (∀ anchor ∈ archive.anchors, anchor.segmentFile ≠ name) ∧
      ∀ q ∈ others, ∀ handle ∈ handles q.history, (name, handle) ∉ archive.entries

variable (filed : Prop)

/-- A run may record an anchor that follows one of those that are there, once it has
written and closed the whole file. -/
structure MayInsert (history : SealHistory) (anchor : AuditChainAnchor) (archive : Archive) : Prop where
  follows : ∃ i ≤ (archive.anchorsOf anchor.tenantId).length,
    Follows (archive.events anchor.tenantId) ((archive.anchorsOf anchor.tenantId).take i).getLast? anchor
  file : ∃ handle ∈ handles history,
    archive.inodes[handle]? = some ⟨archive.segmentText anchor, true⟩ ∧
      (filed → (anchor.segmentFile, handle) ∈ archive.entries)

/-- The calls a run may make. -/
def MayCall (history : SealHistory) : SealCall → Archive → Prop
  | .insertAnchor anchor, archive => MayInsert filed history anchor archive
  | .write handle _, _ => handle ∈ handles history
  | .close handle, _ => handle ∈ handles history
  | _, _ => True

/-- What the others leave to a run: everything is only added to, and its files are its own. -/
structure Relies (history : SealHistory) (archive archive' : Archive) : Prop where
  grows : archive.Extends archive'
  inodes : ∀ handle ∈ handles history, archive'.inodes[handle]? = archive.inodes[handle]?
  entries : filed → ∀ name, ∀ handle ∈ handles history, (name, handle) ∈ archive.entries →
    (name, handle) ∈ archive'.entries

/-- The invariant of the tables and the directory. -/
structure Keeps (archive : Archive) : Prop where
  sound : archive.Sound
  filed : filed → archive.Filed

variable {filed} {history : SealHistory} {others : List SealProcess}

omit [SealHost] in
theorem Relies.of_extends (hext : archive.Extends archive')
    (hi : ∀ handle ∈ handles history, archive'.inodes[handle]? = archive.inodes[handle]?)
    (he : archive.entries ⊆ archive'.entries) : Relies filed history archive archive' :=
  ⟨hext, hi, fun _ _ _ _ hent => he hent⟩

theorem Keeps.of_extends (h : Keeps filed archive)
    (hext : archive.Extends archive') (heve : ∀ tenantId, Chained (archive'.events tenantId))
    (ha : archive'.anchors = archive.anchors)
    (he : filed → ∀ anchor ∈ archive.anchors, ∀ handle,
      (anchor.segmentFile, handle) ∈ archive.entries →
        (anchor.segmentFile, handle) ∈ archive'.entries) : Keeps filed archive' where
  sound := sound_of_extends h.sound hext heve ha
  filed hf :=
    filed_of_extends (h.filed hf) h.sound hext heve ha (he hf)

/-- A file that a run opened and has not closed changes. -/
theorem keeps_set (h : Keeps filed archive)
    (ho : ∀ q ∈ others, ∀ handle ∈ handles q.history, handle ∉ handles history)
    {handle : ℕ} (hh : handle ∈ handles history) {before : String} {inode : Inode}
    (hb : archive.inodes[handle]? = some ⟨before, false⟩) :
    let archive' : Archive := { archive with inodes := archive.inodes.set handle inode }
    Keeps filed archive' ∧ ∀ q ∈ others, Relies filed q.history archive archive' := by
  intro archive'
  have he : archive.Extends archive' := extends_set hb
  refine ⟨h.of_extends he h.sound.events rfl fun _ _ _ _ hent => hent, fun q hq => ?_⟩
  refine .of_extends he (fun other hoth => ?_) (List.Subset.refl _)
  have hne : handle ≠ other := by
    rintro rfl
    exact ho q hq handle hoth hh
  simp [archive', List.getElem?_set_ne hne]

/-- **What a call that may be made does**: the invariant is kept, and the others find what
they rely on. -/
theorem keeps_serve (outcome : Outcome) (c : SealCall) (h : Keeps filed archive)
    (hk : ∀ q ∈ others, ∀ handle ∈ handles q.history, handle < archive.inodes.length)
    (hoth : ∀ q ∈ others, ∀ handle ∈ handles q.history, handle ∉ handles history)
    (hcond : filed → ∀ name, c = .rm name → (∀ anchor ∈ archive.anchors, anchor.segmentFile ≠ name) ∧
      ∀ q ∈ others, ∀ handle ∈ handles q.history, (name, handle) ∉ archive.entries)
    (hc : MayCall filed history c archive) :
    Keeps filed (c.serve archive outcome).2 ∧
      ∀ q ∈ others, Relies filed q.history archive (c.serve archive outcome).2 := by
  have hs : Keeps filed archive ∧ ∀ q ∈ others, Relies filed q.history archive archive :=
    ⟨h, fun q _ => .of_extends (.refl _) (fun _ _ => rfl) (List.Subset.refl _)⟩
  have hw : ∀ {handle text}, handle ∈ handles history →
      Keeps filed (archive.write handle text).2 ∧
        ∀ q ∈ others, Relies filed q.history archive (archive.write handle text).2 := by
    intro handle text hh
    rcases write_state archive handle text with heq | ⟨before, hb, heq⟩
    · rw [heq]
      exact hs
    · rw [heq]
      exact keeps_set h hoth hh hb
  obtain ⟨he, heve⟩ := serve_extends outcome c h.sound.events
  rcases serve_state archive outcome c with
    heq | ⟨time, heq⟩ | ⟨handle, text, text', rfl, heq⟩
  · rw [heq]
    exact hs
  · rw [heq] at he heve ⊢
    cases c with
    | latestAnchor => exact hs
    | sealAuditEventsPage => exact hs
    | now => exact hs
    | directory => exact hs
    | mkdir => exact hs
    | write handle text => exact hw hc
    | close handle =>
      rcases close_state archive handle with hclo | ⟨before, hb, hclo⟩
      · rw [SealCall.perform, hclo]
        exact hs
      · rw [SealCall.perform, hclo]
        exact keeps_set h hoth hc hb
    | appendAuditEvent input draws =>
      refine ⟨h.of_extends he heve rfl fun _ _ _ _ hent => hent, fun q _ => ?_⟩
      exact .of_extends he (fun _ _ => rfl) (List.Subset.refl _)
    | insertAnchor anchor =>
      rw [SealCall.perform] at he heve ⊢
      split at he
      · next hr =>
        rw [if_pos hr]
        exact hs
      · next hr =>
        rw [if_neg hr]
        obtain ⟨⟨i, hi, hfol⟩, handle, hh, hf, hent⟩ := hc
        refine ⟨⟨sound_of_insert h.sound hi hfol ⟨_, List.mem_of_getElem? hf, rfl, rfl⟩
          (by simpa using hr), fun hfil other ho => ?_⟩, fun q _ => ?_⟩
        · rcases List.mem_append.1 ho with ho | ho
          · exact h.filed hfil other ho
          · rw [List.mem_singleton.1 ho]
            exact ⟨handle, hent hfil, hf⟩
        · exact .of_extends he (fun _ _ => rfl) (List.Subset.refl _)
    | rm name =>
      refine ⟨h.of_extends he heve rfl fun hfil anchor ha handle hent => ?_,
        fun q hq => ⟨he, fun _ _ => rfl, fun hfil other handle hh hent => ?_⟩⟩
      · have hne := (hcond hfil name rfl).1 anchor ha
        exact List.mem_filter.2 ⟨hent, by simpa using hne⟩
      · refine List.mem_filter.2 ⟨hent, ?_⟩
        have hn := (hcond hfil name rfl).2 q hq handle hh
        have hne : other ≠ name := by
          rintro rfl
          exact hn hent
        simpa using hne
    | openNew name =>
      rw [SealCall.perform] at he heve ⊢
      split at he
      · next hexi =>
        rw [if_pos hexi]
        exact hs
      · next hexi =>
        rw [if_neg hexi] at heve ⊢
        refine ⟨h.of_extends he heve rfl fun _ _ _ _ hent =>
          List.mem_append_left _ hent, fun q hq => ?_⟩
        refine .of_extends he (fun handle hh => ?_) (List.subset_append_left _ _)
        exact List.getElem?_append_left (hk q hq handle hh)
  · rw [heq]
    exact hw hc

/-- The handle a call opens is a new one. -/
theorem serve_opens (archive : Archive) (outcome : Outcome) (c : SealCall) :
    openedBy ⟨c, (c.serve archive outcome).1⟩ = none ∨
      openedBy ⟨c, (c.serve archive outcome).1⟩ = some archive.inodes.length ∧
        (c.serve archive outcome).2.inodes.length = archive.inodes.length + 1 := by
  cases c with
  | openNew name =>
    cases outcome with
    | done time =>
      rw [SealCall.serve, SealCall.perform]
      split
      · exact .inl rfl
      · exact .inr ⟨rfl, by simp⟩
    | _ => exact .inl rfl
  | _ => exact .inl rfl

/-- The charter of appends and seal runs. -/
def sealCharter (filed : Prop) : Charter SealCall (Reply SealCall.Answer) PUnit Archive Outcome where
  serve c archive outcome := c.serve archive outcome
  cond archive others p := filed → LeavesFiles archive others p
  inv := Keeps filed
  knows history archive := ∀ handle ∈ handles history, handle < archive.inodes.length
  apart history history' := ∀ handle ∈ handles history', handle ∉ handles history
  rely := Relies filed
  ok := MayCall filed
  apart_symm h handle hhandle hother := h handle hother hhandle
  apart_nil _ _ _ := List.not_mem_nil
  knows_nil _ _ h := absurd h List.not_mem_nil
  refl _ archive := .of_extends (.refl archive) (fun _ _ => rfl) (List.Subset.refl _)
  trans h h' := {
    grows := h.grows.trans h'.grows
    inodes := fun handle hhandle => (h'.inodes handle hhandle).trans (h.inodes handle hhandle)
    entries := fun hfiled name handle hhandle hentry =>
      h'.entries hfiled name handle hhandle (h.entries hfiled name handle hhandle hentry) }
  knows_rely h hrely handle hhandle := (h handle hhandle).trans_le hrely.grows.inodes
  keeps := by
    intro history archive c outcome others next hinv hknows hothers hcond hok
    obtain ⟨hextends, -⟩ := serve_extends outcome c hinv.sound.events
    obtain ⟨hkeeps, hrelies⟩ := keeps_serve outcome c hinv
      (fun q hq => (hothers q hq).1) (fun q hq => (hothers q hq).2)
      (fun hfiled name hname => hcond hfiled name (hname ▸ next) (by subst hname; rfl)) hok
    rcases serve_opens archive outcome c with hopened | ⟨hopened, hlength⟩
    · refine ⟨hkeeps, fun handle hhandle => ?_, fun q hq => ⟨hrelies q hq, fun handle hhandle => ?_⟩⟩
      · rw [handles_append, hopened, Option.toList_none, List.append_nil] at hhandle
        exact (hknows handle hhandle).trans_le hextends.inodes
      · rw [handles_append, hopened, Option.toList_none, List.append_nil]
        exact (hothers q hq).2 handle hhandle
    · refine ⟨hkeeps, fun handle hhandle => ?_, fun q hq => ⟨hrelies q hq, fun handle hhandle => ?_⟩⟩
      · rw [hlength]
        rw [handles_append, hopened] at hhandle
        rcases List.mem_append.1 hhandle with hhandle | hhandle
        · have := hknows handle hhandle
          omega
        · have : handle = archive.inodes.length := by simpa using hhandle
          omega
      · rw [handles_append, hopened, List.mem_append]
        rintro (hmem | hmem)
        · exact (hothers q hq).2 handle hhandle hmem
        · have hlt := (hothers q hq).1 handle hhandle
          have : handle = archive.inodes.length := by simpa using hmem
          omega

end

end Flowdular.Audit
