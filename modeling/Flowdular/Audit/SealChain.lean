/-
# What seal runs leave behind

The events of a workspace are numbered from one and each carries the hash of its columns
and of the event before it (`Chained`).  Every anchor closes the range behind the anchor
before it and commits to the hashes of its events (`Follows`).  Of every recorded anchor a
whole segment file was written (`Archive.Sound`), and as long as nobody removes it the
directory names it (`Archive.Filed`).  Events and anchors are only ever appended, which
changes no range that an anchor closed (`Archive.Extends`).
-/

import Flowdular.Audit.Seal

namespace Flowdular.Audit

open Lib Workflows

/-! ### Events -/

/-- The events of a workspace, as appends leave them. -/
structure Chained [AuditHost] (events : List StoredAuditEvent) : Prop where
  sequence : ∀ (i : ℕ) e, events[i]? = some e → e.sequence = i + 1
  hash : ∀ e ∈ events, e.eventHash = storedAuditEventHash e
  link : ∀ (i : ℕ) e, events[i]? = some e → e.previousHash = ((events.take i).getLast?).map (·.eventHash)

/-- The events behind a sequence, up to another one. -/
def between (events : List StoredAuditEvent) (after through : ℤ) : List StoredAuditEvent :=
  (events.drop after.toNat).take (through - after).toNat

section

variable [AuditHost] {events : List StoredAuditEvent}

theorem chained_nil : Chained ([] : List StoredAuditEvent) where
  sequence i e h := by simp at h
  hash e h := by simp at h
  link i e h := by simp at h

theorem Chained.append (h : Chained events) {event : StoredAuditEvent}
    (hs : event.sequence = events.length + 1)
    (hh : event.eventHash = storedAuditEventHash event)
    (hl : event.previousHash = events.getLast?.map (·.eventHash)) :
    Chained (events ++ [event]) where
  sequence i e hi := by
    rcases Table.getElem?_append_row.1 hi with hi | ⟨rfl, rfl⟩
    · exact h.sequence i e hi
    · exact hs
  hash e he := by
    rcases List.mem_append.1 he with he | he
    · exact h.hash e he
    · rw [List.mem_singleton.1 he]
      exact hh
  link i e hi := by
    rcases Table.getElem?_append_row.1 hi with hi | ⟨rfl, rfl⟩
    · have hlt : i < events.length := (List.getElem?_eq_some_iff.1 hi).1
      rw [List.take_append_of_le_length hlt.le]
      exact h.link i e hi
    · rw [List.take_left]
      exact hl

theorem Chained.pairwise (h : Chained events) :
    events.Pairwise fun a b => a.sequence < b.sequence := by
  rw [List.pairwise_iff_getElem]
  intro i j hi hj hij
  have hf := h.sequence i _ (List.getElem?_eq_getElem hi)
  have hs := h.sequence j _ (List.getElem?_eq_getElem hj)
  omega

theorem Chained.latest (h : Chained events) (keys : List SubjectKeyRow)
    (holds : List AuditLegalHold) :
    (⟨holds, keys, events⟩ : Tables).latestAuditEvent = events.getLast? := by
  unfold Tables.latestAuditEvent
  rw [Table.insertionSort_reverse h.pairwise, List.head?_reverse]

/-- The events with a greater sequence are those that come later. -/
theorem Chained.filter_eq (h : Chained events) {after : ℤ} (ha : 0 ≤ after) :
    (events.filter fun event => after < event.sequence) = events.drop after.toNat := by
  have hf : (events.take after.toNat).filter (fun event => after < event.sequence) = [] := by
    refine List.filter_eq_nil_iff.2 fun event he => ?_
    obtain ⟨i, hi⟩ := List.getElem?_of_mem he
    rw [List.getElem?_take] at hi
    split at hi
    · next hlt =>
      have := h.sequence i event hi
      simp only [decide_eq_true_eq]
      omega
    · cases hi
  have hb : (events.drop after.toNat).filter (fun event => after < event.sequence) =
      events.drop after.toNat := by
    refine List.filter_eq_self.2 fun event he => ?_
    obtain ⟨i, hi⟩ := List.getElem?_of_mem he
    rw [List.getElem?_drop] at hi
    have := h.sequence _ event hi
    simp only [decide_eq_true_eq]
    omega
  conv_lhs => rw [← List.take_append_drop after.toNat events]
  rw [List.filter_append, hf, hb, List.nil_append]

/-- A page of the walk is a piece of the list of events. -/
theorem Chained.page (archive : Archive) {tenantId : String} (h : Chained (archive.events tenantId))
    {after : ℤ} (ha : 0 ≤ after) (limit : ℕ) :
    archive.sealAuditEventsPage tenantId after limit =
      ((archive.events tenantId).drop after.toNat).take limit := by
  unfold Archive.sealAuditEventsPage
  rw [h.filter_eq ha, List.Pairwise.insertionSort_eq]
  exact (h.pairwise.sublist (List.drop_sublist _ _)).imp le_of_lt

/-- The events of a range. -/
theorem Chained.between_eq (h : Chained events) {after through : ℤ} (ha : 0 ≤ after) :
    between events after through =
      events.filter fun event => after < event.sequence ∧ event.sequence ≤ through := by
  have hs : (events.filter fun event => after < event.sequence ∧ event.sequence ≤ through) =
      (events.filter fun event => after < event.sequence).filter fun event =>
        event.sequence ≤ through := by
    rw [List.filter_filter]
    refine List.filter_congr fun event _ => ?_
    simp only [Bool.decide_and, Bool.and_comm]
  rw [hs, h.filter_eq ha, between]
  conv_rhs => rw [← List.take_append_drop (through - after).toNat (events.drop after.toNat)]
  rw [List.filter_append]
  have hf : ((events.drop after.toNat).take (through - after).toNat).filter
      (fun event => event.sequence ≤ through) =
        (events.drop after.toNat).take (through - after).toNat := by
    refine List.filter_eq_self.2 fun event he => ?_
    obtain ⟨i, hi⟩ := List.getElem?_of_mem he
    rw [List.getElem?_take] at hi
    split at hi
    · next hlt =>
      rw [List.getElem?_drop] at hi
      have := h.sequence _ event hi
      simp only [decide_eq_true_eq]
      omega
    · cases hi
  have hb : ((events.drop after.toNat).drop (through - after).toNat).filter
      (fun event => event.sequence ≤ through) = [] := by
    refine List.filter_eq_nil_iff.2 fun event he => ?_
    obtain ⟨i, hi⟩ := List.getElem?_of_mem he
    rw [List.getElem?_drop, List.getElem?_drop] at hi
    have := h.sequence _ event hi
    simp only [decide_eq_true_eq]
    omega
  rw [hf, hb, List.append_nil]

end

theorem between_self (events : List StoredAuditEvent) (after : ℤ) : between events after after = [] := by
  simp [between]

theorem between_succ {events : List StoredAuditEvent} {after c : ℤ} (ha : 0 ≤ after)
    (hc : after ≤ c) {event : StoredAuditEvent} (h : events[c.toNat]? = some event) :
    between events after (c + 1) = between events after c ++ [event] := by
  have hi : after.toNat + (c - after).toNat = c.toNat := by omega
  have hs : (c + 1 - after).toNat = (c - after).toNat + 1 := by omega
  unfold between
  rw [hs, List.take_add_one, List.getElem?_drop, hi, h]
  rfl

/-- Later events do not change a range. -/
theorem between_of_le {events events' : List StoredAuditEvent} (h : events <+: events')
    {after through : ℤ} (ha : 0 ≤ after) (ht : through ≤ events.length) :
    between events' after through = between events after through := by
  obtain ⟨rest, rfl⟩ := h
  unfold between
  rcases le_total through after with hle | hle
  · have hz : (through - after).toNat = 0 := by omega
    rw [hz, List.take_zero, List.take_zero]
  · rw [List.drop_append_of_le_length (by omega), List.take_append_of_le_length]
    rw [List.length_drop]
    omega

/-! ### Segments -/

/-- The events of the range of an anchor. -/
def Archive.segmentEvents (archive : Archive) (anchor : AuditChainAnchor) : List StoredAuditEvent :=
  (archive.events anchor.tenantId).filter fun event =>
    anchor.fromSequence ≤ event.sequence ∧ event.sequence ≤ anchor.toSequence

/-- The text of the segment file of an anchor. -/
def Archive.segmentText (archive : Archive) (anchor : AuditChainAnchor) : String :=
  Audit.segmentText anchor (archive.segmentEvents anchor)

theorem mem_anchorsOf {archive : Archive} {tenantId : String} {anchor : AuditChainAnchor} :
    anchor ∈ archive.anchorsOf tenantId ↔ anchor ∈ archive.anchors ∧ anchor.tenantId = tenantId := by
  simp [Archive.anchorsOf]

/-- The directory names the whole segment file of every anchor. -/
def Archive.Filed (archive : Archive) : Prop :=
  ∀ anchor ∈ archive.anchors, ∃ handle, (anchor.segmentFile, handle) ∈ archive.entries ∧
    archive.inodes[handle]? = some ⟨archive.segmentText anchor, true⟩

/-! ### What grows -/

/-- Events and anchors are appended, and a closed file is never touched. -/
structure Archive.Extends (archive archive' : Archive) : Prop where
  events : ∀ tenantId, archive.events tenantId <+: archive'.events tenantId
  anchors : archive.anchors <+: archive'.anchors
  inodes : archive.inodes.length ≤ archive'.inodes.length
  closed : ∀ (i : ℕ) inode, archive.inodes[i]? = some inode → inode.closed = true →
    archive'.inodes[i]? = some inode

theorem Archive.Extends.refl (archive : Archive) : archive.Extends archive where
  events _ := List.prefix_refl _
  anchors := List.prefix_refl _
  inodes := le_rfl
  closed _ _ h _ := h

theorem Archive.Extends.trans {a b c : Archive} (h : a.Extends b) (h' : b.Extends c) :
    a.Extends c where
  events tenantId := (h.events tenantId).trans (h'.events tenantId)
  anchors := h.anchors.trans h'.anchors
  inodes := h.inodes.trans h'.inodes
  closed i inode hi hc := h'.closed i inode (h.closed i inode hi hc) hc

theorem Archive.Extends.anchorsOf {archive archive' : Archive} (h : archive.Extends archive')
    (tenantId : String) : archive.anchorsOf tenantId <+: archive'.anchorsOf tenantId :=
  h.anchors.filter _

section

variable [SealHost]

/-! ### Anchors -/

/-- An anchor closes the range behind another one and commits to its events. -/
structure Follows (events : List StoredAuditEvent) (previous : Option AuditChainAnchor)
    (anchor : AuditChainAnchor) : Prop where
  anchorSequence : anchor.anchorSequence = previous.elim 0 (·.anchorSequence) + 1
  fromSequence : anchor.fromSequence = sealedThrough previous + 1
  toSequence : anchor.toSequence = sealedThrough previous + anchor.rowCount
  rowCount : 0 < anchor.rowCount
  behind : 0 ≤ sealedThrough previous
  covered : anchor.toSequence ≤ events.length
  segmentHash : anchor.segmentHash = segmentChain (previous.map (·.anchorHash))
    ((between events (sealedThrough previous) anchor.toSequence).map (·.eventHash))
  previousAnchorHash : anchor.previousAnchorHash = previous.map (·.anchorHash)
  anchorHash : anchor.anchorHash = anchor.hashOf
  signed : ∃ signer : AnchorSigner,
    anchor.keyId = signer.keyId ∧ anchor.signature = signer.sign anchor.anchorHash
  segmentFile :
    anchor.segmentFile = segmentName anchor.tenantId anchor.fromSequence anchor.toSequence

variable {anchor : AuditChainAnchor} {previous : Option AuditChainAnchor} {tenantId : String}

theorem Follows.mono {events events' : List StoredAuditEvent}
    (h : Follows events previous anchor) (he : events <+: events') :
    Follows events' previous anchor where
  anchorSequence := h.anchorSequence
  fromSequence := h.fromSequence
  toSequence := h.toSequence
  rowCount := h.rowCount
  behind := h.behind
  covered := by
    have := he.length_le
    have := h.covered
    omega
  segmentHash := by
    rw [between_of_le he h.behind h.covered]
    exact h.segmentHash
  previousAnchorHash := h.previousAnchorHash
  anchorHash := h.anchorHash
  signed := h.signed
  segmentFile := h.segmentFile

/-- What holds of the tables and the files whatever appends and seal runs do. -/
structure Archive.Sound (archive : Archive) : Prop where
  events : ∀ tenantId, Chained (archive.events tenantId)
  anchors : ∀ tenantId i anchor, (archive.anchorsOf tenantId)[i]? = some anchor →
    Follows (archive.events tenantId) ((archive.anchorsOf tenantId).take i).getLast? anchor
  written : ∀ anchor ∈ archive.anchors, ∃ inode ∈ archive.inodes,
    inode.closed = true ∧ inode.text = archive.segmentText anchor

theorem segmentEvents_eq {archive : Archive} (he : Chained (archive.events anchor.tenantId))
    (h : Follows (archive.events anchor.tenantId) previous anchor) :
    archive.segmentEvents anchor =
      between (archive.events anchor.tenantId) (sealedThrough previous) anchor.toSequence := by
  rw [he.between_eq h.behind]
  refine List.filter_congr fun event _ => ?_
  have hf := h.fromSequence
  rw [decide_eq_decide]
  omega

/-- What a recorded anchor follows. -/
theorem Archive.Sound.follows {archive : Archive} (h : archive.Sound)
    (ha : anchor ∈ archive.anchors) :
    ∃ previous, Follows (archive.events anchor.tenantId) previous anchor := by
  obtain ⟨i, hi⟩ := List.getElem?_of_mem (mem_anchorsOf.2 ⟨ha, rfl⟩)
  exact ⟨_, h.anchors _ i anchor hi⟩

theorem Archive.Extends.segmentText {archive archive' : Archive} (h : archive.Extends archive')
    (hs : archive.Sound)
    (he : Chained (archive'.events anchor.tenantId)) (ha : anchor ∈ archive.anchors) :
    archive'.segmentText anchor = archive.segmentText anchor := by
  obtain ⟨previous, hf⟩ := hs.follows ha
  have hp := h.events anchor.tenantId
  unfold Archive.segmentText
  rw [segmentEvents_eq he (hf.mono hp), segmentEvents_eq (hs.events _) hf,
    between_of_le hp hf.behind hf.covered]

/-- The anchor behind another one follows it. -/
theorem Archive.Sound.next {archive : Archive} (h : archive.Sound) {i : ℕ}
    {other : AuditChainAnchor} (hi : (archive.anchorsOf tenantId)[i]? = some anchor)
    (hn : (archive.anchorsOf tenantId)[i + 1]? = some other) :
    Follows (archive.events tenantId) (some anchor) other := by
  have hl : ((archive.anchorsOf tenantId).take (i + 1)).getLast? = some anchor := by
    rw [List.take_add_one, hi, Option.toList_some, List.getLast?_concat]
  have hs := h.anchors tenantId (i + 1) other hn
  rw [hl] at hs
  exact hs

/-- The anchors of a workspace are numbered from one. -/
theorem Archive.Sound.anchorSequence {archive : Archive} (h : archive.Sound) :
    ∀ (i : ℕ) {anchor : AuditChainAnchor}, (archive.anchorsOf tenantId)[i]? = some anchor →
      anchor.anchorSequence = i + 1 := by
  intro i
  induction i with
  | zero =>
    intro anchor hi
    simpa using (h.anchors tenantId 0 anchor hi).anchorSequence
  | succ i ih =>
    intro anchor hi
    have hlt := (List.getElem?_eq_some_iff.1 hi).1
    have hlt' : i < (archive.anchorsOf tenantId).length := by omega
    have hb := List.getElem?_eq_getElem hlt'
    have hs := (h.next hb hi).anchorSequence
    have := ih hb
    simp only [Option.elim_some] at hs
    push_cast
    omega

/-- The ranges of the anchors lie one behind the other. -/
theorem Archive.Sound.ranges {archive : Archive} (h : archive.Sound) (tenantId : String) :
    (archive.anchorsOf tenantId).Pairwise fun a b => a.toSequence < b.fromSequence := by
  have hr : ∀ anchor ∈ archive.anchorsOf tenantId, anchor.fromSequence ≤ anchor.toSequence := by
    intro anchor ha
    obtain ⟨i, hi⟩ := List.getElem?_of_mem ha
    have hf := h.anchors tenantId i anchor hi
    have := hf.fromSequence
    have := hf.toSequence
    have := hf.rowCount
    omega
  rw [List.pairwise_iff_getElem]
  intro i j hi hj hij
  induction j, hij using Nat.le_induction with
  | base =>
    have hs := (h.next (List.getElem?_eq_getElem hi) (List.getElem?_eq_getElem hj)).fromSequence
    have ht : sealedThrough (some (archive.anchorsOf tenantId)[i]) =
      (archive.anchorsOf tenantId)[i].toSequence := rfl
    omega
  | succ j hij ih =>
    have hj' : j < (archive.anchorsOf tenantId).length := by omega
    have hb := ih hj'
    have hs := (h.next (List.getElem?_eq_getElem hj') (List.getElem?_eq_getElem hj)).fromSequence
    have ht : sealedThrough (some (archive.anchorsOf tenantId)[j]) =
      (archive.anchorsOf tenantId)[j].toSequence := rfl
    have := hr _ (List.getElem_mem hj')
    omega

theorem Archive.Sound.pairwise {archive : Archive} (h : archive.Sound) (tenantId : String) :
    (archive.anchorsOf tenantId).Pairwise fun a b => a.anchorSequence < b.anchorSequence := by
  rw [List.pairwise_iff_getElem]
  intro i j hi hj hij
  have hf := h.anchorSequence i (List.getElem?_eq_getElem hi)
  have hs := h.anchorSequence j (List.getElem?_eq_getElem hj)
  omega

/-- The anchors a pass reads, newest first. -/
theorem Archive.Sound.listAnchors {archive : Archive} (h : archive.Sound) (tenantId : String)
    (limit : ℕ) : archive.listAnchors tenantId limit =
      (archive.anchorsOf tenantId).reverse.take limit := by
  unfold Archive.listAnchors
  rw [Table.insertionSort_reverse (h.pairwise tenantId)]

theorem Archive.Sound.latestAnchor {archive : Archive} (h : archive.Sound) (tenantId : String) :
    archive.latestAnchor tenantId = (archive.anchorsOf tenantId).getLast? := by
  unfold Archive.latestAnchor
  rw [h.listAnchors, List.head?_take, if_neg one_ne_zero, List.head?_reverse]

end

end Flowdular.Audit
