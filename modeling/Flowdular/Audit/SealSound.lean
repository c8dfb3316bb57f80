/-
# A pass that reports ok

Where the digest has no collisions, the hash of an anchor commits to its range and to the
hashes of its events, and the hash of an event to the columns it covers
(`segment_commits`).  What stands in a line and is neither hashed nor compared is an edit
nobody sees: who sealed an anchor and when, the writing of its signature, the metadata of
an event whose payload is sealed, and whether a column that holds nothing is there
(`Agrees`).  A pass accepts different anchors only, so it has read all it looked for, and
the segments are what the runs wrote exactly where no edit touched such a column or a file
the pass does not read (`verify_sound`).
-/

import Flowdular.Audit.SealLines
import Flowdular.Audit.SealSafe
import Flowdular.Lib.HashChain

namespace Flowdular.Audit

open Lib Workflows

/-! ### What is covered by no hash -/

/-- The columns of an anchor line that no hash and no comparison covers. -/
structure SegmentAnchorLine.Agrees (line written : SegmentAnchorLine) : Prop where
  previousAnchorHash : line.previousAnchorHash ≠ none
  signature : line.signature = written.signature
  keyId : line.keyId = written.keyId
  sealedBy : line.sealedBy = written.sealedBy
  sealedAt : line.sealedAt = written.sealedAt

/-- The columns of an event line that no hash and no comparison covers. -/
structure SegmentEventLine.Agrees (line written : SegmentEventLine) : Prop where
  subjectKeyId : line.subjectKeyId ≠ none
  sealFormat : line.sealFormat ≠ none
  sealedPayload : written.sealedPayload ≠ some .null → line.sealedPayload = written.sealedPayload
  metadataJson : written.sealedPayload ≠ some .null → line.metadataJson = written.metadataJson

/-- A segment agrees with another one in the columns that nothing covers. -/
structure Segment.Agrees (segment written : Segment) : Prop where
  anchor : ∀ line other, segment.anchor = some line → written.anchor = some other → line.Agrees other
  events : ∀ (i : ℕ) line other, segment.events[i]? = some (some line) →
    written.events[i]? = some (some other) → line.Agrees other

/-! ### Columns -/

variable {value : Option Json} {anchor : AuditChainAnchor} {line : SegmentAnchorLine}
  {event : StoredAuditEvent}

theorem column_eq {j : Json} (h : column value = j) (hj : j ≠ .null) : value = some j := by
  cases value with
  | none => exact absurd h.symm hj
  | some _ => exact congrArg some h

theorem column_nullable {s : Option String}
    (h : column value = nullable s) (hv : value ≠ none) : value = nullColumn s := by
  cases value with
  | none => exact absurd rfl hv
  | some _ => exact congrArg some h

theorem integer_injective : Function.Injective integer := by
  intro a b h
  exact Decimal.ofInt_injective (Json.num.inj h)

/-! ### Anchors -/

/-- An anchor line says what the hash of an anchor covers. -/
structure SegmentAnchorLine.Commits (line : SegmentAnchorLine) (anchor : AuditChainAnchor) : Prop where
  tenantId : line.tenantId = some (.str anchor.tenantId)
  anchorSequence : line.anchorSequence = anchor.anchorSequence
  fromSequence : line.fromSequence = anchor.fromSequence
  toSequence : line.toSequence = anchor.toSequence
  rowCount : line.rowCount = anchor.rowCount
  firstOccurredAt : line.firstOccurredAt = some (integer anchor.firstOccurredAt)
  lastOccurredAt : line.lastOccurredAt = some (integer anchor.lastOccurredAt)
  segmentHash : line.segmentHash = anchor.segmentHash
  previousAnchorHash : column line.previousAnchorHash = nullable anchor.previousAnchorHash
  anchorHash : line.anchorHash = anchor.anchorHash

/-- **The hash of an anchor commits to its fields.** -/
theorem anchor_commits [Host] (hsha : Function.Injective Host.sha256)
    (hl : line.hashOf = line.anchorHash)
    (ha : anchor.anchorHash = anchor.hashOf) (hs : anchor.anchorHash = line.anchorHash) :
    line.Commits anchor := by
  have hh : line.hashOf = anchor.hashOf := by rw [hl, ← hs, ha]
  have hv := Json.stringify_injective (hsha hh)
  simp only [Json.arr.injEq, List.cons.injEq, Json.str.injEq, and_true] at hv
  obtain ⟨ht, hseq, hf, hto, hr, hfir, hlast, hseg, hp⟩ := hv
  exact {
    tenantId := column_eq ht (by simp)
    anchorSequence := integer_injective hseq
    fromSequence := integer_injective hf
    toSequence := integer_injective hto
    rowCount := integer_injective hr
    firstOccurredAt := column_eq hfir (by simp [integer])
    lastOccurredAt := column_eq hlast (by simp [integer])
    segmentHash := hseg
    previousAnchorHash := hp
    anchorHash := hs.symm }

/-- What is left of an anchor line. -/
theorem SegmentAnchorLine.Commits.eq_iff
    (h : line.Commits anchor) : line = anchor.segmentLine ↔ line.Agrees anchor.segmentLine := by
  constructor
  · rintro rfl
    exact ⟨by simp [AuditChainAnchor.segmentLine, nullColumn], rfl, rfl, rfl, rfl⟩
  · intro ha
    have hp := column_nullable h.previousAnchorHash ha.previousAnchorHash
    obtain ⟨tenantId, anchorSequence, fromSequence, toSequence, rowCount, firstOccurredAt,
      lastOccurredAt, segmentHash, previousAnchorHash, anchorHash, signature, keyId, sealedBy,
      sealedAt⟩ := line
    obtain ⟨rfl, rfl, rfl, rfl, rfl, rfl, rfl, rfl, -, rfl⟩ := h
    obtain ⟨-, rfl, rfl, rfl, rfl⟩ := ha
    obtain rfl : previousAnchorHash = _ := hp
    rfl

/-! ### Events -/

/-- An event line says what the hash of an event covers. -/
structure SegmentEventLine.Commits (line : SegmentEventLine) (event : StoredAuditEvent) : Prop where
  id : line.id = event.id
  tenantId : line.tenantId = some (.str event.tenantId)
  sequence : line.sequence = event.sequence
  actorId : line.actorId = some (.str event.actorId)
  action : line.action = some (.str event.action)
  subjectType : line.subjectType = some (.str event.subjectType)
  subjectId : line.subjectId = some (.str event.subjectId)
  content : coalesce line.sealedPayload line.metadataJson =
    some (.str (event.sealedPayload.getD event.metadataJson))
  occurredAt : line.occurredAt = some (integer event.occurredAt)
  previousHash : line.previousHash = nullColumn event.previousHash
  eventHash : line.eventHash = event.eventHash
  sealed_ : line.sealedPayload = some .null ↔ event.sealedPayload = none
  subjectKeyId : column line.subjectKeyId = nullable event.subjectKeyId
  sealFormat : column line.sealFormat = nullable event.sealFormat

/-- **The hash of an event commits to the columns it covers.** -/
theorem event_commits [AuditHost] (hsha : Function.Injective Host.sha256) {line : SegmentEventLine}
    (hl : line.hashOf = line.eventHash)
    (he : event.eventHash = storedAuditEventHash event) (hs : line.eventHash = event.eventHash)
    (hf : event.previousHash = none → line.previousHash = some .null) : line.Commits event := by
  have hh : line.hashOf = storedAuditEventHash event := by rw [hl, hs, he]
  have hv := Json.stringify_injective (hsha hh)
  simp only [Json.arr.injEq, List.cons.injEq, Json.str.injEq, Json.bool.injEq, and_true] at hv
  obtain ⟨hid, ht, hseq, hact, ha, htype, hsub, hc, ho, hp, hsea, hk, hfor⟩ := hv
  exact {
    id := hid
    tenantId := column_eq ht (by simp)
    sequence := integer_injective hseq
    actorId := column_eq hact (by simp)
    action := column_eq ha (by simp)
    subjectType := column_eq htype (by simp)
    subjectId := column_eq hsub (by simp)
    content := column_eq hc (by simp)
    occurredAt := column_eq ho (by simp [integer])
    previousHash := by
      cases hn : event.previousHash with
      | none => exact hf hn
      | some hash =>
        rw [hn] at hp
        exact column_eq hp (by simp [nullable])
    eventHash := hs
    sealed_ := by
      cases hpay : event.sealedPayload with
      | none => simpa [hpay] using hsea
      | some payload => simpa [hpay] using hsea
    subjectKeyId := hk
    sealFormat := hfor }

theorem SegmentEventLine.Commits.eq_iff {line : SegmentEventLine}
    (h : line.Commits event) : line = event.segmentLine ↔ line.Agrees event.segmentLine := by
  constructor
  · rintro rfl
    refine ⟨?_, ?_, fun _ => rfl, fun _ => rfl⟩ <;>
      simp [StoredAuditEvent.segmentLine, nullColumn]
  · intro ha
    have hk := column_nullable h.subjectKeyId ha.subjectKeyId
    have hf := column_nullable h.sealFormat ha.sealFormat
    have hcol : line.sealedPayload = nullColumn event.sealedPayload ∧
        line.metadataJson = some (.str event.metadataJson) := by
      cases hp : event.sealedPayload with
      | none =>
        have hn := h.sealed_.2 hp
        have hc := h.content
        rw [hn, hp] at hc
        exact ⟨hn, hc⟩
      | some payload =>
        have hs : event.segmentLine.sealedPayload ≠ some .null := by
          simp [StoredAuditEvent.segmentLine, nullColumn, nullable, hp]
        rw [← hp]
        exact ⟨ha.sealedPayload hs, ha.metadataJson hs⟩
    obtain ⟨id, tenantId, sequence, actorId, action, subjectType, subjectId, metadataJson,
      occurredAt, previousHash, eventHash, subjectKeyId, sealedPayload, sealFormat⟩ := line
    obtain ⟨rfl, rfl, rfl, rfl, rfl, rfl, rfl, -, rfl, rfl, rfl, -, -, -⟩ := h
    obtain ⟨rfl, rfl⟩ := hcol
    obtain rfl : subjectKeyId = _ := hk
    obtain rfl : sealFormat = _ := hf
    rfl

/-! ### Segments -/

section

variable [SealHost] {signer : AnchorSigner} {tenantId : String} {recorded : List AuditChainAnchor}
  {line : SegmentAnchorLine} {events : List SegmentEventLine}

theorem LinesOk.hashes {previous : Option Json} (h : LinesOk previous events) :
    ∀ event ∈ events, event.hashOf = event.eventHash := by
  induction events generalizing previous with
  | nil => exact fun _ h => absurd h List.not_mem_nil
  | cons first events ih =>
    intro event he
    obtain ⟨hh, -, hr⟩ := h
    rcases List.mem_cons.1 he with rfl | he
    · exact hh
    · exact ih hr event he

theorem chainValue_injective (hs : Function.Injective Host.sha256) :
    Function.Injective2 chainValue := by
  intro a b hash hash' h
  have hv := Json.stringify_injective (hs (Json.str.inj h))
  simpa using hv

variable {stored : AuditChainAnchor}

/-- **The hash of a segment commits to the hashes of its events.** -/
theorem eventHashes_eq (hs : Function.Injective Host.sha256)
    {rows : List StoredAuditEvent} {previous : Option String}
    (hv : Verified signer tenantId recorded line events) (hc : line.Commits stored)
    (hr : stored.rowCount = rows.length)
    (hh : stored.segmentHash = segmentChain previous (rows.map (·.eventHash))) :
    events.map (·.eventHash) = rows.map (·.eventHash) := by
  have hcha := hv.segmentHash
  rw [hc.segmentHash, hh, str_segmentChain, foldl_chainValue] at hcha
  refine (foldl_commits (chainValue_injective hs) ?_ hcha).2
  have hcou := hv.rowCount
  rw [hc.rowCount, hr] at hcou
  simpa using hcou

omit [SealHost] in
theorem length_between {rows : List StoredAuditEvent} {after through : ℤ} (ha : 0 ≤ after)
    (hle : after ≤ through) (ht : through ≤ rows.length) :
    ((between rows after through).length : ℤ) = through - after := by
  unfold between
  rw [List.length_take, List.length_drop]
  omega

/-- **A segment that is accepted says what the anchor it claims commits to.** -/
theorem segment_commits (hsha : Function.Injective Host.sha256) {archive : Archive}
    (hsou : archive.Sound) (hsto : stored ∈ archive.anchors)
    (hv : Verified signer tenantId recorded line events)
    (hs : stored.anchorHash = line.anchorHash) :
    line.Commits stored ∧
      List.Forall₂ SegmentEventLine.Commits events (archive.segmentEvents stored) := by
  obtain ⟨previous, hfol⟩ := hsou.follows hsto
  have hc := hsou.events stored.tenantId
  have hl := anchor_commits hsha hv.anchorHash hfol.anchorHash hs
  have hr := segmentEvents_eq hc hfol
  have hto := hfol.toSequence
  have hp := hfol.rowCount
  have hcou : stored.rowCount = (archive.segmentEvents stored).length := by
    rw [hr, length_between hfol.behind (by omega) hfol.covered]
    omega
  have hh := eventHashes_eq hsha hv hl hcou (hr ▸ hfol.segmentHash)
  refine ⟨hl, ?_⟩
  rw [List.forall₂_iff_get]
  have hlen : events.length = (archive.segmentEvents stored).length := by
    simpa using congrArg List.length hh
  refine ⟨hlen, fun i hi hi' => ?_⟩
  have hseq : (archive.events stored.tenantId)[(sealedThrough previous).toNat + i]? =
      some ((archive.segmentEvents stored).get ⟨i, hi'⟩) := by
    generalize hrow : (archive.segmentEvents stored).get ⟨i, hi'⟩ = row
    have hg : (archive.segmentEvents stored)[i]? = some row := by
      rw [← hrow]
      exact List.getElem?_eq_getElem hi'
    rw [hr] at hg
    unfold between at hg
    rw [List.getElem?_take] at hg
    split at hg
    · rwa [List.getElem?_drop] at hg
    · cases hg
  refine event_commits hsha (hv.lines.hashes _ (List.get_mem events ⟨i, hi⟩))
    (hc.hash _ (List.mem_of_getElem? hseq)) ?_ fun hn => ?_
  · have := congrArg (fun hashes => hashes[i]?) hh
    simpa [List.getElem?_eq_getElem hi, List.getElem?_eq_getElem hi'] using this
  · -- the event that follows none is the first of its workspace, and of its segment
    have hlink := hc.link _ _ hseq
    rw [hn] at hlink
    have hz : (sealedThrough previous).toNat + i = 0 := by
      by_contra hne
      have hlt := (List.getElem?_eq_some_iff.1 hseq).1
      have hlast : ((archive.events stored.tenantId).take ((sealedThrough previous).toNat + i)) ≠ [] := by
        intro hnil
        have := congrArg List.length hnil
        rw [List.length_take, List.length_nil] at this
        omega
      rw [List.getLast?_eq_some_getLast hlast] at hlink
      cases hlink
    have hind : i = 0 := by omega
    have hf := hfol.fromSequence
    have hlineFrom := hl.fromSequence
    have hlin := hv.lines
    have hsta : (SegmentState.start line).previousHash = some .null := by
      unfold SegmentState.start
      have hle : ¬ 1 < line.fromSequence := by
        have := hfol.behind
        omega
      rw [if_neg hle]
    rw [hsta] at hlin
    subst hind
    cases events with
    | nil => exact absurd hi (by simp)
    | cons event events => exact hlin.2.1 (by simp)

omit [SealHost] in
theorem events_eq_iff {rows : List StoredAuditEvent}
    (h : List.Forall₂ SegmentEventLine.Commits events rows) :
    events.map some = rows.map (fun event => some event.segmentLine) ↔
      ∀ (i : ℕ) line other, (events.map some)[i]? = some (some line) →
        (rows.map fun event => some event.segmentLine)[i]? = some (some other) → line.Agrees other := by
  induction h with
  | nil => simp
  | @cons line row events rows hf _ ih =>
    rw [List.map_cons, List.map_cons, List.cons.injEq, ih, Option.some.injEq, hf.eq_iff]
    constructor
    · rintro ⟨hh, ht⟩ i other written ho hw
      cases i with
      | zero =>
        obtain rfl : line = other := by simpa using ho
        obtain rfl : row.segmentLine = written := by simpa using hw
        exact hh
      | succ i => exact ht i other written ho hw
    · intro h
      exact ⟨h 0 line row.segmentLine rfl rfl, fun i => h (i + 1)⟩

omit [SealHost] in
/-- **A segment is what the run wrote exactly where it agrees in what nothing covers.** -/
theorem segment_eq_iff {archive : Archive} (hl : line.Commits stored)
    (he : List.Forall₂ SegmentEventLine.Commits events (archive.segmentEvents stored)) :
    (⟨some line, events.map some⟩ : Segment) = archive.segment stored ↔
      (⟨some line, events.map some⟩ : Segment).Agrees (archive.segment stored) := by
  have hr := events_eq_iff he
  constructor
  · intro h
    have ha : line = stored.segmentLine := Option.some.inj (congrArg Segment.anchor h)
    refine ⟨?_, hr.1 (congrArg Segment.events h)⟩
    rintro other written ho hw
    obtain rfl := Option.some.inj ho
    obtain rfl := Option.some.inj hw
    exact hl.eq_iff.1 ha
  · intro h
    have ha := hl.eq_iff.2 (h.anchor line stored.segmentLine rfl rfl)
    have hlist := hr.2 h.events
    rw [Archive.segment, ha, hlist]

/-! ### The files of a pass -/

/-- The files a pass reads. -/
def readFiles (tenantId : String) (files : List (String × String)) (window : ℕ) :
    List (String × String) :=
  (matchingFiles tenantId files).drop ((matchingFiles tenantId files).length - window)

/-- The files that lie before them. -/
def unreadFiles (tenantId : String) (files : List (String × String)) (window : ℕ) :
    List (String × String) :=
  (matchingFiles tenantId files).take ((matchingFiles tenantId files).length - window)

/-- The anchors a pass reads. -/
def newestAnchors (archive : Archive) (tenantId : String) (window : ℕ) : List AuditChainAnchor :=
  (archive.anchorsOf tenantId).drop ((archive.anchorsOf tenantId).length - window)

/-- The anchors that lie before them. -/
def olderAnchors (archive : Archive) (tenantId : String) (window : ℕ) : List AuditChainAnchor :=
  (archive.anchorsOf tenantId).take ((archive.anchorsOf tenantId).length - window)

/-- A file claims an anchor. -/
def Claims (file : String × String) (anchor : AuditChainAnchor) : Prop :=
  (readSegment file.2).anchor.map (·.anchorSequence) = some anchor.anchorSequence

/-- Every file holds what a run of the workspace wrote, and some anchors have their file. -/
structure Unedited (archive : Archive) (tenantId : String) (files : List (String × String))
    (anchors : List AuditChainAnchor) : Prop where
  sound : ∀ file ∈ files, ∃ anchor ∈ archive.anchorsOf tenantId,
    readSegment file.2 = archive.segment anchor
  complete : ∀ anchor ∈ anchors, ∃ file ∈ files, readSegment file.2 = archive.segment anchor

/-- No edit touched a file the pass does not read, or a column that nothing covers. -/
structure EditsCovered (archive : Archive) (tenantId : String) (files : List (String × String))
    (window : ℕ) : Prop where
  unread : Unedited archive tenantId (unreadFiles tenantId files window)
    (olderAnchors archive tenantId window)
  columns : ∀ file ∈ readFiles tenantId files window, ∀ anchor ∈ archive.anchorsOf tenantId,
    Claims file anchor → (readSegment file.2).Agrees (archive.segment anchor)

omit [SealHost] in
theorem mem_matchingFiles {files : List (String × String)} {file : String × String} :
    file ∈ matchingFiles tenantId files ↔ file ∈ files ∧ matchesName tenantId file.1 = true := by
  unfold matchingFiles
  rw [List.mem_insertionSort, List.mem_filter]
  rfl

omit [SealHost] in
theorem mem_matching_iff {files : List (String × String)} (window : ℕ)
    {file : String × String} : file ∈ matchingFiles tenantId files ↔
      file ∈ unreadFiles tenantId files window ∨ file ∈ readFiles tenantId files window := by
  conv_lhs => rw [← List.take_append_drop ((matchingFiles tenantId files).length - window)
    (matchingFiles tenantId files)]
  exact List.mem_append

omit [SealHost] in
theorem mem_anchorsOf_iff {archive : Archive} (window : ℕ)
    {anchor : AuditChainAnchor} : anchor ∈ archive.anchorsOf tenantId ↔
      anchor ∈ olderAnchors archive tenantId window ∨ anchor ∈ newestAnchors archive tenantId window := by
  conv_lhs => rw [← List.take_append_drop ((archive.anchorsOf tenantId).length - window)
    (archive.anchorsOf tenantId)]
  exact List.mem_append

section

variable {archive : Archive} {files : List (String × String)} {window : ℕ}

theorem Archive.Sound.anchor_inj (hs : archive.Sound) {a b : AuditChainAnchor}
    (ha : a ∈ archive.anchorsOf tenantId) (hb : b ∈ archive.anchorsOf tenantId)
    (h : a.anchorSequence = b.anchorSequence) : a = b := by
  obtain ⟨i, hi⟩ := List.getElem?_of_mem ha
  obtain ⟨j, hj⟩ := List.getElem?_of_mem hb
  have hf := hs.anchorSequence i hi
  have hsec := hs.anchorSequence j hj
  have hind : i = j := by omega
  rw [hind, hj] at hi
  exact (Option.some.inj hi).symm

/-- **The anchors of a workspace have different files.** -/
theorem Archive.Sound.segmentFiles_nodup (hsou : archive.Sound) (tenantId : String) :
    ((archive.anchorsOf tenantId).map (·.segmentFile)).Nodup := by
  have hf : ∀ anchor ∈ archive.anchorsOf tenantId, ∃ n m : ℕ, anchor.fromSequence = n ∧
      anchor.fromSequence ≤ anchor.toSequence ∧ anchor.segmentFile = segmentName tenantId n m := by
    intro anchor hanc
    obtain ⟨hm, ht⟩ := mem_anchorsOf.1 hanc
    obtain ⟨previous, hfol⟩ := hsou.follows hm
    have hfrom := hfol.fromSequence
    have hto := hfol.toSequence
    have hrows := hfol.rowCount
    have hbeh := hfol.behind
    refine ⟨anchor.fromSequence.toNat, anchor.toSequence.toNat, by omega, by omega, ?_⟩
    rw [hfol.segmentFile, ht, Int.toNat_of_nonneg (by omega), Int.toNat_of_nonneg (by omega)]
  rw [List.nodup_map_iff_inj_on]
  · intro a ha b hb hs
    obtain ⟨n, m, hn, hle, hname⟩ := hf a ha
    obtain ⟨n', m', hn', hle', hname'⟩ := hf b hb
    rw [hname, hname'] at hs
    have hfrom := (segmentName_inj hs).1
    obtain ⟨i, hi⟩ := List.getElem?_of_mem ha
    obtain ⟨j, hj⟩ := List.getElem?_of_mem hb
    obtain ⟨hilt, rfl⟩ := List.getElem?_eq_some_iff.1 hi
    obtain ⟨hjlt, rfl⟩ := List.getElem?_eq_some_iff.1 hj
    have hr := List.pairwise_iff_getElem.1 (hsou.ranges tenantId)
    rcases lt_trichotomy i j with hij | rfl | hij
    · have := hr i j hilt hjlt hij
      omega
    · rfl
    · have := hr j i hjlt hilt hij
      omega
  · refine (hsou.pairwise tenantId).imp fun h => ?_
    rintro rfl
    exact lt_irrefl _ h

/-- A directory that holds all segments has as many files of the workspace. -/
theorem length_le_matching (hsou : archive.Sound)
    (hh : ∀ anchor ∈ archive.anchorsOf tenantId, anchor.segmentFile ∈ files.map Prod.fst) :
    (archive.anchorsOf tenantId).length ≤ (matchingFiles tenantId files).length := by
  have hsub : (archive.anchorsOf tenantId).map (·.segmentFile) ⊆
      (matchingFiles tenantId files).map Prod.fst := by
    intro name hn
    obtain ⟨anchor, ha, rfl⟩ := List.mem_map.1 hn
    obtain ⟨file, hf, hs⟩ := List.mem_map.1 (hh anchor ha)
    refine List.mem_map.2 ⟨file, mem_matchingFiles.2 ⟨hf, ?_⟩, hs⟩
    obtain ⟨hm, ht⟩ := mem_anchorsOf.1 ha
    obtain ⟨previous, hfol⟩ := hsou.follows hm
    rw [hs, hfol.segmentFile, ht]
    exact segmentName_matches _ _ _
  have hle := (List.subperm_of_subset (hsou.segmentFiles_nodup tenantId) hsub).length_le
  simpa using hle

/-- The anchor a pass finds recorded for an accepted line. -/
theorem stored_of_verified (hs : archive.Sound)
    (hv : Verified signer tenantId (archive.listAnchors tenantId window) line events) :
    ∃ stored ∈ newestAnchors archive tenantId window,
      stored.anchorSequence = line.anchorSequence ∧ stored.anchorHash = line.anchorHash := by
  obtain ⟨stored, hf, hh⟩ := hv.recorded
  unfold recordedAnchor at hf
  have hm := List.mem_of_find?_eq_some hf
  have hseq := List.find?_some hf
  rw [hs.listAnchors, List.take_reverse, List.reverse_reverse] at hm
  exact ⟨stored, hm, by simpa using hseq, hh⟩

/-- What an accepted file is read as, among the anchors the pass reads. -/
theorem claims_of_accepted (hsha : Function.Injective Host.sha256) (hs : archive.Sound)
    {file : String × String} {lines : SegmentAnchorLine × List SegmentEventLine}
    (ha : Accepted signer tenantId (archive.listAnchors tenantId window) file lines) :
    ∃ stored ∈ newestAnchors archive tenantId window, Claims file stored ∧
      stored.anchorSequence = lines.1.anchorSequence ∧
        (readSegment file.2 = archive.segment stored ↔
          (readSegment file.2).Agrees (archive.segment stored)) := by
  obtain ⟨stored, hsto, hseq, hh⟩ := stored_of_verified hs ha.verified
  have hm := mem_anchorsOf.1 ((mem_anchorsOf_iff window).2 (.inr hsto))
  obtain ⟨hl, he⟩ := segment_commits hsha hs hm.1 ha.verified hh
  refine ⟨stored, hsto, ?_, hseq, ?_⟩
  · unfold Claims
    rw [ha.read, hseq]
    rfl
  · rw [ha.read]
    exact segment_eq_iff hl he

/-- **A pass that reports ok has read the file of every anchor it read**: the files claim
different anchors, and there are no fewer of them. -/
theorem claimed_of_ok (hsha : Function.Injective Host.sha256) (hsou : archive.Sound)
    (hh : ∀ anchor ∈ archive.anchorsOf tenantId, anchor.segmentFile ∈ files.map Prod.fst)
    {lines : PassLines} (ha : List.Forall₂
      (Accepted signer tenantId (archive.listAnchors tenantId window))
        (readFiles tenantId files window) lines)
    (hn : (lines.map fun line => line.1.anchorSequence).Nodup) :
    ∀ anchor ∈ newestAnchors archive tenantId window,
      ∃ file ∈ readFiles tenantId files window, Claims file anchor := by
  have hl : ∀ line ∈ lines, ∃ file ∈ readFiles tenantId files window,
      Accepted signer tenantId (archive.listAnchors tenantId window) file line := by
    intro line hmem
    obtain ⟨i, hi⟩ := List.getElem?_of_mem hmem
    obtain ⟨hlt, rfl⟩ := List.getElem?_eq_some_iff.1 hi
    have hlen := ha.length_eq
    have hlt' : i < (readFiles tenantId files window).length := by omega
    exact ⟨_, List.getElem_mem hlt', (List.forall₂_iff_get.1 ha).2 i hlt' hlt⟩
  have hsub : (lines.map fun line => line.1.anchorSequence) ⊆
      (newestAnchors archive tenantId window).map (·.anchorSequence) := by
    intro sequence hseq
    obtain ⟨line, hmem, rfl⟩ := List.mem_map.1 hseq
    obtain ⟨file, -, hf⟩ := hl line hmem
    obtain ⟨stored, hsto, -, hs, -⟩ := claims_of_accepted hsha hsou hf
    exact List.mem_map.2 ⟨stored, hsto, hs⟩
  have hc : ((newestAnchors archive tenantId window).map (·.anchorSequence)).length ≤
      (lines.map fun line => line.1.anchorSequence).length := by
    have hfil := ha.length_eq
    have hm := length_le_matching hsou hh
    rw [List.length_map, List.length_map, ← hfil, newestAnchors, readFiles, List.length_drop,
      List.length_drop]
    omega
  have hp := (List.subperm_of_subset hn hsub).perm_of_length_le hc
  intro anchor hanc
  have hmem := hp.mem_iff.2 (List.mem_map_of_mem hanc)
  obtain ⟨line, hmem, hs⟩ := List.mem_map.1 hmem
  obtain ⟨file, hf, hr⟩ := hl line hmem
  refine ⟨file, hf, ?_⟩
  unfold Claims
  rw [hr.read, ← hs]
  rfl

end

end

/-! ### Sample edits -/

open Classical in
/-- The value a text was made of, if there is one. -/
noncomputable def parseText (text : String) : Option Json :=
  if h : ∃ v, Json.stringify v = text then some h.choose else none

theorem parseText_stringify (v : Json) : parseText (Json.stringify v) = some v := by
  have he : ∃ w, Json.stringify w = Json.stringify v := ⟨v, rfl⟩
  unfold parseText
  rw [dif_pos he]
  exact congrArg some (Json.stringify_injective he.choose_spec)

/-- A hash that is short for the texts of the sample run. -/
def sampleSha256 (text : String) : String :=
  if text = Json.stringify (.arr [.str "e1", .str "t", integer 1, .str "sealed:v1",
    .str "profile.changed", .str "account", .str "sealed:v1", .str "envelope", integer 5, .null,
    .bool true, .str "k1", .str "audit-event/1"]) then "0"
  else if text = Json.stringify (.arr [.str "", .str "0"]) then "1"
  else if text = Json.stringify (.arr [.str "t", integer 1, integer 1, integer 1, integer 1,
    integer 5, integer 5, .str "1", .null]) then "2"
  else "x" ++ text

theorem sampleSha256_injective : Function.Injective sampleSha256 := by
  have ho : ∀ text, "x" ++ text ≠ "0" ∧ "x" ++ text ≠ "1" ∧ "x" ++ text ≠ "2" := by
    intro text
    refine ⟨fun h => ?_, fun h => ?_, fun h => ?_⟩ <;>
      simpa using congrArg String.toList h
  have hc : ∀ a b : String, "x" ++ a = "x" ++ b → a = b := by
    intro a b h
    have := congrArg String.toList h
    rw [String.toList_append, String.toList_append] at this
    exact String.toList_inj.1 (List.append_cancel_left this)
  intro a b h
  unfold sampleSha256 at h
  split at h
  · next ha =>
    split at h
    · next hb => rw [ha, hb]
    split at h
    · exact absurd h (by decide)
    split at h
    · exact absurd h (by decide)
    · exact absurd h.symm (ho b).1
  split at h
  · next ha =>
    split at h
    · exact absurd h (by decide)
    split at h
    · next hb => rw [ha, hb]
    split at h
    · exact absurd h (by decide)
    · exact absurd h.symm (ho b).2.1
  split at h
  · next ha =>
    split at h
    · exact absurd h (by decide)
    split at h
    · exact absurd h (by decide)
    split at h
    · next hb => rw [ha, hb]
    · exact absurd h.symm (ho b).2.2
  · split at h
    · exact absurd h (ho a).1
    split at h
    · exact absurd h (ho a).2.1
    split at h
    · exact absurd h (ho a).2.2
    · exact hc a b h

/-- A host on which every payload is sealed to the same envelope. -/
@[reducible] noncomputable def sampleSealHost : SealHost where
  localeCompare := compare
  sha256 := sampleSha256
  sealText := fun _ _ _ _ => "envelope"
  openText := fun _ _ _ => none
  parse := parseText
  toISOString := toString
  keyFingerprint := fun key => toHex key.toList
  hmac := fun _ _ => Vector.replicate 32 0

/-- The ring of the sample runs. -/
def sampleSigner : AnchorSigner where
  current := Vector.replicate 32 0

/-- An event about an account. -/
def sampleChange : ChainRequest :=
  .append
    { tenantId := "t", actorId := "operator", action := "profile.changed", subjectType := "account",
      subjectId := "ada", metadata := [], occurredAt := 5, subjectAccountId := some "ada" }
    ⟨"e1", "k1", Vector.replicate 32 9, "iv"⟩

/-- A seal run. -/
def sampleSeal (anchorId : String) : ChainRequest :=
  .seal_
    { tenantId := "t", sealedBy := "operator", apply := true, signer := sampleSigner,
      anchorId := anchorId, draws := ⟨"e2", "k2", Vector.replicate 32 9, "iv"⟩, pages := 1 }

/-- Moves of the process that started last. -/
def sealMoves (n : ℕ) : List (Crew.Turn ChainRequest Outcome) :=
  List.replicate n (.move 0 (.done 7))

/-- An event is appended and sealed. -/
def sealTurns : List (Crew.Turn ChainRequest Outcome) :=
  .start sampleChange :: sealMoves 1 ++ .start (sampleSeal "a1") :: sealMoves 14

/-- The event of the run. -/
def sampleEvent : StoredAuditEvent where
  id := "e1"
  tenantId := "t"
  sequence := 1
  actorId := "sealed:v1"
  action := "profile.changed"
  subjectType := "account"
  subjectId := "sealed:v1"
  metadataJson := "\x7b\x7d"
  occurredAt := 5
  previousHash := none
  eventHash := "0"
  subjectKeyId := some "k1"
  sealedPayload := some "envelope"
  sealFormat := some "audit-event/1"

/-- The anchor of the run. -/
def sampleAnchor : AuditChainAnchor where
  id := "a1"
  tenantId := "t"
  anchorSequence := 1
  fromSequence := 1
  toSequence := 1
  rowCount := 1
  firstOccurredAt := 5
  lastOccurredAt := 5
  segmentHash := "1"
  previousAnchorHash := none
  anchorHash := "2"
  signature := String.ofList (List.replicate 64 '0')
  keyId := String.ofList (List.replicate 64 '0')
  segmentFile := "audit-segment-t-000000000001-000000000001.jsonl"
  sealedBy := "operator"
  sealedAt := 7

theorem sealTurns_played : letI := sampleSealHost
    (Crew.play (Prog.recorder ChainRequest.program fun c archive outcome =>
      SealCall.serve c archive outcome) (fun _ _ _ => True) ⟨Archive.empty, []⟩ sealTurns).map
        (fun crew => (crew.shared.anchors, crew.shared.events "t")) =
      some ([sampleAnchor], [sampleEvent]) := by
  decide +kernel

/-- The anchor, with another name for who sealed it. -/
def editedAnchor (sealedBy : String) : AuditChainAnchor :=
  { sampleAnchor with sealedBy := sealedBy }

/-- The event, with another metadata. -/
def editedEvent (metadataJson : String) : StoredAuditEvent :=
  { sampleEvent with metadataJson := metadataJson }

/-- The directory of the run, with an edit of its file. -/
def editedFiles (sealedBy metadataJson : String) : List (String × String) :=
  [(sampleAnchor.segmentFile,
    segmentText (editedAnchor sealedBy) [editedEvent metadataJson])]

theorem editedAnchor_plain (sealedBy : String) (h : Plain sealedBy) : (editedAnchor sealedBy).Plain where
  tenantId := show Plain "t" from plain_of_ascii (by decide)
  segmentHash := show Plain "1" from plain_of_ascii (by decide)
  previousAnchorHash _ hn := (nomatch hn)
  anchorHash := show Plain "2" from plain_of_ascii (by decide)
  signature := show Plain (String.ofList (List.replicate 64 '0')) from plain_of_ascii (by decide)
  keyId := show Plain (String.ofList (List.replicate 64 '0')) from plain_of_ascii (by decide)
  sealedBy := h
  anchorSequence := show |(1 : ℤ)| ≤ _ by decide
  fromSequence := show |(1 : ℤ)| ≤ _ by decide
  toSequence := show |(1 : ℤ)| ≤ _ by decide
  rowCount := show |(1 : ℤ)| ≤ _ by decide
  firstOccurredAt := show |(5 : ℤ)| ≤ _ by decide
  lastOccurredAt := show |(5 : ℤ)| ≤ _ by decide
  sealedAt := show |(7 : ℤ)| ≤ _ by decide

theorem editedEvent_plain (metadataJson : String) (h : Plain metadataJson) :
    (editedEvent metadataJson).Plain where
  id := show Plain "e1" from plain_of_ascii (by decide)
  tenantId := show Plain "t" from plain_of_ascii (by decide)
  actorId := show Plain "sealed:v1" from plain_of_ascii (by decide)
  action := show Plain "profile.changed" from plain_of_ascii (by decide)
  subjectType := show Plain "account" from plain_of_ascii (by decide)
  subjectId := show Plain "sealed:v1" from plain_of_ascii (by decide)
  metadataJson := h
  previousHash _ hn := (nomatch hn)
  eventHash := show Plain "0" from plain_of_ascii (by decide)
  subjectKeyId keyId hk := by
    obtain rfl : "k1" = keyId := Option.some.inj hk
    exact plain_of_ascii (by decide)
  sealedPayload payload hp := by
    obtain rfl : "envelope" = payload := Option.some.inj hp
    exact plain_of_ascii (by decide)
  sealFormat format hf := by
    obtain rfl : "audit-event/1" = format := Option.some.inj hf
    exact plain_of_ascii (by decide)
  sequence := show |(1 : ℤ)| ≤ _ by decide
  occurredAt := show |(5 : ℤ)| ≤ _ by decide

section

theorem sample_parses : letI := sampleSealHost; Parses :=
  letI := sampleSealHost
  { anchor := fun _ _ => parseText_stringify _
    event := fun _ _ => parseText_stringify _ }

theorem sample_hashes : letI := sampleSealHost
    sampleEvent.eventHash = storedAuditEventHash sampleEvent ∧
      sampleAnchor.segmentHash = segmentChain none [sampleEvent.eventHash] ∧
        sampleAnchor.anchorHash = sampleAnchor.hashOf ∧ sampleSigner.verify sampleAnchor.anchorHash
          sampleAnchor.signature sampleAnchor.keyId = true := by
  decide +kernel

/-- **The edited file is accepted**, whatever stands in the two columns. -/
theorem edited_ok {sealedBy metadataJson : String} (hsealedBy : Plain sealedBy)
    (hm : Plain metadataJson)
    (hs : (segmentText (editedAnchor sealedBy) [editedEvent metadataJson]).utf8ByteSize ≤ 1000) :
    letI := sampleSealHost
    (AuditSealService.verify sampleSigner "t" (editedFiles sealedBy metadataJson)
      [sampleAnchor] 10).ok = true := by
  let _ := sampleSealHost
  obtain ⟨hh, hseg, ha, hsig⟩ := sample_hashes
  have hw : Written sampleSigner [sampleAnchor] (editedAnchor sealedBy) [editedEvent metadataJson] := {
    plainAnchor := editedAnchor_plain sealedBy hsealedBy
    plainEvents := fun event he => by
      rw [List.mem_singleton.1 he]
      exact editedEvent_plain metadataJson hm
    size := hs.trans (by unfold SEAL_LIMITS.fileBytes; omega)
    rowCount := rfl
    anchorHash := ha
    segmentHash := hseg
    hashes := fun event he => by
      rw [List.mem_singleton.1 he]
      exact hh
    links := .singleton _
    first := fun _ event he => by
      rw [← Option.some.inj he]
      rfl
    signature := hsig
    recorded := ⟨sampleAnchor, rfl, rfl⟩ }
  refine verify_ok.2 ⟨[((editedAnchor sealedBy).segmentLine, [(editedEvent metadataJson).segmentLine])],
    ?_, by simp, ?_⟩
  · have hmat : matchingFiles "t" (editedFiles sealedBy metadataJson) =
        editedFiles sealedBy metadataJson := by
      have hn : matchesName "t" sampleAnchor.segmentFile = true := by decide +kernel
      unfold matchingFiles
      rw [List.filter_eq_self.2 fun file hf => ?_]
      · rfl
      · rw [List.mem_singleton.1 hf]
        exact hn
    rw [hmat]
    exact .cons (hw.accepted sample_parses sampleAnchor.segmentFile) .nil
  · rfl

end

end Flowdular.Audit
