/-
# What a pass accepts

A segment file that is read line by line is an anchor line and event lines
(`readSegment`), and `verify` accepts it where those lines hang together and the anchor is
one the workspace recorded (`Verified`, `verifySegment_ok`).  A pass accepts a directory
where it accepts every file it reads, the files claim different anchors, and the anchors
link up (`verifySegments_ok`).
-/

import Flowdular.Audit.SealNames
import Flowdular.Audit.SealChain

namespace Flowdular.Audit

open Lib Workflows

/-! ### Segments -/

/-- A segment file, line by line. -/
structure Segment where
  anchor : Option SegmentAnchorLine
  events : List (Option SegmentEventLine)

/-- The event lines among the lines of a text. -/
def eventLines [AuditHost] (lines : List String) : List (Option SegmentEventLine) :=
  (lines.filter fun raw => trim raw ≠ "").map parseEventLine

/-- What is read of a segment file. -/
def readSegment [AuditHost] (text : String) : Segment :=
  match readLines text with
  | [] => ⟨none, []⟩
  | first :: rest => ⟨if trim first = "" then none else parseAnchorLine first, eventLines rest⟩

/-- A column that is null where there is nothing. -/
def nullColumn (value : Option String) : Option Json :=
  some (nullable value)

/-- The line of an anchor. -/
def AuditChainAnchor.segmentLine (anchor : AuditChainAnchor) : SegmentAnchorLine where
  tenantId := some (.str anchor.tenantId)
  anchorSequence := anchor.anchorSequence
  fromSequence := anchor.fromSequence
  toSequence := anchor.toSequence
  rowCount := anchor.rowCount
  firstOccurredAt := some (integer anchor.firstOccurredAt)
  lastOccurredAt := some (integer anchor.lastOccurredAt)
  segmentHash := anchor.segmentHash
  previousAnchorHash := nullColumn anchor.previousAnchorHash
  anchorHash := anchor.anchorHash
  signature := anchor.signature
  keyId := anchor.keyId
  sealedBy := some (.str anchor.sealedBy)
  sealedAt := some (integer anchor.sealedAt)

/-- The line of an event. -/
def StoredAuditEvent.segmentLine (event : StoredAuditEvent) : SegmentEventLine where
  id := event.id
  tenantId := some (.str event.tenantId)
  sequence := event.sequence
  actorId := some (.str event.actorId)
  action := some (.str event.action)
  subjectType := some (.str event.subjectType)
  subjectId := some (.str event.subjectId)
  metadataJson := some (.str event.metadataJson)
  occurredAt := some (integer event.occurredAt)
  previousHash := nullColumn event.previousHash
  eventHash := event.eventHash
  subjectKeyId := nullColumn event.subjectKeyId
  sealedPayload := nullColumn event.sealedPayload
  sealFormat := nullColumn event.sealFormat

/-- The segment of an anchor. -/
def Archive.segment (archive : Archive) (anchor : AuditChainAnchor) : Segment :=
  ⟨some anchor.segmentLine, (archive.segmentEvents anchor).map fun event => some event.segmentLine⟩

/-! ### The lines of a file -/

section

variable [AuditHost] {name : String} {state : SegmentState} {event : SegmentEventLine}

/-- The state behind an event line. -/
def SegmentState.add (state : SegmentState) (event : SegmentEventLine) : SegmentState :=
  { state with
    previousHash := some (.str event.eventHash)
    plaintextEvents := state.plaintextEvents +
      if event.sealedPayload = some .null ∧ falsy event.sealFormat then 1 else 0
    accumulator := .str (chainStep state.accumulator event.eventHash)
    events := state.events + 1 }

/-- Event lines that hang together behind a previous hash. -/
def LinesOk : Option Json → List SegmentEventLine → Prop
  | _, [] => True
  | previous, event :: events =>
    event.hashOf = event.eventHash ∧ (previous ≠ none → event.previousHash = previous) ∧
      LinesOk (some (.str event.eventHash)) events

variable {raw : String} {rest : List String}

/-- **When an event line is accepted.** -/
theorem event_ok {lineNumber : ℕ} {state' : SegmentState} :
    state.event name lineNumber raw = .ok state' ↔ ∃ event, parseEventLine raw = some event ∧
      event.hashOf = event.eventHash ∧
        (state.previousHash ≠ none → event.previousHash = state.previousHash) ∧
          state' = state.add event := by
  unfold SegmentState.event
  cases parseEventLine raw with
  | none => simp
  | some event =>
    simp only [Option.some.injEq, exists_eq_left']
    by_cases hh : event.hashOf = event.eventHash
    · rw [if_neg (not_not_intro hh)]
      by_cases hl : state.previousHash ≠ none ∧ event.previousHash ≠ state.previousHash
      · rw [if_pos hl]
        constructor
        · intro h
          cases h
        · rintro ⟨-, h, -⟩
          exact absurd (h hl.1) hl.2
      · rw [if_neg hl]
        have hl' : state.previousHash ≠ none → event.previousHash = state.previousHash := by
          intro hne
          by_contra ho
          exact hl ⟨hne, ho⟩
        constructor
        · intro h
          exact ⟨hh, hl', (Except.ok.inj h).symm⟩
        · rintro ⟨-, -, rfl⟩
          rfl
    · rw [if_pos hh]
      constructor
      · intro h
        cases h
      · rintro ⟨h, -⟩
        exact absurd h hh

theorem eventLines_blank (h : trim raw = "") : eventLines (raw :: rest) = eventLines rest := by
  unfold eventLines
  rw [List.filter_cons_of_neg (by simpa using h)]

theorem eventLines_cons (h : trim raw ≠ "") :
    eventLines (raw :: rest) = parseEventLine raw :: eventLines rest := by
  unfold eventLines
  rw [List.filter_cons_of_pos (by simpa using h), List.map_cons]

/-- Lines that hang together are read to the end. -/
theorem readSegmentLines_of_ok : ∀ (lines : List String) (lineNumber : ℕ) (state : SegmentState)
    (events : List SegmentEventLine), state.failures = [] →
      eventLines lines = events.map some → LinesOk state.previousHash events →
        readSegmentLines name (lineNumber + 1) lines state = events.foldl .add state := by
  intro lines
  induction lines with
  | nil =>
    intro lineNumber state events _ heve _
    have hn : events = [] := List.map_eq_nil_iff.1 heve.symm
    rw [hn]
    rfl
  | cons raw rest ih =>
    intro lineNumber state events hf heve hok
    rw [readSegmentLines]
    by_cases hb : trim raw = ""
    · rw [if_pos hb]
      rw [eventLines_blank hb] at heve
      exact ih _ state events hf heve hok
    · rw [if_neg hb, if_neg (by omega), if_neg (not_not_intro hf)]
      rw [eventLines_cons hb] at heve
      cases events with
      | nil => cases heve
      | cons event events =>
        obtain ⟨he, hr⟩ := List.cons.inj heve
        obtain ⟨hh, hl, hok⟩ := hok
        have ha : state.event name (lineNumber + 1 + 1) raw = .ok (state.add event) :=
          event_ok.2 ⟨event, he, hh, hl, rfl⟩
        rw [ha]
        exact ih _ (state.add event) events hf hr hok

theorem readSegmentLines_of_failures (lines : List String) : ∀ (lineNumber : ℕ) (state : SegmentState),
    state.failures ≠ [] → (readSegmentLines name (lineNumber + 1) lines state).failures ≠ [] := by
  induction lines with
  | nil => exact fun _ _ h => h
  | cons raw rest ih =>
    intro lineNumber state h
    rw [readSegmentLines]
    by_cases hb : trim raw = ""
    · rw [if_pos hb]
      exact ih _ state h
    · rw [if_neg hb, if_neg (by omega), if_pos h]
      exact h

/-- Lines that are read without a failure hang together. -/
theorem ok_of_readSegmentLines : ∀ (lines : List String) (lineNumber : ℕ) (state : SegmentState),
    (readSegmentLines name (lineNumber + 1) lines state).failures = [] →
      ∃ events, eventLines lines = events.map some ∧ LinesOk state.previousHash events := by
  intro lines
  induction lines with
  | nil => exact fun _ _ _ => ⟨[], rfl, trivial⟩
  | cons raw rest ih =>
    intro lineNumber state h
    have hf : state.failures = [] := by
      by_contra hne
      exact readSegmentLines_of_failures (raw :: rest) lineNumber state hne h
    rw [readSegmentLines] at h
    by_cases hb : trim raw = ""
    · rw [if_pos hb] at h
      rw [eventLines_blank hb]
      exact ih _ state h
    · rw [if_neg hb, if_neg (by omega), if_neg (not_not_intro hf)] at h
      cases heve : state.event name (lineNumber + 1 + 1) raw with
      | error failure =>
        rw [heve] at h
        simp at h
      | ok state' =>
        rw [heve] at h
        obtain ⟨event, hp, hh, hl, rfl⟩ := event_ok.1 heve
        obtain ⟨events, he, hok⟩ := ih _ _ h
        refine ⟨event :: events, ?_, hh, hl, hok⟩
        rw [eventLines_cons hb, hp, he, List.map_cons]

theorem readSegmentLines_anchor (lines : List String) : ∀ (lineNumber : ℕ) (state : SegmentState),
    (readSegmentLines name (lineNumber + 1) lines state).anchor = state.anchor := by
  induction lines with
  | nil => exact fun _ _ => rfl
  | cons raw rest ih =>
    intro lineNumber state
    rw [readSegmentLines]
    by_cases hb : trim raw = ""
    · rw [if_pos hb]
      exact ih _ state
    rw [if_neg hb, if_neg (by omega)]
    by_cases hf : state.failures = []
    · rw [if_neg (not_not_intro hf)]
      cases he : state.event name (lineNumber + 1 + 1) raw with
      | error failure => rfl
      | ok state' =>
        obtain ⟨event, -, -, -, rfl⟩ := event_ok.1 he
        exact ih _ _
    · rw [if_pos hf]

/-! ### What is counted -/

theorem foldl_add_events (events : List SegmentEventLine) : ∀ state : SegmentState,
    (events.foldl .add state).events = state.events + events.length := by
  induction events with
  | nil => exact fun _ => rfl
  | cons event events ih =>
    intro state
    rw [List.foldl_cons, ih, List.length_cons]
    show state.events + 1 + events.length = _
    omega

theorem foldl_add_accumulator (events : List SegmentEventLine) : ∀ state : SegmentState,
    (events.foldl .add state).accumulator =
      events.foldl (fun a event => .str (chainStep a event.eventHash)) state.accumulator := by
  induction events with
  | nil => exact fun _ => rfl
  | cons event events ih => exact fun state => ih (state.add event)

theorem foldl_add_failures (events : List SegmentEventLine) : ∀ state : SegmentState,
    (events.foldl .add state).failures = state.failures := by
  induction events with
  | nil => exact fun _ => rfl
  | cons event events ih => exact fun state => ih (state.add event)

/-- The first line of a file. -/
theorem readSegmentLines_first (name text : String) :
    (readSegmentLines name 0 (readLines text) {}).anchor = (readSegment text).anchor ∧
      ∀ anchor, (readSegment text).anchor = some anchor →
        readSegmentLines name 0 (readLines text) {} =
          readSegmentLines name 1 (readLines text).tail (.start anchor) := by
  unfold readSegment
  cases readLines text with
  | nil => exact ⟨rfl, fun _ h => (nomatch h)⟩
  | cons first rest =>
    rw [readSegmentLines]
    by_cases hb : trim first = ""
    · simp only [if_pos hb]
      exact ⟨readSegmentLines_anchor rest 0 _, fun _ h => (nomatch h)⟩
    · simp only [if_neg hb, if_true, List.tail_cons]
      cases parseAnchorLine first with
      | none => exact ⟨rfl, fun _ h => (nomatch h)⟩
      | some anchor =>
        refine ⟨readSegmentLines_anchor rest 0 _, fun other h => ?_⟩
        rw [Option.some.inj h]

end

/-! ### A file -/

variable {condition : Prop}

theorem failUnless_eq_nil [Decidable condition] {failure : String} :
    failUnless condition failure = [] ↔ condition := by
  unfold failUnless
  split
  · next h => exact ⟨fun _ => h, fun _ => rfl⟩
  · next h => exact ⟨fun hn => (nomatch hn), fun hc => absurd hc h⟩

theorem guarded_eq_nil {guarded : Prop} [Decidable condition] [Decidable guarded]
    {failure : String} :
    (if condition then failUnless guarded failure else []) = [] ↔ (condition → guarded) := by
  split
  · next h => exact failUnless_eq_nil.trans ⟨fun hg _ => hg, fun ha => ha h⟩
  · next h => exact ⟨fun _ hc => absurd hc h, fun _ => rfl⟩

theorem readSegment_events [AuditHost] (text : String) :
    (readSegment text).events = eventLines (readLines text).tail := by
  unfold readSegment
  cases readLines text <;> rfl

section

variable [SealHost]

/-- The lines of a segment that `verify` accepts. -/
structure Verified (signer : AnchorSigner) (tenantId : String) (recorded : List AuditChainAnchor)
    (anchor : SegmentAnchorLine) (events : List SegmentEventLine) : Prop where
  tenantId : anchor.tenantId = some (.str tenantId)
  lines : LinesOk (SegmentState.start anchor).previousHash events
  rowCount : (events.length : ℤ) = anchor.rowCount
  segmentHash : events.foldl (fun a event => .str (chainStep a event.eventHash))
    (column (coalesce anchor.previousAnchorHash (some (.str "")))) = Json.str anchor.segmentHash
  anchorHash : anchor.hashOf = anchor.anchorHash
  signature : signer.verify anchor.anchorHash anchor.signature anchor.keyId = true
  recorded : ∃ stored, recordedAnchor recorded anchor.anchorSequence = some stored ∧
    stored.anchorHash = anchor.anchorHash

variable {signer : AnchorSigner} {tenantId name text : String} {recorded : List AuditChainAnchor}
  {seen : SeenAnchors}

/-- When a file that was read has no failure. -/
theorem segmentFailures_eq_nil {anchor : SegmentAnchorLine} {state : SegmentState} :
    segmentFailures signer name anchor state recorded seen = [] ↔
      state.failures = [] ∧ (state.events : ℤ) = anchor.rowCount ∧
        state.accumulator = .str anchor.segmentHash ∧ anchor.hashOf = anchor.anchorHash ∧
          signer.verify anchor.anchorHash anchor.signature anchor.keyId = true ∧
            (∃ stored, recordedAnchor recorded anchor.anchorSequence = some stored ∧
              stored.anchorHash = anchor.anchorHash) ∧
              anchor.anchorSequence ∉ seen.map Prod.fst := by
  unfold segmentFailures
  cases recordedAnchor recorded anchor.anchorSequence with
  | none => simp
  | some stored =>
    simp only [List.append_eq_nil_iff, failUnless_eq_nil, guarded_eq_nil, Option.some.injEq,
      exists_eq_left']
    constructor
    · rintro ⟨⟨⟨⟨⟨⟨hf, hr⟩, hh⟩, ha⟩, hsig⟩, hsto⟩, hs⟩
      exact ⟨hf, hr hf, hh ⟨hf, hr⟩, ha, hsig, hsto, hs⟩
    · rintro ⟨hf, hr, hh, ha, hsig, hsto, hs⟩
      exact ⟨⟨⟨⟨⟨⟨hf, fun _ => hr⟩, fun _ => hh⟩, ha⟩, hsig⟩, hsto⟩, hs⟩

/-- A file whose lines `verify` accepts. -/
structure Accepted (signer : AnchorSigner) (tenantId : String) (recorded : List AuditChainAnchor)
    (file : String × String) (lines : SegmentAnchorLine × List SegmentEventLine) : Prop where
  size : file.2.utf8ByteSize ≤ SEAL_LIMITS.fileBytes
  read : readSegment file.2 = ⟨some lines.1, lines.2.map some⟩
  verified : Verified signer tenantId recorded lines.1 lines.2

/-- **When `verify` accepts a file.** -/
theorem verifySegment_ok :
    (AuditSealService.verifySegment signer tenantId recorded (name, text) seen).1.ok = true ↔
      ∃ lines, Accepted signer tenantId recorded (name, text) lines ∧
        lines.1.anchorSequence ∉ seen.map Prod.fst := by
  obtain ⟨hf, hsta⟩ := readSegmentLines_first name text
  simp only [AuditSealService.verifySegment]
  by_cases hs : SEAL_LIMITS.fileBytes < text.utf8ByteSize
  · rw [if_pos hs]
    constructor
    · intro h
      cases h
    · rintro ⟨lines, hacc, -⟩
      have hsma : text.utf8ByteSize ≤ SEAL_LIMITS.fileBytes := hacc.size
      omega
  rw [if_neg hs]
  have hle := Nat.le_of_not_lt hs
  cases ha : (readSegment text).anchor with
  | none =>
    rw [ha] at hf
    simp only [hf, SegmentVerification.refused]
    constructor
    · intro h
      cases h
    · rintro ⟨lines, hacc, -⟩
      have hseg : readSegment text = _ := hacc.read
      rw [hseg] at ha
      cases ha
  | some anchor =>
    rw [ha] at hf
    have hsame : ∀ other (events : List SegmentEventLine),
        readSegment text = ⟨some other, events.map some⟩ → other = anchor := by
      intro other events hseg
      rw [hseg] at ha
      exact Option.some.inj ha
    simp only [hf]
    by_cases ht : anchor.tenantId = some (.str tenantId)
    · rw [if_neg (not_not_intro ht)]
      simp only [decide_eq_true_eq, segmentFailures_eq_nil]
      constructor
      · rintro ⟨hfai, hr, hh, hanchorHash, hsig, hsto, hseen⟩
        rw [hsta anchor ha] at hfai hr hh
        obtain ⟨events, he, hl⟩ := ok_of_readSegmentLines _ _ _ hfai
        rw [readSegmentLines_of_ok _ _ _ events rfl he hl] at hr hh
        rw [foldl_add_events] at hr
        rw [foldl_add_accumulator] at hh
        refine ⟨(anchor, events), ⟨hle, ?_, ⟨ht, hl, ?_, hh, hanchorHash, hsig, hsto⟩⟩, hseen⟩
        · show readSegment text = ⟨some anchor, events.map some⟩
          rw [← he, ← readSegment_events, ← ha]
        · rw [← hr]
          simp [SegmentState.start]
      · rintro ⟨⟨other, events⟩, ⟨-, hseg, hv⟩, hseen⟩
        obtain rfl := hsame other events hseg
        have he := congrArg Segment.events hseg
        rw [readSegment_events] at he
        rw [hsta other ha, readSegmentLines_of_ok _ _ _ events rfl he hv.lines,
          foldl_add_failures, foldl_add_events, foldl_add_accumulator]
        refine ⟨rfl, ?_, hv.segmentHash, hv.anchorHash, hv.signature, hv.recorded, hseen⟩
        rw [← hv.rowCount]
        simp [SegmentState.start]
    · rw [if_pos ht]
      constructor
      · intro h
        simp at h
      · rintro ⟨⟨other, events⟩, ⟨-, hseg, hv⟩, -⟩
        obtain rfl := hsame other events hseg
        exact absurd hv.tenantId ht

/-- The anchors that were seen behind such a file. -/
theorem Accepted.seenBehind {lines : SegmentAnchorLine × List SegmentEventLine}
    (h : Accepted signer tenantId recorded (name, text) lines)
    (hs : lines.1.anchorSequence ∉ seen.map Prod.fst) :
    (AuditSealService.verifySegment signer tenantId recorded (name, text) seen).2 =
      seen ++ [(lines.1.anchorSequence, lines.1)] := by
  obtain ⟨hf, -⟩ := readSegmentLines_first name text
  have hr : readSegment text = _ := h.read
  have hsize : ¬ SEAL_LIMITS.fileBytes < text.utf8ByteSize := Nat.not_lt.2 h.size
  rw [hr] at hf
  simp only [AuditSealService.verifySegment, hf]
  rw [if_neg hsize, if_neg (not_not_intro h.verified.tenantId), if_neg hs]

/-! ### A directory -/

/-- What the files of a pass are read as. -/
abbrev PassLines :=
  List (SegmentAnchorLine × List SegmentEventLine)

/-- The anchors a pass has seen. -/
def seenOf (lines : PassLines) : SeenAnchors :=
  lines.map fun line => (line.1.anchorSequence, line.1)

theorem verifySegments_cons (file : String × String) (files : List (String × String))
    (seen : SeenAnchors) : verifySegments signer tenantId recorded (file :: files) seen =
      let (segment, behind) := AuditSealService.verifySegment signer tenantId recorded file seen
      (segment :: (verifySegments signer tenantId recorded files behind).1,
        (verifySegments signer tenantId recorded files behind).2) :=
  rfl

/-- The anchors that were seen behind files that are accepted. -/
theorem verifySegments_seen {files : List (String × String)} {lines : PassLines}
    (h : List.Forall₂ (Accepted signer tenantId recorded) files lines)
    (hn : (lines.map fun line => line.1.anchorSequence).Nodup) : ∀ seen : SeenAnchors,
      (∀ line ∈ lines, line.1.anchorSequence ∉ seen.map Prod.fst) →
        (verifySegments signer tenantId recorded files seen).2 = seen ++ (seenOf lines) := by
  induction h with
  | nil => exact fun seen _ => (List.append_nil seen).symm
  | @cons file line files lines hf _ ih =>
    intro seen hu
    obtain ⟨name, text⟩ := file
    rw [List.map_cons, List.nodup_cons] at hn
    rw [verifySegments_cons]
    show (verifySegments signer tenantId recorded files _).2 = _
    rw [hf.seenBehind (hu line List.mem_cons_self)]
    refine (ih hn.2 _ fun other ho => ?_).trans ?_
    · rw [List.map_append, List.mem_append]
      rintro (hm | hm)
      · exact hu other (List.mem_cons_of_mem _ ho) hm
      · obtain hs : other.1.anchorSequence = line.1.anchorSequence := by simpa using hm
        exact hn.1 (hs ▸ List.mem_map_of_mem ho)
    · rw [List.append_assoc]
      rfl

/-- **When `verify` accepts the files it reads.** -/
theorem verifySegments_ok (files : List (String × String)) : ∀ seen : SeenAnchors,
    (verifySegments signer tenantId recorded files seen).1.all (·.ok) = true ↔
      ∃ lines : PassLines, List.Forall₂ (Accepted signer tenantId recorded) files lines ∧
        (lines.map fun line => line.1.anchorSequence).Nodup ∧
          ∀ line ∈ lines, line.1.anchorSequence ∉ seen.map Prod.fst := by
  induction files with
  | nil => exact fun seen => ⟨fun _ => ⟨[], .nil, List.nodup_nil, by simp⟩, fun _ => rfl⟩
  | cons file files ih =>
    intro seen
    obtain ⟨name, text⟩ := file
    rw [verifySegments_cons]
    simp only [List.all_cons, Bool.and_eq_true]
    rw [verifySegment_ok]
    constructor
    · rintro ⟨⟨line, hf, hs⟩, hr⟩
      rw [hf.seenBehind hs] at hr
      obtain ⟨lines, ha, hn, hu⟩ := (ih _).1 hr
      have ho : ∀ other ∈ lines, other.1.anchorSequence ∉ seen.map Prod.fst ∧
          other.1.anchorSequence ≠ line.1.anchorSequence := by
        intro other hm
        have := hu other hm
        rw [List.map_append, List.mem_append, not_or] at this
        simpa using this
      refine ⟨line :: lines, .cons hf ha, ?_, ?_⟩
      · rw [List.map_cons, List.nodup_cons]
        refine ⟨fun hm => ?_, hn⟩
        obtain ⟨other, hl, hseq⟩ := List.mem_map.1 hm
        exact (ho other hl).2 hseq
      · intro other hm
        rcases List.mem_cons.1 hm with rfl | hm
        · exact hs
        · exact (ho other hm).1
    · rintro ⟨lines, ha, hn, hu⟩
      cases ha with
      | @cons _ line _ lines hf hr =>
        rw [List.map_cons, List.nodup_cons] at hn
        have hs := hu line List.mem_cons_self
        refine ⟨⟨line, hf, hs⟩, ?_⟩
        rw [hf.seenBehind hs]
        refine (ih _).2 ⟨lines, hr, hn.2, fun other ho => ?_⟩
        rw [List.map_append, List.mem_append]
        rintro (hm | hm)
        · exact hu other (List.mem_cons_of_mem _ ho) hm
        · obtain hseq : other.1.anchorSequence = line.1.anchorSequence := by simpa using hm
          exact hn.1 (hseq ▸ List.mem_map_of_mem ho)

/-- **When a pass accepts a directory.** -/
theorem verify_ok {files : List (String × String)} {window : ℕ} :
    (AuditSealService.verify signer tenantId files recorded window).ok = true ↔
      ∃ lines : PassLines, List.Forall₂ (Accepted signer tenantId recorded)
          ((matchingFiles tenantId files).drop ((matchingFiles tenantId files).length - window)) lines ∧
        (lines.map fun line => line.1.anchorSequence).Nodup ∧
          chainFailuresOf (seenOf lines) recorded = [] := by
  simp only [AuditSealService.verify, Bool.and_eq_true, decide_eq_true_eq]
  rw [verifySegments_ok]
  constructor
  · rintro ⟨⟨lines, ha, hn, hu⟩, hc⟩
    rw [verifySegments_seen ha hn _ hu] at hc
    exact ⟨lines, ha, hn, hc⟩
  · rintro ⟨lines, ha, hn, hc⟩
    have hu : ∀ line ∈ lines, line.1.anchorSequence ∉ ([] : SeenAnchors).map Prod.fst :=
      fun _ _ => List.not_mem_nil
    rw [verifySegments_seen ha hn _ hu]
    exact ⟨⟨lines, ha, hn, hu⟩, hc⟩

end

end Flowdular.Audit
