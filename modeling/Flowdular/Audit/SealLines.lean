/-
# Segment files as text

A text without line ends is one line of `readline`, so a segment file is read line by line
as it was written, as long as no text in it has one of the two separators that
`JSON.stringify` does not escape (`readLines_segmentText`, `readSegment_segmentText`).
-/

import Flowdular.Audit.SealPass

namespace Flowdular.Audit

open Lib Workflows

/-! ### Line ends -/

/-- A text that has neither U+2028 nor U+2029. -/
def Plain (s : String) : Prop :=
  ∀ c ∈ s.toList, c.toNat ≠ 0x2028 ∧ c.toNat ≠ 0x2029

/-- Characters none of which ends a line. -/
def OneLine (cs : List Char) : Prop :=
  ∀ c ∈ cs, isLineEnd c = false

instance (cs : List Char) : Decidable (OneLine cs) :=
  List.decidableBAll (fun c => isLineEnd c = false) cs

variable {c : Char} {cs : List Char} {s : String} {anchor : AuditChainAnchor}
  {event : StoredAuditEvent}

theorem isLineEnd_eq_false :
    isLineEnd c = false ↔ c ≠ '\n' ∧ c ≠ '\r' ∧ c.toNat ≠ 0x2028 ∧ c.toNat ≠ 0x2029 := by
  unfold isLineEnd
  simp only [Bool.or_eq_false_iff, decide_eq_false_iff_not, and_assoc, ne_eq]

/-- What a line begins with, in front of the line end. -/
theorem readLinesFrom_oneLine (h : OneLine cs) (rest : List Char) :
    ∀ line : List Char, readLinesFrom line (cs ++ '\n' :: rest) =
      String.ofList (line ++ cs) :: readLinesFrom [] rest := by
  induction cs with
  | nil =>
    intro line
    rw [List.nil_append, List.append_nil, readLinesFrom]
    · rfl
    · rintro _ hr
      exact absurd hr (by decide)
  | cons c cs ih =>
    intro line
    have hc := h c List.mem_cons_self
    have hr := (isLineEnd_eq_false.1 hc).2.1
    rw [List.cons_append, readLinesFrom]
    · rw [hc, if_neg Bool.false_ne_true, ih fun d hd => h d (List.mem_cons_of_mem _ hd),
        List.append_assoc, List.singleton_append]
    · intro _ hs
      exact absurd hs hr

/-- **Lines are read as they were written.** -/
theorem readLines_lines {lines : List String} (h : ∀ line ∈ lines, OneLine line.toList) :
    readLines (String.join (lines.map (· ++ "\n"))) = lines := by
  have hj : (String.join (lines.map (· ++ "\n"))).toList =
      lines.flatMap fun line => line.toList ++ ['\n'] := by
    rw [String.toList_join, List.flatMap_map]
    refine congrArg (fun f => List.flatMap f lines) (funext fun line => ?_)
    rw [String.toList_append]
    rfl
  unfold readLines
  rw [hj]
  clear hj
  induction lines with
  | nil => rfl
  | cons line lines ih =>
    rw [List.flatMap_cons, List.append_assoc, List.singleton_append,
      readLinesFrom_oneLine (h line List.mem_cons_self),
      ih fun other ho => h other (List.mem_cons_of_mem _ ho)]
    rw [List.nil_append, String.ofList_toList]

/-! ### The text of a value -/

/-- A value that is written on one line. -/
def LineFree (v : Json) : Prop :=
  OneLine (Json.stringify v).toList

theorem OneLine.append {ds : List Char} (hcs : OneLine cs) (hds : OneLine ds) :
    OneLine (cs ++ ds) := by
  intro c hc
  rcases List.mem_append.1 hc with hc | hc
  · exact hcs c hc
  · exact hds c hc

theorem OneLine.cons (hc : isLineEnd c = false) (hcs : OneLine cs) : OneLine (c :: cs) := by
  intro d hd
  rcases List.mem_cons.1 hd with rfl | hd
  · exact hc
  · exact hcs d hd

theorem oneLine_nil : OneLine [] :=
  fun _ h => absurd h List.not_mem_nil

theorem oneLine_hexDigit {n : ℕ} (hn : n < 16) : isLineEnd (Json.hexDigit n) = false := by
  have ha : ∀ i : Fin 16, isLineEnd (Json.hexDigit i) = false := by decide
  exact ha ⟨n, hn⟩

theorem oneLine_quoteChar (h : c.toNat ≠ 0x2028 ∧ c.toNat ≠ 0x2029) :
    OneLine (Json.quoteChar c) := by
  have hs : ∀ {d : Char}, isLineEnd d = false → OneLine [d] := fun hd => .cons hd oneLine_nil
  have hp : ∀ {d e : Char}, isLineEnd d = false → isLineEnd e = false → OneLine [d, e] :=
    fun hd he => .cons hd (hs he)
  unfold Json.quoteChar
  simp only
  split
  · exact hp (by decide) (by decide)
  split
  · exact hp (by decide) (by decide)
  split
  · exact hp (by decide) (by decide)
  split
  · exact hp (by decide) (by decide)
  split
  · exact hp (by decide) (by decide)
  split
  · exact hp (by decide) (by decide)
  split
  · exact hp (by decide) (by decide)
  next hn _ hr =>
  split
  · next hl =>
    exact .cons (by decide) (.cons (by decide) (.cons (by decide) (.cons (by decide)
      (.cons (oneLine_hexDigit (by omega)) (hs (oneLine_hexDigit (by omega)))))))
  · refine hs (isLineEnd_eq_false.2 ⟨?_, ?_, h⟩)
    · rintro rfl
      exact hn rfl
    · rintro rfl
      exact hr rfl

theorem oneLine_quote (h : Plain s) : OneLine (Json.quote s).toList := by
  unfold Json.quote
  rw [String.toList_ofList]
  refine .append (.cons (by decide) fun c hc => ?_) (.cons (by decide) oneLine_nil)
  obtain ⟨d, hd, hc⟩ := List.mem_flatMap.1 hc
  exact oneLine_quoteChar (h d hd) c hc

theorem lineFree_null : LineFree .null := by
  unfold LineFree
  rw [show Json.stringify .null = "null" from by rw [Json.stringify]]
  exact List.forall_iff_forall_mem.1 (by decide)

theorem lineFree_str (h : Plain s) : LineFree (.str s) := by
  unfold LineFree
  rw [Json.stringify]
  exact oneLine_quote h

theorem lineFree_num (d : Decimal) : LineFree (.num d) := by
  unfold LineFree
  rw [Json.stringify]
  intro c hc
  rcases Decimal.isNumberChar_of_mem_text d hc with hd | hs
  · have hr : 48 ≤ c.toNat ∧ c.toNat ≤ 57 := by
      simpa [Char.isDigit, UInt32.le_iff_toNat_le] using hd
    refine isLineEnd_eq_false.2 ⟨?_, ?_, by omega, by omega⟩
    · rintro rfl
      exact absurd hr (by decide)
    · rintro rfl
      exact absurd hr (by decide)
  · have ha : ∀ e ∈ ['-', '+', '.', 'e'], isLineEnd e = false :=
      List.forall_iff_forall_mem.1 (by decide)
    exact ha c hs

theorem lineFree_nullable {s : Option String} (h : ∀ text ∈ s, Plain text) :
    LineFree (nullable s) := by
  cases s with
  | none => exact lineFree_null
  | some text => exact lineFree_str (h text rfl)

theorem oneLine_intercalate {items : List (List Char)} (h : ∀ cs ∈ items, OneLine cs) :
    OneLine ([','].intercalate items) := by
  induction items with
  | nil => exact oneLine_nil
  | cons cs items ih =>
    cases items with
    | nil =>
      rw [List.intercalate_singleton]
      exact h cs List.mem_cons_self
    | cons ds items =>
      rw [List.intercalate_cons_cons]
      refine .append (.append (h cs List.mem_cons_self) (.cons (by decide) oneLine_nil)) ?_
      exact ih fun es hes => h es (List.mem_cons_of_mem _ hes)

theorem lineFree_obj {fields : List (String × Json)} (h : ∀ e ∈ fields, Plain e.1 ∧ LineFree e.2) :
    LineFree (.obj fields) := by
  have hf : OneLine ([','].intercalate (fields.map Json.entryChars)) := by
    refine oneLine_intercalate fun cs hcs => ?_
    obtain ⟨e, he, rfl⟩ := List.mem_map.1 hcs
    exact .append (oneLine_quote (h e he).1) (.cons (by decide) (h e he).2)
  have hc := Json.chars_obj fields
  unfold LineFree
  rw [show (Json.stringify (.obj fields)).toList = _ from hc]
  exact .cons (by decide) (hf.append (.cons (by decide) oneLine_nil))

/-! ### The line of an anchor, and of an event -/

/-- An integer that JavaScript holds exactly. -/
def Safe (n : ℤ) : Prop :=
  |n| ≤ 9007199254740991

/-- The columns of an anchor stand on one line, and its numbers are exact. -/
structure AuditChainAnchor.Plain (anchor : AuditChainAnchor) : Prop where
  tenantId : Audit.Plain anchor.tenantId
  segmentHash : Audit.Plain anchor.segmentHash
  previousAnchorHash : ∀ hash ∈ anchor.previousAnchorHash, Audit.Plain hash
  anchorHash : Audit.Plain anchor.anchorHash
  signature : Audit.Plain anchor.signature
  keyId : Audit.Plain anchor.keyId
  sealedBy : Audit.Plain anchor.sealedBy
  anchorSequence : Safe anchor.anchorSequence
  fromSequence : Safe anchor.fromSequence
  toSequence : Safe anchor.toSequence
  rowCount : Safe anchor.rowCount
  firstOccurredAt : Safe anchor.firstOccurredAt
  lastOccurredAt : Safe anchor.lastOccurredAt
  sealedAt : Safe anchor.sealedAt

/-- The columns of an event stand on one line, and its numbers are exact. -/
structure StoredAuditEvent.Plain (event : StoredAuditEvent) : Prop where
  id : Audit.Plain event.id
  tenantId : Audit.Plain event.tenantId
  actorId : Audit.Plain event.actorId
  action : Audit.Plain event.action
  subjectType : Audit.Plain event.subjectType
  subjectId : Audit.Plain event.subjectId
  metadataJson : Audit.Plain event.metadataJson
  previousHash : ∀ hash ∈ event.previousHash, Audit.Plain hash
  eventHash : Audit.Plain event.eventHash
  subjectKeyId : ∀ keyId ∈ event.subjectKeyId, Audit.Plain keyId
  sealedPayload : ∀ payload ∈ event.sealedPayload, Audit.Plain payload
  sealFormat : ∀ format ∈ event.sealFormat, Audit.Plain format
  sequence : Safe event.sequence
  occurredAt : Safe event.occurredAt

theorem plain_of_ascii (h : s.toList.all fun c => c.toNat < 128) : Plain s := by
  intro c hc
  have := List.all_eq_true.1 h c hc
  simp only [decide_eq_true_eq] at this
  omega

theorem AuditChainAnchor.Plain.lineFree (h : anchor.Plain) : LineFree (.obj anchor.line) := by
  have hk : ∀ key ∈ ["kind", "formatVersion", "tenantId", "anchorSequence", "fromSequence",
      "toSequence", "rowCount", "firstOccurredAt", "lastOccurredAt", "segmentHash",
      "previousAnchorHash", "anchorHash", "signature", "keyId", "sealedBy", "sealedAt"],
      key.toList.all (fun c => c.toNat < 128) = true := by decide
  refine lineFree_obj fun e he => ⟨plain_of_ascii (hk e.1 (List.mem_map_of_mem he)), ?_⟩
  simp only [AuditChainAnchor.line, List.mem_cons, List.not_mem_nil, or_false] at he
  rcases he with rfl | rfl | rfl | rfl | rfl | rfl | rfl | rfl | rfl | rfl | rfl | rfl | rfl | rfl |
    rfl | rfl
  · exact lineFree_str (plain_of_ascii (by decide))
  · exact lineFree_str (plain_of_ascii (by decide))
  · exact lineFree_str h.tenantId
  · exact lineFree_num _
  · exact lineFree_num _
  · exact lineFree_num _
  · exact lineFree_num _
  · exact lineFree_num _
  · exact lineFree_num _
  · exact lineFree_str h.segmentHash
  · exact lineFree_nullable h.previousAnchorHash
  · exact lineFree_str h.anchorHash
  · exact lineFree_str h.signature
  · exact lineFree_str h.keyId
  · exact lineFree_str h.sealedBy
  · exact lineFree_num _

theorem StoredAuditEvent.Plain.lineFree (h : event.Plain) : LineFree (.obj event.line) := by
  have hk : ∀ key ∈ ["kind", "id", "tenantId", "sequence", "actorId", "action", "subjectType",
      "subjectId", "metadataJson", "occurredAt", "previousHash", "eventHash", "subjectKeyId",
      "sealedPayload", "sealFormat"], key.toList.all (fun c => c.toNat < 128) = true := by decide
  refine lineFree_obj fun e he => ⟨plain_of_ascii (hk e.1 (List.mem_map_of_mem he)), ?_⟩
  simp only [StoredAuditEvent.line, StoredAuditEvent.columns, List.mem_cons, List.not_mem_nil,
    or_false] at he
  rcases he with rfl | rfl | rfl | rfl | rfl | rfl | rfl | rfl | rfl | rfl | rfl | rfl | rfl | rfl | rfl
  · exact lineFree_str (plain_of_ascii (by decide))
  · exact lineFree_str h.id
  · exact lineFree_str h.tenantId
  · exact lineFree_num _
  · exact lineFree_str h.actorId
  · exact lineFree_str h.action
  · exact lineFree_str h.subjectType
  · exact lineFree_str h.subjectId
  · exact lineFree_str h.metadataJson
  · exact lineFree_num _
  · exact lineFree_nullable h.previousHash
  · exact lineFree_str h.eventHash
  · exact lineFree_nullable h.subjectKeyId
  · exact lineFree_nullable h.sealedPayload
  · exact lineFree_nullable h.sealFormat

theorem integerColumn_eq {value : Json} {key : String} {n : ℤ}
    (h : value.get? key = some (integer n)) (hs : Safe n) : integerColumn value key = some n := by
  unfold integerColumn
  rw [h]
  show (if (Decimal.ofInt n).isSafeInteger = true then _ else _) = _
  rw [if_pos ((isSafeInteger_ofInt n).2 hs), Decimal.whole_ofInt]

theorem anchorLineOf_line (h : anchor.Plain) :
    anchorLineOf (.obj anchor.line) = some anchor.segmentLine := by
  unfold anchorLineOf
  rw [integerColumn_eq (n := anchor.anchorSequence) rfl h.anchorSequence,
    integerColumn_eq (n := anchor.fromSequence) rfl h.fromSequence,
    integerColumn_eq (n := anchor.toSequence) rfl h.toSequence,
    integerColumn_eq (n := anchor.rowCount) rfl h.rowCount]
  rfl

theorem eventLineOf_line (h : event.Plain) :
    eventLineOf (.obj event.line) = some event.segmentLine := by
  unfold eventLineOf
  rw [integerColumn_eq (n := event.sequence) rfl h.sequence]
  rfl

/-! ### The text of a segment -/

/-- The lines of a segment. -/
def segmentLines (anchor : AuditChainAnchor) (events : List StoredAuditEvent) : List String :=
  Json.stringify (.obj anchor.line) :: events.map fun event => Json.stringify (.obj event.line)

theorem segmentText_eq (anchor : AuditChainAnchor) (events : List StoredAuditEvent) :
    segmentText anchor events = String.join ((segmentLines anchor events).map (· ++ "\n")) := by
  unfold segmentText segmentLines lineText
  rw [List.map_cons, String.join_cons, List.map_map]
  rfl

/-- **A segment file is read line by line as it was written.** -/
theorem readLines_segmentText {events : List StoredAuditEvent}
    (ha : anchor.Plain) (heve : ∀ event ∈ events, event.Plain) :
    readLines (segmentText anchor events) = segmentLines anchor events := by
  rw [segmentText_eq]
  refine readLines_lines fun line hl => ?_
  rcases List.mem_cons.1 hl with rfl | hl
  · exact ha.lineFree
  · obtain ⟨event, he, rfl⟩ := List.mem_map.1 hl
    exact (heve event he).lineFree

/-- The text of an object is not blank. -/
theorem trim_obj (fields : List (String × Json)) : trim (Json.stringify (.obj fields)) ≠ "" := by
  have hc := Json.chars_obj fields
  have hb : isWhiteSpace (Char.ofNat 0x7b) = false := by decide
  intro h
  have hn : trimChars (Json.stringify (.obj fields)).toList = [] := by
    have hl := congrArg String.toList h
    rwa [trim, String.toList_ofList] at hl
  unfold trimChars at hn
  rw [show (Json.stringify (.obj fields)).toList = _ from hc, List.dropWhile_cons, hb,
    if_neg Bool.false_ne_true, List.rdropWhile_eq_nil_iff] at hn
  have := hn _ List.mem_cons_self
  rw [hb] at this
  cases this

/-- `JSON.parse` reads back what `JSON.stringify` made of a line. -/
structure Parses [AuditHost] : Prop where
  anchor : ∀ anchor : AuditChainAnchor, anchor.Plain →
    AuditHost.parse (Json.stringify (.obj anchor.line)) = some (.obj anchor.line)
  event : ∀ event : StoredAuditEvent, event.Plain →
    AuditHost.parse (Json.stringify (.obj event.line)) = some (.obj event.line)

/-- **A segment file is read as the segment it holds.** -/
theorem readSegment_segmentText [AuditHost] (hp : Parses)
    {events : List StoredAuditEvent} (ha : anchor.Plain)
    (heve : ∀ event ∈ events, event.Plain) :
    readSegment (segmentText anchor events) =
      ⟨some anchor.segmentLine, (events.map (·.segmentLine)).map some⟩ := by
  have hl : eventLines (events.map fun event => Json.stringify (.obj event.line)) =
      (events.map (·.segmentLine)).map some := by
    unfold eventLines
    have hf : (events.map fun event => Json.stringify (.obj event.line)).filter
        (fun raw => trim raw ≠ "") = events.map fun event => Json.stringify (.obj event.line) := by
      refine List.filter_eq_self.2 fun line hline => ?_
      obtain ⟨event, -, rfl⟩ := List.mem_map.1 hline
      simpa using trim_obj event.line
    rw [hf, List.map_map, List.map_map]
    refine List.map_congr_left fun event he => ?_
    show parseEventLine (Json.stringify (.obj event.line)) = some event.segmentLine
    unfold parseEventLine
    rw [hp.event event (heve event he), Option.bind_some, eventLineOf_line (heve event he)]
  unfold readSegment
  rw [readLines_segmentText ha heve]
  unfold segmentLines
  simp only [hl, if_neg (trim_obj anchor.line)]
  unfold parseAnchorLine
  rw [hp.anchor anchor ha, Option.bind_some, anchorLineOf_line ha]

/-! ### What is accepted -/

section

variable [AuditHost]

theorem segmentLine_hashOf (event : StoredAuditEvent) :
    event.segmentLine.hashOf = storedAuditEventHash event := by
  unfold SegmentEventLine.hashOf storedAuditEventHash
  cases hp : event.sealedPayload with
  | none => simp [StoredAuditEvent.segmentLine, nullColumn, nullable, column, coalesce, integer, hp]
  | some payload =>
    simp [StoredAuditEvent.segmentLine, nullColumn, nullable, column, coalesce, integer, hp]

/-- The lines of events that carry their hashes and name each other's. -/
theorem linesOk_segmentLines {events : List StoredAuditEvent}
    (hh : ∀ event ∈ events, event.eventHash = storedAuditEventHash event)
    (hl : events.IsChain fun a b => b.previousHash = some a.eventHash) :
    ∀ previous : Option Json, (∀ event ∈ events.head?, previous ≠ none →
      event.segmentLine.previousHash = previous) → LinesOk previous (events.map (·.segmentLine)) := by
  induction events with
  | nil => exact fun _ _ => trivial
  | cons event events ih =>
    intro previous hf
    refine ⟨?_, hf event rfl, ?_⟩
    · rw [segmentLine_hashOf]
      exact (hh event List.mem_cons_self).symm
    · refine ih (fun other ho => hh other (List.mem_cons_of_mem _ ho)) hl.of_cons _ ?_
      intro other ho _
      cases events with
      | nil => cases ho
      | cons next events =>
        obtain rfl : next = other := Option.some.inj ho
        have hp := (List.isChain_cons_cons.1 hl).1
        show nullColumn next.previousHash = _
        rw [hp]
        rfl

/-- A step of the segment hash, of values. -/
def chainValue (a : Json) (eventHash : String) : Json :=
  .str (chainStep a eventHash)

theorem str_segmentChain (previousAnchorHash : Option String) (hashes : List String) :
    Json.str (segmentChain previousAnchorHash hashes) =
      hashes.foldl chainValue (.str (previousAnchorHash.getD "")) := by
  unfold segmentChain
  exact (List.foldl_hom Json.str fun _ _ => rfl).symm

theorem foldl_chainValue (events : List SegmentEventLine) (a : Json) :
    events.foldl (fun a event => .str (chainStep a event.eventHash)) a =
      (events.map (·.eventHash)).foldl chainValue a := by
  rw [List.foldl_map]
  rfl

end

section

variable [SealHost]

/-- An anchor and events that `verify` accepts when they are written. -/
structure Written (signer : AnchorSigner) (recorded : List AuditChainAnchor)
    (anchor : AuditChainAnchor) (events : List StoredAuditEvent) : Prop where
  plainAnchor : anchor.Plain
  plainEvents : ∀ event ∈ events, event.Plain
  size : (segmentText anchor events).utf8ByteSize ≤ SEAL_LIMITS.fileBytes
  rowCount : anchor.rowCount = events.length
  anchorHash : anchor.anchorHash = anchor.hashOf
  segmentHash : anchor.segmentHash =
    segmentChain anchor.previousAnchorHash (events.map (·.eventHash))
  hashes : ∀ event ∈ events, event.eventHash = storedAuditEventHash event
  links : events.IsChain fun a b => b.previousHash = some a.eventHash
  first : anchor.fromSequence ≤ 1 → ∀ event ∈ events.head?, event.previousHash = none
  signature : signer.verify anchor.anchorHash anchor.signature anchor.keyId = true
  recorded : ∃ stored, recordedAnchor recorded anchor.anchorSequence = some stored ∧
    stored.anchorHash = anchor.anchorHash

/-- **What is written is accepted.** -/
theorem Written.accepted (hp : Parses) {signer : AnchorSigner}
    {recorded : List AuditChainAnchor} {anchor : AuditChainAnchor} {events : List StoredAuditEvent}
    (h : Written signer recorded anchor events) (name : String) :
    Accepted signer anchor.tenantId recorded (name, segmentText anchor events)
      (anchor.segmentLine, events.map (·.segmentLine)) where
  size := h.size
  read := readSegment_segmentText hp h.plainAnchor h.plainEvents
  verified := {
    tenantId := rfl
    lines := by
      refine linesOk_segmentLines h.hashes h.links _ fun event he hne => ?_
      unfold SegmentState.start at hne ⊢
      by_cases hf : 1 < anchor.segmentLine.fromSequence
      · rw [if_pos hf] at hne
        exact absurd rfl hne
      · rw [if_neg hf]
        have hle : anchor.fromSequence ≤ 1 := Int.not_lt.1 hf
        show nullColumn event.previousHash = _
        rw [h.first hle event he]
        rfl
    rowCount := by
      rw [List.length_map]
      exact h.rowCount.symm
    segmentHash := by
      rw [foldl_chainValue, List.map_map]
      show _ = Json.str anchor.segmentHash
      rw [h.segmentHash, str_segmentChain]
      refine congrArg (List.foldl chainValue · _) ?_
      show column (coalesce (nullColumn anchor.previousAnchorHash) _) = _
      cases anchor.previousAnchorHash <;> rfl
    anchorHash := h.anchorHash.symm
    signature := h.signature
    recorded := h.recorded }

end

end Flowdular.Audit
