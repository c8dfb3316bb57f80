/-
# Verifying segment files

`src/modules/audit/src/services/seal-service.ts`, lines 358-434 (`verify`), 437-597
(`#verifySegment`), 666-719 (`chainFailuresOf`) and 721-749 (`parseAnchorLine`,
`parseEventLine`); `database-repository.ts`, lines 730-746 (`storedAuditEventHash`), of a
line that was read.

A pass reads the files of a directory and the recorded anchors, and is a function of them.
What `JSON.parse` makes of a line is any value: the columns a parser checks have its type,
and of the others a line may hold anything or nothing.
-/

import Flowdular.Audit.Seal

namespace Flowdular.Audit

open Lib Workflows

/-! ### Lines -/

/-- The line ends Node's `readline` knows besides CRLF. -/
def isLineEnd (c : Char) : Bool :=
  c = '\n' || c = '\r' || c.toNat = 0x2028 || c.toNat = 0x2029

/-- The lines `readline` yields, the first of which began with some characters already. -/
def readLinesFrom (line : List Char) : List Char → List String
  | [] => if line = [] then [] else [String.ofList line]
  | '\r' :: '\n' :: cs => String.ofList line :: readLinesFrom [] cs
  | c :: cs =>
    if isLineEnd c then String.ofList line :: readLinesFrom [] cs else readLinesFrom (line ++ [c]) cs

/-- The lines of a text. -/
def readLines (text : String) : List String :=
  readLinesFrom [] text.toList

/-- `SegmentAnchorLine`, of what `parseAnchorLine` lets through. -/
structure SegmentAnchorLine where
  tenantId : Option Json
  anchorSequence : ℤ
  fromSequence : ℤ
  toSequence : ℤ
  rowCount : ℤ
  firstOccurredAt : Option Json
  lastOccurredAt : Option Json
  segmentHash : String
  previousAnchorHash : Option Json
  anchorHash : String
  signature : String
  keyId : String
  sealedBy : Option Json
  sealedAt : Option Json
deriving DecidableEq

/-- `SegmentEventLine`, of what `parseEventLine` lets through. -/
structure SegmentEventLine where
  id : String
  tenantId : Option Json
  sequence : ℤ
  actorId : Option Json
  action : Option Json
  subjectType : Option Json
  subjectId : Option Json
  metadataJson : Option Json
  occurredAt : Option Json
  previousHash : Option Json
  eventHash : String
  subjectKeyId : Option Json
  sealedPayload : Option Json
  sealFormat : Option Json
deriving DecidableEq

/-- A column that is a string. -/
def stringColumn (value : Json) (key : String) : Option String :=
  match value.get? key with
  | some (.str s) => some s
  | _ => none

/-- A column that is a safe integer. -/
def integerColumn (value : Json) (key : String) : Option ℤ :=
  match value.get? key with
  | some (.num n) =>
    if n.isSafeInteger then some (n.mantissa * 10 ^ n.exponent.toNat) else none
  | _ => none

/-- The anchor line a value is. -/
def anchorLineOf (value : Json) : Option SegmentAnchorLine := do
  guard (value.get? "kind" = some (.str "anchor"))
  guard (value.get? "formatVersion" = some (.str SEGMENT_FORMAT_VERSION))
  let anchorHash ← stringColumn value "anchorHash"
  let segmentHash ← stringColumn value "segmentHash"
  let signature ← stringColumn value "signature"
  let keyId ← stringColumn value "keyId"
  let anchorSequence ← integerColumn value "anchorSequence"
  let fromSequence ← integerColumn value "fromSequence"
  let toSequence ← integerColumn value "toSequence"
  let rowCount ← integerColumn value "rowCount"
  return {
    tenantId := value.get? "tenantId"
    anchorSequence := anchorSequence
    fromSequence := fromSequence
    toSequence := toSequence
    rowCount := rowCount
    firstOccurredAt := value.get? "firstOccurredAt"
    lastOccurredAt := value.get? "lastOccurredAt"
    segmentHash := segmentHash
    previousAnchorHash := value.get? "previousAnchorHash"
    anchorHash := anchorHash
    signature := signature
    keyId := keyId
    sealedBy := value.get? "sealedBy"
    sealedAt := value.get? "sealedAt" }

/-- The event line a value is. -/
def eventLineOf (value : Json) : Option SegmentEventLine := do
  guard (value.get? "kind" = some (.str "event"))
  let id ← stringColumn value "id"
  let eventHash ← stringColumn value "eventHash"
  let sequence ← integerColumn value "sequence"
  return {
    id := id
    tenantId := value.get? "tenantId"
    sequence := sequence
    actorId := value.get? "actorId"
    action := value.get? "action"
    subjectType := value.get? "subjectType"
    subjectId := value.get? "subjectId"
    metadataJson := value.get? "metadataJson"
    occurredAt := value.get? "occurredAt"
    previousHash := value.get? "previousHash"
    eventHash := eventHash
    subjectKeyId := value.get? "subjectKeyId"
    sealedPayload := value.get? "sealedPayload"
    sealFormat := value.get? "sealFormat" }

def parseAnchorLine [AuditHost] (line : String) : Option SegmentAnchorLine :=
  (AuditHost.parse line).bind anchorLineOf

def parseEventLine [AuditHost] (line : String) : Option SegmentEventLine :=
  (AuditHost.parse line).bind eventLineOf

/-- What `JSON.stringify` sees in a list where a column is absent. -/
def column (value : Option Json) : Json :=
  value.getD .null

/-- `a ?? b`. -/
def coalesce (a b : Option Json) : Option Json :=
  match a with
  | none => b
  | some .null => b
  | some value => some value

/-- `anchorHashOf`, of a line. -/
def SegmentAnchorLine.hashOf [Host] (anchor : SegmentAnchorLine) : String :=
  anchorHashOf (column anchor.tenantId) (integer anchor.anchorSequence)
    (integer anchor.fromSequence) (integer anchor.toSequence) (integer anchor.rowCount)
    (column anchor.firstOccurredAt) (column anchor.lastOccurredAt) (.str anchor.segmentHash)
    (column anchor.previousAnchorHash)

/-- `storedAuditEventHash`, of a line. -/
def SegmentEventLine.hashOf [Host] (event : SegmentEventLine) : String :=
  Host.sha256 (Json.stringify (.arr [.str event.id, column event.tenantId, integer event.sequence,
    column event.actorId, column event.action, column event.subjectType, column event.subjectId,
    column (coalesce event.sealedPayload event.metadataJson), column event.occurredAt,
    column event.previousHash, .bool (event.sealedPayload ≠ some .null), column event.subjectKeyId,
    column event.sealFormat]))

/-- `!value`. -/
def falsy : Option Json → Bool
  | none => true
  | some .null => true
  | some (.bool b) => !b
  | some (.num n) => n.mantissa = 0
  | some (.str s) => s = ""
  | some (.arr _) => false
  | some (.obj _) => false

mutual

/-- A value in a template literal. -/
def display : Json → String
  | .null => "null"
  | .bool b => if b then "true" else "false"
  | .num n => n.text
  | .str s => s
  | .arr items => String.intercalate "," (displayItems items)
  | .obj _ => "[object Object]"

/-- The items of an array, joined in a template literal. -/
def displayItems : List Json → List String
  | [] => []
  | .null :: items => "" :: displayItems items
  | item :: items => display item :: displayItems items

end

/-! ### One file -/

structure SegmentVerification where
  file : String
  ok : Bool
  anchorSequence : Option ℤ
  fromSequence : Option ℤ
  toSequence : Option ℤ
  events : ℕ
  plaintextEvents : ℕ
  signatureKeyId : Option String
  failures : List String

/-- What `#verifySegment` holds while it reads. -/
structure SegmentState where
  anchor : Option SegmentAnchorLine := none
  events : ℕ := 0
  plaintextEvents : ℕ := 0
  accumulator : Json := .str ""
  previousHash : Option Json := none
  failures : List String := []

section

variable [AuditHost]

/-- What an event line adds to it, or the failure it is. -/
def SegmentState.event (state : SegmentState) (name : String) (lineNumber : ℕ) (raw : String) :
    Except String SegmentState :=
  match parseEventLine raw with
  | none => .error s!"Line {lineNumber} of {name} is not an audit event."
  | some event =>
    if event.hashOf ≠ event.eventHash then
      .error s!"Line {lineNumber} of {name} (sequence {event.sequence}) does not match its own hash."
    else if state.previousHash ≠ none ∧ event.previousHash ≠ state.previousHash then
      .error s!"Line {lineNumber} of {name} (sequence {event.sequence}) does not link to the event before it."
    else
      .ok { state with
        previousHash := some (.str event.eventHash)
        plaintextEvents := state.plaintextEvents +
          if event.sealedPayload = some .null ∧ falsy event.sealFormat then 1 else 0
        accumulator := .str (chainStep state.accumulator event.eventHash)
        events := state.events + 1 }

/-- The state behind the anchor line. -/
def SegmentState.start (anchor : SegmentAnchorLine) : SegmentState where
  anchor := some anchor
  accumulator := column (coalesce anchor.previousAnchorHash (some (.str "")))
  previousHash := if 1 < anchor.fromSequence then none else some .null

/-- The loop of `#verifySegment` over the lines behind line `lineNumber`. -/
def readSegmentLines (name : String) : ℕ → List String → SegmentState → SegmentState
  | _, [], state => state
  | lineNumber, raw :: rest, state =>
    if trim raw = "" then readSegmentLines name (lineNumber + 1) rest state
    else if lineNumber = 0 then
      match parseAnchorLine raw with
      | none => state
      | some anchor => readSegmentLines name (lineNumber + 1) rest (.start anchor)
    else if state.failures ≠ [] then state
    else
      match state.event name (lineNumber + 1) raw with
      | .error failure => { state with failures := state.failures ++ [failure] }
      | .ok state => readSegmentLines name (lineNumber + 1) rest state

example {name : String} {lineNumber : ℕ} {state : SegmentState} :
    readSegmentLines name lineNumber [] state = state := by
  rw [readSegmentLines]

end

/-- What a condition that fails adds to the failures. -/
def failUnless (condition : Prop) [Decidable condition] (failure : String) : List String :=
  if condition then [] else [failure]

/-- The recorded anchor of a sequence: the last one set in the map. -/
def recordedAnchor (recorded : List AuditChainAnchor) (anchorSequence : ℤ) : Option AuditChainAnchor :=
  recorded.reverse.find? fun anchor => anchor.anchorSequence = anchorSequence

/-- The anchor lines that were seen, by their sequence. -/
abbrev SeenAnchors :=
  List (ℤ × SegmentAnchorLine)

/-- A file that is no segment at all. -/
def SegmentVerification.refused (name failure : String) : SegmentVerification where
  file := name
  ok := false
  anchorSequence := none
  fromSequence := none
  toSequence := none
  events := 0
  plaintextEvents := 0
  signatureKeyId := none
  failures := [failure]

section

variable [SealHost]

/-- What `#verifySegment` finds wrong with a file once it has read it. -/
def segmentFailures (signer : AnchorSigner) (name : String) (anchor : SegmentAnchorLine)
    (state : SegmentState) (recorded : List AuditChainAnchor) (seen : SeenAnchors) : List String :=
  let failures := state.failures ++ if state.failures = [] then
      failUnless ((state.events : ℤ) = anchor.rowCount)
        s!"{name} holds {state.events} events and its anchor claims {anchor.rowCount}."
    else []
  let failures := failures ++ if failures = [] then
      failUnless (state.accumulator = .str anchor.segmentHash)
        s!"The segment hash of {name} does not match its anchor."
    else []
  failures ++ failUnless (anchor.hashOf = anchor.anchorHash)
      s!"The anchor of {name} does not match its own hash." ++
    failUnless (signer.verify anchor.anchorHash anchor.signature anchor.keyId = true)
      s!"The anchor signature of {name} does not verify under key {anchor.keyId}." ++
    (match recordedAnchor recorded anchor.anchorSequence with
      | none => [s!"The workspace records no anchor {anchor.anchorSequence} for {name}."]
      | some stored =>
        failUnless (stored.anchorHash = anchor.anchorHash)
          s!"The anchor of {name} differs from the one the workspace recorded.") ++
    failUnless (anchor.anchorSequence ∉ seen.map Prod.fst)
      s!"Two segment files claim anchor {anchor.anchorSequence}."

/-- `#verifySegment`, with the anchors seen behind it. -/
def AuditSealService.verifySegment (signer : AnchorSigner) (tenantId : String)
    (recorded : List AuditChainAnchor) (file : String × String) (seen : SeenAnchors) :
    SegmentVerification × SeenAnchors :=
  let (name, text) := file
  if SEAL_LIMITS.fileBytes < text.utf8ByteSize then
    (.refused name s!"{name} is larger than {SEAL_LIMITS.fileBytes} bytes and was not read.", seen)
  else
    let state := readSegmentLines name 0 (readLines text) {}
    match state.anchor with
    | none => (.refused name s!"{name} does not start with a segment anchor.", seen)
    | some anchor =>
      let verification := fun failures : List String => ({
        file := name
        ok := failures = []
        anchorSequence := some anchor.anchorSequence
        fromSequence := some anchor.fromSequence
        toSequence := some anchor.toSequence
        events := state.events
        plaintextEvents := state.plaintextEvents
        signatureKeyId := some anchor.keyId
        failures := failures } : SegmentVerification)
      let named := anchor.tenantId.elim "undefined" display
      if anchor.tenantId ≠ some (.str tenantId) then
        (verification (state.failures ++
          [s!"{name} is named after this workspace and its anchor names {named}."]), seen)
      else
        (verification (segmentFailures signer name anchor state recorded seen),
          if anchor.anchorSequence ∈ seen.map Prod.fst then seen
          else seen ++ [(anchor.anchorSequence, anchor)])

end

/-! ### The chain of the files -/

/-- What is wrong between an anchor and the one before it. -/
def linkFailures (previous anchor : SegmentAnchorLine) : List String :=
  failUnless (anchor.previousAnchorHash = some (.str previous.anchorHash))
    s!"Anchor {anchor.anchorSequence} does not link to anchor {previous.anchorSequence}." ++
  failUnless (anchor.anchorSequence = previous.anchorSequence + 1)
    s!"Anchor {anchor.anchorSequence} follows anchor {previous.anchorSequence}, so a segment is missing from this directory." ++
  failUnless (anchor.fromSequence = previous.toSequence + 1)
    s!"Anchor {anchor.anchorSequence} starts at sequence {anchor.fromSequence} and anchor {previous.anchorSequence} ended at {previous.toSequence}."

/-- What is wrong along a list of anchors. -/
def chainLinkFailures : List SegmentAnchorLine → List String
  | previous :: anchor :: rest => linkFailures previous anchor ++ chainLinkFailures (anchor :: rest)
  | _ => []

def chainFailuresOf (seen : SeenAnchors) (recorded : List AuditChainAnchor) : List String :=
  let ordered := seen.insertionSort fun a b => a.1 ≤ b.1
  let sequences := ((recorded.map (·.anchorSequence)).dedup).insertionSort (· ≤ ·)
  match ordered with
  | [] =>
    if sequences ≠ [] then
      [s!"This workspace records {sequences.length} anchors and the directory holds no segment for any of them."]
    else []
  | lowest :: _ =>
    chainLinkFailures (ordered.map Prod.snd) ++
      (sequences.filter fun sequence => lowest.1 ≤ sequence ∧ sequence ∉ seen.map Prod.fst).map
        fun sequence =>
          s!"This workspace records anchor {sequence} and the directory holds no segment for it."

/-! ### A pass -/

structure VerifyReport where
  ok : Bool
  segments : List SegmentVerification
  anchors : ℕ
  chainFailures : List String
  events : ℕ
  plaintextEvents : ℕ
  limit : ℕ
  files : ℕ
  recorded : ℕ
  truncated : Bool

/-- The files `verify` selects by their name, in the order of their names. -/
def matchingFiles (tenantId : String) (files : List (String × String)) : List (String × String) :=
  (files.filter fun file =>
    (segmentNamePrefix tenantId).toList.isPrefixOf file.1.toList &&
      ".jsonl".toList.isSuffixOf file.1.toList).insertionSort
    fun a b => unitsLE (codeUnits a.1) (codeUnits b.1)

section

variable [SealHost]

/-- The files one by one, with the anchors that were seen. -/
def verifySegments (signer : AnchorSigner) (tenantId : String) (recorded : List AuditChainAnchor) :
    List (String × String) → SeenAnchors → List SegmentVerification × SeenAnchors
  | [], seen => ([], seen)
  | file :: files, seen =>
    let (segment, seen) := AuditSealService.verifySegment signer tenantId recorded file seen
    let (segments, seen) := verifySegments signer tenantId recorded files seen
    (segment :: segments, seen)

/-- `verify`, of the files of a directory, the anchors that are recorded and a window. -/
def AuditSealService.verify (signer : AnchorSigner) (tenantId : String)
    (files : List (String × String)) (recorded : List AuditChainAnchor) (window : ℕ) :
    VerifyReport :=
  let matching := matchingFiles tenantId files
  let read := matching.drop (matching.length - window)
  let (segments, seen) := verifySegments signer tenantId recorded read []
  let chainFailures := chainFailuresOf seen recorded
  { ok := (segments.all (·.ok)) && chainFailures = []
    segments := segments
    anchors := seen.length
    chainFailures := chainFailures
    events := (segments.map (·.events)).sum
    plaintextEvents := (segments.map (·.plaintextEvents)).sum
    limit := window
    files := read.length
    recorded := recorded.length
    truncated := read.length < matching.length || window ≤ recorded.length }

end

end Flowdular.Audit
