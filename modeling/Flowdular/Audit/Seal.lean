/-
# Sealing the audit chain

`src/modules/audit/src/services/seal-service.ts`, lines 17-61 (`SEAL_LIMITS`, `chainStep`
and the lines of a segment), 136-184 (`segmentChain`, `anchorHashOf`), 214-356 (`plan`,
`seal`), 599-655 (`#write`, `#walk`) and 750-769 (the names); `anchor-key.ts`, lines 29-86;
`database-repository.ts`, lines 328-357 (`SQL.sealAuditEvents`, `SQL.insertAnchor` …
`SQL.listAnchors`), 1424-1436 and 1485-1545; the table `audit_anchors` in `migration.ts`.

Appends and seal runs of any number of workspaces take turns call by call on the tables
and on one seal directory.  An entry of the directory names an inode, and a handle writes
to its inode whatever becomes of the entry.  A call may fail, whether it took effect or
not, and a write may stop half way.  The loop of `#walk` has a bound on its pages, which a
request brings along: a run that needs more of them is a run of a request that brings more.
-/

import Flowdular.Audit.Repository
import Flowdular.Lib.Record
import Mathlib.Logic.Function.Basic

namespace Flowdular.Audit

open Lib Workflows

/-! ### Bounds -/

/-- Events one page of the walk carries. -/
def SEAL_LIMITS.page : ℕ := 500

/-- Events one segment may close. -/
def SEAL_LIMITS.rowsPerSegment : ℤ := 200000

/-- Files one verification pass reads, and anchors. -/
def SEAL_LIMITS.filesPerVerify : ℕ := 4096

/-- Bytes one segment file may hold. -/
def SEAL_LIMITS.fileBytes : ℕ := 256 * 1024 * 1024

def SEGMENT_FORMAT_VERSION : String := "audit-segment/1"

/-! ### The anchor key -/

/-- An anchor key: 32 bytes. -/
abbrev AnchorKey :=
  Vector UInt8 32

/-- What sealing takes from its host besides: `keyFingerprint` of a key and the
HMAC-SHA256 of a text under it. -/
class SealHost extends AuditHost where
  keyFingerprint : AnchorKey → String
  hmac : AnchorKey → String → Vector UInt8 32

/-- `Buffer.prototype.toString('hex')`. -/
def toHex (bytes : List UInt8) : String :=
  String.ofList (bytes.flatMap fun b => [Json.hexDigit (b.toNat / 16), Json.hexDigit (b.toNat % 16)])

/-- The value of a hexadecimal digit, of either case. -/
def hexDigitValue (c : Char) : Option ℕ :=
  let n := c.toNat
  if 48 ≤ n ∧ n ≤ 57 then some (n - 48)
  else if 97 ≤ n ∧ n ≤ 102 then some (n - 87)
  else if 65 ≤ n ∧ n ≤ 70 then some (n - 55)
  else none

/-- `Buffer.from(text, 'hex')`: the bytes up to the first pair that is none. -/
def fromHex : List Char → List UInt8
  | a :: b :: rest =>
    match hexDigitValue a, hexDigitValue b with
    | some high, some low => UInt8.ofNat (high * 16 + low) :: fromHex rest
    | _, _ => []
  | _ => []

/-- `AnchorSigner`, as `createAnchorSigner` makes it of a ring of keys. -/
structure AnchorSigner where
  current : AnchorKey
  previous : List AnchorKey := []
  bounded : previous.length ≤ 8 := by decide

section

variable [SealHost]

namespace AnchorSigner

def keyId (signer : AnchorSigner) : String :=
  SealHost.keyFingerprint signer.current

/-- `keys.get`: the key set last under a fingerprint. -/
def key (signer : AnchorSigner) (keyId : String) : Option AnchorKey :=
  (signer.current :: signer.previous).reverse.find? fun key => SealHost.keyFingerprint key = keyId

def sign (signer : AnchorSigner) (anchorHash : String) : String :=
  toHex (SealHost.hmac signer.current anchorHash).toList

def verify (signer : AnchorSigner) (anchorHash signature keyId : String) : Bool :=
  match signer.key keyId with
  | none => false
  | some key => fromHex signature.toList = (SealHost.hmac key anchorHash).toList

end AnchorSigner

end

/-! ### Anchors and lines -/

structure AuditChainAnchor where
  id : String
  tenantId : String
  anchorSequence : ℤ
  fromSequence : ℤ
  toSequence : ℤ
  rowCount : ℤ
  firstOccurredAt : ℤ
  lastOccurredAt : ℤ
  segmentHash : String
  previousAnchorHash : Option String
  anchorHash : String
  signature : String
  keyId : String
  segmentFile : String
  sealedBy : String
  sealedAt : ℤ
deriving DecidableEq

/-- `chainStep`, of any value for the accumulator. -/
def chainStep [Host] (accumulator : Json) (eventHash : String) : String :=
  Host.sha256 (Json.stringify (.arr [accumulator, .str eventHash]))

def segmentChain [Host] (previousAnchorHash : Option String) (eventHashes : List String) : String :=
  eventHashes.foldl (fun accumulator hash => chainStep (.str accumulator) hash)
    (previousAnchorHash.getD "")

/-- An integer, as a value. -/
def integer (n : ℤ) : Json :=
  .num (.ofInt n)

/-- `anchorHashOf`, of the fields it reads. -/
def anchorHashOf [Host] (tenantId anchorSequence fromSequence toSequence rowCount firstOccurredAt
    lastOccurredAt segmentHash previousAnchorHash : Json) : String :=
  Host.sha256 (Json.stringify (.arr [tenantId, anchorSequence, fromSequence, toSequence, rowCount,
    firstOccurredAt, lastOccurredAt, segmentHash, previousAnchorHash]))

/-- `anchorHashOf`, of a row. -/
def AuditChainAnchor.hashOf [Host] (anchor : AuditChainAnchor) : String :=
  anchorHashOf (.str anchor.tenantId) (integer anchor.anchorSequence) (integer anchor.fromSequence)
    (integer anchor.toSequence) (integer anchor.rowCount) (integer anchor.firstOccurredAt)
    (integer anchor.lastOccurredAt) (.str anchor.segmentHash) (nullable anchor.previousAnchorHash)

/-- The anchor line of a segment file. -/
def AuditChainAnchor.line (anchor : AuditChainAnchor) : List (String × Json) := [
  ("kind", .str "anchor"),
  ("formatVersion", .str SEGMENT_FORMAT_VERSION),
  ("tenantId", .str anchor.tenantId),
  ("anchorSequence", integer anchor.anchorSequence),
  ("fromSequence", integer anchor.fromSequence),
  ("toSequence", integer anchor.toSequence),
  ("rowCount", integer anchor.rowCount),
  ("firstOccurredAt", integer anchor.firstOccurredAt),
  ("lastOccurredAt", integer anchor.lastOccurredAt),
  ("segmentHash", .str anchor.segmentHash),
  ("previousAnchorHash", nullable anchor.previousAnchorHash),
  ("anchorHash", .str anchor.anchorHash),
  ("signature", .str anchor.signature),
  ("keyId", .str anchor.keyId),
  ("sealedBy", .str anchor.sealedBy),
  ("sealedAt", integer anchor.sealedAt)]

/-- The columns of an event, as an object lists them. -/
def StoredAuditEvent.columns (event : StoredAuditEvent) : List (String × Json) := [
  ("id", .str event.id),
  ("tenantId", .str event.tenantId),
  ("sequence", integer event.sequence),
  ("actorId", .str event.actorId),
  ("action", .str event.action),
  ("subjectType", .str event.subjectType),
  ("subjectId", .str event.subjectId),
  ("metadataJson", .str event.metadataJson),
  ("occurredAt", integer event.occurredAt),
  ("previousHash", nullable event.previousHash),
  ("eventHash", .str event.eventHash),
  ("subjectKeyId", nullable event.subjectKeyId),
  ("sealedPayload", nullable event.sealedPayload),
  ("sealFormat", nullable event.sealFormat)]

/-- The event line of a segment file. -/
def StoredAuditEvent.line (event : StoredAuditEvent) : List (String × Json) :=
  ("kind", .str "event") :: event.columns

/-- What is written for a line. -/
def lineText (line : List (String × Json)) : String :=
  Json.stringify (.obj line) ++ "\n"

/-- The text of a segment file. -/
def segmentText (anchor : AuditChainAnchor) (events : List StoredAuditEvent) : String :=
  lineText anchor.line ++ String.join (events.map fun event => lineText event.line)

/-! ### Names -/

def segmentNamePrefix (tenantId : String) : String :=
  let kept := fun c : Char => c.isAlphanum || c = '_' || c = '-'
  let name := tenantId.toList.flatMap fun c =>
    if kept c then [c] else List.replicate (if c.toNat < 0x10000 then 1 else 2) '-'
  "audit-segment-" ++ String.ofList (name.take 64) ++ "-"

/-- `String(value).padStart(12, '0')`. -/
def pad (value : ℤ) : String :=
  let digits := toString value
  String.ofList (List.replicate (12 - digits.length) '0') ++ digits

def segmentName (tenantId : String) (from_ to_ : ℤ) : String :=
  segmentNamePrefix tenantId ++ pad from_ ++ "-" ++ pad to_ ++ ".jsonl"

example : segmentName "tenant-alpha" 1 500 =
    "audit-segment-tenant-alpha-000000000001-000000000500.jsonl" := by decide +kernel

/-! ### The tables and the directory -/

/-- A file, whether or not the directory still names it. -/
structure Inode where
  text : String
  closed : Bool
deriving DecidableEq

/-- The tables of the workspaces, the anchors, and the seal directory: which inode each of
its entries names. -/
structure Archive where
  tables : String → Tables
  anchors : List AuditChainAnchor
  entries : List (String × ℕ)
  inodes : List Inode

namespace Archive

variable (archive : Archive)

/-- The events of a workspace. -/
abbrev events (tenantId : String) : List StoredAuditEvent :=
  (archive.tables tenantId).events

/-- The anchors of a workspace. -/
def anchorsOf (tenantId : String) : List AuditChainAnchor :=
  archive.anchors.filter fun anchor => anchor.tenantId = tenantId

/-- `SQL.sealAuditEvents`. -/
def sealAuditEventsPage (tenantId : String) (afterSequence : ℤ) (limit : ℕ) : List StoredAuditEvent :=
  (((archive.events tenantId).filter fun event => afterSequence < event.sequence).insertionSort
    fun a b => a.sequence ≤ b.sequence).take limit

def listAnchors (tenantId : String) (limit : ℕ) : List AuditChainAnchor :=
  ((archive.anchorsOf tenantId).insertionSort
    fun a b => b.anchorSequence ≤ a.anchorSequence).take limit

def latestAnchor (tenantId : String) : Option AuditChainAnchor :=
  (archive.listAnchors tenantId 1).head?

/-- Whether a constraint of the table keeps an anchor out. -/
def refusesAnchor (anchor : AuditChainAnchor) : Bool :=
  anchor.anchorSequence ≤ 0 || anchor.fromSequence ≤ 0 || anchor.rowCount ≤ 0 ||
    anchor.toSequence < anchor.fromSequence || archive.anchors.any fun other =>
      other.id = anchor.id || other.tenantId = anchor.tenantId &&
        (other.anchorSequence = anchor.anchorSequence || other.toSequence = anchor.toSequence ||
          other.anchorHash = anchor.anchorHash)

/-- The text of a file of the directory. -/
def fileText (entry : String × ℕ) : String :=
  (archive.inodes[entry.2]?).elim "" (·.text)

/-- The files of the directory. -/
def files : List (String × String) :=
  archive.entries.map fun entry => (entry.1, archive.fileText entry)

end Archive

/-! ### Calls -/

/-- A call of a seal run: on the tables, of a workspace, or on the seal directory. -/
inductive SealCall
  | latestAnchor (tenantId : String)
  | sealAuditEventsPage (tenantId : String) (afterSequence : ℤ) (limit : ℕ)
  | insertAnchor (anchor : AuditChainAnchor)
  | appendAuditEvent (input : AppendAuditEventInput) (draws : EventDraws)
  | now
  | directory
  | mkdir
  | rm (name : String)
  | openNew (name : String)
  | write (handle : ℕ) (text : String)
  | close (handle : ℕ)

/-- What a call answers. -/
@[reducible] def SealCall.Answer : SealCall → Type
  | .latestAnchor _ => Option AuditChainAnchor
  | .sealAuditEventsPage .. => List StoredAuditEvent
  | .insertAnchor _ => AuditChainAnchor
  | .appendAuditEvent .. => StoredAuditEvent
  | .now => ℤ
  | .directory => PUnit
  | .mkdir => PUnit
  | .rm _ => PUnit
  | .openNew _ => ℕ
  | .write .. => PUnit
  | .close _ => PUnit

/-- What becomes of a call: it is done at some time, it is done and its answer is lost, it
fails, or it fails after it wrote the beginning of a text. -/
inductive Outcome
  | done (time : ℤ)
  | lost (error : String)
  | refused (error : String)
  | cut (length : ℕ) (error : String)

namespace Archive

/-- Write to a handle: nothing but an open file takes it. -/
def write (archive : Archive) (handle : ℕ) (text : String) : Except String Unit × Archive :=
  match archive.inodes[handle]? with
  | some ⟨before, false⟩ =>
    (.ok ⟨⟩, { archive with inodes := archive.inodes.set handle ⟨before ++ text, false⟩ })
  | _ => (.error "EBADF", archive)

/-- Close a handle. -/
def close (archive : Archive) (handle : ℕ) : Except String Unit × Archive :=
  match archive.inodes[handle]? with
  | some ⟨text, false⟩ =>
    (.ok ⟨⟩, { archive with inodes := archive.inodes.set handle ⟨text, true⟩ })
  | _ => (.error "EBADF", archive)

end Archive

section

variable [SealHost]

/-- A call that is done. -/
def SealCall.perform (time : ℤ) : (c : SealCall) → Archive → Prog.Reply SealCall.Answer c × Archive
  | .latestAnchor tenantId, archive => (.ok (archive.latestAnchor tenantId), archive)
  | .sealAuditEventsPage tenantId afterSequence limit, archive =>
    (.ok (archive.sealAuditEventsPage tenantId afterSequence limit), archive)
  | .insertAnchor anchor, archive =>
    if archive.refusesAnchor anchor then (.error "unique_violation", archive)
    else (.ok anchor, { archive with anchors := archive.anchors ++ [anchor] })
  | .appendAuditEvent input draws, archive =>
    let (reply, tables) :=
      (RepositoryCall.appendAuditEvent input draws).perform (archive.tables input.tenantId)
    (reply, { archive with tables := Function.update archive.tables input.tenantId tables })
  | .now, archive => (.ok time, archive)
  | .directory, archive => (.ok ⟨⟩, archive)
  | .mkdir, archive => (.ok ⟨⟩, archive)
  | .rm name, archive =>
    (.ok ⟨⟩, { archive with entries := archive.entries.filter fun entry => entry.1 ≠ name })
  | .openNew name, archive =>
    if archive.entries.any fun entry => entry.1 = name then (.error "EEXIST", archive)
    else
      (.ok archive.inodes.length, { archive with
        entries := archive.entries ++ [(name, archive.inodes.length)]
        inodes := archive.inodes ++ [⟨"", false⟩] })
  | .write handle text, archive => archive.write handle text
  | .close handle, archive => archive.close handle

/-- A call, with what becomes of it. -/
def SealCall.serve (c : SealCall) (archive : Archive) :
    Outcome → Prog.Reply SealCall.Answer c × Archive
  | .done time => c.perform time archive
  | .lost error => (.error error, (c.perform 0 archive).2)
  | .refused error => (.error error, archive)
  | .cut length error =>
    match c with
    | .write handle text =>
      (.error error, (archive.write handle (String.ofList (text.toList.take length))).2)
    | _ => (.error error, archive)

end

/-- A program of these calls. -/
abbrev SealRun (α : Type) :=
  Prog SealCall (Prog.Reply SealCall.Answer) α

/-- A call of a seal run. -/
def chain (c : SealCall) : SealRun c.Answer :=
  Prog.need c

/-! ### The walk -/

/-- One page of a walk: the state of the visitor and the cursor behind it, and whether the
visitor stopped. -/
def visitPage {β : Type} (visit : β → StoredAuditEvent → SealRun (β × Bool)) :
    List StoredAuditEvent → β → ℤ → SealRun (β × ℤ × Bool)
  | [], state, cursor => return (state, cursor, true)
  | event :: page, state, _ => do
    let (state, go) ← visit state event
    if go then visitPage visit page state event.sequence
    else return (state, event.sequence, false)

/-- `#walk`, over a number of pages at most, with the state of its visitor. -/
def AuditSealService.walk {β : Type} (tenantId : String) (visit : β → StoredAuditEvent → SealRun (β × Bool)) :
    ℕ → β → ℤ → SealRun (β × Bool)
  | 0, _, _ => .fail "The walk is longer than its bound."
  | pages + 1, state, cursor => do
    let page ← chain (.sealAuditEventsPage tenantId cursor SEAL_LIMITS.page)
    let (state, cursor, go) ← visitPage visit page state cursor
    if !go then return (state, false)
    else if page.length < SEAL_LIMITS.page then return (state, true)
    else AuditSealService.walk tenantId visit pages state cursor

/-! ### A seal run -/

structure SealPlan where
  fromSequence : ℤ
  toSequence : ℤ
  rowCount : ℤ
  firstOccurredAt : Option ℤ
  lastOccurredAt : Option ℤ
  previousAnchor : Option AuditChainAnchor
  truncated : Bool

/-- `SealRequest`, with the key ring the run signs under, what it draws and the pages a walk
may take. -/
structure SealRequest where
  tenantId : String
  sealedBy : String
  apply : Bool
  signer : AnchorSigner
  anchorId : String
  draws : EventDraws
  pages : ℕ

structure SealResult where
  applied : Bool
  plan : SealPlan
  segmentFile : String
  anchor : Option AuditChainAnchor

/-- What `plan` counts as it walks. -/
structure PlanState where
  rowCount : ℤ
  fromSequence : ℤ
  toSequence : ℤ
  firstOccurredAt : Option ℤ
  lastOccurredAt : Option ℤ

/-- The visitor of `plan`. -/
def PlanState.visit (state : PlanState) (event : StoredAuditEvent) : PlanState × Bool :=
  ({ rowCount := state.rowCount + 1
     fromSequence := if state.rowCount = 0 then event.sequence else state.fromSequence
     toSequence := event.sequence
     firstOccurredAt := if state.rowCount = 0 then some event.occurredAt else state.firstOccurredAt
     lastOccurredAt := some event.occurredAt },
    state.rowCount + 1 < SEAL_LIMITS.rowsPerSegment)

/-- The sequence behind which the next segment begins. -/
def sealedThrough (anchor : Option AuditChainAnchor) : ℤ :=
  anchor.elim 0 (·.toSequence)

def AuditSealService.plan (tenantId : String) (pages : ℕ) : SealRun SealPlan := do
  let previousAnchor ← chain (.latestAnchor tenantId)
  let after := sealedThrough previousAnchor
  let (state, complete) ← AuditSealService.walk tenantId (fun state event => return PlanState.visit state event)
    pages ⟨0, 0, after, none, none⟩ after
  return {
    fromSequence := if state.rowCount = 0 then after + 1 else state.fromSequence
    toSequence := state.toSequence
    rowCount := state.rowCount
    firstOccurredAt := state.firstOccurredAt
    lastOccurredAt := state.lastOccurredAt
    previousAnchor := previousAnchor
    truncated := !complete }

section

variable [SealHost]

/-- The anchor a run builds; `rowCount` is not zero, so the times are there. -/
def SealPlan.anchor (plan : SealPlan) (request : SealRequest) (segmentHash : String)
    (sealedAt : ℤ) : AuditChainAnchor :=
  let anchor : AuditChainAnchor := {
    id := request.anchorId
    tenantId := request.tenantId
    anchorSequence := plan.previousAnchor.elim 0 (·.anchorSequence) + 1
    fromSequence := plan.fromSequence
    toSequence := plan.toSequence
    rowCount := plan.rowCount
    firstOccurredAt := plan.firstOccurredAt.getD 0
    lastOccurredAt := plan.lastOccurredAt.getD 0
    segmentHash := segmentHash
    previousAnchorHash := plan.previousAnchor.map (·.anchorHash)
    anchorHash := ""
    signature := ""
    keyId := request.signer.keyId
    segmentFile := segmentName request.tenantId plan.fromSequence plan.toSequence
    sealedBy := request.sealedBy
    sealedAt := sealedAt }
  { anchor with anchorHash := anchor.hashOf, signature := request.signer.sign anchor.hashOf }

/-- The visitor of the first of the two walks of `seal`. -/
def hashVisit (plan : SealPlan) (accumulator : String) (event : StoredAuditEvent) : String × Bool :=
  if plan.toSequence < event.sequence then (accumulator, false)
  else (chainStep (.str accumulator) event.eventHash, true)

end

/-- The visitor of the second, which writes to the file. -/
def writeVisit (plan : SealPlan) (handle : ℕ) (_ : PUnit) (event : StoredAuditEvent) :
    SealRun (PUnit × Bool) :=
  if plan.toSequence < event.sequence then return (⟨⟩, false)
  else do
    let _ ← chain (.write handle (lineText event.line))
    return (⟨⟩, true)

/-- `handle.close().catch(() => undefined)`. -/
def closeQuietly (handle : ℕ) : SealRun PUnit :=
  (chain (.close handle)).orElse fun _ => .pure ⟨⟩

def AuditSealService.write (plan : SealPlan) (anchor : AuditChainAnchor) (pages : ℕ) : SealRun PUnit := do
  let _ ← chain .mkdir
  let _ ← chain (.rm anchor.segmentFile)
  let handle ← chain (.openNew anchor.segmentFile)
  let body : SealRun PUnit := do
    let _ ← chain (.write handle (lineText anchor.line))
    let _ ← AuditSealService.walk anchor.tenantId (writeVisit plan handle) pages ⟨⟩ (sealedThrough plan.previousAnchor)
    chain (.close handle)
  body.orElse fun error => do
    let _ ← closeQuietly handle
    let _ ← chain (.rm anchor.segmentFile)
    .fail error

/-- The event behind a seal. -/
def chainSealed (request : SealRequest) (anchor : AuditChainAnchor) (occurredAt : ℤ) :
    AppendAuditEventInput where
  tenantId := request.tenantId
  actorId := request.sealedBy
  action := "audit.chain.sealed"
  subjectType := "chain-anchor"
  subjectId := anchor.id
  metadata := [ ("anchorSequence", integer anchor.anchorSequence),
    ("fromSequence", integer anchor.fromSequence),
    ("toSequence", integer anchor.toSequence),
    ("rowCount", integer anchor.rowCount),
    ("segmentFile", .str anchor.segmentFile),
    ("keyId", .str anchor.keyId)]
  occurredAt := occurredAt

section

variable [SealHost]

def AuditSealService.seal (request : SealRequest) : SealRun SealResult := do
  let plan ← AuditSealService.plan request.tenantId request.pages
  if plan.rowCount = 0 then
    .fail (auditServiceError "NOTHING_TO_SEAL"
      "Every audit event of this workspace is already in a segment file." 409)
  else
    let _ ← chain .directory
    let segmentFile := segmentName request.tenantId plan.fromSequence plan.toSequence
    if !request.apply then
      return { applied := false, plan := plan, segmentFile := segmentFile, anchor := none }
    else
      let (segmentHash, _) ← AuditSealService.walk request.tenantId (fun state event => return hashVisit plan state event)
        request.pages (plan.previousAnchor.elim "" (·.anchorHash)) (sealedThrough plan.previousAnchor)
      let sealedAt ← chain .now
      let anchor := plan.anchor request segmentHash sealedAt
      let _ ← AuditSealService.write plan anchor request.pages
      let stored ← chain (.insertAnchor anchor)
      let occurredAt ← chain .now
      let _ ← chain (.appendAuditEvent (chainSealed request stored occurredAt) request.draws)
      return { applied := true, plan := plan, segmentFile := segmentFile, anchor := some stored }

/-! ### The machine -/

/-- What starts a process on the audit chains: an append or a seal run. -/
inductive ChainRequest
  | append (input : AppendAuditEventInput) (draws : EventDraws)
  | seal_ (request : SealRequest)

/-- The program of a request. -/
def ChainRequest.program : ChainRequest → SealRun PUnit
  | .append input draws => do
    let _ ← chain (.appendAuditEvent input draws)
    return ⟨⟩
  | .seal_ request => do
    let _ ← AuditSealService.seal request
    return ⟨⟩

end

/-- No workspace has an event, no anchor is recorded and the directory is empty. -/
def Archive.empty : Archive where
  tables _ := ⟨[], [], []⟩
  anchors := []
  entries := []
  inodes := []

end Flowdular.Audit
