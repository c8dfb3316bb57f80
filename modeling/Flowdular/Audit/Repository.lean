/-
# The audit repository: rows, statements and transactions

`src/modules/audit/src/services/database-repository.ts`, lines 301-317
(`SQL.lockTenantChain` … `SQL.insertAuditEvent`), 371-421 (`SQL.insertHold` …
`SQL.destroySubjectKey`), 720-758 (`storedAuditEventHash`), 835-889 (`stableMetadata`,
`auditEventHash`), 1212-1312 (`appendAuditEvent`), 1592-1668 (the holds), 1682-1731 (the
subject keys) and 1887-1940 (`subjectKeyIn`); `subject-keys.ts`; `service-error.ts`; the
tables and their constraints in `migration.ts`.

The tables hold the rows of one workspace, which is all any statement sees.  A
transaction is a program of statements.  What it wrote is its own until it commits and
travels with its later statements (`written`), and the commit checks the unique indexes:
a writer the index makes wait comes, in the tables, behind the one it waits for.
-/

import Flowdular.Lib.Transact
import Flowdular.Lib.Table
import Flowdular.Workflows.Audit
import Flowdular.Workflows.GraphValues
import Mathlib.Data.List.DropRight

namespace Flowdular.Audit

open Lib Workflows

/-- A subject key: 32 bytes. -/
abbrev SubjectKey :=
  Vector UInt8 32

/-- What the code takes from its host: the cipher behind `sealSubjectPayload` and
`openSubjectPayload`, `JSON.parse` and `Date.prototype.toISOString`. -/
class AuditHost extends Host where
  /-- The envelope of a text under a key, an initialisation vector and a context. -/
  sealText : SubjectKey → String → String → String → String
  openText : SubjectKey → String → String → Option String
  parse : String → Option Json
  toISOString : ℤ → String

variable [AuditHost]

/-! ### Errors -/

/-- `AuditServiceError`, as one text. -/
def auditServiceError (code message : String) (status : ℕ) : String :=
  s!"{status} {code}: {message}"

def trim (value : String) : String :=
  String.ofList ((value.toList.dropWhile isWhiteSpace).rdropWhile isWhiteSpace)

def bounded (value field : String) (minimum maximum : ℕ) : Except String String :=
  let normalized := trim value
  if utf16Length normalized < minimum ∨ maximum < utf16Length normalized then
    .error (auditServiceError "INVALID_INPUT"
      s!"{field} must contain between {minimum} and {maximum} characters." 400)
  else if normalized.toList.contains (Char.ofNat 0) then
    .error (auditServiceError "INVALID_INPUT" s!"{field} contains an unsupported character." 400)
  else .ok normalized

omit [AuditHost] in
theorem trim_trim (value : String) : trim (trim value) = trim value := by
  have hc := trimChars_trimChars value.toList
  rw [trimChars, trimChars] at hc
  rw [trim, trim, String.toList_ofList, hc]

omit [AuditHost] in
/-- What `bounded` answers is trimmed, and not empty where that is asked for. -/
theorem bounded_ok {value field subject : String} {minimum maximum : ℕ}
    (h : bounded value field minimum maximum = .ok subject) :
    trim subject = subject ∧ (0 < minimum → subject ≠ "") := by
  unfold bounded at h
  dsimp only at h
  split_ifs at h with hl hc
  rw [← Except.ok.inj h]
  refine ⟨trim_trim value, fun hp he => hl (.inl ?_)⟩
  rw [he]
  exact hp

def boundedInteger (value : Decimal) (field : String) (minimum maximum : ℤ) : Except String ℤ :=
  let whole := value.mantissa * 10 ^ value.exponent.toNat
  if ¬ value.isSafeInteger ∨ whole < minimum ∨ maximum < whole then
    .error (auditServiceError "INVALID_INPUT"
      s!"{field} must be a whole number between {minimum} and {maximum}." 400)
  else .ok whole

omit [AuditHost] in
theorem isSafeInteger_ofInt (n : ℤ) :
    (Decimal.ofInt n).isSafeInteger = true ↔ |n| ≤ 9007199254740991 := by
  unfold Decimal.isSafeInteger
  rw [Bool.and_eq_true, decide_eq_true_eq, decide_eq_true_eq, Decimal.toRat_ofInt]
  constructor
  · rintro ⟨-, h⟩
    exact_mod_cast h
  · intro h
    exact ⟨Decimal.ofInt_exponent n, by exact_mod_cast h⟩

/-! ### Legal holds -/

/-- `HOLD_SCOPE_KINDS`. -/
inductive HoldScopeKind
  | account
  | workspace
  | dataClass
  | dateRange
deriving DecidableEq

/-- The text of a scope kind. -/
def HoldScopeKind.text : HoldScopeKind → String
  | .account => "account"
  | .workspace => "workspace"
  | .dataClass => "data-class"
  | .dateRange => "date-range"

/-- The scope columns of a hold, within the checks of the table. -/
structure HoldScope where
  kind : HoldScopeKind
  accountId : Option String
  classId : Option String
  fromAt : Option ℤ
  toAt : Option ℤ
  account : kind = .account → accountId ≠ none
  dataClass : kind = .dataClass → classId ≠ none
  dateRange : kind = .dateRange → fromAt ≠ none ∧ toAt ≠ none
  workspace : kind = .workspace → accountId = none ∧ classId = none ∧ fromAt = none ∧ toAt = none
  ordered : ∀ a ∈ fromAt, ∀ b ∈ toAt, a ≤ b
deriving DecidableEq

/-- The columns a lift sets. -/
structure HoldLift where
  liftedBy : String
  liftReason : String
  liftedAt : ℤ
deriving DecidableEq

/-- `AuditLegalHold`: a row is lifted if it has the columns of a lift. -/
structure AuditLegalHold where
  id : String
  tenantId : String
  scope : HoldScope
  reason : String
  placedBy : String
  placedAt : ℤ
  lifted : Option HoldLift
deriving DecidableEq

/-- `status = 'active'`. -/
def AuditLegalHold.active (hold : AuditLegalHold) : Bool :=
  hold.lifted.isNone

/-! ### Subject keys -/

/-- What a key row holds: the account and its key, or the time they were blanked. -/
inductive SubjectKeyState
  | active (subject : String) (material : SubjectKey)
  | destroyed (at_ : ℤ)
deriving DecidableEq

structure SubjectKeyRow where
  id : String
  subjectMarker : Option String
  sealedAt : ℤ
  state : SubjectKeyState
deriving DecidableEq

namespace SubjectKeyRow

/-- The column `subject`. -/
def subject (row : SubjectKeyRow) : Option String :=
  match row.state with
  | .active subject _ => some subject
  | .destroyed _ => none

/-- The column `material`. -/
def material (row : SubjectKeyRow) : Option SubjectKey :=
  match row.state with
  | .active _ material => some material
  | .destroyed _ => none

/-- The column `destroyed_at`. -/
def destroyedAt (row : SubjectKeyRow) : Option ℤ :=
  match row.state with
  | .active _ _ => none
  | .destroyed at_ => some at_

/-- Two rows a unique index keeps apart. -/
def clashes (a b : SubjectKeyRow) : Bool :=
  a.id = b.id || (a.subject.isSome && a.subject = b.subject) ||
    (a.subjectMarker.isSome && a.subjectMarker = b.subjectMarker)

end SubjectKeyRow

def erasureSubjectMarker (tenantId subject : String) : String :=
  String.ofList ((Host.sha256 s!"{tenantId}:{subject}").toList.take 12)

def subjectSealContext (tenantId eventId : String) : String :=
  s!"{tenantId}:{eventId}:audit-event"

/-! ### Events -/

structure AppendAuditEventInput where
  tenantId : String
  actorId : String
  action : String
  subjectType : String
  subjectId : String
  metadata : List (String × Json)
  occurredAt : ℤ
  subjectAccountId : Option String := none

/-- `StoredAuditEvent`: one event as it is stored. -/
structure StoredAuditEvent where
  id : String
  tenantId : String
  sequence : ℤ
  actorId : String
  action : String
  subjectType : String
  subjectId : String
  metadataJson : String
  occurredAt : ℤ
  previousHash : Option String
  eventHash : String
  subjectKeyId : Option String
  sealedPayload : Option String
  sealFormat : Option String
deriving DecidableEq

def AUDIT_SEALED_MARKER : String := "sealed:v1"

def AUDIT_EVENT_FORMAT : String := "audit-event/1"

/-- The text of a column that may be null. -/
def nullable : Option String → Json :=
  fun column => column.elim .null .str

/-- `auditEventHash` of the stored columns, as `storedAuditEventHash` fills them in: the
envelope stands in the place of the metadata. -/
def storedAuditEventHash (event : StoredAuditEvent) : String :=
  Host.sha256 (Json.stringify (.arr [.str event.id, .str event.tenantId,
    .num (.ofInt event.sequence), .str event.actorId, .str event.action, .str event.subjectType,
    .str event.subjectId, .str (event.sealedPayload.getD event.metadataJson),
    .num (.ofInt event.occurredAt), nullable event.previousHash,
    .bool event.sealedPayload.isSome, nullable event.subjectKeyId, nullable event.sealFormat]))

/-- `stableMetadata`, of keys that are identifiers. -/
def stableMetadata (metadata : List (String × Json)) : String :=
  Json.stringify (.obj (metadata.insertionSort fun a b => unitsLE (codeUnits a.1) (codeUnits b.1)))

/-- The text `sealSubjectPayload` seals for an event. -/
def sealedContent (input : AppendAuditEventInput) : String :=
  Json.stringify (.obj [("actorId", .str input.actorId), ("subjectId", .str input.subjectId),
    ("metadata", .obj input.metadata)])

/-! ### Tables and statements -/

/-- The tables of a workspace that the services read and write. -/
structure Tables where
  holds : List AuditLegalHold
  keys : List SubjectKeyRow
  events : List StoredAuditEvent
deriving DecidableEq

namespace Tables

def listActiveHolds (tables : Tables) (limit : ℕ) : List AuditLegalHold :=
  ((tables.holds.filter (·.active)).insertionSort fun a b =>
    b.placedAt < a.placedAt ∨ a.placedAt = b.placedAt ∧ a.id ≤ b.id).take limit

def getHold (tables : Tables) (id : String) : Option AuditLegalHold :=
  tables.holds.find? fun hold => hold.id = id

def insertHold (tables : Tables) (hold : AuditLegalHold) : Except String AuditLegalHold × Tables :=
  if tables.holds.any fun other => other.id = hold.id then (.error "unique_violation", tables)
  else (.ok hold, { tables with holds := tables.holds ++ [hold] })

/-- `SQL.liftHold`, with the row it returns. -/
def liftHold (tables : Tables) (id : String) (lift : HoldLift) : Option AuditLegalHold × Tables :=
  let selects := fun hold : AuditLegalHold => hold.id = id && hold.active
  let change := fun hold : AuditLegalHold => { hold with lifted := some lift }
  ((tables.holds.find? selects).map change,
    { tables with holds := Table.update selects change tables.holds })

/-- `SQL.getSubjectKey`, in a transaction that wrote a key row. -/
def getSubjectKey (tables : Tables) (written : Option SubjectKeyRow) (subject : String) :
    Option SubjectKeyRow :=
  (written.toList ++ tables.keys).find? fun row => row.subject = some subject

def getSubjectKeyByMarker (tables : Tables) (marker : String) : Option SubjectKeyRow :=
  tables.keys.find? fun row => row.subjectMarker = some marker

/-- Whether a unique index keeps a key row out of the table. -/
def keyClashes (tables : Tables) (row : SubjectKeyRow) : Bool :=
  tables.keys.any fun other => other.clashes row

/-- `SQL.destroySubjectKey`, with the row it returns. -/
def destroySubjectKey (tables : Tables) (subject : String) (now : ℤ) :
    Option SubjectKeyRow × Tables :=
  let selects := fun row : SubjectKeyRow => decide (row.subject = some subject)
  let change := fun row : SubjectKeyRow => { row with state := .destroyed now }
  ((tables.keys.find? selects).map change,
    { tables with keys := Table.update selects change tables.keys })

/-- `SQL.latestAuditEvent`: the row with the highest sequence. -/
def latestAuditEvent (tables : Tables) : Option StoredAuditEvent :=
  (tables.events.insertionSort fun a b => b.sequence ≤ a.sequence).head?

/-- Whether a unique index keeps an event out of the table. -/
def eventClashes (tables : Tables) (event : StoredAuditEvent) : Bool :=
  tables.events.any fun other =>
    other.id = event.id || other.sequence = event.sequence || other.eventHash = event.eventHash

/-- The end of a transaction that wrote these rows. -/
def commit (tables : Tables) (key : Option SubjectKeyRow) (event : Option StoredAuditEvent) :
    Except String PUnit × Tables :=
  if key.any tables.keyClashes || event.any tables.eventClashes then
    (.error "unique_violation", tables)
  else
    (.ok ⟨⟩, { tables with keys := tables.keys ++ key.toList, events := tables.events ++ event.toList })

end Tables

/-! ### Transactions -/

/-- What a transaction draws: `randomUUID()` twice, a subject key and the
initialisation vector of a cipher. -/
structure EventDraws where
  id : String
  keyId : String
  key : SubjectKey
  iv : String

/-- A statement of a transaction that appends an event or takes a subject key. -/
inductive Statement
  | lockTenantChain
  | latestAuditEvent
  | getSubjectKey (written : Option SubjectKeyRow) (subject : String)
  | getSubjectKeyByMarker (marker : String)
  | insertSubjectKey (row : SubjectKeyRow)
  | commit (key : Option SubjectKeyRow) (event : Option StoredAuditEvent)

/-- What a statement answers; an insert says whether it wrote the row. -/
@[reducible] def Statement.Answer : Statement → Type
  | .lockTenantChain => PUnit
  | .latestAuditEvent => Option StoredAuditEvent
  | .getSubjectKey .. => Option SubjectKeyRow
  | .getSubjectKeyByMarker _ => Option SubjectKeyRow
  | .insertSubjectKey _ => Bool
  | .commit .. => PUnit

/-- A statement on the tables. -/
def Statement.perform : (st : Statement) → Tables → Prog.Reply Statement.Answer st × Tables
  | .lockTenantChain, tables => (.ok ⟨⟩, tables)
  | .latestAuditEvent, tables => (.ok tables.latestAuditEvent, tables)
  | .getSubjectKey written subject, tables => (.ok (tables.getSubjectKey written subject), tables)
  | .getSubjectKeyByMarker marker, tables => (.ok (tables.getSubjectKeyByMarker marker), tables)
  | .insertSubjectKey row, tables => (.ok (!tables.keyClashes row), tables)
  | .commit key event, tables => tables.commit key event

/-- A program of statements. -/
abbrev Transaction (α : Type) :=
  Prog Statement (Prog.Reply Statement.Answer) α

/-- A statement of a transaction. -/
def query (st : Statement) : Transaction st.Answer :=
  Prog.need st

/-- `SubjectKeyMaterial`, and the key row the transaction wrote. -/
structure SubjectKeyMaterial where
  id : String
  key : SubjectKey
  written : Option SubjectKeyRow

def subjectKeyIn (tenantId subject : String) (now : ℤ) (draws : EventDraws) :
    Transaction SubjectKeyMaterial := do
  match ← query (.getSubjectKey none subject) with
  | some ⟨id, _, _, .active _ material⟩ => return { id := id, key := material, written := none }
  | _ =>
    let marker := erasureSubjectMarker tenantId subject
    match ← query (.getSubjectKeyByMarker marker) with
    | some tombstone =>
      let at_ := AuditHost.toISOString (tombstone.destroyedAt.getD 0)
      .fail (auditServiceError "SUBJECT_KEY_DESTROYED"
        s!"The audit data key of this subject was destroyed on {at_}; an event naming the subject again would create a new one and undo the erasure."
        409)
    | none =>
      let row := { id := draws.keyId, subjectMarker := some marker, sealedAt := now,
                   state := .active subject draws.key : SubjectKeyRow }
      let inserted ← query (.insertSubjectKey row)
      let written := bif inserted then some row else none
      match ← query (.getSubjectKey written subject) with
      | some ⟨id, _, _, .active _ material⟩ =>
        return { id := id, key := material, written := written }
      | _ => .fail "The audit subject key could not be stored."

/-- The row `appendAuditEvent` builds behind the latest one. -/
def AppendAuditEventInput.stored (input : AppendAuditEventInput) (draws : EventDraws)
    (previous : Option StoredAuditEvent) (key : Option SubjectKeyMaterial) : StoredAuditEvent :=
  let event : StoredAuditEvent := {
    id := draws.id
    tenantId := input.tenantId
    sequence := (previous.elim 0 (·.sequence)) + 1
    actorId := if key.isSome then AUDIT_SEALED_MARKER else input.actorId
    action := input.action
    subjectType := input.subjectType
    subjectId := if key.isSome then AUDIT_SEALED_MARKER else input.subjectId
    metadataJson := if key.isSome then "\x7b\x7d" else stableMetadata input.metadata
    occurredAt := input.occurredAt
    previousHash := previous.map (·.eventHash)
    eventHash := ""
    subjectKeyId := key.map (·.id)
    sealedPayload := key.map fun key =>
      AuditHost.sealText key.key draws.iv (subjectSealContext input.tenantId draws.id)
        (sealedContent input)
    sealFormat := some AUDIT_EVENT_FORMAT }
  { event with eventHash := storedAuditEventHash event }

/-- `input.subjectAccountId?.trim()`, where it is not empty. -/
def AppendAuditEventInput.subject (input : AppendAuditEventInput) : Option String :=
  (input.subjectAccountId.map trim).filter (· ≠ "")

/-- The key an event is sealed under, if it names an account. -/
def eventKey (input : AppendAuditEventInput) (draws : EventDraws) :
    Transaction (Option SubjectKeyMaterial) :=
  match input.subject with
  | some subject => do
    let key ← subjectKeyIn input.tenantId subject input.occurredAt draws
    return some key
  | none => return none

/-- `appendAuditEvent`, with the row it stored. -/
def appendAuditEvent (input : AppendAuditEventInput) (draws : EventDraws) :
    Transaction StoredAuditEvent := do
  let _ ← query .lockTenantChain
  let previous ← query .latestAuditEvent
  let key ← eventKey input draws
  let event := input.stored draws previous key
  let _ ← query (.commit (key.bind (·.written)) (some event))
  return event

/-! ### Repository calls -/

/-- A call of the repository: a transaction each. -/
inductive RepositoryCall
  | listActiveHolds (limit : ℕ)
  | insertHold (hold : AuditLegalHold)
  | getHold (id : String)
  | liftHold (id : String) (lift : HoldLift)
  | appendAuditEvent (input : AppendAuditEventInput) (draws : EventDraws)
  | getSubjectKey (subject : String)
  | getSubjectKeyByMarker (marker : String)
  | destroySubjectKey (subject : String) (now : ℤ)

/-- What a repository call answers. -/
@[reducible] def RepositoryCall.Answer : RepositoryCall → Type
  | .listActiveHolds _ => List AuditLegalHold
  | .insertHold _ => AuditLegalHold
  | .getHold _ => Option AuditLegalHold
  | .liftHold .. => Option AuditLegalHold
  | .appendAuditEvent .. => StoredAuditEvent
  | .getSubjectKey _ => Option SubjectKeyRow
  | .getSubjectKeyByMarker _ => Option SubjectKeyRow
  | .destroySubjectKey .. => Option SubjectKeyRow

/-- A repository call on the tables, with nobody else about. -/
def RepositoryCall.perform :
    (c : RepositoryCall) → Tables → Prog.Reply RepositoryCall.Answer c × Tables
  | .listActiveHolds limit, tables => (.ok (tables.listActiveHolds limit), tables)
  | .insertHold hold, tables => tables.insertHold hold
  | .getHold id, tables => (.ok (tables.getHold id), tables)
  | .liftHold id lift, tables => (.ok (tables.liftHold id lift).1, (tables.liftHold id lift).2)
  | .appendAuditEvent input draws, tables =>
    (Audit.appendAuditEvent input draws).run Statement.perform tables
  | .getSubjectKey subject, tables => (.ok (tables.getSubjectKey none subject), tables)
  | .getSubjectKeyByMarker marker, tables => (.ok (tables.getSubjectKeyByMarker marker), tables)
  | .destroySubjectKey subject now, tables =>
    (.ok (tables.destroySubjectKey subject now).1, (tables.destroySubjectKey subject now).2)

/-! ### What an append does -/

namespace Tables

/-- Where the key of an event comes from: none is wanted, the account has one, or no row
bears the marker of the account and no index refuses the row of a new one. -/
inductive TakesKey (tables : Tables) (input : AppendAuditEventInput) (draws : EventDraws) :
    Option SubjectKeyMaterial → Prop
  | plain (hsubject : input.subject = none) : TakesKey tables input draws none
  | held {subject id : String} {marker : Option String} {sealedAt : ℤ} {material : SubjectKey}
      {owner : String} (hsubject : input.subject = some subject)
      (hrow : tables.getSubjectKey none subject = some ⟨id, marker, sealedAt, .active owner material⟩) :
      TakesKey tables input draws (some ⟨id, material, none⟩)
  | new {subject : String} {row : SubjectKeyRow} (hsubject : input.subject = some subject)
      (hnone : tables.getSubjectKey none subject = none)
      (hmarker : tables.getSubjectKeyByMarker (erasureSubjectMarker input.tenantId subject) = none)
      (hrow : row = ⟨draws.keyId, some (erasureSubjectMarker input.tenantId subject),
        input.occurredAt, .active subject draws.key⟩)
      (hclash : tables.keyClashes row = false) :
      TakesKey tables input draws (some ⟨draws.keyId, draws.key, some row⟩)

/-- The tables take an event up: a key is there for it, and its identifier and hash are
not used yet. -/
def Admits (tables : Tables) (input : AppendAuditEventInput) (draws : EventDraws) : Prop :=
  ∃ key, tables.TakesKey input draws key ∧
    tables.eventClashes (input.stored draws tables.latestAuditEvent key) = false

/-- A stored event tells what an append was told, in the clear or under a key row. -/
structure Tells (event : StoredAuditEvent) (keys : List SubjectKeyRow)
    (input : AppendAuditEventInput) : Prop where
  tenantId : event.tenantId = input.tenantId
  action : event.action = input.action
  subjectType : event.subjectType = input.subjectType
  occurredAt : event.occurredAt = input.occurredAt
  content : event.sealedPayload = none ∧ event.actorId = input.actorId ∧
      event.subjectId = input.subjectId ∧ event.metadataJson = stableMetadata input.metadata ∨
    ∃ row ∈ keys, ∃ material iv, event.subjectKeyId = some row.id ∧ row.material = some material ∧
      event.sealedPayload = some (AuditHost.sealText material iv
        (subjectSealContext input.tenantId event.id) (sealedContent input))

variable {tables : Tables} {input : AppendAuditEventInput} {draws : EventDraws}

omit [AuditHost] in
theorem subject_of_getSubjectKey {written : Option SubjectKeyRow} {subject : String}
    {row : SubjectKeyRow} (h : tables.getSubjectKey written subject = some row) :
    ∃ material, row.state = .active subject material := by
  have hr : row.subject = some subject := by simpa using List.find?_some h
  unfold SubjectKeyRow.subject at hr
  split at hr
  · next owner material hs =>
    rw [Option.some.inj hr] at hs
    exact ⟨material, hs⟩
  · cases hr

variable (tables input draws)

/-- **`subjectKeyIn` with nobody else about** takes the key that is there for it and
writes nothing, or fails. -/
theorem run_subjectKeyIn {subject : String} (hs : input.subject = some subject) :
    (∃ key, tables.TakesKey input draws (some key) ∧
      (subjectKeyIn input.tenantId subject input.occurredAt draws).run Statement.perform tables =
        (.ok key, tables)) ∨
    (∀ key, ¬ tables.TakesKey input draws key) ∧ ∃ e,
      (subjectKeyIn input.tenantId subject input.occurredAt draws).run Statement.perform tables =
        (.error e, tables) := by
  unfold subjectKeyIn query
  simp only [Prog.run_need_bind, Statement.perform]
  cases hk : tables.getSubjectKey none subject with
  | some row =>
    obtain ⟨material, hsta⟩ := subject_of_getSubjectKey hk
    obtain ⟨id, marker, sealedAt, state⟩ := row
    obtain rfl : state = _ := hsta
    exact .inl ⟨_, .held hs hk, rfl⟩
  | none =>
    simp only [Prog.run_need_bind, Statement.perform]
    cases hm : tables.getSubjectKeyByMarker (erasureSubjectMarker input.tenantId subject) with
    | some tombstone =>
      refine .inr ⟨fun key ht => ?_, _, rfl⟩
      cases ht with
      | plain h => rw [hs] at h; cases h
      | held h hrow =>
        rw [hs] at h
        rw [← Option.some.inj h, hk] at hrow
        cases hrow
      | new h _ hf =>
        rw [hs] at h
        rw [← Option.some.inj h, hm] at hf
        cases hf
    | none =>
      set row : SubjectKeyRow := ⟨draws.keyId, some (erasureSubjectMarker input.tenantId subject),
        input.occurredAt, .active subject draws.key⟩ with hrow
      cases hc : tables.keyClashes row with
      | false =>
        have hr : tables.getSubjectKey (some row) subject = some row := by
          simp [getSubjectKey, SubjectKeyRow.subject, hrow]
        refine .inl ⟨_, .new hs hk hm hrow hc, ?_⟩
        simp [Prog.run_need_bind, Statement.perform, hc, hr]
        rfl
      | true =>
        refine .inr ⟨fun key ht => ?_, "The audit subject key could not be stored.", ?_⟩
        · cases ht with
          | plain h => rw [hs] at h; cases h
          | held h hh =>
            rw [hs] at h
            rw [← Option.some.inj h, hk] at hh
            cases hh
          | new h _ _ hn hf =>
            rw [hs] at h
            rw [← Option.some.inj h] at hn
            rw [hn, ← hrow, hc] at hf
            cases hf
        · simp [Prog.run_need_bind, Statement.perform, hc, hk]

variable {tables input draws}

/-- There is one key at most for an event. -/
theorem TakesKey.unique {key key' : Option SubjectKeyMaterial}
    (h : tables.TakesKey input draws key) (h' : tables.TakesKey input draws key') : key = key' := by
  cases h with
  | plain h =>
    cases h' with
    | plain => rfl
    | held h' => rw [h] at h'; cases h'
    | new h' => rw [h] at h'; cases h'
  | held h hr =>
    cases h' with
    | plain h' => rw [h] at h'; cases h'
    | held h' hr' =>
      rw [h] at h'
      rw [← Option.some.inj h', hr] at hr'
      cases hr'
      rfl
    | new h' hn =>
      rw [h] at h'
      rw [← Option.some.inj h', hr] at hn
      cases hn
  | new h hn _ hr =>
    cases h' with
    | plain h' => rw [h] at h'; cases h'
    | held h' hr' =>
      rw [h] at h'
      rw [← Option.some.inj h', hn] at hr'
      cases hr'
    | new h' _ _ hr' =>
      rw [h] at h'
      rw [hr, hr', Option.some.inj h']

variable (tables input draws) in
theorem run_eventKey : (∃ key, tables.TakesKey input draws key ∧
      (eventKey input draws).run Statement.perform tables = (.ok key, tables)) ∨
    (∀ key, ¬ tables.TakesKey input draws key) ∧ ∃ e,
      (eventKey input draws).run Statement.perform tables = (.error e, tables) := by
  unfold eventKey
  cases hs : input.subject with
  | none => exact .inl ⟨none, .plain hs, rfl⟩
  | some subject =>
    simp only [Prog.run_bind]
    rcases run_subjectKeyIn tables input draws hs with
      ⟨key, hk, hr⟩ | ⟨hk, e, hr⟩
    · exact .inl ⟨some key, hk, by rw [hr]; rfl⟩
    · exact .inr ⟨hk, e, by rw [hr]⟩

/-- A new key row goes past the unique indexes. -/
theorem TakesKey.fresh {key : Option SubjectKeyMaterial} (h : tables.TakesKey input draws key) :
    (key.bind (·.written)).any tables.keyClashes = false := by
  cases h with
  | plain => rfl
  | held => rfl
  | new _ _ _ _ hc => exact hc

/-- The row an append builds tells what it was told. -/
theorem TakesKey.tells {key : Option SubjectKeyMaterial} (h : tables.TakesKey input draws key)
    (previous : Option StoredAuditEvent) :
    Tells (input.stored draws previous key) (tables.keys ++ (key.bind (·.written)).toList) input where
  tenantId := rfl
  action := rfl
  subjectType := rfl
  occurredAt := rfl
  content := by
    cases h with
    | plain => exact .inl ⟨rfl, rfl, rfl, rfl⟩
    | held _ hr =>
      have hm := List.mem_of_find?_eq_some hr
      exact .inr ⟨_, List.mem_append_left _ hm, _, draws.iv, rfl, rfl, rfl⟩
    | new _ _ _ hr =>
      refine .inr ⟨_, List.mem_append_right _ (List.mem_singleton.2 hr.symm), draws.key, draws.iv,
        rfl, rfl, rfl⟩

variable (tables input draws)

/-- **`appendAuditEvent` with nobody else about**: the event and the key row it needed are
there, or nothing changed; and which of the two is what the tables admit. -/
theorem perform_appendAuditEvent :
    (∃ key, tables.TakesKey input draws key ∧ tables.Admits input draws ∧
      (RepositoryCall.appendAuditEvent input draws).perform tables =
        (.ok (input.stored draws tables.latestAuditEvent key), { tables with
            keys := tables.keys ++ (key.bind (·.written)).toList
            events := tables.events ++ [input.stored draws tables.latestAuditEvent key] })) ∨
    ¬ tables.Admits input draws ∧ ∃ e,
      (RepositoryCall.appendAuditEvent input draws).perform tables = (.error e, tables) := by
  unfold RepositoryCall.perform appendAuditEvent query
  simp only [Prog.run_need_bind, Statement.perform]
  rw [Prog.run_bind]
  rcases run_eventKey tables input draws with
    ⟨key, hk, hr⟩ | ⟨hk, e, hr⟩
  · simp only [hr, Prog.run_need_bind, Statement.perform, commit, hk.fresh, Bool.false_or,
      Option.any_some, Option.toList_some]
    cases hc : tables.eventClashes (input.stored draws tables.latestAuditEvent key) with
    | false => exact .inl ⟨key, hk, ⟨key, hk, hc⟩, rfl⟩
    | true =>
      refine .inr ⟨?_, _, rfl⟩
      rintro ⟨key', hk', hc'⟩
      rw [← hk.unique hk', hc] at hc'
      cases hc'
  · rw [hr]
    exact .inr ⟨fun ⟨key, ht, _⟩ => hk key ht, e, rfl⟩

end Tables

end Flowdular.Audit
