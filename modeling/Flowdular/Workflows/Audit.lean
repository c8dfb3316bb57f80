/-
# The audit chain of a tenant

`src/modules/workflows/src/services/database-repository.ts`, lines 220-231
(`AuditRow`), 416-447 (`auditFromRow`, `auditHash`), 520-524 and 743-745
(`SQL.latestAudit`, `SQL.insertAudit`, `SQL.auditChain`), 923-967 (`#appendAudit`)
and 2694-2726 (`verifyAudit`).

The table below holds the rows of one tenant, which is all any of the statements
sees.  A column with JSON text is held as the value `JSON.parse` reads off it and
as `none` where `JSON.parse` throws.
-/

import Flowdular.Lib.HashChain
import Flowdular.Workflows.JsonText

namespace Flowdular.Workflows

/-! ### Whole numbers -/

namespace Decimal

/-- The number an integer is in JavaScript. -/
def ofInt (n : ℤ) : Decimal :=
  if n < 0 then
    { mantissa := -(ofNat n.natAbs).mantissa, exponent := (ofNat n.natAbs).exponent,
      normal := by have := (ofNat n.natAbs).normal; omega }
  else ofNat n.natAbs

theorem toRat_ofNat (n : ℕ) : (ofNat n).toRat = n := by
  rw [toRat_eq]
  unfold ofNat
  split
  · next h => simp [h]
  · have h := strip_value n n 0
    rw [pow_zero, mul_one] at h
    simp only [zpow_natCast, Int.cast_natCast]
    exact_mod_cast h

theorem toRat_ofInt (n : ℤ) : (ofInt n).toRat = n := by
  have h := toRat_ofNat n.natAbs
  rw [toRat_eq] at h ⊢
  unfold ofInt
  split
  · next hn =>
    simp only [Int.cast_neg, neg_mul, h]
    rw [Nat.cast_natAbs, abs_of_neg hn]
    push_cast
    ring
  · next hn =>
    rw [h, Nat.cast_natAbs, abs_of_nonneg (by omega)]

theorem ofInt_exponent (n : ℤ) : 0 ≤ (ofInt n).exponent := by
  have hn : ∀ m : ℕ, 0 ≤ (ofNat m).exponent := by
    intro m
    unfold ofNat
    split <;> simp
  unfold ofInt
  split
  · exact hn _
  · exact hn _

/-- The integer a number was made of. -/
theorem whole_ofInt (n : ℤ) : (ofInt n).mantissa * 10 ^ (ofInt n).exponent.toNat = n := by
  have hr := toRat_ofInt n
  rw [toRat_eq] at hr
  have he : (ofInt n).exponent = ((ofInt n).exponent.toNat : ℤ) :=
    (Int.toNat_of_nonneg (ofInt_exponent n)).symm
  rw [he, zpow_natCast] at hr
  exact_mod_cast hr

theorem ofInt_injective : Function.Injective ofInt := by
  intro a b h
  have := congrArg toRat h
  rw [toRat_ofInt, toRat_ofInt] at this
  exact_mod_cast this

end Decimal

variable [Host]

/-! ### Rows and events -/

/-- `Omit<WorkflowAuditEvent, 'eventHash'>`: the hashed fields of an event. -/
structure AuditBase where
  sequence : ℤ
  actor : Json
  origin : Json
  action : String
  subjectType : String
  subjectId : String
  metadata : Json
  occurredAt : ℤ
  previousHash : Option String
deriving DecidableEq

structure WorkflowAuditEvent extends AuditBase where
  eventHash : String
deriving DecidableEq

structure AuditRow where
  sequence : ℤ
  actorJson : Option Json
  originJson : Option Json
  action : String
  subjectType : String
  subjectId : String
  metadataJson : Option Json
  occurredAt : ℤ
  previousHash : Option String
  eventHash : String
deriving DecidableEq

/-- What `verifyAudit` answers. -/
structure WorkflowAuditVerification where
  valid : Bool
  checkedThroughSequence : ℤ
  firstBrokenSequence : Option ℤ := none
  expectedPreviousHash : Option (Option String) := none
  actualPreviousHash : Option (Option String) := none
deriving DecidableEq

/-- The text of a JSON column, parsed. -/
def parse : Option Json → Except String Json
  | some value => .ok value
  | none => .error "SyntaxError"

def auditFromRow (row : AuditRow) : Except String WorkflowAuditEvent := do
  let actor ← parse row.actorJson
  let origin ← parse row.originJson
  let metadata ← parse row.metadataJson
  return {
    sequence := row.sequence, actor := actor, origin := origin, action := row.action,
    subjectType := row.subjectType, subjectId := row.subjectId, metadata := metadata,
    occurredAt := row.occurredAt, previousHash := row.previousHash, eventHash := row.eventHash }

/-- The object `auditHash` prints. -/
def AuditBase.toJson (event : AuditBase) : Json :=
  .obj [("sequence", .num (.ofInt event.sequence)), ("actor", event.actor),
    ("origin", event.origin), ("action", .str event.action),
    ("subjectType", .str event.subjectType), ("subjectId", .str event.subjectId),
    ("metadata", event.metadata), ("occurredAt", .num (.ofInt event.occurredAt)),
    ("previousHash", event.previousHash.elim .null .str)]

def auditHash (event : AuditBase) : String :=
  "sha256:" ++ Host.sha256 event.toJson.stringify

/-! ### The chain -/

/-- `SQL.auditChain`: the rows in the order of their sequence. -/
def auditChain (table : List AuditRow) : List AuditRow :=
  table.insertionSort fun left right => left.sequence ≤ right.sequence

def latestAudit (table : List AuditRow) : Option AuditRow :=
  (auditChain table).getLast?

/-- `SQL.insertAudit`, refused when the primary key is taken. -/
def insertAudit (table : List AuditRow) (row : AuditRow) : Option (List AuditRow) :=
  if table.any (·.sequence == row.sequence) then none else some (table ++ [row])

/-- What a caller of `#appendAudit` says about the event. -/
structure AuditWrite where
  actor : Json
  origin : Json
  action : String
  subjectType : String
  subjectId : String
  metadata : Json
  occurredAt : ℤ
deriving DecidableEq

/-- The event `#appendAudit` makes, the latest row read from `seen`. -/
def auditEvent (seen : List AuditRow) (write : AuditWrite) : WorkflowAuditEvent :=
  let previous := latestAudit seen
  let base : AuditBase :=
    { sequence := (previous.elim 0 (·.sequence)) + 1, actor := write.actor,
      origin := write.origin, action := write.action, subjectType := write.subjectType,
      subjectId := write.subjectId, metadata := write.metadata, occurredAt := write.occurredAt,
      previousHash := previous.map (·.eventHash) }
  { base with eventHash := auditHash base }

/-- The row an event is stored as. -/
def WorkflowAuditEvent.toRow (event : WorkflowAuditEvent) : AuditRow :=
  { sequence := event.sequence, actorJson := some event.actor, originJson := some event.origin,
    action := event.action, subjectType := event.subjectType, subjectId := event.subjectId,
    metadataJson := some event.metadata, occurredAt := event.occurredAt,
    previousHash := event.previousHash, eventHash := event.eventHash }

/-- `#appendAudit`: its two statements read the table as `seen` and insert into
`table`, which other transactions may have moved on meanwhile. -/
def appendAudit (seen table : List AuditRow) (write : AuditWrite) : Option (List AuditRow) :=
  insertAudit table (auditEvent seen write).toRow

/-- The tables the calls of a tenant leave: each call that commits has read some
earlier state of the table. -/
inductive AuditLog : List AuditRow → Prop
  | empty : AuditLog []
  | append {seen table table' : List AuditRow} (write : AuditWrite) :
    AuditLog table → seen <+: table → appendAudit seen table write = some table' → AuditLog table'

/-- The loop of `verifyAudit` over the rows it has read. -/
def verifyRows : Option String → ℤ → List AuditRow → Except String WorkflowAuditVerification
  | _, last, [] => .ok { valid := true, checkedThroughSequence := last }
  | previousHash, _, row :: rows => do
    let event ← auditFromRow row
    let expected := auditHash { event.toAuditBase with previousHash }
    if event.previousHash ≠ previousHash ∨ event.eventHash ≠ expected then
      return { valid := false, checkedThroughSequence := max 0 (event.sequence - 1),
               firstBrokenSequence := some event.sequence,
               expectedPreviousHash := some previousHash,
               actualPreviousHash := some event.previousHash }
    else verifyRows (some event.eventHash) event.sequence rows

def verifyAudit (table : List AuditRow) : Except String WorkflowAuditVerification :=
  verifyRows none 0 (auditChain table)

/-- The rows of a table as a hash chain. -/
def auditHashChain : HashChain WorkflowAuditEvent AuditBase String where
  fields := WorkflowAuditEvent.toAuditBase
  previous := AuditBase.previousHash
  hash := WorkflowAuditEvent.eventHash
  digest := auditHash

/-- The verification does not find the table intact: it names the first broken
row, or throws on a column it cannot parse. -/
def ReportsFailure (result : Except String WorkflowAuditVerification) : Prop :=
  ∀ verification, result = .ok verification → verification.valid = false

/-! ### The digest -/

omit [Host] in
theorem AuditBase.toJson_injective : Function.Injective AuditBase.toJson := by
  rintro ⟨s, a, o, c, t, i, m, w, p⟩ ⟨s', a', o', c', t', i', m', w', p'⟩ h
  simp only [AuditBase.toJson, Json.obj.injEq, List.cons.injEq, Prod.mk.injEq, true_and, and_true,
    Json.num.injEq, Json.str.injEq] at h
  obtain ⟨hs, rfl, rfl, rfl, rfl, rfl, rfl, hw, hp⟩ := h
  obtain rfl := Decimal.ofInt_injective hs
  obtain rfl := Decimal.ofInt_injective hw
  have : p = p' := by cases p <;> cases p' <;> simp_all
  rw [this]

/-- A hash without collisions gives events that differ in a hashed field
different digests. -/
theorem auditHash_injective (hs : Function.Injective Host.sha256) :
    Function.Injective auditHash := by
  intro a b h
  have hd : Host.sha256 a.toJson.stringify = Host.sha256 b.toJson.stringify := by
    have := congrArg String.toList h
    simp only [auditHash, String.toList_append] at this
    exact String.toList_inj.1 (List.append_cancel_left this)
  exact AuditBase.toJson_injective (Json.stringify_injective (hs hd))

/-! ### What the loop checks -/

omit [Host] in
theorem auditFromRow_toRow (event : WorkflowAuditEvent) : auditFromRow event.toRow = .ok event :=
  rfl

omit [Host] in
theorem toRow_injective : Function.Injective WorkflowAuditEvent.toRow := by
  intro a b h
  have : (.ok a : Except String WorkflowAuditEvent) = .ok b := by
    rw [← auditFromRow_toRow, ← auditFromRow_toRow, h]
  exact Except.ok.inj this

omit [Host] in
theorem eq_toRow_of_auditFromRow {row : AuditRow} {event : WorkflowAuditEvent}
    (h : auditFromRow row = .ok event) : row = event.toRow := by
  obtain ⟨s, a, o, c, t, i, m, w, p, e⟩ := row
  cases a <;> cases o <;> cases m <;> simp [auditFromRow, parse, Bind.bind, Except.bind, Pure.pure,
    Except.pure] at h
  subst h
  rfl

/-- One turn of the loop: a row passes when it names the hash before it and its
own hash is the digest of its fields. -/
theorem verifyRows_cons (previous : Option String) (last : ℤ) (event : WorkflowAuditEvent)
    (rows : List AuditRow) :
    verifyRows previous last (event.toRow :: rows) =
      if event.previousHash = previous ∧ event.eventHash = auditHash event.toAuditBase then
        verifyRows (some event.eventHash) event.sequence rows
      else .ok { valid := false, checkedThroughSequence := max 0 (event.sequence - 1),
                 firstBrokenSequence := some event.sequence,
                 expectedPreviousHash := some previous,
                 actualPreviousHash := some event.previousHash } := by
  rw [verifyRows, auditFromRow_toRow]
  by_cases hp : event.previousHash = previous
  · subst hp
    by_cases hh : event.eventHash = auditHash event.toAuditBase
    · rw [if_pos ⟨rfl, hh⟩]
      exact if_neg (by simpa using hh)
    · rw [if_neg (by simp [hh])]
      exact if_pos (.inr hh)
  · rw [if_neg (by simp [hp])]
    exact if_pos (.inl hp)

/-- The answer on rows that link up: checked through the last of them. -/
theorem verifyRows_of_linked {events : List WorkflowAuditEvent} {previous : Option String}
    (last : ℤ) (h : auditHashChain.Linked previous events) :
    verifyRows previous last (events.map (·.toRow)) =
      .ok { valid := true, checkedThroughSequence := events.getLast?.elim last (·.sequence) } := by
  induction events generalizing previous last with
  | nil => rfl
  | cons event events ih =>
    obtain ⟨hp, hh, hl⟩ := h
    rw [List.map_cons, verifyRows_cons, if_pos ⟨hp, hh⟩]
    refine (ih event.sequence hl).trans ?_
    rcases events with _ | ⟨next, events⟩
    · rfl
    · rw [List.getLast?_cons_cons, List.getLast?_eq_some_getLast (List.cons_ne_nil _ _)]
      rfl

/-- The loop finds the rows intact exactly when they are the stored form of
events that link up. -/
theorem verifyRows_valid_iff (previous : Option String) (last : ℤ) (rows : List AuditRow) :
    (∃ v, verifyRows previous last rows = .ok v ∧ v.valid = true) ↔
      ∃ events : List WorkflowAuditEvent,
        rows = events.map (·.toRow) ∧ auditHashChain.Linked previous events := by
  constructor
  · rintro ⟨v, hv, hval⟩
    induction rows generalizing previous last with
    | nil => exact ⟨[], rfl, trivial⟩
    | cons row rows ih =>
      rcases hr : auditFromRow row with e | event
      · rw [verifyRows, hr] at hv
        cases hv
      obtain rfl := eq_toRow_of_auditFromRow hr
      rw [verifyRows_cons] at hv
      split at hv
      · next hc =>
        obtain ⟨events, rfl, hl⟩ := ih _ _ hv
        exact ⟨event :: events, rfl, hc.1, hc.2, hl⟩
      · cases hv
        simp at hval
  · rintro ⟨events, rfl, hl⟩
    exact ⟨_, verifyRows_of_linked last hl, rfl⟩

theorem reportsFailure_iff (previous : Option String) (last : ℤ) (rows : List AuditRow) :
    ReportsFailure (verifyRows previous last rows) ↔ ¬ ∃ events : List WorkflowAuditEvent,
        rows = events.map (·.toRow) ∧ auditHashChain.Linked previous events := by
  rw [← verifyRows_valid_iff previous last]
  simp [ReportsFailure]

/-! ### The logs of a tenant -/

/-- What the calls of a tenant keep: the rows are the stored form of events that
link up and are numbered from 1 without gap. -/
structure Intact (table : List AuditRow) (events : List WorkflowAuditEvent) : Prop where
  rows : table = events.map (·.toRow)
  linked : auditHashChain.Linked none events
  sequence : ∀ (i : ℕ) (event : WorkflowAuditEvent), events[i]? = some event →
    event.sequence = i + 1

namespace Intact

variable {table : List AuditRow} {events : List WorkflowAuditEvent}

variable {i : ℕ} {seen table' : List AuditRow} {a b : AuditRow}

theorem sequence_row (h : Intact table events) {row : AuditRow}
    (hr : table[i]? = some row) : row.sequence = i + 1 := by
  rw [h.rows, List.getElem?_map, Option.map_eq_some_iff] at hr
  obtain ⟨event, he, rfl⟩ := hr
  exact h.sequence i event he

theorem sorted (h : Intact table events) :
    table.Pairwise fun left right => left.sequence < right.sequence := by
  rw [List.pairwise_iff_getElem]
  intro i j hi hj hij
  rw [h.sequence_row (List.getElem?_eq_getElem hi), h.sequence_row (List.getElem?_eq_getElem hj)]
  omega

theorem auditChain_eq (h : Intact table events) {kept : List AuditRow} (hk : kept.Sublist table) :
    auditChain kept = kept :=
  ((h.sorted.sublist hk).imp le_of_lt).insertionSort_eq

theorem latestAudit_eq (h : Intact table events) (hs : seen <+: table) :
    latestAudit seen = seen.getLast? := by
  rw [latestAudit, h.auditChain_eq hs.sublist]

/-- The number behind the latest row of an earlier state. -/
theorem latestAudit_sequence (h : Intact table events)
    (hs : seen <+: table) : (latestAudit seen).elim 0 (·.sequence) = seen.length := by
  rw [h.latestAudit_eq hs, List.getLast?_eq_getElem?]
  rcases hl : seen[seen.length - 1]? with _ | row
  · have := List.getElem?_eq_none_iff.1 hl
    simp only [Option.elim_none]
    omega
  · have hp := (List.getElem?_eq_some_iff.1 hl).1
    have hr : table[seen.length - 1]? = some row := by
      obtain ⟨later, rfl⟩ := hs
      rw [List.getElem?_append_left hp, hl]
    rw [Option.elim_some, h.sequence_row hr]
    omega

theorem lastHash_eq (h : Intact table events) :
    auditHashChain.lastHash none events = (latestAudit table).map (·.eventHash) := by
  rw [h.latestAudit_eq (List.prefix_refl _), h.rows]
  rcases List.eq_nil_or_concat events with hn | ⟨front, event, hf⟩
  · rw [hn]
    rfl
  · rw [hf, List.concat_eq_append]
    simp [auditHashChain, WorkflowAuditEvent.toRow]

/-- Reading the latest row of an earlier state and inserting behind it keeps the
log intact: on a state that has moved on, the primary key refuses the row. -/
theorem append (h : Intact table events) {write : AuditWrite}
    (hs : seen <+: table) (hins : appendAudit seen table write = some table') :
    ∃ events', Intact table' events' := by
  have hseq : (auditEvent seen write).sequence = seen.length + 1 := by
    rw [← h.latestAudit_sequence hs]
    rfl
  rw [appendAudit, insertAudit] at hins
  split at hins
  · cases hins
  next hf =>
  obtain rfl := Option.some.inj hins
  obtain rfl : seen = table := by
    refine hs.eq_of_length_le ?_
    by_contra hlt
    have hr := List.getElem?_eq_getElem (show seen.length < table.length by omega)
    refine hf (List.any_eq_true.2 ⟨_, List.mem_of_getElem? hr, ?_⟩)
    rw [beq_iff_eq, h.sequence_row hr]
    exact hseq.symm
  refine ⟨events ++ [auditEvent seen write], by rw [List.map_append, ← h.rows]; rfl, ?_, ?_⟩
  · refine HashChain.linked_append.2 ⟨h.linked, ?_, rfl, trivial⟩
    rw [h.lastHash_eq]
    rfl
  · intro i event he
    have hl : seen.length = events.length := by rw [h.rows, List.length_map]
    rcases lt_or_ge i events.length with hi | hi
    · rw [List.getElem?_append_left hi] at he
      exact h.sequence i event he
    · rw [List.getElem?_append_right hi] at he
      obtain ⟨hi', rfl⟩ := List.getElem?_eq_some_iff.1 he
      rw [List.length_singleton] at hi'
      rw [List.getElem_singleton, hseq]
      omega

theorem eq_of_sequence (h : Intact table events) (ha : a ∈ table)
    (hb : b ∈ table) (hab : a.sequence = b.sequence) : a = b := by
  obtain ⟨i, hi⟩ := List.mem_iff_getElem?.1 ha
  obtain ⟨j, hj⟩ := List.mem_iff_getElem?.1 hb
  obtain rfl : i = j := by
    have := h.sequence_row hi
    have := h.sequence_row hj
    omega
  exact Option.some.inj (hi.symm.trans hj)

/-- The rows of another linked log that ends in a row of the table are the rows
the table begins with. -/
theorem prefix_of_mem (h : Intact table events) (hsha : Function.Injective Host.sha256)
    {events' : List WorkflowAuditEvent} (hl : auditHashChain.Linked none events')
    (hm : ∀ event ∈ events', event.toRow ∈ table) : events'.map (·.toRow) <+: table := by
  rcases List.eq_nil_or_concat events' with rfl | ⟨front, last, rfl⟩
  · exact List.nil_prefix
  rw [List.concat_eq_append] at hl hm ⊢
  have hlast : last ∈ events := by
    have := hm last (by simp)
    rw [h.rows, List.mem_map] at this
    obtain ⟨event, he, heq⟩ := this
    rwa [← toRow_injective heq]
  have hp := h.linked.prefix_of_mem (auditHash_injective hsha) hl hlast
  have hf := hp.map fun base : AuditBase =>
    (({ base with eventHash := auditHash base } : WorkflowAuditEvent)).toRow
  rw [List.map_map, List.map_map] at hf
  -- in a linked log the hash of a row is the digest of its fields
  have hs : ∀ {log : List WorkflowAuditEvent}, auditHashChain.Linked none log →
      log.map ((fun base : AuditBase =>
        (({ base with eventHash := auditHash base } : WorkflowAuditEvent)).toRow) ∘
          auditHashChain.fields) = log.map (·.toRow) := by
    intro log hlog
    refine List.map_congr_left fun event he => ?_
    have hh : event.eventHash = auditHash event.toAuditBase := hlog.hash_eq he
    simp only [Function.comp_apply, WorkflowAuditEvent.toRow, auditHashChain, ← hh]
  rwa [hs hl, hs h.linked, ← h.rows] at hf

/-- No table passes that holds a row with the hash of a row of the log and other
fields. -/
theorem reports_forged (h : Intact table events) (hs : Function.Injective Host.sha256)
    {row row' : AuditRow} (hrow : row ∈ table) (hrow' : row' ∈ table')
    (hh : row'.eventHash = row.eventHash) (hne : row' ≠ row) :
    ReportsFailure (verifyAudit table') := by
  rw [verifyAudit, reportsFailure_iff]
  rintro ⟨events', hr, hl⟩
  rw [h.rows, List.mem_map] at hrow
  obtain ⟨event, he, rfl⟩ := hrow
  have hm : row' ∈ auditChain table' := (List.mem_insertionSort _).2 hrow'
  rw [hr, List.mem_map] at hm
  obtain ⟨event', he', rfl⟩ := hm
  have hb : auditHashChain.fields event' ≠ auditHashChain.fields event := by
    intro hb
    have hh' : event'.eventHash = event.eventHash := hh
    obtain ⟨base, hash⟩ := event
    obtain ⟨base', hash'⟩ := event'
    simp only [auditHashChain] at hb
    subst hb
    subst hh'
    exact hne rfl
  exact HashChain.not_linked_of_mem (auditHash_injective hs) he'
    (hh.trans (h.linked.hash_eq he)) hb hl

/-- Removing rows is reported unless what is left is a beginning of the log. -/
theorem reports_removed (h : Intact table events) (hs : Function.Injective Host.sha256)
    {kept : List AuditRow} (hk : kept.Sublist table) (hne : ¬ kept <+: table) :
    ReportsFailure (verifyAudit kept) := by
  rw [verifyAudit, h.auditChain_eq hk, reportsFailure_iff]
  rintro ⟨events', hr, hl⟩
  refine hne (hr ▸ h.prefix_of_mem hs hl fun event he => hk.subset ?_)
  exact hr ▸ List.mem_map_of_mem he

/-- Reading two rows in each other's place is reported. -/
theorem reports_exchanged (h : Intact table events) (hsha : Function.Injective Host.sha256)
    {j : ℕ} (hij : i < j) (ha : table[i]? = some a) (hb : table[j]? = some b) :
    ReportsFailure (verifyRows none 0 ((table.set i b).set j a)) := by
  rw [reportsFailure_iff]
  rintro ⟨events', hr, hl⟩
  have hm : ∀ row ∈ (table.set i b).set j a, row ∈ table := by
    intro row hrow
    rcases List.mem_or_eq_of_mem_set hrow with hrow | rfl
    · rcases List.mem_or_eq_of_mem_set hrow with hrow | rfl
      · exact hrow
      · exact List.mem_of_getElem? hb
    · exact List.mem_of_getElem? ha
  have hp := h.prefix_of_mem hsha hl fun event he =>
    hm _ (hr ▸ List.mem_map_of_mem he)
  rw [← hr] at hp
  have hs : (table.set i b).set j a = table := hp.eq_of_length (by simp)
  have hi := (List.getElem?_eq_some_iff.1 ha).1
  have hat : ((table.set i b).set j a)[i]? = some b := by
    rw [List.getElem?_set_ne (by omega), List.getElem?_set_self hi]
  rw [hs, ha] at hat
  have hseq := h.sequence_row ha
  rw [Option.some.inj hat, h.sequence_row hb] at hseq
  omega

/-- Where a row with a new sequence number stands once the table is read in
order. -/
theorem auditChain_insert (h : Intact table events) {row : AuditRow}
    (hp : table'.Perm (row :: table)) :
    ∃ front back, auditChain table' = front ++ row :: back ∧ front ++ back = table := by
  have hs : (auditChain table').Perm (row :: table) :=
    (List.perm_insertionSort _ _).trans hp
  obtain ⟨front, back, hspl⟩ := List.append_of_mem (hs.symm.subset List.mem_cons_self)
  refine ⟨front, back, hspl, ?_⟩
  rw [hspl] at hs
  have hpai : (front ++ row :: back).Pairwise fun left right => left.sequence ≤ right.sequence := by
    rw [← hspl]
    exact List.pairwise_insertionSort _ _
  have hr : (front ++ back).Perm table := (List.perm_middle.symm.trans hs).cons_inv
  refine hr.eq_of_pairwise (fun a b ha hb hab hba => ?_)
    (hpai.sublist ((List.sublist_cons_self _ _).append_left _)) (h.sorted.imp le_of_lt)
  exact h.eq_of_sequence (hr.subset ha) hb (le_antisymm hab hba)

/-- A row before another row of the log breaks the chain: the log ends in the same
row without it. -/
theorem not_linked_of_insert_before (h : Intact table events)
    (hs : Function.Injective Host.sha256) {front back : List WorkflowAuditEvent}
    {event next : WorkflowAuditEvent} (hn : ∀ r ∈ table, r.sequence ≠ event.toRow.sequence)
    (hr : front.map (·.toRow) ++ (next :: back).map (·.toRow) = table) :
    ¬ auditHashChain.Linked none (front ++ event :: next :: back) := by
  intro hl
  have he : events = front ++ next :: back := by
    refine List.map_injective_iff.2 toRow_injective ?_
    rw [List.map_append, hr, h.rows]
  rcases List.eq_nil_or_concat (next :: back) with hnil | ⟨init, last, hi⟩
  · cases hnil
  rw [List.concat_eq_append] at hi
  have hlog : auditHashChain.Linked none ((front ++ init) ++ [last]) := by
    rw [List.append_assoc, ← hi, ← he]
    exact h.linked
  have hp := hl.prefix_of_mem (auditHash_injective hs) hlog (by simp [hi])
  rw [List.append_assoc, ← hi, List.map_append, List.map_append,
    List.prefix_append_right_inj, List.map_cons, List.map_cons, List.cons_prefix_cons] at hp
  have hseq : next.sequence = event.sequence :=
    congrArg AuditBase.sequence hp.1
  refine hn next.toRow ?_ hseq
  rw [← hr]
  simp

/-- A row passes behind the last one exactly when it names the last hash and its
own hash is the digest of its fields; anywhere else it is reported. -/
theorem reports_inserted_iff (h : Intact table events) (hsha : Function.Injective Host.sha256)
    {row : AuditRow} (hp : table'.Perm (row :: table))
    (hn : ∀ r ∈ table, r.sequence ≠ row.sequence) :
    ReportsFailure (verifyAudit table') ↔
      ¬ ((∀ r ∈ table, r.sequence < row.sequence) ∧ ∃ event : WorkflowAuditEvent,
        row = event.toRow ∧ event.previousHash = (latestAudit table).map (·.eventHash) ∧
          event.eventHash = auditHash event.toAuditBase) := by
  obtain ⟨front, back, hs, hrest⟩ := h.auditChain_insert hp
  have hpai : (front ++ row :: back).Pairwise fun left right => left.sequence ≤ right.sequence := by
    rw [← hs]
    exact List.pairwise_insertionSort _ _
  rw [verifyAudit, reportsFailure_iff, not_iff_not, hs]
  constructor
  · rintro ⟨events', hrows, hl⟩
    obtain ⟨fronts, rest, rfl, rfl, hrest'⟩ := List.append_eq_map_iff.1 hrows
    obtain ⟨event, backs, rfl, rfl, rfl⟩ := List.map_eq_cons_iff.1 hrest'
    have hb : backs = [] := by
      rcases backs with _ | ⟨next, backs⟩
      · rfl
      exact absurd hl (h.not_linked_of_insert_before hsha hn hrest)
    subst hb
    rw [List.map_nil, List.append_nil] at hrest
    have he : fronts = events :=
      List.map_injective_iff.2 toRow_injective (hrest.trans h.rows)
    subst he
    obtain ⟨-, hpre, hh, -⟩ := HashChain.linked_append.1 hl
    refine ⟨fun r hr => ?_, event, rfl, hpre.trans h.lastHash_eq, hh⟩
    have hle := (List.pairwise_append.1 hpai).2.2 r (hrest ▸ hr) _ List.mem_cons_self
    have := hn r hr
    omega
  · rintro ⟨hlast, event, rfl, hpre, hh⟩
    have hb : back = [] := by
      by_contra hne
      obtain ⟨r, back, rfl⟩ := List.exists_cons_of_ne_nil hne
      have hr := hlast r (hrest ▸ by simp)
      have := (List.pairwise_append.1 hpai).2.1
      have := List.rel_of_pairwise_cons this (List.mem_cons_self (a := r))
      omega
    subst hb
    rw [List.append_nil] at hrest
    refine ⟨events ++ [event], by rw [hrest, h.rows, List.map_append]; rfl, ?_⟩
    refine HashChain.linked_append.2 ⟨h.linked, ?_, hh, trivial⟩
    rw [h.lastHash_eq]
    exact hpre

end Intact

theorem exists_intact {table : List AuditRow} (h : AuditLog table) :
    ∃ events, Intact table events := by
  induction h with
  | empty => exact ⟨[], rfl, trivial, by simp⟩
  | append write _ hs hi ih =>
    obtain ⟨events, ih⟩ := ih
    exact ih.append hs hi

/-! ### Tampering -/

/-- What `verifyAudit` says of a log and of the logs an edit makes of it. -/
structure TamperEvident (table : List AuditRow) : Prop where
  /-- The log itself is accepted up to its last row. -/
  accepted : verifyAudit table = .ok { valid := true, checkedThroughSequence := table.length }
  /-- A row with another hashed field and its old hash is reported. -/
  changed : ∀ (i : ℕ) (row row' : AuditRow), table[i]? = some row →
    row'.eventHash = row.eventHash → row' ≠ row → ReportsFailure (verifyAudit (table.set i row'))
  /-- Removing a row with another one behind it is reported. -/
  erased : ∀ i, i + 1 < table.length → ReportsFailure (verifyAudit (table.eraseIdx i))
  /-- Removing rows is reported unless they are a suffix of the log. -/
  removed : ∀ kept : List AuditRow, kept.Sublist table → ¬ kept <+: table →
    ReportsFailure (verifyAudit kept)
  /-- Inserting a row is reported unless it stands behind the last one, names that
  row's hash and carries the digest of its own fields. -/
  inserted : ∀ (row : AuditRow) (table' : List AuditRow), table'.Perm (row :: table) →
    (∀ r ∈ table, r.sequence ≠ row.sequence) → (ReportsFailure (verifyAudit table') ↔
        ¬ ((∀ r ∈ table, r.sequence < row.sequence) ∧ ∃ event : WorkflowAuditEvent,
          row = event.toRow ∧ event.previousHash = (latestAudit table).map (·.eventHash) ∧
            event.eventHash = auditHash event.toAuditBase))
  /-- Two rows that change their places in the numbering are reported. -/
  renumbered : ∀ (i j : ℕ) (a b : AuditRow), i < j → table[i]? = some a → table[j]? = some b →
    ReportsFailure (verifyAudit
      ((table.set i { b with sequence := a.sequence }).set j { a with sequence := b.sequence }))
  /-- Two rows the query hands over in each other's place are reported. -/
  exchanged : ∀ (i j : ℕ) (a b : AuditRow), i < j → table[i]? = some a → table[j]? = some b →
    ReportsFailure (verifyRows none 0 ((table.set i b).set j a))

namespace Intact

variable {table : List AuditRow} {events : List WorkflowAuditEvent}

theorem accepted (h : Intact table events) :
    verifyAudit table = .ok { valid := true, checkedThroughSequence := table.length } := by
  rw [verifyAudit, h.auditChain_eq (List.Sublist.refl _), h.rows, verifyRows_of_linked 0 h.linked,
    List.getLast?_eq_getElem?, List.length_map]
  rcases hl : events[events.length - 1]? with _ | event
  · have := List.getElem?_eq_none_iff.1 hl
    have he : events.length = 0 := by omega
    simp [he]
  · have hp := (List.getElem?_eq_some_iff.1 hl).1
    have hs : event.sequence = events.length := by
      rw [h.sequence _ _ hl]
      omega
    simp [hs]

/-- What is left without a row that has another one behind it is no beginning of
the log. -/
theorem not_prefix_eraseIdx (h : Intact table events) {i : ℕ} (hi : i + 1 < table.length) :
    ¬ table.eraseIdx i <+: table := by
  intro hp
  have hl : i < (table.eraseIdx i).length := by
    rw [List.length_eraseIdx_of_lt (by omega)]
    omega
  have hat := hp.getElem hl
  rw [List.getElem_eraseIdx_of_ge (by omega) (le_refl i)] at hat
  have h₁ := h.sequence_row (List.getElem?_eq_getElem hi)
  have h₂ := h.sequence_row (List.getElem?_eq_getElem (show i < table.length by omega))
  rw [hat, h₂] at h₁
  omega

end Intact

omit [Host]

/-- A user creates a workflow. -/
def createdWrite : AuditWrite where
  actor := .obj [("kind", .str "user"), ("id", .str "ada")]
  origin := .obj [("kind", .str "manual")]
  action := "workflow.created"
  subjectType := "workflow"
  subjectId := "w1"
  metadata := .obj [("key", .str "intake"), ("revision", .num 1)]
  occurredAt := 10

/-- The user publishes it. -/
def publishedWrite : AuditWrite :=
  { createdWrite with
    action := "workflow.published", metadata := .obj [("revision", .num 1)], occurredAt := 20 }

/-- The log of one event, on a host whose digest is the text itself. -/
def createdLog : List AuditRow :=
  letI := plainHost
  [(auditEvent [] createdWrite).toRow]

/-- The log of both events. -/
def publishedLog : List AuditRow :=
  letI := plainHost
  createdLog ++ [(auditEvent createdLog publishedWrite).toRow]

theorem auditLog_createdLog : @AuditLog plainHost createdLog :=
  @AuditLog.append plainHost [] [] _ createdWrite (@AuditLog.empty plainHost)
    (List.prefix_refl _) rfl

theorem auditLog_publishedLog : @AuditLog plainHost publishedLog :=
  @AuditLog.append plainHost createdLog createdLog _ publishedWrite auditLog_createdLog
    (List.prefix_refl _) rfl

/-- An event nobody appended: a number of its own, the hash of the last row and
the digest of its fields. -/
def forgedEvent : WorkflowAuditEvent :=
  letI := plainHost
  let base : AuditBase :=
    { (auditEvent createdLog publishedWrite).toAuditBase with
      sequence := 7, actor := .obj [("kind", .str "user"), ("id", .str "eve")] }
  { base with eventHash := auditHash base }

end Flowdular.Workflows
