/-
# An erased subject stays erased

`src/modules/audit/src/services/database-repository.ts`, lines 509-516
(`subjectKeysByIds`), 760-833 (`auditEventFromRow`, `parsedSealedContent`,
`parsedMetadata`), 1389-1422 (`#openedEvents`), 1683-1731 (`subjectKey`,
`destroySubjectKey`) and the statements of `Repository`; `erasure-service.ts` as in
`Services`.

Appends, calls of `subjectKey` and erasures of one workspace take turns statement by
statement.  Two things no row tells are kept beside the tables: the subjects whose key
was destroyed, and of every event the account it was to name and what was destroyed when
its key was last looked up.  A key row never leaves the table and never gets a key again,
and of a destroyed subject there is one that bears its marker.  The holds are not looked
at here, so any answer about them is one.
-/

import Flowdular.Audit.Services
import Flowdular.Lib.Crew
import Mathlib.Data.List.Pairwise

namespace Flowdular.Audit

open Lib Workflows
open Discipline (All all_bind Triple Stable)

/-! ### Reading an event -/

structure AuditEvent where
  id : String
  tenantId : String
  sequence : ℤ
  actorId : String
  action : String
  subjectType : String
  subjectId : String
  metadata : Json
  occurredAt : ℤ
  previousHash : Option String
  eventHash : String
  sealed : Bool
  subjectKeyId : Option String
  readable : Bool

structure SealedEventContent where
  actorId : String
  subjectId : String
  metadata : Json

/-- What `#openedEvents` reads for a page of rows: the keys they name, where these have
material. -/
def Tables.eventKeys (tables : Tables) (rows : List StoredAuditEvent) : List (String × SubjectKey) :=
  (tables.keys.filter fun key => rows.any fun row => row.subjectKeyId = some key.id).filterMap
    fun key => key.material.map fun material => (key.id, material)

section

variable [AuditHost]

def parsedMetadata (value : String) : Json :=
  match AuditHost.parse value with
  | some (.obj fields) => .obj fields
  | _ => .obj []

def parsedSealedContent (value : String) : Option SealedEventContent :=
  match AuditHost.parse value with
  | some (.obj fields) =>
    match fields.lookup "actorId", fields.lookup "subjectId" with
    | some (.str actorId), some (.str subjectId) =>
      some {
        actorId := actorId
        subjectId := subjectId
        metadata :=
          match fields.lookup "metadata" with
          | some (.obj entries) => .obj entries
          | some (.arr items) => .arr items
          | _ => .obj [] }
    | _, _ => none
  | _ => none

def auditEventFromRow (row : StoredAuditEvent) (keys : List (String × SubjectKey)) : AuditEvent :=
  match row.sealedPayload with
  | none => {
      id := row.id, tenantId := row.tenantId, sequence := row.sequence, actorId := row.actorId,
      action := row.action, subjectType := row.subjectType, subjectId := row.subjectId,
      metadata := parsedMetadata row.metadataJson, occurredAt := row.occurredAt,
      previousHash := row.previousHash, eventHash := row.eventHash, sealed := false,
      subjectKeyId := row.subjectKeyId, readable := true }
  | some payload =>
    let key := row.subjectKeyId.bind fun id => keys.lookup id
    let opened := key.bind fun key =>
      AuditHost.openText key (subjectSealContext row.tenantId row.id) payload
    let content := opened.bind parsedSealedContent
    { id := row.id, tenantId := row.tenantId, sequence := row.sequence,
      actorId := content.elim AUDIT_SEALED_MARKER (·.actorId), action := row.action,
      subjectType := row.subjectType,
      subjectId := content.elim AUDIT_SEALED_MARKER (·.subjectId),
      metadata := content.elim (.obj []) (·.metadata), occurredAt := row.occurredAt,
      previousHash := row.previousHash, eventHash := row.eventHash, sealed := true,
      subjectKeyId := row.subjectKeyId, readable := content.isSome }

/-- `#openedEvents`, of a page of rows. -/
def Tables.openedEvents (tables : Tables) (rows : List StoredAuditEvent) : List AuditEvent :=
  rows.map fun row => auditEventFromRow row (tables.eventKeys rows)

/-! ### The machine -/

def subjectKey (tenantId subject : String) (now : ℤ) (draws : EventDraws) :
    Transaction SubjectKeyMaterial := do
  let key ← subjectKeyIn tenantId subject now draws
  let _ ← query (.commit key.written none)
  return key

end

/-- An event that was stored: what it was to tell, the subjects whose keys were destroyed
when its key was last looked up, and the row. -/
structure Appended where
  input : AppendAuditEventInput
  seen : List String
  event : StoredAuditEvent

/-- The tables of a workspace, the subjects whose key was destroyed, and the events that
were stored. -/
structure Vault where
  tables : Tables
  destroyed : List String
  appended : List Appended

/-- A statement, for the event of an append and behind a look-up of its key, or a call of
a service. -/
inductive Query
  | statement (input : Option AppendAuditEventInput) (seen : List String) (st : Statement)
  | call (c : Call)

/-- What a query answers: a statement tells which subjects' keys are destroyed as well,
which no code reads. -/
@[reducible] def Query.Answer : Query → Type
  | .statement _ _ st => st.Answer × List String
  | .call c => c.Answer

/-- A program of queries. -/
abbrev Work (α : Type) :=
  Prog Query (Prog.Reply Query.Answer) α

/-- A look-up of a subject's key. -/
def Statement.looksUp : Statement → Bool
  | .getSubjectKey .. => true
  | _ => false

/-- The statements of a transaction, with what was destroyed at the last look-up. -/
def Transaction.within {α : Type} (input : Option AppendAuditEventInput) :
    Transaction α → List String → Work (α × List String)
  | .pure a, seen => .pure (a, seen)
  | .fail e, _ => .fail e
  | .call st next, seen => .call (.statement input seen st) fun
    | .ok (a, gone) =>
      Transaction.within input (next (.ok a)) (if st.looksUp then gone else seen)
    | .error e => Transaction.within input (next (.error e)) seen

/-- A call that neither stores an event nor destroys a key. -/
def Call.isQuiet : Call → Bool
  | .repository (.appendAuditEvent ..) => false
  | .repository (.destroySubjectKey ..) => false
  | _ => true

/-- The event a statement stores, where it succeeds. -/
def Statement.stores : Statement → Option StoredAuditEvent
  | .commit _ event => event
  | _ => none

/-- The record of an event that was stored. -/
def recordOf (input : Option AppendAuditEventInput) (seen : List String)
    (event : Option StoredAuditEvent) : List Appended :=
  input.toList.flatMap fun input => event.toList.map fun event => ⟨input, seen, event⟩

/-- What a query leaves and, unless the holds, an owner or the like answer it, its reply. -/
def Query.perform : (q : Query) → Vault → Option (Prog.Reply Query.Answer q) × Vault
  | .statement input seen st, s =>
    match st.perform s.tables with
    | (.ok a, tables) =>
      (some (.ok (a, s.destroyed)),
        { s with tables := tables, appended := s.appended ++ recordOf input seen st.stores })
    | (.error e, tables) => (some (.error e), { s with tables := tables })
  | .call (.repository (.getSubjectKey subject)), s =>
    (some (.ok (s.tables.getSubjectKey none subject)), s)
  | .call (.repository (.getSubjectKeyByMarker marker)), s =>
    (some (.ok (s.tables.getSubjectKeyByMarker marker)), s)
  | .call (.repository (.destroySubjectKey subject now)), s =>
    (some (.ok (s.tables.destroySubjectKey subject now).1),
      { s with
        tables := (s.tables.destroySubjectKey subject now).2
        destroyed := subject :: s.destroyed })
  | .call _, s => (none, s)

/-- A query, answered. -/
def Query.serve : (q : Query) → Vault → Choice → Prog.Reply Query.Answer q × Vault
  | q, s, ⟨some (kept, error), _⟩ => (.error error, if kept then (q.perform s).2 else s)
  | .statement input seen st, s, ⟨none, _⟩ =>
    (((Query.statement input seen st).perform s).1.getD (.error "no answer"),
      ((Query.statement input seen st).perform s).2)
  | .call c, s, ⟨none, answer⟩ =>
    (((Query.call c).perform s).1.getD ((answer c).elim (.error "no answer") .ok),
      ((Query.call c).perform s).2)

theorem perform_statement (input : Option AppendAuditEventInput) (seen : List String)
    (st : Statement) (s : Vault) : ((Query.statement input seen st).perform s).1 =
      some ((st.perform s.tables).1.map fun a => (a, s.destroyed)) := by
  rw [Query.perform]
  cases st.perform s.tables with
  | mk reply tables => cases reply <;> rfl

variable {s s' : Vault}

/-- A query that is answered did what it does, and one that fails may have. -/
theorem serve_cases {q : Query} {choice : Choice} {r : Prog.Reply Query.Answer q}
    (h : q.serve s choice = (r, s')) :
    (s' = s ∨ s' = (q.perform s).2) ∧ (∃ e, r = .error e) ∨
      s' = (q.perform s).2 ∧ ∀ reply, (q.perform s).1 = some reply → r = reply := by
  obtain ⟨fails, answer⟩ := choice
  match fails with
  | some (kept, error) =>
    obtain ⟨rfl, rfl⟩ := Prod.mk.inj h
    refine .inl ⟨?_, error, rfl⟩
    cases kept
    · exact .inl rfl
    · exact .inr rfl
  | none =>
    refine .inr ?_
    cases q with
    | statement input seen st =>
      obtain ⟨rfl, rfl⟩ := Prod.mk.inj h
      exact ⟨rfl, fun reply hr => by rw [hr]; rfl⟩
    | call c =>
      obtain ⟨rfl, rfl⟩ := Prod.mk.inj h
      exact ⟨rfl, fun reply hr => by rw [hr]; rfl⟩

theorem Transaction.within_bind {α β : Type} {input : Option AppendAuditEventInput}
    {p : Transaction α} {f : α → Transaction β} : ∀ {seen : List String},
      Transaction.within input (p >>= f) seen =
        p.within input seen >>= fun r => (f r.1).within input r.2 := by
  induction p with
  | pure a => exact rfl
  | fail e => exact rfl
  | call st next ih =>
    intro seen
    rw [Prog.call_bind, Transaction.within, Transaction.within, Prog.call_bind]
    congr 1
    funext r
    cases r with
    | ok reply => exact ih (.ok reply.1)
    | error e => exact ih (.error e)

section

variable [AuditHost]

/-- `appendAuditEvent`, statement by statement. -/
def appendWork (input : AppendAuditEventInput) (draws : EventDraws) : Work StoredAuditEvent := do
  let stored ← (appendAuditEvent input draws).within (some input) []
  return stored.1

/-- The queries of a call: an append is a transaction, any other call is one query. -/
def Call.parts : (c : Call) → Work c.Answer
  | .repository (.appendAuditEvent input draws) => appendWork input draws
  | c => Prog.need (C := Query) (.call c)

/-- A request to one of the services of a workspace. -/
inductive KeyRequest
  | append (input : AppendAuditEventInput) (draws : EventDraws)
  | subjectKey (subject : String) (now : ℤ) (draws : EventDraws)
  | erase (request : ErasureRequest) (draws : ErasureDraws)

/-- The program that answers a request in a workspace. -/
def KeyRequest.program (tenantId : String) : KeyRequest → Work PUnit
  | .append input draws => do
    let _ ← appendWork { input with tenantId := tenantId } draws
    return ⟨⟩
  | .subjectKey subject now draws => do
    let _ ← (Audit.subjectKey tenantId subject now draws).within none []
    return ⟨⟩
  | .erase request draws => do
    let _ ← (run { request with tenantId := tenantId } draws).expand Call.parts
    return ⟨⟩

/-- The services of one workspace. -/
def erasing (tenantId : String) : Machine Vault (Work PUnit) KeyRequest Choice :=
  Prog.machine (KeyRequest.program tenantId) Query.serve

end

/-! ### Rows that evolve -/

namespace SubjectKeyRow

/-- A row as it is, or with its key destroyed. -/
def Becomes (row row' : SubjectKeyRow) : Prop :=
  row' = row ∨ ∃ at_, row' = { row with state := .destroyed at_ }

theorem Becomes.refl (row : SubjectKeyRow) : row.Becomes row := .inl rfl

variable {a b : SubjectKeyRow}

theorem Becomes.trans {c : SubjectKeyRow} (h : a.Becomes b) (h' : b.Becomes c) : a.Becomes c := by
  rcases h with rfl | ⟨at_, rfl⟩
  · exact h'
  · rcases h' with rfl | ⟨at', rfl⟩
    · exact .inr ⟨at_, rfl⟩
    · exact .inr ⟨at', rfl⟩

theorem subject_none {row : SubjectKeyRow} (h : row.destroyedAt.isSome = true) :
    row.subject = none := by
  unfold destroyedAt at h
  unfold subject
  split at h
  · cases h
  · rfl

/-- Two rows that every unique index lets in. -/
def Apart (a b : SubjectKeyRow) : Prop :=
  a.clashes b = false

theorem apart_iff : a.Apart b ↔ a.id ≠ b.id ∧
    (∀ subject, a.subject = some subject → b.subject ≠ some subject) ∧
    ∀ marker, a.subjectMarker = some marker → b.subjectMarker ≠ some marker := by
  have hc : ∀ x y : Option String, (x.isSome && decide (x = y)) = false ↔
      ∀ value, x = some value → y ≠ some value := by
    intro x y
    cases x with
    | none => simp
    | some value => simp [eq_comm]
  unfold Apart clashes
  rw [Bool.or_eq_false_iff, Bool.or_eq_false_iff, hc, hc, decide_eq_false_iff_not, and_assoc]

instance : Std.Symm Apart where
  symm a b h := by
    obtain ⟨hid, hsubject, hmarker⟩ := apart_iff.1 h
    refine apart_iff.2 ⟨hid.symm, fun subject hb ha => ?_, fun marker hb ha => ?_⟩
    · exact hsubject subject ha hb
    · exact hmarker marker ha hb

/-- Rows that stand apart still do when keys are destroyed. -/
theorem Apart.becomes {a' b' : SubjectKeyRow} (h : a.Apart b) (ha : a.Becomes a')
    (hb : b.Becomes b') : a'.Apart b' := by
  obtain ⟨hid, hs, hm⟩ := apart_iff.1 h
  rcases ha with rfl | ⟨at_, rfl⟩
  · rcases hb with rfl | ⟨at', rfl⟩
    · exact h
    · exact apart_iff.2 ⟨hid, fun subject _ hb => (by cases hb), hm⟩
  · rcases hb with rfl | ⟨at', rfl⟩
    · exact apart_iff.2 ⟨hid, fun subject ha => (by cases ha), hm⟩
    · exact apart_iff.2 ⟨hid, fun subject ha => (by cases ha), hm⟩

end SubjectKeyRow

/-- What the others do: rows stay and their keys are destroyed, and what was destroyed and
stored stays so. -/
structure Vault.Evolves (s s' : Vault) : Prop where
  rows : ∀ row ∈ s.tables.keys, ∃ row' ∈ s'.tables.keys, row.Becomes row'
  destroyed : ∀ subject ∈ s.destroyed, subject ∈ s'.destroyed
  appended : s.appended <+: s'.appended

theorem Vault.Evolves.refl (s : Vault) : s.Evolves s where
  rows row hr := ⟨row, hr, .refl row⟩
  destroyed _ h := h
  appended := List.prefix_rfl

theorem Vault.Evolves.trans {s'' : Vault} (h : s.Evolves s') (h' : s'.Evolves s'') : s.Evolves s'' where
  rows row hr := by
    obtain ⟨mid, hm, hb⟩ := h.rows row hr
    obtain ⟨last, hl, hb'⟩ := h'.rows mid hm
    exact ⟨last, hl, hb.trans hb'⟩
  destroyed subject hs := h'.destroyed subject (h.destroyed subject hs)
  appended := h.appended.trans h'.appended

/-- Rows that are added keep what was there. -/
theorem Vault.evolves_append {tables : Tables} {keys : List SubjectKeyRow} {records : List Appended}
    (hk : tables.keys = s.tables.keys ++ keys) :
    s.Evolves ⟨tables, s.destroyed, s.appended ++ records⟩ where
  rows row hr := ⟨row, by rw [hk]; exact List.mem_append_left _ hr, .refl row⟩
  destroyed _ h := h
  appended := List.prefix_append ..

/-! ### What a statement does -/

variable {tables' : Tables}

/-- A commit that succeeds adds its rows, which every index lets in. -/
theorem commit_ok {tables : Tables} {key : Option SubjectKeyRow}
    {event : Option StoredAuditEvent} {a : PUnit}
    (h : (Statement.commit key event).perform tables = (.ok a, tables')) :
    (∀ row ∈ key, ∀ other ∈ tables.keys, other.Apart row) ∧
      tables' = { tables with
        keys := tables.keys ++ key.toList
        events := tables.events ++ event.toList } := by
  rw [Statement.perform, Tables.commit] at h
  split_ifs at h with hc
  · cases h
  · rw [Bool.not_eq_true, Bool.or_eq_false_iff] at hc
    refine ⟨fun row hr other ho => ?_, (Prod.mk.inj h).2.symm⟩
    have hk := hc.1
    rw [Option.mem_def.1 hr, Option.any_some, Tables.keyClashes, List.any_eq_false] at hk
    exact eq_false_of_ne_true (hk other ho)

/-- A commit that fails changes no table. -/
theorem commit_error {tables : Tables} {key : Option SubjectKeyRow}
    {event : Option StoredAuditEvent} {e : String}
    (h : (Statement.commit key event).perform tables = (.error e, tables')) : tables' = tables := by
  rw [Statement.perform, Tables.commit] at h
  split_ifs at h
  · exact (Prod.mk.inj h).2.symm
  · cases h

@[simp] theorem recordOf_none {input : Option AppendAuditEventInput} {seen : List String} :
    recordOf input seen none = [] := by
  cases input <;> rfl

/-! ### The invariant -/

section

variable [AuditHost] {tenantId subject : String}

/-- A row that is, or was before its key was destroyed, a subject's. -/
def SubjectKeyRow.IsOf (tenantId subject : String) (row : SubjectKeyRow) : Prop :=
  row.subjectMarker = some (erasureSubjectMarker tenantId subject) ∧
    (row.subject = none ∨ row.subject = some subject)

/-- A row of a subject bears its marker. -/
def SubjectKeyRow.Marked (tenantId : String) (row : SubjectKeyRow) : Prop :=
  ∀ subject, row.subject = some subject → row.IsOf tenantId subject

/-- A row with an identifier is, or was, a subject's. -/
def Kept (tenantId : String) (keys : List SubjectKeyRow) (id subject : String) : Prop :=
  ∃ row ∈ keys, row.id = id ∧ row.IsOf tenantId subject

/-- A row is, or was, a subject's. -/
def Known (tenantId : String) (keys : List SubjectKeyRow) (subject : String) : Prop :=
  ∃ row ∈ keys, row.IsOf tenantId subject

/-- A stored event matches its hash, and one that names an account is sealed under a row of
that account, whose key was there when it was looked up. -/
structure Appended.Sound (tenantId : String) (keys : List SubjectKeyRow) (a : Appended) : Prop where
  hash : a.event.eventHash = storedAuditEventHash a.event
  key : ∀ subject, a.input.subject = some subject → a.event.sealedPayload.isSome ∧
    subject ∉ a.seen ∧ ∃ id, a.event.subjectKeyId = some id ∧ Kept tenantId keys id subject

/-- The invariant: rows bear markers and no index lets two of them in, and of a destroyed
subject there is a row without a key. -/
structure Vault.Sound (tenantId : String) (s : Vault) : Prop where
  marked : ∀ row ∈ s.tables.keys, row.Marked tenantId
  apart : s.tables.keys.Pairwise SubjectKeyRow.Apart
  destroyed : ∀ subject ∈ s.destroyed, ∃ row ∈ s.tables.keys,
    row.subjectMarker = some (erasureSubjectMarker tenantId subject) ∧ row.subject = none
  events : s.tables.events = s.appended.map (·.event)
  appended : ∀ a ∈ s.appended, a.Sound tenantId s.tables.keys

/-- Where a query may be made: an event is stored with the row its key is of, or with that
row in the table, and a key is destroyed where a row of the subject is known. -/
def Query.ok (tenantId : String) : Query → Vault → Prop
  | .statement input seen (.commit key event), s =>
    (∀ row ∈ key, row.Marked tenantId) ∧ (∀ subject ∈ seen, subject ∈ s.destroyed) ∧
      ∀ e ∈ event, e.eventHash = storedAuditEventHash e ∧ ∃ i, input = some i ∧
        ∀ subject, i.subject = some subject → e.sealedPayload.isSome ∧
          ∃ id, e.subjectKeyId = some id ∧
            (subject ∉ seen ∧ Kept tenantId s.tables.keys id subject ∨
              Kept tenantId key.toList id subject)
  | .statement _ _ _, _ => True
  | .call (.repository (.destroySubjectKey subject _)), s => Known tenantId s.tables.keys subject
  | .call _, _ => True

theorem SubjectKeyRow.Becomes.isOf {row row' : SubjectKeyRow} (h : row.Becomes row')
    (hr : row.IsOf tenantId subject) : row'.id = row.id ∧ row'.IsOf tenantId subject := by
  rcases h with rfl | ⟨at_, rfl⟩
  · exact ⟨rfl, hr⟩
  · exact ⟨rfl, hr.1, .inl rfl⟩

namespace Vault

variable {s s' : Vault}

theorem Evolves.kept {id : String} (h : s.Evolves s') (hk : Kept tenantId s.tables.keys id subject) :
    Kept tenantId s'.tables.keys id subject := by
  obtain ⟨row, hr, rfl, hof⟩ := hk
  obtain ⟨row', hr', hb⟩ := h.rows row hr
  exact ⟨row', hr', hb.isOf hof⟩

theorem Evolves.known (h : s.Evolves s') (hk : Known tenantId s.tables.keys subject) :
    Known tenantId s'.tables.keys subject := by
  obtain ⟨row, hr, hof⟩ := hk
  obtain ⟨row', hr', hb⟩ := h.rows row hr
  exact ⟨row', hr', (hb.isOf hof).2⟩

variable {marker : String}

/-- Two rows with one marker are one. -/
theorem Sound.eq_of_marker (h : s.Sound tenantId) {a b : SubjectKeyRow}
    (ha : a ∈ s.tables.keys) (hb : b ∈ s.tables.keys) (hm : a.subjectMarker = some marker)
    (hm' : b.subjectMarker = some marker) : a = b := by
  by_contra hne
  have hapa : a.Apart b := h.apart.forall ha hb hne
  exact (SubjectKeyRow.apart_iff.1 hapa).2.2 marker hm hm'

/-- **No key of a destroyed subject** is in the table. -/
theorem Sound.no_key (h : s.Sound tenantId) (hs : subject ∈ s.destroyed) {row : SubjectKeyRow}
    (hr : row ∈ s.tables.keys) : row.subject ≠ some subject := by
  intro hsub
  obtain ⟨tombstone, hmem, hm, hn⟩ := h.destroyed subject hs
  have hm' := (h.marked row hr subject hsub).1
  rw [h.eq_of_marker hr hmem hm' hm, hn] at hsub
  cases hsub

/-- A row that is or was a destroyed subject's has no key. -/
theorem Sound.material_none (h : s.Sound tenantId) (hs : subject ∈ s.destroyed)
    {row : SubjectKeyRow} (hr : row ∈ s.tables.keys) (hof : row.IsOf tenantId subject) :
    row.material = none := by
  have hn : row.subject = none := hof.2.resolve_right (h.no_key hs hr)
  unfold SubjectKeyRow.subject at hn
  unfold SubjectKeyRow.material
  split at hn
  · cases hn
  · rfl

/-- **An event sealed under a destroyed subject's key** opens on no page. -/
theorem Sound.unreadable (h : s.Sound tenantId) (hs : subject ∈ s.destroyed) {a : Appended}
    (ha : a ∈ s.appended) (hsub : a.input.subject = some subject)
    (rows : List StoredAuditEvent) :
    (auditEventFromRow a.event (s.tables.eventKeys rows)).readable = false := by
  obtain ⟨hsea, -, id, hid, row, hr, rfl, hof⟩ := (h.appended a ha).key subject hsub
  obtain ⟨payload, hp⟩ := Option.isSome_iff_exists.1 hsea
  have hl : (s.tables.eventKeys rows).lookup row.id = none := by
    rw [List.lookup_eq_none_iff]
    rintro ⟨id, material⟩ hmem
    obtain ⟨row', hmem', hk⟩ := List.mem_filterMap.1 hmem
    obtain ⟨material', hm, heq⟩ := Option.map_eq_some_iff.1 hk
    obtain ⟨rfl, -⟩ := Prod.mk.inj heq
    have hr' := (List.mem_filter.1 hmem').1
    by_contra hne
    have hi : row.id = row'.id := by simpa using hne
    have hsame : row = row' := by
      by_contra hd
      exact (SubjectKeyRow.apart_iff.1 (h.apart.forall hr hr' hd)).1 hi
    rw [← hsame, h.material_none hs hr hof] at hm
    cases hm
  unfold auditEventFromRow
  rw [hp, hid]
  simp [hl]

/-! ### What a query keeps -/

/-- **A commit** keeps the invariant. -/
theorem Sound.commit (h : s.Sound tenantId)
    {seen : List String} {key : Option SubjectKeyRow} {event : Option StoredAuditEvent} {a : PUnit}
    {tables : Tables} (hok : (Query.statement input seen (.commit key event)).ok tenantId s)
    (hc : (Statement.commit key event).perform s.tables = (.ok a, tables)) :
    Vault.Sound tenantId ⟨tables, s.destroyed, s.appended ++ recordOf input seen event⟩ := by
  obtain ⟨hkey, hseen, he⟩ := hok
  obtain ⟨hcle, rfl⟩ := commit_ok hc
  have hevo : s.Evolves ⟨{ s.tables with
      keys := s.tables.keys ++ key.toList, events := s.tables.events ++ event.toList },
      s.destroyed, s.appended ++ recordOf input seen event⟩ := evolves_append rfl
  refine ⟨fun row hrow => ?_, ?_, fun subject hs => ?_, ?_, fun a ha => ?_⟩
  · rcases List.mem_append.1 hrow with hrow | hrow
    · exact h.marked row hrow
    · exact hkey row (Option.mem_toList.1 hrow)
  · rw [List.pairwise_append]
    refine ⟨h.apart, ?_, fun other ho row hrow => ?_⟩
    · cases key <;> simp
    · exact hcle row (Option.mem_toList.1 hrow) other ho
  · obtain ⟨row, hrow, ht⟩ := h.destroyed subject hs
    exact ⟨row, List.mem_append_left _ hrow, ht⟩
  · cases event with
    | none => simp [h.events]
    | some event =>
      obtain ⟨-, input, rfl, -⟩ := he event rfl
      simp [recordOf, h.events]
  · rcases List.mem_append.1 ha with ha | ha
    · obtain ⟨hh, hkey⟩ := h.appended a ha
      refine ⟨hh, fun subject hsub => ?_⟩
      obtain ⟨hsea, hseen, id, hid, hk⟩ := hkey subject hsub
      exact ⟨hsea, hseen, id, hid, hevo.kept hk⟩
    · simp only [recordOf, List.mem_flatMap, List.mem_map, Option.mem_toList] at ha
      obtain ⟨input, rfl, event, rfl, rfl⟩ := ha
      obtain ⟨hh, i, hi, hsubjects⟩ := he event rfl
      obtain rfl : input = i := Option.some.inj hi
      refine ⟨hh, fun subject hsub => ?_⟩
      obtain ⟨hsea, id, hid, ⟨hu, hk⟩ | ⟨row, hrow, hr, hof⟩⟩ := hsubjects subject hsub
      · exact ⟨hsea, hu, id, hid, hevo.kept hk⟩
      · refine ⟨hsea, fun hmem => ?_, id, hid, row, List.mem_append_right _ hrow, hr, hof⟩
        -- the marker of a destroyed subject keeps the row out of the table
        obtain ⟨tombstone, ht, hm, -⟩ := h.destroyed subject (hseen subject hmem)
        have hapa := hcle row (Option.mem_toList.1 hrow) tombstone ht
        exact (SubjectKeyRow.apart_iff.1 hapa).2.2 _ hm hof.1

variable {now : ℤ}

/-- **The destruction of a key** keeps the invariant. -/
theorem Sound.destroy (h : s.Sound tenantId) (hk : Known tenantId s.tables.keys subject) :
    Vault.Sound tenantId ⟨(s.tables.destroySubjectKey subject now).2, subject :: s.destroyed,
        s.appended⟩ ∧
      s.Evolves ⟨(s.tables.destroySubjectKey subject now).2, subject :: s.destroyed, s.appended⟩ := by
  have hb : ∀ row : SubjectKeyRow, row.Becomes (if decide (row.subject = some subject) then
      { row with state := .destroyed now } else row) := by
    intro row
    split_ifs
    · exact .inr ⟨now, rfl⟩
    · exact .inl rfl
  have he : s.Evolves ⟨(s.tables.destroySubjectKey subject now).2, subject :: s.destroyed,
      s.appended⟩ :=
    ⟨fun row hr => ⟨_, Table.mem_update.2 ⟨row, hr, rfl⟩, hb row⟩,
      fun _ hs => List.mem_cons_of_mem _ hs, List.prefix_rfl⟩
  refine ⟨⟨fun row hr => ?_, ?_, fun gone hg => ?_, h.events, fun a ha => ?_⟩, he⟩
  · obtain ⟨old, hold, rfl⟩ := Table.mem_update.1 hr
    intro owner ho
    split_ifs at ho ⊢ with hsel
    · cases ho
    · exact h.marked old hold owner ho
  · show (List.map _ _).Pairwise _
    rw [List.pairwise_map]
    exact h.apart.imp fun hab => hab.becomes (hb _) (hb _)
  · have hold : ∃ old ∈ s.tables.keys, old.IsOf tenantId gone ∧
        (old.subject = none ∨ old.subject = some subject) := by
      rcases List.mem_cons.1 hg with rfl | hg
      · obtain ⟨old, hold, hof⟩ := hk
        exact ⟨old, hold, hof, hof.2⟩
      · obtain ⟨old, hold, hm, hn⟩ := h.destroyed gone hg
        exact ⟨old, hold, ⟨hm, .inl hn⟩, .inl hn⟩
    obtain ⟨old, hold, hof, hsub⟩ := hold
    refine ⟨_, Table.mem_update.2 ⟨old, hold, rfl⟩, ((hb old).isOf hof).2.1, ?_⟩
    rcases hsub with hn | hsome
    · rw [if_neg (by simp [hn])]
      exact hn
    · rw [if_pos (by simp [hsome])]
      rfl
  · obtain ⟨hh, hkey⟩ := h.appended a ha
    refine ⟨hh, fun owner ho => ?_⟩
    obtain ⟨hsea, hseen, id, hid, hkept⟩ := hkey owner ho
    exact ⟨hsea, hseen, id, hid, he.kept hkept⟩

variable {q : Query}

/-- **A query** keeps the invariant and is within the rely. -/
theorem Sound.perform (h : s.Sound tenantId) (hok : q.ok tenantId s) :
    (q.perform s).2.Sound tenantId ∧ s.Evolves (q.perform s).2 := by
  cases q with
  | statement input seen st =>
    have hq : (⟨s.tables, s.destroyed, s.appended ++ recordOf input seen none⟩ : Vault) = s := by
      rw [recordOf_none, List.append_nil]
    cases st with
    | commit key event =>
      rw [Query.perform]
      cases hc : (Statement.commit key event).perform s.tables with
      | mk reply tables =>
        cases reply with
        | ok a => exact ⟨h.commit hok hc, evolves_append (by rw [(commit_ok hc).2])⟩
        | error e =>
          rw [commit_error hc]
          exact ⟨h, .refl s⟩
    | _ =>
      rw [← hq] at h
      exact ⟨h, evolves_append (List.append_nil _).symm⟩
  | call c =>
    cases c with
    | repository c =>
      cases c with
      | destroySubjectKey subject now => exact h.destroy hok
      | _ => exact ⟨h, .refl s⟩
    | _ => exact ⟨h, .refl s⟩

/-- What the programs of a workspace agree on. -/
def discipline (tenantId : String) : Discipline Query (Prog.Reply Query.Answer) Vault where
  serve q s r s' := ∃ choice, q.serve s choice = (r, s')
  inv s := s.Sound tenantId
  rely s s' := s.Evolves s'
  ok q s := q.ok tenantId s
  refl := .refl
  trans h h' := h.trans h'
  keeps := by
    rintro q s r s' hinv hok ⟨choice, hserve⟩
    rcases serve_cases hserve with ⟨rfl | rfl, -⟩ | ⟨rfl, -⟩
    · exact ⟨hinv, .refl _⟩
    · exact hinv.perform hok
    · exact hinv.perform hok

variable {α : Type} {A : Vault → Prop} {Q : α × List String → Vault → Prop}
  {input : Option AppendAuditEventInput} {seen : List String}

theorem triple_query {st : Statement} {f : st.Answer → Transaction α}
    {B : st.Answer → List String → Vault → Prop} (hA : Stable (discipline tenantId) A)
    (hok : ∀ s : Vault, s.Sound tenantId → A s → (Query.statement input seen st).ok tenantId s)
    (hB : ∀ (s : Vault) a, s.Sound tenantId → A s → (st.perform s.tables).1 = .ok a →
      B a s.destroyed ((Query.statement input seen st).perform s).2)
    (hf : ∀ a gone, Triple (discipline tenantId) (B a gone)
      ((f a).within input (if st.looksUp then gone else seen)) Q) :
    Triple (discipline tenantId) A (Transaction.within input (query st >>= f) seen) Q := by
  rw [query, Prog.need_bind, Transaction.within]
  refine Triple.call (B := fun r s => ∀ a gone, r = .ok (a, gone) → B a gone s) hA hok ?_ ?_
  · rintro s r s' hi hs ⟨choice, hser⟩ a gone rfl
    rcases serve_cases hser with ⟨-, e, he⟩ | ⟨rfl, hr⟩
    · cases he
    · have hok := hr _ (perform_statement input seen st s)
      cases hst : (st.perform s.tables).1 with
      | error e =>
        rw [hst] at hok
        cases hok
      | ok b =>
        rw [hst] at hok
        obtain ⟨rfl, rfl⟩ := Prod.mk.inj (Except.ok.inj hok)
        exact hB s a hi hs hst
  · rintro (e | ⟨a, gone⟩)
    · exact Triple.fail
    · exact (hf a gone).mono (fun s hs => hs a gone rfl) fun _ _ h => h

/-- A key a transaction took for a subject: a row of the table, of a subject whose key was
there when it was looked up, or the row the transaction wrote. -/
def Backed (tenantId subject : String) (r : SubjectKeyMaterial × List String) (s : Vault) : Prop :=
  (∀ row ∈ r.1.written, row.Marked tenantId) ∧ (∀ gone ∈ r.2, gone ∈ s.destroyed) ∧
    (subject ∉ r.2 ∧ Kept tenantId s.tables.keys r.1.id subject ∨
      Kept tenantId r.1.written.toList r.1.id subject)

theorem stable_backed {r : SubjectKeyMaterial × List String} :
    Stable (discipline tenantId) (Backed tenantId subject r) := by
  rintro s s' hr ⟨hw, hs, hk⟩
  refine ⟨hw, fun gone hg => hr.destroyed gone (hs gone hg), ?_⟩
  exact hk.imp (fun h => ⟨h.1, hr.kept h.2⟩) id

/-- A row a look-up finds backs a key. -/
theorem backed_of_getSubjectKey (h : s.Sound tenantId) {written : Option SubjectKeyRow}
    (hw : ∀ row ∈ written, row.Marked tenantId) {row : SubjectKeyRow}
    (hr : s.tables.getSubjectKey written subject = some row) (material : SubjectKey) :
    Backed tenantId subject (⟨row.id, material, written⟩, s.destroyed) s := by
  have hs : row.subject = some subject := by simpa using List.find?_some hr
  refine ⟨hw, fun _ h => h, ?_⟩
  rcases List.mem_append.1 (List.mem_of_find?_eq_some hr) with hm | hm
  · exact .inr ⟨row, hm, rfl, hw row (Option.mem_toList.1 hm) subject hs⟩
  · refine .inl ⟨fun hg => h.no_key hg hm hs, row, hm, rfl, ?_⟩
    exact h.marked row hm subject hs

/-- **`subjectKeyIn`** takes a key that is backed, or fails. -/
theorem triple_subjectKeyIn {draws : EventDraws} :
    Triple (discipline tenantId) (fun _ => True)
      (Transaction.within input (subjectKeyIn tenantId subject now draws) seen)
      (Backed tenantId subject) := by
  unfold subjectKeyIn
  refine triple_query (B := fun found gone s => ∀ row, found = some row → ∀ material,
    Backed tenantId subject (⟨row.id, material, none⟩, gone) s) Discipline.stable_true
    (fun _ _ _ => trivial) ?_ fun found gone => ?_
  · rintro s found hi - hf row rfl material
    exact backed_of_getSubjectKey hi (by simp) (Except.ok.inj hf) material
  split
  · exact Triple.pure fun s h => h _ rfl _
  refine Triple.mono (A := fun _ => True) ?_ (fun _ _ => trivial) fun _ _ h => h
  refine triple_query (B := fun _ _ _ => True) Discipline.stable_true (fun _ _ _ => trivial)
    (fun _ _ _ _ _ => trivial) fun tombstone _ => ?_
  split
  · exact Triple.fail
  -- the row of a new key, in the transaction that inserts it
  set row : SubjectKeyRow := ⟨draws.keyId, some (erasureSubjectMarker tenantId subject), now,
    .active subject draws.key⟩ with hr
  have hm : row.Marked tenantId := by
    intro owner ho
    obtain rfl : subject = owner := by simpa [SubjectKeyRow.subject, hr] using ho
    exact ⟨rfl, .inr rfl⟩
  refine triple_query (B := fun _ _ _ => True) Discipline.stable_true (fun _ _ _ => trivial)
    (fun _ _ _ _ _ => trivial) fun inserted _ => ?_
  have hw : ∀ other ∈ (bif inserted then some row else none), other.Marked tenantId := by
    cases inserted <;> simp [hm]
  refine triple_query (B := fun found gone s => ∀ other, found = some other → ∀ material,
    Backed tenantId subject (⟨other.id, material, bif inserted then some row else none⟩, gone) s)
    Discipline.stable_true (fun _ _ _ => trivial) ?_ fun found gone => ?_
  · rintro s found hi - hf other rfl material
    exact backed_of_getSubjectKey hi hw (Except.ok.inj hf) material
  split
  · exact Triple.pure fun s h => h _ rfl _
  · exact Triple.fail

/-- The key an append has for its event. -/
def KeyFor (tenantId : String) (input : AppendAuditEventInput)
    (r : Option SubjectKeyMaterial × List String) (s : Vault) : Prop :=
  r = (none, []) ∧ input.subject = none ∨ ∃ subject key, input.subject = some subject ∧
    r.1 = some key ∧ Backed tenantId subject (key, r.2) s

theorem stable_keyFor {r : Option SubjectKeyMaterial × List String} :
    Stable (discipline tenantId) (KeyFor tenantId i r) := by
  rintro s s' hr (h | ⟨subject, key, hs, hk, hb⟩)
  · exact .inl h
  · exact .inr ⟨subject, key, hs, hk, stable_backed s s' hr hb⟩

/-- The account an append names has a row behind it. -/
def Named (tenantId : String) (i : AppendAuditEventInput) (s : Vault) : Prop :=
  ∀ subject, i.subject = some subject → Known tenantId s.tables.keys subject

variable {i : AppendAuditEventInput} {draws : EventDraws}

/-- An append commits where it may. -/
theorem KeyFor.ok {key : Option SubjectKeyMaterial} (h : KeyFor tenantId i (key, seen) s)
    (previous : Option StoredAuditEvent) :
    (Query.statement (some i) seen (.commit (key.bind (·.written))
      (some (i.stored draws previous key)))).ok tenantId s := by
  rcases h with ⟨hn, hsub⟩ | ⟨subject, key, hsub, rfl, hw, hs, hk⟩
  · obtain ⟨rfl, rfl⟩ := Prod.mk.inj hn
    refine ⟨by simp, by simp, ?_⟩
    rintro e ⟨⟩
    refine ⟨rfl, i, rfl, fun subject h => ?_⟩
    rw [hsub] at h
    cases h
  · refine ⟨hw, hs, ?_⟩
    rintro e ⟨⟩
    refine ⟨rfl, i, rfl, fun owner ho => ⟨rfl, key.id, rfl, ?_⟩⟩
    rw [hsub] at ho
    rw [← Option.some.inj ho]
    exact hk

/-- Behind the commit the account has a row. -/
theorem KeyFor.named {key : Option SubjectKeyMaterial} (h : KeyFor tenantId i (key, seen) s)
    (hk : s'.tables.keys = s.tables.keys ++ (key.bind (·.written)).toList) :
    Named tenantId i s' := by
  intro owner ho
  rcases h with ⟨-, hs⟩ | ⟨subject, key, hs, rfl, -, -, hkept⟩
  · rw [hs] at ho
    cases ho
  · rw [hs] at ho
    rw [← Option.some.inj ho]
    rcases hkept with ⟨-, row, hr, -, hof⟩ | ⟨row, hr, -, hof⟩
    · exact ⟨row, by rw [hk]; exact List.mem_append_left _ hr, hof⟩
    · exact ⟨row, by rw [hk]; exact List.mem_append_right _ hr, hof⟩

/-- **An append** is safe, and where it succeeds the account it names has a row. -/
theorem triple_append (i : AppendAuditEventInput) (draws : EventDraws) (hi : i.tenantId = tenantId) :
    Triple (discipline tenantId) (fun _ => True) (appendWork i draws) fun _ => Named tenantId i := by
  refine Triple.bind (B := fun _ => Named tenantId i) ?_ fun stored => Triple.pure fun _ h => h
  unfold appendAuditEvent
  refine triple_query (B := fun _ _ _ => True) Discipline.stable_true (fun _ _ _ => trivial)
    (fun _ _ _ _ _ => trivial) fun _ _ => ?_
  refine triple_query (B := fun _ _ _ => True) Discipline.stable_true (fun _ _ _ => trivial)
    (fun _ _ _ _ _ => trivial) fun previous _ => ?_
  rw [Transaction.within_bind]
  refine Triple.bind (B := KeyFor tenantId i) ?_ fun r => ?_
  · unfold eventKey
    cases hsub : i.subject with
    | none => exact Triple.pure fun _ _ => .inl ⟨rfl, hsub⟩
    | some subject =>
      dsimp only
      rw [Transaction.within_bind, hi]
      refine Triple.bind triple_subjectKeyIn fun r => Triple.pure fun s hs => ?_
      exact .inr ⟨subject, r.1, hsub, rfl, hs⟩
  · obtain ⟨key, seen⟩ := r
    refine triple_query (B := fun _ _ => Named tenantId i) stable_keyFor
      (fun s _ h => h.ok previous) ?_ fun _ _ => Triple.pure fun _ h => h
    intro s a hinv h hc
    refine h.named ?_
    cases hp : (Statement.commit (key.bind (·.written))
        (some (i.stored draws previous key))).perform s.tables with
    | mk reply tables =>
      rw [hp] at hc
      obtain rfl : reply = .ok a := hc
      rw [Query.perform, hp, (commit_ok hp).2]

/-! ### The programs of the services -/

variable {c : Call}

theorem all_parts (tenantId : String) (h : c.isQuiet = true) :
    All (fun q => ∀ s : Vault, q.ok tenantId s) c.parts := by
  have hn : ∀ c : Call, (∀ s : Vault, (Query.call c).ok tenantId s) →
      All (fun q => ∀ s : Vault, q.ok tenantId s) (Prog.need (C := Query) (A := Query.Answer) (.call c)) := by
    refine fun c hc => ⟨hc, ?_⟩
    rintro (e | a) <;> trivial
  cases c with
  | repository c =>
    cases c with
    | appendAuditEvent input draws => cases h
    | destroySubjectKey subject now => cases h
    | _ => exact hn _ fun _ => trivial
  | _ => exact hn _ fun _ => trivial

variable {β : Type} {F : Vault → Prop} {P : β → Vault → Prop}

/-- Quiet calls may be made anywhere and keep what the others keep. -/
theorem triple_quiet {p : Service β} (h : All (fun c => c.isQuiet = true) p)
    (hF : Stable (discipline tenantId) F) :
    Triple (discipline tenantId) F (p.expand Call.parts) fun _ => F :=
  Triple.keep_of_all (Prog.all_expand (fun _ hc => all_parts tenantId hc) h)
    (fun _ hok s _ => hok s) hF

variable {f : c.Answer → Service β}

theorem triple_call {B : c.Answer → Vault → Prop} (hc : Triple (discipline tenantId) A c.parts B)
    (hf : ∀ a, Triple (discipline tenantId) (B a) ((f a).expand Call.parts) P) :
    Triple (discipline tenantId) A ((call c >>= f).expand Call.parts) P := by
  rw [call, Prog.expand_need_bind]
  exact hc.bind hf

theorem triple_quietCall (h : c.isQuiet = true) (hF : Stable (discipline tenantId) F)
    (hf : ∀ a, Triple (discipline tenantId) F ((f a).expand Call.parts) P) :
    Triple (discipline tenantId) F ((call c >>= f).expand Call.parts) P := by
  rw [Prog.expand_bind]
  exact (triple_quiet (all_call h) hF).bind hf

/-- The rule of a single query. -/
theorem triple_need {B : q.Answer → Vault → Prop} (hA : Stable (discipline tenantId) A)
    (hok : ∀ s : Vault, s.Sound tenantId → A s → q.ok tenantId s)
    (hB : ∀ (s : Vault) a, s.Sound tenantId → A s →
      (∀ reply, (q.perform s).1 = some reply → .ok a = reply) → B a (q.perform s).2) :
    Triple (discipline tenantId) A (Prog.need (A := Query.Answer) q) B := by
  refine Triple.call (B := fun r s => ∀ a, r = .ok a → B a s) hA hok ?_ ?_
  · rintro s r s' hi hs ⟨choice, hser⟩ a rfl
    rcases serve_cases hser with ⟨-, e, he⟩ | ⟨rfl, hr⟩
    · cases he
    · exact hB s a hi hs hr
  · rintro (e | a)
    · exact Triple.fail
    · exact Triple.pure fun s hs => hs a rfl

theorem stable_known : Stable (discipline tenantId) fun s => Known tenantId s.tables.keys subject :=
  fun _ _ hr h => hr.known h

/-- **`#subjectKey`** finds a destroyed key in a row of the subject alone. -/
theorem triple_subjectKeyOf : Triple (discipline tenantId) (fun _ => True)
    ((subjectKeyOf subject (erasureSubjectMarker tenantId subject)).expand Call.parts)
    fun key s => keyGone key = true → Known tenantId s.tables.keys subject := by
  unfold subjectKeyOf
  refine triple_call (B := fun found s => found.isSome = true → Known tenantId s.tables.keys subject)
    (triple_need Discipline.stable_true (fun _ _ _ => trivial) ?_) fun found => ?_
  · rintro s found hi - hr hs
    obtain ⟨row, rfl⟩ := Option.isSome_iff_exists.1 hs
    have hrow : some row = s.tables.getSubjectKey none subject := Except.ok.inj (hr _ rfl)
    have hsub : row.subject = some subject := by simpa using List.find?_some hrow.symm
    have hmem : row ∈ s.tables.keys := List.mem_of_find?_eq_some hrow.symm
    exact ⟨row, hmem, hi.marked row hmem subject hsub⟩
  · cases found with
    | some active => exact Triple.pure fun _ h _ => h rfl
    | none =>
      refine Triple.mono (A := fun _ => True) ?_ (fun _ _ => trivial) fun _ _ h => h
      dsimp only
      rw [call, Prog.expand_need]
      refine triple_need Discipline.stable_true (fun _ _ _ => trivial) ?_
      rintro s found hi - hr hg
      have hf : found = s.tables.getSubjectKeyByMarker (erasureSubjectMarker tenantId subject) :=
        Except.ok.inj (hr _ rfl)
      obtain ⟨row, hrow, hd⟩ := Option.any_eq_true .. |>.1 hg
      rw [hrow] at hf
      have hm : row.subjectMarker = some (erasureSubjectMarker tenantId subject) := by
        simpa using List.find?_some hf.symm
      refine ⟨row, List.mem_of_find?_eq_some hf.symm, hm, .inl ?_⟩
      exact SubjectKeyRow.subject_none hd

variable {request : ErasureRequest} {draws : ErasureDraws}

/-- What an erasure tells before the key is gone names its subject. -/
theorem erasureEvent_subject (ht : trim subject = subject) (he : subject ≠ "")
    {action : String} {occurredAt : ℤ} {metadata : List (String × Json)} :
    (erasureEvent request subject action occurredAt metadata false).subject = some subject := by
  simp [AppendAuditEventInput.subject, erasureEvent, ht, he]

theorem stable_keyKnown (subject : String) (key : Option SubjectKeyRow) : Stable (discipline tenantId)
    fun s => keyGone key = true → Known tenantId s.tables.keys subject :=
  fun _ _ hr h hg => hr.known (h hg)

theorem triple_keyAfter (ht : request.tenantId = tenantId) {keyBefore : Option SubjectKeyRow} :
    Triple (discipline tenantId) (fun s => Known tenantId s.tables.keys subject)
      ((keyAfter request subject marker draws keyBefore).expand Call.parts) fun _ _ => True := by
  unfold keyAfter
  split_ifs
  · unfold destroyKey
    refine triple_call (B := fun _ _ => True) (triple_need stable_known (fun _ _ h => h)
      fun _ _ _ _ _ => trivial) fun destroyed => ?_
    cases destroyed with
    | none => exact triple_quiet (all_call rfl) Discipline.stable_true
    | some row =>
      exact triple_call ((triple_append _ _ ht).mono (fun _ h => h) fun _ _ _ => trivial)
        fun _ => Triple.pure fun _ h => h
  · exact Triple.pure fun _ _ => trivial

/-- **An erasure** destroys the key of a subject a row of which it knows. -/
theorem triple_applyErasure (ht : request.tenantId = tenantId) (htrim : trim subject = subject)
    (he : subject ≠ "") : Triple (discipline tenantId) (fun _ => True)
      ((applyErasure request subject draws).expand Call.parts) fun _ _ => True := by
  unfold applyErasure
  rw [ht, Prog.expand_bind]
  refine Triple.bind triple_subjectKeyOf fun keyBefore => ?_
  refine triple_call (B := fun _ s => Known tenantId s.tables.keys subject) ?_ fun _ => ?_
  · have ha := (triple_append (erasureEvent request subject "audit.erasure.started" draws.startedAt
      [("classes", .num (.ofNat request.classes.length)), ("destroyKey", .bool request.destroyKey)]
      (keyGone keyBefore)) draws.started ht).frame (stable_keyKnown subject keyBefore)
    refine ha.mono (fun s h => ⟨trivial, h⟩) fun event s h => ?_
    cases hg : keyGone keyBefore with
    | true => exact h.2 hg
    | false =>
      rw [hg] at h
      exact h.1 subject (erasureEvent_subject htrim he)
  rw [Prog.expand_bind]
  refine Triple.bind (triple_quiet (all_eraseAll rfl fun _ _ => rfl) stable_known) fun outcomes => ?_
  refine triple_quietCall rfl stable_known fun _ => ?_
  rw [Prog.expand_bind]
  refine Triple.bind (B := fun _ _ => True) (triple_keyAfter ht) fun key => ?_
  refine triple_quietCall rfl Discipline.stable_true fun anchor => ?_
  refine triple_quietCall rfl Discipline.stable_true fun path => ?_
  exact triple_call ((triple_append _ _ ht).mono (fun _ h => h) fun _ _ _ => trivial)
    fun _ => Triple.pure fun _ h => h

/-- **An erasure run** is safe. -/
theorem triple_run (request : ErasureRequest) (draws : ErasureDraws)
    (ht : request.tenantId = tenantId) :
    Triple (discipline tenantId) (fun _ => True) ((run request draws).expand Call.parts)
      fun _ _ => True := by
  unfold run
  cases hs : bounded request.subject "subject" 1 64 with
  | error e => exact Triple.fail
  | ok subject =>
    obtain ⟨htrim, he⟩ := bounded_ok hs
    show Triple _ _ (Prog.expand _ (forSubject subject >>= runChecked request subject draws)) _
    rw [forSubject, Prog.bind_assoc]
    refine triple_quietCall rfl Discipline.stable_true fun active => ?_
    show Triple _ _ (Prog.expand _ (runChecked request subject draws _)) _
    unfold runChecked
    split_ifs
    · exact Triple.fail
    unfold runUnheld
    split_ifs
    · rw [Prog.expand_bind, ht]
      refine Triple.bind (triple_quiet (all_plan rfl fun _ => rfl) Discipline.stable_true)
        fun planned => ?_
      rw [Prog.expand_bind]
      exact Triple.bind triple_subjectKeyOf fun key => Triple.pure fun _ _ => trivial
    · cases request.directory with
      | error e => exact Triple.fail
      | ok directory => exact triple_applyErasure ht htrim (he Nat.one_pos)

/-- **What answers a request** is safe. -/
theorem safe_program (r : KeyRequest) :
    (discipline tenantId).Safe (fun _ _ => True) (r.program tenantId) s := by
  have ht : Triple (discipline tenantId) (fun _ => True) (r.program tenantId) fun _ _ => True := by
    cases r with
    | append input draws =>
      exact Triple.bind (triple_append _ _ rfl) fun _ => Triple.pure fun _ _ => trivial
    | subjectKey subject now draws =>
      refine Triple.bind (B := fun _ _ => True) ?_ fun _ => Triple.pure fun _ _ => trivial
      unfold subjectKey
      rw [Transaction.within_bind]
      refine Triple.bind triple_subjectKeyIn fun r => ?_
      refine triple_query (B := fun _ _ _ => True) stable_backed (fun s _ h => ?_)
        (fun _ _ _ _ _ => trivial) fun _ _ => Triple.pure fun _ _ => trivial
      exact ⟨h.1, h.2.1, by simp⟩
    | erase request draws =>
      rw [KeyRequest.program]
      have hr := @triple_run _ tenantId { request with tenantId := tenantId } draws rfl
      generalize (run { request with tenantId := tenantId } draws).expand Call.parts = p at hr ⊢
      exact Triple.bind hr fun _ => Triple.pure fun _ _ => trivial
  exact (ht s trivial).mono fun _ _ _ => trivial

end Vault

/-- A workspace without key rows and events. -/
def emptyVault (holds : List AuditLegalHold) : Vault :=
  ⟨⟨holds, [], []⟩, [], []⟩

/-- **An erased subject stays erased**: behind the destruction of its key no row has one for
it, no event is stored whose look-up of the key came later, no event that names it opens,
and every stored event matches its hash. -/
theorem erased_stays_erased {tenantId : String} {cond : Machine.Condition Vault (Work PUnit)}
    {holds : List AuditLegalHold} {crew crew' : Crew Vault (Work PUnit)}
    (hcrew : Crew.Reachable (erasing tenantId) cond (emptyVault holds) crew)
    (hcrew' : Relation.ReflTransGen (Crew.Step (erasing tenantId) cond) crew crew')
    {subject : String} (hsubject : subject ∈ crew.shared.destroyed) :
    (∀ row ∈ crew'.shared.tables.keys, row.subject ≠ some subject) ∧
      (∀ a ∈ crew'.shared.appended, a.input.subject = some subject →
        subject ∉ a.seen ∧ ∀ rows, a.event ∈ rows →
          (auditEventFromRow a.event (crew'.shared.tables.eventKeys rows)).readable = false) ∧
      crew'.shared.tables.events = crew'.shared.appended.map (·.event) ∧
      ∀ event ∈ crew'.shared.tables.events, event.eventHash = storedAuditEventHash event := by
  have hser : ∀ q s choice, (Vault.discipline tenantId).serve q s (q.serve s choice).1
      (q.serve s choice).2 := fun q s choice => ⟨choice, rfl⟩
  have hemp : (emptyVault holds).Sound tenantId :=
    ⟨by simp [emptyVault], .nil, by simp [emptyVault], rfl, by simp [emptyVault]⟩
  have hs := Prog.safe_of_reachable hser (fun r _ _ => Vault.safe_program r) hemp hcrew
  obtain ⟨⟨hsou, -⟩, hevo⟩ :=
    Prog.safe_of_steps hser (fun r _ _ => Vault.safe_program r) hs hcrew'
  have hg : subject ∈ crew'.shared.destroyed := hevo.destroyed subject hsubject
  refine ⟨fun row hr => hsou.no_key hg hr, fun a ha hn => ⟨?_, fun rows _ => ?_⟩,
    hsou.events, fun event heve => ?_⟩
  · exact ((hsou.appended a ha).key subject hn).2.1
  · exact hsou.unreadable hg ha hn rows
  · have he : crew'.shared.tables.events = crew'.shared.appended.map (·.event) := hsou.events
    rw [he] at heve
    obtain ⟨a, ha, rfl⟩ := List.mem_map.1 heve
    exact (hsou.appended a ha).hash

end

/-! ### Sample runs -/

/-- A host whose cipher puts the context before the text, and on which every sealed text is
that of the sample event. -/
@[reducible] def clearHost : AuditHost where
  localeCompare := compare
  sha256 := id
  sealText := fun _ _ context text => context ++ text
  openText := fun _ context payload =>
    some (String.ofList (payload.toList.drop context.toList.length))
  parse := fun _ => some (.obj
    [("actorId", .str "operator"), ("subjectId", .str "profile"), ("metadata", .obj [])])
  toISOString := toString

/-- Every query is answered: no hold is active, and no claim is lost. -/
def vaultChoice : Choice where
  fails := none
  answer
    | .repository (.listActiveHolds _) => some []
    | .checkpoint => some ⟨⟩
    | _ => none

/-- An event about an account. -/
def sampleAppend : KeyRequest :=
  .append
    { tenantId := "t", actorId := "operator", action := "audit.viewed", subjectType := "account",
      subjectId := "profile", metadata := [], occurredAt := 5, subjectAccountId := some "ada" }
    ⟨"e9", "k9", Vector.replicate 32 9, "iv"⟩

/-- An erasure of the account without data classes. -/
def sampleErase : KeyRequest :=
  .erase
    { tenantId := "t", subject := "ada", slug := none, name := none, operator := "operator",
      directory := .ok "/erasures", apply := true, destroyKey := true, classes := [] }
    { startedAt := 1, destroyedAt := 2, keyEventAt := 3, completedAt := 4,
      started := ⟨"e1", "k1", Vector.replicate 32 1, "iv"⟩,
      keyDestroyed := ⟨"e2", "k2", Vector.replicate 32 2, "iv"⟩,
      completed := ⟨"e3", "k3", Vector.replicate 32 3, "iv"⟩ }

/-- Moves of the process at a position. -/
def vaultMoves (i n : ℕ) : List (Crew.Turn KeyRequest Choice) :=
  List.replicate n (.move i vaultChoice)

/-- An erasure up to the destruction of the key, with an append that looked the key up just
before it. -/
def destroyTurns : List (Crew.Turn KeyRequest Choice) :=
  .start sampleErase :: vaultMoves 0 11 ++ .start sampleAppend :: vaultMoves 0 3 ++ vaultMoves 1 1

/-- **An append under way** stores its event behind the destruction of the key. -/
theorem append_behind_destroy : let _ : AuditHost := clearHost
    ∃ crew crew', Crew.Reachable (erasing "t") (fun _ _ _ => True) (emptyVault []) crew ∧
      Relation.ReflTransGen (Crew.Step (erasing "t") fun _ _ _ => True) crew crew' ∧
      "ada" ∈ crew.shared.destroyed ∧
      ∃ a ∈ crew'.shared.appended, a.input.subject = some "ada" ∧
        a.event ∉ crew.shared.tables.events := by
  intro host
  have hp : ((Crew.play (erasing "t") (fun _ _ _ => True) ⟨emptyVault [], []⟩ destroyTurns).bind
      fun crew => (Crew.play (erasing "t") (fun _ _ _ => True) crew (vaultMoves 0 1)).map
        fun crew' => decide ("ada" ∈ crew.shared.destroyed) && crew'.shared.appended.any
          fun a => decide (a.input.subject = some "ada" ∧ a.event ∉ crew.shared.tables.events)) =
        some true := by decide +kernel
  obtain ⟨crew, hc, hr⟩ := Option.bind_eq_some_iff.1 hp
  obtain ⟨crew', hc', hf⟩ := Option.map_eq_some_iff.1 hr
  obtain ⟨hd, hs⟩ := Bool.and_eq_true_iff.1 hf
  obtain ⟨a, ha, hn⟩ := List.any_eq_true.1 hs
  exact ⟨crew, crew', Crew.reachable_of_play hc, Crew.steps_of_play hc',
    of_decide_eq_true hd, a, ha, of_decide_eq_true hn⟩

/-- The events of that run: readable before the destruction, and not behind it. -/
theorem erased_stays_erased_ada : let _ : AuditHost := clearHost
    ∃ crew : Crew Vault (Work PUnit), crew.shared.appended.length = 2 ∧
      (∀ a ∈ crew.shared.appended, a.input.subject = some "ada" ∧
        (auditEventFromRow a.event [("k1", Vector.replicate 32 1)]).readable = true) ∧
      (∀ row ∈ crew.shared.tables.keys, row.subject ≠ some "ada") ∧
      ∀ a ∈ crew.shared.appended, (auditEventFromRow a.event
        (crew.shared.tables.eventKeys crew.shared.tables.events)).readable = false := by
  intro host
  have hp : ((Crew.play (erasing "t") (fun _ _ _ => True) ⟨emptyVault [], []⟩ destroyTurns).bind
      fun crew => (Crew.play (erasing "t") (fun _ _ _ => True) crew (vaultMoves 0 1)).map
        fun crew' => decide ("ada" ∈ crew.shared.destroyed) &&
          decide (crew'.shared.appended.length = 2) && crew'.shared.appended.all
            fun a => decide (a.input.subject = some "ada" ∧
              (auditEventFromRow a.event [("k1", Vector.replicate 32 1)]).readable = true)) =
        some true := by decide +kernel
  obtain ⟨crew, hc, hr⟩ := Option.bind_eq_some_iff.1 hp
  obtain ⟨crew', hc', hf⟩ := Option.map_eq_some_iff.1 hr
  obtain ⟨hf, hall⟩ := Bool.and_eq_true_iff.1 hf
  obtain ⟨hd, hl⟩ := Bool.and_eq_true_iff.1 hf
  obtain ⟨hk, happ, he, -⟩ := erased_stays_erased (Crew.reachable_of_play hc)
    (Crew.steps_of_play hc') (of_decide_eq_true hd)
  have hn : ∀ a ∈ crew'.shared.appended, a.input.subject = some "ada" ∧
      (auditEventFromRow a.event [("k1", Vector.replicate 32 1)]).readable = true :=
    fun a ha => of_decide_eq_true (List.all_eq_true.1 hall a ha)
  refine ⟨crew', of_decide_eq_true hl, hn, hk, fun a ha => ?_⟩
  refine (happ a ha (hn a ha).1).2 _ ?_
  rw [he]
  exact List.mem_map.2 ⟨a, ha, rfl⟩

end Flowdular.Audit
