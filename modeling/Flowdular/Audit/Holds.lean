/-
# Placing and lifting a legal hold

`src/modules/audit/src/services/hold-service.ts`, lines 17-23 (`HOLD_LIMITS`), 97-170
(`place`, `lift`), 172-273 (`forClass`, `forSubject`, `#scope`, `#event`) and 289-295
(`timestamp`); `retention-service.ts`, lines 177-191 (`classIdentifier`).

The row of a hold and the audit event about it are two transactions, and the second may
be refused: an account whose key was destroyed gets no event.  The program runs on the
tables with nobody else about and one repository call at most that fails, before or
after it took effect (`Fault`).
-/

import Flowdular.Audit.Repository

namespace Flowdular.Audit

open Lib Workflows

variable [AuditHost]

/-! ### The service -/

namespace HOLD_LIMITS

def active : ℕ := 500

def reason : ℕ := 400

def accountId : ℕ := 64

end HOLD_LIMITS

structure PlaceHoldInput where
  scopeKind : String
  accountId : Option String := none
  classId : Option String := none
  fromAt : Option Decimal := none
  toAt : Option Decimal := none
  reason : Option String

structure LiftHoldInput where
  id : Option String
  reason : Option String

/-- What a call draws: the time of the row, an identifier for it, and what the event
draws, the time first. -/
structure HoldDraws where
  now : ℤ
  id : String
  eventAt : ℤ
  event : EventDraws

/-- A program of repository calls. -/
abbrev ServiceCall (α : Type) :=
  Prog RepositoryCall (Prog.Reply RepositoryCall.Answer) α

/-- A call of the repository. -/
def repository (c : RepositoryCall) : ServiceCall c.Answer :=
  Prog.need c

def HOLD_SCOPE_KINDS : List HoldScopeKind :=
  [.account, .workspace, .dataClass, .dateRange]

/-- `oneOf`, of the scope kinds. -/
def scopeKindOf (value : String) : Except String HoldScopeKind :=
  match HOLD_SCOPE_KINDS.find? (·.text = value) with
  | some kind => .ok kind
  | none =>
    let allowed := String.intercalate ", " (HOLD_SCOPE_KINDS.map (·.text))
    .error (auditServiceError "INVALID_INPUT" s!"scopeKind must be one of: {allowed}." 400)

def classIdentifier (value : String) : Except String String :=
  if 96 < utf16Length value ∨ ¬ isIdentifier value then
    .error (auditServiceError "INVALID_INPUT"
      "classId must be a module id followed by a class key." 400)
  else .ok value

def timestamp (value : Option Decimal) (field : String) : Except String (Option ℤ) :=
  match value with
  | none => .ok none
  | some value => some <$> boundedInteger value field 0 8640000000000000

/-- A text that is there and not empty, checked. -/
def present (check : String → Except String String) : Option String → Except String (Option String)
  | none => .ok none
  | some value => if value = "" then .ok none else some <$> check value

/-- `HOLD_SCOPE_INVALID`. -/
def scopeInvalid (message : String) : Except String HoldScope :=
  .error (auditServiceError "HOLD_SCOPE_INVALID" message 400)

/-- `#scope`. -/
def scopeOf (scopeKind : HoldScopeKind) (input : PlaceHoldInput) : Except String HoldScope := do
  let accountId ← present (bounded · "accountId" 1 HOLD_LIMITS.accountId) input.accountId
  let classId ← present classIdentifier input.classId
  let fromAt ← timestamp input.fromAt "fromAt"
  let toAt ← timestamp input.toAt "toAt"
  if hkind : scopeKind = .workspace then
    if h : accountId = none ∧ classId = none ∧ fromAt = none ∧ toAt = none then
      return {
        kind := scopeKind, accountId := accountId, classId := classId, fromAt := fromAt,
        toAt := toAt, account := by simp [hkind], dataClass := by simp [hkind],
        dateRange := by simp [hkind], workspace := fun _ => h, ordered := by simp [h] }
    else
      scopeInvalid "A workspace hold covers everything and takes no account, class or date range."
  else if ha : scopeKind = .account ∧ accountId = none then
    scopeInvalid "An account hold needs the account it covers."
  else if hc : scopeKind = .dataClass ∧ classId = none then
    scopeInvalid "A data class hold needs the class it covers."
  else if hd : scopeKind = .dateRange ∧ (fromAt = none ∨ toAt = none) then
    scopeInvalid "A date range hold needs both ends of the range."
  else if ho : ∃ a ∈ fromAt, ∃ b ∈ toAt, b < a then
    scopeInvalid "The end of the range is before its start."
  else
    return {
      kind := scopeKind, accountId := accountId, classId := classId, fromAt := fromAt,
      toAt := toAt, account := fun h hn => ha ⟨h, hn⟩, dataClass := fun h hn => hc ⟨h, hn⟩,
      dateRange := fun h => not_or.1 fun hn => hd ⟨h, hn⟩, workspace := fun h => absurd h hkind,
      ordered := fun a hfrom b hto => not_lt.1 fun h => ho ⟨a, hfrom, b, hto, h⟩ }

/-- What `#event` appends: sealed under the key of the person the hold names and of the
operator otherwise. -/
def holdEvent (hold : AuditLegalHold) (action actorId : String) (metadata : List (String × Json))
    (occurredAt : ℤ) : AppendAuditEventInput where
  tenantId := hold.tenantId
  actorId := actorId
  action := action
  subjectType := "legal-hold"
  subjectId := hold.id
  metadata := metadata
  occurredAt := occurredAt
  subjectAccountId := some (hold.scope.accountId.getD actorId)

/-- The scope of a hold, as an event tells it. -/
def HoldScope.metadata (scope : HoldScope) : List (String × Json) :=
  [("scopeKind", .str scope.kind.text), ("accountId", nullable scope.accountId),
    ("classId", nullable scope.classId)]

/-- The event of a hold that was placed. -/
def placedEvent (hold : AuditLegalHold) (actorId : String) (occurredAt : ℤ) :
    AppendAuditEventInput :=
  let whole (value : Option ℤ) : Json := value.elim .null fun n => .num (.ofInt n)
  holdEvent hold "audit.hold.placed" actorId
    (hold.scope.metadata ++ [("fromAt", whole hold.scope.fromAt), ("toAt", whole hold.scope.toAt),
      ("reason", .str hold.reason)]) occurredAt

/-- The event of a hold that was lifted. -/
def liftedEvent (hold : AuditLegalHold) (actorId reason : String) (occurredAt : ℤ) :
    AppendAuditEventInput :=
  holdEvent hold "audit.hold.lifted" actorId (hold.scope.metadata ++ [("reason", .str reason)])
    occurredAt

/-- The row `place` inserts, if the input passes its checks. -/
def holdOf (tenantId actorId : String) (input : PlaceHoldInput) (draws : HoldDraws) :
    Except String AuditLegalHold := do
  let scopeKind ← scopeKindOf input.scopeKind
  let reason ← bounded (input.reason.getD "") "reason" 1 HOLD_LIMITS.reason
  let scope ← scopeOf scopeKind input
  return {
    id := draws.id, tenantId := tenantId, scope := scope, reason := reason, placedBy := actorId,
    placedAt := draws.now, lifted := none }

def place (tenantId actorId : String) (input : PlaceHoldInput) (draws : HoldDraws) :
    ServiceCall AuditLegalHold := do
  let hold ← .ofExcept (holdOf tenantId actorId input draws)
  let active ← repository (.listActiveHolds HOLD_LIMITS.active)
  if HOLD_LIMITS.active ≤ List.length active then
    let limit := HOLD_LIMITS.active
    .fail (auditServiceError "HOLD_LIMIT_REACHED"
      s!"This workspace already holds {limit} active legal holds; lift one before placing another."
      409)
  else
    let hold ← repository (.insertHold hold)
    let _ ← repository (.appendAuditEvent (placedEvent hold actorId draws.eventAt) draws.event)
    return hold

def lift (actorId : String) (input : LiftHoldInput) (draws : HoldDraws) :
    ServiceCall (Option AuditLegalHold) := do
  let id ← .ofExcept (bounded (input.id.getD "") "id" 1 64)
  let reason ← .ofExcept (bounded (input.reason.getD "") "reason" 1 HOLD_LIMITS.reason)
  match ← repository (.getHold id) with
  | none => .fail (auditServiceError "HOLD_NOT_FOUND" s!"This workspace holds no legal hold {id}." 404)
  | some existing =>
    -- Lifting an already lifted hold changes nothing and answers the same row.
    if existing.active = false then return some existing
    else
      match ← repository (.liftHold id ⟨actorId, reason, draws.now⟩) with
      | none => repository (.getHold id)
      | some lifted =>
        let _ ← repository (.appendAuditEvent (liftedEvent lifted actorId reason draws.eventAt)
          draws.event)
        return some lifted

/-! ### Failures -/

/-- A repository call that fails: which one, whether what it did stays, and with which
message. -/
structure Fault where
  call : ℕ
  kept : Bool
  error : String

/-- The tables and the failure that is still to come. -/
abbrev Faulty := Tables × Option Fault

/-- A repository call where one call may fail. -/
def RepositoryCall.performFaulty (c : RepositoryCall) :
    Faulty → Prog.Reply RepositoryCall.Answer c × Faulty
  | (tables, none) => ((c.perform tables).1, ((c.perform tables).2, none))
  | (tables, some ⟨0, kept, error⟩) =>
    (.error error, (if kept then (c.perform tables).2 else tables, none))
  | (tables, some ⟨n + 1, kept, error⟩) =>
    ((c.perform tables).1, ((c.perform tables).2, some ⟨n, kept, error⟩))

/-- A program with nobody else about, where one call may fail. -/
def ServiceCall.runWith {α : Type} (p : ServiceCall α) (tables : Tables) (fault : Option Fault) :
    Except String α × Tables :=
  let result := p.run RepositoryCall.performFaulty (tables, fault)
  (result.1, result.2.1)

/-! ### All or nothing -/

/-- One event was appended, and it tells this. -/
def OneEvent (tables after : Tables) (input : AppendAuditEventInput) : Prop :=
  ∃ event, after.events = tables.events ++ [event] ∧ Tables.Tells event after.keys input

/-- A call did what it is for, or failed and left the holds and the events as they were. -/
def AllOrNothing {β : Type} (tables : Tables) (done : β → Tables → Prop) :
    Except String β × Tables → Prop
  | (.ok result, after) => done result after
  | (.error _, after) => after.holds = tables.holds ∧ after.events = tables.events

/-- The hold is there and one event tells it. -/
def Placed (tables : Tables) (actorId : String) (draws : HoldDraws) (hold : AuditLegalHold)
    (after : Tables) : Prop :=
  after.holds = tables.holds ++ [hold] ∧ OneEvent tables after (placedEvent hold actorId draws.eventAt)

/-- The hold was lifted before and nothing changed, or it is lifted now and one event
tells it. -/
def Lifted (tables : Tables) (actorId : String) (input : LiftHoldInput) (draws : HoldDraws)
    (result : Option AuditLegalHold) (after : Tables) : Prop :=
  ∃ hold reason, result = some hold ∧ bounded (input.id.getD "") "id" 1 64 = .ok hold.id ∧
    bounded (input.reason.getD "") "reason" 1 HOLD_LIMITS.reason = .ok reason ∧
    (hold ∈ tables.holds ∧ hold.active = false ∧ after.holds = tables.holds ∧
        after.events = tables.events ∨
      after.holds = Table.update (fun row => row.id = hold.id && row.active)
          (fun row => { row with lifted := some ⟨actorId, reason, draws.now⟩ }) tables.holds ∧
        after.holds ≠ tables.holds ∧
        OneEvent tables after (liftedEvent hold actorId reason draws.eventAt))

/-- No call fails once the row is written, and the event behind it is taken up.  The row
is written by the second call and the event by the third. -/
def Clean (fault : Option Fault) (admitted : Prop) : Prop :=
  match fault with
  | none => admitted
  | some fault =>
    fault.call = 0 ∨ fault.call = 1 ∧ fault.kept = false ∨ 2 < fault.call ∧ admitted

variable {tables : Tables} {fault : Option Fault}

namespace Tables

variable {draws : EventDraws} {input : AppendAuditEventInput} {other : Tables}

theorem TakesKey.of_keys {key : Option SubjectKeyMaterial} (hk : other.keys = tables.keys)
    (h : tables.TakesKey input draws key) : other.TakesKey input draws key := by
  have hr : other.getSubjectKey none = tables.getSubjectKey none := by
    unfold getSubjectKey
    rw [hk]
  cases h with
  | plain h => exact .plain h
  | held h hrow =>
    rw [← hr] at hrow
    exact .held h hrow
  | new h hn hm hrow hc =>
    rw [← hr] at hn
    refine .new h hn ?_ hrow ?_
    · rwa [getSubjectKeyByMarker, hk]
    · rwa [keyClashes, hk]

/-- What the tables admit is a matter of the keys and the events. -/
theorem admits_congr (hk : other.keys = tables.keys) (he : other.events = tables.events) :
    other.Admits input draws ↔ tables.Admits input draws := by
  unfold Admits latestAuditEvent eventClashes
  rw [he]
  constructor
  · rintro ⟨key, hkey, h⟩
    exact ⟨key, hkey.of_keys hk.symm, h⟩
  · rintro ⟨key, hkey, h⟩
    exact ⟨key, hkey.of_keys hk, h⟩

end Tables

namespace ServiceCall

@[simp] theorem runWith_pure {α : Type} (a : α) :
    ServiceCall.runWith (pure a) tables fault = (.ok a, tables) := rfl

variable {β : Type} {c : RepositoryCall} {f : c.Answer → ServiceCall β}

theorem runWith_ofExcept_bind {α : Type} {x : Except String α} {f : α → ServiceCall β} :
    ServiceCall.runWith (.ofExcept x >>= f) tables fault = match x with
      | .ok a => (f a).runWith tables fault
      | .error e => (.error e, tables) := by
  cases x <;> rfl

/-- A call that does not fail on its own. -/
theorem runWith_repository_bind (hf : ∀ fault' ∈ fault, 0 < fault'.call) :
    ServiceCall.runWith (repository c >>= f) tables fault = match c.perform tables with
      | (.ok a, after) =>
        (f a).runWith after (fault.map fun fault => { fault with call := fault.call - 1 })
      | (.error e, after) => (.error e, after) := by
  unfold runWith repository
  rw [Prog.run_need_bind]
  match fault with
  | none =>
    simp only [RepositoryCall.performFaulty]
    cases c.perform tables with
    | mk reply after => cases reply <;> rfl
  | some ⟨0, kept, error⟩ => exact absurd (hf _ rfl) (lt_irrefl 0)
  | some ⟨n + 1, kept, error⟩ =>
    simp only [RepositoryCall.performFaulty]
    cases c.perform tables with
    | mk reply after => cases reply <;> rfl

theorem runWith_repository_fail {kept : Bool} {error : String} :
    ServiceCall.runWith (repository c >>= f) tables (some ⟨0, kept, error⟩) =
      (.error error, if kept then (c.perform tables).2 else tables) := rfl

end ServiceCall

section

variable {β : Type} {done : β → Tables → Prop} {result : β} {holds : List AuditLegalHold}
  {input : AppendAuditEventInput} (draws : EventDraws)

/-- An append keeps the holds. -/
theorem holds_append :
    ((RepositoryCall.appendAuditEvent input draws).perform tables).2.holds = tables.holds := by
  rcases Tables.perform_appendAuditEvent tables input draws with
    ⟨key, -, -, hr⟩ | ⟨-, e, hr⟩ <;> rw [hr]

/-- **The event behind a change of the holds**, where one call may fail. -/
theorem event_allOrNothing (hh : holds ≠ tables.holds)
    (hd : ∀ after : Tables, after.holds = holds → OneEvent tables after input → done result after) :
    AllOrNothing tables done
      (ServiceCall.runWith (repository (.appendAuditEvent input draws) >>= fun _ => pure result)
        { tables with holds := holds } fault) ↔
      (∀ f ∈ fault, 0 < f.call) ∧ tables.Admits input draws := by
  by_cases hf : ∀ f ∈ fault, 0 < f.call
  · rw [ServiceCall.runWith_repository_bind hf]
    have hcon : Tables.Admits { tables with holds := holds } input draws ↔
        tables.Admits input draws := Tables.admits_congr rfl rfl
    rcases Tables.perform_appendAuditEvent { tables with holds := holds } input draws with ⟨key, hk, ha, hr⟩ | ⟨ha, e, hr⟩
    · rw [hr]
      exact iff_of_true (hd _ rfl ⟨_, rfl, hk.tells _⟩) ⟨hf, hcon.1 ha⟩
    · rw [hr]
      exact iff_of_false (fun h => hh h.1) (fun h => ha (hcon.2 h.2))
  · refine iff_of_false (fun h => hh ?_) (fun h => hf h.1)
    push Not at hf
    obtain ⟨⟨call, kept, error⟩, rfl, hc⟩ := hf
    obtain rfl : call = 0 := Nat.le_zero.1 hc
    rw [ServiceCall.runWith_repository_fail] at h
    have haft := h.1
    cases kept with
    | true => exact (holds_append draws).symm.trans haft
    | false => exact haft

variable {c : RepositoryCall} {f : c.Answer → ServiceCall β}

/-- A read in front changes nothing: where it fails, nothing is done. -/
theorem read_allOrNothing {a : c.Answer} (hr : c.perform tables = (.ok a, tables)) :
    AllOrNothing tables done (ServiceCall.runWith (repository c >>= f) tables fault) ↔
      (∃ fault' ∈ fault, fault'.call = 0) ∨
        AllOrNothing tables done (ServiceCall.runWith (f a) tables
          (fault.map fun fault => { fault with call := fault.call - 1 })) := by
  by_cases hf : ∀ fault' ∈ fault, 0 < fault'.call
  · rw [ServiceCall.runWith_repository_bind hf, hr]
    refine ⟨.inr, fun h => h.resolve_left ?_⟩
    rintro ⟨fault', hm, hc⟩
    exact absurd (hf fault' hm) (by omega)
  · push Not at hf
    obtain ⟨⟨call, kept, error⟩, rfl, hc⟩ := hf
    obtain rfl : call = 0 := Nat.le_zero.1 hc
    rw [ServiceCall.runWith_repository_fail, hr]
    refine iff_of_true ?_ (.inl ⟨_, rfl, rfl⟩)
    cases kept <;> exact ⟨rfl, rfl⟩

theorem refused_allOrNothing {e : String} (hr : c.perform tables = (.error e, tables)) :
    AllOrNothing tables done (ServiceCall.runWith (repository c >>= f) tables fault) := by
  by_cases hf : ∀ fault' ∈ fault, 0 < fault'.call
  · rw [ServiceCall.runWith_repository_bind hf, hr]
    exact ⟨rfl, rfl⟩
  · push Not at hf
    obtain ⟨⟨call, kept, error⟩, rfl, hc⟩ := hf
    obtain rfl : call = 0 := Nat.le_zero.1 hc
    rw [ServiceCall.runWith_repository_fail, hr]
    cases kept <;> exact ⟨rfl, rfl⟩

/-- **A change of the holds and the event behind it**, where one call may fail. -/
theorem change_allOrNothing {row : c.Answer}
    (hp : c.perform tables = (.ok row, { tables with holds := holds }))
    (hf : f row = repository (.appendAuditEvent input draws) >>= fun _ => pure result)
    (hh : holds ≠ tables.holds)
    (hd : ∀ after : Tables, after.holds = holds → OneEvent tables after input → done result after) :
    AllOrNothing tables done (ServiceCall.runWith (repository c >>= f) tables fault) ↔
      (∃ fault' ∈ fault, fault'.call = 0 ∧ fault'.kept = false) ∨
        (∀ fault' ∈ fault, 1 < fault'.call) ∧ tables.Admits input draws := by
  by_cases hfau : ∀ fault' ∈ fault, 0 < fault'.call
  · rw [ServiceCall.runWith_repository_bind hfau, hp]
    simp only [hf]
    rw [event_allOrNothing draws hh hd]
    match fault with
    | none => simp
    | some fault =>
      have hc := hfau _ rfl
      simp only [Option.map_some, Option.mem_def, Option.some.injEq, forall_eq', exists_eq_left']
      constructor
      · exact fun h => .inr ⟨by omega, h.2⟩
      · exact fun h => h.elim (fun h => absurd h.1 (by omega)) fun h => ⟨by omega, h.2⟩
  · push Not at hfau
    obtain ⟨⟨call, kept, error⟩, rfl, hc⟩ := hfau
    obtain rfl : call = 0 := Nat.le_zero.1 hc
    rw [ServiceCall.runWith_repository_fail, hp]
    cases kept with
    | true =>
      refine iff_of_false (fun h => hh h.1) ?_
      rintro (⟨fault', hfau', -, h⟩ | h)
      · rw [← Option.some.inj hfau'] at h
        cases h
      · exact absurd (h.1 _ rfl) (by omega)
    | false => exact iff_of_true ⟨rfl, rfl⟩ (.inl ⟨_, rfl, rfl, rfl⟩)

omit [AuditHost] in
/-- A failure, as the call behind a read meets it. -/
theorem clean_iff {admitted : Prop} : Clean fault admitted ↔ (∃ fault' ∈ fault, fault'.call = 0) ∨
      (∃ fault' ∈ fault.map (fun fault => { fault with call := fault.call - 1 }),
        fault'.call = 0 ∧ fault'.kept = false) ∨
      (∀ fault' ∈ fault.map (fun fault : Fault => { fault with call := fault.call - 1 }),
        1 < fault'.call) ∧ admitted := by
  match fault with
  | none => simp [Clean]
  | some ⟨call, kept, error⟩ =>
    simp only [Clean, Option.map_some, Option.mem_def, Option.some.injEq, forall_eq',
      exists_eq_left']
    constructor
    · rintro (h | h | h)
      · exact .inl h
      · exact .inr (.inl ⟨by omega, h.2⟩)
      · exact .inr (.inr ⟨by omega, h.2⟩)
    · rintro (h | h | h)
      · exact .inl h
      · by_cases hc : call = 0
        · exact .inl hc
        · exact .inr (.inl ⟨by omega, h.2⟩)
      · exact .inr (.inr ⟨by omega, h.2⟩)

end

section

variable {actorId : String} {draws : HoldDraws}

/-- **`place` is all or nothing** exactly when, where it comes to write, no call fails from
then on and the event is taken up. -/
theorem place_allOrNothing {tenantId : String} {input : PlaceHoldInput} :
    AllOrNothing tables (Placed tables actorId draws)
      (ServiceCall.runWith (place tenantId actorId input draws) tables fault) ↔
    ∀ hold, holdOf tenantId actorId input draws = .ok hold →
      (tables.listActiveHolds HOLD_LIMITS.active).length < HOLD_LIMITS.active →
      (∀ other ∈ tables.holds, other.id ≠ hold.id) →
      Clean fault (tables.Admits (placedEvent hold actorId draws.eventAt) draws.event) := by
  unfold place
  rw [ServiceCall.runWith_ofExcept_bind]
  cases hinp : holdOf tenantId actorId input draws with
  | error e => exact iff_of_true ⟨rfl, rfl⟩ (fun hold h => nomatch h)
  | ok hold =>
    have hr : (RepositoryCall.listActiveHolds HOLD_LIMITS.active).perform tables =
      (.ok (tables.listActiveHolds HOLD_LIMITS.active), tables) := rfl
    simp only [Except.ok.injEq, forall_eq']
    rw [read_allOrNothing hr]
    by_cases hl : HOLD_LIMITS.active ≤ (tables.listActiveHolds HOLD_LIMITS.active).length
    · rw [if_pos hl]
      exact iff_of_true (.inr ⟨rfl, rfl⟩) (fun h => absurd h (by omega))
    · rw [if_neg hl]
      by_cases hid : ∀ other ∈ tables.holds, other.id ≠ hold.id
      · have hi : (RepositoryCall.insertHold hold).perform tables =
            (.ok hold, { tables with holds := tables.holds ++ [hold] }) := by
          rw [RepositoryCall.perform, Tables.insertHold, if_neg (by simpa using hid)]
        rw [change_allOrNothing draws.event hi rfl (by simp) fun after hh he => ⟨hh, he⟩,
          ← clean_iff]
        exact ⟨fun h _ _ => h, fun h => h (by omega) hid⟩
      · refine iff_of_true ?_ (fun _ h => absurd h hid)
        have hi : (RepositoryCall.insertHold hold).perform tables =
            (.error "unique_violation", tables) := by
          rw [RepositoryCall.perform, Tables.insertHold, if_pos (by simpa using hid)]
        exact .inr (refused_allOrNothing hi)

variable {hold : AuditLegalHold} {id : String}

omit [AuditHost] in
/-- A lift of an active row changes the rows. -/
theorem update_lift_ne {lift : HoldLift}
    (hf : tables.getHold id = some hold) (ha : hold.active = true) :
    Table.update (fun row => row.id = id && row.active)
      (fun row : AuditLegalHold => { row with lifted := some lift }) tables.holds ≠ tables.holds := by
  intro h
  have hm := List.mem_of_find?_eq_some hf
  have hid : hold.id = id := by simpa using List.find?_some hf
  have hs := List.map_inj_left.1 (h.trans (List.map_id _).symm) hold hm
  simp only [hid, ha, decide_true, Bool.and_self, if_true, id_eq] at hs
  rw [AuditLegalHold.active, ← hs] at ha
  cases ha

/-- The row a lift finds, lifted. -/
def liftedRow (actorId reason : String) (draws : HoldDraws) (hold : AuditLegalHold) :
    AuditLegalHold :=
  { hold with lifted := some ⟨actorId, reason, draws.now⟩ }

omit [AuditHost] in
theorem liftHold_of_getHold {lift : HoldLift}
    (hf : tables.getHold id = some hold) (ha : hold.active = true) :
    tables.liftHold id lift = (some { hold with lifted := some lift }, { tables with
        holds := Table.update (fun row => row.id = id && row.active)
          (fun row => { row with lifted := some lift }) tables.holds }) := by
  have hs : tables.holds.find? (fun row => row.id = id && row.active) = some hold := by
    obtain ⟨hid, before, behind, hr, hb⟩ := List.find?_eq_some_iff_append.1 hf
    refine List.find?_eq_some_iff_append.2 ⟨by simpa [ha] using hid, before, behind, hr, ?_⟩
    intro row hrow
    have := hb row hrow
    simp_all
  rw [Tables.liftHold, hs]
  rfl

/-- **`lift` is all or nothing** exactly when, where it comes to write, no call fails from
then on and the event is taken up. -/
theorem lift_allOrNothing {input : LiftHoldInput} :
    AllOrNothing tables (Lifted tables actorId input draws)
      (ServiceCall.runWith (lift actorId input draws) tables fault) ↔
    ∀ id reason existing, bounded (input.id.getD "") "id" 1 64 = .ok id →
      bounded (input.reason.getD "") "reason" 1 HOLD_LIMITS.reason = .ok reason →
      tables.getHold id = some existing → existing.active = true →
      Clean fault (tables.Admits (liftedEvent (liftedRow actorId reason draws existing) actorId
        reason draws.eventAt) draws.event) := by
  unfold lift
  rw [ServiceCall.runWith_ofExcept_bind]
  cases hid : bounded (input.id.getD "") "id" 1 64 with
  | error e => exact iff_of_true ⟨rfl, rfl⟩ (fun _ _ _ h => nomatch h)
  | ok id =>
    simp only [ServiceCall.runWith_ofExcept_bind]
    cases hr : bounded (input.reason.getD "") "reason" 1 HOLD_LIMITS.reason with
    | error e => exact iff_of_true ⟨rfl, rfl⟩ (fun _ _ _ _ h => nomatch h)
    | ok reason =>
      have hread : (RepositoryCall.getHold id).perform tables = (.ok (tables.getHold id), tables) := rfl
      rw [read_allOrNothing hread]
      cases hf : tables.getHold id with
      | none =>
        refine iff_of_true (.inr ⟨rfl, rfl⟩) fun id' _ _ hid' _ hg => ?_
        rw [← Except.ok.inj hid', hf] at hg
        cases hg
      | some existing =>
        have he : existing.id = id := by simpa using List.find?_some hf
        cases ha : existing.active with
        | false =>
          have hm : existing ∈ tables.holds := List.mem_of_find?_eq_some hf
          have hd : Lifted tables actorId input draws (some existing) tables :=
            ⟨existing, reason, rfl, by rw [hid, he], hr, .inl ⟨hm, ha, rfl, rfl⟩⟩
          refine iff_of_true (.inr ?_) fun id' _ existing' hid' _ hg ha' => ?_
          · simp only [ha, if_true, ServiceCall.runWith_pure]
            exact hd
          · rw [← Except.ok.inj hid', hf] at hg
            rw [← Option.some.inj hg, ha] at ha'
            cases ha'
        | true =>
          have hl : (RepositoryCall.liftHold id ⟨actorId, reason, draws.now⟩).perform tables =
              (.ok (some (liftedRow actorId reason draws existing)), { tables with
                holds := Table.update (fun row => row.id = id && row.active)
                  (fun row => { row with lifted := some ⟨actorId, reason, draws.now⟩ })
                  tables.holds }) := by
            rw [RepositoryCall.perform, liftHold_of_getHold hf ha]
            rfl
          simp only [ha, Bool.true_eq_false, if_false]
          rw [change_allOrNothing draws.event hl rfl (update_lift_ne hf ha), ← clean_iff]
          · constructor
            · intro h id' reason' existing' hid' hr' hg _
              rw [← Except.ok.inj hid', hf] at hg
              rw [← Option.some.inj hg, ← Except.ok.inj hr']
              exact h
            · exact fun h => h id reason existing rfl rfl hf ha
          · intro after hh heve
            have hrow : (liftedRow actorId reason draws existing).id = id := he
            refine ⟨_, reason, rfl, by rw [hid, hrow], hr, .inr ⟨?_, ?_, heve⟩⟩
            · rw [hh, ← he]
              rfl
            · rw [hh]
              exact update_lift_ne hf ha

/-- **Placing and lifting a hold is all or nothing** exactly when no call fails once the row
is written and the event behind it is taken up. -/
theorem place_lift_allOrNothing {tenantId : String} {toPlace : PlaceHoldInput}
    {toLift : LiftHoldInput} :
    (AllOrNothing tables (Placed tables actorId draws)
        (ServiceCall.runWith (place tenantId actorId toPlace draws) tables fault) ↔
      ∀ hold, holdOf tenantId actorId toPlace draws = .ok hold →
        (tables.listActiveHolds HOLD_LIMITS.active).length < HOLD_LIMITS.active →
        (∀ other ∈ tables.holds, other.id ≠ hold.id) →
        Clean fault (tables.Admits (placedEvent hold actorId draws.eventAt) draws.event)) ∧
    (AllOrNothing tables (Lifted tables actorId toLift draws)
        (ServiceCall.runWith (lift actorId toLift draws) tables fault) ↔
      ∀ id reason existing, bounded (toLift.id.getD "") "id" 1 64 = .ok id →
        bounded (toLift.reason.getD "") "reason" 1 HOLD_LIMITS.reason = .ok reason →
        tables.getHold id = some existing → existing.active = true →
        Clean fault (tables.Admits (liftedEvent (liftedRow actorId reason draws existing) actorId
          reason draws.eventAt) draws.event)) :=
  ⟨place_allOrNothing, lift_allOrNothing⟩

end

/-! ### A hold that names an erased account -/

/-- A host whose digest and cipher are the texts themselves. -/
@[reducible] def sampleHost : AuditHost where
  localeCompare := compare
  sha256 := id
  sealText := fun _ _ context text => context ++ text
  openText := fun _ _ _ => none
  parse := fun _ => none
  toISOString := toString

/-- A workspace whose only subject key was destroyed. -/
def erasedTables : Tables where
  holds := []
  keys := [⟨"k1", some "t:ada", 1, .destroyed 2⟩]
  events := []

/-- What the sample calls draw. -/
def sampleDraws : HoldDraws where
  now := 3
  id := "h1"
  eventAt := 4
  event := ⟨"e1", "k2", Vector.replicate 32 0, "iv"⟩

omit [AuditHost] in
/-- A hold on an account whose key was destroyed is there, the call fails, and no event
tells it. -/
theorem place_leaves_unaudited_hold : let _ : AuditHost := sampleHost
    ¬ AllOrNothing erasedTables (Placed erasedTables "operator" sampleDraws)
      (ServiceCall.runWith (place "t" "operator"
        { scopeKind := "account", accountId := some "ada", reason := some "Matter 7" } sampleDraws)
        erasedTables none) := by
  intro host h
  have hr : (ServiceCall.runWith (place "t" "operator"
      { scopeKind := "account", accountId := some "ada", reason := some "Matter 7" } sampleDraws)
      erasedTables none).2.holds.length = 1 ∧
    (ServiceCall.runWith (place "t" "operator"
      { scopeKind := "account", accountId := some "ada", reason := some "Matter 7" } sampleDraws)
      erasedTables none).2.events = [] := by decide +kernel
  revert h hr
  generalize ServiceCall.runWith _ _ _ = outcome
  rintro h ⟨hh, he⟩
  obtain ⟨result, after⟩ := outcome
  cases result with
  | ok hold =>
    obtain ⟨-, event, heve, -⟩ := h
    rw [show after.events = [] from he] at heve
    cases heve
  | error e =>
    rw [show after.holds = [] from h.1] at hh
    cases hh

/-- The same call where the account never had a key: a hold and an event. -/
example : let _ : AuditHost := sampleHost
    let outcome := ServiceCall.runWith (place "t" "operator"
      { scopeKind := "account", accountId := some "ada", reason := some "Matter 7" } sampleDraws)
      ⟨[], [], []⟩ none
    outcome.2.holds.length = 1 ∧ outcome.2.events.length = 1 ∧ outcome.2.keys.length = 1 := by
  decide +kernel

end Flowdular.Audit
