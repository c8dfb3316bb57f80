/-
# Retention sweeps and erasures

`src/modules/audit/src/services/hold-service.ts`, lines 64-80 (`holdCoversClass`,
`holdCoversSubject`) and 172-200 (`forClass`, `forSubject`); `sweep-service.ts`, lines
116-298 (`sweep`, `#countHeld`, `#sweepClass`, `#refuse`); `erasure-service.ts`, lines
309-417 (`run`), 441-588 (`#subjectKey`, `#plan`, `#erase`, `#destroyKey`), 590-646
(`#certificate`), 683-712 (`#event`) and 764-768 (`progressCount`).

A service is a program of calls: those of the repository, the owners of the data
classes, and what the program asks of its surroundings.  The rows of
`audit_data_classes` and `audit_sweep_runs`, the anchors and the owners' data are not in
the tables, so any answer about them is one.
-/

import Flowdular.Audit.Holds

namespace Flowdular.Audit

open Lib Workflows

variable [AuditHost]

/-! ### The decision of a hold -/

structure HoldDecision where
  held : Bool
  holdIds : List String
  heldBack : Option ℕ

def holdCoversClass (hold : AuditLegalHold) (classId : String) : Bool :=
  hold.scope.classId = none || hold.scope.classId = some classId

def holdCoversSubject (hold : AuditLegalHold) (accountId : String) : Bool :=
  hold.scope.accountId = none || hold.scope.accountId = some accountId

/-- The decision on the holds that cover something. -/
def decision (covering : List AuditLegalHold) : HoldDecision where
  held := !covering.isEmpty
  holdIds := covering.map (·.id)
  heldBack := none

/-! ### Calls -/

inductive SweepStatus
  | completed
  | partly
  | refused
deriving DecidableEq

/-- The columns of `audit_sweep_runs` a sweep writes. -/
structure SweepRun where
  classId : String
  cutoff : ℤ
  removed : Option ℕ
  status : SweepStatus
  reason : Option String
  heldBack : Option ℕ
  occurredAt : ℤ

/-- The columns of `audit_data_classes` a sweep reads. -/
structure AuditDataClass where
  classId : String
  lastSweptAt : Option ℤ
  effectiveRetentionDays : Option ℕ

/-- `DataClassErasureResult`, its counts as `progressCount` reads them. -/
structure DataClassErasureResult where
  removed : Option ℕ
  redacted : Option ℕ
  truncated : Bool

inductive ErasureClassOutcomeKind
  | erasable
  | erased
  | notErasable
  | failed
deriving DecidableEq

structure ErasureClassOutcome where
  moduleId : String
  classId : String
  outcome : ErasureClassOutcomeKind
  rows : Option ℕ
  redacted : ℕ := 0
  truncated : Bool := false
  failure : Option String := none

/-- The columns of `audit_anchors` a certificate names. -/
structure AnchorName where
  anchorSequence : ℤ
  toSequence : ℤ
  anchorHash : String

structure ErasureCertificate where
  tenantId : String
  slug : Option String
  name : Option String
  subject : String
  complete : Bool
  classes : List ErasureClassOutcome
  rows : ℕ
  redacted : ℕ
  notErasable : ℕ
  keyRequested : Bool
  keyState : Option String
  keyDestroyedAt : Option String
  anchor : Option AnchorName
  operator : String
  startedAt : String
  completedAt : String

/-- A call of a service. -/
inductive Call
  | repository (c : RepositoryCall)
  | getDataClass (classId : String)
  | countAuditEventsBefore (cutoff : ℤ)
  | latestSweepRun (classId : String)
  | appendSweepRun (run : SweepRun)
  | stampSwept (classId : String) (sweptAt : ℤ)
  /-- The owner's sweep of a class. -/
  | sweepClass (classId : String) (cutoff : ℤ) (limit : ℕ)
  /-- The owner's count of a subject's rows. -/
  | countClass (classId accountId : String)
  /-- The owner's erasure of a subject's rows. -/
  | eraseClass (classId accountId : String) (limit : ℕ)
  /-- `#checkpoint`, which fails where the claim is lost. -/
  | checkpoint
  | latestAnchor
  | writeCertificate (certificate : ErasureCertificate)
  /-- No call of the code: `place` answered its caller. -/
  | placed (hold : AuditLegalHold)

/-- What a call answers.  The count of a sweep is
`Math.max(0, Math.trunc(answer?.removed ?? 0))`, without a value where that is `NaN`; where
an owner fails, its reply is the reason that is recorded. -/
@[reducible] def Call.Answer : Call → Type
  | .repository c => c.Answer
  | .getDataClass _ => Option AuditDataClass
  | .countAuditEventsBefore _ => ℕ
  | .latestSweepRun _ => Option (SweepStatus × Option String)
  | .appendSweepRun _ => PUnit
  | .stampSwept .. => PUnit
  | .sweepClass .. => Option ℕ
  | .countClass .. => Option ℕ
  | .eraseClass .. => DataClassErasureResult
  | .checkpoint => PUnit
  | .latestAnchor => Option AnchorName
  | .writeCertificate _ => String
  | .placed _ => PUnit

/-- How a call ends: it fails, before or after it took effect, or it is answered; what is
not in the tables answers as it likes. -/
structure Choice where
  fails : Option (Bool × String)
  answer : (c : Call) → Option c.Answer

/-- A program of calls. -/
abbrev Service (α : Type) :=
  Prog Call (Prog.Reply Call.Answer) α

/-- A call of a service. -/
def call (c : Call) : Service c.Answer :=
  Prog.need c

/-- A program of repository calls, within a service. -/
def ServiceCall.within {α : Type} : ServiceCall α → Service α
  | .pure a => .pure a
  | .fail e => .fail e
  | .call c next => .call (.repository c) fun r => ServiceCall.within (next r)

def forClass (classId : String) : Service HoldDecision := do
  let active ← call (.repository (.listActiveHolds HOLD_LIMITS.active))
  return decision (active.filter (holdCoversClass · classId))

def forSubject (accountId : String) : Service HoldDecision := do
  let active ← call (.repository (.listActiveHolds HOLD_LIMITS.active))
  return decision (active.filter (holdCoversSubject · accountId))

/-! ### The sweep -/

def DAY_MS : ℤ := 86400000

def SWEEP_MAX_BATCHES : ℕ := 20

def AUDIT_EVENTS_CLASS_ID : String := "audit.core.events"

/-- `DueDataClass`, and whether the owner of the class declares a sweep. -/
structure DueDataClass where
  tenantId : String
  classId : String
  lastSweptAt : Option ℤ
  now : ℤ
  backupOk : Bool
  declaresSweep : String → Bool
  batchSize : ℕ

/-- What a sweep draws: a time and an event for each batch. -/
abbrev SweepDraws := ℕ → ℤ × EventDraws

/-- An event of `audit.core` about a data class. -/
def classEvent (tenantId classId action : String) (metadata : List (String × Json))
    (occurredAt : ℤ) : AppendAuditEventInput where
  tenantId := tenantId
  actorId := "audit.core"
  action := action
  subjectType := "data-class"
  subjectId := classId
  metadata := metadata
  occurredAt := occurredAt

def refuse (due : DueDataClass) (classId reason : String) (heldBack : Option ℕ)
    (draws : EventDraws) : Service PUnit := do
  let latest ← call (.latestSweepRun classId)
  if latest = some (.refused, some reason) then return ⟨⟩
  else
    let _ ← call (.appendSweepRun {
      classId := classId, cutoff := due.now, removed := some 0, status := .refused,
      reason := some reason, heldBack := heldBack, occurredAt := due.now })
    let _ ← call (.repository (.appendAuditEvent (classEvent due.tenantId classId
      "audit.retention.refused" [("classId", .str classId), ("reason", .str reason)] due.now) draws))
    return ⟨⟩

/-- `hold.heldBack`, and `#countHeld` where it is null. -/
def countHeld (heldBack : Option ℕ) (classId : String) (retentionDays : ℕ) (now : ℤ) :
    Service (Option ℕ) :=
  if heldBack ≠ none ∨ classId ≠ AUDIT_EVENTS_CLASS_ID then .pure heldBack
  else some <$> call (.countAuditEventsBefore (now - retentionDays * DAY_MS))

/-- The event before a batch. -/
def sweepEvent (due : DueDataClass) (classId : String) (retentionDays batch : ℕ)
    (occurredAt : ℤ) : AppendAuditEventInput :=
  classEvent due.tenantId classId "audit.retention.sweep" [("classId", .str classId),
      ("cutoff", .str (AuditHost.toISOString (due.now - retentionDays * DAY_MS))),
      ("retentionDays", .num (.ofNat retentionDays)), ("batch", .num (.ofNat batch)),
      ("limit", .num (.ofNat due.batchSize))] occurredAt

/-- The loop of `#sweepClass` with some batches left, on the rows removed so far. -/
def sweepBatches (due : DueDataClass) (classId : String) (retentionDays : ℕ) (draws : SweepDraws) :
    ℕ → Option ℕ → Service (Option ℕ × SweepStatus × Option String)
  | 0, removed => .pure (removed, .completed, none)
  | left + 1, removed =>
    let batch := SWEEP_MAX_BATCHES - left
    call (.repository (.appendAuditEvent
      (sweepEvent due classId retentionDays batch (draws batch).1) (draws batch).2)) >>= fun _ =>
    .call (.sweepClass classId (due.now - retentionDays * DAY_MS) due.batchSize) fun
      | .error reason =>
        .pure (removed, if removed.any (0 < ·) then .partly else .refused, some reason)
      | .ok batchRemoved =>
        let removed := removed.bind fun n => batchRemoved.map (n + ·)
        if batchRemoved.any (· < due.batchSize) then .pure (removed, .completed, none)
        else if left = 0 then .pure (removed, .partly, some "BATCH_CAP_REACHED")
        else sweepBatches due classId retentionDays draws left removed

/-- The latest run of a class, where a refusal may stand. -/
def standing (classId : String) (status : SweepStatus) :
    Service (Option (SweepStatus × Option String)) :=
  if status = .refused then call (.latestSweepRun classId) else .pure none

/-- The row of a run, unless it is a refusal that stands already. -/
def recordRun (run : SweepRun) (standing : Option (SweepStatus × Option String)) : Service PUnit :=
  if standing.all (· ≠ (.refused, run.reason)) then call (.appendSweepRun run) else .pure ⟨⟩

/-- The stamp of a class that was swept; a refused one stays due. -/
def stamp (classId : String) (status : SweepStatus) (sweptAt : ℤ) : Service PUnit :=
  if status ≠ .refused then call (.stampSwept classId sweptAt) else .pure ⟨⟩

def sweepClass (due : DueDataClass) (classId : String) (retentionDays : ℕ) (draws : SweepDraws) :
    Service PUnit := do
  let outcome ← sweepBatches due classId retentionDays draws SWEEP_MAX_BATCHES (some 0)
  let run : SweepRun := {
    classId := classId, cutoff := due.now - retentionDays * DAY_MS, removed := outcome.1,
    status := outcome.2.1, reason := outcome.2.2, heldBack := none, occurredAt := (draws 0).1 }
  let latest ← standing classId run.status
  let _ ← recordRun run latest
  stamp classId run.status (draws (SWEEP_MAX_BATCHES + 1)).1

/-- `sweep` behind the decision of the holds. -/
def sweepChecked (due : DueDataClass) (classId : String) (retentionDays : ℕ) (draws : SweepDraws)
    (hold : HoldDecision) : Service PUnit :=
  if hold.held then do
    let heldBack ← countHeld hold.heldBack classId retentionDays due.now
    refuse due classId "HOLD_ACTIVE" heldBack (draws 0).2
  else sweepClass due classId retentionDays draws

/-- `sweep` behind the row of the class. -/
def sweepRecord (due : DueDataClass) (draws : SweepDraws) : Option AuditDataClass → Service PUnit
  | some ⟨classId, lastSweptAt, some retentionDays⟩ =>
    if lastSweptAt ≠ due.lastSweptAt ∨ due.declaresSweep classId = false then .pure ⟨⟩
    else do
      let hold ← forClass classId
      sweepChecked due classId retentionDays draws hold
  | _ => .pure ⟨⟩

def sweep (due : DueDataClass) (draws : SweepDraws) : Service PUnit :=
  if due.backupOk = false then refuse due due.classId "BACKUP_MANIFEST_MISSING" none (draws 0).2
  else do
    let record ← call (.getDataClass due.classId)
    sweepRecord due draws record

/-! ### The erasure -/

namespace ERASURE_LIMITS

def batch : ℕ := 500

def batches : ℕ := 200

end ERASURE_LIMITS

/-- `ErasableClass`: whether the owner of a class erases and counts. -/
structure ErasableClass where
  moduleId : String
  classId : String
  erases : Bool
  counts : Bool

/-- `ErasureRequest`: the directory as `#directory` resolves it, and the classes the
deployment declares. -/
structure ErasureRequest where
  tenantId : String
  subject : String
  slug : Option String
  name : Option String
  operator : String
  directory : Except String String
  apply : Bool
  destroyKey : Bool
  classes : List ErasableClass

/-- What an erasure draws: the times it reads and its three events. -/
structure ErasureDraws where
  startedAt : ℤ
  destroyedAt : ℤ
  keyEventAt : ℤ
  completedAt : ℤ
  started : EventDraws
  keyDestroyed : EventDraws
  completed : EventDraws

structure ErasureResult where
  applied : Bool
  subject : String
  classes : List ErasureClassOutcome
  complete : Bool
  certificate : Option ErasureCertificate
  certificatePath : Option String
  subjectKey : Option SubjectKeyRow

/-- `#subjectKey`. -/
def subjectKeyOf (subject marker : String) : Service (Option SubjectKeyRow) := do
  match ← call (.repository (.getSubjectKey subject)) with
  | some active => return some active
  | none => call (.repository (.getSubjectKeyByMarker marker))

/-- The outcome of a class in a plan. -/
def ErasableClass.planned (entry : ErasableClass) (rows : Option ℕ) (failure : Option String) :
    ErasureClassOutcome where
  moduleId := entry.moduleId
  classId := entry.classId
  outcome := if entry.erases then .erasable else .notErasable
  rows := rows
  failure := failure

/-- The body of the loop of `#plan`. -/
def planClass (subject : String) (entry : ErasableClass) : Service ErasureClassOutcome :=
  if entry.counts = false then .pure (entry.planned none none)
  else .call (.countClass entry.classId subject) fun
    | .ok rows => .pure (entry.planned rows none)
    | .error failure => .pure (entry.planned none (some failure))

def plan (subject : String) : List ErasableClass → Service (List ErasureClassOutcome)
  | [] => .pure []
  | entry :: entries => do
    let _ ← call .checkpoint
    let outcome ← planClass subject entry
    let outcomes ← plan subject entries
    return outcome :: outcomes

/-- The outcome of a class whose owner erased. -/
def ErasableClass.erased (entry : ErasableClass) (rows redacted : ℕ) (truncated : Bool) :
    ErasureClassOutcome where
  moduleId := entry.moduleId
  classId := entry.classId
  outcome := .erased
  rows := some rows
  redacted := redacted
  truncated := truncated

/-- The loop of `#erase` with some batches left. -/
def eraseBatches (entry : ErasableClass) (subject : String) :
    ℕ → ℕ → ℕ → Bool → Service ErasureClassOutcome
  | 0, erased, redacted, truncated => .pure (entry.erased erased redacted truncated)
  | left + 1, erased, redacted, _ =>
    .call (.eraseClass entry.classId subject ERASURE_LIMITS.batch) fun
      | .error failure =>
        .pure { entry.erased erased redacted false with outcome := .failed, failure := some failure }
      | .ok answer =>
        match answer.removed, answer.redacted with
        | some removed, some stripped =>
          let erased := erased + removed
          let redacted := redacted + stripped
          let cleared := removed + stripped
          if cleared = 0 then .pure (entry.erased erased redacted answer.truncated)
          else if answer.truncated = false ∧ cleared < ERASURE_LIMITS.batch then
            .pure (entry.erased erased redacted false)
          else if left = 0 then .pure (entry.erased erased redacted true)
          else eraseBatches entry subject left erased redacted answer.truncated
        | _, _ => .pure (entry.erased erased redacted true)

def erase (entry : ErasableClass) (subject : String) : Service ErasureClassOutcome :=
  if entry.erases = false then
    .pure { moduleId := entry.moduleId, classId := entry.classId, outcome := .notErasable, rows := none }
  else eraseBatches entry subject ERASURE_LIMITS.batches 0 0 false

/-- The loop of `run` over the classes. -/
def eraseAll (subject : String) : List ErasableClass → Service (List ErasureClassOutcome)
  | [] => .pure []
  | entry :: entries => do
    let _ ← call .checkpoint
    let outcome ← erase entry subject
    let outcomes ← eraseAll subject entries
    return outcome :: outcomes

/-- What `#event` appends: under the subject's key, and under its marker once that is
gone. -/
def erasureEvent (request : ErasureRequest) (subject action : String) (occurredAt : ℤ)
    (metadata : List (String × Json)) (keyDestroyed : Bool) : AppendAuditEventInput where
  tenantId := request.tenantId
  actorId := if keyDestroyed then "audit.core" else request.operator
  action := action
  subjectType := "erasure"
  subjectId := if keyDestroyed then erasureSubjectMarker request.tenantId subject else subject
  metadata := metadata
  occurredAt := occurredAt
  subjectAccountId := if keyDestroyed then none else some subject

def destroyKey (request : ErasureRequest) (subject marker : String) (draws : ErasureDraws) :
    Service (Option SubjectKeyRow) := do
  match ← call (.repository (.destroySubjectKey subject draws.destroyedAt)) with
  | none => call (.repository (.getSubjectKeyByMarker marker))
  | some destroyed =>
    let _ ← call (.repository (.appendAuditEvent {
      tenantId := request.tenantId, actorId := request.operator,
      action := "audit.erasure.key-destroyed", subjectType := "erasure",
      subjectId := destroyed.id, metadata := [("subjectKeyId", .str destroyed.id)],
      occurredAt := draws.keyEventAt } draws.keyDestroyed))
    return some destroyed

/-- The subject's key behind an erasure: destroyed, if that is asked for. -/
def keyAfter (request : ErasureRequest) (subject marker : String) (draws : ErasureDraws)
    (keyBefore : Option SubjectKeyRow) : Service (Option SubjectKeyRow) :=
  if request.destroyKey then destroyKey request subject marker draws else .pure keyBefore

/-- `#certificate`. -/
def certificateOf (request : ErasureRequest) (subject : String) (classes : List ErasureClassOutcome)
    (subjectKey : Option SubjectKeyRow) (anchor : Option AnchorName) (draws : ErasureDraws) :
    ErasureCertificate where
  tenantId := request.tenantId
  slug := request.slug
  name := request.name
  subject := subject
  complete := classes.all fun entry => entry.outcome ≠ .failed && !entry.truncated
  classes := classes
  rows := (classes.map fun entry => entry.rows.getD 0).sum
  redacted := (classes.map fun entry => entry.redacted).sum
  notErasable := (classes.filter fun entry => entry.outcome = .notErasable).length
  keyRequested := request.destroyKey
  keyState := subjectKey.map fun row => if row.destroyedAt = none then "active" else "destroyed"
  keyDestroyedAt := (subjectKey.bind (·.destroyedAt)).map AuditHost.toISOString
  anchor := anchor
  operator := request.operator
  startedAt := AuditHost.toISOString draws.startedAt
  completedAt := AuditHost.toISOString draws.completedAt

/-- `subjectKey?.state === 'destroyed'`. -/
def keyGone (key : Option SubjectKeyRow) : Bool :=
  key.any fun row => row.destroyedAt.isSome

/-- `run` from the event that opens an erasure on. -/
def applyErasure (request : ErasureRequest) (subject : String) (draws : ErasureDraws) :
    Service ErasureResult := do
  let marker := erasureSubjectMarker request.tenantId subject
  let keyBefore ← subjectKeyOf subject marker
  let _ ← call (.repository (.appendAuditEvent (erasureEvent request subject
    "audit.erasure.started" draws.startedAt
    [("classes", .num (.ofNat request.classes.length)), ("destroyKey", .bool request.destroyKey)]
    (keyGone keyBefore)) draws.started))
  let outcomes ← eraseAll subject request.classes
  let _ ← call .checkpoint
  let subjectKey ← keyAfter request subject marker draws keyBefore
  let anchor ← call .latestAnchor
  let certificate := certificateOf request subject outcomes subjectKey anchor draws
  let path ← call (.writeCertificate certificate)
  let _ ← call (.repository (.appendAuditEvent (erasureEvent request subject
    "audit.erasure.completed" draws.completedAt
    [("classes", .num (.ofNat outcomes.length)), ("rows", .num (.ofNat certificate.rows)),
      ("complete", .bool certificate.complete), ("certificate", .str path),
      ("keyDestroyed", .bool (keyGone subjectKey))]
    (keyGone subjectKey || keyGone keyBefore)) draws.completed))
  return {
    applied := true, subject := subject, classes := outcomes, complete := certificate.complete,
    certificate := some certificate, certificatePath := some path, subjectKey := subjectKey }

/-- `run` where nothing holds it back: a plan or an erasure. -/
def runUnheld (request : ErasureRequest) (subject : String) (draws : ErasureDraws) :
    Service ErasureResult :=
  if request.apply = false then do
    let planned ← plan subject request.classes
    let subjectKey ← subjectKeyOf subject (erasureSubjectMarker request.tenantId subject)
    return {
      applied := false, subject := subject, classes := planned,
      complete := planned.all fun entry => entry.outcome ≠ .failed, certificate := none,
      certificatePath := none, subjectKey := subjectKey }
  else do
    let _ ← .ofExcept request.directory
    applyErasure request subject draws

/-- `run` behind the decision of the holds. -/
def runChecked (request : ErasureRequest) (subject : String) (draws : ErasureDraws)
    (hold : HoldDecision) : Service ErasureResult :=
  if hold.held then
    let holdIds := String.intercalate ", " hold.holdIds
    .fail (auditServiceError "HOLD_ACTIVE"
      s!"A legal hold covers {subject} in this workspace ({holdIds}). Lift it before erasing." 409)
  else runUnheld request subject draws

def run (request : ErasureRequest) (draws : ErasureDraws) : Service ErasureResult := do
  let subject ← .ofExcept (bounded request.subject "subject" 1 64)
  let hold ← forSubject subject
  runChecked request subject draws hold

/-! ### The calls they make -/

section

omit [AuditHost]

open Discipline (All all_bind)

variable {α : Type} {P : Call → Prop} {subject : String} {entry : ErasableClass}
  {entries : List ErasableClass}

theorem all_call {c : Call} (h : P c) : All P (call c) := by
  refine ⟨h, ?_⟩
  rintro (e | a) <;> trivial

theorem all_plan (hc : P .checkpoint) (hcou : ∀ classId, P (.countClass classId subject)) :
    All P (plan subject entries) := by
  induction entries with
  | nil => trivial
  | cons entry entries ih =>
    rw [plan]
    refine all_bind (all_call hc) fun _ => all_bind ?_ fun _ => all_bind ih fun _ => trivial
    unfold planClass
    split_ifs
    · trivial
    · refine ⟨hcou entry.classId, ?_⟩
      rintro (e | rows) <;> trivial

/-- The batches of an erasure call the owner alone. -/
theorem all_eraseBatches (he : ∀ classId limit, P (.eraseClass classId subject limit)) :
    ∀ {left erased redacted : ℕ} {truncated : Bool},
      All P (eraseBatches entry subject left erased redacted truncated) := by
  intro left
  induction left with
  | zero => exact fun {_ _ _} => trivial
  | succ left ih =>
    intro erased redacted _
    rw [eraseBatches]
    refine ⟨he _ _, ?_⟩
    rintro (e | answer)
    · trivial
    · dsimp only
      split
      · split_ifs
        · trivial
        · trivial
        · trivial
        · exact ih
      · trivial

theorem all_eraseAll (hc : P .checkpoint)
    (he : ∀ classId limit, P (.eraseClass classId subject limit)) :
    All P (eraseAll subject entries) := by
  induction entries with
  | nil => trivial
  | cons entry entries ih =>
    rw [eraseAll]
    refine all_bind (all_call hc) fun _ => all_bind ?_ fun _ => all_bind ih fun _ => trivial
    unfold erase
    split_ifs
    · trivial
    · exact all_eraseBatches he

end

end Flowdular.Audit
