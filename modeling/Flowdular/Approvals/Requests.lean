/-
# Approval requests

`src/modules/approvals/src/services/database-repository.ts`, lines 72-138 (the statements) and
350-589 (`create`, `get`, `findPendingBySubject`, `isSnapshotDecider`, `decide`);
`approvals-service.ts`, lines 107-211 (`open`), 333-349 (`canRead`) and 366-638 (`decide`,
`cancel`, `expireRequest`, `#record`); `eligibility.ts`; `callbacks.ts`; `notifications.ts`.

A decision is one transaction under the lock of its request, so it is one step.  A request that
is not inserted reads the one that is open in another statement, which may find none.  Members
are those of the authentication module, so any answer about them is one; the callbacks are held
by the process, where nothing fails.
-/

import Flowdular.Audit.Repository
import Flowdular.Lib.Record
import Flowdular.Lib.Table

namespace Flowdular.Approvals

open Lib Workflows

/-! ### Errors and inputs -/

/-- `ApprovalsServiceError`, as one text. -/
def approvalsServiceError (code message : String) (status : ℕ) : String :=
  s!"{status} {code}: {message}"

/-- `bounded`, which is that of the audit module. -/
def bounded (value field : String) (minimum maximum : ℕ) : Except String String :=
  Audit.bounded value field minimum maximum

def optionalBounded (value : Option String) (field : String) (maximum : ℕ) : Except String (Option String) :=
  match value with
  | none => .ok none
  | some value => if Audit.trim value = "" then .ok none else some <$> bounded value field 1 maximum

def boundedInteger (value : Decimal) (field : String) (minimum maximum : ℕ) : Except String ℕ :=
  let whole := value.mantissa * 10 ^ value.exponent.toNat
  if ¬ value.isSafeInteger ∨ whole < minimum ∨ maximum < whole then
    .error (approvalsServiceError "INVALID_INPUT"
      s!"{field} must be an integer between {minimum} and {maximum}." 400)
  else .ok whole.toNat

/-- `APPROVAL_LIMITS`, as far as it is used. -/
structure ApprovalLimits where
  subjectModule : ℕ := 64
  subjectRef : ℕ := 200
  permission : ℕ := 96
  action : ℕ := 64
  title : ℕ := 200
  summary : ℕ := 2000
  comment : ℕ := 2000
  accountId : ℕ := 128
  eligible : ℕ := 200
  decisions : ℕ := 16
  expiryDays : ℕ := 90
  callbacks : ℕ := 4096

def APPROVAL_LIMITS : ApprovalLimits := {}

def DAY_MS : ℤ := 24 * 60 * 60 * 1000

def APPROVAL_GRANT_TTL_MS : ℤ := 60 * 60 * 1000

/-! ### Rows -/

inductive ApprovalStatus
  | pending
  | approved
  | rejected
  | expired
  | cancelled
deriving DecidableEq

/-- The text of a status. -/
def ApprovalStatus.text : ApprovalStatus → String
  | .pending => "pending"
  | .approved => "approved"
  | .rejected => "rejected"
  | .expired => "expired"
  | .cancelled => "cancelled"

inductive ApprovalDecisionKind
  | approve
  | reject
  | expire
  | cancel
deriving DecidableEq

/-- `SETTLING_DECISION`; no decision settles a request that is pending. -/
def ApprovalStatus.settlingDecision : ApprovalStatus → Option ApprovalDecisionKind
  | .pending => none
  | .approved => some .approve
  | .rejected => some .reject
  | .expired => some .expire
  | .cancelled => some .cancel

structure ApprovalRequirementRecord where
  roleKey : Option String
  scope : Option String
  decisions : ℕ
  expiresInDays : ℕ
deriving DecidableEq

/-- A row of `approvals_requests`. -/
structure ApprovalRequest where
  id : String
  tenantId : String
  subjectModule : String
  subjectRef : String
  permission : String
  action : String
  title : String
  summary : Option String
  requesterAccountId : String
  requirement : ApprovalRequirementRecord
  decisionsNeeded : ℕ
  status : ApprovalStatus
  expiresAt : ℤ
  resolvedAt : Option ℤ
  createdAt : ℤ
deriving DecidableEq

/-- A row of `approvals_decisions`; an expiry is the one that nobody makes. -/
structure ApprovalDecision where
  id : String
  tenantId : String
  requestId : String
  deciderAccountId : Option String
  decision : ApprovalDecisionKind
  comment : Option String
  decidedAt : ℤ
  expires : decision = .expire ↔ deciderAccountId = none

/-- A row of `approvals_eligible`. -/
structure EligibleRow where
  tenantId : String
  requestId : String
  accountId : String
deriving DecidableEq

/-- A row of `approvals_audit`, for the one action there is. -/
structure GrantIssued where
  id : String
  tenantId : String
  requestId : String
  capabilityId : String
  inputDigest : String
  keyId : String
  expiresAt : ℤ
  occurredAt : ℤ

structure ApprovalMember where
  accountId : String
  roleKey : String
  scopes : List String

/-- A request, by its workspace and its id. -/
structure RequestKey where
  tenantId : String
  id : String
deriving DecidableEq

/-- The key of a request. -/
def ApprovalRequest.key (row : ApprovalRequest) : RequestKey :=
  ⟨row.tenantId, row.id⟩

/-- The request behind the update that resolves it. -/
def ApprovalRequest.resolved (row : ApprovalRequest) (status : ApprovalStatus) (resolvedAt : ℤ) :
    ApprovalRequest :=
  { row with status, resolvedAt := some resolvedAt }

/-- The key of the request a decision is about. -/
def ApprovalDecision.key (d : ApprovalDecision) : RequestKey :=
  ⟨d.tenantId, d.requestId⟩

/-- `decision IN ('approve', 'reject')`, the condition of the unique index. -/
def ApprovalDecision.votes (d : ApprovalDecision) : Bool :=
  d.decision = .approve || d.decision = .reject

/-- The columns of `approvals_decisions_decider_idx`. -/
def ApprovalDecision.ballot (d : ApprovalDecision) : RequestKey × Option String :=
  (d.key, d.deciderAccountId)

/-- The tables, and the callbacks of the process in the order they were registered in. -/
structure ApprovalTables where
  requests : List ApprovalRequest := []
  eligible : List EligibleRow := []
  decisions : List ApprovalDecision := []
  audit : List GrantIssued := []
  callbacks : List (String × ℕ) := []
  /-- The primary key of the requests, and `approvals_decisions_decider_idx`. -/
  ids : (requests.map (·.id)).Nodup := by exact List.nodup_nil
  deciders : ((decisions.filter (·.votes)).map (·.ballot)).Nodup := by exact List.nodup_nil

/-! ### Who may decide -/

structure ApprovalRequirement where
  roleKey : Option String := none
  scope : Option String := none
  decisions : Option Decimal := none
  expiresInDays : Option Decimal := none

/-- A name a requirement may leave out. -/
def requirementName (value : Option String) (field : String) (maximum : ℕ) : Except String (Option String) :=
  match value with
  | none => .ok none
  | some value => if value = "" then .ok none else some <$> bounded value field 1 maximum

def normalizeRequirement (requirement : ApprovalRequirement) (defaultExpiryDays : Decimal) :
    Except String ApprovalRequirementRecord := do
  let roleKey ← requirementName requirement.roleKey "requirement.roleKey" 64
  let scope ← requirementName requirement.scope "requirement.scope" 96
  if roleKey = none ∧ scope = none then
    .error (approvalsServiceError "APPROVAL_REQUIREMENT_INVALID"
      "A requirement must name a role key or a scope." 400)
  else do
    let decisions ← boundedInteger (requirement.decisions.getD (.ofNat 1)) "requirement.decisions" 1
      APPROVAL_LIMITS.decisions
    let expiresInDays ← boundedInteger (requirement.expiresInDays.getD defaultExpiryDays)
      "requirement.expiresInDays" 1 APPROVAL_LIMITS.expiryDays
    return ⟨roleKey, scope, decisions, expiresInDays⟩

def memberSatisfies (requirement : ApprovalRequirementRecord) (member : ApprovalMember)
    (requesterAccountId : String) : Bool :=
  member.accountId ≠ requesterAccountId &&
    requirement.roleKey.all (fun roleKey => member.roleKey = roleKey) &&
    requirement.scope.all fun scope => member.scopes.contains scope

def resolveEligible (requirement : ApprovalRequirementRecord) (members : List ApprovalMember)
    (requesterAccountId : String) : Except String (List String) :=
  let eligible := sortStrings ((members.filter fun member =>
    memberSatisfies requirement member requesterAccountId).map (·.accountId))
  let unique := eligible.eraseDups
  let needed := requirement.decisions
  let named := unique.length
  let limit := APPROVAL_LIMITS.eligible
  if unique.length = 0 then
    .error (approvalsServiceError "APPROVAL_NO_ELIGIBLE_DECIDER"
      "No member of this workspace satisfies the requirement." 409)
  else if named < needed then
    .error (approvalsServiceError "APPROVAL_ELIGIBLE_INSUFFICIENT"
      s!"The requirement needs {needed} decisions and {named} members can give one." 409)
  else if limit < named then
    .error (approvalsServiceError "APPROVAL_ELIGIBLE_TOO_MANY"
      s!"A requirement may name at most {limit} deciders." 409)
  else .ok unique

/-! ### Grants -/

/-- The key grants are signed with, if the service has one. -/
class ApprovalGrants where
  keyId : Option String

/-- `INPUT_DIGEST`. -/
def isInputDigest (cs : List Char) : Bool :=
  cs.length = 64 && cs.all fun c => isDigit c || (97 ≤ c.toNat && c.toNat ≤ 102)

/-- `decodeCapabilitySubjectRef`: the capability and the digest of its input. -/
def decodeCapabilitySubjectRef (subjectRef : String) : Option (String × String) :=
  match subjectRef.dropPrefix? "capability:" with
  | none => none
  | some rest =>
    -- the last separator may be that of the head, which leaves no capability
    let parts := rest.copy.toList.splitOn ':'
    let capabilityId := List.intercalate [':'] parts.dropLast
    let inputDigest := parts.getLastD []
    if isIdentifier (String.ofList capabilityId) && capabilityId.length ≤ 200 - 11 - 1 - 64 &&
        isInputDigest inputDigest then
      some (String.ofList capabilityId, String.ofList inputDigest)
    else none

def grantIssued [ApprovalGrants] (id : String) (resolved : ApprovalRequest) : Option GrantIssued :=
  match ApprovalGrants.keyId, decodeCapabilitySubjectRef resolved.subjectRef, resolved.resolvedAt with
  | some keyId, some (capabilityId, inputDigest), some resolvedAt =>
    if resolved.status = .approved then
      some ⟨id, resolved.tenantId, resolved.id, capabilityId, inputDigest, keyId,
        resolvedAt + APPROVAL_GRANT_TTL_MS, resolvedAt⟩
    else none
  | _, _, _ => none

/-! ### Transactions -/

/-- What a decision makes of its request, by the decisions there are behind it: the `resolve` its
operation passes. -/
def resolve (kind : ApprovalDecisionKind) (decisionsNeeded : ℕ) (decisions : List ApprovalDecision) :
    Option ApprovalStatus :=
  match kind with
  | .reject => some .rejected
  | .cancel => some .cancelled
  | .expire => some .expired
  | .approve =>
    if decisionsNeeded ≤ decisions.countP fun d => d.decision = .approve then some .approved else none

inductive DecideApprovalResult
  | recorded (request : ApprovalRequest) (decisions : List ApprovalDecision) (resolved : Bool)
  | notPending (request : ApprovalRequest)
  | duplicate (request : ApprovalRequest)
  | notFound

namespace ApprovalTables

variable (s : ApprovalTables)

/-- The request of a key. -/
def request (k : RequestKey) : Option ApprovalRequest :=
  s.requests.find? fun row => row.key = k

def findPendingBySubject (tenantId subjectModule subjectRef : String) : Option ApprovalRequest :=
  s.requests.find? fun row => row.tenantId = tenantId && row.subjectModule = subjectModule &&
    row.subjectRef = subjectRef && row.status = .pending

/-- The insert of a request conflicts: with its primary key, or with the request that is pending
for its subject. -/
def conflicts (request : ApprovalRequest) : Bool :=
  s.requests.any fun row => row.id = request.id ||
    (row.status = .pending && request.status = .pending && row.tenantId = request.tenantId &&
      row.subjectModule = request.subjectModule && row.subjectRef = request.subjectRef)

theorem id_of_conflicts {request : ApprovalRequest} (h : s.conflicts request = false) :
    request.id ∉ s.requests.map (·.id) := by
  intro hm
  obtain ⟨row, hr, hid⟩ := List.mem_map.1 hm
  have hn := List.any_eq_false.1 h row hr
  simp [hid] at hn

/-- `create`, where it inserts: the request and the snapshot, or nothing. -/
def create (request : ApprovalRequest) (eligibleAccountIds : List String) :
    Except String (Bool × ApprovalTables) :=
  if h : s.conflicts request = true then .ok (false, s)
  else if eligibleAccountIds.any fun accountId =>
      s.eligible.contains ⟨request.tenantId, request.id, accountId⟩ then
    .error "error: duplicate key value violates unique constraint \"approvals_eligible_pkey\""
  else
    .ok (true, { s with
      requests := s.requests ++ [request]
      eligible := s.eligible ++ eligibleAccountIds.map fun accountId =>
        ⟨request.tenantId, request.id, accountId⟩
      ids := by
        rw [List.map_append]
        refine s.ids.append (List.nodup_singleton _) ?_
        exact List.disjoint_singleton.2 (s.id_of_conflicts (Bool.not_eq_true _ ▸ h)) })

def isSnapshotDecider (tenantId requestId accountId : String) : Bool :=
  s.eligible.contains ⟨tenantId, requestId, accountId⟩

/-- The insert of a decision conflicts: with its primary key, or with the decision its account
has made. -/
def decided (d : ApprovalDecision) : Bool :=
  s.decisions.any fun other => other.id = d.id || (other.votes && d.votes && other.ballot = d.ballot)

theorem ballot_of_decided {d : ApprovalDecision} (h : s.decided d = false) (hv : d.votes = true) :
    d.ballot ∉ (s.decisions.filter (·.votes)).map (·.ballot) := by
  intro hm
  obtain ⟨other, ho, hb⟩ := List.mem_map.1 hm
  obtain ⟨ho, ho'⟩ := List.mem_filter.1 ho
  have hn := List.any_eq_false.1 h other ho
  simp [ho', hv, hb] at hn

/-- A decision is appended. -/
def insertDecision (d : ApprovalDecision) (h : s.decided d = false) : ApprovalTables :=
  { s with
    decisions := s.decisions ++ [d]
    deciders := by
      rw [List.filter_append, List.map_append]
      cases hvotes : d.votes with
      | false =>
        rw [List.filter_cons_of_neg (by simp [hvotes]), List.filter_nil, List.map_nil, List.append_nil]
        exact s.deciders
      | true =>
        rw [List.filter_cons_of_pos hvotes, List.filter_nil]
        refine s.deciders.append (List.nodup_singleton _) ?_
        exact List.disjoint_singleton.2 (s.ballot_of_decided h hvotes) }

/-- The decisions on a request, in the order they were made in. -/
def decisionsOn (k : RequestKey) : List ApprovalDecision :=
  s.decisions.filter fun d => d.key = k

def listDecisions (k : RequestKey) : List ApprovalDecision :=
  (s.decisionsOn k).insertionSort fun d d' =>
    d.decidedAt < d'.decidedAt ∨ d.decidedAt = d'.decidedAt ∧ d.id ≤ d'.id

def resolveRequest (k : RequestKey) (status : ApprovalStatus) (resolvedAt : ℤ) : ApprovalTables :=
  { s with
    requests := Table.update (fun row => row.key = k && row.status = .pending)
      (fun row => row.resolved status resolvedAt) s.requests
    ids := by
      have hid : ∀ row : ApprovalRequest, (row.resolved status resolvedAt).id = row.id := fun _ => rfl
      rw [Table.map_update _ hid]
      exact s.ids }

def insertAudit (entry : GrantIssued) : Except String ApprovalTables :=
  if s.audit.any fun other => other.id = entry.id then
    .error "error: duplicate key value violates unique constraint \"approvals_audit_pkey\""
  else .ok { s with audit := s.audit ++ [entry] }

/-- `decide`, with the `resolve` and the `audit` of the service. -/
def decide [ApprovalGrants] (d : ApprovalDecision) (decisionsNeeded : ℕ) (resolvedAt : ℤ) (auditId : String) :
    Except String (DecideApprovalResult × ApprovalTables) :=
  match s.request d.key with
  | none => .ok (.notFound, s)
  | some request =>
    if request.status ≠ .pending then .ok (.notPending request, s)
    else if h : s.decided d = true then .ok (.duplicate request, s)
    else
      let s := s.insertDecision d (Bool.not_eq_true _ ▸ h)
      let decisions := s.listDecisions d.key
      match resolve d.decision decisionsNeeded decisions with
      | none => .ok (.recorded request decisions false, s)
      | some terminal =>
        let s := s.resolveRequest d.key terminal resolvedAt
        let resolved := request.resolved terminal resolvedAt
        match grantIssued auditId resolved with
        | none => .ok (.recorded resolved decisions true, s)
        | some entry => do
          let s ← s.insertAudit entry
          return (.recorded resolved decisions true, s)

/-- `register` of the callbacks. -/
def register (key : String) (callback : ℕ) : ApprovalTables :=
  let callbacks := s.callbacks.filter fun entry => entry.1 ≠ key
  let callbacks := if APPROVAL_LIMITS.callbacks ≤ callbacks.length then callbacks.tail else callbacks
  { s with callbacks := callbacks ++ [(key, callback)] }

/-- The callback of a key is taken, and forgotten. -/
def takeCallback (key : String) : Option ℕ × ApprovalTables :=
  ((s.callbacks.find? fun entry => entry.1 = key).map (·.2),
    { s with callbacks := s.callbacks.filter fun entry => entry.1 ≠ key })

end ApprovalTables

/-! ### Calls -/

inductive ApprovalNotificationKind
  | approvalRequested
  | approvalDecided
deriving DecidableEq

structure NotificationPublishInput where
  tenantId : String
  kind : ApprovalNotificationKind
  sourceModule : String
  sourceRef : String
  title : String
  body : Option String
  recipients : List String
deriving DecidableEq

structure ApprovalRequestWithDeciders extends ApprovalRequest where
  deciderAccountIds : List String
deriving DecidableEq

def withDeciders (request : ApprovalRequest) (decisions : List ApprovalDecision) :
    ApprovalRequestWithDeciders where
  toApprovalRequest := request
  deciderAccountIds := decisions.filterMap fun d =>
    if request.status.settlingDecision = some d.decision then d.deciderAccountId else none

/-- A transaction, a question to another module, or a step on the callbacks. -/
inductive ApprovalCall
  | defaultExpiryDays (tenantId : String)
  | members (tenantId : String)
  | member (tenantId accountId : String)
  | findPendingBySubject (tenantId subjectModule subjectRef : String)
  | create (request : ApprovalRequest) (eligibleAccountIds : List String)
  | get (tenantId id : String)
  | isSnapshotDecider (tenantId requestId accountId : String)
  | decide (d : ApprovalDecision) (decisionsNeeded : ℕ) (resolvedAt : ℤ) (auditId : String)
  | register (key : String) (callback : ℕ)
  | takeCallback (key : String)
  | runCallback (callback : ℕ) (request : ApprovalRequestWithDeciders)
  | publisher
  | publish (event : NotificationPublishInput)

/-- What a call answers. -/
@[reducible] def ApprovalCall.Answer : ApprovalCall → Type
  | .defaultExpiryDays _ => Decimal
  | .members _ => List ApprovalMember
  | .member .. => Option ApprovalMember
  | .findPendingBySubject .. => Option ApprovalRequest
  | .create .. => Bool
  | .get .. => Option ApprovalRequest
  | .isSnapshotDecider .. => Bool
  | .decide .. => DecideApprovalResult
  | .takeCallback _ => Option ℕ
  | .publisher => Bool
  | _ => Unit

/-- What a call answers that is not asked of the tables, and how it ends: it fails, before or
after it was committed, or it is answered. -/
structure ApprovalChoice where
  fails : Option (Bool × String) := none
  expiryDays : Decimal := .ofNat 1
  members : List ApprovalMember := []
  member : Option ApprovalMember := none
  publisher : Bool := true

/-- What a transaction answers and leaves. -/
def ApprovalTables.committed {α : Type} (s : ApprovalTables) :
    Except String (α × ApprovalTables) → Except String α × ApprovalTables
  | .ok (a, s') => (.ok a, s')
  | .error e => (.error e, s)

/-- What a call does where it does not fail. -/
def ApprovalCall.perform [ApprovalGrants] (c : ApprovalCall) (choice : ApprovalChoice) (s : ApprovalTables) :
    Except String c.Answer × ApprovalTables :=
  match c with
  | .defaultExpiryDays _ => (.ok choice.expiryDays, s)
  | .members _ => (.ok choice.members, s)
  | .member .. => (.ok choice.member, s)
  | .findPendingBySubject tenantId subjectModule subjectRef =>
    (.ok (s.findPendingBySubject tenantId subjectModule subjectRef), s)
  | .create request eligibleAccountIds => s.committed (s.create request eligibleAccountIds)
  | .get tenantId id => (.ok (s.request ⟨tenantId, id⟩), s)
  | .isSnapshotDecider tenantId requestId accountId =>
    (.ok (s.isSnapshotDecider tenantId requestId accountId), s)
  | .decide d decisionsNeeded resolvedAt auditId =>
    s.committed (s.decide d decisionsNeeded resolvedAt auditId)
  | .register key callback => (.ok (), s.register key callback)
  | .takeCallback key => (.ok (s.takeCallback key).1, (s.takeCallback key).2)
  | .runCallback .. => (.ok (), s)
  | .publisher => (.ok choice.publisher, s)
  | .publish _ => (.ok (), s)

/-- The call stays in the process, where it does not fail. -/
def ApprovalCall.inProcess : ApprovalCall → Bool
  | .register .. => true
  | .takeCallback _ => true
  | _ => false

/-- A call, answered. -/
def ApprovalCall.serve [ApprovalGrants] (c : ApprovalCall) (s : ApprovalTables) (choice : ApprovalChoice) :
    Prog.Reply ApprovalCall.Answer c × ApprovalTables :=
  match choice.fails with
  | none => c.perform choice s
  | some (kept, error) =>
    if c.inProcess then c.perform choice s
    else (.error error, if kept then (c.perform choice s).2 else s)

/-- A call with its reply. -/
abbrev ApprovalEntry :=
  Σ c, Prog.Reply ApprovalCall.Answer c

/-- A program of calls. -/
abbrev ApprovalService (α : Type) :=
  Prog ApprovalCall (Prog.Reply ApprovalCall.Answer) α

/-- A call of a program. -/
def approvalCall (c : ApprovalCall) : ApprovalService c.Answer :=
  Prog.need c

/-! ### Notifications and callbacks -/

/-- The first characters of a text, `clamp`. -/
def clamp (value : String) (limit : ℕ) : String :=
  if limit < utf16Length value then String.ofList (value.toList.take limit) else value

/-- Publish to batches of recipients; a failure ends it. -/
def publishBatches (event : List String → NotificationPublishInput) : List (List String) → ApprovalService Unit
  | [] => .pure ()
  | batch :: batches =>
    .call (.publish (event (batch.map fun recipient => clamp recipient 128))) fun
      | .ok _ => publishBatches event batches
      | .error _ => .pure ()

/-- `publishApprovalEvent`, which never rejects. -/
def publishApprovalEvent (input : NotificationPublishInput) : ApprovalService Unit :=
  if input.recipients = [] then .pure ()
  else
    .call .publisher fun
      | .ok true =>
        publishBatches (fun recipients =>
          { input with
            sourceModule := clamp input.sourceModule 64, sourceRef := clamp input.sourceRef 200
            title := clamp input.title 200, body := input.body.map fun body => clamp body 4000
            recipients }) (input.recipients.toChunks 64)
      | _ => .pure ()

/-- The key of a callback. -/
def callbackKey (k : RequestKey) : String :=
  k.tenantId ++ "::" ++ k.id

/-- `run` of the callbacks; a callback that fails is let go. -/
def runCallbacks (request : ApprovalRequestWithDeciders) : ApprovalService Unit := do
  let callback ← approvalCall (.takeCallback (callbackKey request.key))
  match callback with
  | none => .pure ()
  | some callback => .call (.runCallback callback request) fun _ => .pure ()

/-! ### Operations -/

structure OpenApprovalInput where
  tenantId : String
  subjectModule : String
  subjectRef : String
  permission : String
  action : String
  title : String
  summary : Option String := none
  requesterAccountId : String
  requirement : ApprovalRequirement
  onResolved : Option ℕ := none

/-- What an operation draws and reads of its clock. -/
structure Draws where
  id : String
  auditId : String := ""
  now : ℤ := 0
  decidedAt : ℤ := 0

/-- A callback is registered, if there is one. -/
def registerCallback (k : RequestKey) : Option ℕ → ApprovalService Unit
  | none => .pure ()
  | some callback => approvalCall (.register (callbackKey k) callback)

/-- What `open` does behind an insert that did not conflict, and behind one that did. -/
def opened (request : ApprovalRequest) (eligible : List String) (onResolved : Option ℕ) (created : Bool) :
    ApprovalService Unit :=
  if created then do
    registerCallback request.key onResolved
    publishApprovalEvent
      { tenantId := request.tenantId, kind := .approvalRequested, sourceModule := "approvals.core"
        sourceRef := request.id, title := request.title, body := request.summary, recipients := eligible }
  else do
    let existing ← approvalCall
      (.findPendingBySubject request.tenantId request.subjectModule request.subjectRef)
    match existing with
    | none => .fail "Error: The approvals request could not be opened."
    | some existing => registerCallback existing.key onResolved

/-- `open`. -/
def openRequest (input : OpenApprovalInput) (draws : Draws) : ApprovalService Unit := do
  let tenantId ← .ofExcept (bounded input.tenantId "tenantId" 1 128)
  let subjectModule ← .ofExcept (bounded input.subjectModule "subjectModule" 1 APPROVAL_LIMITS.subjectModule)
  let subjectRef ← .ofExcept (bounded input.subjectRef "subjectRef" 1 APPROVAL_LIMITS.subjectRef)
  let requesterAccountId ← .ofExcept
    (bounded input.requesterAccountId "requesterAccountId" 1 APPROVAL_LIMITS.accountId)
  let defaultExpiryDays ← approvalCall (.defaultExpiryDays tenantId)
  let requirement ← .ofExcept (normalizeRequirement input.requirement defaultExpiryDays)
  let permission ← .ofExcept (bounded input.permission "permission" 1 APPROVAL_LIMITS.permission)
  let action ← .ofExcept (bounded input.action "action" 1 APPROVAL_LIMITS.action)
  let title ← .ofExcept (bounded input.title "title" 1 APPROVAL_LIMITS.title)
  let summary ← .ofExcept (optionalBounded input.summary "summary" APPROVAL_LIMITS.summary)
  let pending ← approvalCall (.findPendingBySubject tenantId subjectModule subjectRef)
  match pending with
  | some pending => registerCallback pending.key input.onResolved
  | none => do
    let members ← approvalCall (.members tenantId)
    let eligible ← .ofExcept (resolveEligible requirement members requesterAccountId)
    let request : ApprovalRequest :=
      { id := draws.id, tenantId, subjectModule, subjectRef, permission, action, title, summary
        requesterAccountId, requirement, decisionsNeeded := requirement.decisions, status := .pending
        expiresAt := draws.now + requirement.expiresInDays * DAY_MS, resolvedAt := none
        createdAt := draws.now }
    let created ← approvalCall (.create request eligible)
    opened request eligible input.onResolved created

/-- The request was not found. -/
def approvalNotFound : String :=
  approvalsServiceError "APPROVAL_NOT_FOUND" "The approval request was not found." 404

/-- The request is settled. -/
def approvalNotPending (status : ApprovalStatus) : String :=
  let text := status.text
  approvalsServiceError "APPROVAL_NOT_PENDING" s!"The request is already {text}." 409

/-- The event of a request that was decided. -/
def publishDecided (request : ApprovalRequest) : ApprovalService Unit :=
  let text := request.status.text
  publishApprovalEvent
    { tenantId := request.tenantId, kind := .approvalDecided, sourceModule := "approvals.core"
      sourceRef := request.id, title := request.title, body := some s!"The request is {text}."
      recipients := [request.requesterAccountId] }

/-- The event, where its requester is to be notified. -/
def notify (request : ApprovalRequest) (notifyRequester : Bool) : ApprovalService Unit :=
  if notifyRequester then publishDecided request else .pure ()

/-- What follows a request that was resolved. -/
def settled (request : ApprovalRequest) (decisions : List ApprovalDecision) (notifyRequester : Bool) :
    ApprovalService Unit := do
  let _ ← notify request notifyRequester
  runCallbacks (withDeciders request decisions)

def record (request : ApprovalRequest) (d : ApprovalDecision) (auditId : String) (notifyRequester : Bool) :
    ApprovalService Unit := do
  let result ← approvalCall (.decide d request.decisionsNeeded d.decidedAt auditId)
  match result with
  | .notFound => .fail approvalNotFound
  | .notPending request => .fail (approvalNotPending request.status)
  | .duplicate _ =>
    .fail (approvalsServiceError "APPROVAL_ALREADY_DECIDED" "You already decided this request." 409)
  | .recorded request decisions resolved =>
    if resolved then settled request decisions notifyRequester else .pure ()

def existing (tenantId id : String) : ApprovalService ApprovalRequest := do
  let tenantId ← .ofExcept (bounded tenantId "tenantId" 1 128)
  let id ← .ofExcept (bounded id "id" 1 128)
  let request ← approvalCall (.get tenantId id)
  match request with
  | none => .fail approvalNotFound
  | some request => .pure request

def canRead (request : ApprovalRequest) (accountId : String) (manage : Bool) : ApprovalService Bool :=
  if manage || request.requesterAccountId = accountId then .pure true
  else approvalCall (.isSnapshotDecider request.tenantId request.id accountId)

def assertPending (request : ApprovalRequest) : ApprovalService Unit :=
  if request.status ≠ .pending then .fail (approvalNotPending request.status) else .pure ()

/-- What `decide` may be asked to record. -/
inductive Verdict
  | approve
  | reject
deriving DecidableEq

/-- The kind of the decision. -/
def Verdict.kind : Verdict → ApprovalDecisionKind
  | .approve => .approve
  | .reject => .reject

/-- The decision of a member. -/
def memberDecision (request : ApprovalRequest) (accountId : String) (verdict : Verdict)
    (comment : Option String) (draws : Draws) : ApprovalDecision where
  id := draws.id
  tenantId := request.tenantId
  requestId := request.id
  deciderAccountId := some accountId
  decision := verdict.kind
  comment
  decidedAt := draws.decidedAt
  expires := by cases verdict <;> simp [Verdict.kind]

/-- The cancellation of an account. -/
def cancelDecision (request : ApprovalRequest) (accountId : String) (draws : Draws) : ApprovalDecision where
  id := draws.id
  tenantId := request.tenantId
  requestId := request.id
  deciderAccountId := some accountId
  decision := .cancel
  comment := none
  decidedAt := draws.decidedAt
  expires := by simp

/-- The expiry of a request. -/
def expireDecision (request : ApprovalRequest) (draws : Draws) : ApprovalDecision where
  id := draws.id
  tenantId := request.tenantId
  requestId := request.id
  deciderAccountId := none
  decision := .expire
  comment := none
  decidedAt := draws.decidedAt
  expires := by simp

/-- `decide`. -/
def decideRequest (tenantId id accountId : String) (verdict : Verdict) (comment : Option String) (manage : Bool)
    (draws : Draws) : ApprovalService Unit := do
  let request ← existing tenantId id
  let member ← approvalCall (.member request.tenantId accountId)
  match member.filter fun member => memberSatisfies request.requirement member request.requesterAccountId with
  | none => do
    let readable ← canRead request accountId manage
    if readable then do
      assertPending request
      .fail (approvalsServiceError "APPROVAL_NOT_ELIGIBLE" "You may not decide this request." 403)
    else .fail approvalNotFound
  | some decider => do
    assertPending request
    let comment ← .ofExcept (optionalBounded comment "comment" APPROVAL_LIMITS.comment)
    record request (memberDecision request decider.accountId verdict comment draws) draws.auditId true

/-- `cancel`. -/
def cancelRequest (tenantId id actorAccountId : String) (manage : Bool) (draws : Draws) :
    ApprovalService Unit := do
  let actor ← .ofExcept (bounded actorAccountId "actorAccountId" 1 APPROVAL_LIMITS.accountId)
  let request ← existing tenantId id
  let readable ← canRead request actor manage
  if readable then do
    assertPending request
    if !manage && actor ≠ request.requesterAccountId then
      .fail (approvalsServiceError "APPROVAL_NOT_CANCELLABLE"
        "Only the requester or a member who may manage requests can cancel this request." 403)
    else record request (cancelDecision request actor draws) draws.auditId false
  else .fail approvalNotFound

def expireRequest (tenantId id : String) (draws : Draws) : ApprovalService Unit := do
  let request ← approvalCall (.get tenantId id)
  match request with
  | none => .pure ()
  | some request =>
    if request.status ≠ .pending then .pure ()
    else if draws.now < request.expiresAt then .pure ()
    else record request (expireDecision request draws) draws.auditId true

/-- An operation, as its caller makes it. -/
inductive ApprovalOperation
  | openRequest (input : OpenApprovalInput) (draws : Draws)
  | decide (tenantId id accountId : String) (verdict : Verdict) (comment : Option String) (manage : Bool)
      (draws : Draws)
  | cancel (tenantId id actorAccountId : String) (manage : Bool) (draws : Draws)
  | expire (tenantId id : String) (draws : Draws)

/-- The program of an operation. -/
def ApprovalOperation.program : ApprovalOperation → ApprovalService Unit
  | .openRequest input draws => Approvals.openRequest input draws
  | .decide tenantId id accountId verdict comment manage draws =>
    decideRequest tenantId id accountId verdict comment manage draws
  | .cancel tenantId id actorAccountId manage draws => cancelRequest tenantId id actorAccountId manage draws
  | .expire tenantId id draws => expireRequest tenantId id draws

/-- An operation and its process. -/
abbrev ApprovalProcess :=
  ApprovalOperation × Prog.Recorded ApprovalCall (Prog.Reply ApprovalCall.Answer) Unit

/-- The operations, by any number of callers. -/
def approvalOperations [ApprovalGrants] :
    Machine ApprovalTables ApprovalProcess ApprovalOperation ApprovalChoice :=
  (Prog.recorder ApprovalOperation.program ApprovalCall.serve).signed

end Flowdular.Approvals
