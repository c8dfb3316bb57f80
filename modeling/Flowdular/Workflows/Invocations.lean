/-
# Invocations of workflows

`src/modules/workflows/src/services/workflows-service.ts`, lines 205-330 and 628-1605: definitions are
created, saved, published, archived and deleted, and runs are enqueued, simulated and retried.
`database-repository.ts`, lines 1218-1523: the transactions behind that.
`src/modules/agents/src/services/agent-service.ts`, lines 1395-1441: which authorization subject an agent
run is accepted with.

A call makes its transactions one by one, and others may come in between; a process is the place its call
has come to.  What is asked of other modules meanwhile is a choice: the reference catalog of a preflight,
the schemas of the actions.  Beside the calls, runs go on, payloads are stored and dropped, and runs are
deleted.
-/

import Flowdular.Kernel.VariableRegistry
import Flowdular.Lib.Crew
import Flowdular.Workflows.Graph
import Flowdular.Workflows.JsonText
import Flowdular.Workflows.EvidencePolicy
import Flowdular.Workflows.Repository

namespace Flowdular.Workflows

open Json (jsonByteSize jsonHash)
open Kernel (Actor normalizeActor trimmed)
open Lib

/-! ### Errors and checks -/

structure WorkflowsServiceError where
  code : String
  message : String
  status : ℕ := 400
  issues : List WorkflowValidationIssue := []
deriving DecidableEq

/-- `bounded`. -/
def boundedField (value field : String) (least most : ℕ) : Except WorkflowsServiceError String :=
  if utf16Length (trimmed value) < least ∨ most < utf16Length (trimmed value) then
    .error ⟨"WORKFLOW_INPUT_INVALID", field ++ " must contain between " ++ toString least ++ " and " ++
      toString most ++ " characters.", 400, []⟩
  else .ok (trimmed value)

/-- `KEY`: `/^[a-z][a-z0-9-]{2,119}$/`. -/
def isWorkflowKey (key : String) : Bool :=
  match key.toList with
  | [] => false
  | c :: cs =>
    isLowerLetter c && 2 ≤ cs.length && cs.length ≤ 119 &&
      cs.all fun c => isLowerLetter c || isDigit c || c = '-'

def trustedActor (actor : Actor) : Except WorkflowsServiceError Actor :=
  match normalizeActor actor with
  | some actor => .ok actor
  | none => .error ⟨"WORKFLOW_ACTOR_INVALID", "The workflow actor is invalid.", 400, []⟩

/-- The stable id of an actor. -/
def actorId : Actor → String
  | .user id _ => id
  | .agent id _ _ => id
  | .service id _ _ => id

/-- The user whose authority an actor acts with, where it says. -/
def derivedSubject : Actor → Option Actor
  | .user id label => some (.user id label)
  | .agent .. => none
  | .service _ _ configuredBy => some configuredBy

/-- The actor is a user. -/
def isUser : Actor → Bool
  | .user .. => true
  | _ => false

/-- The subject that is supplied, normalized, else the one of the actor. -/
def normalizedSubject (supplied derived : Option Actor) : Option Actor :=
  match supplied with
  | some supplied => normalizeActor supplied
  | none => derived

def trustedAuthorizationSubject (actor : Actor) (subject : Option Actor) :
    Except WorkflowsServiceError Actor := do
  let trusted ← trustedActor actor
  let derived := derivedSubject trusted
  match normalizedSubject subject derived with
  | none =>
    .error ⟨"WORKFLOW_AUTHORIZATION_SUBJECT_REQUIRED",
      "Agent-authored workflow runs require an explicit delegated user.", 403, []⟩
  | some normalized =>
    if isUser normalized = false then
      .error ⟨"WORKFLOW_AUTHORIZATION_SUBJECT_REQUIRED",
        "Agent-authored workflow runs require an explicit delegated user.", 403, []⟩
    else if derived.any fun user => actorId normalized ≠ actorId user then
      .error ⟨"WORKFLOW_AUTHORIZATION_SUBJECT_INVALID",
        "The delegated user does not match the workflow actor authority.", 403, []⟩
    else .ok normalized

def requirePermission (permissions : List String) (permission : String) :
    Except WorkflowsServiceError Unit :=
  if permission ∈ permissions then .ok ()
  else .error ⟨"WORKFLOW_PERMISSION_DENIED", "The workflow permission is required.", 403, []⟩

/-- `requirePermission` of each. -/
def requirePermissions (permissions : List String) : List String → Except WorkflowsServiceError Unit
  | [] => .ok ()
  | permission :: rest => do
    requirePermission permissions permission
    requirePermissions permissions rest

def runsExecute : String :=
  "workflows.runs.execute"

/-- `[...new Set(values)].sort()`. -/
def sortedSet (values : List String) : List String :=
  sortStrings values.dedup

/-! ### Tables -/

/-- A row of `workflow_definitions`. -/
structure WorkflowDefinition where
  id : String
  tenantId : String
  key : String
  name : String
  description : String
  archived : Bool := false
  currentDraftRevision : ℕ := 1
  publishedRevision : Option ℕ := none
deriving DecidableEq

/-- A row of `workflow_revisions`. -/
structure WorkflowRevision where
  tenantId : String
  workflowId : String
  revision : ℕ
  graph : WorkflowGraph
  graphChecksum : String
  compiledOrder : List String
  published : Bool := false

/-- A row of `workflow_runs`: what a run is of, and who runs it. -/
structure WorkflowRunRecord where
  id : String
  tenantId : String
  workflowId : String
  workflowKey : String
  workflowName : String
  workflowRevision : Option ℕ
  graphChecksum : String
  graph : WorkflowGraph
  compiledOrder : List String
  mode : WorkflowRunMode
  status : WorkflowRunStatus := .queued
  actor : Actor
  authorizationSubject : Option Actor
  permissionSnapshot : List String
  permissionDigest : String
  inputHash : String
  inputPayloadId : String := ""
  idempotencyKey : Option String := none
  totalNodes : ℕ

/-- A row of `workflow_payloads`, with what its ciphertext decrypts to. -/
structure ExecutionPayload where
  id : String
  tenantId : String
  runId : String
  value : Json

/-- The tables.  Which identifiers were drawn is a history variable: only `randomUUID` reads it. -/
structure WorkflowTables where
  definitions : List WorkflowDefinition := []
  revisions : List WorkflowRevision := []
  runs : List WorkflowRunRecord := []
  payloads : List ExecutionPayload := []
  drawn : List String := []

namespace WorkflowTables

variable (s : WorkflowTables)

/-- `findDefinition`. -/
def definition? (tenantId workflowId : String) : Option WorkflowDefinition :=
  s.definitions.find? fun row => row.tenantId = tenantId && row.id = workflowId

/-- `findDefinitionByKey`. -/
def definitionByKey? (tenantId key : String) : Option WorkflowDefinition :=
  s.definitions.find? fun row => row.tenantId = tenantId && row.key = key

/-- `findRevision`. -/
def revision? (tenantId workflowId : String) (revision : ℕ) : Option WorkflowRevision :=
  s.revisions.find? fun row =>
    row.tenantId = tenantId && row.workflowId = workflowId && row.revision = revision

/-- `definitionDetail`: the definition and its draft; a missing draft is a failure. -/
def definitionDetail (tenantId workflowId : String) :
    Option (WorkflowDefinition × Option WorkflowRevision) :=
  (s.definition? tenantId workflowId).map fun definition =>
    (definition, s.revision? tenantId workflowId definition.currentDraftRevision)

/-- `getRun`. -/
def run? (tenantId runId : String) : Option WorkflowRunRecord :=
  s.runs.find? fun row => row.tenantId = tenantId && row.id = runId

/-- `findRunByIdempotency`. -/
def runByIdempotency? (tenantId key : String) : Option WorkflowRunRecord :=
  s.runs.find? fun row => row.tenantId = tenantId && row.idempotencyKey = some key

/-- `readExecutionPayload`. -/
def payload? (tenantId runId payloadId : String) : Option Json :=
  (s.payloads.find? fun row =>
    row.tenantId = tenantId && row.runId = runId && row.id = payloadId).map (·.value)

/-- `createDefinition`; the key is unique in its workspace. -/
def createDefinition (definition : WorkflowDefinition) (revision : WorkflowRevision) :
    Option WorkflowTables :=
  if (s.definitionByKey? definition.tenantId definition.key).isSome then none
  else some { s with
    definitions := s.definitions ++ [definition]
    revisions := s.revisions ++ [revision]
    drawn := definition.id :: s.drawn }

/-- The definitions of a key, changed. -/
def updateDefinition (tenantId workflowId : String)
    (change : WorkflowDefinition → WorkflowDefinition) : WorkflowTables :=
  { s with definitions := s.definitions.map fun row =>
      if row.tenantId = tenantId && row.id = workflowId then change row else row }

/-- `saveDraft`: the definition is saved over the draft that is expected, with a new revision; `false`
is a conflict. -/
def saveDraft (definition : WorkflowDefinition) (revision : WorkflowRevision) (expectedRevision : ℕ) :
    Option (Bool × WorkflowTables) :=
  match s.definition? definition.tenantId definition.id with
  | none => some (false, s)
  | some row =>
    if row.currentDraftRevision ≠ expectedRevision then some (false, s)
    else if (s.revision? revision.tenantId revision.workflowId revision.revision).isSome then none
    else
      let saved := s.updateDefinition definition.tenantId definition.id fun row =>
        { row with name := definition.name, description := definition.description
                   currentDraftRevision := revision.revision }
      some (true, { saved with revisions := s.revisions ++ [revision] })

/-- `publish`: the draft that is expected is published; `false` is a conflict or a missing
definition. -/
def publish (tenantId workflowId : String) (expectedRevision : ℕ) : Bool × WorkflowTables :=
  match s.definition? tenantId workflowId with
  | none => (false, s)
  | some definition =>
    if definition.currentDraftRevision ≠ expectedRevision then (false, s)
    else
      let marked := (s.revision? tenantId workflowId expectedRevision).any fun row => !row.published
      if !marked && definition.publishedRevision ≠ some expectedRevision then (false, s)
      else
        let published := s.updateDefinition tenantId workflowId fun row =>
          { row with publishedRevision := some expectedRevision }
        (true, { published with
          revisions := s.revisions.map fun row =>
            if row.tenantId = tenantId && row.workflowId = workflowId &&
                row.revision = expectedRevision then { row with published := true }
            else row })

/-- `deleteDraft`, where the workflow was neither published nor run. -/
def deleteDraft (tenantId workflowId : String) : Bool × WorkflowTables :=
  match s.definition? tenantId workflowId with
  | none => (false, s)
  | some definition =>
    if definition.publishedRevision.isSome ||
        s.runs.any fun row => row.tenantId = tenantId && row.workflowId = workflowId then (false, s)
    else
      (true, { s with
        definitions := s.definitions.filter fun row => !(row.tenantId = tenantId && row.id = workflowId)
        revisions := s.revisions.filter fun row =>
          !(row.tenantId = tenantId && row.workflowId = workflowId) })

/-- `createRun`: the input is stored under an identifier that is drawn, and the run with it; an
idempotency key is unique in its workspace. -/
def createRun (run : WorkflowRunRecord) (input : Json) (payloadId : String) : Option WorkflowTables :=
  if run.idempotencyKey.any fun key => (s.runByIdempotency? run.tenantId key).isSome then none
  else some { s with
    runs := s.runs ++ [{ run with inputPayloadId := payloadId }]
    payloads := s.payloads ++ [⟨payloadId, run.tenantId, run.id, input⟩]
    drawn := run.id :: payloadId :: s.drawn }

end WorkflowTables

/-- What else befalls the tables: a run goes on, another payload of a run is stored, one is dropped
behind its retention, and runs are deleted with their payloads. -/
inductive RunChange
  | settle (tenantId runId : String) (status : WorkflowRunStatus)
  | store (payload : ExecutionPayload)
  | drop (tenantId runId payloadId : String)
  | delete (tenantId : String) (runIds : List String)

/-- The tables behind a change. -/
def RunChange.apply (s : WorkflowTables) : RunChange → WorkflowTables
  | .settle tenantId runId status =>
    { s with runs := s.runs.map fun row =>
        if row.tenantId = tenantId && row.id = runId then { row with status } else row }
  | .store payload =>
    if payload.id ∈ s.drawn then s
    else { s with payloads := s.payloads ++ [payload], drawn := payload.id :: s.drawn }
  | .drop tenantId runId payloadId =>
    { s with payloads := s.payloads.filter fun row =>
        !(row.tenantId = tenantId && row.runId = runId && row.id = payloadId) }
  | .delete tenantId runIds =>
    { s with
      runs := s.runs.filter fun row => !(row.tenantId = tenantId && row.id ∈ runIds)
      payloads := s.payloads.filter fun row => !(row.tenantId = tenantId && row.runId ∈ runIds) }

/-! ### Requests -/

structure WorkflowInvocationContext where
  tenantId : String
  actor : Actor
  authorizationSubject : Option Actor := none
  permissionSnapshot : List String
deriving DecidableEq

def manualContext (tenantId : String) (actor : Actor) (permissionSnapshot : List String) :
    Except WorkflowsServiceError WorkflowInvocationContext := do
  let trusted ← trustedActor actor
  let subject ← trustedAuthorizationSubject actor none
  return ⟨tenantId, trusted, some subject, sortedSet permissionSnapshot⟩

/-- `CreateWorkflowDefinitionInput`, with its caller. -/
structure CreateRequest where
  tenantId : String
  key : String
  name : String
  description : String
  actor : Actor

/-- The input of `update`. -/
structure UpdateRequest where
  tenantId : String
  workflowId : String
  expectedRevision : ℕ
  name : String
  description : String
  graph : WorkflowGraph

/-- The input of `publish`. -/
structure PublishRequest where
  tenantId : String
  workflowId : String
  expectedRevision : ℕ
  actor : Actor
  permissionSnapshot : List String

/-- `WorkflowEnqueueRequest`. -/
structure EnqueueRequest where
  workflowKey : String
  idempotencyKey : String
  input : Json

/-- `WorkflowSimulationRequest`; of its fixtures, which nodes they are for. -/
structure SimulationRequest where
  workflowId : String
  input : Json
  fixtureNodeIds : List String := []

/-- The input of `retry`. -/
structure RetryRequest where
  tenantId : String
  runId : String
  actor : Actor
  permissionSnapshot : List String

structure WorkflowRunAccepted where
  runId : String
  created : Bool
deriving DecidableEq

/-- A call, or a change of the runs beside the calls. -/
inductive WorkflowRequest
  | create (request : CreateRequest)
  | update (request : UpdateRequest)
  | publish (request : PublishRequest)
  | archive (tenantId workflowId : String) (actor : Actor)
  | delete (tenantId workflowId : String) (actor : Actor)
  | enqueue (request : EnqueueRequest) (context : WorkflowInvocationContext)
  | simulate (request : SimulationRequest) (context : WorkflowInvocationContext)
  | retry (request : RetryRequest)
  | change (change : RunChange)

/-- How a call ended: it was refused, a transaction of it failed, or it was answered. -/
inductive WorkflowOutcome
  | refused (error : WorkflowsServiceError)
  | failed
  | done
  | accepted (run : WorkflowRunAccepted)
deriving DecidableEq

/-- The place a call has come to: what it makes next is a transaction. -/
inductive WorkflowProcess
  | creating (request : CreateRequest)
  | updating (request : UpdateRequest)
  | saving (request : UpdateRequest) (definition : WorkflowDefinition)
  | publishing (request : PublishRequest)
  | marking (request : PublishRequest) (context : WorkflowInvocationContext)
      (definition : WorkflowDefinition) (draft : WorkflowRevision)
  | archiving (tenantId workflowId : String) (actor : Actor)
  | deleting (tenantId workflowId : String) (actor : Actor)
  | enqueuing (request : EnqueueRequest) (context : WorkflowInvocationContext)
  | resolving (request : EnqueueRequest) (context : WorkflowInvocationContext)
      (definition : WorkflowDefinition)
  | matching (request : EnqueueRequest) (context : WorkflowInvocationContext)
      (definition : WorkflowDefinition) (revision : WorkflowRevision)
  | inserting (request : EnqueueRequest) (context : WorkflowInvocationContext)
      (definition : WorkflowDefinition) (revision : WorkflowRevision)
  | simulating (request : SimulationRequest) (context : WorkflowInvocationContext)
  | rehearsing (request : SimulationRequest) (context : WorkflowInvocationContext)
      (definition : WorkflowDefinition) (draft : WorkflowRevision)
  | retrying (request : RetryRequest)
  | reading (request : RetryRequest) (prior : WorkflowRunRecord)
  | renewing (context : WorkflowInvocationContext) (prior : WorkflowRunRecord) (input : Json)
  | changing (change : RunChange)
  | over (outcome : WorkflowOutcome)

/-- What a move leaves open: whether its transaction fails, and whether behind its commit; the
identifiers that are drawn; the reference catalog, where the capabilities are there for one; and the
schemas of the actions. -/
structure WorkflowChoice where
  fails : Option Bool := none
  id : String := ""
  payloadId : String := ""
  catalog : Option WorkflowReferenceCatalog := none
  actionSchemas : WorkflowActionInputSchema := fun _ _ => none

variable [Host]

/-! ### Stages of the calls -/

/-- `digest`. -/
def permissionsDigest (values : List String) : String :=
  "sha256:" ++ Host.sha256 (Json.stringify (.arr ((sortedSet values).map .str)))

/-- `EMPTY_WORKFLOW_GRAPH`. -/
def emptyWorkflowGraph : WorkflowGraph where
  nodes := []
  edges := []
  schemas := []
  raw := .obj [("schemaVersion", .num 1), ("nodes", .arr []), ("edges", .arr []), ("schemas", .obj []),
    ("layout", .obj [])]

/-- `compileWorkflowGraph`, where a thrown `TypeError` is a refusal without a code. -/
def compiled (graph : WorkflowGraph) (catalog : Option WorkflowReferenceCatalog) :
    Except WorkflowsServiceError WorkflowDryRunResponse :=
  match compileWorkflowGraph graph catalog with
  | .ok report => .ok report
  | .error message => .error ⟨"", message, 500, []⟩

def validateInputSize (input : Json) : Except WorkflowsServiceError Unit :=
  if workflowLimits.maxInputBytes < jsonByteSize input then
    .error ⟨"WORKFLOW_LIMIT_EXCEEDED", "Workflow input exceeds 64 KB.", 413, []⟩
  else .ok ()

/-- `run.graph.schemas[schemaId] ?? {}`: what `Object.prototype` and its members are read
as has no keyword. -/
def WorkflowGraph.schemaOf (graph : WorkflowGraph) (schemaId : String) : JsonSchema :=
  ((graph.schemaLookup schemaId).record?).getD []

/-- The input schema of a graph: the first port of its first input node. -/
def inputSchemaId? (graph : WorkflowGraph) : Option String :=
  ((graph.nodes.find? (·.isInput)).bind (·.outputPorts.head?)).map (·.schemaId)

/-- The input has the type of the input node. -/
def validateInput (graph : WorkflowGraph) (input : Json) (message : String) :
    Except WorkflowsServiceError Unit :=
  match inputSchemaId? graph with
  | none => .error ⟨"WORKFLOW_INPUT_INVALID", message, 400, []⟩
  | some schemaId =>
    if schemaId = "" ∨ validateJsonSchema input (graph.schemaOf schemaId) "" ≠ [] then
      .error ⟨"WORKFLOW_INPUT_INVALID", message, 400, []⟩
    else .ok ()

/-- The definition and the revision `create` writes. -/
def createWrite (request : CreateRequest) (id : String) :
    Except WorkflowsServiceError (WorkflowDefinition × WorkflowRevision) := do
  let key ← boundedField request.key "key" 3 120
  if !isWorkflowKey key then
    .error ⟨"WORKFLOW_INPUT_INVALID", "Workflow key must be a lowercase slug.", 400, []⟩
  else
    let tenantId ← boundedField request.tenantId "tenantId" 1 128
    let name ← boundedField request.name "name" 2 160
    let description ← boundedField request.description "description" 0 2000
    let report ← compiled emptyWorkflowGraph none
    let _ ← trustedActor request.actor
    return ({ id, tenantId, key, name, description },
      { tenantId, workflowId := id, revision := 1, graph := emptyWorkflowGraph
        graphChecksum := report.graphChecksum, compiledOrder := report.compiledOrder })

/-- The definition and the revision `update` writes. -/
def saveWrite (request : UpdateRequest) (definition : WorkflowDefinition)
    (actionSchemas : WorkflowActionInputSchema) :
    Except WorkflowsServiceError (WorkflowDefinition × WorkflowRevision) :=
  if definition.archived then
    .error ⟨"WORKFLOW_ARCHIVED", "Archived workflows cannot be edited.", 409, []⟩
  else if (parseWorkflowGraph request.graph.raw).toOption.isNone then
    .error ⟨"WORKFLOW_GRAPH_INVALID",
      "The workflow graph must use the version 1 JSON graph contract.", 400, []⟩
  else do
    let report ← compiled request.graph none
    if secretSchemaValueDiagnostics request.graph ≠ [] then
      .error ⟨"WORKFLOW_SECRET_SCHEMA_VALUE",
        "Schema value cannot be saved near a secret-marked field.", 400, []⟩
    else if mappingTargetDiagnostics request.graph ≠ [] then
      .error ⟨"WORKFLOW_MAPPING_TARGET_UNSAFE",
        "Mapping target cannot be saved without a safe input schema.", 400, []⟩
    else
      match actionBindingDiagnostics request.graph actionSchemas with
      | diagnostic :: _ =>
        .error ⟨diagnostic.code,
          "Action input mapping cannot be saved without a safe schema binding.", 400, []⟩
      | [] =>
        if request.expectedRevision ≠ definition.currentDraftRevision then
          .error ⟨"WORKFLOW_REVISION_CONFLICT", "The workflow draft changed before this save.", 409, []⟩
        else do
          let name ← boundedField request.name "name" 2 160
          let description ← boundedField request.description "description" 0 2000
          return ({ definition with name, description
                                    currentDraftRevision := request.expectedRevision + 1 },
            { tenantId := definition.tenantId, workflowId := definition.id
              revision := request.expectedRevision + 1, graph := request.graph
              graphChecksum := report.graphChecksum, compiledOrder := report.compiledOrder })

/-- What `publish` checks of the draft. -/
def publishChecks (request : PublishRequest) (definition : WorkflowDefinition)
    (draft : WorkflowRevision) (catalog : WorkflowReferenceCatalog) :
    Except WorkflowsServiceError Unit :=
  if definition.currentDraftRevision ≠ request.expectedRevision then
    .error ⟨"WORKFLOW_REVISION_CONFLICT", "The workflow draft changed before publication.", 409, []⟩
  else do
    let report ← compiled draft.graph (some catalog)
    if !report.valid then
      .error ⟨"WORKFLOW_GRAPH_INVALID", "The workflow graph cannot be published.", 400, report.issues⟩
    else requirePermissions request.permissionSnapshot report.requiredPermissions

/-- What `enqueue` makes of its request and its context. -/
def enqueueTrusted (request : EnqueueRequest) (context : WorkflowInvocationContext) :
    Except WorkflowsServiceError (EnqueueRequest × WorkflowInvocationContext) := do
  let tenantId ← boundedField context.tenantId "tenantId" 1 128
  let actor ← trustedActor context.actor
  let subject ← trustedAuthorizationSubject context.actor context.authorizationSubject
  let permissionSnapshot := sortedSet context.permissionSnapshot
  requirePermission permissionSnapshot runsExecute
  let workflowKey ← boundedField request.workflowKey "workflowKey" 3 120
  let idempotencyKey ← boundedField request.idempotencyKey "idempotencyKey" 8 200
  validateInputSize request.input
  return (⟨workflowKey, idempotencyKey, request.input⟩,
    ⟨tenantId, actor, some subject, permissionSnapshot⟩)

/-- What `#publishedDefinition` makes of the definition: which revision is published. -/
def publishedRevisionOf (definition : WorkflowDefinition) : Except WorkflowsServiceError ℕ :=
  if definition.archived then
    .error ⟨"WORKFLOW_ARCHIVED", "Archived workflows cannot start new runs.", 409, []⟩
  else
    match definition.publishedRevision with
    | none => .error ⟨"WORKFLOW_NOT_PUBLISHED", "The workflow has no published revision.", 409, []⟩
    | some revision => .ok revision

/-- A live preflight of a graph: the catalog is there, the graph is valid under it, and what it asks
for is permitted. -/
def livePreflight (graph : WorkflowGraph) (permissions : List String)
    (catalog : Option WorkflowReferenceCatalog) (unavailable invalid : String) :
    Except WorkflowsServiceError Unit :=
  match catalog with
  | none => .error ⟨"WORKFLOW_LIVE_CAPABILITIES_UNAVAILABLE", unavailable, 503, []⟩
  | some catalog => do
    let report ← compiled graph (some catalog)
    if !report.valid then .error ⟨"WORKFLOW_GRAPH_INVALID", invalid, 409, report.issues⟩
    else requirePermissions permissions report.requiredPermissions

/-- What `enqueue` checks of the revision. -/
def enqueueChecks (request : EnqueueRequest) (context : WorkflowInvocationContext)
    (revision : WorkflowRevision) (catalog : Option WorkflowReferenceCatalog) :
    Except WorkflowsServiceError Unit := do
  livePreflight revision.graph context.permissionSnapshot catalog
    "Agent revision and action execution capabilities are unavailable."
    "The published workflow no longer passes live preflight."
  validateInput revision.graph request.input
    "Workflow input does not match the published input schema."

/-- The run `enqueue` writes. -/
def enqueuedRun (request : EnqueueRequest) (context : WorkflowInvocationContext)
    (definition : WorkflowDefinition) (revision : WorkflowRevision) (id : String) :
    WorkflowRunRecord where
  id := id
  tenantId := context.tenantId
  workflowId := definition.id
  workflowKey := definition.key
  workflowName := definition.name
  workflowRevision := some revision.revision
  graphChecksum := revision.graphChecksum
  graph := revision.graph
  compiledOrder := revision.compiledOrder
  mode := .live
  actor := context.actor
  authorizationSubject := context.authorizationSubject
  permissionSnapshot := context.permissionSnapshot
  permissionDigest := permissionsDigest context.permissionSnapshot
  inputHash := jsonHash request.input
  idempotencyKey := some request.idempotencyKey
  totalNodes := revision.graph.nodes.length

/-- What `simulate` checks before it reads. -/
def simulateChecks (request : SimulationRequest) (context : WorkflowInvocationContext) :
    Except WorkflowsServiceError (String × String) := do
  requirePermission context.permissionSnapshot runsExecute
  validateInputSize request.input
  if workflowLimits.maxNodes < request.fixtureNodeIds.length then
    .error ⟨"WORKFLOW_LIMIT_EXCEEDED", "Simulation fixtures exceed the graph node limit.", 413, []⟩
  else
    let tenantId ← boundedField context.tenantId "tenantId" 1 128
    let workflowId ← boundedField request.workflowId "workflowId" 1 128
    return (tenantId, workflowId)

/-- `simulatedCatalog`: all references are taken as available. -/
def simulatedCatalog (graph : WorkflowGraph) : WorkflowReferenceCatalog where
  agent _ _ := { available := true }
  action _ _ := { available := true, risk := some "read", idempotency := some "required" }
  approval := some
    { available := true
      roleKeys := graph.nodes.filterMap fun node =>
        match node.config with
        | .humanApproval requirement _ =>
          match requirement.get? "roleKey" with
          | some (.str roleKey) => some roleKey
          | _ => none
        | _ => none }

/-- The run `simulate` writes. -/
def simulatedRun (request : SimulationRequest) (context : WorkflowInvocationContext)
    (definition : WorkflowDefinition) (draft : WorkflowRevision)
    (catalog : Option WorkflowReferenceCatalog) (id : String) :
    Except WorkflowsServiceError WorkflowRunRecord :=
  if ¬request.fixtureNodeIds.Nodup then
    .error ⟨"WORKFLOW_INPUT_INVALID", "Simulation fixtures must have unique node ids.", 400, []⟩
  else do
    let report ← compiled draft.graph (some (catalog.getD (simulatedCatalog draft.graph)))
    if !report.valid then
      .error ⟨"WORKFLOW_GRAPH_INVALID", "The draft graph cannot be simulated.", 400, report.issues⟩
    else
      validateInput draft.graph request.input
        "Simulation input does not match the workflow input schema."
      let actor ← trustedActor context.actor
      let subject ← trustedAuthorizationSubject context.actor context.authorizationSubject
      return {
        id, tenantId := context.tenantId, workflowId := definition.id, workflowKey := definition.key
        workflowName := definition.name, workflowRevision := some draft.revision
        graphChecksum := draft.graphChecksum, graph := draft.graph
        compiledOrder := report.compiledOrder, mode := .simulate, actor
        authorizationSubject := some subject
        permissionSnapshot := sortedSet context.permissionSnapshot
        permissionDigest := permissionsDigest context.permissionSnapshot
        inputHash := jsonHash request.input, totalNodes := draft.graph.nodes.length }

/-- What `retry` checks before it reads. -/
def retryChecks (request : RetryRequest) : Except WorkflowsServiceError (String × String) := do
  requirePermission request.permissionSnapshot runsExecute
  let tenantId ← boundedField request.tenantId "tenantId" 1 128
  let runId ← boundedField request.runId "runId" 1 128
  return (tenantId, runId)

/-- What `retry` makes of the run before: the context of the new one. -/
def retryContext (request : RetryRequest) (prior : WorkflowRunRecord)
    (catalog : Option WorkflowReferenceCatalog) :
    Except WorkflowsServiceError WorkflowInvocationContext :=
  if prior.mode ≠ .live ∨ prior.status ∉ [.failed, .refused, .cancelled] then
    .error ⟨"WORKFLOW_RUN_TERMINAL",
      "Only a terminal failed, refused, or cancelled live run can be retried.", 409, []⟩
  else do
    let context ← manualContext request.tenantId request.actor request.permissionSnapshot
    livePreflight prior.graph request.permissionSnapshot catalog
      "Agent and action execution capabilities are unavailable."
      "The pinned workflow revision no longer passes live preflight."
    return context

/-- The run `retry` writes: the run before, with another actor and his permissions. -/
def retriedRun (context : WorkflowInvocationContext) (prior : WorkflowRunRecord) (id : String) :
    WorkflowRunRecord :=
  { prior with
    id
    actor := context.actor
    permissionSnapshot := context.permissionSnapshot
    permissionDigest := permissionsDigest context.permissionSnapshot
    status := .queued
    inputPayloadId := ""
    idempotencyKey := some ("retry:" ++ prior.id ++ ":" ++ id) }

/-! ### Moves -/

/-- A stage that is refused ends the call. -/
def staged {α : Type} (s : WorkflowTables) (stage : Except WorkflowsServiceError α)
    (next : α → WorkflowTables × WorkflowProcess) : WorkflowTables × WorkflowProcess :=
  match stage with
  | .ok a => next a
  | .error error => (s, .over (.refused error))

/-- A transaction fails before its commit or behind it, or the call goes on with what it left; `none`
is a violated constraint. -/
def transacted (s : WorkflowTables) (fails : Option Bool)
    (left : Option (WorkflowTables × WorkflowProcess)) : WorkflowTables × WorkflowProcess :=
  match left with
  | none => (s, .over .failed)
  | some (s', p) =>
    match fails with
    | none => (s', p)
    | some true => (s', .over .failed)
    | some false => (s, .over .failed)

/-- The workflow was not found. -/
def notFound : WorkflowOutcome :=
  .refused ⟨"WORKFLOW_NOT_FOUND", "The workflow was not found.", 404, []⟩

/-- What a call does with the detail of a definition. -/
def detailed (detail : Option (WorkflowDefinition × Option WorkflowRevision))
    (next : WorkflowDefinition → WorkflowRevision → WorkflowProcess) : WorkflowProcess :=
  match detail with
  | none => .over notFound
  | some (_, none) => .over .failed
  | some (definition, some draft) => next definition draft

/-- A run is created under identifiers that are drawn. -/
def createdRun (s : WorkflowTables) (choice : WorkflowChoice) (run : WorkflowRunRecord) (input : Json) :
    Option (WorkflowTables × WorkflowProcess) :=
  (s.createRun run input choice.payloadId).map fun s' => (s', .over (.accepted ⟨run.id, true⟩))

/-- What a call does in its next transaction. -/
def workflowStep (s : WorkflowTables) (choice : WorkflowChoice) :
    WorkflowProcess → Option (WorkflowTables × WorkflowProcess)
  | .creating request => some <|
    staged s (createWrite request choice.id) fun (definition, revision) =>
      transacted s choice.fails ((s.createDefinition definition revision).map (·, .over .done))
  | .updating request => some <|
    staged s (do
      let tenantId ← boundedField request.tenantId "tenantId" 1 128
      let workflowId ← boundedField request.workflowId "workflowId" 1 128
      return (tenantId, workflowId)) fun (tenantId, workflowId) =>
      transacted s choice.fails (some (s,
        detailed (s.definitionDetail tenantId workflowId) fun definition _ =>
          .saving request definition))
  | .saving request definition => some <|
    staged s (saveWrite request definition choice.actionSchemas) fun (saved, revision) =>
      transacted s choice.fails ((s.saveDraft saved revision request.expectedRevision).map
        fun (done, s') => (s', .over (if done then .done else
          .refused ⟨"WORKFLOW_REVISION_CONFLICT", "The workflow draft changed before this save.",
            409, []⟩)))
  | .publishing request => some <|
    staged s (do
      let context ← manualContext request.tenantId request.actor request.permissionSnapshot
      if choice.catalog.isNone then
        .error ⟨"WORKFLOW_LIVE_CAPABILITIES_UNAVAILABLE",
          "Agent revision and action execution capabilities are required before publication.", 503,
          []⟩
      else
        let tenantId ← boundedField request.tenantId "tenantId" 1 128
        let workflowId ← boundedField request.workflowId "workflowId" 1 128
        return (context, tenantId, workflowId)) fun (context, tenantId, workflowId) =>
      transacted s choice.fails (some (s,
        detailed (s.definitionDetail tenantId workflowId) (.marking request context)))
  | .marking request _ definition draft =>
    choice.catalog.map fun catalog =>
      staged s (publishChecks request definition draft catalog) fun _ =>
        transacted s choice.fails (some
          ((s.publish request.tenantId request.workflowId request.expectedRevision).2,
            .over (if (s.publish request.tenantId request.workflowId request.expectedRevision).1 then
              .done
            else if (s.definition? request.tenantId request.workflowId).isSome then
              .refused ⟨"WORKFLOW_REVISION_CONFLICT", "The workflow draft changed before publication.",
                409, []⟩
            else notFound)))
  | .archiving tenantId workflowId actor => some <|
    staged s (do
      let tenantId ← boundedField tenantId "tenantId" 1 128
      let workflowId ← boundedField workflowId "workflowId" 1 128
      let _ ← trustedActor actor
      return (tenantId, workflowId)) fun (tenantId, workflowId) =>
      transacted s choice.fails (some
        (s.updateDefinition tenantId workflowId fun row => { row with archived := true },
          .over (if (s.definition? tenantId workflowId).isSome then .done else notFound)))
  | .deleting tenantId workflowId actor => some <|
    staged s (do
      let tenantId ← boundedField tenantId "tenantId" 1 128
      let workflowId ← boundedField workflowId "workflowId" 1 128
      let _ ← trustedActor actor
      return (tenantId, workflowId)) fun (tenantId, workflowId) =>
      transacted s choice.fails (some ((s.deleteDraft tenantId workflowId).2,
        .over (if (s.deleteDraft tenantId workflowId).1 then .done else notFound)))
  | .enqueuing request context => some <|
    staged s (enqueueTrusted request context) fun (request, context) =>
      transacted s choice.fails (some (s,
        match s.definitionByKey? context.tenantId request.workflowKey with
        | none => .over notFound
        | some definition => .resolving request context definition))
  | .resolving request context definition => some <|
    staged s (publishedRevisionOf definition) fun revision =>
      transacted s choice.fails (some (s,
        match s.revision? context.tenantId definition.id revision with
        | none => .over (.refused ⟨"WORKFLOW_RECOVERY_INCONSISTENT",
            "The published workflow revision is missing.", 500, []⟩)
        | some row =>
          if row.published then .matching request context definition row
          else .over (.refused ⟨"WORKFLOW_RECOVERY_INCONSISTENT",
            "The published workflow revision is missing.", 500, []⟩)))
  | .matching request context definition revision => some <|
    staged s (enqueueChecks request context revision choice.catalog) fun _ =>
      transacted s choice.fails (some (s,
        match s.runByIdempotency? context.tenantId request.idempotencyKey with
        | none => .inserting request context definition revision
        | some existing =>
          if existing.workflowId ≠ definition.id ∨ existing.inputHash ≠ jsonHash request.input then
            .over (.refused ⟨"WORKFLOW_IDEMPOTENCY_CONFLICT",
              "The idempotency key belongs to another workflow invocation.", 409, []⟩)
          else .over (.accepted ⟨existing.id, false⟩)))
  | .inserting request context definition revision => some <|
    transacted s choice.fails
      (createdRun s choice (enqueuedRun request context definition revision choice.id) request.input)
  | .simulating request context => some <|
    staged s (simulateChecks request context) fun (tenantId, workflowId) =>
      transacted s choice.fails (some (s,
        detailed (s.definitionDetail tenantId workflowId) (.rehearsing request context)))
  | .rehearsing request context definition draft => some <|
    staged s (simulatedRun request context definition draft choice.catalog choice.id) fun run =>
      transacted s choice.fails (createdRun s choice run request.input)
  | .retrying request => some <|
    staged s (retryChecks request) fun (tenantId, runId) =>
      transacted s choice.fails (some (s,
        match s.run? tenantId runId with
        | none => .over (.refused ⟨"WORKFLOW_RUN_NOT_FOUND", "The workflow run was not found.", 404, []⟩)
        | some prior => .reading request prior))
  | .reading request prior => some <|
    staged s (retryContext request prior choice.catalog) fun context =>
      transacted s choice.fails ((s.payload? request.tenantId prior.id prior.inputPayloadId).map
        fun input => (s, .renewing context prior input))
  | .renewing context prior input => some <|
    transacted s choice.fails (createdRun s choice (retriedRun context prior choice.id) input)
  | .changing change => some (change.apply s, .over .done)
  | .over _ => none

/-- The calls; `randomUUID` draws no identifier twice. -/
def workflowMachine : Machine WorkflowTables WorkflowProcess WorkflowRequest WorkflowChoice where
  enter _ r :=
    match r with
    | .create request => some (.creating request)
    | .update request => some (.updating request)
    | .publish request => some (.publishing request)
    | .archive tenantId workflowId actor => some (.archiving tenantId workflowId actor)
    | .delete tenantId workflowId actor => some (.deleting tenantId workflowId actor)
    | .enqueue request context => some (.enqueuing request context)
    | .simulate request context => some (.simulating request context)
    | .retry request => some (.retrying request)
    | .change change => some (.changing change)
  next s p choice :=
    if choice.id ∈ s.drawn ∨ choice.payloadId ∈ s.drawn ∨ choice.id = choice.payloadId then none
    else workflowStep s choice p
  stop s _ := s

/-! ### The agents module -/

/-- What `enqueueRevisionRun` of the agents module refuses a subject with. -/
def agentSubjectInvalid : String :=
  "INVALID_AUTHORIZATION_SUBJECT"

/-- The authorization subject `enqueueRevisionRun` accepts an agent run with: the one supplied, else
the one of the actor. -/
def agentAuthorizationSubject (actor : Actor) (supplied : Option Actor) : Except String Actor :=
  match normalizeActor actor with
  | none => .error "INVALID_ACTOR"
  | some actor =>
    let derived := derivedSubject actor
    match (supplied.bind normalizeActor).or derived with
    | none => .error agentSubjectInvalid
    | some subject =>
      if isUser subject = false ∨ (derived.any fun user => actorId subject ≠ actorId user) = true then
        .error agentSubjectInvalid
      else .ok subject

/-- The subject the worker's `childContext` of a run is accepted with. -/
def WorkflowRunRecord.agentSubject (run : WorkflowRunRecord) : Except String Actor :=
  agentAuthorizationSubject run.actor run.authorizationSubject

end Flowdular.Workflows
