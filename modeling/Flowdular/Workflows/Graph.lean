/-
# The graph compiler

`src/modules/workflows/src/domain/graph.ts`, lines 25-175 and 176-1385:
`parseWorkflowGraph` and `compileWorkflowGraph`.

The compiler collects issues, all of them errors, and never stops at one; here
each of its loops is the list of issues it pushes, and the issues of a graph are
those lists one after the other (`compileIssues`).  A `Map` filled over the nodes
is a lookup in their list: the last node of an id, as `Map.set` leaves it.
Looking a node type up in `EXPECTED_PORTS` finds a function for a type named
after a member of `Object.prototype`, and spreading its `inputs` throws; that is
the one error of `compileWorkflowGraph`.
-/

import Flowdular.Lib.Kahn
import Flowdular.Lib.Search
import Flowdular.Workflows.GraphSecurity
import Flowdular.Workflows.GraphValues

namespace Flowdular.Workflows

open Json (canonical jsonByteSize)
open Lib (Kahn Search)

/-! ### Parsing -/

mutual

/-- `isJson`: finite depth; every model value is JSON otherwise. -/
def isJson : Json → ℕ → Bool
  | .arr items, depth => depth ≤ 24 && areJson items (depth + 1)
  | .obj fields, depth => depth ≤ 24 && areJsonFields fields (depth + 1)
  | _, depth => depth ≤ 24

/-- `isJson` of every item. -/
def areJson : List Json → ℕ → Bool
  | [], _ => true
  | item :: items, depth => isJson item depth && areJson items depth

/-- `isJson` of every entry. -/
def areJsonFields : List (String × Json) → ℕ → Bool
  | [], _ => true
  | (_, entry) :: fields, depth => isJson entry depth && areJsonFields fields depth

end

/-- `parseWorkflowGraph`: the outermost fields have their types. -/
def parseWorkflowGraph (value : Json) : Except String Json :=
  if value.get? "schemaVersion" ≠ some (.num 1) || !isJson value 0 then
    .error "WORKFLOW_GRAPH_INVALID"
  else
    match value.get? "nodes", value.get? "edges", value.get? "schemas", value.get? "layout" with
    | some (.arr _), some (.arr _), some (.obj _), some (.obj _) => .ok value
    | _, _, _, _ => .error "WORKFLOW_GRAPH_INVALID"

/-! ### Issues -/

/-- `WorkflowValidationLocationV1`. -/
inductive IssueLocation where
  | graph
  | node (nodeId : String) (path : Option String)
  | edge (edgeId : String)
deriving DecidableEq

/-- `WorkflowValidationIssueV1`.  Its severity is always `error`. -/
structure WorkflowValidationIssue where
  code : String
  message : String
  location : IssueLocation := .graph
deriving DecidableEq

/-- An issue when a condition holds. -/
def issueIf (condition : Bool) (issue : WorkflowValidationIssue) : List WorkflowValidationIssue :=
  if condition then [issue] else []

@[simp] theorem issueIf_eq_nil {condition : Bool} {issue : WorkflowValidationIssue} :
    issueIf condition issue = [] ↔ condition = false := by
  cases condition <;> simp [issueIf]

/-! ### The reference catalog -/

/-- What a catalog says of an agent revision; without a tool list it answered a
boolean. -/
structure AgentAvailability where
  available : Bool
  allowedTools : Option (List String) := none

/-- What a catalog says of an action contract. -/
structure ActionAvailability where
  available : Bool
  requiredPermissions : List String := []
  inputSchema : Option JsonSchema := none
  outputSchema : Option JsonSchema := none
  descriptorDigest : Option String := none
  workflowTemplateEffect : Option String := none
  idempotencyProtection : Option String := none
  risk : Option String := none
  idempotency : Option String := none

/-- What a catalog says of approvals. -/
structure ApprovalAvailability where
  available : Bool
  roleKeys : List String

structure WorkflowReferenceCatalog where
  agent : String → ℕ → AgentAvailability
  action : String → ℕ → ActionAvailability
  approval : Option ApprovalAvailability := none

/-- The kinds of reference a report lists. -/
inductive ReferenceKind where
  | agent
  | action
  | schema
  | approval
deriving DecidableEq

/-- `ReferenceKind` as the messages spell it. -/
def ReferenceKind.name : ReferenceKind → String
  | .agent => "agent"
  | .action => "action"
  | .schema => "schema"
  | .approval => "approval"

/-- `WorkflowReferenceSummaryV1`. -/
structure WorkflowReferenceSummary where
  kind : ReferenceKind
  id : String
  version : String
  available : Bool

/-! ### Schemas -/

/-- The keywords `schemaIssues` allows at the top of a schema. -/
def allowedSchemaKeys : List String :=
  ["$id", "title", "description", "type", "properties", "required", "additionalProperties",
    "items", "enum", "const", "minLength", "maxLength", "minimum", "maximum"]

/-- `walk`: a schema may nest 12 levels; fuel 13 at the top.  `top` is
`depth === 0`. -/
def walkSchema (id : String) : ℕ → Bool → Json → List WorkflowValidationIssue
  | 0, _, _ =>
    [{ code := "WORKFLOW_LIMIT_EXCEEDED", message := "Schema " ++ quoted id ++ " is too deep." }]
  | n + 1, _, .arr items => items.flatMap (walkSchema id n false)
  | n + 1, top, .obj fields =>
    fields.flatMap fun (key, entry) =>
      issueIf (top && key ∉ allowedSchemaKeys)
          { code := "WORKFLOW_SCHEMA_KEY_UNSUPPORTED"
            message := "Schema " ++ quoted id ++ " uses unsupported keyword " ++ quoted key ++ "." } ++
        walkSchema id n false entry
  | _ + 1, _, _ => []

variable [Host]

def schemaIssues (id : String) (schema : JsonSchema) : List WorkflowValidationIssue :=
  issueIf (!isIdentifier id)
      { code := "WORKFLOW_SCHEMA_ID_INVALID"
        message := "Schema " ++ quoted id ++ " has an invalid id." } ++
    issueIf (16 * 1024 < jsonByteSize (.obj schema))
      { code := "WORKFLOW_LIMIT_EXCEEDED", message := "Schema " ++ quoted id ++ " exceeds 16 KB." } ++
    walkSchema id 13 true (.obj schema)

/-! ### Nodes -/

/-- `EXPECTED_PORTS`: the input and output ports of a type; `none` for a type it
does not list. -/
def expectedPorts : NodeConfig → Option (List String × List String)
  | .input => some ([], ["data"])
  | .agent .. => some (["input"], ["success", "failure"])
  | .agentDecision .. => some (["input"], ["pass", "fail", "failure"])
  | .typedDecision .. => some (["input"], ["pass", "fail", "failure"])
  | .gate .. => some (["input"], ["pass", "fail"])
  | .validator .. => some (["input"], ["pass", "fail"])
  | .action .. => some (["input"], ["success", "failure"])
  | .humanApproval .. => some (["input"], ["approved"])
  | .merge => some (["items"], ["data"])
  | .output => some (["input"], [])
  | .other _ => none

/-- Whether `EXPECTED_PORTS[node.type]` finds an inherited member. -/
def inheritsPorts : NodeConfig → Bool
  | .other type => type ∈ objectPrototypeNames
  | _ => false

/-- An issue of a node, with an optional path. -/
def nodeIssue (node : WorkflowNode) (code message : String) (path : Option String) :
    WorkflowValidationIssue :=
  { code, message, location := .node node.id path }

/-- `FORBIDDEN_CONFIGURATION_KEYS`. -/
def forbiddenConfigurationKeys : List String :=
  ["eval", "javascript", "script", "sourceCode", "shell", "dynamicImport"]

/-- `inspect`, with the depth limit of 24 as fuel. -/
def inspectConfiguration (node : WorkflowNode) : ℕ → String → Json → List WorkflowValidationIssue
  | 0, path, _ =>
    [nodeIssue node "WORKFLOW_LIMIT_EXCEEDED" "Node configuration exceeds the depth limit."
      (some path)]
  | n + 1, path, .arr items =>
    items.zipIdx.flatMap fun (entry, index) =>
      inspectConfiguration node n (path ++ "/" ++ toString index) entry
  | n + 1, path, .obj fields =>
    fields.flatMap fun (key, entry) =>
      issueIf (key ∈ forbiddenConfigurationKeys)
          (nodeIssue node "WORKFLOW_EXECUTABLE_CONFIGURATION_FORBIDDEN"
            ("Executable configuration field " ++ quoted key ++ " is forbidden.")
            (some (path ++ "/" ++ key))) ++
        inspectConfiguration node n (path ++ "/" ++ key) entry
  | _ + 1, _, _ => []

def configurationIssues (node : WorkflowNode) : List WorkflowValidationIssue :=
  inspectConfiguration node 25 "" node.raw

/-- The issues of the question list of a typed decision; `keys` are those of the
questions before. -/
def questionIssues (node : WorkflowNode) :
    List String → List WorkflowTypedDecisionQuestion → List WorkflowValidationIssue
  | _, [] => []
  | keys, question :: questions =>
    let at' := fun message => nodeIssue node "WORKFLOW_DECISION_NODE_INVALID" message
    if !isQuestionKey question.key || question.key ∈ keys then
      at' ("Node " ++ quoted node.id ++ " repeats or misnames a question.") (some "/questions") ::
        questionIssues node keys questions
    else
      issueIf (question.instruction.toList.all isWhiteSpace || 2000 < utf16Length question.instruction)
          (at' ("Question " ++ quoted question.key ++ " has no usable instruction.")
            (some "/questions")) ++
        (if question.kind = .noul then []
          else
            issueIf (question.answers.length < 2 || 32 < question.answers.length)
                (at' ("Question " ++ quoted question.key ++
                  " must declare between 2 and 32 answers.") (some "/questions")) ++
              issueIf
                (question.answers.any fun answer => answer = "" || 200 < utf16Length answer)
                (at' ("Question " ++ quoted question.key ++ " declares an unusable answer.")
                  (some "/questions"))) ++
        questionIssues node (keys ++ [question.key]) questions

def typedDecisionIssues (node : WorkflowNode) : List WorkflowValidationIssue :=
  match node.config with
  | .typedDecision decidingQuestion questions passAnswer confidenceThreshold statePaths =>
    let at' := fun message => nodeIssue node "WORKFLOW_DECISION_NODE_INVALID" message
    issueIf (questions.length < 1 || 8 < questions.length)
        (at' ("Node " ++ quoted node.id ++ " must ask between 1 and 8 questions.")
          (some "/questions")) ++
      questionIssues node [] questions ++
      (match questions.find? (·.key = decidingQuestion) with
        | none =>
          [at' ("Node " ++ quoted node.id ++ " decides on a question it does not ask.")
            (some "/decidingQuestion")]
        | some deciding =>
          if deciding.kind = .noul then
            [at' ("Question " ++ quoted deciding.key ++
              " answers yes or no and cannot carry a confidence.") (some "/decidingQuestion")]
          else
            issueIf (passAnswer ∉ deciding.answers)
              (at' ("Node " ++ quoted node.id ++ " passes on an answer question " ++
                quoted deciding.key ++ " never declares.") (some "/passAnswer"))) ++
      issueIf (confidenceThreshold.toRat < 0 || 1 < confidenceThreshold.toRat)
        (at' ("Node " ++ quoted node.id ++ " must pin a confidence threshold between 0 and 1.")
          (some "/confidenceThreshold")) ++
      issueIf (statePaths.length < 1 || 32 < statePaths.length)
        (at' ("Node " ++ quoted node.id ++ " must name between 1 and 32 input paths to ask about.")
          (some "/statePaths")) ++
      issueIf (statePaths.any fun path => !isStatePath path)
        (at' ("Node " ++ quoted node.id ++ " names an unusable input path.") (some "/statePaths"))
  | _ => []

/-- A field of an approval requirement that must be an integer from 1 to a
maximum. -/
def boundIssues (node : WorkflowNode) (requirement : Json) (name : String) (max : ℕ) :
    List WorkflowValidationIssue :=
  match requirement.get? name with
  | none => []
  | some value =>
    let good :=
      match value with
      | .num n => n.isSafeInteger && 1 ≤ n.toRat && n.toRat ≤ max
      | _ => false
    issueIf (!good)
      (nodeIssue node "WORKFLOW_APPROVAL_REQUIREMENT_INVALID"
        ("Node " ++ quoted node.id ++ " must set " ++ name ++ " between 1 and " ++ toString max ++ ".")
        (some ("/requirement/" ++ name)))

/-- A text of an approval node that is longer than a request title may be. -/
def titleIssues (node : WorkflowNode) (name : String) (value : Option String) :
    List WorkflowValidationIssue :=
  match value with
  | none => []
  | some value =>
    issueIf (200 < utf16Length value)
      (nodeIssue node "WORKFLOW_LIMIT_EXCEEDED"
        ("Node " ++ quoted node.id ++ " sets a " ++ name ++ " of " ++ toString (utf16Length value) ++
          " characters; approvals.core accepts 200.")
        (some ("/" ++ name)))

/-- A nonempty text field of a requirement. -/
def nonemptyText (requirement : Json) (name : String) : Option String :=
  match requirement.get? name with
  | some (.str text) => if text = "" then none else some text
  | _ => none

def approvalIssues (node : WorkflowNode) (catalog : Option WorkflowReferenceCatalog) :
    List WorkflowValidationIssue :=
  match node.config with
  | .humanApproval requirement prompt =>
    let approval := catalog.bind (·.approval)
    issueIf (!approval.any (·.available))
        (nodeIssue node "WORKFLOW_APPROVAL_CAPABILITY_UNAVAILABLE"
          ("Node " ++ quoted node.id ++ " needs approvals.core, which is not composed.") none) ++
      titleIssues node "prompt" prompt ++
      titleIssues node "label" (some node.label) ++
      if !requirement.isRecord then
        [nodeIssue node "WORKFLOW_APPROVAL_REQUIREMENT_INVALID"
          ("Node " ++ quoted node.id ++ " declares no approval requirement.") (some "/requirement")]
      else
        issueIf ((nonemptyText requirement "roleKey").isNone && (nonemptyText requirement "scope").isNone)
            (nodeIssue node "WORKFLOW_APPROVAL_REQUIREMENT_INVALID"
              ("Node " ++ quoted node.id ++ " must name a role key or a scope.")
              (some "/requirement")) ++
          boundIssues node requirement "decisions" workflowLimits.maxApprovalDecisions ++
          boundIssues node requirement "expiresInDays" workflowLimits.maxApprovalExpiryDays ++
          match nonemptyText requirement "roleKey", approval with
          | some roleKey, some approval =>
            issueIf (roleKey ∉ approval.roleKeys)
              (nodeIssue node "WORKFLOW_APPROVAL_ROLE_UNKNOWN"
                ("Node " ++ quoted node.id ++ " names role " ++ quoted roleKey ++
                  ", which this workspace does not define.")
                (some "/requirement/roleKey"))
          | _, _ => []
  | _ => []

/-- Whether a retry policy is refused.  A comparison with `NaN` is false. -/
def refusedPolicy (policy : WorkflowNodeFailurePolicy) : Bool :=
  (policy.maxAttempts.any fun n => n < 1 || (workflowLimits.maxAttemptsPerNode : ℚ) < n) ||
    (policy.initialMs.any fun ms => ms < 0) ||
    (policy.initialMs.any fun initial => policy.maximumMs.any fun maximum => maximum < initial) ||
    (policy.maximumMs.any fun ms => 3600000 < ms)

/-- The issues of the ports of one side of a node. -/
def portIssues (graph : WorkflowGraph) (node : WorkflowNode) (kind : String)
    (ports : List WorkflowPort) : List WorkflowValidationIssue :=
  let names := ports.map (·.name)
  issueIf (decide (¬ names.Nodup) || names.any fun name => !isPortName name)
      (nodeIssue node "WORKFLOW_PORT_INVALID"
        (kind ++ " ports on " ++ quoted node.id ++ " are invalid.") none) ++
    ports.flatMap fun port =>
      issueIf (!(graph.schemaLookup port.schemaId).isTruthy)
        (nodeIssue node "WORKFLOW_SCHEMA_MISSING"
          ("Port " ++ quoted port.name ++ " refers to missing schema " ++ quoted port.schemaId ++ ".")
          none)

/-- `[…names].sort().join('|')`. -/
def joinedNames (names : List String) : String :=
  String.intercalate "|" (sortStrings names)

/-- The tool grants of an agent node and the revision they belong to. -/
def WorkflowNode.agentGrants? (node : WorkflowNode) : Option (AgentReference × List String) :=
  match node.config with
  | .agent agent toolGrants _ => some (agent, toolGrants)
  | .agentDecision agent toolGrants _ _ => some (agent, toolGrants)
  | _ => none

/-- The issues of the tool grants of an agent node. -/
def agentIssues (node : WorkflowNode) (catalog : Option WorkflowReferenceCatalog) :
    List WorkflowValidationIssue :=
  match node.agentGrants? with
  | none => []
  | some (agent, toolGrants) =>
    if 32 < toolGrants.length ∨ ¬ toolGrants.Nodup ∨
        (toolGrants.any fun tool => !isIdentifier tool) = true then
      [nodeIssue node "WORKFLOW_AGENT_TOOL_GRANTS_INVALID"
        ("Agent node " ++ quoted node.id ++ " must declare at most 32 unique tool grants.")
        (some "/toolGrants")]
    else
      match catalog.bind fun catalog => (catalog.agent agent.agentId agent.revision).allowedTools with
      | none => []
      | some allowedTools =>
        match toolGrants.find? (· ∉ allowedTools) with
        | none => []
        | some tool =>
          [nodeIssue node "WORKFLOW_AGENT_TOOL_GRANT_NOT_ALLOWED"
            ("Tool " ++ quoted tool ++ " is not allowed by pinned agent revision " ++
              toString agent.revision ++ ".")
            (some "/toolGrants")]

/-- What the catalog says of an action, `unavailable` without a catalog. -/
def lookupAction (catalog : Option WorkflowReferenceCatalog) (action : ActionReference) :
    ActionAvailability :=
  match catalog with
  | some catalog => catalog.action action.actionId action.contractVersion
  | none => { available := false }

/-- `canonical(graph.schemas[id])`, `undefined` for a function and for nothing. -/
def schemaText (graph : WorkflowGraph) (id : String) : Option String :=
  (graph.schemaLookup id).record?.map fun schema => canonical (.obj schema)

/-- The issues of an action node. -/
def actionIssues (graph : WorkflowGraph) (node : WorkflowNode)
    (catalog : Option WorkflowReferenceCatalog) : List WorkflowValidationIssue :=
  match node.action? with
  | none => []
  | some reference =>
    let action := lookupAction catalog reference
    issueIf (reference.actionId = "connectors.call" && reference.contractVersion ≠ 2)
        (nodeIssue node "WORKFLOW_ACTION_VERSION_UNSAFE"
          "Connector calls require the reviewed action contract version 2."
          (some "/action/contractVersion")) ++
      (match reference.descriptorDigest with
        | none => []
        | some digest =>
          let portMismatch (ports : List WorkflowPort) (name : String)
              (schema : Option JsonSchema) : Bool :=
            match schema, (ports.find? (·.name = name)).map (·.schemaId) with
            | some schema, some id =>
              id ≠ "" && schemaText graph id ≠ some (canonical (.obj schema))
            | _, _ => false
          issueIf (!isSha256Digest digest ||
              (action.available && some digest ≠ action.descriptorDigest))
              (nodeIssue node "WORKFLOW_ACTION_CONTRACT_DRIFT"
                ("Action " ++ quoted reference.actionId ++ " no longer matches its pinned contract.")
                (some "/action/descriptorDigest")) ++
            issueIf (portMismatch node.inputPorts "input" action.inputSchema ||
                portMismatch node.outputPorts "success" action.outputSchema)
              (nodeIssue node "WORKFLOW_ACTION_SCHEMA_MISMATCH"
                ("Action " ++ quoted reference.actionId ++
                  " no longer matches its pinned port schemas.") none)) ++
      issueIf (action.workflowTemplateEffect = some "connector-egress" &&
          action.risk = some "workspace-write" &&
          action.idempotencyProtection ≠ some "target-ledger")
        (nodeIssue node "WORKFLOW_ACTION_IDEMPOTENCY_UNSAFE"
          "Connector egress actions require a durable target idempotency ledger." none) ++
      issueIf (action.risk = some "external" || action.risk = some "destructive")
        (nodeIssue node "WORKFLOW_ACTION_RISK_DENIED"
          ("Action " ++ quoted reference.actionId ++ " has an unsupported risk.") none)

/-- The issues of one node; `earlier` are the ids of the nodes before it. -/
def nodeIssues (graph : WorkflowGraph) (catalog : Option WorkflowReferenceCatalog)
    (earlier : List String) (node : WorkflowNode) : List WorkflowValidationIssue :=
  issueIf (!isIdentifier node.id)
      (nodeIssue node "WORKFLOW_NODE_ID_INVALID"
        ("Node " ++ quoted node.id ++ " has an invalid id.") none) ++
    issueIf (node.id ∈ earlier)
      (nodeIssue node "WORKFLOW_NODE_DUPLICATE"
        ("Node " ++ quoted node.id ++ " is duplicated.") none) ++
    configurationIssues node ++
    match expectedPorts node.config with
    | none =>
      [nodeIssue node "WORKFLOW_NODE_TYPE_INVALID"
        ("Node " ++ quoted node.id ++ " has an unsupported type.") none]
    | some (inputs, outputs) =>
      portIssues graph node "input" node.inputPorts ++
        portIssues graph node "output" node.outputPorts ++
        issueIf (joinedNames inputs ≠ joinedNames (node.inputPorts.map (·.name)) ||
            joinedNames outputs ≠ joinedNames (node.outputPorts.map (·.name)))
          (nodeIssue node "WORKFLOW_PORT_CONTRACT_INVALID"
            ("Node " ++ quoted node.id ++ " does not declare the fixed " ++ node.config.type ++
              " ports.") none) ++
        issueIf (node.failurePolicy.any refusedPolicy)
          (nodeIssue node "WORKFLOW_RETRY_POLICY_INVALID"
            ("Node " ++ quoted node.id ++ " has an invalid retry policy.") none) ++
        agentIssues node catalog ++
        typedDecisionIssues node ++
        approvalIssues node catalog ++
        actionIssues graph node catalog

/-- The loop over the nodes. -/
def nodesIssues (graph : WorkflowGraph) (catalog : Option WorkflowReferenceCatalog) :
    List String → List WorkflowNode → List WorkflowValidationIssue
  | _, [] => []
  | earlier, node :: nodes =>
    nodeIssues graph catalog earlier node ++
      nodesIssues graph catalog (earlier ++ [node.id]) nodes

/-- The references the loop over the nodes records for one node. -/
def nodeReferences (catalog : Option WorkflowReferenceCatalog) (node : WorkflowNode) :
    List WorkflowReferenceSummary :=
  match node.config with
  | .agent agent .. | .agentDecision agent .. =>
    [{ kind := .agent, id := agent.agentId, version := toString agent.revision
       available := catalog.any fun catalog => (catalog.agent agent.agentId agent.revision).available }]
  | .humanApproval requirement _ =>
    let named :=
      match requirement.get? "roleKey" with
      | none | some .null => requirement.get? "scope"
      | some value => some value
    [{ kind := .approval
       id := match named with
        | some (.str name) => name
        | _ => ""
       version := "1"
       available := (catalog.bind (·.approval)).any (·.available) }]
  | .action reference =>
    let action := lookupAction catalog reference
    [{ kind := .action, id := reference.actionId, version := toString reference.contractVersion
       available := action.available &&
        (action.risk.isNone || action.risk = some "read" || action.risk = some "workspace-write") &&
        (action.idempotency.isNone || action.idempotency = some "required") }]
  | _ => []

/-! ### Edges -/

/-- `nodeById.get(id)`: the last node of an id. -/
def WorkflowGraph.nodeById (graph : WorkflowGraph) (id : String) : Option WorkflowNode :=
  graph.nodes.reverse.find? (·.id = id)

/-- The issues of one edge; `earlier` are the ids of the edges before it. -/
def edgeIssues (graph : WorkflowGraph) (earlier : List String) (edge : WorkflowEdge) :
    List WorkflowValidationIssue :=
  let edgeIssue := fun code message : String =>
    ({ code, message, location := .edge edge.id } : WorkflowValidationIssue)
  issueIf (!isIdentifier edge.id)
      (edgeIssue "WORKFLOW_EDGE_ID_INVALID" ("Edge " ++ quoted edge.id ++ " has an invalid id.")) ++
    issueIf (edge.id ∈ earlier)
      (edgeIssue "WORKFLOW_EDGE_DUPLICATE" ("Edge " ++ quoted edge.id ++ " is duplicated.")) ++
    match graph.nodeById edge.source.nodeId, graph.nodeById edge.target.nodeId with
    | some source, some target =>
      match source.outputPorts.find? (·.name = edge.source.port),
          target.inputPorts.find? (·.name = edge.target.port) with
      | some sourcePort, some targetPort =>
        issueIf (sourcePort.schemaId ≠ targetPort.schemaId)
          (edgeIssue "WORKFLOW_EDGE_SCHEMA_INCOMPATIBLE"
            ("Edge " ++ quoted edge.id ++ " connects incompatible schemas."))
      | _, _ =>
        [edgeIssue "WORKFLOW_EDGE_PORT_MISSING"
          ("Edge " ++ quoted edge.id ++ " refers to a missing port.")]
    | _, _ =>
      [edgeIssue "WORKFLOW_EDGE_DANGLING" ("Edge " ++ quoted edge.id ++ " refers to a missing node.")]

/-- The loop over the edges. -/
def edgesIssues (graph : WorkflowGraph) :
    List String → List WorkflowEdge → List WorkflowValidationIssue
  | _, [] => []
  | earlier, edge :: edges =>
    edgeIssues graph earlier edge ++ edgesIssues graph (earlier ++ [edge.id]) edges

/-- The edges both ends of which exist: those the loop counts. -/
def WorkflowGraph.joinedEdges (graph : WorkflowGraph) : List WorkflowEdge :=
  graph.edges.filter fun edge =>
    (graph.nodeById edge.source.nodeId).isSome && (graph.nodeById edge.target.nodeId).isSome

/-- The key an end of an edge is counted under. -/
def Endpoint.key (endpoint : Endpoint) : String :=
  endpoint.nodeId ++ ":" ++ endpoint.port

/-- The number of edges into a port, as the compiler counts them. -/
def WorkflowGraph.incomingCount (graph : WorkflowGraph) (key : String) : ℕ :=
  graph.joinedEdges.countP fun edge => edge.target.key = key

/-- The number of edges out of a node. -/
def WorkflowGraph.outgoingCount (graph : WorkflowGraph) (id : String) : ℕ :=
  graph.joinedEdges.countP fun edge => edge.source.nodeId = id

/-- Whether a node is a merge. -/
def WorkflowNode.isMerge (node : WorkflowNode) : Bool :=
  match node.config with
  | .merge => true
  | _ => false

/-- The cardinality issues of one node. -/
def cardinalityIssues (graph : WorkflowGraph) (node : WorkflowNode) :
    List WorkflowValidationIssue :=
  (node.inputPorts.flatMap fun port =>
    let count := graph.incomingCount (Endpoint.key ⟨node.id, port.name⟩)
    issueIf (count = 0)
        (nodeIssue node "WORKFLOW_INPUT_UNCONNECTED"
          ("Input \"" ++ node.id ++ "." ++ port.name ++ "\" is not connected.") none) ++
      issueIf (1 < count && !(node.isMerge && port.name = "items"))
        (nodeIssue node "WORKFLOW_INPUT_CARDINALITY"
          ("Input \"" ++ node.id ++ "." ++ port.name ++ "\" has more than one edge.") none)) ++
    issueIf (!node.isOutput && graph.outgoingCount node.id = 0)
      (nodeIssue node "WORKFLOW_TERMINAL_OUTPUT_MISSING"
        ("Node " ++ quoted node.id ++ " has no path to an output.") none)

/-! ### Order and reachability -/

/-- The pairs of node ids the topological sort counts. -/
def WorkflowGraph.joinedPairs (graph : WorkflowGraph) : List (String × String) :=
  graph.joinedEdges.map fun edge => (edge.source.nodeId, edge.target.nodeId)

/-- The keys of the `Map` over the nodes. -/
def WorkflowGraph.nodeIds (graph : WorkflowGraph) : List String :=
  (graph.nodes.map (·.id)).dedup

/-- `stableTopologicalOrder(…).order`. -/
def stableTopologicalOrder (graph : WorkflowGraph) : List String :=
  (Kahn.run sortStrings graph.joinedPairs graph.nodes.length
    (Kahn.start sortStrings graph.nodeIds graph.joinedPairs)).order

def WorkflowGraph.cyclic (graph : WorkflowGraph) : Bool :=
  (stableTopologicalOrder graph).length ≠ graph.nodes.length

/-- The targets of the edges that leave a node. -/
def successors (graph : WorkflowGraph) (id : String) : List String :=
  (graph.edges.filter (·.source.nodeId = id)).map (·.target.nodeId)

/-- The sources of the edges that enter a node. -/
def predecessors (graph : WorkflowGraph) (id : String) : List String :=
  (graph.edges.filter (·.target.nodeId = id)).map (·.source.nodeId)

/-- Takes that are enough for any search over the nodes of a graph. -/
def searchFuel (graph : WorkflowGraph) : ℕ :=
  1 + (graph.nodes.length + graph.edges.length + 1) * graph.edges.length

/-- `reachable`: a queue from the first input node. -/
def reachableNodes (graph : WorkflowGraph) : List String :=
  ((Search.start (((graph.nodes.filter (·.isInput)).head?.map (·.id)).toList)).run
    (successors graph) (· ++ ·) (searchFuel graph)).visited

/-- `isUpstream`: a stack from the target against the edges, left at the first
edge out of the source. -/
def isUpstream (graph : WorkflowGraph) (source target : String) : Bool :=
  (Search.start [target]).find (predecessors graph) (fun rest found => found.reverse ++ rest)
    (fun id => source ∈ predecessors graph id) (searchFuel graph)

/-! ### Gates and mappings -/

mutual

/-- `validateGateExpression`, with the depth limit of 16 as fuel. -/
def validateGateExpression (nodeId : String) :
    WorkflowGateExpression → ℕ → List WorkflowValidationIssue
  | expression, depth =>
    let gateIssue := fun (message : String) (path : Option String) =>
      ({ code := "WORKFLOW_GATE_INVALID", message, location := .node nodeId path } :
        WorkflowValidationIssue)
    if 16 < depth then [gateIssue "Gate expression is invalid or too deep." (some "/expression")]
    else
      match expression with
      | .literal value => issueIf (!isJson value 0) (gateIssue "Gate literal is not JSON." none)
      | .path pointer =>
        issueIf (!validPointer pointer) (gateIssue "Gate path is not an RFC 6901 pointer." none)
      | .not value => validateGateExpression nodeId value (depth + 1)
      | .exists value => validateGateExpression nodeId value (depth + 1)
      | .and values =>
        if values.isEmpty then [gateIssue "Logical gates require at least one operand." none]
        else validateGateExpressions nodeId values (depth + 1)
      | .or values =>
        if values.isEmpty then [gateIssue "Logical gates require at least one operand." none]
        else validateGateExpressions nodeId values (depth + 1)
      | .eq left right =>
        validateGateExpression nodeId left (depth + 1) ++
          validateGateExpression nodeId right (depth + 1)
      | .order _ left right =>
        validateGateExpression nodeId left (depth + 1) ++
          validateGateExpression nodeId right (depth + 1)
      | .in left right =>
        validateGateExpression nodeId left (depth + 1) ++
          validateGateExpression nodeId right (depth + 1)
      | .unsupported => [gateIssue "Gate operator is not supported." none]

/-- The issues of the operands of a logical gate. -/
def validateGateExpressions (nodeId : String) :
    List WorkflowGateExpression → ℕ → List WorkflowValidationIssue
  | [], _ => []
  | value :: values, depth =>
    validateGateExpression nodeId value depth ++ validateGateExpressions nodeId values depth

end

/-- Whether a mapping source is a strict ancestor of a node on a port that
exists. -/
def sourceIsUpstream (graph : WorkflowGraph) (node : WorkflowNode) (source : MappingSource) : Bool :=
  let order := stableTopologicalOrder graph
  source.sourceNodeId ∈ order && node.id ∈ order &&
    order.idxOf source.sourceNodeId < order.idxOf node.id &&
    ((graph.nodeById source.sourceNodeId).any fun owner =>
      owner.outputPorts.any (·.name = source.sourcePort)) &&
    isUpstream graph source.sourceNodeId node.id

/-- The schema of the port a mapping source reads. -/
def sourcePortSchema (graph : WorkflowGraph) (source : MappingSource) : Option SchemaLookup :=
  ((graph.nodeById source.sourceNodeId).bind fun owner =>
    owner.outputPorts.find? (·.name = source.sourcePort)).map fun port =>
      graph.schemaLookup port.schemaId

/-- The issues of one mapping source. -/
def sourceIssues (graph : WorkflowGraph) (node : WorkflowNode) (targetPointer : String)
    (source : MappingSource) : List WorkflowValidationIssue :=
  issueIf (!validPointer source.pointer)
      (nodeIssue node "WORKFLOW_MAPPING_POINTER_INVALID" "Source pointer is invalid." none) ++
    issueIf (!sourceIsUpstream graph node source)
      (nodeIssue node "WORKFLOW_MAPPING_SOURCE_INVALID"
        ("Mapping source " ++ quoted source.sourceNodeId ++ " is not upstream.") none) ++
    match sourcePortSchema graph source with
    | none => []
    | some lookup =>
      if !validPointer source.pointer then []
      else
        issueIf (!sourcePointerIsSafe lookup.record? source.pointer)
            (nodeIssue node "WORKFLOW_MAPPING_SOURCE_UNSAFE"
              "Mapping source is protected or its schema cannot be verified." (some "/mappings")) ++
          issueIf (targetPointer = "" && !sourcePointerIsObject lookup.record? source.pointer)
            (nodeIssue node "WORKFLOW_MAPPING_TARGET_INVALID"
              "A root mapping source must be an object." none)

def mappingIssues (graph : WorkflowGraph) (node : WorkflowNode) (mapping : WorkflowTargetMapping) :
    List WorkflowValidationIssue :=
  issueIf (!writableTargetPointer mapping.targetPointer)
      (nodeIssue node "WORKFLOW_MAPPING_POINTER_INVALID" "Target pointer is invalid." none) ++
    issueIf
      (mapping.targetPointer = "" &&
        match mapping.binding with
        | .literal value => !value.isRecord
        | .template .. => true
        | .path _ => false)
      (nodeIssue node "WORKFLOW_MAPPING_TARGET_INVALID" "A root mapping must produce an object."
        none) ++
    (match mapping.binding with
      | .template template _ =>
        issueIf (8 * 1024 < template.utf8ByteSize)
          (nodeIssue node "WORKFLOW_LIMIT_EXCEEDED" "Template exceeds 8 KB." none)
      | _ => []) ++
    mapping.binding.sources.flatMap (sourceIssues graph node mapping.targetPointer)

/-- What `schemaAtTargetPointer` finds at a pointer. -/
inductive TargetSchema where
  | schema (schema : JsonSchema)
  | forbidden
  | unknown

/-- The loop of `schemaAtTargetPointer`. -/
def schemaAtSegments : JsonSchema → List String → TargetSchema
  | schema, [] => .schema schema
  | schema, part :: parts =>
    let child :=
      if schema.lookup "type" = some (.str "object") then
        match schema.lookup "properties" with
        | some (.obj properties) =>
          match properties.lookup part with
          | some child => some child
          | none => schema.lookup "additionalProperties"
        | _ => schema.lookup "additionalProperties"
      else if schema.lookup "type" = some (.str "array") ∧ isArrayIndex part then
        schema.lookup "items"
      else none
    match child with
    | some (.obj child) => schemaAtSegments child parts
    | some (.bool false) =>
      if schema.lookup "type" = some (.str "object") then .forbidden else .unknown
    | _ => .unknown

/-- `schemaAtTargetPointer`.  An inherited lookup is an object without keywords. -/
def schemaAtTargetPointer (lookup : SchemaLookup) (pointer : String) : TargetSchema :=
  if !lookup.isTruthy || !writableTargetPointer pointer then .unknown
  else
    schemaAtSegments
      (match lookup with
        | .own schema => schema
        | _ => [])
      (if pointer = "" then [] else pointerSegments pointer)

/-- The issue of an action input that is set to a value its schema refuses. -/
def literalIssues (graph : WorkflowGraph) (node : WorkflowNode) (index : ℕ)
    (mapping : WorkflowTargetMapping) : List WorkflowValidationIssue :=
  match node.action?, mapping.binding with
  | some _, .literal value =>
    let refused :=
      match schemaAtTargetPointer (graph.schemaLookup (node.inputSchemaId.getD ""))
          mapping.targetPointer with
      | .forbidden => true
      | .schema schema => !(validateJsonSchema value schema "").isEmpty
      | .unknown => false
    issueIf refused
      (nodeIssue node "WORKFLOW_ACTION_LITERAL_INVALID"
        "Configured action value does not match its input schema."
        (some ("/mappings/" ++ toString index)))
  | _, _ => []

/-- The issue of a mapping that reads more of a connector call than is stable. -/
def connectorIssues (graph : WorkflowGraph) (node : WorkflowNode)
    (mapping : WorkflowTargetMapping) : List WorkflowValidationIssue :=
  issueIf
    (mapping.binding.sources.any fun source =>
      ((graph.nodeById source.sourceNodeId).bind (·.action?)).any
          (·.actionId = "connectors.call") &&
        source.pointer ∉ ["/callId", "/outcome"])
    (nodeIssue node "WORKFLOW_CONNECTOR_OUTPUT_UNSTABLE"
      "Connector workflow mappings may read only callId or outcome." (some "/mappings"))

/-- The gate and mapping issues of one node. -/
def flowIssues (graph : WorkflowGraph) (node : WorkflowNode) : List WorkflowValidationIssue :=
  (match node.config with
    | .gate expression => validateGateExpression node.id expression 0
    | _ => []) ++
  node.mappings.zipIdx.flatMap fun (mapping, index) =>
    mappingIssues graph node mapping ++ literalIssues graph node index mapping ++
      connectorIssues graph node mapping

/-! ### The compiler -/

/-- The issues about the size of a graph. -/
def limitIssues (graph : WorkflowGraph) : List WorkflowValidationIssue :=
  issueIf (graph.schemaVersion ≠ 1)
      { code := "WORKFLOW_GRAPH_VERSION_UNSUPPORTED"
        message := "Only graph schema version 1 is supported." } ++
    issueIf (workflowLimits.maxGraphBytes < jsonByteSize graph.raw)
      { code := "WORKFLOW_LIMIT_EXCEEDED", message := "Graph exceeds 64 KB." } ++
    issueIf (workflowLimits.maxNodes < graph.nodes.length)
      { code := "WORKFLOW_LIMIT_EXCEEDED", message := "Graph exceeds 100 nodes." } ++
    issueIf (workflowLimits.maxEdges < graph.edges.length)
      { code := "WORKFLOW_LIMIT_EXCEEDED", message := "Graph exceeds 200 edges." } ++
    issueIf (workflowLimits.maxSchemas < graph.schemas.length)
      { code := "WORKFLOW_LIMIT_EXCEEDED", message := "Graph exceeds 32 schemas." }

/-- The issues about the numbers of input and output nodes. -/
def countIssues (graph : WorkflowGraph) : List WorkflowValidationIssue :=
  issueIf ((graph.nodes.filter (·.isInput)).length ≠ 1)
      { code := "WORKFLOW_INPUT_COUNT_INVALID"
        message := "A graph requires exactly one input node." } ++
    issueIf (graph.nodes.filter (·.isOutput)).isEmpty
      { code := "WORKFLOW_OUTPUT_MISSING", message := "A graph requires at least one output node." }

/-- The node and path a finding of the security checks names. -/
def WorkflowGraphDiagnostic.issue (message : String) (finding : WorkflowGraphDiagnostic) :
    WorkflowValidationIssue :=
  { code := finding.code, message
    location := match finding with
      | .actionSecretBinding nodeId pointer | .actionSchemaUnavailable nodeId pointer
      | .mappingTargetUnsafe nodeId pointer => .node nodeId (some ("/mappings" ++ pointer))
      | .secretSchemaValue .. => .graph }

/-- The references of a graph: its schemas, then those of its nodes. -/
def graphReferences (graph : WorkflowGraph) (catalog : Option WorkflowReferenceCatalog) :
    List WorkflowReferenceSummary :=
  (graph.schemas.map fun (id, _) => { kind := .schema, id, version := "1", available := true }) ++
    graph.nodes.flatMap (nodeReferences catalog)

/-- The issue of a reference that is not available. -/
def referenceIssues (reference : WorkflowReferenceSummary) : List WorkflowValidationIssue :=
  issueIf (reference.kind ≠ .schema && !reference.available)
    { code :=
        if reference.kind = .agent then "WORKFLOW_AGENT_REVISION_MISSING"
        else "WORKFLOW_ACTION_VERSION_MISSING"
      message := reference.kind.name ++ " " ++ quoted reference.id ++ " version " ++
        reference.version ++ " is unavailable." }

/-- Every issue `compileWorkflowGraph` pushes, in its order. -/
def compileIssues (graph : WorkflowGraph) (catalog : Option WorkflowReferenceCatalog) :
    List WorkflowValidationIssue :=
  limitIssues graph ++
    (graph.schemas.flatMap fun (id, schema) => schemaIssues id schema) ++
    ((secretSchemaValueDiagnostics graph).map
      (·.issue "Schema example or default would disclose a secret-marked field.")) ++
    nodesIssues graph catalog [] graph.nodes ++
    ((actionBindingDiagnostics graph fun actionId contractVersion =>
        catalog.bind fun catalog => (catalog.action actionId contractVersion).inputSchema).map
      (·.issue "Action input binding is unsafe or its schema is unavailable.")) ++
    ((mappingTargetDiagnostics graph).map
      (·.issue "Mapping target is protected or its schema cannot be verified.")) ++
    edgesIssues graph [] graph.edges ++
    graph.nodes.flatMap (cardinalityIssues graph) ++
    countIssues graph ++
    issueIf graph.cyclic { code := "WORKFLOW_GRAPH_CYCLE", message := "The graph contains a cycle." } ++
    (graph.nodes.flatMap fun node =>
      issueIf (node.id ∉ reachableNodes graph)
        (nodeIssue node "WORKFLOW_NODE_UNREACHABLE"
          ("Node " ++ quoted node.id ++ " is unreachable.") none)) ++
    graph.nodes.flatMap (flowIssues graph) ++
    (graphReferences graph catalog).flatMap referenceIssues

def workflowGraphChecksum (graph : WorkflowGraph) : String :=
  Json.jsonHash (.obj (["schemaVersion", "nodes", "edges", "schemas"].filterMap fun key =>
    (graph.raw.get? key).map (key, ·)))

/-- `WorkflowDryRunResponseV1`. -/
structure WorkflowDryRunResponse where
  graphChecksum : String
  valid : Bool
  issues : List WorkflowValidationIssue
  compiledOrder : List String
  references : List WorkflowReferenceSummary
  requiredPermissions : List String

def compileWorkflowGraph (graph : WorkflowGraph) (catalog : Option WorkflowReferenceCatalog) :
    Except String WorkflowDryRunResponse :=
  if graph.nodes.any fun node => inheritsPorts node.config then .error "TypeError"
  else
    let issues := compileIssues graph catalog
    .ok
      { graphChecksum := workflowGraphChecksum graph
        valid := issues.isEmpty
        issues
        compiledOrder := if graph.cyclic then [] else stableTopologicalOrder graph
        references := graphReferences graph catalog
        requiredPermissions := sortStrings (graph.nodes.flatMap fun node =>
          (node.action?.map fun action => (lookupAction catalog action).requiredPermissions).getD
            []).dedup }

end Flowdular.Workflows
