/-
# Which evidence a graph taints

`src/modules/workflows/src/services/evidence-policy.ts`, lines 16-365.

A node with a restricted port schema taints what its edges carry and every node
that reads it, over an edge or by the name a mapping gives.  `Tainted` says so;
`restrictedEvidenceTaint` computes it by a worklist, exactly
(`mem_taintedNodes_iff`), and whatever evidence belongs to a tainted node, to one
of its attempts or to an edge leaving one is projected without a preview
(`restrictedEvidenceTaint_closed`).  The second closure of the source, over what
connector calls return, is `evidenceTaint`; both run the same loop (`taintLoop`).
-/

import Flowdular.Lib.Worklist
import Flowdular.Workflows.PayloadCodec

namespace Flowdular.Workflows

open Lib (Worklist)

/-- `EvidenceScope`: what a piece of evidence belongs to. -/
inductive EvidenceScope where
  | runInput
  | runOutput
  | nodeInput (nodeId : String)
  | nodeOutput (nodeId : String)
  | edge (edgeId : String)
deriving DecidableEq

def hasActionNode (graph : WorkflowGraph) : Bool :=
  graph.nodes.any fun node => node.action?.isSome

/-- The entry of a node in `sourceNodes`: the nodes whose mappings name it, once
for each time they do. -/
def sourceNodes (graph : WorkflowGraph) (source : String) : List String :=
  graph.nodes.flatMap fun node =>
    node.mappings.flatMap fun mapping =>
      (mapping.binding.sources.filter (·.sourceNodeId = source)).map fun _ => node.id

/-- The edges that leave a node, in graph order. -/
def outgoingEdges (graph : WorkflowGraph) (source : String) : List WorkflowEdge :=
  graph.edges.filter (·.source.nodeId = source)

/-- The nodes `reach` is called with for a queued node: the targets of its edges
first, then the nodes that map it. -/
def reachedNodes (graph : WorkflowGraph) (source : String) : List String :=
  (outgoingEdges graph source).map (·.target.nodeId) ++ sourceNodes graph source

/-- The sets a taint loop fills: the queued nodes, every node it reached, and the
edges it went over. -/
structure TaintLoop where
  work : Worklist String
  reached : List String
  edgeIds : List String
deriving DecidableEq

/-- One iteration: take a node off the queue, record its edges and what they and
the mappings reach, and queue the reached nodes that are `admitted`. -/
def TaintLoop.step (graph : WorkflowGraph) (admitted : String → Bool) (loop : TaintLoop) :
    TaintLoop :=
  match loop.work.queue with
  | [] => loop
  | source :: _ =>
    { work := loop.work.step fun source => (reachedNodes graph source).filter admitted
      reached := loop.reached ++ reachedNodes graph source
      edgeIds := loop.edgeIds ++ (outgoingEdges graph source).map (·.id) }

/-- The loop after `n` iterations. -/
def TaintLoop.run (graph : WorkflowGraph) (admitted : String → Bool) : ℕ → TaintLoop → TaintLoop
  | 0, loop => loop
  | n + 1, loop => run graph admitted n (loop.step graph admitted)

/-- The loop from the nodes `starts` until its queue is empty: it visits nodes of
the graph and targets of its edges only. -/
def taintLoop (graph : WorkflowGraph) (admitted : String → Bool) (starts : List String) :
    TaintLoop :=
  TaintLoop.run graph admitted (graph.nodes.length + graph.edges.length)
    { work := .start starts, reached := [], edgeIds := [] }

/-- The ids of the schemas that are restricted to a reader without permissions. -/
def restrictedSchemas (graph : WorkflowGraph) : List String :=
  (graph.schemas.filter fun schema => schemaHasRestrictedEvidence schema.2).map Prod.fst

/-- The nodes with a restricted port schema. -/
def restrictedStarts (graph : WorkflowGraph) : List WorkflowNode :=
  graph.nodes.filter fun node =>
    (node.inputPorts ++ node.outputPorts).any fun port => port.schemaId ∈ restrictedSchemas graph

structure RestrictedEvidenceTaint where
  nodeIds : List String
  edgeIds : List String
  runInput : Bool
  runOutput : Bool
deriving DecidableEq

def restrictedEvidenceTaint (graph : WorkflowGraph) : Option RestrictedEvidenceTaint :=
  let starts := restrictedStarts graph
  if starts.isEmpty then none
  else
    let loop := taintLoop graph (fun _ => true) (starts.map (·.id))
    some
      { nodeIds := loop.work.seen
        edgeIds := loop.edgeIds
        runInput := starts.any (·.isInput)
        runOutput := graph.nodes.any fun node => node.isOutput && node.id ∈ loop.work.seen }

/-- `EvidenceTaint`; `edgesById` is the lookup of an edge, the last one of an id. -/
structure EvidenceTaint where
  connectorNodeIds : List String
  legacyConnector : Bool
  inputNodeIds : List String
  outputNodeIds : List String
  edgeIds : List String
  runOutput : Bool
deriving DecidableEq

/-- Whether a node calls a connector. -/
def WorkflowNode.callsConnector (node : WorkflowNode) : Bool :=
  match node.action? with
  | some action => action.actionId = "connectors.call"
  | none => false

/-- `evidenceTaint`.  A connector node receives tainted input and passes no taint
on: its own output is judged by `safeConnectorOutput`. -/
def evidenceTaint (graph : WorkflowGraph) : Option EvidenceTaint :=
  let connectorNodeIds := (graph.nodes.filter (·.callsConnector)).map (·.id)
  if connectorNodeIds.isEmpty then none
  else
    let inputNodes := (graph.nodes.filter (·.isInput)).map (·.id)
    let loop := taintLoop graph (fun target => target ∉ connectorNodeIds) inputNodes
    let inputNodeIds := connectorNodeIds ++ inputNodes ++ loop.reached
    some
      { connectorNodeIds
        legacyConnector := graph.nodes.any fun node =>
          node.callsConnector && (node.action?.any fun action => action.contractVersion ≠ 2)
        inputNodeIds
        outputNodeIds := loop.work.seen
        edgeIds := loop.edgeIds
        runOutput := graph.nodes.any fun node => node.isOutput && node.id ∈ inputNodeIds }

/-! ### Projection -/

/-- `masked`: the evidence without its preview. -/
def masked (evidence : WorkflowPayloadEvidence) : WorkflowPayloadEvidence :=
  if evidence.preview = none ∧
      (evidence.state = .absent ∨ evidence.state = .expired ∨ evidence.state = .truncated) then
    evidence
  else
    { state := .redacted, schemaId := evidence.schemaId, hash := evidence.hash
      originalByteSize := evidence.originalByteSize, reason := some .secret }

/-- `safeConnectorOutput`: a connector response without its body. -/
def safeConnectorOutput (evidence : WorkflowPayloadEvidence) : Bool :=
  evidence.state = .absent ||
    match evidence.preview with
    | some preview =>
      (preview.get? "body" = some .null || preview.get? "body" = some redactedText) &&
        preview.get? "bodyOmitted" = some (.bool true) && (preview.get? "bodyPreview").isNone
    | none => false

/-- Whether the restricted taint covers a scope. -/
def RestrictedEvidenceTaint.covers (taint : RestrictedEvidenceTaint) : EvidenceScope → Bool
  | .runInput => taint.runInput
  | .runOutput => taint.runOutput
  | .nodeInput nodeId => nodeId ∈ taint.nodeIds
  | .nodeOutput nodeId => nodeId ∈ taint.nodeIds
  | .edge edgeId => edgeId ∈ taint.edgeIds

/-- What the connector taint leaves of evidence. -/
def EvidenceTaint.project (taint : EvidenceTaint) (graph : WorkflowGraph) (scope : EvidenceScope)
    (evidence : WorkflowPayloadEvidence) : WorkflowPayloadEvidence :=
  match scope with
  | .runInput => masked evidence
  | .runOutput => if taint.runOutput then masked evidence else evidence
  | .nodeInput nodeId => if nodeId ∈ taint.inputNodeIds then masked evidence else evidence
  | .nodeOutput nodeId =>
    if nodeId ∈ taint.connectorNodeIds then
      if safeConnectorOutput evidence then evidence else masked evidence
    else if nodeId ∈ taint.outputNodeIds then masked evidence
    else evidence
  | .edge edgeId =>
    match graph.edges.reverse.find? (·.id = edgeId) with
    | some edge =>
      if edge.source.nodeId ∈ taint.connectorNodeIds then
        if edge.source.port = "success" && safeConnectorOutput evidence then evidence
        else masked evidence
      else if edgeId ∈ taint.edgeIds then masked evidence
      else evidence
    | none => if edgeId ∈ taint.edgeIds then masked evidence else evidence

def projectWorkflowEvidence (graph : WorkflowGraph) (scope : EvidenceScope)
    (evidence : WorkflowPayloadEvidence) : WorkflowPayloadEvidence :=
  if hasActionNode graph && !evidence.policyMarked then masked evidence
  else if (restrictedEvidenceTaint graph).any (·.covers scope) then masked evidence
  else
    match evidenceTaint graph with
    | none => evidence
    | some taint => taint.project graph scope evidence

/-- The evidence of one attempt of a node. -/
structure AttemptEvidence where
  input : WorkflowPayloadEvidence
  output : WorkflowPayloadEvidence
deriving DecidableEq

/-- The evidence of a node execution: that of its attempts. -/
structure NodeEvidence where
  nodeId : String
  attempts : List AttemptEvidence
deriving DecidableEq

/-- The evidence of an edge transfer. -/
structure EdgeEvidence where
  edgeId : String
  evidence : WorkflowPayloadEvidence
deriving DecidableEq

/-- The test that lets a trace through as it is: no taint and no action node. -/
def projectsNothing (graph : WorkflowGraph) : Bool :=
  (evidenceTaint graph).isNone && !hasActionNode graph && (restrictedEvidenceTaint graph).isNone

def projectWorkflowNodeEvidence (graph : WorkflowGraph) (nodes : List NodeEvidence)
    (unsafeConnectorOutput : Bool) : List NodeEvidence :=
  if projectsNothing graph then nodes
  else
    nodes.map fun node =>
      { node with
        attempts := node.attempts.map fun attempt =>
          { input :=
              if unsafeConnectorOutput then masked attempt.input
              else projectWorkflowEvidence graph (.nodeInput node.nodeId) attempt.input
            output :=
              if unsafeConnectorOutput then masked attempt.output
              else projectWorkflowEvidence graph (.nodeOutput node.nodeId) attempt.output } }

def projectWorkflowEdgeEvidence (graph : WorkflowGraph) (edges : List EdgeEvidence)
    (unsafeConnectorOutput : Bool) : List EdgeEvidence :=
  if projectsNothing graph then edges
  else
    edges.map fun edge =>
      { edge with
        evidence :=
          if unsafeConnectorOutput then masked edge.evidence
          else projectWorkflowEvidence graph (.edge edge.edgeId) edge.evidence }

/-- The test of `projectWorkflowTraceEvidence` that masks a whole trace. -/
def unsafeConnectorOutput (graph : WorkflowGraph) (nodes : List NodeEvidence) : Bool :=
  (evidenceTaint graph).any fun taint =>
    taint.legacyConnector ||
      nodes.any fun node =>
        node.nodeId ∈ taint.connectorNodeIds &&
          node.attempts.any fun attempt => !safeConnectorOutput attempt.output

def projectWorkflowTraceEvidence (graph : WorkflowGraph) (nodes : List NodeEvidence)
    (edges : List EdgeEvidence) : List NodeEvidence × List EdgeEvidence :=
  (projectWorkflowNodeEvidence graph nodes (unsafeConnectorOutput graph nodes),
    projectWorkflowEdgeEvidence graph edges (unsafeConnectorOutput graph nodes))

/-! ### The taint relation -/

/-- Some port of a node has a schema that is restricted to a reader with the
given permissions. -/
def HasRestrictedPort (graph : WorkflowGraph) (permissions : List String) (node : WorkflowNode) :
    Prop :=
  ∃ port ∈ node.inputPorts ++ node.outputPorts, ∃ schema, (port.schemaId, schema) ∈ graph.schemas ∧
    restrictedSchemaDescendant permissions (.obj schema) 0 ≠ none

/-- A node is tainted when it has a restricted port, when an edge enters it from
a tainted node, and when one of its mappings names one. -/
inductive Tainted (graph : WorkflowGraph) : String → Prop
  | port {node : WorkflowNode} : node ∈ graph.nodes → HasRestrictedPort graph [] node →
      Tainted graph node.id
  | edge {edge : WorkflowEdge} : edge ∈ graph.edges → Tainted graph edge.source.nodeId →
      Tainted graph edge.target.nodeId
  | mapping {node : WorkflowNode} {mapping : WorkflowTargetMapping} {source : MappingSource} :
      node ∈ graph.nodes → mapping ∈ node.mappings → source ∈ mapping.binding.sources →
      Tainted graph source.sourceNodeId → Tainted graph node.id

/-- The nodes the restricted taint holds, none when there is no taint. -/
def taintedNodes (graph : WorkflowGraph) : List String :=
  match restrictedEvidenceTaint graph with
  | none => []
  | some taint => taint.nodeIds

variable {graph : WorkflowGraph}

/-! ### The loop computes the relation -/

theorem TaintLoop.step_work (graph : WorkflowGraph) (admitted : String → Bool) (loop : TaintLoop) :
    (loop.step graph admitted).work =
      loop.work.step fun source => (reachedNodes graph source).filter admitted := by
  unfold TaintLoop.step
  split
  · next hq => rw [Worklist.step_queue_nil hq]
  · rfl

theorem TaintLoop.run_work (graph : WorkflowGraph) (admitted : String → Bool) (n : ℕ) :
    ∀ loop : TaintLoop, (loop.run graph admitted n).work =
      loop.work.run (fun source => (reachedNodes graph source).filter admitted) n := by
  induction n with
  | zero => exact fun _ => rfl
  | succ n ih => exact fun loop => by rw [run, ih, step_work, Worklist.run]

/-- Every edge that leaves a visited node has been recorded. -/
def TaintLoop.EdgesRecorded (graph : WorkflowGraph) (loop : TaintLoop) : Prop :=
  ∀ edge ∈ graph.edges, edge.source.nodeId ∈ loop.work.seen →
    edge.source.nodeId ∉ loop.work.queue → edge.id ∈ loop.edgeIds

variable {admitted : String → Bool} {id : String} {unsafeOutput : Bool}

/-- One iteration records the edges of the node it visits. -/
theorem TaintLoop.EdgesRecorded.step {loop : TaintLoop}
    (hi : Worklist.Inv (fun source => (reachedNodes graph source).filter admitted) loop.work)
    (h : loop.EdgesRecorded graph) : (loop.step graph admitted).EdgesRecorded graph := by
  intro edge he hs hque
  rw [step_work] at hs hque
  obtain ⟨hb, hv⟩ := Worklist.visited_of_step hi hs hque
  unfold TaintLoop.step
  split
  · next hq =>
    rcases hv with hn | hh
    · exact h edge he hb hn
    · rw [hq] at hh
      cases hh
  · next source rest hq =>
    rw [hq, List.head?_cons, Option.some.injEq] at hv
    refine List.mem_append.2 ?_
    rcases hv with hn | hh
    · exact .inl (h edge he hb (hq ▸ hn))
    · exact .inr (List.mem_map_of_mem (List.mem_filter.2 ⟨he, by simpa using hh.symm⟩))

theorem TaintLoop.EdgesRecorded.run (n : ℕ) : ∀ {loop : TaintLoop},
    Worklist.Inv (fun source => (reachedNodes graph source).filter admitted) loop.work →
      loop.EdgesRecorded graph → (loop.run graph admitted n).EdgesRecorded graph := by
  induction n with
  | zero => exact fun _ h => h
  | succ n ih =>
    intro loop hi h
    exact ih (by rw [step_work]; exact hi.step) (h.step hi)

/-- Every node a loop can visit: those of the graph and the targets of its
edges. -/
def taintUniverse (graph : WorkflowGraph) : List String :=
  graph.nodes.map (·.id) ++ graph.edges.map (·.target.nodeId)

theorem mem_reachedNodes {a b : String} :
    b ∈ reachedNodes graph a ↔
      (∃ edge ∈ graph.edges, edge.source.nodeId = a ∧ edge.target.nodeId = b) ∨
        ∃ node ∈ graph.nodes, ∃ mapping ∈ node.mappings, ∃ source ∈ mapping.binding.sources,
          source.sourceNodeId = a ∧ node.id = b := by
  simp only [reachedNodes, outgoingEdges, sourceNodes, List.mem_append, List.mem_map,
    List.mem_filter, List.mem_flatMap, decide_eq_true_eq, and_assoc]

theorem reachedNodes_subset (graph : WorkflowGraph) (a : String) :
    reachedNodes graph a ⊆ taintUniverse graph := by
  intro b hb
  rcases mem_reachedNodes.1 hb with ⟨edge, he, -, rfl⟩ | ⟨node, hn, _, -, _, -, -, rfl⟩
  · exact List.mem_append_right _ (List.mem_map_of_mem he)
  · exact List.mem_append_left _ (List.mem_map_of_mem hn)

/-- **The loop visits what its starts reach** and records every edge that leaves
a node it visited. -/
theorem taintLoop_spec (graph : WorkflowGraph) (admitted : String → Bool) {starts : List String}
    (hsta : starts ⊆ taintUniverse graph) :
    (∀ b, b ∈ (taintLoop graph admitted starts).work.seen ↔ ∃ a ∈ starts,
        Relation.ReflTransGen (fun x y => y ∈ (reachedNodes graph x).filter admitted) a b) ∧
      ∀ edge ∈ graph.edges, edge.source.nodeId ∈ (taintLoop graph admitted starts).work.seen →
        edge.id ∈ (taintLoop graph admitted starts).edgeIds := by
  have hl : graph.nodes.length + graph.edges.length = (taintUniverse graph).length := by
    simp [taintUniverse]
  have hc : ∀ a ∈ taintUniverse graph,
      (reachedNodes graph a).filter admitted ⊆ taintUniverse graph :=
    fun a _ => List.Subset.trans (List.filter_subset_self _) (reachedNodes_subset graph a)
  have hw : (taintLoop graph admitted starts).work = (Worklist.start starts).run
      (fun source => (reachedNodes graph source).filter admitted) (taintUniverse graph).length := by
    rw [taintLoop, TaintLoop.run_work, hl]
  refine ⟨fun b => ?_, fun edge he hseen => ?_⟩
  · rw [hw]
    exact Worklist.mem_run_iff hsta hc
  · have hi := Worklist.inv_start (fun source => (reachedNodes graph source).filter admitted) starts
    have hr : (taintLoop graph admitted starts).EdgesRecorded graph :=
      TaintLoop.EdgesRecorded.run _ hi fun edge _ hs hq =>
        absurd (Worklist.start_queue starts ▸ hs) hq
    exact hr edge he hseen (by rw [hw, Worklist.run_queue hsta hc]; simp)

theorem mem_restrictedStarts {node : WorkflowNode} :
    node ∈ restrictedStarts graph ↔ node ∈ graph.nodes ∧ HasRestrictedPort graph [] node := by
  rw [restrictedStarts, List.mem_filter, List.any_eq_true, HasRestrictedPort]
  refine and_congr_right fun _ => exists_congr fun port => and_congr_right fun _ => ?_
  rw [decide_eq_true_iff]
  simp only [restrictedSchemas, List.mem_map, List.mem_filter, schemaHasRestrictedEvidence,
    ← Option.isSome_iff_ne_none]
  constructor
  · rintro ⟨⟨id, schema⟩, ⟨hm, hr⟩, rfl⟩
    exact ⟨schema, hm, hr⟩
  · rintro ⟨schema, hm, hr⟩
    exact ⟨(port.schemaId, schema), ⟨hm, hr⟩, rfl⟩

theorem restrictedStarts_subset (graph : WorkflowGraph) :
    (restrictedStarts graph).map (·.id) ⊆ taintUniverse graph := by
  intro a ha
  obtain ⟨node, hn, rfl⟩ := List.mem_map.1 ha
  exact List.mem_append_left _ (List.mem_map_of_mem (mem_restrictedStarts.1 hn).1)

theorem taintedNodes_eq (graph : WorkflowGraph) :
    taintedNodes graph = if (restrictedStarts graph).isEmpty then [] else
      (taintLoop graph (fun _ => true) ((restrictedStarts graph).map (·.id))).work.seen := by
  unfold taintedNodes restrictedEvidenceTaint
  by_cases h : (restrictedStarts graph).isEmpty <;> simp [h]

/-- **The computed taint is the relation.** -/
theorem mem_taintedNodes_iff : id ∈ taintedNodes graph ↔ Tainted graph id := by
  have hspec := (taintLoop_spec graph (fun _ => true) (restrictedStarts_subset graph)).1
  rw [taintedNodes_eq]
  constructor
  · intro h
    split at h
    · cases h
    · obtain ⟨a, ha, hr⟩ := (hspec id).1 h
      obtain ⟨node, hnode, rfl⟩ := List.mem_map.1 ha
      rw [mem_restrictedStarts] at hnode
      induction hr with
      | refl => exact .port hnode.1 hnode.2
      | tail _ hstep ih =>
        rw [List.filter_true, mem_reachedNodes] at hstep
        rcases hstep with ⟨edge, he, rfl, rfl⟩ | ⟨n, hn, m, hm, s, hs, rfl, rfl⟩
        · exact .edge he (ih ((hspec _).2 ⟨_, ha, by assumption⟩))
        · exact .mapping hn hm hs (ih ((hspec _).2 ⟨_, ha, by assumption⟩))
  · intro h
    have hsta : ¬ (restrictedStarts graph).isEmpty := by
      rw [List.isEmpty_iff]
      induction h with
      | port hnode hp => exact List.ne_nil_of_mem (mem_restrictedStarts.2 ⟨hnode, hp⟩)
      | edge _ _ ih => exact ih
      | mapping _ _ _ _ ih => exact ih
    rw [if_neg hsta, hspec]
    induction h with
    | port hnode hp =>
      exact ⟨_, List.mem_map_of_mem (mem_restrictedStarts.2 ⟨hnode, hp⟩), .refl⟩
    | edge he _ ih =>
      obtain ⟨a, ha, hr⟩ := ih
      exact ⟨a, ha, hr.tail (by rw [List.filter_true]; exact mem_reachedNodes.2 (.inl ⟨_, he, rfl, rfl⟩))⟩
    | mapping hnode hmap hsou _ ih =>
      obtain ⟨a, ha, hr⟩ := ih
      exact ⟨a, ha, hr.tail (by
        rw [List.filter_true]
        exact mem_reachedNodes.2 (.inr ⟨_, hnode, _, hmap, _, hsou, rfl, rfl⟩))⟩

/-! ### No preview of what is tainted -/

theorem masked_preview (evidence : WorkflowPayloadEvidence) : (masked evidence).preview = none := by
  unfold masked
  split
  · next h => exact h.1
  · rfl

/-- A covered scope is projected without a preview. -/
theorem projectWorkflowEvidence_preview {taint : RestrictedEvidenceTaint} {scope : EvidenceScope}
    (ht : restrictedEvidenceTaint graph = some taint) (hs : taint.covers scope = true)
    (evidence : WorkflowPayloadEvidence) :
    (projectWorkflowEvidence graph scope evidence).preview = none := by
  unfold projectWorkflowEvidence
  split
  · exact masked_preview evidence
  · rw [ht, Option.any_some, hs, if_pos rfl]
    exact masked_preview evidence

/-- A tainted node has a taint, which covers its input, its output and the edges
that leave it. -/
theorem covers_of_mem_taintedNodes (h : id ∈ taintedNodes graph) :
    ∃ taint, restrictedEvidenceTaint graph = some taint ∧
      taint.covers (.nodeInput id) = true ∧ taint.covers (.nodeOutput id) = true ∧
      ∀ edge ∈ graph.edges, edge.source.nodeId = id → taint.covers (.edge edge.id) = true := by
  have hspec := (taintLoop_spec graph (fun _ => true) (restrictedStarts_subset graph)).2
  have hs := h
  rw [taintedNodes_eq] at hs
  split at hs
  · cases hs
  · next hsta =>
    rw [restrictedEvidenceTaint, if_neg hsta]
    refine ⟨_, rfl, decide_eq_true hs, decide_eq_true hs, fun edge he hsou => ?_⟩
    exact decide_eq_true (hspec edge he (hsou ▸ hs))

/-- The evidence of a node is projected attempt by attempt. -/
theorem projectWorkflowNodeEvidence_preview {nodes : List NodeEvidence}
    {node : NodeEvidence} (hn : node ∈ projectWorkflowNodeEvidence graph nodes unsafeOutput)
    (htai : node.nodeId ∈ taintedNodes graph) :
    ∀ attempt ∈ node.attempts, attempt.input.preview = none ∧ attempt.output.preview = none := by
  obtain ⟨taint, ht, hi, ho, -⟩ := covers_of_mem_taintedNodes htai
  have hp : projectsNothing graph = false := by simp [projectsNothing, ht]
  rw [projectWorkflowNodeEvidence, hp, if_neg Bool.false_ne_true, List.mem_map] at hn
  obtain ⟨original, -, rfl⟩ := hn
  intro attempt ha
  obtain ⟨kept, -, rfl⟩ := List.mem_map.1 ha
  cases unsafeOutput with
  | true => exact ⟨masked_preview _, masked_preview _⟩
  | false =>
    exact ⟨projectWorkflowEvidence_preview ht hi _, projectWorkflowEvidence_preview ht ho _⟩

/-- The evidence of an edge that leaves a tainted node is projected without a
preview. -/
theorem projectWorkflowEdgeEvidence_preview {edges : List EdgeEvidence}
    {edge : WorkflowEdge} {transfer : EdgeEvidence} (he : edge ∈ graph.edges)
    (htainted : edge.source.nodeId ∈ taintedNodes graph)
    (ht : transfer ∈ projectWorkflowEdgeEvidence graph edges unsafeOutput)
    (hid : transfer.edgeId = edge.id) : transfer.evidence.preview = none := by
  obtain ⟨taint, htai, -, -, hedg⟩ := covers_of_mem_taintedNodes htainted
  have hp : projectsNothing graph = false := by simp [projectsNothing, htai]
  rw [projectWorkflowEdgeEvidence, hp, if_neg Bool.false_ne_true, List.mem_map] at ht
  obtain ⟨original, -, rfl⟩ := ht
  cases unsafeOutput with
  | true => exact masked_preview _
  | false =>
    exact projectWorkflowEvidence_preview htai (hid ▸ hedg edge he rfl) _

/-- **The evidence taint is closed and hides what it covers.**  For every graph
and every permission set, the nodes of `restrictedEvidenceTaint` include each node
with a restricted port, each node an edge enters from one of them, and each node
with a mapping that names one; and no evidence of such a node, of an attempt of
it or of an edge leaving it keeps its preview. -/
theorem restrictedEvidenceTaint_closed (graph : WorkflowGraph) (permissions : List String) :
    (∀ node ∈ graph.nodes, HasRestrictedPort graph permissions node →
      node.id ∈ taintedNodes graph) ∧
    (∀ edge ∈ graph.edges, edge.source.nodeId ∈ taintedNodes graph →
      edge.target.nodeId ∈ taintedNodes graph) ∧
    (∀ node ∈ graph.nodes, ∀ mapping ∈ node.mappings, ∀ source ∈ mapping.binding.sources,
      source.sourceNodeId ∈ taintedNodes graph → node.id ∈ taintedNodes graph) ∧
    (∀ id ∈ taintedNodes graph, ∀ evidence,
      (projectWorkflowEvidence graph (.nodeInput id) evidence).preview = none ∧
        (projectWorkflowEvidence graph (.nodeOutput id) evidence).preview = none) ∧
    (∀ edge ∈ graph.edges, edge.source.nodeId ∈ taintedNodes graph → ∀ evidence,
      (projectWorkflowEvidence graph (.edge edge.id) evidence).preview = none) ∧
    ∀ nodes edges,
      (∀ node ∈ (projectWorkflowTraceEvidence graph nodes edges).1,
        node.nodeId ∈ taintedNodes graph → ∀ attempt ∈ node.attempts,
          attempt.input.preview = none ∧ attempt.output.preview = none) ∧
      ∀ edge ∈ graph.edges, edge.source.nodeId ∈ taintedNodes graph →
        ∀ transfer ∈ (projectWorkflowTraceEvidence graph nodes edges).2,
          transfer.edgeId = edge.id → transfer.evidence.preview = none := by
  refine ⟨fun node hn hp => ?_, fun edge he h => ?_,
    fun node hn mapping hm source hs h => ?_, fun id h evidence => ?_,
    fun edge he h evidence => ?_, fun nodes edges => ⟨fun node hn h => ?_,
      fun edge he h transfer htra hid => ?_⟩⟩
  · obtain ⟨port, hmem, schema, hsch, hr⟩ := hp
    exact mem_taintedNodes_iff.2 (.port hn
      ⟨port, hmem, schema, hsch, restrictedSchemaDescendant_nil_ne_none permissions _ _ hr⟩)
  · exact mem_taintedNodes_iff.2 (.edge he (mem_taintedNodes_iff.1 h))
  · exact mem_taintedNodes_iff.2 (.mapping hn hm hs (mem_taintedNodes_iff.1 h))
  · obtain ⟨taint, ht, hi, ho, -⟩ := covers_of_mem_taintedNodes h
    exact ⟨projectWorkflowEvidence_preview ht hi evidence,
      projectWorkflowEvidence_preview ht ho evidence⟩
  · obtain ⟨taint, ht, -, -, hedg⟩ := covers_of_mem_taintedNodes h
    exact projectWorkflowEvidence_preview ht (hedg edge he rfl) evidence
  · exact projectWorkflowNodeEvidence_preview hn h
  · exact projectWorkflowEdgeEvidence_preview he h htra hid

/-- A graph whose input carries a secret to its output. -/
def secretGraph : WorkflowGraph :=
  { nodes :=
      [{ id := "a.in", label := "in", config := .input, inputPorts := [],
         outputPorts := [⟨"data", "s.secret"⟩] },
       { id := "a.out", label := "out", config := .output, inputPorts := [⟨"input", "s.plain"⟩],
         outputPorts := [] }]
    edges := [{ id := "e.one", source := ⟨"a.in", "data"⟩, target := ⟨"a.out", "input"⟩ }]
    schemas := [("s.secret", [("writeOnly", .bool true)]), ("s.plain", [])] }

example : taintedNodes secretGraph = ["a.in", "a.out"] := by decide

end Flowdular.Workflows
