/-
# What a graph without errors satisfies

`src/modules/workflows/src/domain/graph.ts`, lines 834-1385.

The worker and the simulator rely on the shape `compileWorkflowGraph` checks:
an order of the nodes that every edge follows, one input that reaches every node,
an output behind every node, edges between ports of one schema, connected inputs,
and mappings that read ancestors only (`GraphSound`).  Every graph the compiler
has no error for has it (`graphSound_of_valid`).

One thing the shape does not hold: that the schemas are there.  The compiler looks
a schema up by `graph.schemas[id]`, which finds what every object inherits, so a
port may name `constructor` or `toString` and pass.  The schemas of the edges are
declared exactly when no edge joins such ports (`edgeSchemasDeclared_iff`).
-/

import Flowdular.Workflows.Graph
import Mathlib.Data.List.Dedup

namespace Flowdular.Workflows

open Lib (Kahn Search)

/-! ### The shape of a graph -/

/-- An edge leads from one node to another. -/
def EdgeTo (graph : WorkflowGraph) (a b : String) : Prop :=
  ∃ edge ∈ graph.edges, edge.source.nodeId = a ∧ edge.target.nodeId = b

/-- The edge joins a port of a node to a port of a node. -/
def JoinsPorts (graph : WorkflowGraph) (edge : WorkflowEdge) (sourcePort targetPort : WorkflowPort) :
    Prop :=
  (∃ source ∈ graph.nodes, source.id = edge.source.nodeId ∧ sourcePort ∈ source.outputPorts ∧
      sourcePort.name = edge.source.port) ∧
    ∃ target ∈ graph.nodes, target.id = edge.target.nodeId ∧ targetPort ∈ target.inputPorts ∧
      targetPort.name = edge.target.port

/-- The number of edges into an input port. -/
def WorkflowGraph.edgesInto (graph : WorkflowGraph) (nodeId port : String) : ℕ :=
  graph.edges.countP fun edge => edge.target.nodeId = nodeId ∧ edge.target.port = port

/-- The shape the compiler checks of a graph and the order it returns for it. -/
structure GraphSound (graph : WorkflowGraph) (order : List String) : Prop where
  nodup : (graph.nodes.map (·.id)).Nodup
  perm : order.Perm (graph.nodes.map (·.id))
  sources_first : ∀ edge ∈ graph.edges,
    order.idxOf edge.source.nodeId < order.idxOf edge.target.nodeId
  one_input : (graph.nodes.filter (·.isInput)).length = 1
  reachable : ∀ node ∈ graph.nodes, ∃ input ∈ graph.nodes, input.isInput = true ∧
    Relation.ReflTransGen (EdgeTo graph) input.id node.id
  reaches_output : ∀ node ∈ graph.nodes, ∃ output ∈ graph.nodes, output.isOutput = true ∧
    Relation.ReflTransGen (EdgeTo graph) node.id output.id
  edges_join : ∀ edge ∈ graph.edges, ∃ sourcePort targetPort,
    JoinsPorts graph edge sourcePort targetPort ∧ sourcePort.schemaId = targetPort.schemaId
  inputs_connected : ∀ node ∈ graph.nodes, ∀ port ∈ node.inputPorts,
    1 ≤ graph.edgesInto node.id port.name ∧
      (graph.edgesInto node.id port.name = 1 ∨ node.isMerge = true ∧ port.name = "items")
  mappings_upstream : ∀ node ∈ graph.nodes, ∀ mapping ∈ node.mappings,
    ∀ source ∈ mapping.binding.sources,
      Relation.TransGen (EdgeTo graph) source.sourceNodeId node.id ∧
        ∃ owner ∈ graph.nodes, owner.id = source.sourceNodeId ∧
          ∃ port ∈ owner.outputPorts, port.name = source.sourcePort

/-- The schema ids of the ports an edge joins are own entries of the schemas. -/
def EdgeSchemasDeclared (graph : WorkflowGraph) : Prop :=
  ∀ edge ∈ graph.edges, ∀ sourcePort targetPort, JoinsPorts graph edge sourcePort targetPort →
    (graph.schemas.lookup sourcePort.schemaId).isSome ∧
      (graph.schemas.lookup targetPort.schemaId).isSome

/-- No edge joins ports whose schema id names a member of `Object.prototype`. -/
def NoInheritedSchema (graph : WorkflowGraph) : Prop :=
  ∀ edge ∈ graph.edges, ∀ sourcePort targetPort, JoinsPorts graph edge sourcePort targetPort →
    sourcePort.schemaId ∉ objectPrototypeNames ∧ targetPort.schemaId ∉ objectPrototypeNames

/-! ### The loops of the compiler, read back -/

variable {graph : WorkflowGraph} {catalog : Option WorkflowReferenceCatalog}

/-- What the loop over the nodes leaves of a node it has no issue with. -/
structure NodeChecked (graph : WorkflowGraph) (node : WorkflowNode) : Prop where
  identifier : isIdentifier node.id = true
  supported : (expectedPorts node.config).isSome
  inputs : portIssues graph node "input" node.inputPorts = []
  outputs : portIssues graph node "output" node.outputPorts = []
  policy : node.failurePolicy.any refusedPolicy = false

variable {earlier : List String}

theorem nodeIssues_eq_nil [Host] {node : WorkflowNode}
    (h : nodeIssues graph catalog earlier node = []) :
    node.id ∉ earlier ∧ NodeChecked graph node := by
  simp only [nodeIssues, List.append_eq_nil_iff, issueIf_eq_nil] at h
  obtain ⟨⟨⟨hid, he⟩, -⟩, h⟩ := h
  cases hp : expectedPorts node.config with
  | none => rw [hp] at h; cases h
  | some ports =>
    rw [hp] at h
    simp only [List.append_eq_nil_iff, issueIf_eq_nil] at h
    obtain ⟨⟨⟨⟨⟨⟨⟨hin, ho⟩, -⟩, hpol⟩, -⟩, -⟩, -⟩, -⟩ := h
    exact ⟨by simpa using he, by simpa using hid, by rw [hp]; rfl, hin, ho, hpol⟩

theorem nodesIssues_eq_nil [Host] (nodes : List WorkflowNode) : ∀ earlier : List String,
    nodesIssues graph catalog earlier nodes = [] →
      (nodes.map (·.id)).Nodup ∧ (∀ node ∈ nodes, node.id ∉ earlier) ∧
        ∀ node ∈ nodes, NodeChecked graph node := by
  induction nodes with
  | nil => simp
  | cons node nodes ih =>
    intro earlier h
    rw [nodesIssues, List.append_eq_nil_iff] at h
    obtain ⟨hnot, hc⟩ := nodeIssues_eq_nil h.1
    obtain ⟨hn, he, ha⟩ := ih _ h.2
    refine ⟨?_, ?_, ?_⟩
    · rw [List.map_cons, List.nodup_cons]
      refine ⟨fun hm => ?_, hn⟩
      obtain ⟨other, ho, hid⟩ := List.mem_map.1 hm
      exact he other ho (by rw [hid]; simp)
    · rintro other ho
      rcases List.mem_cons.1 ho with rfl | ho
      · exact hnot
      · exact fun hm => he other ho (List.mem_append_left _ hm)
    · rintro other ho
      rcases List.mem_cons.1 ho with rfl | ho
      · exact hc
      · exact ha other ho

theorem nodeById_eq_some {id : String} {node : WorkflowNode} (h : graph.nodeById id = some node) :
    node ∈ graph.nodes ∧ node.id = id := by
  refine ⟨List.mem_reverse.1 (List.mem_of_find?_eq_some h), ?_⟩
  simpa using List.find?_some h

theorem edgeIssues_eq_nil {edge : WorkflowEdge} (h : edgeIssues graph earlier edge = []) :
    (isIdentifier edge.id = true ∧ edge.id ∉ earlier) ∧
      ((graph.nodeById edge.source.nodeId).isSome ∧ (graph.nodeById edge.target.nodeId).isSome) ∧
        ∃ sourcePort targetPort, JoinsPorts graph edge sourcePort targetPort ∧
          sourcePort.schemaId = targetPort.schemaId := by
  simp only [edgeIssues, List.append_eq_nil_iff, issueIf_eq_nil] at h
  obtain ⟨⟨hid, he⟩, h⟩ := h
  refine ⟨⟨by simpa using hid, by simpa using he⟩, ?_⟩
  split at h
  · next source target hsou htar =>
    split at h
    · next sourcePort targetPort hsp htp =>
      rw [issueIf_eq_nil] at h
      obtain ⟨hs, hsid⟩ := nodeById_eq_some hsou
      obtain ⟨ht, htid⟩ := nodeById_eq_some htar
      refine ⟨⟨by rw [hsou]; rfl, by rw [htar]; rfl⟩, sourcePort, targetPort,
        ⟨⟨source, hs, hsid, List.mem_of_find?_eq_some hsp, ?_⟩,
          target, ht, htid, List.mem_of_find?_eq_some htp, ?_⟩, by simpa using h⟩
      · simpa using List.find?_some hsp
      · simpa using List.find?_some htp
    · cases h
  · cases h

theorem edgesIssues_eq_nil (edges : List WorkflowEdge) : ∀ earlier : List String,
    edgesIssues graph earlier edges = [] →
      (edges.map (·.id)).Nodup ∧ (∀ edge ∈ edges, edge.id ∉ earlier) ∧
        ∀ edge ∈ edges, ∃ before, edgeIssues graph before edge = [] := by
  induction edges with
  | nil => simp
  | cons edge edges ih =>
    intro earlier h
    rw [edgesIssues, List.append_eq_nil_iff] at h
    obtain ⟨⟨-, hnot⟩, -⟩ := edgeIssues_eq_nil h.1
    obtain ⟨hn, he, ha⟩ := ih _ h.2
    refine ⟨?_, ?_, List.forall_mem_cons.2 ⟨⟨earlier, h.1⟩, ha⟩⟩
    · rw [List.map_cons, List.nodup_cons]
      refine ⟨fun hm => ?_, hn⟩
      obtain ⟨other, ho, hid⟩ := List.mem_map.1 hm
      exact he other ho (by rw [hid]; simp)
    · exact List.forall_mem_cons.2
        ⟨hnot, fun other ho hm => he other ho (List.mem_append_left _ hm)⟩

theorem schemaLookup_isTruthy {node : WorkflowNode} {kind : String} {ports : List WorkflowPort}
    (h : portIssues graph node kind ports = []) {port : WorkflowPort} (hp : port ∈ ports) :
    (graph.schemaLookup port.schemaId).isTruthy = true := by
  simp only [portIssues, List.append_eq_nil_iff, List.flatMap_eq_nil_iff, issueIf_eq_nil,
    Bool.not_eq_false'] at h
  exact h.2 port hp

/-- The pieces of an empty list of issues that carry the shape. -/
structure NoIssues [Host] (graph : WorkflowGraph) : Prop where
  schemas : ∀ e ∈ graph.schemas, isIdentifier e.1 = true
  nodup : (graph.nodes.map (·.id)).Nodup
  nodes : ∀ node ∈ graph.nodes, NodeChecked graph node
  edgesNodup : (graph.edges.map (·.id)).Nodup
  edges : ∀ edge ∈ graph.edges, ∃ before, edgeIssues graph before edge = []
  cardinality : ∀ node ∈ graph.nodes, cardinalityIssues graph node = []
  one_input : (graph.nodes.filter (·.isInput)).length = 1
  acyclic : graph.cyclic = false
  reachable : ∀ node ∈ graph.nodes, node.id ∈ reachableNodes graph
  flow : ∀ node ∈ graph.nodes, flowIssues graph node = []

theorem noIssues_of_compileIssues [Host] (h : compileIssues graph catalog = []) : NoIssues graph := by
  simp only [compileIssues, List.append_eq_nil_iff, List.flatMap_eq_nil_iff, issueIf_eq_nil] at h
  obtain ⟨⟨⟨⟨⟨⟨⟨⟨⟨⟨⟨⟨-, hs⟩, -⟩, hn⟩, -⟩, -⟩, hedg⟩, hc⟩, hcou⟩, hcyc⟩, hr⟩, hf⟩, -⟩ := h
  obtain ⟨hnod, -, hche⟩ := nodesIssues_eq_nil _ _ hn
  obtain ⟨hedgesNodup, -, hedg⟩ := edgesIssues_eq_nil _ _ hedg
  refine ⟨fun e he => ?_, hnod, hche, hedgesNodup, hedg, hc, ?_, hcyc,
    fun node hnode => by simpa using hr node hnode, hf⟩
  · have := hs e he
    simp only [schemaIssues, List.append_eq_nil_iff, issueIf_eq_nil] at this
    simpa using this.1.1
  · simp only [countIssues, List.append_eq_nil_iff, issueIf_eq_nil] at hcou
    simpa using hcou.1

/-! ### The shape holds -/

section Shape

variable [Host] (h : NoIssues graph)

include h

theorem NoIssues.joined (edge : WorkflowEdge) (he : edge ∈ graph.edges) :
    (graph.nodeById edge.source.nodeId).isSome ∧ (graph.nodeById edge.target.nodeId).isSome :=
  have ⟨_, hi⟩ := h.edges edge he
  (edgeIssues_eq_nil hi).2.1

theorem NoIssues.joinedEdges : graph.joinedEdges = graph.edges :=
  List.filter_eq_self.2 fun edge he => by
    rw [Bool.and_eq_true]
    exact h.joined edge he

theorem NoIssues.mem_nodeIds {edge : WorkflowEdge} (he : edge ∈ graph.edges) :
    edge.source.nodeId ∈ graph.nodes.map (·.id) ∧ edge.target.nodeId ∈ graph.nodes.map (·.id) := by
  obtain ⟨hs, ht⟩ := h.joined edge he
  obtain ⟨source, hsou⟩ := Option.isSome_iff_exists.1 hs
  obtain ⟨target, htar⟩ := Option.isSome_iff_exists.1 ht
  exact ⟨List.mem_map.2 ⟨source, nodeById_eq_some hsou⟩,
    List.mem_map.2 ⟨target, nodeById_eq_some htar⟩⟩

/-- The state the topological sort ends in. -/
theorem NoIssues.kahn : Kahn.Inv (graph.nodes.map (·.id)) graph.joinedPairs
    (Kahn.run sortStrings graph.joinedPairs graph.nodes.length
      (Kahn.start sortStrings graph.nodeIds graph.joinedPairs)) := by
  have hi : graph.nodeIds = graph.nodes.map (·.id) := List.Nodup.dedup h.nodup
  rw [hi]
  refine Kahn.inv_run sortStrings_perm (fun e he => ?_) _ (Kahn.inv_start sortStrings_perm h.nodup)
  obtain ⟨edge, hedge, rfl⟩ := List.mem_map.1 he
  rw [h.joinedEdges] at hedge
  exact (h.mem_nodeIds hedge).2

theorem NoIssues.perm : (stableTopologicalOrder graph).Perm (graph.nodes.map (·.id)) := by
  have hl : (stableTopologicalOrder graph).length = graph.nodes.length := by
    simpa [WorkflowGraph.cyclic] using h.acyclic
  refine h.kahn.perm_of_length ?_
  rw [List.length_map]
  exact hl

/-- Every edge runs forward in the order. -/
theorem NoIssues.sources_first {edge : WorkflowEdge} (he : edge ∈ graph.edges) :
    (stableTopologicalOrder graph).idxOf edge.source.nodeId <
      (stableTopologicalOrder graph).idxOf edge.target.nodeId := by
  have hp : (edge.source.nodeId, edge.target.nodeId) ∈ graph.joinedPairs := by
    rw [WorkflowGraph.joinedPairs, h.joinedEdges]
    exact List.mem_map_of_mem he
  exact h.kahn.idxOf_lt hp (h.perm.mem_iff.2 (h.mem_nodeIds he).2)

/-- What the reachability search visits is reached from the input node. -/
theorem NoIssues.reached {node : WorkflowNode} (hn : node ∈ graph.nodes) :
    ∃ input ∈ graph.nodes, input.isInput = true ∧
      Relation.ReflTransGen (EdgeTo graph) input.id node.id := by
  have hi : Search.Inv (successors graph)
      (((graph.nodes.filter (·.isInput)).head?.map (·.id)).toList)
      ((Search.start (((graph.nodes.filter (·.isInput)).head?.map (·.id)).toList)).run
        (successors graph) (· ++ ·) (searchFuel graph)) :=
    Search.inv_start.run (fun _ _ => .refl _) _
  obtain ⟨start, hs, hr⟩ := hi.reached node.id (.inl (h.reachable node hn))
  obtain ⟨input, hinp, rfl⟩ := Option.map_eq_some_iff.1 (Option.mem_toList.1 hs)
  obtain ⟨hm, hk⟩ := List.mem_filter.1 (List.mem_of_head? hinp)
  refine ⟨input, hm, hk, Relation.ReflTransGen.mono (fun a b hb => ?_) _ _ hr⟩
  obtain ⟨edge, he, rfl⟩ := List.mem_map.1 hb
  rw [List.mem_filter, decide_eq_true_eq] at he
  exact ⟨edge, he.1, he.2, rfl⟩

/-- Every node but an output has an edge to a node behind it. -/
theorem NoIssues.exists_edge {node : WorkflowNode} (hn : node ∈ graph.nodes)
    (ho : node.isOutput = false) : ∃ next ∈ graph.nodes, EdgeTo graph node.id next.id ∧
      (stableTopologicalOrder graph).idxOf node.id < (stableTopologicalOrder graph).idxOf next.id := by
  have hc := h.cardinality node hn
  simp only [cardinalityIssues, List.append_eq_nil_iff, issueIf_eq_nil, ho, Bool.not_false,
    Bool.true_and, decide_eq_false_iff_not] at hc
  have hp : 0 < graph.outgoingCount node.id := by have := hc.2; omega
  rw [WorkflowGraph.outgoingCount, h.joinedEdges, List.countP_pos_iff] at hp
  obtain ⟨edge, he, hs⟩ := hp
  rw [decide_eq_true_eq] at hs
  obtain ⟨next, hnext, hid⟩ := List.mem_map.1 (h.mem_nodeIds he).2
  refine ⟨next, hnext, ⟨edge, he, hs, hid.symm⟩, ?_⟩
  have := h.sources_first he
  rwa [hs, ← hid] at this

/-- Following such edges ends at an output node. -/
theorem NoIssues.reaches_output : ∀ (n : ℕ) (node : WorkflowNode), node ∈ graph.nodes →
    (stableTopologicalOrder graph).length - (stableTopologicalOrder graph).idxOf node.id ≤ n →
      ∃ output ∈ graph.nodes, output.isOutput = true ∧
        Relation.ReflTransGen (EdgeTo graph) node.id output.id := by
  intro n
  induction n with
  | zero =>
    intro node hnode hn
    have hm := h.perm.mem_iff.2 (List.mem_map_of_mem (f := (·.id)) hnode)
    have := List.idxOf_lt_length_iff.2 hm
    omega
  | succ n ih =>
    intro node hnode hn
    cases ho : node.isOutput with
    | true => exact ⟨node, hnode, ho, .refl⟩
    | false =>
      obtain ⟨next, hnext, he, hlt⟩ := h.exists_edge hnode ho
      have hm := h.perm.mem_iff.2 (List.mem_map_of_mem (f := (·.id)) hnext)
      have := List.idxOf_lt_length_iff.2 hm
      obtain ⟨output, hout, hk, hr⟩ := ih next hnext (by omega)
      exact ⟨output, hout, hk, .head he hr⟩

/-- The compiler counts the edges of a port under a key that no other port has. -/
theorem NoIssues.incomingCount {node : WorkflowNode} (hnode : node ∈ graph.nodes) (port : String) :
    graph.incomingCount (Endpoint.key ⟨node.id, port⟩) = graph.edgesInto node.id port := by
  rw [WorkflowGraph.incomingCount, h.joinedEdges, WorkflowGraph.edgesInto]
  refine List.countP_congr fun edge he => ?_
  rw [decide_eq_true_eq, decide_eq_true_eq]
  constructor
  · intro hk
    obtain ⟨target, htar, hid⟩ := List.mem_map.1 (h.mem_nodeIds he).2
    have ht := colon_notMem_of_isIdentifier (h.nodes target htar).identifier
    rw [hid] at ht
    exact colon_inj ht (colon_notMem_of_isIdentifier (h.nodes node hnode).identifier) hk
  · rintro ⟨hn, hp⟩
    rw [Endpoint.key, Endpoint.key, hn, hp]

variable {port : WorkflowPort}

theorem NoIssues.inputs_connected {node : WorkflowNode} (hn : node ∈ graph.nodes)
    (hp : port ∈ node.inputPorts) :
    1 ≤ graph.edgesInto node.id port.name ∧
      (graph.edgesInto node.id port.name = 1 ∨ node.isMerge = true ∧ port.name = "items") := by
  have hc := h.cardinality node hn
  simp only [cardinalityIssues, List.append_eq_nil_iff, List.flatMap_eq_nil_iff, issueIf_eq_nil,
    h.incomingCount hn] at hc
  obtain ⟨hz, hm⟩ := hc.1 port hp
  rw [decide_eq_false_iff_not] at hz
  refine ⟨by omega, ?_⟩
  by_cases ho : 1 < graph.edgesInto node.id port.name
  · simp only [ho, decide_true, Bool.true_and, Bool.not_eq_false', Bool.and_eq_true,
      decide_eq_true_eq] at hm
    exact .inr hm
  · exact .inl (by omega)

/-- The source of a mapping is reached against the edges, in at least one step. -/
theorem NoIssues.mappings_upstream {node : WorkflowNode} (hn : node ∈ graph.nodes)
    {mapping : WorkflowTargetMapping} (hm : mapping ∈ node.mappings) {source : MappingSource}
    (hsou : source ∈ mapping.binding.sources) :
    Relation.TransGen (EdgeTo graph) source.sourceNodeId node.id ∧
      ∃ owner ∈ graph.nodes, owner.id = source.sourceNodeId ∧
        ∃ port ∈ owner.outputPorts, port.name = source.sourcePort := by
  have hf := h.flow node hn
  simp only [flowIssues, List.append_eq_nil_iff, List.flatMap_eq_nil_iff] at hf
  obtain ⟨i, hi, hg⟩ := List.mem_iff_getElem.1 hm
  have hiss := hf.2 (mapping, i) (List.mem_zipIdx_iff_getElem?.2 (by simp [hi, hg]))
  simp only [List.append_eq_nil_iff, mappingIssues, List.flatMap_eq_nil_iff] at hiss
  have hsrc := hiss.1.1.2 source hsou
  simp only [sourceIssues, List.append_eq_nil_iff, issueIf_eq_nil, Bool.not_eq_false'] at hsrc
  have hup := hsrc.1.2
  simp only [sourceIsUpstream, Bool.and_eq_true] at hup
  obtain ⟨⟨-, ho⟩, hfind⟩ := hup
  constructor
  · obtain ⟨a, ha, b, hr, hs⟩ := Search.find_sound
      (fun rest found => (List.perm_append_comm.trans
        (List.Perm.append_left rest (List.reverse_perm found)))) _ Search.inv_start hfind
    rw [List.mem_singleton] at ha
    subst ha
    have hb : ∀ x y, y ∈ predecessors graph x → EdgeTo graph y x := by
      intro x y hy
      obtain ⟨edge, he, rfl⟩ := List.mem_map.1 hy
      rw [List.mem_filter, decide_eq_true_eq] at he
      exact ⟨edge, he.1, rfl, he.2⟩
    have hp : Relation.ReflTransGen (EdgeTo graph) b node.id := by
      clear hs
      induction hr with
      | refl => exact .refl
      | tail _ hstep ih => exact .head (hb _ _ hstep) ih
    exact .head' (hb _ _ (by simpa using hs)) hp
  · obtain ⟨owner, hnodeById, hpor⟩ := (Option.any_eq_true _ _).1 ho
    obtain ⟨hmem, hid⟩ := nodeById_eq_some hnodeById
    obtain ⟨port, hport, hname⟩ := List.any_eq_true.1 hpor
    exact ⟨owner, hmem, hid, port, hport, by simpa using hname⟩

/-- **A graph without issues has the shape.** -/
theorem NoIssues.graphSound : GraphSound graph (stableTopologicalOrder graph) where
  nodup := h.nodup
  perm := h.perm
  sources_first := fun _ he => h.sources_first he
  one_input := h.one_input
  reachable := fun _ hn => h.reached hn
  reaches_output := fun node hn => h.reaches_output _ node hn le_rfl
  edges_join := fun edge he =>
    have ⟨_, hi⟩ := h.edges edge he
    (edgeIssues_eq_nil hi).2.2
  inputs_connected := fun _ hn _ hp => h.inputs_connected hn hp
  mappings_upstream := fun _ hn _ hm _ hs =>
    h.mappings_upstream hn hm hs

/-! ### The schemas of the edges -/

/-- The name of a declared schema is none that every object inherits. -/
theorem NoIssues.notMem_objectPrototypeNames {id : String}
    (hid : (graph.schemas.lookup id).isSome) : id ∉ objectPrototypeNames := by
  obtain ⟨entry, he, hn⟩ := List.lookup_isSome_iff.1 hid
  have hi := h.schemas entry he
  rw [← beq_iff_eq.1 hn] at hi
  intro hm
  have hnone : ∀ name ∈ objectPrototypeNames, isIdentifier name = false := by decide +kernel
  rw [hnone id hm] at hi
  cases hi

/-- The schema of a port is declared or its name is inherited. -/
theorem NoIssues.declared_or_inherited {node : WorkflowNode} (hn : node ∈ graph.nodes)
    (hp : port ∈ node.inputPorts ∨ port ∈ node.outputPorts) :
    (graph.schemas.lookup port.schemaId).isSome ∨ port.schemaId ∈ objectPrototypeNames := by
  have hc := h.nodes node hn
  have ht : (graph.schemaLookup port.schemaId).isTruthy = true := by
    rcases hp with hp | hp
    · exact schemaLookup_isTruthy hc.inputs hp
    · exact schemaLookup_isTruthy hc.outputs hp
  unfold WorkflowGraph.schemaLookup at ht
  split at ht
  · next schema hs => exact .inl (by rw [hs]; rfl)
  · split at ht
    · next hpro => exact .inr (by rw [hpro]; decide)
    · split at ht
      · next hm => exact .inr hm
      · cases ht

/-- **Where the schemas of the edges are declared.** -/
theorem NoIssues.edgeSchemasDeclared_iff : EdgeSchemasDeclared graph ↔ NoInheritedSchema graph := by
  constructor
  · intro hd edge he sourcePort targetPort hj
    obtain ⟨hsou, htar⟩ := hd edge he sourcePort targetPort hj
    exact ⟨h.notMem_objectPrototypeNames hsou, h.notMem_objectPrototypeNames htar⟩
  · intro hi edge he sourcePort targetPort hj
    obtain ⟨hsou, htar⟩ := hi edge he sourcePort targetPort hj
    obtain ⟨⟨source, hs, -, hsp, -⟩, target, ht, -, htp, -⟩ := hj
    exact ⟨(h.declared_or_inherited hs (.inr hsp)).resolve_right hsou,
      (h.declared_or_inherited ht (.inl htp)).resolve_right htar⟩

end Shape

/-! ### The report -/

theorem compileWorkflowGraph_eq_ok [Host] {report : WorkflowDryRunResponse}
    (h : compileWorkflowGraph graph catalog = .ok report) :
    report.valid = (compileIssues graph catalog).isEmpty ∧
      report.compiledOrder = if graph.cyclic then [] else stableTopologicalOrder graph := by
  unfold compileWorkflowGraph at h
  split at h
  · cases h
  · simp only [Except.ok.injEq] at h
    subst h
    exact ⟨by dsimp only, by dsimp only⟩

/-- A valid report is one without issues, and its order is the whole one. -/
theorem noIssues_of_valid [Host] {report : WorkflowDryRunResponse}
    (hr : compileWorkflowGraph graph catalog = .ok report) (hv : report.valid = true) :
    NoIssues graph ∧ report.compiledOrder = stableTopologicalOrder graph := by
  obtain ⟨hi, ho⟩ := compileWorkflowGraph_eq_ok hr
  rw [hv] at hi
  have hno := noIssues_of_compileIssues (List.isEmpty_iff.1 hi.symm)
  refine ⟨hno, ?_⟩
  rw [ho, hno.acyclic]
  rfl

/-- **Compile soundness.**  A graph the compiler reports no error for has the
checked shape. -/
theorem graphSound_of_valid [Host] {report : WorkflowDryRunResponse}
    (hr : compileWorkflowGraph graph catalog = .ok report) (hv : report.valid = true) :
    GraphSound graph report.compiledOrder := by
  obtain ⟨hno, ho⟩ := noIssues_of_valid hr hv
  rw [ho]
  exact hno.graphSound

/-- **When compile soundness is whole.**  The shape comes with declared schemas
exactly when no edge joins ports of an inherited schema name. -/
theorem compileWorkflowGraph_sound_iff [Host] (graph : WorkflowGraph)
    (catalog : Option WorkflowReferenceCatalog) (report : WorkflowDryRunResponse)
    (hreport : compileWorkflowGraph graph catalog = .ok report) (hvalid : report.valid = true) :
    (GraphSound graph report.compiledOrder ∧ EdgeSchemasDeclared graph) ↔
      NoInheritedSchema graph := by
  obtain ⟨hno, -⟩ := noIssues_of_valid hreport hvalid
  rw [hno.edgeSchemasDeclared_iff]
  exact and_iff_right (graphSound_of_valid hreport hvalid)

/-- One input wired to one output by ports of one schema. -/
def wireGraph (schemaId : String) (schemas : List (String × JsonSchema)) : WorkflowGraph where
  nodes :=
    [{ id := "wire.in", label := "In", config := .input, inputPorts := []
       outputPorts := [⟨"data", schemaId⟩] },
      { id := "wire.out", label := "Out", config := .output, inputPorts := [⟨"input", schemaId⟩]
        outputPorts := [] }]
  edges := [{ id := "wire.edge", source := ⟨"wire.in", "data"⟩, target := ⟨"wire.out", "input"⟩ }]
  schemas := schemas

/-- The report on a graph is valid. -/
def Accepted [Host] (graph : WorkflowGraph) (catalog : Option WorkflowReferenceCatalog) : Bool :=
  match compileWorkflowGraph graph catalog with
  | .ok report => report.valid
  | .error _ => false

theorem exists_report_of_accepted [Host] (h : Accepted graph catalog = true) :
    ∃ report, compileWorkflowGraph graph catalog = .ok report ∧ report.valid = true := by
  unfold Accepted at h
  split at h
  · next report hr => exact ⟨report, hr, h⟩
  · cases h

theorem compileWorkflowGraph_sound_iff_wire :
    ∃ report, @compileWorkflowGraph plainHost (wireGraph "order.v1" [("order.v1", [])]) none =
        .ok report ∧ report.valid = true ∧
      ((GraphSound (wireGraph "order.v1" [("order.v1", [])]) report.compiledOrder ∧
          EdgeSchemasDeclared (wireGraph "order.v1" [("order.v1", [])])) ↔
        NoInheritedSchema (wireGraph "order.v1" [("order.v1", [])])) := by
  let _ := plainHost
  have ha : Accepted (wireGraph "order.v1" [("order.v1", [])]) none = true := by
    decide +kernel
  obtain ⟨report, hr, hv⟩ := exists_report_of_accepted ha
  exact ⟨report, hr, hv, compileWorkflowGraph_sound_iff _ _ report hr hv⟩

/-- **The compiler accepts a schema that is not there.**  Ports that name
`constructor` pass in a graph without schemas. -/
theorem compileWorkflowGraph_accepts_inherited :
    ¬ ∀ report, @compileWorkflowGraph plainHost (wireGraph "constructor" []) none = .ok report →
      report.valid = true → GraphSound (wireGraph "constructor" []) report.compiledOrder ∧
        EdgeSchemasDeclared (wireGraph "constructor" []) := by
  let _ := plainHost
  intro hs
  have ha : Accepted (wireGraph "constructor" []) none = true := by decide +kernel
  obtain ⟨report, hr, hv⟩ := exists_report_of_accepted ha
  obtain ⟨-, hd⟩ := hs report hr hv
  have hsou := hd _ (List.mem_singleton_self _) ⟨"data", "constructor"⟩ ⟨"input", "constructor"⟩
    ⟨⟨_, List.mem_cons_self .., rfl, List.mem_singleton_self _, rfl⟩,
      _, List.mem_cons_of_mem _ (List.mem_singleton_self _), rfl, List.mem_singleton_self _, rfl⟩
  exact absurd hsou.1 Bool.false_ne_true

end Flowdular.Workflows
