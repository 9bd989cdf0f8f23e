import Npunlock.SymbolicGraph

/-!
# The order of the nodes of a graph

`_topological_nodes` of `graph.py` : the nodes that the outputs are computed from, each
behind the producers of its inputs. `topologicalNodes_laws` says what it returns and when
it raises. It raises `ValueError` at a cycle only. As it recurs along the producers it can
also run out of the interpreter's recursion limit : a long chain of nodes is refused
although it has no cycle (`chain_refused`).
-/

namespace Npunlock

variable (heap : Heap) (depth : ℕ) (outputs : List Tensor)

/-- `_topological_nodes`, where `depth` nested calls of `visit` fit into the recursion limit.
A failure at a cycle is the `ValueError`, one at the depth the `RecursionError`. -/
def topologicalNodes : Except VisitError (List NodeId) :=
  visitAll heap.dependencies depth (outputs.map Tensor.producer)

/-- An output is computed from the node. -/
def IsReachable (id : NodeId) : Prop :=
  ∃ output ∈ outputs, DependsOn heap.dependencies output.producer id

/-- A node that an output is computed from is computed from itself. -/
def HasCycle : Prop :=
  ∃ id, IsReachable heap outputs id ∧ StrictlyDependsOn heap.dependencies id id

/-- The nodes that the outputs are computed from, each once and behind its producers. -/
structure IsNodeOrder (nodes : List NodeId) : Prop where
  nodup : nodes.Nodup
  mem_iff : ∀ id, id ∈ nodes ↔ IsReachable heap outputs id
  producer_lt : ∀ id ∈ nodes, ∀ tensor ∈ (heap.node id).inputs,
    tensor.producer ∈ nodes ∧ nodes.idxOf tensor.producer < nodes.idxOf id

/-- What `_topological_nodes` does. -/
structure TopologicalNodesLaws : Prop where
  order : ∀ nodes, topologicalNodes heap depth outputs = .ok nodes →
    IsNodeOrder heap outputs nodes
  raises : HasCycle heap outputs →
    ∃ error, topologicalNodes heap depth outputs = .error error
  valueError : topologicalNodes heap depth outputs = .error .cycle → HasCycle heap outputs
  recursionError : topologicalNodes heap depth outputs = .error .depth →
    ∃ output ∈ outputs, ∃ path, IsDeepPath heap.dependencies depth output.producer path
  enough : ∀ nodes : List NodeId, (∀ id, IsReachable heap outputs id → id ∈ nodes) →
    nodes.length < depth →
      ((∃ error, topologicalNodes heap depth outputs = .error error) ↔ HasCycle heap outputs)

variable {heap depth outputs}

theorem isCyclic_producers_iff :
    IsCyclic heap.dependencies (outputs.map Tensor.producer) ↔ HasCycle heap outputs := by
  simp only [IsCyclic, HasCycle, IsReachable, List.mem_map, exists_exists_and_eq_and]
  constructor
  · rintro ⟨output, houtput, id, hid, hcycle⟩
    exact ⟨id, ⟨output, houtput, hid⟩, hcycle⟩
  · rintro ⟨id, ⟨output, houtput, hid⟩, hcycle⟩
    exact ⟨output, houtput, id, hid, hcycle⟩

theorem isNodeOrder_of_topologicalNodes {nodes : List NodeId}
    (h : topologicalNodes heap depth outputs = .ok nodes) : IsNodeOrder heap outputs nodes := by
  obtain ⟨htopological, hmem⟩ := visitAll_spec h
  refine ⟨htopological.nodup, fun id => ?_, fun id hid tensor htensor => ?_⟩
  · rw [hmem]
    simp only [IsReachable, List.mem_map, exists_exists_and_eq_and]
  · have hproducer := Heap.mem_dependencies_iff.2 ⟨tensor, htensor, rfl⟩
    exact ⟨htopological.mem_of_dependsOn hid (.single hproducer),
      htopological.idxOf_lt hid hproducer⟩

theorem topologicalNodes_laws (heap : Heap) (depth : ℕ) (outputs : List Tensor) :
    TopologicalNodesLaws heap depth outputs := by
  refine ⟨fun nodes => isNodeOrder_of_topologicalNodes, fun h => ?_, fun h => ?_, fun h => ?_,
    fun nodes hnodes hdepth => ?_⟩
  · cases hresult : topologicalNodes heap depth outputs with
    | error error => exact ⟨error, rfl⟩
    | ok nodes => exact absurd hresult (isCyclic_producers_iff.2 h).visitAll_ne_ok
  · exact isCyclic_producers_iff.1 (isCyclic_of_visitAll h)
  · simpa using exists_isDeepPath_of_visitAll h
  · rw [← isCyclic_producers_iff]
    refine exists_visitAll_eq_error_iff (fun producer hproducer id hid => ?_) hdepth
    obtain ⟨output, houtput, rfl⟩ := List.mem_map.1 hproducer
    exact hnodes id ⟨output, houtput, hid⟩

/-! ## A long chain -/

/-- The node `Relu` of the node before it. The first one is the parameter. -/
def chainNode : NodeId → Node
  | 0 => parameterNode
  | id + 1 => {
    op := "Relu"
    inputs := [⟨id, 0, ⟨[2, 8], .f16, exampleShape_positive⟩, if id = 0 then some "x" else none⟩]
    attrs := []
    outputSpecs := [⟨[2, 8], .f16, exampleShape_positive⟩]
    name := none
    carrier := none
    value := none
    outputSpecs_ne_nil := parameterNode.outputSpecs_ne_nil
    attrs_nodup := parameterNode.attrs_nodup }

/-- A chain of nodes that has no end. -/
def chainHeap : Heap where
  node := chainNode
  inputs_exist := by
    intro id tensor htensor
    match id with
    | 0 => simp [chainNode, parameterNode] at htensor
    | 1 =>
      obtain rfl := List.mem_singleton.1 htensor
      decide
    | id + 2 =>
      obtain rfl := List.mem_singleton.1 htensor
      simp [chainNode, Node.mem_outputs_iff, Node.outputName]

/-- The output of a node of the chain. -/
def chainTensor (id : NodeId) : Tensor :=
  (chainNode id).firstOutput id

theorem producer_chainTensor (id : NodeId) : (chainTensor id).producer = id := by
  have hmem : chainTensor id ∈ (chainNode id).outputs id := List.head_mem _
  exact (Node.mem_outputs_iff.1 hmem).1

theorem dependencies_chainHeap (id : NodeId) :
    chainHeap.dependencies (id + 1) = [id] :=
  rfl

/-- A visit goes down the chain until it runs out of depth. -/
theorem visit_chain : ∀ {depth : ℕ} {active : List NodeId} {id : NodeId}, depth ≤ id →
    (∀ b ∈ active, id < b) →
      visit chainHeap.dependencies depth active [] id = .error .depth
  | 0, active, id, _, _ => rfl
  | depth + 1, active, 0, hdepth, _ => by omega
  | depth + 1, active, id + 1, hdepth, hactive => by
    have hnot : id + 1 ∉ active := fun hmem => Nat.lt_irrefl _ (hactive _ hmem)
    have hnext : visit chainHeap.dependencies depth ((id + 1) :: active) [] id =
        .error .depth := by
      refine visit_chain (by omega) fun b hb => ?_
      rcases List.mem_cons.1 hb with rfl | hb
      · exact Nat.lt_succ_self id
      · exact (Nat.lt_succ_self id).trans (hactive b hb)
    rw [visit, if_neg List.not_mem_nil, refuseIf_of_not _ hnot, dependencies_chainHeap]
    simp [hnext, bind, Except.bind]

theorem lt_of_strictlyDependsOn_chain {first second : NodeId}
    (h : StrictlyDependsOn chainHeap.dependencies first second) : second < first := by
  have hstep : ∀ {a b : NodeId}, b ∈ chainHeap.dependencies a → b < a := by
    rintro (_ | a) b hb
    · simp [Heap.dependencies, chainHeap, chainNode, parameterNode] at hb
    · rw [dependencies_chainHeap, List.mem_singleton] at hb
      exact hb ▸ Nat.lt_succ_self b
  induction h with
  | single h => exact hstep h
  | tail _ h ih => exact (hstep h).trans ih

/-- A chain with one node more than the recursion limit is refused. -/
theorem topologicalNodes_chain (depth : ℕ) :
    topologicalNodes chainHeap depth [chainTensor depth] = .error .depth := by
  have hvisit : visit chainHeap.dependencies depth [] [] depth = .error .depth :=
    visit_chain le_rfl (by simp)
  simp [topologicalNodes, visitAll, producer_chainTensor, hvisit, bind, Except.bind]

/-- The chain of 1001 nodes has no cycle, and is refused under a recursion limit of 1000. -/
theorem chain_refused :
    topologicalNodes chainHeap 1000 [chainTensor 1000] = .error .depth ∧
      ¬HasCycle chainHeap [chainTensor 1000] := by
  refine ⟨topologicalNodes_chain 1000, ?_⟩
  rintro ⟨id, -, hcycle⟩
  exact Nat.lt_irrefl id (lt_of_strictlyDependsOn_chain hcycle)

end Npunlock
