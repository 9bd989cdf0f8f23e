import Npunlock.Backtracking
import Npunlock.PreparedGraph

/-!
# Native topology mapping

`_propose_native_topology_mapping` : which ACT group may belong to which custom node, by
the contracts of the groups, by the names of the graph's inputs and outputs, and by the
exact relations of the native graph. It enumerates assignments by backtracking, up to a
limit.

`proposeNativeTopologyMapping_exact` : for a graph with custom nodes the proposal lists
exactly the assignments of custom nodes to viable groups that are injective and keep every
dependency (`IsTopologyAssignment`), the first 256 of them, says whether there are more,
and is unique if and only if there is one. A graph without custom nodes gets none, not
even the empty one (`proposeNativeTopologyMapping_not_exact`).
-/

namespace Npunlock

/-- What `_propose_native_topology_mapping` reads of a prepared graph : the groups, and the
exact relations and input and output symbols of its blob. -/
structure NativeTopology where
  graph : Graph
  discovered : List GroupTargets
  exactRelations : List ExactGraphRelation
  graphIoSymbols : List GraphIOSymbol

namespace NativeTopology

variable (topology : NativeTopology)

def groups : List ActGroup :=
  enumerateGroups topology.discovered

/-! ## Candidates -/

def node (id : NodeId) : Node :=
  topology.graph.heap.node id

/-- The groups whose targets fit the node. -/
def contractCandidatesOf (id : NodeId) : List ℕ :=
  (topology.groups.filter fun group =>
    customTargetsMismatch (topology.node id) group.targets false = none).map ActGroup.index

def contractCandidates : List (List ℕ) :=
  topology.graph.customNodes.map topology.contractCandidatesOf

/-- The relations as edges. -/
def relationEdges : List (GraphRelationEndpoint × GraphRelationEndpoint) :=
  topology.exactRelations.map fun relation => (relation.source, relation.destination)

/-- `reachable_from`. -/
def reachableFrom (start : GraphRelationEndpoint) : List GraphRelationEndpoint :=
  reachedFrom topology.relationEdges start

/-- The endpoint of an ACT group. -/
def groupEndpoint (index : ℕ) : GraphRelationEndpoint :=
  ⟨.actGroup, index, none⟩

/-- The ancestors of a node, found along the order of the nodes. -/
def ancestors (id : NodeId) : List NodeId :=
  dependencyTable topology.graph.heap.dependencies topology.graph.nodes id

/-- The endpoints of a kind that some relation names. -/
def endpointsOfKind (kind : EndpointKind) : List GraphRelationEndpoint :=
  (topology.exactRelations.flatMap fun relation => [relation.source, relation.destination]).filter
    fun endpoint => endpoint.kind = kind

/-- The endpoint of a symbol of the graph's inputs and outputs. -/
def symbolEndpoint (symbol : GraphIOSymbol) : GraphRelationEndpoint :=
  match symbol.kind with
  | .input => ⟨.graphInput, symbol.symbolIndex, some symbol.symbolTableIndex⟩
  | .output => ⟨.graphOutput, symbol.symbolIndex, none⟩

/-- The symbols whose name no other symbol of their kind has. -/
def uniqueSymbols : List GraphIOSymbol :=
  topology.graphIoSymbols.filter fun symbol =>
    (topology.graphIoSymbols.countP fun other =>
      (other.kind, other.name) = (symbol.kind, symbol.name)) = 1

/-- `native_names`, where a later symbol replaces an earlier one at its endpoint. -/
def nativeName (endpoint : GraphRelationEndpoint) : Option String :=
  (topology.uniqueSymbols.reverse.find? fun symbol => symbolEndpoint symbol = endpoint).map
    GraphIOSymbol.name

/-- A name that exactly one of the tensors has. -/
def isKnownName (tensors : List Tensor) (name : String) : Bool :=
  name ≠ "" ∧ (tensors.countP fun tensor => tensor.name = some name) = 1

/-- The name of an input that the node depends on. -/
def isSymbolicInput (id : NodeId) (name : String) : Bool :=
  isKnownName topology.graph.inputs name ∧
    ∃ ancestor ∈ topology.ancestors id, (topology.node ancestor).op = "Parameter" ∧
      ((topology.node ancestor).firstOutput ancestor).name = some name

/-- The name of an output that depends on the node. -/
def isSymbolicOutput (id : NodeId) (name : String) : Bool :=
  isKnownName topology.graph.outputs name ∧
    ∃ tensor ∈ topology.graph.outputs, tensor.name = some name ∧
      (tensor.producer = id ∨ id ∈ topology.ancestors tensor.producer)

/-- The graph outputs that a group reaches. -/
def reachedOutputs (index : ℕ) : List GraphRelationEndpoint :=
  (topology.reachableFrom (groupEndpoint index)).filter fun endpoint =>
    endpoint ∈ topology.endpointsOfKind .graphOutput

/-- The known output names that a group reaches. -/
def observedOutputs (index : ℕ) : List String :=
  ((topology.reachedOutputs index).filterMap topology.nativeName).filter
    (isKnownName topology.graph.outputs)

/-- The known input names that reach a group. -/
def observedInputs (index : ℕ) : List String :=
  (((topology.endpointsOfKind .graphInput).filter fun endpoint =>
    groupEndpoint index ∈ topology.reachableFrom endpoint).filterMap topology.nativeName).filter
      (isKnownName topology.graph.inputs)

/-- The group reaches an output, and the names it is seen with belong to the node. -/
def isViable (id : NodeId) (index : ℕ) : Bool :=
  topology.reachedOutputs index ≠ [] ∧
    (∀ name ∈ topology.observedOutputs index, topology.isSymbolicOutput id name) ∧
      ∀ name ∈ topology.observedInputs index, topology.isSymbolicInput id name

def viableCandidatesOf (id : NodeId) : List ℕ :=
  (topology.contractCandidatesOf id).filter (topology.isViable id)

def viableCandidates : List (List ℕ) :=
  topology.graph.customNodes.map topology.viableCandidatesOf

/-! ## Enumeration -/

/-- `maximum_assignments`. -/
def maximumAssignments : ℕ := 256

/-- The candidates of a node that are free and keep its dependencies on the nodes before. -/
def assignmentChoices (level : NodeId × List ℕ) (_ : List (NodeId × List ℕ))
    (selected : List ℕ) : List ℕ :=
  level.2.filter fun index => index ∉ selected ∧
    ∀ prior ∈ topology.graph.customNodes.zip selected, prior.1 ∈ topology.ancestors level.1 →
      groupEndpoint index ∈ topology.reachableFrom (groupEndpoint prior.2)

/-- The assignments that `visit` finds for a table of candidates, and whether it cut off. -/
def enumerateAssignments (viable : List (List ℕ)) : List (List ℕ) × Bool :=
  search topology.assignmentChoices (fun selected index => selected ++ [index]) (fun _ => true)
    Prod.snd (keepOrTruncate maximumAssignments) (topology.graph.customNodes.zip viable) [] []
    ([], false)

end NativeTopology

/-- `NativeTopologyProposal`. -/
structure NativeTopologyProposal where
  outputs : List Tensor
  names : List String
  contractCandidates : List (List ℕ)
  viableCandidates : List (List ℕ)
  assignments : List (List ℕ)
  relations : List ExactGraphRelation
  ioSymbols : List GraphIOSymbol
  reason : String
  truncated : Bool

inductive ProposalStatus
  | none
  | unique
  | ambiguous
  deriving DecidableEq

namespace NativeTopologyProposal

variable (proposal : NativeTopologyProposal)

def status : ProposalStatus :=
  if proposal.assignments = [] then .none
  else if proposal.assignments.length = 1 ∧ proposal.truncated = false then .unique
  else .ambiguous

def uniqueGroupIndices : Option (List ℕ) :=
  if proposal.status = .unique then proposal.assignments.head? else none

theorem status_eq_unique_iff :
    proposal.status = .unique ↔ proposal.assignments.length = 1 ∧ proposal.truncated = false := by
  rw [status]
  split_ifs with hnil hunique
  · simp [hnil]
  · simpa using hunique
  · simpa using hunique

end NativeTopologyProposal

/-- The names of the nodes that have no candidate. -/
def missingNames (names : List String) (candidates : List (List ℕ)) : String :=
  ", ".intercalate (((names.zip candidates).filter fun row => row.2 = []).map Prod.fst)

/-- The `reason` of a proposal. -/
def proposalReason (topology : NativeTopology) (names : List String)
    (assignments : List (List ℕ)) (truncated : Bool) : String :=
  if topology.graph.customNodes = [] then "the graph has no custom nodes"
  else if topology.exactRelations = [] then
    "the native graph exposes no complete exact relations"
  else if topology.endpointsOfKind .graphOutput = [] then
    "the exact relation graph exposes no graph-output endpoint"
  else if [] ∈ topology.contractCandidates then
    "no tensor-contract candidate exists for: " ++
      missingNames names topology.contractCandidates
  else if [] ∈ topology.viableCandidates then
    "no candidate has a complete native path to a graph output for: " ++
      missingNames names topology.viableCandidates
  else if assignments = [] then
    "no injective assignment preserves every positive custom-node dependency"
  else if assignments.length = 1 ∧ truncated = false then
    "one assignment satisfies tensor contracts, named I/O evidence, and positive native " ++
      "reachability"
  else
    "multiple assignments remain after unique native I/O names and positive reachability"

/-- `_propose_native_topology_mapping`. -/
def proposeNativeTopologyMapping (topology : NativeTopology) : NativeTopologyProposal :=
  let names := topology.graph.customNodes.map fun id => (topology.node id).label
  let found :=
    if topology.graph.customNodes ≠ [] ∧ topology.endpointsOfKind .graphOutput ≠ [] then
      topology.enumerateAssignments topology.viableCandidates
    else ([], false)
  { outputs := topology.graph.customNodes.map fun id => (topology.node id).firstOutput id
    names
    contractCandidates := topology.contractCandidates
    viableCandidates := topology.viableCandidates
    assignments := found.1
    relations := topology.exactRelations
    ioSymbols := topology.graphIoSymbols
    reason := proposalReason topology names found.1 found.2
    truncated := found.2 }

/-! ## What the enumeration finds -/

namespace NativeTopology

variable (topology : NativeTopology)

/-- The source node is an ancestor of the destination node. -/
def IsAncestor (source destination : NodeId) : Prop :=
  StrictlyDependsOn topology.graph.heap.dependencies destination source

/-- The native graph has a path from one group to the other. -/
def Reaches (source destination : ℕ) : Prop :=
  Relation.TransGen (Linked topology.relationEdges) (groupEndpoint source)
    (groupEndpoint destination)

/-- An injective assignment of the custom nodes to candidates that keeps every dependency. -/
structure IsTopologyAssignment (viable : List (List ℕ)) (assignment : List ℕ) : Prop where
  viable : List.Forall₂ (fun index candidates => index ∈ candidates) assignment viable
  injective : assignment.Nodup
  preserves : ∀ source ∈ topology.graph.customNodes.zip assignment,
    ∀ destination ∈ topology.graph.customNodes.zip assignment,
      topology.IsAncestor source.1 destination.1 → topology.Reaches source.2 destination.2

/-- An earlier node with its group does not stand against a later one. -/
def Compatible (earlier later : NodeId × ℕ) : Prop :=
  earlier.2 ≠ later.2 ∧
    (topology.IsAncestor earlier.1 later.1 → topology.Reaches earlier.2 later.2)

variable {topology}

theorem mem_ancestors_iff {id ancestor : NodeId} (h : id ∈ topology.graph.nodes) :
    ancestor ∈ topology.ancestors id ↔ topology.IsAncestor ancestor id :=
  topology.graph.nodes_spec.1.mem_dependencyTable_iff h

theorem groupEndpoint_mem_reachableFrom_iff {source destination : ℕ} :
    groupEndpoint destination ∈ topology.reachableFrom (groupEndpoint source) ↔
      topology.Reaches source destination :=
  mem_reachedFrom_iff

theorem mem_assignmentChoices_iff {done rest : List NodeId} {node : NodeId} {row : List ℕ}
    {levels : List (NodeId × List ℕ)} {selected : List ℕ} {index : ℕ}
    (hnodes : topology.graph.customNodes = done ++ node :: rest)
    (hlength : done.length = selected.length) :
    index ∈ topology.assignmentChoices (node, row) levels selected ↔
      index ∈ row ∧ ∀ prior ∈ done.zip selected, topology.Compatible prior (node, index) := by
  have hnode : node ∈ topology.graph.nodes :=
    (Graph.mem_customNodes_iff.1 (by simp [hnodes])).1
  have hzip : topology.graph.customNodes.zip selected = done.zip selected := by
    rw [hnodes, ← List.append_nil selected, List.zip_append hlength]
    simp
  have hselected : (done.zip selected).map Prod.snd = selected :=
    List.map_snd_zip hlength.ge
  have hfree : index ∉ selected ↔ ∀ prior ∈ done.zip selected, prior.2 ≠ index := by
    conv_lhs => rw [← hselected]
    simp only [List.mem_map, not_exists, not_and, ne_eq]
  simp only [assignmentChoices, List.mem_filter, Bool.decide_and, Bool.and_eq_true,
    decide_eq_true_eq, hzip, hfree, mem_ancestors_iff hnode, groupEndpoint_mem_reachableFrom_iff,
    Compatible]
  exact and_congr_right fun _ => ⟨fun h prior hprior => ⟨h.1 prior hprior, h.2 prior hprior⟩,
    fun h => ⟨fun prior hprior => (h prior hprior).1, fun prior hprior => (h prior hprior).2⟩⟩

/-- The search completes the groups `selected` for the nodes `done` : the groups it adds
are candidates and stand against no earlier ones. -/
theorem isCompletion_iff :
    ∀ {rest done : List NodeId} {rows : List (List ℕ)} (selected assignment : List ℕ),
      topology.graph.customNodes = done ++ rest → done.length = selected.length →
        rest.length = rows.length →
          (IsCompletion topology.assignmentChoices (fun selected index => selected ++ [index])
              (fun _ => true) (rest.zip rows) selected assignment ↔
            List.Forall₂ (fun index candidates => index ∈ candidates) assignment rows ∧
              (∀ prior ∈ done.zip selected, ∀ later ∈ rest.zip assignment,
                topology.Compatible prior later) ∧
                (rest.zip assignment).Pairwise topology.Compatible)
  | [], done, [], selected, [], _, _, _ => by
    simp [IsCompletion]
  | [], done, [], selected, index :: assignment, _, _, _ => by
    simp [IsCompletion]
  | node :: rest, done, row :: rows, selected, [], _, _, _ => by
    simp [IsCompletion]
  | node :: rest, done, row :: rows, selected, index :: assignment, hnodes, hdone, hrows => by
    have hnodes' : topology.graph.customNodes = (done ++ [node]) ++ rest := by
      rw [hnodes, List.append_assoc, List.singleton_append]
    have ih := isCompletion_iff (selected ++ [index]) assignment hnodes' (by simp [hdone])
      (Nat.succ.inj hrows)
    rw [List.zip_append hdone] at ih
    simp only [List.zip_cons_cons, IsCompletion, mem_assignmentChoices_iff hnodes hdone, ih,
      List.forall₂_cons, List.pairwise_cons, List.mem_append, List.mem_cons, List.zip_nil_right,
      List.not_mem_nil, or_false]
    constructor
    · rintro ⟨⟨hrow, hpriors⟩, hforall, hbefore, hpairwise⟩
      refine ⟨⟨hrow, hforall⟩, ?_, fun later hlater => hbefore _ (Or.inr rfl) later hlater,
        hpairwise⟩
      rintro prior hprior later (rfl | hlater)
      · exact hpriors prior hprior
      · exact hbefore prior (Or.inl hprior) later hlater
    · rintro ⟨⟨hrow, hforall⟩, hbefore, hnode, hpairwise⟩
      refine ⟨⟨hrow, fun prior hprior => hbefore prior hprior _ (Or.inl rfl)⟩, hforall, ?_,
        hpairwise⟩
      rintro prior (hprior | rfl) later hlater
      · exact hbefore prior hprior later (Or.inr hlater)
      · exact hnode later hlater

/-- No custom node is an ancestor of itself or of one before it. -/
theorem customNodes_pairwise :
    topology.graph.customNodes.Pairwise (fun a b => ¬topology.IsAncestor b a) ∧
      ∀ a ∈ topology.graph.customNodes, ¬topology.IsAncestor a a := by
  obtain ⟨hpairwise, hself⟩ := topology.graph.nodes_spec.1.not_strictlyDependsOn
  exact ⟨hpairwise.filter _, fun a ha => hself a (Graph.mem_customNodes_iff.1 ha).1⟩

/-- As the nodes are in order, it is enough to compare each pair once. -/
theorem pairwise_compatible_iff {assignment : List ℕ}
    (hlength : assignment.length = topology.graph.customNodes.length) :
    (topology.graph.customNodes.zip assignment).Pairwise topology.Compatible ↔
      assignment.Nodup ∧ ∀ source ∈ topology.graph.customNodes.zip assignment,
        ∀ destination ∈ topology.graph.customNodes.zip assignment,
          topology.IsAncestor source.1 destination.1 →
            topology.Reaches source.2 destination.2 := by
  obtain ⟨hpairwise, hself⟩ := topology.customNodes_pairwise
  have hnodup : (topology.graph.customNodes.zip assignment).Pairwise (fun a b => a.2 ≠ b.2) ↔
      assignment.Nodup := by
    rw [← List.map_snd_zip hlength.le, List.Nodup, List.pairwise_map,
      List.map_snd_zip hlength.le]
  have hbehind : (topology.graph.customNodes.zip assignment).Pairwise
      fun a b => ¬topology.IsAncestor b.1 a.1 := by
    rw [← List.map_fst_zip hlength.ge, List.pairwise_map] at hpairwise
    exact hpairwise
  have hnone : ∀ a ∈ topology.graph.customNodes.zip assignment,
      ¬topology.IsAncestor a.1 a.1 := fun a ha => hself a.1 (List.of_mem_zip ha).1
  rw [← hnodup]
  constructor
  · intro h
    obtain ⟨hne, hreaches⟩ := List.pairwise_and_iff.1 h
    refine ⟨hne, fun source hsource destination hdestination => ?_⟩
    refine List.Pairwise.forall_of_forall_of_flip (R := fun source destination =>
      topology.IsAncestor source.1 destination.1 → topology.Reaches source.2 destination.2)
      (fun a ha hancestor => absurd hancestor (hnone a ha)) hreaches ?_ hsource hdestination
    exact hbehind.imp fun hnot hancestor => absurd hancestor hnot
  · rintro ⟨hne, hreaches⟩
    exact List.pairwise_and_iff.2
      ⟨hne, List.pairwise_of_forall_mem_list fun a ha b hb => hreaches a ha b hb⟩

theorem isCompletion_iff_isTopologyAssignment {viable : List (List ℕ)}
    (hviable : viable.length = topology.graph.customNodes.length) {assignment : List ℕ} :
    IsCompletion topology.assignmentChoices (fun selected index => selected ++ [index])
        (fun _ => true) (topology.graph.customNodes.zip viable) [] assignment ↔
      topology.IsTopologyAssignment viable assignment := by
  rw [isCompletion_iff [] assignment (List.nil_append _).symm rfl hviable.symm]
  constructor
  · rintro ⟨hforall, -, hpairwise⟩
    obtain ⟨hnodup, hpreserves⟩ :=
      (pairwise_compatible_iff (hforall.length_eq.trans hviable)).1 hpairwise
    exact ⟨hforall, hnodup, hpreserves⟩
  · rintro ⟨hforall, hnodup, hpreserves⟩
    exact ⟨hforall, by simp,
      (pairwise_compatible_iff (hforall.length_eq.trans hviable)).2 ⟨hnodup, hpreserves⟩⟩

/-- The enumeration for any table of candidates : the first assignments up to the limit,
and whether there are more. -/
theorem enumerateAssignments_spec (topology : NativeTopology) {viable : List (List ℕ)}
    (hviable : viable.length = topology.graph.customNodes.length)
    (hnodup : ∀ row ∈ viable, row.Nodup) :
    ∃ all : List (List ℕ), all.Nodup ∧
      (∀ assignment, assignment ∈ all ↔ topology.IsTopologyAssignment viable assignment) ∧
        topology.enumerateAssignments viable =
          (all.take maximumAssignments, decide (maximumAssignments < all.length)) := by
  refine ⟨_, ?_, fun assignment =>
    mem_completions_iff.trans (isCompletion_iff_isTopologyAssignment hviable), ?_⟩
  · refine nodup_completions (fun level hlevel levels selected => ?_) _
    exact (hnodup level.2 (List.of_mem_zip hlevel).2).filter _
  · rw [enumerateAssignments, search_eq_foldl]
    simpa using foldl_keepOrTruncate maximumAssignments
      (completions topology.assignmentChoices (fun selected index => selected ++ [index])
        (fun _ => true) (topology.graph.customNodes.zip viable) []) [] (Nat.zero_le _)

/-! ## The proposal -/

theorem contractCandidatesOf_nodup (id : NodeId) : (topology.contractCandidatesOf id).Nodup := by
  have hindices : (topology.groups.map ActGroup.index).Nodup := by
    rw [groups, map_index_enumerateGroups]
    exact List.nodup_range
  exact hindices.sublist (List.filter_sublist.map _)

theorem viableCandidates_nodup : ∀ row ∈ topology.viableCandidates, row.Nodup := by
  intro row hrow
  obtain ⟨id, -, rfl⟩ := List.mem_map.1 hrow
  exact (contractCandidatesOf_nodup id).filter _

/-- A group is viable only if the native graph reaches an output. -/
theorem viableCandidatesOf_eq_nil (h : topology.endpointsOfKind .graphOutput = []) (id : NodeId) :
    topology.viableCandidatesOf id = [] := by
  simp [viableCandidatesOf, List.filter_eq_nil_iff, isViable, reachedOutputs, h]

/-- What it means that a proposal lists `all` assignments of the viable candidates. -/
structure TopologyMappingExact (topology : NativeTopology) (all : List (List ℕ)) : Prop where
  nodup : all.Nodup
  mem_iff : ∀ assignment, assignment ∈ all ↔
    topology.IsTopologyAssignment topology.viableCandidates assignment
  assignments_eq :
    (proposeNativeTopologyMapping topology).assignments = all.take maximumAssignments
  truncated_iff :
    (proposeNativeTopologyMapping topology).truncated = true ↔ maximumAssignments < all.length
  unique_iff : (proposeNativeTopologyMapping topology).status = .unique ↔
    ∃! assignment, topology.IsTopologyAssignment topology.viableCandidates assignment

/-- One element alone is in a list without duplicates exactly if the list has length one. -/
theorem existsUnique_mem_iff {α : Type} {l : List α} (h : l.Nodup) :
    (∃! a, a ∈ l) ↔ l.length = 1 := by
  rw [List.length_eq_one_iff]
  constructor
  · rintro ⟨a, ha, hunique⟩
    refine ⟨a, List.perm_singleton.1 ?_⟩
    exact (List.perm_ext_iff_of_nodup h (List.nodup_singleton a)).2 fun b =>
      ⟨fun hb => List.mem_singleton.2 (hunique b hb), fun hb => List.mem_singleton.1 hb ▸ ha⟩
  · rintro ⟨a, rfl⟩
    exact ⟨a, List.mem_singleton_self a, fun b hb => List.mem_singleton.1 hb⟩

/-- The proposal for a graph with custom nodes comes from the enumeration, also where the
source does not start it. -/
theorem proposal_eq (h : topology.graph.customNodes ≠ []) :
    ((proposeNativeTopologyMapping topology).assignments,
        (proposeNativeTopologyMapping topology).truncated) =
      topology.enumerateAssignments topology.viableCandidates := by
  by_cases houtput : topology.endpointsOfKind .graphOutput = []
  · obtain ⟨node, nodes, hnodes⟩ := List.exists_cons_of_ne_nil h
    have hrow : topology.viableCandidatesOf node = [] := viableCandidatesOf_eq_nil houtput node
    simp [proposeNativeTopologyMapping, houtput, enumerateAssignments, viableCandidates, hnodes,
      search, assignmentChoices, hrow]
  · simp [proposeNativeTopologyMapping, houtput, h]

/-- The proposal for a graph without custom nodes has no assignment. -/
theorem proposal_of_nil (h : topology.graph.customNodes = []) :
    (proposeNativeTopologyMapping topology).assignments = [] ∧
      (proposeNativeTopologyMapping topology).truncated = false ∧
        (proposeNativeTopologyMapping topology).status = .none := by
  have hassignments : (proposeNativeTopologyMapping topology).assignments = [] := by
    simp [proposeNativeTopologyMapping, h]
  refine ⟨hassignments, by simp [proposeNativeTopologyMapping, h], ?_⟩
  rw [NativeTopologyProposal.status, if_pos hassignments]

/-- For a graph with custom nodes the proposal is exact, and without them it is empty. -/
theorem proposeNativeTopologyMapping_exact (topology : NativeTopology) :
    (topology.graph.customNodes ≠ [] → ∃ all, TopologyMappingExact topology all) ∧
      (topology.graph.customNodes = [] →
        (proposeNativeTopologyMapping topology).assignments = [] ∧
          (proposeNativeTopologyMapping topology).truncated = false ∧
            (proposeNativeTopologyMapping topology).status = .none) := by
  refine ⟨fun h => ?_, proposal_of_nil⟩
  have hlength : topology.viableCandidates.length = topology.graph.customNodes.length := by
    simp [viableCandidates]
  obtain ⟨all, hnodup, hmem, heq⟩ :=
    enumerateAssignments_spec topology hlength viableCandidates_nodup
  obtain ⟨hassignments, htruncated⟩ := Prod.mk.inj ((proposal_eq h).trans heq)
  refine ⟨all, hnodup, hmem, hassignments, by simp [htruncated], ?_⟩
  rw [NativeTopologyProposal.status_eq_unique_iff, hassignments, htruncated,
    decide_eq_false_iff_not, List.length_take]
  simp only [← hmem, existsUnique_mem_iff hnodup, maximumAssignments]
  omega

/-- Two custom nodes in a row, and two groups that fit both of them, of which one reads what
the other writes. -/
def pairTopology : NativeTopology where
  graph := pairGraph
  discovered := [[.legacy ⟨0, 0, 1, 16, 32, 0x1F⟩], [.legacy ⟨1, 1, 1, 16, 32, 0x1F⟩]]
  exactRelations := [⟨.actToAct, groupEndpoint 0, groupEndpoint 1, 1⟩,
    ⟨.actToOutput, groupEndpoint 1, ⟨.graphOutput, 1, none⟩, 1⟩]
  graphIoSymbols := [⟨.output, 3, 1, 32, "z"⟩]

theorem proposeNativeTopologyMapping_exact_pairTopology :
    ∃ all, TopologyMappingExact pairTopology all :=
  (proposeNativeTopologyMapping_exact pairTopology).1 (by decide)

example : pairTopology.viableCandidates = [[0, 1], [0, 1]] ∧
    (proposeNativeTopologyMapping pairTopology).assignments = [[0, 1]] := by
  decide

/-- A topology without custom nodes. -/
def identityTopology : NativeTopology where
  graph := identityGraph
  discovered := []
  exactRelations := []
  graphIoSymbols := []

/-- Without custom nodes the empty assignment keeps every dependency, and is not listed. -/
theorem proposeNativeTopologyMapping_not_exact :
    ¬∃ all, TopologyMappingExact identityTopology all := by
  rintro ⟨all, hall⟩
  have hempty : identityTopology.IsTopologyAssignment identityTopology.viableCandidates [] :=
    ⟨.nil, List.nodup_nil, by simp⟩
  have hlisted : all.take maximumAssignments = [] := hall.assignments_eq.symm
  have hnil : all = [] := by simpa [maximumAssignments] using hlisted
  simpa [hnil] using (hall.mem_iff []).2 hempty

end NativeTopology

end Npunlock
