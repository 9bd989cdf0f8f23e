import Mathlib.Algebra.Group.Nat.Defs
import Mathlib.Data.List.GetD
import Npunlock.Traversal

/-!
# Symbolic graphs

The tensors and nodes of `tensor.py` and `graph.py`, and what `Graph.__init__` accepts.

A node is known by its identity (`NodeId`), as the source compares nodes and tensors by
identity; a `Heap` holds the nodes that were created. A `Graph` carries what its
constructor checked and the order that `_topological_nodes` found. `Graph.init` is the
constructor : it gives exactly the graphs that carry these facts (`Graph.init_self`).
-/

namespace Npunlock

/-! ## Tensors and nodes -/

/-- The element types `_DTYPES`. -/
inductive DType
  | boolean
  | f16
  | f32
  | f64
  | i8
  | i16
  | i32
  | i64
  | u8
  | u16
  | u32
  | u64
  deriving DecidableEq

/-- A static shape with an element type. -/
structure TensorSpec where
  shape : List ℕ
  dtype : DType
  positive : ∀ dimension ∈ shape, 0 < dimension
  deriving DecidableEq

/-- The identity of a node. -/
abbrev NodeId := ℕ

/-- One output of a node. -/
structure Tensor where
  producer : NodeId
  outputIndex : ℕ
  spec : TensorSpec
  name : Option String
  deriving DecidableEq

namespace Tensor

variable (tensor : Tensor)

def shape : List ℕ :=
  tensor.spec.shape

def dtype : DType :=
  tensor.spec.dtype

/-- The number of elements, `prod(shape)`. -/
def elementCount : ℕ :=
  tensor.shape.prod

end Tensor

/-- The attribute values `_attribute_text` writes as one word. A float is held as the text
`str` gives for it. -/
inductive AttributeScalar
  | text (value : String)
  | boolean (value : Bool)
  | integer (value : ℤ)
  | float (text : String)
  deriving DecidableEq

/-- The value of an attribute. Values of any other type are not serializable. -/
inductive Attribute
  | scalar (value : AttributeScalar)
  | sequence (items : List AttributeScalar)
  | other
  deriving DecidableEq

/-- An operator with its inputs. `carrier` and `value` are the entries of its metadata, the
value of a constant as the bytes of its array. -/
structure Node where
  op : String
  inputs : List Tensor
  attrs : List (String × Attribute)
  outputSpecs : List TensorSpec
  name : Option String
  carrier : Option String
  value : Option (List UInt8)
  outputSpecs_ne_nil : outputSpecs ≠ []
  attrs_nodup : (attrs.map Prod.fst).Nodup

namespace Node

variable (node : Node) (id : NodeId)

/-- The name a lone output inherits. -/
def outputName : Option String :=
  if node.outputSpecs.length = 1 then node.name else none

/-- The outputs that `__post_init__` makes. -/
def outputs : List Tensor :=
  node.outputSpecs.mapIdx fun index spec => ⟨id, index, spec, node.outputName⟩

@[simp]
theorem length_outputs : (node.outputs id).length = node.outputSpecs.length := by
  simp [outputs]

theorem outputs_ne_nil : node.outputs id ≠ [] := by
  simpa [outputs] using node.outputSpecs_ne_nil

/-- The output `node.outputs[0]`. -/
def firstOutput : Tensor :=
  (node.outputs id).head (node.outputs_ne_nil id)

variable {node id}

theorem mem_outputs_iff {tensor : Tensor} :
    tensor ∈ node.outputs id ↔
      tensor.producer = id ∧ node.outputSpecs[tensor.outputIndex]? = some tensor.spec ∧
        tensor.name = node.outputName := by
  rw [outputs, List.mem_mapIdx]
  constructor
  · rintro ⟨index, hindex, rfl⟩
    exact ⟨rfl, List.getElem?_eq_getElem hindex, rfl⟩
  · rintro ⟨hproducer, hspec, hname⟩
    obtain ⟨hindex, hspec⟩ := List.getElem?_eq_some_iff.1 hspec
    refine ⟨tensor.outputIndex, hindex, ?_⟩
    rw [hspec, ← hproducer, ← hname]

/-- The text the messages name a node by. -/
def label (node : Node) : String :=
  match node.name with
  | some name => if name = "" then "<unnamed>" else name
  | none => "<unnamed>"

end Node

/-- The nodes that were created. Every input of a node is an output of its producer. -/
structure Heap where
  node : NodeId → Node
  inputs_exist : ∀ id, ∀ tensor ∈ (node id).inputs,
    tensor ∈ (node tensor.producer).outputs tensor.producer

namespace Heap

variable (heap : Heap)

/-- The tensor is an output of a node. -/
def Exists (tensor : Tensor) : Prop :=
  tensor ∈ (heap.node tensor.producer).outputs tensor.producer

/-- The producers of the inputs of a node, in their order. -/
def dependencies (id : NodeId) : List NodeId :=
  (heap.node id).inputs.map Tensor.producer

instance (tensor : Tensor) : Decidable (heap.Exists tensor) :=
  inferInstanceAs (Decidable (_ ∈ _))

variable {heap}

theorem mem_dependencies_iff {id producer : NodeId} :
    producer ∈ heap.dependencies id ↔
      ∃ tensor ∈ (heap.node id).inputs, tensor.producer = producer :=
  List.mem_map

/-- The node behind every identity that was not given out. -/
def unusedNode : Node where
  op := "Const"
  inputs := []
  attrs := []
  outputSpecs := [⟨[], .f32, by simp⟩]
  name := none
  carrier := none
  value := none
  outputSpecs_ne_nil := by simp
  attrs_nodup := by simp

/-- The heap of nodes that were created one after another. -/
def ofNodes (nodes : List Node) (h : ∀ node ∈ nodes, ∀ tensor ∈ node.inputs,
    tensor ∈ (nodes.getD tensor.producer unusedNode).outputs tensor.producer) : Heap where
  node := fun id => nodes.getD id unusedNode
  inputs_exist := by
    intro id tensor htensor
    rcases lt_or_ge id nodes.length with hid | hid
    · rw [List.getD_eq_getElem nodes unusedNode hid] at htensor
      exact h _ (List.getElem_mem hid) tensor htensor
    · rw [List.getD_eq_default nodes unusedNode hid] at htensor
      exact absurd htensor (by simp [unusedNode])

end Heap

/-! ## Graphs -/

/-- Why `Graph.__init__` refuses its arguments. `depth` stands for the interpreter's limit
on recursion. -/
inductive GraphError
  | empty
  | notAnInput
  | inputsNotUnique
  | unnamed
  | cycle
  | depth
  | notConnected (labels : List String)
  | undeclared (labels : List String)
  deriving DecidableEq

/-- The text of the error, with the text `repr` gives for a list of names. -/
def GraphError.message (repr : List String → String) : GraphError → String
  | .empty => "Graph requires at least one input and one output"
  | .notAnInput => "Graph inputs must come from input()"
  | .inputsNotUnique => "Graph inputs must be unique"
  | .unnamed => "Graph name must be a non-empty string"
  | .cycle => "symbolic graph contains a cycle"
  | .depth => "maximum recursion depth exceeded"
  | .notConnected labels => "Graph inputs are not connected to an output: " ++ repr labels
  | .undeclared labels => "Graph uses undeclared inputs: " ++ repr labels

/-- The name of a tensor in a message. -/
def Tensor.label (tensor : Tensor) : String :=
  match tensor.name with
  | some name => if name = "" then "<unnamed>" else name
  | none => "<unnamed>"

section Reachable

variable (heap : Heap) (nodes : List NodeId) (outputs : List Tensor)

/-- The tensors that reach an output. -/
def reachableTensors : List Tensor :=
  nodes.flatMap (fun id => (heap.node id).inputs) ++ outputs

/-- The parameters among the nodes whose output is not declared. -/
def undeclaredParameters (inputs : List Tensor) : List NodeId :=
  nodes.filter fun id =>
    (heap.node id).op = "Parameter" ∧ (heap.node id).firstOutput id ∉ inputs

end Reachable

/-- A graph that `Graph.__init__` accepted : `nodes` is the order of its nodes. -/
structure Graph where
  heap : Heap
  depth : ℕ
  inputs : List Tensor
  outputs : List Tensor
  name : String
  nodes : List NodeId
  inputs_exist : ∀ tensor ∈ inputs, heap.Exists tensor
  outputs_exist : ∀ tensor ∈ outputs, heap.Exists tensor
  inputs_ne_nil : inputs ≠ []
  outputs_ne_nil : outputs ≠ []
  inputs_parameters : ∀ tensor ∈ inputs, (heap.node tensor.producer).op = "Parameter"
  inputs_nodup : inputs.Nodup
  name_ne_empty : name ≠ ""
  nodes_eq : visitAll heap.dependencies depth (outputs.map Tensor.producer) = .ok nodes
  inputs_connected : ∀ tensor ∈ inputs, tensor ∈ reachableTensors heap nodes outputs
  parameters_declared : undeclaredParameters heap nodes inputs = []

namespace Graph

/-- `Graph.__init__` on tensors that exist. -/
def init (heap : Heap) (depth : ℕ) (inputs outputs : List Tensor) (name : String)
    (hinputs : ∀ tensor ∈ inputs, heap.Exists tensor)
    (houtputs : ∀ tensor ∈ outputs, heap.Exists tensor) : Except GraphError Graph :=
  if hempty : inputs = [] ∨ outputs = [] then .error .empty
  else if hparameter : ∃ tensor ∈ inputs, (heap.node tensor.producer).op ≠ "Parameter" then
    .error .notAnInput
  else if hnodup : ¬inputs.Nodup then .error .inputsNotUnique
  else if hname : name = "" then .error .unnamed
  else
    match hnodes : visitAll heap.dependencies depth (outputs.map Tensor.producer) with
    | .error .cycle => .error .cycle
    | .error .depth => .error .depth
    | .ok nodes =>
      let missing := inputs.filter fun tensor =>
        decide (tensor ∉ reachableTensors heap nodes outputs)
      if hmissing : missing ≠ [] then .error (.notConnected (missing.map Tensor.label))
      else
        let undeclared := undeclaredParameters heap nodes inputs
        if hundeclared : undeclared ≠ [] then
          .error (.undeclared (undeclared.map fun id => (heap.node id).label))
        else
          .ok {
            heap, depth, inputs, outputs, name, nodes
            inputs_exist := hinputs
            outputs_exist := houtputs
            inputs_ne_nil := fun h => hempty (Or.inl h)
            outputs_ne_nil := fun h => hempty (Or.inr h)
            inputs_parameters := by simpa using hparameter
            inputs_nodup := not_not.1 hnodup
            name_ne_empty := hname
            nodes_eq := hnodes
            inputs_connected := by
              simpa [missing, List.filter_eq_nil_iff] using hmissing
            parameters_declared := not_not.1 hundeclared }

variable (graph : Graph)

/-- The order is topological, and lists what the outputs depend on. -/
theorem nodes_spec :
    IsTopological graph.heap.dependencies graph.nodes ∧
      ∀ id, id ∈ graph.nodes ↔
        ∃ tensor ∈ graph.outputs, DependsOn graph.heap.dependencies tensor.producer id := by
  simpa using visitAll_spec graph.nodes_eq

theorem nodes_nodup : graph.nodes.Nodup :=
  graph.nodes_spec.1.nodup

theorem producer_mem_nodes {tensor : Tensor} (h : tensor ∈ graph.outputs) :
    tensor.producer ∈ graph.nodes :=
  (graph.nodes_spec.2 _).2 ⟨tensor, h, .refl⟩

/-- The custom nodes in the order of the nodes, as `serialize_ir` collects them. -/
def customNodes : List NodeId :=
  graph.nodes.filter fun id => (graph.heap.node id).op = "Custom"

variable {graph}

theorem mem_customNodes_iff {id : NodeId} :
    id ∈ graph.customNodes ↔ id ∈ graph.nodes ∧ (graph.heap.node id).op = "Custom" := by
  simp [customNodes]

theorem customNodes_nodup : graph.customNodes.Nodup :=
  graph.nodes_nodup.filter _

end Graph

/-! ## Small graphs -/

theorem exampleShape_positive : ∀ dimension ∈ [2, 8], 0 < dimension := by simp

/-- The input `x` of shape `2,8`. -/
def parameterNode : Node where
  op := "Parameter"
  inputs := []
  attrs := []
  outputSpecs := [⟨[2, 8], .f16, by simp⟩]
  name := some "x"
  carrier := none
  value := none
  outputSpecs_ne_nil := by simp
  attrs_nodup := by simp

/-- A custom node `y` that reads the output of node 0. -/
def customNode : Node where
  op := "Custom"
  inputs := [parameterNode.firstOutput 0]
  attrs := []
  outputSpecs := [⟨[2, 8], .f16, by simp⟩]
  name := some "y"
  carrier := some "Relu"
  value := none
  outputSpecs_ne_nil := by simp
  attrs_nodup := by simp

/-- The graph whose output is its input. -/
def identityGraph : Graph where
  heap := .ofNodes [parameterNode] (by decide)
  depth := 1
  inputs := [parameterNode.firstOutput 0]
  outputs := [parameterNode.firstOutput 0]
  name := "identity"
  nodes := [0]
  inputs_exist := by decide
  outputs_exist := by decide
  inputs_ne_nil := by simp
  outputs_ne_nil := by simp
  inputs_parameters := by decide
  inputs_nodup := by simp
  name_ne_empty := by decide
  nodes_eq := by decide
  inputs_connected := by decide
  parameters_declared := by decide

/-- The graph of one custom node. -/
def customGraph : Graph where
  heap := .ofNodes [parameterNode, customNode] (by decide)
  depth := 2
  inputs := [parameterNode.firstOutput 0]
  outputs := [customNode.firstOutput 1]
  name := "custom"
  nodes := [0, 1]
  inputs_exist := by decide
  outputs_exist := by decide
  inputs_ne_nil := by simp
  outputs_ne_nil := by simp
  inputs_parameters := by decide
  inputs_nodup := by simp
  name_ne_empty := by decide
  nodes_eq := by decide
  inputs_connected := by decide
  parameters_declared := by decide

/-- A custom node `z` that reads the output of node 1. -/
def nextNode : Node :=
  { customNode with inputs := [customNode.firstOutput 1], name := some "z" }

/-- The graph of two custom nodes in a row. Both are outputs. -/
def pairGraph : Graph where
  heap := .ofNodes [parameterNode, customNode, nextNode] (by decide)
  depth := 3
  inputs := [parameterNode.firstOutput 0]
  outputs := [customNode.firstOutput 1, nextNode.firstOutput 2]
  name := "pair"
  nodes := [0, 1, 2]
  inputs_exist := by decide
  outputs_exist := by decide
  inputs_ne_nil := by simp
  outputs_ne_nil := by simp
  inputs_parameters := by decide
  inputs_nodup := by simp
  name_ne_empty := by decide
  nodes_eq := by decide
  inputs_connected := by decide
  parameters_declared := by decide

end Npunlock
