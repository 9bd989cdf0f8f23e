import Npunlock.SymbolicGraph

/-!
# Serialised IR

`serialize_ir` of `ir.py` : the layers, ports and edges of a graph, and its constants
packed into one weights file. The elements of the XML tree are structures here. The
numbers and dimensions of layers, ports and edges are numbers, which the source writes in
decimal. A `data` element is its attributes as texts, whatever node it belongs to.
-/

namespace Npunlock

/-! ## Elements -/

/-- A `port` element with its `dim` children. -/
structure IrPort where
  id : ℕ
  precision : String
  names : Option String
  dims : List ℕ
  deriving DecidableEq

/-- The attributes of a `data` element, in their order. -/
abbrev IrData := List (String × String)

/-- A `layer` element. `disablePrecisionConversion` is the attribute of its `rt_info`. -/
structure IrLayer where
  id : ℕ
  name : String
  type : String
  version : String
  data : Option IrData
  disablePrecisionConversion : Bool
  input : List IrPort
  output : List IrPort
  outputNames : Option String
  deriving DecidableEq

/-- An `edge` element. -/
structure IrEdge where
  fromLayer : ℕ
  fromPort : ℕ
  toLayer : ℕ
  toPort : ℕ
  deriving DecidableEq

/-- The `net` element. -/
structure IrNet where
  name : String
  version : String
  layers : List IrLayer
  edges : List IrEdge
  deriving DecidableEq

structure SerializedIR where
  net : IrNet
  weights : List UInt8
  customNodes : List NodeId
  deriving DecidableEq

/-- Why `serialize_ir` refuses a graph. -/
inductive IrError
  | overrideKey
  | overrideValue
  | missingCarrier
  | missingValue
  | notSerializable
  deriving DecidableEq

/-- The text of the error, with the text `repr` gives for the attribute's value. -/
def IrError.message (repr : String) : IrError → String
  | .overrideKey => "carrier override keys must be custom nodes in this graph"
  | .overrideValue =>
    "carrier override values must be non-empty operator names without whitespace"
  | .missingCarrier => "custom node is missing a carrier operator"
  | .missingValue => "constant node has no value"
  | .notSerializable => "IR attribute value is not serializable: " ++ repr

/-! ## Texts -/

/-- The name of an element type. -/
def DType.name : DType → String
  | .boolean => "boolean"
  | .f16 => "f16"
  | .f32 => "f32"
  | .f64 => "f64"
  | .i8 => "i8"
  | .i16 => "i16"
  | .i32 => "i32"
  | .i64 => "i64"
  | .u8 => "u8"
  | .u16 => "u16"
  | .u32 => "u32"
  | .u64 => "u64"

/-- `_PRECISIONS`. -/
def DType.precision : DType → String
  | .boolean => "BOOL"
  | .f16 => "FP16"
  | .f32 => "FP32"
  | .f64 => "FP64"
  | .i8 => "I8"
  | .i16 => "I16"
  | .i32 => "I32"
  | .i64 => "I64"
  | .u8 => "U8"
  | .u16 => "U16"
  | .u32 => "U32"
  | .u64 => "U64"

/-- `_OPSET_VERSIONS`. -/
def opsetVersion (type : String) : String :=
  if type = "Slice" then "opset8" else "opset1"

/-- `str.isspace` for one character. -/
def isSpace (c : Char) : Bool :=
  c.toNat ∈ [0x20, 0x85, 0xA0, 0x1680, 0x2028, 0x2029, 0x202F, 0x205F, 0x3000] ∨
    0x09 ≤ c.toNat ∧ c.toNat ≤ 0x0D ∨ 0x1C ≤ c.toNat ∧ c.toNat ≤ 0x1F ∨
      0x2000 ≤ c.toNat ∧ c.toNat ≤ 0x200A

/-- A non-empty operator name without whitespace. -/
def isOperatorName (name : String) : Bool :=
  name != "" && name.toList.all fun c => !isSpace c

/-- `_shape_text`. -/
def shapeText (shape : List ℕ) : String :=
  ",".intercalate (shape.map toString)

/-- `_attribute_text` of one value. -/
def AttributeScalar.toText : AttributeScalar → String
  | .text value => value
  | .boolean value => if value then "true" else "false"
  | .integer value => toString value
  | .float shown => shown

/-- `_attribute_text`. -/
def attributeText : Attribute → Except IrError String
  | .scalar value => .ok value.toText
  | .sequence items => .ok (",".intercalate (items.map AttributeScalar.toText))
  | .other => .error .notSerializable

/-- One attribute of a `data` element. -/
def attributeEntry (entry : String × Attribute) : Except IrError (String × String) := do
  let text ← attributeText entry.2
  .ok (entry.1, text)

/-! ## Layers -/

/-- `_add_port`. -/
def addPort (id : ℕ) (tensor : Tensor) (names : Option String) : IrPort where
  id
  precision := tensor.dtype.precision
  names := names.filter (· ≠ "")
  dims := tensor.shape

/-- The ports of the inputs. -/
def inputPorts (tensors : List Tensor) : List IrPort :=
  tensors.mapIdx fun index tensor => addPort index tensor none

/-- The ports of the outputs, behind `base` ports of inputs. -/
def outputPorts (base : ℕ) (tensors : List Tensor) : List IrPort :=
  tensors.mapIdx fun index tensor => addPort (base + index) tensor tensor.name

/-- The bytes a node adds to the weights. -/
def Node.constantBytes (node : Node) : List UInt8 :=
  if node.op = "Const" then node.value.getD [] else []

/-- The name of a node or tensor, if it is not empty, else `default`. -/
def nameOr (name : Option String) (default : String) : String :=
  (name.filter (· ≠ "")).getD default

section Serialize

variable (graph : Graph) (overrides : List (NodeId × String))

/-- The layer type : the carrier of a custom node, else the operator. -/
def layerType (id : NodeId) : Except IrError String :=
  let node := graph.heap.node id
  if node.op = "Custom" then
    match overrides.lookup id <|> node.carrier with
    | some carrier => .ok carrier
    | none => .error .missingCarrier
  else .ok node.op

/-- The `data` element of a node whose constant would begin at `offset`. -/
def layerData (offset : ℕ) (node : Node) : Except IrError (Option IrData) :=
  let spec := node.outputSpecs.head node.outputSpecs_ne_nil
  if node.op = "Parameter" then
    .ok (some [("shape", shapeText spec.shape), ("element_type", spec.dtype.name)])
  else if node.op = "Const" then
    match node.value with
    | some raw => .ok (some [("element_type", spec.dtype.name), ("shape", shapeText spec.shape),
        ("offset", toString offset), ("size", toString raw.length)])
    | none => .error .missingValue
  else if node.attrs = [] then .ok none
  else do
    let entries ← node.attrs.mapM attributeEntry
    .ok (some entries)

/-- The layer of a node at position `index`. -/
def nodeLayer (offset index : ℕ) (id : NodeId) : Except IrError IrLayer := do
  let node := graph.heap.node id
  let type ← layerType graph overrides id
  let data ← layerData offset node
  .ok {
    id := index
    name := nameOr node.name (node.op ++ "_" ++ toString index)
    type
    version := opsetVersion type
    data
    disablePrecisionConversion :=
      node.op = "Custom" ∧ ∃ spec ∈ node.outputSpecs, spec.dtype = .f32
    input := inputPorts node.inputs
    output := outputPorts node.inputs.length (node.outputs id)
    outputNames := none }

/-- The layers of the nodes from position `index` on, with the weights so far. -/
def nodeLayers : ℕ → List UInt8 → List NodeId → Except IrError (List IrLayer × List UInt8)
  | _, weights, [] => .ok ([], weights)
  | index, weights, id :: ids => do
    let layer ← nodeLayer graph overrides weights.length index id
    let (layers, weights) ← nodeLayers (index + 1)
      (weights ++ (graph.heap.node id).constantBytes) ids
    .ok (layer :: layers, weights)

/-- The layer of a graph output. -/
def resultLayer (outputIndex : ℕ) (output : Tensor) : IrLayer where
  id := graph.nodes.length + outputIndex
  name := nameOr output.name ("Result_" ++ toString outputIndex)
  type := "Result"
  version := "opset1"
  data := none
  disablePrecisionConversion := false
  input := [addPort 0 output none]
  output := []
  outputNames := some (nameOr output.name ("Result_" ++ toString outputIndex))

/-- `ids[node]`. -/
def layerId (id : NodeId) : ℕ :=
  graph.nodes.idxOf id

/-- The edge from the producer of a tensor to a port. -/
def edgeTo (toLayer toPort : ℕ) (tensor : Tensor) : IrEdge where
  fromLayer := layerId graph tensor.producer
  fromPort := (graph.heap.node tensor.producer).inputs.length + tensor.outputIndex
  toLayer
  toPort

/-- The edges to the inputs of the nodes, then to the graph outputs. -/
def serializeEdges : List IrEdge :=
  (graph.nodes.flatMap fun id =>
    (graph.heap.node id).inputs.mapIdx fun index tensor =>
      edgeTo graph (layerId graph id) index tensor) ++
    graph.outputs.mapIdx fun outputIndex tensor =>
      edgeTo graph (graph.nodes.length + outputIndex) 0 tensor

/-- `serialize_ir`, with carriers that replace those of custom nodes. -/
def serializeIr : Except IrError SerializedIR := do
  refuseIf (∃ entry ∈ overrides, entry.1 ∉ graph.customNodes) IrError.overrideKey
  refuseIf (∃ entry ∈ overrides, ¬isOperatorName entry.2) IrError.overrideValue
  let (layers, weights) ← nodeLayers graph overrides 0 [] graph.nodes
  .ok {
    net := {
      name := graph.name
      version := "11"
      layers := layers ++ graph.outputs.mapIdx (resultLayer graph)
      edges := serializeEdges graph }
    weights
    customNodes := graph.customNodes }

end Serialize

end Npunlock
