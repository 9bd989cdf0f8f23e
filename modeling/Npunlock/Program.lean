import Npunlock.Counting
import Npunlock.PreparedGraph

/-!
# Programs

A `Program` is a compiled blob with the contracts of its boundary tensors. The constructor
names the boundary of a graph : an input by its tensor, an output by its tensor, else by
its node and output index, else by its position (`Graph.outputName`).
-/

namespace Npunlock

/-- Why no program is made of a graph. -/
inductive ProgramError
  | unnamedInput
  | emptyName
  deriving DecidableEq

def ProgramError.message : ProgramError → String
  | .unnamedInput => "all graph inputs must have names"
  | .emptyName => "tensor contract name must be a non-empty string"

/-- A named boundary tensor. -/
structure TensorContract where
  name : String
  spec : TensorSpec
  name_ne_empty : name ≠ ""
  deriving DecidableEq

namespace TensorContract

/-- `TensorContract.__init__`. -/
def make (name : String) (spec : TensorSpec) : Except ProgramError TensorContract :=
  if h : name = "" then .error .emptyName else .ok ⟨name, spec, h⟩

variable (contract : TensorContract)

def shape : List ℕ :=
  contract.spec.shape

def dtype : DType :=
  contract.spec.dtype

end TensorContract

/-! ## The boundary of a graph -/

namespace Graph

variable (graph : Graph)

/-- The contract of an input. -/
def inputContract (tensor : Tensor) : Except ProgramError TensorContract :=
  match tensor.name with
  | none => .error .unnamedInput
  | some name => TensorContract.make name tensor.spec

/-- The name of a node, or its operator with its position. -/
def producerName (id : NodeId) : String :=
  let position := (graph.heap.node id).op ++ "_" ++ toString (graph.nodes.idxOf id)
  match (graph.heap.node id).name with
  | none => position
  | some name => if name = "" then position else name

/-- The name of a tensor, or of its node with the output index where it has several. -/
def sourceName (tensor : Tensor) : String :=
  match tensor.name with
  | some name => name
  | none =>
    if 1 < (graph.heap.node tensor.producer).outputSpecs.length then
      graph.producerName tensor.producer ++ "." ++ toString tensor.outputIndex
    else ""

/-- The name of the output at position `index`. -/
def outputName (index : ℕ) (tensor : Tensor) : String :=
  if graph.sourceName tensor = "" then "Result_" ++ toString index else graph.sourceName tensor

def outputNames : List String :=
  graph.outputs.mapIdx graph.outputName

theorem outputName_ne_empty (index : ℕ) (tensor : Tensor) : graph.outputName index tensor ≠ "" := by
  rw [outputName]
  split_ifs with h
  · intro hresult
    simpa using congrArg String.length hresult
  · exact h

def inputContracts : Except ProgramError (List TensorContract) :=
  graph.inputs.mapM inputContract

def outputContracts : List TensorContract :=
  graph.outputs.mapIdx fun index tensor =>
    ⟨graph.outputName index tensor, tensor.spec, graph.outputName_ne_empty index tensor⟩

@[simp]
theorem map_name_outputContracts :
    graph.outputContracts.map TensorContract.name = graph.outputNames := by
  exact List.ext_getElem (by simp [outputContracts, outputNames])
    fun index _ _ => by simp [outputContracts, outputNames]

variable {graph}

theorem map_name_inputContracts {contracts : List TensorContract}
    (h : graph.inputContracts = .ok contracts) :
    graph.inputs.map Tensor.name = contracts.map fun contract => some contract.name := by
  refine (map_eq_map_of_forall₂ (fun tensor contract hcontract => ?_) (mapM_eq_ok_iff.1 h)).symm
  rw [inputContract] at hcontract
  split at hcontract
  case h_1 => exact absurd hcontract (by simp)
  case h_2 name hname =>
    rw [TensorContract.make] at hcontract
    split_ifs at hcontract
    obtain rfl := Except.ok.inj hcontract
    exact hname.symm

end Graph

/-! ## Programs -/

/-- A compiled program. `artifactManifest` is the manifest of the bundle it was loaded
from. -/
structure Program where
  graphBlob : List UInt8
  inputs : List TensorContract
  outputs : List TensorContract
  irProvenance : Option IrCompileResult
  patchReports : List (List UInt8)
  artifactManifest : Option (List UInt8)
  deriving DecidableEq

namespace Program

def inputNames (program : Program) : List String :=
  program.inputs.map TensorContract.name

def outputNames (program : Program) : List String :=
  program.outputs.map TensorContract.name

/-- The constructor on a graph, as `build` and `load_native` call it. -/
def ofGraph (graph : Graph) (graphBlob : List UInt8) (irProvenance : Option IrCompileResult)
    (patchReports : List (List UInt8)) : Except ProgramError Program := do
  let inputs ← graph.inputContracts
  .ok {
    graphBlob, inputs, irProvenance, patchReports
    outputs := graph.outputContracts
    artifactManifest := none }

variable {graph : Graph} {graphBlob : List UInt8} {irProvenance : Option IrCompileResult}
  {patchReports : List (List UInt8)} {program : Program}

theorem outputNames_ofGraph
    (h : ofGraph graph graphBlob irProvenance patchReports = .ok program) :
    program.outputNames = graph.outputNames := by
  obtain ⟨inputs, -, hprogram⟩ := bind_eq_ok_iff.1 h
  obtain rfl := Except.ok.inj hprogram
  exact graph.map_name_outputContracts

theorem inputNames_ofGraph
    (h : ofGraph graph graphBlob irProvenance patchReports = .ok program) :
    graph.inputs.map Tensor.name = program.inputNames.map some := by
  obtain ⟨inputs, hinputs, hprogram⟩ := bind_eq_ok_iff.1 h
  obtain rfl := Except.ok.inj hprogram
  rw [Graph.map_name_inputContracts hinputs, inputNames, List.map_map]
  rfl

theorem inputs_ne_nil_ofGraph
    (h : ofGraph graph graphBlob irProvenance patchReports = .ok program) :
    program.inputs ≠ [] := by
  intro hnil
  have hnames := inputNames_ofGraph h
  rw [inputNames, hnil] at hnames
  exact graph.inputs_ne_nil (List.map_eq_nil_iff.1 hnames)

theorem outputs_ne_nil_ofGraph
    (h : ofGraph graph graphBlob irProvenance patchReports = .ok program) :
    program.outputs ≠ [] := by
  intro hnil
  have hnames := outputNames_ofGraph h
  rw [outputNames, hnil] at hnames
  exact graph.outputs_ne_nil (List.mapIdx_eq_nil_iff.1 hnames.symm)

end Program

end Npunlock
