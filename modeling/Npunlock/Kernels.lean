import Npunlock.Bindings

/-!
# Kernels

A custom node is given a C source with its compiler settings (`KernelSpec`) or a linked ELF
(`CompiledKernel`). `planKernels` chooses the kernel of every custom node as `plan` does.
`KernelFiles` stands for the file system.
-/

namespace Npunlock

inductive KernelError
  | emptySource
  | emptyElf
  | unreadable (path : String)
  | definitionCount
  | definitionForm
  | overrideKey
  | notSoleOutput
  | boundTwice (label : String)
  | noSource (label : String)
  deriving DecidableEq

/-- The contents of files, by their paths. -/
abbrev KernelFiles := String → Option (List UInt8)

/-- Bytes, or the path of a file that holds them. -/
inductive FileValue
  | bytes (value : List UInt8)
  | path (value : String)
  deriving DecidableEq

def FileValue.read (files : KernelFiles) : FileValue → Except KernelError (List UInt8)
  | bytes value => .ok value
  | path value =>
    match files value with
    | some content => .ok content
    | none => .error (.unreadable value)

/-- `_kernel_source` -/
def kernelSource (files : KernelFiles) (value : FileValue) : Except KernelError (List UInt8) := do
  let source ← value.read files
  refuseIf (source = []) .emptySource
  .ok source

/-- `_linker_script` : an empty script counts as none. -/
def linkerScript (files : KernelFiles) : Option FileValue → Except KernelError (Option (List UInt8))
  | none => .ok none
  | some value => do
    let script ← value.read files
    .ok (if script = [] then none else some script)

/-- The form `NAME=DECIMAL`. -/
def isCompilerDefinition (definition : String) : Bool :=
  let (name, rest) := definition.toList.span (· ≠ '=')
  let value := rest.tail
  decide (rest ≠ [] ∧ name ≠ []) && (name.head?.any fun first => 'A' ≤ first ∧ first ≤ 'Z') &&
    (name.all fun c => ('A' ≤ c ∧ c ≤ 'Z') ∨ ('0' ≤ c ∧ c ≤ '9') ∨ c = '_') &&
    decide (value ≠ []) && (value.all fun c => '0' ≤ c ∧ c ≤ '9') &&
    decide (definition.utf8ByteSize ≤ 255)

/-- `_compiler_definitions` -/
def compilerDefinitions (values : List String) : Except KernelError (List String) := do
  refuseIf (64 < values.length) .definitionCount
  refuseIf (∃ definition ∈ values, isCompilerDefinition definition = false) .definitionForm
  .ok values

/-- A C source with its compiler settings. -/
structure KernelSpec where
  source : List UInt8
  definitions : List String
  linkerScript : Option (List UInt8)
  deriving DecidableEq

/-- A linked ELF. -/
structure CompiledKernel where
  elf : List UInt8
  deriving DecidableEq

inductive Kernel
  | spec (value : KernelSpec)
  | compiled (value : CompiledKernel)
  deriving DecidableEq

/-- `KernelSpec.__init__` -/
def KernelSpec.make (files : KernelFiles) (source : FileValue) (definitions : List String)
    (script : Option FileValue) : Except KernelError KernelSpec := do
  let source ← kernelSource files source
  let definitions ← compilerDefinitions definitions
  let linkerScript ← Npunlock.linkerScript files script
  .ok { source, definitions, linkerScript }

/-- The `_kernel` entry in the metadata of a custom node. -/
inductive KernelValue
  | kernel (value : Kernel)
  | source (value : FileValue)
  deriving DecidableEq

/-- What the kernels of a graph are chosen from : the metadata of its nodes, and the arguments
`kernels`, `definitions` and `linker_script`. -/
structure KernelArguments where
  metadata : NodeId → Option KernelValue
  kernels : List (Tensor × Kernel)
  definitions : List String
  linkerScript : Option FileValue

section Choice

variable (graph : Graph) (files : KernelFiles) (arguments : KernelArguments)

/-- The kernel that the metadata of a node gives. -/
def nodeKernel (definitions : List String) (script : Option (List UInt8)) (id : NodeId) :
    Except KernelError Kernel :=
  match arguments.metadata id with
  | none => .error (.noSource (graph.heap.node id).label)
  | some (.kernel kernel) => .ok kernel
  | some (.source source) =>
    (KernelSpec.make files source definitions (script.map .bytes)).map .spec

/-- One entry of the overrides, in `plan`. -/
def planOverride (overrides : List (NodeId × Kernel)) (entry : Tensor × Kernel) :
    Except KernelError (List (NodeId × Kernel)) := do
  let id := entry.1.producer
  refuseIf (id ∉ graph.customNodes) .overrideKey
  refuseIf ((graph.heap.node id).outputSpecs.length ≠ 1 ∨
    entry.1 ≠ (graph.heap.node id).firstOutput id) .notSoleOutput
  refuseIf (id ∈ overrides.map Prod.fst) (.boundTwice (graph.heap.node id).label)
  .ok (overrides ++ [(id, entry.2)])

/-- The kernels that `plan` chooses. -/
def planKernels : Except KernelError (List Kernel) := do
  let overrides ← arguments.kernels.foldlM (planOverride graph) []
  let definitions ← compilerDefinitions arguments.definitions
  let script ← linkerScript files arguments.linkerScript
  graph.customNodes.mapM fun id =>
    match overrides.lookup id with
    | some kernel => .ok kernel
    | none => nodeKernel graph files arguments definitions script id

end Choice

end Npunlock
