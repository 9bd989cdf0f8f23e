import Npunlock.GroupAssignment
import Npunlock.Kernels
import Npunlock.Program

/-!
# Build plans

`prepare` compiles the carrier of a graph and discovers its ACT groups, `plan` chooses the
targets and the kernel of every custom node, and `BuildPlan.build` compiles the kernels and
patches them into the carrier one after another. `BuildLibraries` holds what the native
libraries answer.
-/

namespace Npunlock

/-- The native libraries of a build. A patch returns the patched blob and its report. -/
structure BuildLibraries extends NativeLibraries where
  compileShave : KernelSpec → Except NativeError (List UInt8)
  patchGraph : List UInt8 → List UInt8 → GroupTargets →
    Except NativeError (List UInt8 × List UInt8)

inductive BuildError
  | ir (error : IrError)
  | accuracyFlag
  | embeddedTargets
  | severalOutputs
  | positionalCompiler (version : ℕ × ℕ)
  | native (error : NativeError)
  | binding (error : BindingError)
  | kernel (error : KernelError)
  | program (error : ProgramError)
  deriving DecidableEq

/-! ## Preparation -/

/-- The flag that keeps custom nodes in FP32. -/
def accuracyFlag : String :=
  "EXECUTION_MODE_HINT=\"ACCURACY\""

/-- `_effective_build_flags` -/
def effectiveBuildFlags (graph : Graph) (buildFlags : String) : Except BuildError String :=
  if ∃ id ∈ graph.customNodes, ∃ spec ∈ (graph.heap.node id).outputSpecs, spec.dtype = .f32 then
    if buildFlags = "" then .ok ("--config " ++ accuracyFlag)
    else if accuracyFlag.toList <:+: buildFlags.toList then .ok buildFlags
    else .error .accuracyFlag
  else .ok buildFlags

/-- All targets are of one version. -/
def sameVersion (targets : GroupTargets) : Bool :=
  (targets.mapM PatchTargetContract.asLegacy).isSome ||
    (targets.mapM PatchTargetContract.asVersioned).isSome

/-- `_embedded_target_groups` on the `_patch_targets` that the custom nodes carry. -/
def embeddedTargetGroups (graph : Graph) (patchTargets : NodeId → Option GroupTargets) :
    Except BuildError (Option (List GroupTargets)) :=
  let supplied := graph.customNodes.map patchTargets
  if ∀ value ∈ supplied, value = none then .ok none
  else
    match supplied.mapM id with
    | some groups =>
      if ∀ targets ∈ groups, targets ≠ [] ∧ sameVersion targets then .ok (some groups)
      else .error .embeddedTargets
    | none => .error .embeddedTargets

/-- `_VALIDATED_POSITIONAL_COMPILER_VERSION` -/
def validatedPositionalCompilerVersion : ℕ × ℕ :=
  (8, 3)

/-- The status of a call that the libraries do not support. -/
def statusUnsupported : ℕ := 5

/-- `_discover_prepared_contract` : the groups and their automatic assignment. -/
def discoverPreparedContract (libraries : NativeLibraries) (graph : Graph)
    (graphBlob : List UInt8) (embedded : Option (List GroupTargets)) :
    Except BuildError (List GroupTargets × Option (List (List ℕ))) :=
  if graph.customNodes = [] ∨ embedded ≠ none then .ok ([], none)
  else
    match libraries.discoverPatchTargets graphBlob with
    | .ok discovered =>
      let groups := discovered.map (·.map .legacy)
      .ok (groups, (automaticGroupIndices graph groups).1)
    | .error error =>
      if error.status ≠ statusUnsupported then .error (.native error)
      else
        match libraries.discoverPatchTargetsV2 graphBlob with
        | .error error => .error (.native error)
        | .ok discovered =>
          let groups := discovered.map (·.map .versioned)
          if ∃ group ∈ discovered, ∃ target ∈ group, target.targetFlags ≠ 0 then .ok (groups, none)
          else .ok (groups, (automaticGroupIndices graph groups).1)

/-- `prepare` on a graph with the `_patch_targets` of its nodes. -/
def prepare (libraries : NativeLibraries) (graph : Graph)
    (patchTargets : NodeId → Option GroupTargets) (buildFlags : String) :
    Except BuildError PreparedGraph :=
  match h : serializeIr graph [] with
  | .error error => .error (.ir error)
  | .ok serialized => do
    let buildFlags ← effectiveBuildFlags graph buildFlags
    let embedded ← embeddedTargetGroups graph patchTargets
    refuseIf (embedded = none ∧
      ∃ id ∈ graph.customNodes, (graph.heap.node id).outputSpecs.length ≠ 1) .severalOutputs
    let result ← (libraries.compileIr serialized buildFlags).mapError .native
    refuseIf (graph.customNodes ≠ [] ∧ embedded = none ∧
      result.compilerVersion ≠ validatedPositionalCompilerVersion)
      (.positionalCompiler result.compilerVersion)
    let (groups, automatic) ←
      discoverPreparedContract libraries graph result.graphBlob embedded
    .ok {
      graph
      serializedIr := serialized
      irProvenance := result
      discovered := groups
      libraries
      automaticIndices := automatic
      embeddedTargets := embedded
      buildFlags
      savedIndices := none
      savedReviews := none
      serialized_eq := h }

/-! ## Plans -/

/-- A choice of targets and kernels, one of each for every custom node. -/
structure BuildPlan where
  prepared : PreparedGraph
  groupIndices : List (List ℕ)
  kernels : List Kernel
  reviewedBindings : List (Option ReviewedBinding)
  targetGroups : List GroupTargets

/-- `PreparedGraph.plan` -/
def PreparedGraph.plan (prepared : PreparedGraph) (digest : List UInt8 → String)
    (files : KernelFiles) (bindings : List (Tensor × BindingValue)) (arguments : KernelArguments) :
    Except BuildError BuildPlan := do
  let found ← (prepared.resolveBindings digest bindings).mapError .binding
  let kernels ← (planKernels prepared.graph files arguments).mapError .kernel
  .ok {
    prepared, kernels
    groupIndices := found.indices
    reviewedBindings := found.reviews
    targetGroups := found.targets }

/-- The ELF of a kernel. A source that was compiled before is not compiled again. -/
def kernelElf (libraries : BuildLibraries) (cache : List (KernelSpec × List UInt8)) :
    Kernel → Except NativeError (List UInt8 × List (KernelSpec × List UInt8))
  | .compiled kernel => .ok (kernel.elf, cache)
  | .spec kernel =>
    match cache.lookup kernel with
    | some elf => .ok (elf, cache)
    | none => do
      let elf ← libraries.compileShave kernel
      .ok (elf, (kernel, elf) :: cache)

/-- The state of the loop of `BuildPlan.build`. -/
structure BuildState where
  blob : List UInt8
  reports : List (List UInt8)
  elfCache : List (KernelSpec × List UInt8)

/-- One round of it. -/
def BuildState.patch (libraries : BuildLibraries) (state : BuildState)
    (entry : Kernel × GroupTargets) : Except NativeError BuildState := do
  let (elf, elfCache) ← kernelElf libraries state.elfCache entry.1
  let (blob, report) ← libraries.patchGraph state.blob elf entry.2
  .ok { blob, reports := state.reports ++ [report], elfCache }

/-- The loop of `BuildPlan.build`. -/
def BuildPlan.patchAll (libraries : BuildLibraries) (plan : BuildPlan) :
    Except NativeError BuildState :=
  (plan.kernels.zip plan.targetGroups).foldlM (BuildState.patch libraries)
    ⟨plan.prepared.irProvenance.graphBlob, [], []⟩

/-- `BuildPlan.build` -/
def BuildPlan.build (libraries : BuildLibraries) (plan : BuildPlan) :
    Except BuildError Program := do
  let state ← (plan.patchAll libraries).mapError .native
  (Program.ofGraph plan.prepared.graph state.blob (some plan.prepared.irProvenance)
    state.reports).mapError .program

end Npunlock
