import Npunlock.Projection
import Npunlock.SymbolicGraph

/-!
# ACT targets of custom nodes

The targets of ACT groups, of either version, and the predicates of `__init__.py` that
decide whether they fit a custom node : `customTargetsMismatch` for the targets of one
group, `combinedTargets` for the targets of several.
-/

namespace Npunlock

/-! ## Targets -/

deriving instance DecidableEq for PatchTensorContract, PatchTargetV2

/-- The element type by its name. -/
def TensorDtype.toDType : TensorDtype → DType
  | .f16 => .f16
  | .f32 => .f32
  | .i32 => .i32
  | .i8 => .i8
  | .i16 => .i16
  | .u8 => .u8
  | .u16 => .u16
  | .u32 => .u32

/-- The tensors of a role. -/
def tensorsOfRole (role : TensorRole) (tensors : List PatchTensorContract) :
    List PatchTensorContract :=
  tensors.filter fun tensor => tensor.role = role

/-- A version 2 target with one output tensor, as discovery gives it
(`one_output_of_readTarget`). -/
structure ActTargetV2 extends PatchTargetV2 where
  one_output : (tensorsOfRole .output tensors).length = 1
  deriving DecidableEq

namespace ActTargetV2

variable (target : ActTargetV2)

def inputs : List PatchTensorContract :=
  tensorsOfRole .input target.tensors

theorem outputs_ne_nil : tensorsOfRole .output target.tensors ≠ [] := by
  have hlength := target.one_output
  intro h
  simp [h] at hlength

/-- The property `output`, which does not raise for a target with one output tensor. -/
def output : PatchTensorContract :=
  (tensorsOfRole .output target.tensors).head target.outputs_ne_nil

end ActTargetV2

/-- `PatchTargetContract`, a target of either version. A version 1 target has the fields of
the native record, and is written as one. -/
inductive PatchTargetContract
  | legacy (target : PatchblobTarget)
  | versioned (target : ActTargetV2)
  deriving DecidableEq

namespace PatchTargetContract

def asLegacy : PatchTargetContract → Option PatchblobTarget
  | .legacy target => some target
  | .versioned _ => none

def asVersioned : PatchTargetContract → Option ActTargetV2
  | .legacy _ => none
  | .versioned target => some target

end PatchTargetContract

/-- The targets of one ACT group, in their order. -/
abbrev GroupTargets := List PatchTargetContract

/-! ## One group -/

/-- `_legacy_target_dtype` : the element type of the precision flags. -/
def legacyTargetDtype (target : PatchblobTarget) : Option DType :=
  let fp16 := target.requiredContractFlags &&& 0x04 ≠ 0
  let fp32 := target.requiredContractFlags &&& 0x20 ≠ 0
  if fp16 ↔ fp32 then none else if fp16 then some .f16 else some .f32

/-- The shape of `node.outputs[0]`. -/
def Node.outputShape (node : Node) : List ℕ :=
  (node.outputSpecs.head node.outputSpecs_ne_nil).shape

/-- The element type of `node.outputs[0]`. -/
def Node.outputDtype (node : Node) : DType :=
  (node.outputSpecs.head node.outputSpecs_ne_nil).dtype

/-- The shapes of five inputs with scalar positions 1 to 4. -/
def hasFourScalarInputs (outputShape : List ℕ) (inputShapes : List (List ℕ)) : Bool :=
  outputShape = [1, 32] ∧ inputShapes = [[1, 32], [1, 1], [1, 1], [1, 1], [1, 1]] ∨
    outputShape = [4, 8] ∧ inputShapes = [[4, 8], [4, 1], [4, 1], [4, 1], [4, 1]]

/-- The shapes of five inputs with scalar positions 2 to 4. -/
def hasThreeScalarInputs (outputShape : List ℕ) (inputShapes : List (List ℕ)) : Bool :=
  outputShape = [4, 8] ∧ inputShapes = [[4, 8], [4, 8], [4, 1], [4, 1], [4, 1]] ∨
    outputShape = [1, 32] ∧ inputShapes = [[1, 32], [1, 32], [1, 1], [1, 1], [1, 1]]

/-- `_custom_scalar_input_indices` : the scalar inputs of the node's shapes. -/
def customScalarInputIndices (node : Node) : List ℕ :=
  let shapes := node.inputs.map Tensor.shape
  if node.outputShape.prod ≤ 1 then []
  else if shapes.length = 5 then
    if hasFourScalarInputs node.outputShape shapes then [1, 2, 3, 4]
    else if hasThreeScalarInputs node.outputShape shapes then [2, 3, 4] else []
  else (List.range shapes.length).filter fun index =>
    shapes.length = 2 ∧ ((shapes.getD index []).prod = 1 ∨
      node.outputShape = [4, 8] ∧ shapes.getD index [] = [4, 1])

/-- Why the targets of a group do not fit a node. -/
inductive TargetsMismatch
  | outputsOrTargets
  | arity
  | precisionFlags
  | precisions
  | scalarPositions
  | versions
  | coverage
  deriving DecidableEq

def TargetsMismatch.text : TargetsMismatch → String
  | .outputsOrTargets => "custom mapping requires one output and at least one ACT target"
  | .arity => "ACT group does not match its input arity"
  | .precisionFlags => "ACT target precision flags are inconsistent or unsupported"
  | .precisions => "ACT tensor precisions do not match the custom node"
  | .scalarPositions => "ACT scalar input positions do not match the custom node"
  | .versions => "ACT targets mix incompatible contract versions"
  | .coverage => "ACT targets do not match the custom node's logical output coverage"

/-- The scalar input that a target of the first version declares. -/
def legacyScalarInputs (target : PatchblobTarget) : List ℕ :=
  if target.requiredContractFlags &&& 0x40 ≠ 0 then [1] else []

/-- The mismatch of targets of the first version. The lists without duplicates stand for
the sets of the source. -/
def legacyMismatch (node : Node) (targets : List PatchblobTarget) : Option TargetsMismatch :=
  let expectedInputs := node.inputs.map Tensor.dtype
  if (targets.map PatchblobTarget.expectedInputCount).dedup ≠ [expectedInputs.length] then
    some .arity
  else match (targets.map legacyTargetDtype).dedup with
    | [some dtype] =>
      if expectedInputs ≠ List.replicate expectedInputs.length dtype ∨
          node.outputDtype ≠ dtype then
        some .precisions
      else if (targets.map legacyScalarInputs).dedup ≠ [customScalarInputIndices node] then
        some .scalarPositions
      else none
    | _ => some .precisionFlags

/-- The scalar inputs of a target of the second version. -/
def ActTargetV2.scalarInputs (target : ActTargetV2) : List ℕ :=
  (target.inputs.filter fun tensor =>
    tensor.elementCount = 1 ∧ 1 < target.output.elementCount).map PatchTensorContract.index

/-- The mismatch of one target of the second version. -/
def versionedMismatch (node : Node) (target : ActTargetV2) : Option TargetsMismatch :=
  if (target.inputs.map fun tensor => tensor.dtype.toDType) ≠ node.inputs.map Tensor.dtype ∨
      target.output.dtype.toDType ≠ node.outputDtype then
    some .precisions
  else if target.scalarInputs ≠ customScalarInputIndices node then some .scalarPositions
  else none

/-- The final check of `_custom_targets_mismatch`. -/
def coverMismatch (node : Node) (requirePartitionCover : Bool) (counts : List ℕ) :
    Option TargetsMismatch :=
  if requirePartitionCover ∧ counts.sum ≠ node.outputShape.prod then some .coverage else none

/-- `_custom_targets_mismatch` : the first reason that the targets do not fit the node. -/
def customTargetsMismatch (node : Node) (targets : GroupTargets)
    (requirePartitionCover : Bool) : Option TargetsMismatch :=
  if node.outputSpecs.length ≠ 1 ∨ targets = [] then some .outputsOrTargets
  else match targets.mapM PatchTargetContract.asLegacy,
      targets.mapM PatchTargetContract.asVersioned with
    | some legacy, _ =>
      legacyMismatch node legacy <|>
        coverMismatch node requirePartitionCover (legacy.map PatchblobTarget.expectedElementCount)
    | none, some versioned =>
      versioned.findSome? (versionedMismatch node) <|>
        coverMismatch node requirePartitionCover
          (versioned.map fun target => target.output.elementCount)
    | none, none => some .versions

/-! ## Several groups -/

/-- `item_sizes` of `_combined_custom_targets`. -/
def itemSize : DType → Option ℕ
  | .f16 => some 2
  | .f32 => some 4
  | _ => none

/-- The values count up from the first. -/
def IsRange (values : List ℕ) : Prop :=
  values = (List.range values.length).map (values.headD 0 + ·)

instance (values : List ℕ) : Decidable (IsRange values) :=
  inferInstanceAs (Decidable (_ = _))

/-- `_combined_custom_targets` : the targets of an operation split over several groups. -/
def combinedCustomTargets (node : Node) (groups : List (List PatchblobTarget)) :
    Option (List PatchblobTarget) :=
  let targets := groups.flatten
  if groups.length < 2 ∨ node.outputSpecs.length ≠ 1 then none
  else match itemSize node.outputDtype, targets with
    | none, _ => none
    | some _, [] => none
    | some itemSize, first :: rest =>
      if ∃ target ∈ first :: rest, target.expectedInputCount ≠ node.inputs.length ∨
          target.expectedSpanBytes ≠ target.expectedElementCount * itemSize ∨
          target.requiredContractFlags ≠ first.requiredContractFlags then none
      else if ¬IsRange ((first :: rest).map PatchblobTarget.invocationIndex) then none
      else if ¬IsRange ((first :: rest).map PatchblobTarget.rangeIndex) then none
      else if ¬((first :: rest).map fun target =>
          (target.invocationIndex, target.rangeIndex)).Nodup then none
      else if customTargetsMismatch node ((first :: rest).map .legacy) true ≠ none then none
      else some targets

/-- The tensors of every target of the hybrid layout. -/
def hybridTensors : List PatchTensorContract :=
  [⟨.input, 0, .f16, 4, 8, 0x07⟩, ⟨.input, 1, .f16, 4, 8, 0x07⟩,
    ⟨.input, 2, .f16, 1, 2, 0x07⟩, ⟨.input, 3, .f16, 1, 2, 0x07⟩,
    ⟨.input, 4, .f16, 1, 2, 0x07⟩, ⟨.output, 0, .f16, 4, 8, 0x0F⟩]

/-- `_combined_hybrid_per_row_targets_v2` : the four-row hybrid layout with five inputs. -/
def combinedHybridPerRowTargetsV2 (node : Node) (groups : List (List ActTargetV2)) :
    Option (List ActTargetV2) :=
  let targets := groups.flatten
  if groups.length ≠ 4 ∨ node.outputSpecs.length ≠ 1 ∨ node.outputShape ≠ [4, 8] ∨
      node.outputDtype ≠ .f16 ∨
      node.inputs.map Tensor.shape ≠ [[4, 8], [4, 8], [4, 1], [4, 1], [4, 1]] ∨
      (∃ tensor ∈ node.inputs, tensor.dtype ≠ .f16) ∨ (∃ group ∈ groups, group.length ≠ 4) then
    none
  else if ∃ target ∈ targets, target.targetFlags ≠ 0 ∨ target.tensors ≠ hybridTensors then none
  else if ¬IsRange (targets.map fun target => target.invocationIndex) then none
  else if ¬(targets.map fun target => (target.invocationIndex, target.rangeIndex)).Nodup then none
  else some targets

/-- The choice between the two combining functions, by the version of all targets. -/
def combinedTargets (node : Node) (groups : List GroupTargets) : Option GroupTargets :=
  match groups.mapM fun group => group.mapM PatchTargetContract.asLegacy,
      groups.mapM fun group => group.mapM PatchTargetContract.asVersioned with
  | some legacy, _ => (combinedCustomTargets node legacy).map (·.map .legacy)
  | none, some versioned =>
    (combinedHybridPerRowTargetsV2 node versioned).map (·.map .versioned)
  | none, none => none

end Npunlock
