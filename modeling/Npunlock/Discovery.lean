import Npunlock.Target

/-!
# Target discovery

Discovery lists a target for every invocation of a graph and groups the invocations
that replicate one source operation. `describeTarget` and `describeTargetV2` describe
one invocation. The pass that both versions make over the invocations is written once,
as `discoverGraphTargetsWith`, for a `TargetVersion` that says how a target is described,
validated and compared. `Abi` names the two versions.
-/

namespace Npunlock

/-! ## Groups -/

/-- `invocation_group_identity_equal`. -/
def invocationGroupIdentityEqual (layout : GraphLayout) (leftIndex rightIndex : ℕ) :
    Result Bool := do
  let invocations ← sectionAt layout.sections layout.invocationsIndex
  let left := invocations.offset + leftIndex * 0x40
  let right := invocations.offset + rightIndex * 0x40
  let leftBody ← layout.blob.readBytes (left + 0x0c) 0x24
  let rightBody ← layout.blob.readBytes (right + 0x0c) 0x24
  let leftTail ← layout.blob.readBytes (left + 0x3c) 4
  let rightTail ← layout.blob.readBytes (right + 0x3c) 4
  .ok (leftBody == rightBody && leftTail == rightTail)

/-- `patchblob_discovered_target` and `patchblob_discovered_target_v2`. -/
structure DiscoveredTarget (τ : Type) where
  groupIndex : ℕ
  target : τ
  deriving DecidableEq

/-- What the code for the two versions of a target differs in. -/
structure TargetVersion (τ : Type) where
  describe : GraphLayout → List ℕ → ℕ → Result τ
  validate : GraphLayout → List ℕ → τ → Result PatchDetail
  invocationIndex : τ → ℕ
  rangeIndex : τ → ℕ
  sameContracts : τ → τ → Bool
  checkReplicaGroups : GraphLayout → ℕ → List τ → Result Unit

section Pass

variable {τ : Type} (version : TargetVersion τ) (layout : GraphLayout)

/-- The record at `other` begins a group. -/
def startsGroup (discovered : List (DiscoveredTarget τ)) (other : ℕ) : Bool :=
  other == 0 ||
    (discovered[other - 1]?).map (·.groupIndex) != (discovered[other]?).map (·.groupIndex)

/-- Invocation `index` has the identity of the one before it. -/
def continuesGroup (index : ℕ) : Result Bool :=
  if index = 0 then .ok false else invocationGroupIdentityEqual layout (index - 1) index

/-- The group count after invocation `index` joined the last group or began one. -/
def joinGroup (discovered : List (DiscoveredTarget τ)) (groupCount : ℕ) (target : τ)
    (index : ℕ) : Result ℕ := do
  let continues ← continuesGroup layout index
  if continues = true then
    match discovered[index - 1]? with
    | none => .error .outOfBounds
    | some previous => do
      refuseIf (¬version.sameContracts previous.target target)
        (unsupported "ACT group contains inconsistent tensor contracts")
      .ok groupCount
  else do
    checkRange 0 index fun other =>
      if startsGroup discovered other then do
        let equal ← invocationGroupIdentityEqual layout other index
        refuseIf (equal = true) (unsupported "ACT group identity is non-contiguous and ambiguous")
      else .ok ()
    refuseIf (groupCount = uint32Max)
      (unsupported "ACT group count exceeds the supported index range")
    .ok (groupCount + 1)

/-- Describes invocation `index` and adds its record. -/
def discoverRecord (parameterBases : List ℕ) (index : ℕ)
    (state : List (DiscoveredTarget τ) × ℕ) : Result (List (DiscoveredTarget τ) × ℕ) := do
  let (discovered, groupCount) := state
  let target ← version.describe layout parameterBases index
  let _ ← version.validate layout parameterBases target
  let _ ← findRangeRelocation layout (version.rangeIndex target)
  refuseIf (∃ other ∈ discovered, version.rangeIndex other.target = version.rangeIndex target)
    (unsupported "ACT discovery found a range used more than once")
  let groupCount ← joinGroup version layout discovered groupCount target index
  .ok (discovered ++ [{ groupIndex := groupCount - 1, target }], groupCount)

/-- The records of a parsed graph, and the number of groups. -/
def discoverRecords : Result (List (DiscoveredTarget τ) × ℕ) := do
  let parameterBases ← invocationParameterBases layout
  let ranges ← sectionAt layout.sections layout.rangesIndex
  refuseIf (parameterBases.length = 0 ∨ uint32Max < parameterBases.length ∨
      uint32Max < ranges.size / 0x18)
    (unsupported "ACT carrier has no discoverable invocation sequence")
  forRange 0 parameterBases.length ([], 0) (discoverRecord version layout parameterBases)

def discoverGraphTargetsWith (blob : View) : Result (List (DiscoveredTarget τ) × ℕ) := do
  let layout ← parseGraph blob
  discoverRecords version layout

end Pass

/-! ## Version 1 -/

/-- The second input is a scalar next to a longer first input and output. -/
def hasScalarInput (firstInput secondInput output : MemrefContract) : Bool :=
  1 < firstInput.elementCount && secondInput.dtypeKind == firstInput.dtypeKind &&
    secondInput.elementCount == 1 &&
    secondInput.spanBytes == dtypeSizeBytes firstInput.dtypeKind &&
    output.dtypeKind == firstInput.dtypeKind &&
    output.elementCount == firstInput.elementCount && output.spanBytes == firstInput.spanBytes

/-- The number of tensors of an invocation, and where its parameter block begins. -/
def countRecords (layout : GraphLayout) (parameterBases : List ℕ) (index : ℕ) :
    Result (ℕ × ℕ) := do
  let params ← sectionAt layout.sections layout.paramsIndex
  let base ← parameterBaseAt parameterBases index
  let limit := invocationParameterLimit parameterBases base params.size
  let recordCount ← countDataPointerRelocations layout base limit
  let blockSize ← subSize limit base
  refuseIf (recordCount < 2 ∨ patchblobTargetV2MaxTensors < recordCount ∨
      blockSize < recordCount * 0x28)
    (unsupported "ACT invocation does not have a discoverable input/output contract")
  .ok (recordCount, base)

/-- The scalar flag of the contract of a binary invocation. -/
def scalarInputFlag (layout : GraphLayout) (base : ℕ) (firstInput : MemrefContract)
    (inputCount : ℕ) : Result ℕ :=
  if inputCount = 2 then do
    let secondSlot ← addSize base 0x28
    let secondInput ← validateMemref layout secondSlot
    let outputSlot ← addSize base (2 * 0x28)
    let output ← validateMemref layout outputSlot
    .ok (if hasScalarInput firstInput secondInput output then patchblobContractInput1Scalar
      else 0)
  else .ok 0

/-- The target that `npunlock_discover_graph_targets` fills in for an invocation. -/
def describeTarget (layout : GraphLayout) (parameterBases : List ℕ) (index : ℕ) :
    Result PatchblobTarget := do
  let (recordCount, base) ← countRecords layout parameterBases index
  let firstInput ← validateMemref layout base
  let invocations ← sectionAt layout.sections layout.invocationsIndex
  let rangeIndex ← layout.blob.readU32 (invocations.offset + index * 0x40)
  let flags := patchblobContractStatic ||| patchblobContractDense ||| patchblobContractCmx |||
    patchblobContractDisjointOutput |||
    (if firstInput.dtypeKind = npunlockDtypeF16 then patchblobContractFp16
      else patchblobContractFp32)
  let scalarFlag ← scalarInputFlag layout base firstInput (recordCount - 1)
  .ok { invocationIndex := index, rangeIndex, expectedInputCount := recordCount - 1,
        expectedElementCount := firstInput.elementCount,
        expectedSpanBytes := firstInput.spanBytes,
        requiredContractFlags := flags ||| scalarFlag }

/-- Two version 1 targets with one contract. -/
def contractsEqual (left right : PatchblobTarget) : Bool :=
  left.expectedInputCount == right.expectedInputCount &&
    left.expectedElementCount == right.expectedElementCount &&
    left.expectedSpanBytes == right.expectedSpanBytes &&
    left.requiredContractFlags == right.requiredContractFlags

def targetVersion1 : TargetVersion PatchblobTarget where
  describe := describeTarget
  validate := validateTarget
  invocationIndex := PatchblobTarget.invocationIndex
  rangeIndex := PatchblobTarget.rangeIndex
  sameContracts := contractsEqual
  checkReplicaGroups := fun _ _ _ => .ok ()

/-- `npunlock_discover_graph_targets`. -/
def discoverGraphTargets (blob : View) :
    Result (List (DiscoveredTarget PatchblobTarget) × ℕ) :=
  discoverGraphTargetsWith targetVersion1 blob

/-! ## Version 2 -/

/-- The contract record of the `index`-th of `recordCount` tensors. -/
def describeTensorV2 (recordCount index : ℕ) (actual : MemrefContract) : TensorContractV2 :=
  let isOutput := index + 1 = recordCount
  { structSize := tensorContractV2Size
    role := if isOutput then patchblobTensorRoleOutputV2 else patchblobTensorRoleInputV2
    tensorIndex := if isOutput then 0 else index
    precision := publicPrecisionV2 actual.dtypeKind
    elementCount := actual.elementCount
    spanBytes := actual.spanBytes
    observedFlags := patchblobTensorStaticV2 ||| patchblobTensorDenseV2 |||
      patchblobTensorCmxV2 ||| (if isOutput then patchblobTensorDisjointFromInputsV2 else 0) }

/-- A tensor has another precision than the first. -/
def hasMixedPrecision : List TensorContractV2 → Bool
  | [] => false
  | first :: rest => rest.any fun tensor => tensor.precision != first.precision

/-- The target that `npunlock_discover_graph_targets_v2` fills in for an invocation. -/
def describeTargetV2 (layout : GraphLayout) (parameterBases : List ℕ) (index : ℕ) :
    Result PatchblobTargetV2 := do
  let (recordCount, base) ← countRecords layout parameterBases index
  let invocations ← sectionAt layout.sections layout.invocationsIndex
  let rangeIndex ← layout.blob.readU32 (invocations.offset + index * 0x40)
  let tensors ← mapRange recordCount fun tensorIndex => do
    let slot ← addSize base (tensorIndex * 0x28)
    let actual ← validateMemref layout slot
    .ok (describeTensorV2 recordCount tensorIndex actual)
  .ok { abiVersion := patchblobTargetV2AbiVersion, invocationIndex := index, rangeIndex,
        targetFlags := if hasMixedPrecision tensors then patchblobTargetUnaryConversionV2 else 0,
        tensors }

/-- Two tensor contracts, their struct sizes apart. -/
def tensorContractEqual (left right : TensorContractV2) : Bool :=
  left.role == right.role && left.tensorIndex == right.tensorIndex &&
    left.precision == right.precision && left.elementCount == right.elementCount &&
    left.spanBytes == right.spanBytes && left.observedFlags == right.observedFlags

/-- `tensor_contracts_v2_equal`. -/
def tensorContractsV2Equal (left right : PatchblobTargetV2) : Bool :=
  left.tensorCount == right.tensorCount && left.targetFlags == right.targetFlags &&
    (left.tensors.zip right.tensors).all fun (a, b) => tensorContractEqual a b

/-- The targets of a conversion include every invocation of its group. -/
def checkReplicaGroups (layout : GraphLayout) (invocationCount : ℕ)
    (targets : List PatchblobTargetV2) : Result Unit :=
  targets.forM fun target =>
    if target.targetFlags &&& patchblobTargetUnaryConversionV2 = 0 then .ok ()
    else
      checkRange 0 invocationCount fun invocationIndex => do
        let equal ←
          invocationGroupIdentityEqual layout target.invocationIndex invocationIndex
        refuseIf (equal = true ∧
            ¬∃ selected ∈ targets, selected.invocationIndex = invocationIndex)
          (unsupported "version 2 conversion targets must include the complete ACT replica group")

def targetVersion2 : TargetVersion PatchblobTargetV2 where
  describe := describeTargetV2
  validate := validateTargetV2
  invocationIndex := PatchblobTargetV2.invocationIndex
  rangeIndex := PatchblobTargetV2.rangeIndex
  sameContracts := tensorContractsV2Equal
  checkReplicaGroups := checkReplicaGroups

/-- `npunlock_discover_graph_targets_v2`. -/
def discoverGraphTargetsV2 (blob : View) :
    Result (List (DiscoveredTarget PatchblobTargetV2) × ℕ) :=
  discoverGraphTargetsWith targetVersion2 blob

/-! ## Both versions -/

/-- The version of the target records a caller uses. -/
inductive Abi
  | v1
  | v2
  deriving DecidableEq

def Abi.Target : Abi → Type
  | .v1 => PatchblobTarget
  | .v2 => PatchblobTargetV2

def Abi.version : (abi : Abi) → TargetVersion abi.Target
  | .v1 => targetVersion1
  | .v2 => targetVersion2

end Npunlock
