import Npunlock.Relocation

/-!
# Patch targets and their validation

A target names an invocation, its kernel range and the tensor contract the replacement
code relies on. Version 1 has one contract for all tensors, with a flag for a scalar
second input. Version 2 lists one contract per tensor. `validateTarget` and
`validateTargetV2` check a target against the graph and fill a patch detail.

The tensor array of a version 2 target is the list of its first `tensor_count`
entries : no function reads the others.
-/

namespace Npunlock

/-! ## Contract flags -/

/-- `PATCHBLOB_CONTRACT_STATIC`. -/
def patchblobContractStatic : ℕ := 0x01
/-- `PATCHBLOB_CONTRACT_DENSE`. -/
def patchblobContractDense : ℕ := 0x02
/-- `PATCHBLOB_CONTRACT_FP16`. -/
def patchblobContractFp16 : ℕ := 0x04
/-- `PATCHBLOB_CONTRACT_CMX`. -/
def patchblobContractCmx : ℕ := 0x08
/-- `PATCHBLOB_CONTRACT_DISJOINT_OUTPUT`. -/
def patchblobContractDisjointOutput : ℕ := 0x10
/-- `PATCHBLOB_CONTRACT_FP32`. -/
def patchblobContractFp32 : ℕ := 0x20
/-- `PATCHBLOB_CONTRACT_INPUT_1_SCALAR`. -/
def patchblobContractInput1Scalar : ℕ := 0x40

/-- `PATCHBLOB_TENSOR_ROLE_INPUT_V2`. -/
def patchblobTensorRoleInputV2 : ℕ := 1
/-- `PATCHBLOB_TENSOR_ROLE_OUTPUT_V2`. -/
def patchblobTensorRoleOutputV2 : ℕ := 2

/-- `PATCHBLOB_TENSOR_PRECISION_FP16_V2`. -/
def patchblobTensorPrecisionFp16V2 : ℕ := 1
/-- `PATCHBLOB_TENSOR_PRECISION_FP32_V2`. -/
def patchblobTensorPrecisionFp32V2 : ℕ := 2
/-- `PATCHBLOB_TENSOR_PRECISION_I32_V2`. -/
def patchblobTensorPrecisionI32V2 : ℕ := 3
/-- `PATCHBLOB_TENSOR_PRECISION_I8_V2`. -/
def patchblobTensorPrecisionI8V2 : ℕ := 4
/-- `PATCHBLOB_TENSOR_PRECISION_I16_V2`. -/
def patchblobTensorPrecisionI16V2 : ℕ := 5
/-- `PATCHBLOB_TENSOR_PRECISION_U8_V2`. -/
def patchblobTensorPrecisionU8V2 : ℕ := 6
/-- `PATCHBLOB_TENSOR_PRECISION_U16_V2`. -/
def patchblobTensorPrecisionU16V2 : ℕ := 7
/-- `PATCHBLOB_TENSOR_PRECISION_U32_V2`. -/
def patchblobTensorPrecisionU32V2 : ℕ := 8

/-- `PATCHBLOB_TENSOR_STATIC_V2`. -/
def patchblobTensorStaticV2 : ℕ := 0x01
/-- `PATCHBLOB_TENSOR_DENSE_V2`. -/
def patchblobTensorDenseV2 : ℕ := 0x02
/-- `PATCHBLOB_TENSOR_CMX_V2`. -/
def patchblobTensorCmxV2 : ℕ := 0x04
/-- `PATCHBLOB_TENSOR_DISJOINT_FROM_INPUTS_V2`. -/
def patchblobTensorDisjointFromInputsV2 : ℕ := 0x08

/-- `PATCHBLOB_TARGET_UNARY_CONVERSION_V2`. -/
def patchblobTargetUnaryConversionV2 : ℕ := 0x01

/-- `PATCHBLOB_TARGET_V2_ABI_VERSION`. -/
def patchblobTargetV2AbiVersion : ℕ := 2

/-- `PATCHBLOB_TARGET_V2_MAX_TENSORS`. -/
def patchblobTargetV2MaxTensors : ℕ := 9

/-- `sizeof(patchblob_tensor_contract_v2)`. -/
def tensorContractV2Size : ℕ := 40

/-! ## Targets -/

/-- `patchblob_target`. -/
structure PatchblobTarget where
  invocationIndex : ℕ
  rangeIndex : ℕ
  expectedInputCount : ℕ
  expectedElementCount : ℕ
  expectedSpanBytes : ℕ
  requiredContractFlags : ℕ
  deriving DecidableEq

/-- `patchblob_tensor_contract_v2`. -/
structure TensorContractV2 where
  structSize : ℕ
  role : ℕ
  tensorIndex : ℕ
  precision : ℕ
  elementCount : ℕ
  spanBytes : ℕ
  observedFlags : ℕ
  deriving DecidableEq

/-- `patchblob_target_v2`. -/
structure PatchblobTargetV2 where
  abiVersion : ℕ
  invocationIndex : ℕ
  rangeIndex : ℕ
  targetFlags : ℕ
  tensors : List TensorContractV2
  deriving DecidableEq

/-- `tensor_count`. -/
def PatchblobTargetV2.tensorCount (target : PatchblobTargetV2) : ℕ :=
  target.tensors.length

/-- `npunlock_patch_detail`. -/
structure PatchDetail where
  invocationIndex : ℕ
  rangeIndex : ℕ
  inputCount : ℕ
  parameterBase : ℕ
  elementCount : ℕ
  spanBytes : ℕ
  contractFlags : ℕ := 0
  targetFlagsV2 : ℕ := 0
  tensorsV2 : List TensorContractV2 := []
  extentFileOffset : ℕ
  addendFileOffset : ℕ := 0
  oldExtent : ℕ
  newExtent : ℕ := 0
  oldAddend : ℤ := 0
  newAddend : ℤ := 0
  deriving DecidableEq

/-! ## Checks both versions make -/

/-- `parameter_bases[index]`. -/
def parameterBaseAt (parameterBases : List ℕ) (index : ℕ) : Result ℕ :=
  match parameterBases[index]? with
  | some base => .ok base
  | none => .error .outOfBounds

/-- The inputs share the address space of the output and do not overlap it. -/
def checkDisjointOutput (inputs : List MemrefContract) (output : MemrefContract) :
    Result Unit :=
  inputs.forM fun input => do
    refuseIf (input.dataSymbol ≠ output.dataSymbol)
      (unsupported "selected invocation tensors do not share the observed address space")
    refuseIf (spansOverlap input.dataAddend.toNat input.spanBytes output.dataAddend.toNat
        output.spanBytes = true)
      (unsupported "selected invocation output overlaps an input tensor")

/-- `GRAPH_CODE_ADDRESS`. -/
def graphCodeAddress : ℕ := 0x1d000000

/-- The code address form of a range. Returns the file offset of the record. -/
def checkRangeForm (layout : GraphLayout) (ranges : GraphSection) (rangeIndex : ℕ) :
    Result ℕ := do
  let rangeOffset := ranges.offset + rangeIndex * 0x18
  let address ← layout.blob.readU32 (rangeOffset + 4)
  let pointer ← layout.blob.readU32 (rangeOffset + 8)
  refuseIf (address ≠ graphCodeAddress ∨ pointer ≠ 0)
    (unsupported "selected range does not use the observed ACT code-address form")
  .ok rangeOffset

/-! ## Version 1 -/

/-- The contract of one input of a version 1 target : elements and bytes. -/
def expectedInput (target : PatchblobTarget) (scalarFlags expectedDtype index : ℕ) : ℕ × ℕ :=
  if index = 1 ∧ scalarFlags ≠ 0 then (1, dtypeSizeBytes expectedDtype)
  else (target.expectedElementCount, target.expectedSpanBytes)

/-- The flags of a version 1 target have the observed form. -/
def checkContractFlags (target : PatchblobTarget) : Result Unit :=
  let baseFlags := patchblobContractStatic ||| patchblobContractDense ||| patchblobContractCmx |||
    patchblobContractDisjointOutput
  let precisionFlags :=
    target.requiredContractFlags &&& (patchblobContractFp16 ||| patchblobContractFp32)
  let scalarFlags := target.requiredContractFlags &&& patchblobContractInput1Scalar
  refuseIf ((precisionFlags ≠ patchblobContractFp16 ∧ precisionFlags ≠ patchblobContractFp32) ∨
      target.requiredContractFlags ≠ baseFlags ||| precisionFlags ||| scalarFlags ∨
      (scalarFlags ≠ 0 ∧
        (target.expectedInputCount ≠ 2 ∨ target.expectedElementCount ≤ 1)))
    (unsupported "target requires the observed static dense FP16/FP32 CMX contract")

/-- `validate_target`. -/
def validateTarget (layout : GraphLayout) (parameterBases : List ℕ) (target : PatchblobTarget) :
    Result PatchDetail := do
  let invocations ← sectionAt layout.sections layout.invocationsIndex
  let params ← sectionAt layout.sections layout.paramsIndex
  let ranges ← sectionAt layout.sections layout.rangesIndex
  refuseIf (parameterBases.length ≤ target.invocationIndex ∨
      ranges.size / 0x18 ≤ target.rangeIndex ∨ 8 < target.expectedInputCount)
    (unsupported "selected invocation or range index is outside the ACT carrier")
  checkContractFlags target
  let precisionFlags :=
    target.requiredContractFlags &&& (patchblobContractFp16 ||| patchblobContractFp32)
  let scalarFlags := target.requiredContractFlags &&& patchblobContractInput1Scalar
  let expectedDtype :=
    if precisionFlags = patchblobContractFp16 then npunlockDtypeF16 else npunlockDtypeF32
  let rangeIndex ← layout.blob.readU32 (invocations.offset + target.invocationIndex * 0x40)
  refuseIf (rangeIndex ≠ target.rangeIndex)
    (unsupported "selected invocation does not reference the selected range")
  let base ← parameterBaseAt parameterBases target.invocationIndex
  let limit := invocationParameterLimit parameterBases base params.size
  let blockSize ← subSize limit base
  let expectedRecords := target.expectedInputCount + 1
  refuseIf (blockSize < expectedRecords * 0x28)
    (unsupported "selected invocation parameter block is too small")
  checkRange 0 expectedRecords fun index => do
    let slot ← addSize base (index * 0x28)
    let _ ← asUnsupported (findPointerRelocation layout layout.paramsIndex slot none true)
    .ok ()
  let specialCount ← countDataPointerRelocations layout base limit
  refuseIf (specialCount ≠ expectedRecords)
    (unsupported "selected invocation parameter block has an unexpected data-pointer layout")
  let inputs ← mapRange target.expectedInputCount fun index => do
    let slot ← addSize base (index * 0x28)
    let input ← validateMemref layout slot
    let (elementCount, spanBytes) := expectedInput target scalarFlags expectedDtype index
    refuseIf (input.elementCount ≠ elementCount ∨ input.spanBytes ≠ spanBytes ∨
        input.dtypeKind ≠ expectedDtype)
      (unsupported "input tensor does not match the expected element contract")
    .ok input
  let slot ← addSize base (target.expectedInputCount * 0x28)
  let output ← validateMemref layout slot
  refuseIf (output.elementCount ≠ target.expectedElementCount ∨
      output.spanBytes ≠ target.expectedSpanBytes ∨ output.dtypeKind ≠ expectedDtype)
    (unsupported "output tensor does not match the expected element contract")
  checkDisjointOutput inputs output
  let rangeOffset ← checkRangeForm layout ranges target.rangeIndex
  let oldExtent ← layout.blob.readU32 (rangeOffset + 0x0c)
  .ok { invocationIndex := target.invocationIndex, rangeIndex := target.rangeIndex,
        inputCount := target.expectedInputCount, parameterBase := base,
        elementCount := target.expectedElementCount, spanBytes := target.expectedSpanBytes,
        contractFlags := target.requiredContractFlags, extentFileOffset := rangeOffset + 0x0c,
        oldExtent }

/-! ## Version 2 -/

/-- `public_precision_v2`. -/
def publicPrecisionV2 (dtypeKind : ℕ) : ℕ :=
  if dtypeKind = npunlockDtypeF16 then patchblobTensorPrecisionFp16V2
  else if dtypeKind = npunlockDtypeF32 then patchblobTensorPrecisionFp32V2
  else if dtypeKind = npunlockDtypeI32 then patchblobTensorPrecisionI32V2
  else if dtypeKind = npunlockDtypeI16 then patchblobTensorPrecisionI16V2
  else if dtypeKind = npunlockDtypeI8 then patchblobTensorPrecisionI8V2
  else if dtypeKind = npunlockDtypeU8 then patchblobTensorPrecisionU8V2
  else if dtypeKind = npunlockDtypeU16 then patchblobTensorPrecisionU16V2
  else if dtypeKind = npunlockDtypeU32 then patchblobTensorPrecisionU32V2
  else 0

/-- `dtype_from_public_precision_v2`. -/
def dtypeFromPublicPrecisionV2 (precision : ℕ) : ℕ :=
  if precision = patchblobTensorPrecisionFp16V2 then npunlockDtypeF16
  else if precision = patchblobTensorPrecisionFp32V2 then npunlockDtypeF32
  else if precision = patchblobTensorPrecisionI32V2 then npunlockDtypeI32
  else if precision = patchblobTensorPrecisionI16V2 then npunlockDtypeI16
  else if precision = patchblobTensorPrecisionI8V2 then npunlockDtypeI8
  else if precision = patchblobTensorPrecisionU8V2 then npunlockDtypeU8
  else if precision = patchblobTensorPrecisionU16V2 then npunlockDtypeU16
  else if precision = patchblobTensorPrecisionU32V2 then npunlockDtypeU32
  else 0

/-- What the flags of an input are. -/
def inputFlagsV2 : ℕ :=
  patchblobTensorStaticV2 ||| patchblobTensorDenseV2 ||| patchblobTensorCmxV2

/-- What the flags of an output are. -/
def outputFlagsV2 : ℕ :=
  inputFlagsV2 ||| patchblobTensorDisjointFromInputsV2

/-- The form of the `index`-th of `inputCount + 1` tensor contracts. -/
def checkTensorV2 (inputCount index : ℕ) (tensor : TensorContractV2) : Result Unit := do
  let dtype := dtypeFromPublicPrecisionV2 tensor.precision
  let expectedRole :=
    if index < inputCount then patchblobTensorRoleInputV2 else patchblobTensorRoleOutputV2
  let expectedIndex := if index < inputCount then index else 0
  let expectedFlags := if index < inputCount then inputFlagsV2 else outputFlagsV2
  refuseIf (tensor.structSize < tensorContractV2Size ∨ tensor.role ≠ expectedRole ∨
      tensor.tensorIndex ≠ expectedIndex ∨ dtype = 0 ∨ tensor.elementCount = 0 ∨
      tensor.spanBytes = 0 ∨ tensor.observedFlags ≠ expectedFlags)
    (unsupported "version 2 tensor records must use the observed static dense CMX layout")
  refuseIf (uint64Max / dtypeSizeBytes dtype < tensor.elementCount ∨
      tensor.spanBytes ≠ tensor.elementCount * dtypeSizeBytes dtype)
    (unsupported "version 2 tensor byte span does not match its precision")

/-- The contract of a target that mixes precisions : one of the unary conversions. -/
def checkConversionV2 (targetFlags : ℕ) (first output : TensorContractV2) (inputCount : ℕ) :
    Result Unit :=
  let supportedUnaryConversion :=
    (first.precision = patchblobTensorPrecisionFp16V2 ∧
        output.precision = patchblobTensorPrecisionFp32V2) ∨
      (first.precision = patchblobTensorPrecisionFp32V2 ∧
        output.precision = patchblobTensorPrecisionFp16V2) ∨
      (first.precision = patchblobTensorPrecisionU8V2 ∧
        output.precision = patchblobTensorPrecisionFp32V2)
  refuseIf (targetFlags ≠ patchblobTargetUnaryConversionV2 ∨ inputCount ≠ 1 ∨
      first.precision = output.precision ∨ first.elementCount ≠ output.elementCount ∨
      ¬supportedUnaryConversion)
    (unsupported ("mixed precision is limited to the observed unary FP16/FP32 or " ++
      "U8-to-FP32 conversion contracts"))

/-- An input with one element next to a longer output. -/
def isObservedScalar (input output : TensorContractV2) : Bool :=
  1 < output.elementCount && input.elementCount == 1

/-- The inputs have the span of the output, except for scalars. Returns their number. -/
def countScalarInputs (inputs : List TensorContractV2) (output : TensorContractV2) : Result ℕ :=
  inputs.foldlM (fun count input =>
    if isObservedScalar input output then .ok (count + 1)
    else do
      refuseIf (input.elementCount ≠ output.elementCount ∨ input.spanBytes ≠ output.spanBytes)
        (unsupported "version 2 input tensor shape is unsupported")
      .ok count) 0

/-- `supported_multi_scalar_fp16`. -/
def isMultiScalarFp16 (inputs : List TensorContractV2) (output : TensorContractV2)
    (scalarInputCount : ℕ) : Bool :=
  output.precision == patchblobTensorPrecisionFp16V2 && inputs.length == 5 &&
    ((output.elementCount == 16 && output.spanBytes == 32) ||
      (output.elementCount == 8 && output.spanBytes == 16)) &&
    (inputs.head?.any fun first =>
      first.elementCount == output.elementCount && first.spanBytes == output.spanBytes) &&
    scalarInputCount == 4

/-- `supported_hybrid_scalar_fp16`. -/
def isHybridScalarFp16 (inputs : List TensorContractV2) (output : TensorContractV2)
    (scalarInputCount : ℕ) : Bool :=
  output.precision == patchblobTensorPrecisionFp16V2 && inputs.length == 5 &&
    ((output.elementCount == 4 && output.spanBytes == 8) ||
      (output.elementCount == 16 && output.spanBytes == 32)) &&
    ((inputs.take 2).all fun input =>
      input.elementCount == output.elementCount && input.spanBytes == output.spanBytes) &&
    scalarInputCount == 3

/-- The contract of a target with one precision. -/
def checkSamePrecisionV2 (targetFlags : ℕ) (inputs : List TensorContractV2)
    (output : TensorContractV2) : Result Unit := do
  refuseIf (targetFlags ≠ 0)
    (unsupported "version 2 same-precision tensor contract is unsupported")
  let scalarInputCount ← countScalarInputs inputs output
  let inputCount := inputs.length
  refuseIf (inputCount = 2 ∧ 1 < scalarInputCount)
    (unsupported "version 2 binary contracts allow at most one observed scalar input")
  refuseIf (scalarInputCount ≠ 0 ∧ ¬(inputCount = 2 ∧ scalarInputCount = 1) ∧
      ¬isMultiScalarFp16 inputs output scalarInputCount ∧
      ¬isHybridScalarFp16 inputs output scalarInputCount)
    (unsupported ("version 2 scalar inputs do not match an observed binary or FP16 " ++
      "five-input contract"))
  refuseIf ((output.precision = patchblobTensorPrecisionI32V2 ∨
        output.precision = patchblobTensorPrecisionI16V2 ∨
        output.precision = patchblobTensorPrecisionI8V2) ∧
      (2 < inputCount ∨ scalarInputCount ≠ 0))
    (unsupported ("signed integer custom kernels are limited to observed unary or " ++
      "equal-span binary contracts"))
  refuseIf (output.precision = patchblobTensorPrecisionU8V2)
    (unsupported "U8 custom kernels are limited to the observed U8-to-FP32 conversion")
  refuseIf (output.precision = patchblobTensorPrecisionU16V2 ∧ inputCount ≠ 2)
    (unsupported
      "U16 custom kernels are limited to observed equal-span or one-scalar binary contracts")
  refuseIf (output.precision = patchblobTensorPrecisionU32V2 ∧ inputCount ≠ 2)
    (unsupported
      "U32 custom kernels are limited to observed equal-span or one-scalar binary contracts")

/-- `target->tensors[index]`. -/
def tensorAt (tensors : List TensorContractV2) (index : ℕ) : Result TensorContractV2 :=
  match tensors[index]? with
  | some tensor => .ok tensor
  | none => .error .outOfBounds

/-- The contract of a version 2 target on its own : the inputs, then the output. -/
def checkContractV2 (targetFlags : ℕ) (inputs : List TensorContractV2)
    (output : TensorContractV2) : Result Unit := do
  let tensors := inputs ++ [output]
  checkRange 0 tensors.length fun index => do
    let tensor ← tensorAt tensors index
    checkTensorV2 inputs.length index tensor
  match inputs with
  | [] => .ok ()
  | first :: _ =>
    if tensors.any fun tensor => tensor.precision != first.precision then
      checkConversionV2 targetFlags first output inputs.length
    else checkSamePrecisionV2 targetFlags inputs output

/-- The tensors of the selected invocation match the contracts of the target. -/
def matchTensorsV2 (layout : GraphLayout) (base : ℕ) (tensors : List TensorContractV2) :
    Result (List MemrefContract) :=
  mapRange tensors.length fun index => do
    let expected ← tensorAt tensors index
    let slot ← addSize base (index * 0x28)
    let actual ← validateMemref layout slot
    refuseIf (actual.elementCount ≠ expected.elementCount ∨
        actual.spanBytes ≠ expected.spanBytes ∨
        actual.dtypeKind ≠ dtypeFromPublicPrecisionV2 expected.precision)
      (unsupported "tensor does not match the version 2 element contract")
    .ok actual

/-- `validate_target_v2`. -/
def validateTargetV2 (layout : GraphLayout) (parameterBases : List ℕ)
    (target : PatchblobTargetV2) : Result PatchDetail := do
  let invocations ← sectionAt layout.sections layout.invocationsIndex
  let params ← sectionAt layout.sections layout.paramsIndex
  let ranges ← sectionAt layout.sections layout.rangesIndex
  let outside := unsupported "version 2 target is outside the supported ACT contract"
  refuseIf (target.abiVersion ≠ patchblobTargetV2AbiVersion ∨ target.tensorCount < 2 ∨
    patchblobTargetV2MaxTensors < target.tensorCount ∨
    parameterBases.length ≤ target.invocationIndex ∨
    ranges.size / 0x18 ≤ target.rangeIndex) outside
  let inputs := target.tensors.dropLast
  match target.tensors.getLast? with
  | none => .error outside
  | some output => do
    checkContractV2 target.targetFlags inputs output
    let rangeIndex ← layout.blob.readU32 (invocations.offset + target.invocationIndex * 0x40)
    refuseIf (rangeIndex ≠ target.rangeIndex)
      (unsupported "selected invocation does not reference the selected range")
    let base ← parameterBaseAt parameterBases target.invocationIndex
    let limit := invocationParameterLimit parameterBases base params.size
    let blockSize ← subSize limit base
    refuseIf (blockSize < target.tensorCount * 0x28)
      (unsupported "selected invocation parameter block is too small")
    let specialCount ← countDataPointerRelocations layout base limit
    refuseIf (specialCount ≠ target.tensorCount)
      (unsupported "selected invocation parameter block has an unexpected data-pointer layout")
    let actual ← matchTensorsV2 layout base target.tensors
    match actual.getLast? with
    | none => .error outside
    | some actualOutput => do
      checkDisjointOutput actual.dropLast actualOutput
      let rangeOffset ← checkRangeForm layout ranges target.rangeIndex
      let oldExtent ← layout.blob.readU32 (rangeOffset + 0x0c)
      .ok { invocationIndex := target.invocationIndex, rangeIndex := target.rangeIndex,
            inputCount := inputs.length, parameterBase := base,
            elementCount := output.elementCount, spanBytes := output.spanBytes,
            targetFlagsV2 := target.targetFlags, tensorsV2 := target.tensors,
            extentFileOffset := rangeOffset + 0x0c, oldExtent }

/-! ## The code pointer of a range -/

/-- The entry writes the code pointer of a range from `KernelText`. -/
def isRangeRelocation (layout : GraphLayout) (rangeIndex : ℕ) (candidate : GraphRelocation) :
    Bool :=
  candidate.targetOffset == rangeIndex * 0x18 + 8 && candidate.type == rVpu32 &&
    !candidate.specialSource && candidate.sourceSectionIndex == some layout.kernelTextIndex

/-- `find_range_relocation`. -/
def findRangeRelocation (layout : GraphLayout) (rangeIndex : ℕ) : Result GraphRelocation := do
  let sec ← sectionAt layout.sections layout.rangeRelocationsIndex
  refuseIf (sec.info ≠ layout.rangesIndex ∨ layout.sectionCount ≤ sec.link)
    (unsupported "range relocation section has an unsupported link or target")
  let found ← collectEntries layout layout.rangeRelocationsIndex (sec.size / 0x18)
    (isRangeRelocation layout rangeIndex) []
  match found with
  | [relocation] => .ok relocation
  | _ => .error (unsupported "selected range code relocation is missing or ambiguous")

end Npunlock
