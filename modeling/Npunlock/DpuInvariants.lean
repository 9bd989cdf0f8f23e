import Npunlock.Observations
import Npunlock.Relocation

/-!
# DPU invariants

`inspect_dpu_invariants` reads the DPU invariants of a graph with their tensor extents, and
then the CMX addresses that the relocations of their section write. A graph without both
sections has no invariants.
-/

namespace Npunlock

/-! ## Tensor extents -/

/-- `dpu_input_element_size`. -/
def dpuInputElementSize (dtype : ℕ) : ℕ :=
  if dtype = 0 ∨ dtype = 5 then 2
  else if dtype = 1 ∨ dtype = 2 ∨ dtype = 8 then 1
  else 0

/-- `dpu_output_element_size`. -/
def dpuOutputElementSize (dtype : ℕ) : ℕ :=
  if dtype = 0 then 2
  else if dtype = 1 ∨ dtype = 2 ∨ dtype = 3 then 1
  else if dtype = 4 then 4
  else 0

/-- `dpu_dense_tensor_span` : the element count and the span in bytes. -/
def dpuDenseTensorSpan (dimensions : List ℕ) (elementSize : ℕ) : Option (ℕ × ℕ) :=
  if elementSize = 0 then none
  else
    (dimensions.foldlM (fun count dimension =>
      if dimension = 0 ∨ uint64Max / dimension < count then none else some (count * dimension))
      1).bind fun count =>
        if uint64Max / elementSize < count then none else some (count, count * elementSize)

/-! ## Records -/

/-- Invariant `index`, without addresses. -/
def readDpuInvariant (layout : GraphLayout) (invariants : GraphSection) (sectionIndex : ℕ)
    (index : ℕ) : Result DpuInvariantObservation := do
  let record := invariants.offset + index * 0x130
  let tensorSize0 ← layout.blob.readU32 (record + 0x40)
  let tensorSize1 ← layout.blob.readU32 (record + 0x44)
  let tensorMode ← layout.blob.readU32 (record + 0x4c)
  let kernelPadCfg ← layout.blob.readU32 (record + 0x30)
  let outputCfg ← layout.blob.readU32 (record + 0x78)
  let outputDim0 ← layout.blob.readU32 (record + 0x88)
  let outputDim1 ← layout.blob.readU32 (record + 0x8c)
  let waitMask ← layout.blob.readU64 (record + 0x108)
  let postMask ← layout.blob.readU64 (record + 0x110)
  let barrierGroup ← layout.blob.readU8 (record + 0x118)
  let barrierMask ← layout.blob.readU8 (record + 0x119)
  let startAfter ← layout.blob.readU32 (record + 0x120)
  let cleanAfter ← layout.blob.readU32 (record + 0x124)
  let variantCount ← layout.blob.readU16 (record + 0x128)
  let cluster ← layout.blob.readU8 (record + 0x12a)
  let inputDimensions :=
    [tensorSize0 &&& 0x3fff, tensorSize0 >>> 14 &&& 0x3fff, tensorSize1 &&& 0x3fff]
  let inputDtype := tensorMode >>> 4 &&& 0xf
  let inputDense := kernelPadCfg >>> 15 &&& 1
  let outputDimensions := [(outputDim1 &&& 0x1fff) + 1, (outputDim0 &&& 0x1fff) + 1,
    (outputDim0 >>> 13 &&& 0x1fff) + 1]
  let outputDtype := outputCfg &&& 0xf
  let outputSparse := (outputCfg >>> 13 &&& 1) ||| (outputCfg >>> 15 &&& 1)
  refuseIf (variantCount = 0 ∨ layout.tileCount ≤ cluster)
    (unsupported "DPU invariant scheduling fields are unsupported")
  let notDense := unsupported "DPU invariant tensor extent is not static dense and byte-addressable"
  refuseIf (inputDense ≠ 1 ∨ outputSparse ≠ 0 ∨ outputCfg >>> 17 &&& 1 ≠ 1) notDense
  match dpuDenseTensorSpan inputDimensions (dpuInputElementSize inputDtype),
    dpuDenseTensorSpan outputDimensions (dpuOutputElementSize outputDtype) with
  | some (inputElementCount, inputSpanBytes), some (outputElementCount, outputSpanBytes) =>
    .ok { sectionIndex, invariantIndex := index, clusterRaw := cluster, waitMaskRaw := waitMask,
          postMaskRaw := postMask, barrierGroupRaw := barrierGroup,
          barrierMaskRaw := barrierMask, startAfterRaw := startAfter,
          cleanAfterRaw := cleanAfter, variantCountRaw := variantCount,
          inputDimensionsXyz := inputDimensions, inputDtypeRaw := inputDtype,
          inputDenseRaw := inputDense, inputElementCount, inputSpanBytes,
          outputDimensionsXyz := outputDimensions, outputDtypeRaw := outputDtype,
          outputSparseRaw := outputSparse, outputElementCount, outputSpanBytes, inputs := [],
          inputAmbiguousFieldsRaw := 0, outputs := [] }
  | _, _ => .error notDense

/-! ## Addresses -/

/-- `NPUNLOCK_DPU_MAX_INPUT_ADDRESSES`. -/
def dpuMaxInputAddresses : ℕ := 4

/-- An invariant with the address fields that a relocation has written so far. -/
structure DpuAddresses where
  observation : DpuInvariantObservation
  inputFieldsSeen : ℕ := 0
  outputFieldsSeen : ℕ := 0

/-- The index of the field at `fieldOffset` among the `count` fields from `base`. -/
def dpuFieldIndex (base count fieldOffset : ℕ) : Option ℕ :=
  if base ≤ fieldOffset ∧ fieldOffset < base + count * 4 ∧ (fieldOffset - base) % 4 = 0 then
    some ((fieldOffset - base) / 4)
  else none

def addDpuInput (addresses : DpuAddresses) (address : DpuCmxAddressObservation) :
    Result DpuAddresses := do
  let observation := addresses.observation
  let fieldBit := 1 <<< address.fieldIndex
  refuseIf (observation.inputs.length = dpuMaxInputRelocations)
    (unsupported "DPU input CMX relocation count exceeds the observed bound")
  let ambiguous := if addresses.inputFieldsSeen &&& fieldBit ≠ 0 then fieldBit else 0
  .ok { addresses with
    observation := { observation with
      inputs := observation.inputs ++ [address]
      inputAmbiguousFieldsRaw := observation.inputAmbiguousFieldsRaw ||| ambiguous }
    inputFieldsSeen := addresses.inputFieldsSeen ||| fieldBit }

def addDpuOutput (addresses : DpuAddresses) (address : DpuCmxAddressObservation) :
    Result DpuAddresses := do
  let observation := addresses.observation
  let fieldBit := 1 <<< address.fieldIndex
  refuseIf (addresses.outputFieldsSeen &&& fieldBit ≠ 0 ∨
      observation.outputs.length = dpuMaxOutputAddresses)
    (unsupported "DPU output CMX relocation is duplicated")
  .ok { addresses with
    observation := { observation with outputs := observation.outputs ++ [address] }
    outputFieldsSeen := addresses.outputFieldsSeen ||| fieldBit }

/-- The bytes that a relocation of the invariants writes. -/
def dpuWriteSize (type : ℕ) : Option ℕ :=
  if type = rVpu64Lshift then some 8
  else if type = rVpu32 ∨ type = rVpu32MulticastBase then some 4
  else none

/-- Entry `entryIndex` of the relocations of the invariants. -/
def readDpuRelocation (layout : GraphLayout) (invariants relocations : GraphSection)
    (entryIndex : ℕ) (table : List DpuAddresses) : Result (List DpuAddresses) := do
  let entry := relocations.offset + entryIndex * 0x18
  let targetOffset ← layout.blob.readU64 entry
  let info ← layout.blob.readU64 (entry + 8)
  let addend ← layout.blob.readI64 (entry + 16)
  let relocationType := info % 2 ^ 32
  let symbol := info / 2 ^ 32
  match dpuWriteSize relocationType with
  | none => .error (unsupported "DPU invariant relocation type is unsupported")
  | some writeSize => do
    refuseIf (vpuNnrdSymLast < symbol ∨ targetOffset % writeSize ≠ 0 ∨
        ¬rangeInBounds targetOffset writeSize invariants.size)
      (malformed "DPU invariant relocation is outside its target")
    let invariantIndex := targetOffset / 0x130
    let fieldOffset := targetOffset % 0x130
    let input := dpuFieldIndex 0x5c dpuMaxInputAddresses fieldOffset
    let output := dpuFieldIndex 0xa0 dpuMaxOutputAddresses fieldOffset
    match input.or output with
    | none => .ok table
    | some fieldIndex => do
      refuseIf (symbol ≠ vpuNnrdSymNncxmSliceBaseAddr ∨ addend < 0 ∨
          (input.isSome = true ∧ relocationType ≠ rVpu32) ∨
          (output.isSome = true ∧ relocationType ≠ rVpu32MulticastBase))
        (unsupported "DPU CMX address relocation is unsupported")
      let address : DpuCmxAddressObservation :=
        { fieldIndex, relocationType, dataSymbolRaw := symbol, dataAddendRaw := addend }
      match table[invariantIndex]? with
      | none => .error .outOfBounds
      | some addresses => do
        let addresses ← if input.isSome then addDpuInput addresses address
          else addDpuOutput addresses address
        .ok (table.set invariantIndex addresses)

/-! ## All invariants -/

/-- The invariants of a graph with the two sections. -/
def readDpuInvariants (layout : GraphLayout) (invariants : GraphSection) (sectionIndex : ℕ)
    (relocations : GraphSection) : Result (List DpuInvariantObservation) := do
  refuseIf (invariants.type ≠ shtProgbits ∨ invariants.flags ≠ 0x20000004 ∨
      invariants.address ≠ 0 ∨ invariants.link ≠ 0 ∨ invariants.info ≠ 0 ∨
      invariants.alignment ≠ 64 ∨ invariants.entrySize ≠ 1 ∨ invariants.size = 0 ∨
      invariants.size % 0x130 ≠ 0 ∨ uint32Max < invariants.size / 0x130)
    (unsupported "DPU invariant section has an unsupported NPU3720 form")
  refuseIf (relocations.type ≠ shtRela ∨ relocations.flags ≠ 0x40 ∨ relocations.address ≠ 0 ∨
      relocations.link ≠ vpuRtSymtab ∨ relocations.info ≠ sectionIndex ∨
      relocations.alignment ≠ 8 ∨ relocations.entrySize ≠ 0x18 ∨ relocations.size = 0 ∨
      relocations.size % 0x18 ≠ 0)
    (unsupported "DPU invariant relocations have an unsupported NPU3720 form")
  let records ← mapRange (invariants.size / 0x130) (readDpuInvariant layout invariants sectionIndex)
  let table ← forRange 0 (relocations.size / 0x18)
    (records.map fun observation => ({ observation } : DpuAddresses))
    (readDpuRelocation layout invariants relocations)
  let observations := table.map DpuAddresses.observation
  refuseIf (∃ observation ∈ observations, observation.inputs = [] ∨ observation.outputs = [])
    (unsupported "DPU invariant has no inspectable input or output CMX route")
  .ok observations

/-- `inspect_dpu_invariants`. -/
def inspectDpuInvariants (layout : GraphLayout) : Result (List DpuInvariantObservation) :=
  match sectionsNamed layout ".text.DPUInvariants",
    sectionsNamed layout ".rlt.text.DPUInvariants" with
  | [], [] => .ok []
  | [(invariants, sectionIndex)], [(relocations, _)] =>
    readDpuInvariants layout invariants sectionIndex relocations
  | _, _ => .error (unsupported "DPU invariant sections are missing or ambiguous")

end Npunlock
