import Npunlock.DiscoverySpec

/-!
# When a target is valid

The two validators check one thing of the graph : the selected invocation has the tensors
that the target describes, and no others (`SelectedInvocation`). A version 1 target
describes them by one contract, which `PatchblobTarget.tensorsV2` spells out as the
tensor list of a version 2 target. `validateTarget_eq_ok_iff` and
`validateTargetV2_eq_ok_iff` say what each validator accepts in these terms.
-/

namespace Npunlock

open View

variable {layout : GraphLayout} {parameterBases : List ℕ}

/-! ## Lists with a last element -/

/-- A list related to one with a last element has a last element. -/
theorem forall₂_concat_left_iff {α β : Type} {R : α → β → Prop} {a : α} :
    ∀ {l : List α} {l' : List β}, List.Forall₂ R (l ++ [a]) l' ↔
      ∃ m b, List.Forall₂ R l m ∧ R a b ∧ l' = m ++ [b]
  | [], l' => by
    rw [List.nil_append, List.forall₂_cons_left_iff]
    simp
  | c :: l, l' => by
    rw [List.cons_append, List.forall₂_cons_left_iff]
    constructor
    · rintro ⟨d, m', hd, hm', rfl⟩
      obtain ⟨m, b, hm, hb, rfl⟩ := forall₂_concat_left_iff.1 hm'
      exact ⟨d :: m, b, hm.cons hd, hb, rfl⟩
    · rintro ⟨_, b, hcons, hb, rfl⟩
      obtain ⟨d, m, hd, hm, rfl⟩ := List.forall₂_cons_left_iff.1 hcons
      exact ⟨d, m ++ [b], hd, forall₂_concat_left_iff.2 ⟨m, b, hm, hb, rfl⟩, rfl⟩

/-! ## The selected invocation -/

/-- The tensor is the one that the contract describes. -/
def TensorContractV2.Matches (contract : TensorContractV2) (tensor : MemrefContract) : Prop :=
  tensor.elementCount = contract.elementCount ∧ tensor.spanBytes = contract.spanBytes ∧
    tensor.dtypeKind = dtypeFromPublicPrecisionV2 contract.precision

/-- The end of the parameter block that begins at `base`. -/
abbrev blockLimit (layout : GraphLayout) (parameterBases : List ℕ) (base : ℕ) : ℕ :=
  invocationParameterLimit parameterBases base layout.params.size

/-- The parameter block of an invocation holds the tensors, and no other data pointers. -/
structure TensorBlock (layout : GraphLayout) (parameterBases : List ℕ) (invocationIndex base : ℕ)
    (tensors : List MemrefContract) : Prop where
  base_eq : parameterBaseAt parameterBases invocationIndex = .ok base
  block_le : base + tensors.length * 0x28 ≤ blockLimit layout parameterBases base
  count_eq : countDataPointerRelocations layout base (blockLimit layout parameterBases base) =
    .ok tensors.length
  memref_eq : ∀ i (hi : i < tensors.length),
    validateMemref layout (base + i * 0x28) = .ok tensors[i]

/-- What both validators check of the graph. -/
structure SelectedInvocation (layout : GraphLayout) (parameterBases : List ℕ)
    (invocationIndex rangeIndex base : ℕ) (inputs : List MemrefContract)
    (output : MemrefContract) : Prop where
  invocation_lt : invocationIndex < parameterBases.length
  selects : littleEndian layout.blob.data
    (layout.invocations.offset + invocationIndex * 0x40) 4 = rangeIndex
  block : TensorBlock layout parameterBases invocationIndex base (inputs ++ [output])
  disjoint : checkDisjointOutput inputs output = .ok ()
  range : CodeRange layout rangeIndex (layout.ranges.offset + rangeIndex * 0x18)

/-- The file offset of the extent field of a range. -/
def extentFileOffset (layout : GraphLayout) (rangeIndex : ℕ) : ℕ :=
  layout.ranges.offset + rangeIndex * 0x18 + 0x0c

theorem base_lt_limit (hbases : BasesOf layout parameterBases) {invocationIndex base : ℕ}
    (hbase : parameterBaseAt parameterBases invocationIndex = .ok base) :
    base < blockLimit layout parameterBases base ∧
      blockLimit layout parameterBases base ≤ layout.params.size := by
  refine invocationParameterLimit_spec parameterBases (hbases.lt base ?_)
  unfold parameterBaseAt at hbase
  split at hbase
  · cases hbase
    exact List.mem_of_getElem? ‹_›
  · cases hbase

/-- The slots of a block are addresses. -/
theorem addSize_slot (h : layout.Valid) (hbases : BasesOf layout parameterBases)
    {invocationIndex base count : ℕ}
    (hbase : parameterBaseAt parameterBases invocationIndex = .ok base)
    (hblock : base + count * 0x28 ≤ blockLimit layout parameterBases base) {i : ℕ}
    (hi : i < count) : addSize base (i * 0x28) = .ok (base + i * 0x28) :=
  addSize_of_le (slot_le_sizeMax h (base_lt_limit hbases hbase).2 hblock hi)

/-- A tensor record that is accepted has its data pointer. -/
theorem exists_dataPointer (h : layout.Valid) {recordOffset : ℕ} {tensor : MemrefContract}
    (htensor : validateMemref layout recordOffset = .ok tensor) :
    ∃ data, asUnsupported (findPointerRelocation layout layout.paramsIndex recordOffset none true) =
      .ok data := by
  unfold validateMemref at htensor
  rw [h.sectionAt_params, ok_bind] at htensor
  replace htensor := (refuseIf_bind_eq_ok_iff.1 htensor).2
  obtain ⟨_, -, htensor⟩ := bind_eq_ok_iff.1 htensor
  obtain ⟨_, -, htensor⟩ := bind_eq_ok_iff.1 htensor
  obtain ⟨_, -, htensor⟩ := bind_eq_ok_iff.1 htensor
  replace htensor := (refuseIf_bind_eq_ok_iff.1 htensor).2
  obtain ⟨_, -, htensor⟩ := bind_eq_ok_iff.1 htensor
  replace htensor := (refuseIf_bind_eq_ok_iff.1 htensor).2
  obtain ⟨_, -, htensor⟩ := bind_eq_ok_iff.1 htensor
  obtain ⟨_, -, htensor⟩ := bind_eq_ok_iff.1 htensor
  obtain ⟨data, hdata, -⟩ := bind_eq_ok_iff.1 htensor
  exact ⟨data, hdata⟩

theorem checkRangeForm_eq_ok_iff (h : layout.Valid) {rangeIndex rangeOffset : ℕ}
    (hrange : rangeIndex < layout.ranges.size / 0x18) :
    checkRangeForm layout layout.ranges rangeIndex = .ok rangeOffset ↔
      CodeRange layout rangeIndex rangeOffset := by
  have hin := h.ranges_in_file
  refine ⟨fun hform => (checkRangeForm_spec h hrange).value _ hform, fun hform => ?_⟩
  obtain ⟨-, rfl, haddress, hpointer⟩ := hform
  unfold checkRangeForm
  simp (disch := omega) only [readU32, readLE_eq, ok_bind]
  rw [refuseIf_of_not _ (by rw [haddress, hpointer]; simp)]
  rfl

/-! ## Version 1 -/

namespace PatchblobTarget

variable (target : PatchblobTarget)

/-- The element type of the tensors. -/
def dtype : ℕ :=
  if target.requiredContractFlags &&& (patchblobContractFp16 ||| patchblobContractFp32) =
      patchblobContractFp16 then npunlockDtypeF16
  else npunlockDtypeF32

/-- The second input is a scalar. -/
def HasScalar : Prop :=
  target.requiredContractFlags &&& patchblobContractInput1Scalar ≠ 0

instance : Decidable target.HasScalar :=
  inferInstanceAs (Decidable (_ ≠ _))

/-- The contract of an input, as a version 2 record. -/
def inputV2 (index : ℕ) : TensorContractV2 where
  structSize := tensorContractV2Size
  role := patchblobTensorRoleInputV2
  tensorIndex := index
  precision := publicPrecisionV2 target.dtype
  elementCount := if index = 1 ∧ target.HasScalar then 1 else target.expectedElementCount
  spanBytes :=
    if index = 1 ∧ target.HasScalar then dtypeSizeBytes target.dtype else target.expectedSpanBytes
  observedFlags := inputFlagsV2

/-- The contract of the output, as a version 2 record. -/
def outputV2 : TensorContractV2 where
  structSize := tensorContractV2Size
  role := patchblobTensorRoleOutputV2
  tensorIndex := 0
  precision := publicPrecisionV2 target.dtype
  elementCount := target.expectedElementCount
  spanBytes := target.expectedSpanBytes
  observedFlags := outputFlagsV2

/-- The contracts of the inputs, spelled out. -/
def inputsV2 : List TensorContractV2 :=
  (List.range target.expectedInputCount).map target.inputV2

/-- The version 2 target with the same contract. -/
def toV2 : PatchblobTargetV2 where
  abiVersion := patchblobTargetV2AbiVersion
  invocationIndex := target.invocationIndex
  rangeIndex := target.rangeIndex
  targetFlags := 0
  tensors := target.inputsV2 ++ [target.outputV2]

@[simp] theorem length_inputsV2 : target.inputsV2.length = target.expectedInputCount := by
  simp [inputsV2]

@[simp] theorem getElem_inputsV2 {i : ℕ} (hi : i < target.inputsV2.length) :
    target.inputsV2[i] = target.inputV2 i := by
  simp [inputsV2]

theorem dtype_eq : target.dtype = npunlockDtypeF16 ∨ target.dtype = npunlockDtypeF32 := by
  unfold dtype
  split_ifs
  · exact Or.inl rfl
  · exact Or.inr rfl

@[simp] theorem dtypeFromPublicPrecisionV2_dtype :
    dtypeFromPublicPrecisionV2 (publicPrecisionV2 target.dtype) = target.dtype := by
  rcases target.dtype_eq with h | h <;> rw [h] <;> rfl

end PatchblobTarget

/-- The inputs of an invocation, read and compared with the contract one by one. -/
theorem mapRange_inputs_eq_ok_iff (h : layout.Valid) (hbases : BasesOf layout parameterBases)
    {target : PatchblobTarget} {invocationIndex base : ℕ}
    (hbase : parameterBaseAt parameterBases invocationIndex = .ok base)
    (hblock : base + (target.expectedInputCount + 1) * 0x28 ≤
      blockLimit layout parameterBases base) {inputs : List MemrefContract} :
    (mapRange target.expectedInputCount fun index => do
      let slot ← addSize base (index * 0x28)
      let input ← validateMemref layout slot
      let (elementCount, spanBytes) := expectedInput target
        (target.requiredContractFlags &&& patchblobContractInput1Scalar) target.dtype index
      refuseIf (input.elementCount ≠ elementCount ∨ input.spanBytes ≠ spanBytes ∨
          input.dtypeKind ≠ target.dtype)
        (unsupported "input tensor does not match the expected element contract")
      .ok input) = .ok inputs ↔
      inputs.length = target.expectedInputCount ∧
        ∀ i (hi : i < inputs.length), validateMemref layout (base + i * 0x28) = .ok inputs[i] ∧
          (target.inputV2 i).Matches inputs[i] := by
  have hexpected : ∀ i, expectedInput target
      (target.requiredContractFlags &&& patchblobContractInput1Scalar) target.dtype i =
        ((target.inputV2 i).elementCount, (target.inputV2 i).spanBytes) := by
    intro i
    unfold expectedInput PatchblobTarget.inputV2 PatchblobTarget.HasScalar
    split_ifs <;> rfl
  rw [mapRange_eq_ok_iff]
  refine and_congr_right fun hlen => forall_congr' fun i => forall_congr' fun hi => ?_
  rw [addSize_slot h hbases hbase hblock (by omega), ok_bind, bind_eq_ok_iff]
  simp only [hexpected, refuseIf_bind_eq_ok_iff, not_or, not_not, Except.ok.injEq]
  constructor
  · rintro ⟨input, hread, hmatch, rfl⟩
    exact ⟨hread, hmatch.1, hmatch.2.1, by
      rw [hmatch.2.2, PatchblobTarget.inputV2, target.dtypeFromPublicPrecisionV2_dtype]⟩
  · rintro ⟨hread, helements, hspan, hdtype⟩
    rw [PatchblobTarget.inputV2, target.dtypeFromPublicPrecisionV2_dtype] at hdtype
    exact ⟨_, hread, ⟨helements, hspan, hdtype⟩, rfl⟩

section Common

variable (h : layout.Valid) {invocationIndex rangeIndex : ℕ} {detail : PatchDetail}

include h

/-- How the checks of both versions begin : the invocation selects the range, and its block
has room for the tensors. -/
theorem selected_eq_ok_iff (hbases : BasesOf layout parameterBases) {count : ℕ}
    (hinvocation : invocationIndex < parameterBases.length) {next : ℕ → Result PatchDetail} :
    (do
      let selected ← layout.blob.readU32 (layout.invocations.offset + invocationIndex * 0x40)
      refuseIf (selected ≠ rangeIndex)
        (unsupported "selected invocation does not reference the selected range")
      let base ← parameterBaseAt parameterBases invocationIndex
      let blockSize ← subSize (blockLimit layout parameterBases base) base
      refuseIf (blockSize < count * 0x28)
        (unsupported "selected invocation parameter block is too small")
      next base) = .ok detail ↔
      littleEndian layout.blob.data (layout.invocations.offset + invocationIndex * 0x40) 4 =
          rangeIndex ∧
        ∃ base, parameterBaseAt parameterBases invocationIndex = .ok base ∧
          base + count * 0x28 ≤ blockLimit layout parameterBases base ∧ next base = .ok detail := by
  have hin := h.invocations_in_file
  have hcount := hbases.length_eq
  rw [readU32, readLE_eq (by omega), ok_bind, refuseIf_bind_eq_ok_iff, not_not, bind_eq_ok_iff]
  refine and_congr_right fun _ => exists_congr fun base => and_congr_right fun hbase => ?_
  have hlimit := base_lt_limit hbases hbase
  rw [subSize_of_le hlimit.1.le, ok_bind, refuseIf_bind_eq_ok_iff]
  exact and_congr_left fun _ => by omega

/-- How they end : the tensors are disjoint, and the range refers to code. -/
theorem extent_eq_ok_iff (hrange : rangeIndex < layout.ranges.size / 0x18)
    {inputs : List MemrefContract} {output : MemrefContract} {next : ℕ → ℕ → PatchDetail} :
    (do
      checkDisjointOutput inputs output
      let rangeOffset ← checkRangeForm layout layout.ranges rangeIndex
      let oldExtent ← layout.blob.readU32 (rangeOffset + 0x0c)
      .ok (next rangeOffset oldExtent)) = .ok detail ↔
      checkDisjointOutput inputs output = .ok () ∧
        CodeRange layout rangeIndex (layout.ranges.offset + rangeIndex * 0x18) ∧
          next (layout.ranges.offset + rangeIndex * 0x18)
            (littleEndian layout.blob.data (extentFileOffset layout rangeIndex) 4) = detail := by
  have hin := h.ranges_in_file
  have hread : layout.blob.readU32 (layout.ranges.offset + rangeIndex * 0x18 + 0x0c) =
      .ok (littleEndian layout.blob.data (extentFileOffset layout rangeIndex) 4) :=
    readLE_eq (by omega)
  simp only [bind_eq_ok_iff, checkRangeForm_eq_ok_iff h hrange]
  constructor
  · rintro ⟨_, hdisjoint, offset, hcode, extent, hextent, hdetail⟩
    obtain rfl := hcode.offset_eq
    obtain rfl := Except.ok.inj (hread.symm.trans hextent)
    exact ⟨hdisjoint, hcode, Except.ok.inj hdetail⟩
  · rintro ⟨hdisjoint, hcode, rfl⟩
    exact ⟨(), hdisjoint, _, hcode, _, hread, rfl⟩

end Common

/-- What version 1 accepts. -/
theorem validateTarget_eq_ok_iff (h : layout.Valid) (hbases : BasesOf layout parameterBases)
    {target : PatchblobTarget} {detail : PatchDetail} :
    validateTarget layout parameterBases target = .ok detail ↔
      checkContractFlags target = .ok () ∧ target.expectedInputCount ≤ 8 ∧
        ∃ base inputs output, SelectedInvocation layout parameterBases target.invocationIndex
            target.rangeIndex base inputs output ∧
          inputs.length = target.expectedInputCount ∧
          (∀ i (hi : i < inputs.length), (target.inputV2 i).Matches inputs[i]) ∧
          target.outputV2.Matches output ∧
          { invocationIndex := target.invocationIndex, rangeIndex := target.rangeIndex,
            inputCount := target.expectedInputCount, parameterBase := base,
            elementCount := target.expectedElementCount, spanBytes := target.expectedSpanBytes,
            contractFlags := target.requiredContractFlags,
            extentFileOffset := extentFileOffset layout target.rangeIndex,
            oldExtent := littleEndian layout.blob.data
              (extentFileOffset layout target.rangeIndex) 4 } = detail := by
  have houtputMatches : ∀ output : MemrefContract,
      target.outputV2.Matches output ↔ output.elementCount = target.expectedElementCount ∧
        output.spanBytes = target.expectedSpanBytes ∧ output.dtypeKind = target.dtype := by
    intro output
    rw [TensorContractV2.Matches, PatchblobTarget.outputV2,
      target.dtypeFromPublicPrecisionV2_dtype]
  unfold validateTarget
  rw [h.sectionAt_invocations, h.sectionAt_params, h.sectionAt_ranges, ok_bind, ok_bind, ok_bind,
    refuseIf_bind_eq_ok_iff]
  have hdtype : (if target.requiredContractFlags &&& (patchblobContractFp16 |||
      patchblobContractFp32) = patchblobContractFp16 then npunlockDtypeF16
      else npunlockDtypeF32) = target.dtype := rfl
  simp only [not_or, Nat.not_le, Nat.not_lt, hdtype]
  constructor
  · rintro ⟨⟨hinvocation, hrange, height⟩, hvalid⟩
    obtain ⟨⟨⟩, hflags, hvalid⟩ := bind_eq_ok_iff.1 hvalid
    obtain ⟨hselects, base, hbase, hblock, hvalid⟩ :=
      (selected_eq_ok_iff h hbases hinvocation).1 hvalid
    obtain ⟨_, -, hvalid⟩ := bind_eq_ok_iff.1 hvalid
    obtain ⟨specialCount, hspecial, hvalid⟩ := bind_eq_ok_iff.1 hvalid
    obtain ⟨hequal, hvalid⟩ := refuseIf_bind_eq_ok_iff.1 hvalid
    obtain ⟨inputs, hinputs, hvalid⟩ := bind_eq_ok_iff.1 hvalid
    obtain ⟨hlen, hinputs⟩ := (mapRange_inputs_eq_ok_iff h hbases hbase hblock).1 hinputs
    rw [addSize_slot h hbases hbase hblock (by omega), ok_bind] at hvalid
    obtain ⟨output, houtput, hvalid⟩ := bind_eq_ok_iff.1 hvalid
    obtain ⟨hmatches, hvalid⟩ := refuseIf_bind_eq_ok_iff.1 hvalid
    obtain ⟨hdisjoint, hcode, hdetail⟩ := (extent_eq_ok_iff h hrange).1 hvalid
    have hblockLen : (inputs ++ [output]).length = target.expectedInputCount + 1 := by
      simp [hlen]
    refine ⟨hflags, height, base, inputs, output, ⟨hinvocation, hselects,
      ⟨hbase, by rwa [hblockLen], ?_, fun i hi => ?_⟩, hdisjoint, hcode⟩, hlen,
      fun i hi => (hinputs i hi).2, ?_, hdetail⟩
    · rw [hspecial, hblockLen, not_not.1 hequal]
    · rw [hblockLen] at hi
      by_cases hlast : i < inputs.length
      · rw [List.getElem_append_left hlast]
        exact (hinputs i hlast).1
      · obtain rfl : i = target.expectedInputCount := by omega
        simpa [← hlen] using houtput
    · simp only [not_or, not_not] at hmatches
      exact (houtputMatches output).2 hmatches
  · rintro ⟨hflags, height, base, inputs, output, ⟨hinvocation, hselects, hblock, hdisjoint, hcode⟩,
      hlen, hinputs, hmatches, rfl⟩
    have hblockLen : (inputs ++ [output]).length = target.expectedInputCount + 1 := by
      simp [hlen]
    have hroom := hblock.block_le
    have hspecial := hblock.count_eq
    rw [hblockLen] at hroom hspecial
    have hslot : ∀ i < target.expectedInputCount + 1,
        addSize base (i * 0x28) = .ok (base + i * 0x28) :=
      fun i hi => addSize_slot h hbases hblock.base_eq hroom hi
    have hmemref : ∀ i (hi : i < target.expectedInputCount + 1),
        validateMemref layout (base + i * 0x28) = .ok ((inputs ++ [output]).get ⟨i, by omega⟩) :=
      fun i hi => hblock.memref_eq i (by omega)
    have houtput : (inputs ++ [output]).get ⟨target.expectedInputCount, by omega⟩ = output := by
      simp [← hlen]
    refine ⟨⟨hinvocation, hcode.lt, height⟩, bind_eq_ok_iff.2 ⟨(), hflags, ?_⟩⟩
    refine (selected_eq_ok_iff h hbases hinvocation).2 ⟨hselects, base, hblock.base_eq, hroom,
      bind_eq_ok_iff.2 ⟨(), checkRange_eq_ok_iff.2 fun i _ hi => ?_, ?_⟩⟩
    · obtain ⟨data, hdata⟩ := exists_dataPointer h (hmemref i hi)
      rw [hslot i hi, ok_bind, hdata, ok_bind]
    refine bind_eq_ok_iff.2 ⟨_, hspecial, refuseIf_bind_eq_ok_iff.2 ⟨by simp, ?_⟩⟩
    refine bind_eq_ok_iff.2 ⟨inputs, (mapRange_inputs_eq_ok_iff h hbases hblock.base_eq hroom).2
      ⟨hlen, fun i hi => ⟨?_, hinputs i hi⟩⟩, ?_⟩
    · rw [hmemref i (by omega), List.get_eq_getElem, List.getElem_append_left hi]
    rw [hslot _ (by omega), ok_bind, hmemref _ (by omega), ok_bind, houtput]
    refine refuseIf_bind_eq_ok_iff.2
      ⟨?_, (extent_eq_ok_iff h hcode.lt).2 ⟨hdisjoint, hcode, rfl⟩⟩
    simpa using (houtputMatches output).1 hmatches

/-! ## Version 2 -/

theorem matchTensorsV2_eq_ok_iff (h : layout.Valid) (hbases : BasesOf layout parameterBases)
    {invocationIndex base : ℕ} {tensors : List TensorContractV2}
    (hbase : parameterBaseAt parameterBases invocationIndex = .ok base)
    (hblock : base + tensors.length * 0x28 ≤ blockLimit layout parameterBases base)
    {actual : List MemrefContract} :
    matchTensorsV2 layout base tensors = .ok actual ↔
      List.Forall₂ TensorContractV2.Matches tensors actual ∧
        ∀ i (hi : i < actual.length), validateMemref layout (base + i * 0x28) = .ok actual[i] := by
  unfold matchTensorsV2
  rw [mapRange_eq_ok_iff, List.forall₂_iff_get]
  have hstep : ∀ i (hi : i < actual.length) (hi' : i < tensors.length), (do
      let expected ← tensorAt tensors i
      let slot ← addSize base (i * 0x28)
      let tensor ← validateMemref layout slot
      refuseIf (tensor.elementCount ≠ expected.elementCount ∨
          tensor.spanBytes ≠ expected.spanBytes ∨
          tensor.dtypeKind ≠ dtypeFromPublicPrecisionV2 expected.precision)
        (unsupported "tensor does not match the version 2 element contract")
      .ok tensor) = .ok actual[i] ↔
      tensors[i].Matches actual[i] ∧ validateMemref layout (base + i * 0x28) = .ok actual[i] := by
    intro i hi hi'
    rw [tensorAt_eq hi', ok_bind, addSize_slot h hbases hbase hblock hi', ok_bind, bind_eq_ok_iff]
    simp only [refuseIf_bind_eq_ok_iff, not_or, not_not, Except.ok.injEq]
    constructor
    · rintro ⟨tensor, hread, hmatch, rfl⟩
      exact ⟨hmatch, hread⟩
    · rintro ⟨hmatch, hread⟩
      exact ⟨_, hread, hmatch, rfl⟩
  constructor
  · rintro ⟨hlen, hall⟩
    refine ⟨⟨hlen.symm, fun i hi hi' => ?_⟩, fun i hi => ?_⟩
    · exact ((hstep i hi' hi).1 (hall i hi')).1
    · exact ((hstep i hi (by omega)).1 (hall i hi)).2
  · rintro ⟨⟨hlen, hmatches⟩, hread⟩
    refine ⟨hlen.symm, fun i hi => (hstep i hi (by omega)).2 ⟨?_, hread i hi⟩⟩
    exact hmatches i (by omega) hi

/-- What version 2 accepts. -/
theorem validateTargetV2_eq_ok_iff (h : layout.Valid) (hbases : BasesOf layout parameterBases)
    {target : PatchblobTargetV2} {contracts : List TensorContractV2} {contract : TensorContractV2}
    (htensors : target.tensors = contracts ++ [contract]) {detail : PatchDetail} :
    validateTargetV2 layout parameterBases target = .ok detail ↔
      (target.abiVersion = patchblobTargetV2AbiVersion ∧ 1 ≤ contracts.length ∧
        contracts.length ≤ 8) ∧
      checkContractV2 target.targetFlags contracts contract = .ok () ∧
        ∃ base inputs output, SelectedInvocation layout parameterBases target.invocationIndex
            target.rangeIndex base inputs output ∧
          List.Forall₂ TensorContractV2.Matches contracts inputs ∧
          contract.Matches output ∧
          { invocationIndex := target.invocationIndex, rangeIndex := target.rangeIndex,
            inputCount := contracts.length, parameterBase := base,
            elementCount := contract.elementCount, spanBytes := contract.spanBytes,
            targetFlagsV2 := target.targetFlags, tensorsV2 := target.tensors,
            extentFileOffset := extentFileOffset layout target.rangeIndex,
            oldExtent := littleEndian layout.blob.data
              (extentFileOffset layout target.rangeIndex) 4 } = detail := by
  have hlen : target.tensorCount = contracts.length + 1 := by
    rw [PatchblobTargetV2.tensorCount, htensors, List.length_append, List.length_singleton]
  unfold validateTargetV2
  rw [h.sectionAt_invocations, h.sectionAt_params, h.sectionAt_ranges, ok_bind, ok_bind, ok_bind]
  dsimp only
  rw [refuseIf_bind_eq_ok_iff, hlen, htensors, List.getLast?_concat, List.dropLast_concat]
  dsimp only
  simp only [not_or, not_not, Nat.not_le, Nat.not_lt]
  constructor
  · rintro ⟨⟨habi, htwo, hnine, hinvocation, hrange⟩, hvalid⟩
    obtain ⟨⟨⟩, hcontract, hvalid⟩ := bind_eq_ok_iff.1 hvalid
    obtain ⟨hselects, base, hbase, hroom, hvalid⟩ :=
      (selected_eq_ok_iff h hbases hinvocation).1 hvalid
    have hblock : base + (contracts ++ [contract]).length * 0x28 ≤
        blockLimit layout parameterBases base := by
      rwa [List.length_append, List.length_singleton]
    obtain ⟨specialCount, hspecial, hvalid⟩ := bind_eq_ok_iff.1 hvalid
    obtain ⟨hequal, hvalid⟩ := refuseIf_bind_eq_ok_iff.1 hvalid
    obtain ⟨actual, hactual, hvalid⟩ := bind_eq_ok_iff.1 hvalid
    obtain ⟨hmatches, hread⟩ := (matchTensorsV2_eq_ok_iff h hbases hbase hblock).1 hactual
    -- the last of the tensors is the output
    obtain ⟨inputs, output, hinputs, houtput, rfl⟩ := forall₂_concat_left_iff.1 hmatches
    rw [List.getLast?_concat, List.dropLast_concat] at hvalid
    dsimp only at hvalid
    obtain ⟨hdisjoint, hcode, hdetail⟩ := (extent_eq_ok_iff h hrange).1 hvalid
    have hactualLen := hmatches.length_eq
    refine ⟨⟨habi, by omega, ?_⟩, hcontract, base, inputs, output, ⟨hinvocation,
      hselects, ⟨hbase, by rwa [← hactualLen], ?_, hread⟩, hdisjoint, hcode⟩, hinputs,
      houtput, hdetail⟩
    · unfold patchblobTargetV2MaxTensors at hnine
      omega
    · rw [hspecial, not_not.1 hequal, ← hactualLen, List.length_append, List.length_singleton]
  · rintro ⟨⟨habi, hone, height⟩, hcontract, base, inputs, output, ⟨hinvocation, hselects, hblock,
      hdisjoint, hcode⟩, hinputs, houtput, rfl⟩
    have hmatches : List.Forall₂ TensorContractV2.Matches (contracts ++ [contract])
        (inputs ++ [output]) :=
      forall₂_concat_left_iff.2 ⟨inputs, output, hinputs, houtput, rfl⟩
    have hactualLen := hmatches.length_eq
    have hroom := hblock.block_le
    have hspecial := hblock.count_eq
    rw [← hactualLen] at hroom hspecial
    have hread := (matchTensorsV2_eq_ok_iff h hbases hblock.base_eq hroom).2
      ⟨hmatches, hblock.memref_eq⟩
    rw [List.length_append, List.length_singleton] at hroom hspecial
    refine ⟨⟨habi, by omega, ?_, hinvocation, hcode.lt⟩, bind_eq_ok_iff.2 ⟨(), hcontract, ?_⟩⟩
    · unfold patchblobTargetV2MaxTensors
      omega
    refine (selected_eq_ok_iff h hbases hinvocation).2 ⟨hselects, base, hblock.base_eq, hroom,
      bind_eq_ok_iff.2 ⟨_, hspecial,
        refuseIf_bind_eq_ok_iff.2 ⟨by simp, bind_eq_ok_iff.2 ⟨_, hread, ?_⟩⟩⟩⟩
    rw [List.getLast?_concat, List.dropLast_concat]
    dsimp only
    exact (extent_eq_ok_iff h hcode.lt).2 ⟨hdisjoint, hcode, rfl⟩

/-! ## A version 1 contract, spelled out -/

namespace PatchblobTarget

variable {target : PatchblobTarget}

theorem of_checkContractFlags (h : checkContractFlags target = .ok ())
    (hscalar : target.HasScalar) :
    target.expectedInputCount = 2 ∧ 1 < target.expectedElementCount := by
  have hnot := (refuseIf_eq_ok_iff.1 h)
  simp only [not_or, not_and] at hnot
  have hbinary := hnot.2.2 hscalar
  omega

/-- The tensors of a contract that a tensor of the graph matches are of a size. -/
structure Sized (target : PatchblobTarget) : Prop where
  elementCount_pos : 0 < target.expectedElementCount
  span_eq : target.expectedSpanBytes = target.expectedElementCount * dtypeSizeBytes target.dtype
  span_le : target.expectedSpanBytes ≤ uint64Max

theorem Sized.of_matches {output : MemrefContract} (haccepted : output.Accepted)
    (hmatches : target.outputV2.Matches output) : target.Sized := by
  obtain ⟨helements, hspan, hdtype⟩ := hmatches
  rw [outputV2, target.dtypeFromPublicPrecisionV2_dtype] at hdtype
  have hpos := haccepted.elementCount_pos
  have hspanEq := haccepted.span_eq
  have hle := haccepted.span_le
  rw [helements] at hpos
  rw [helements, hspan, hdtype] at hspanEq
  rw [hspan] at hle
  exact ⟨hpos, hspanEq, hle⟩

theorem dtypeSizeBytes_dtype :
    dtypeSizeBytes target.dtype = 2 ∨ dtypeSizeBytes target.dtype = 4 := by
  rcases target.dtype_eq with h | h <;> rw [h]
  · exact Or.inl rfl
  · exact Or.inr rfl

theorem dtypeFromPublicPrecisionV2_ne_zero :
    dtypeFromPublicPrecisionV2 (publicPrecisionV2 target.dtype) ≠ 0 := by
  rw [target.dtypeFromPublicPrecisionV2_dtype]
  rcases target.dtype_eq with h | h <;> rw [h] <;> decide

theorem checkTensorV2_inputV2 (hsized : target.Sized) {i : ℕ}
    (hi : i < target.expectedInputCount) :
    checkTensorV2 target.expectedInputCount i (target.inputV2 i) = .ok () := by
  obtain ⟨hpos, hspan, hle⟩ := hsized
  have hsize := target.dtypeSizeBytes_dtype
  have hsizePos : 0 < dtypeSizeBytes target.dtype := by omega
  have hfits : target.expectedElementCount ≤ uint64Max / dtypeSizeBytes target.dtype :=
    (Nat.le_div_iff_mul_le hsizePos).2 (by rwa [← hspan])
  unfold checkTensorV2
  simp only [if_pos hi]
  rw [refuseIf_of_not _ (by
    simp only [inputV2, not_or, not_not]
    refine ⟨by decide, trivial, trivial, dtypeFromPublicPrecisionV2_ne_zero, ?_, ?_, trivial⟩
    · split_ifs
      · exact not_false
      · exact hpos.ne'
    · split_ifs
      · exact hsizePos.ne'
      · rw [hspan]
        exact (Nat.mul_pos hpos hsizePos).ne'), ok_bind]
  refine refuseIf_of_not _ ?_
  simp only [inputV2, not_or, not_not, target.dtypeFromPublicPrecisionV2_dtype, Nat.not_lt]
  split_ifs
  · exact ⟨by omega, (Nat.one_mul _).symm⟩
  · exact ⟨hfits, hspan⟩

theorem checkTensorV2_outputV2 (hsized : target.Sized) :
    checkTensorV2 target.expectedInputCount target.expectedInputCount target.outputV2 =
      .ok () := by
  obtain ⟨hpos, hspan, hle⟩ := hsized
  have hsize := target.dtypeSizeBytes_dtype
  have hsizePos : 0 < dtypeSizeBytes target.dtype := by omega
  have hfits : target.expectedElementCount ≤ uint64Max / dtypeSizeBytes target.dtype :=
    (Nat.le_div_iff_mul_le hsizePos).2 (by rwa [← hspan])
  unfold checkTensorV2
  simp only [if_neg (Nat.lt_irrefl target.expectedInputCount)]
  rw [refuseIf_of_not _ (by
    simp only [outputV2, not_or, not_not]
    refine ⟨by decide, trivial, trivial, dtypeFromPublicPrecisionV2_ne_zero, by omega, ?_, trivial⟩
    rw [hspan]
    exact (Nat.mul_pos hpos hsizePos).ne'), ok_bind]
  refine refuseIf_of_not _ ?_
  simp only [outputV2, not_or, not_not, target.dtypeFromPublicPrecisionV2_dtype, Nat.not_lt]
  exact ⟨hfits, hspan⟩

/-- Inputs with the span of the output are no scalars. -/
theorem countScalarInputs_eq_zero {output : TensorContractV2} : ∀ {inputs : List TensorContractV2},
    (∀ input ∈ inputs, input.elementCount = output.elementCount ∧
      input.spanBytes = output.spanBytes) → countScalarInputs inputs output = .ok 0
  | [], _ => rfl
  | input :: rest, h => by
    obtain ⟨⟨helements, hspan⟩, hrest⟩ := List.forall_mem_cons.1 h
    have hscalar : isObservedScalar input output = false := by
      rw [isObservedScalar, helements]
      simp only [Bool.and_eq_false_iff, decide_eq_false_iff_not, beq_eq_false_iff_ne]
      omega
    rw [countScalarInputs, List.foldlM_cons, hscalar, if_neg (by decide),
      refuseIf_of_not _ (by simp [helements, hspan])]
    exact countScalarInputs_eq_zero hrest

/-- The spelled out contract has as many scalars as the flag says. -/
theorem countScalarInputs_toV2 (hscalar : target.HasScalar →
      target.expectedInputCount = 2 ∧ 1 < target.expectedElementCount) :
    countScalarInputs target.inputsV2 target.outputV2 =
      .ok (if target.HasScalar then 1 else 0) := by
  split_ifs with hflag
  · obtain ⟨hcount, helements⟩ := hscalar hflag
    have hinputs : target.inputsV2 = [target.inputV2 0, target.inputV2 1] := by
      rw [inputsV2, hcount]
      rfl
    have hfirst : isObservedScalar (target.inputV2 0) target.outputV2 = false := by
      simp only [isObservedScalar, inputV2, outputV2, if_neg (show ¬(0 = 1 ∧ target.HasScalar) by
        omega), Bool.and_eq_false_iff, beq_eq_false_iff_ne]
      omega
    have hsecond : isObservedScalar (target.inputV2 1) target.outputV2 = true := by
      simp [isObservedScalar, inputV2, outputV2, hflag, helements]
    rw [hinputs, countScalarInputs, List.foldlM_cons, hfirst, if_neg (by decide),
      refuseIf_of_not _ (by simp [inputV2, outputV2])]
    rw [ok_bind, ok_bind, List.foldlM_cons, hsecond, if_pos rfl]
    rfl
  · refine countScalarInputs_eq_zero fun input hinput => ?_
    obtain ⟨i, -, rfl⟩ := List.mem_map.1 hinput
    simp [inputV2, outputV2, hflag]

/-- A version 1 contract has the form that version 2 asks for. -/
theorem checkContractV2_toV2 (hflags : checkContractFlags target = .ok ())
    (hcount : 0 < target.expectedInputCount) (hsized : target.Sized) :
    checkContractV2 0 target.inputsV2 target.outputV2 = .ok () := by
  have hscalar := of_checkContractFlags hflags
  have hprecision : ∀ tensor ∈ target.inputsV2 ++ [target.outputV2],
      tensor.precision = publicPrecisionV2 target.dtype := by
    intro tensor htensor
    rcases List.mem_append.1 htensor with hinput | houtput
    · obtain ⟨i, -, rfl⟩ := List.mem_map.1 hinput
      rfl
    · rw [List.mem_singleton.1 houtput]
      rfl
  have hkinds : publicPrecisionV2 target.dtype = patchblobTensorPrecisionFp16V2 ∨
      publicPrecisionV2 target.dtype = patchblobTensorPrecisionFp32V2 := by
    rcases target.dtype_eq with h | h <;> rw [h]
    · exact Or.inl rfl
    · exact Or.inr rfl
  unfold checkContractV2
  refine bind_eq_ok_iff.2 ⟨(), checkRange_eq_ok_iff.2 fun i _ hi => ?_, ?_⟩
  · rw [tensorAt_eq hi, ok_bind, length_inputsV2]
    rw [List.length_append, List.length_singleton, length_inputsV2] at hi
    by_cases hinput : i < target.expectedInputCount
    · rw [List.getElem_append_left (by rwa [length_inputsV2]), getElem_inputsV2]
      exact checkTensorV2_inputV2 hsized hinput
    · obtain rfl : i = target.expectedInputCount := by omega
      simpa using checkTensorV2_outputV2 hsized
  · obtain ⟨first, rest, hinputs⟩ : ∃ first rest, target.inputsV2 = first :: rest :=
      List.exists_cons_of_length_pos (by rwa [length_inputsV2])
    have hfirst : first.precision = publicPrecisionV2 target.dtype :=
      hprecision first (by rw [hinputs]; simp)
    have hsame : ((target.inputsV2 ++ [target.outputV2]).any fun tensor =>
        tensor.precision != first.precision) = false := by
      rw [List.any_eq_false]
      intro tensor htensor
      simp [hprecision tensor htensor, hfirst]
    rw [hinputs] at hsame ⊢
    dsimp only
    rw [hsame, if_neg (by decide), ← hinputs]
    unfold checkSamePrecisionV2
    rw [refuseIf_of_not _ (by decide), ok_bind, countScalarInputs_toV2 hscalar, ok_bind,
      length_inputsV2]
    have hscalarCount : (if target.HasScalar then 1 else 0) ≠ 0 → target.expectedInputCount = 2 ∧
        (if target.HasScalar then 1 else 0) = 1 := by
      split_ifs with hflag
      · exact fun _ => ⟨(hscalar hflag).1, rfl⟩
      · exact fun h => absurd rfl h
    have hkind : ∀ kind, kind ≠ patchblobTensorPrecisionFp16V2 →
        kind ≠ patchblobTensorPrecisionFp32V2 → target.outputV2.precision ≠ kind := by
      rintro kind h16 h32 rfl
      exact hkinds.elim h16 h32
    refine refuseIf_bind_eq_ok_iff.2 ⟨by split_ifs <;> omega, refuseIf_bind_eq_ok_iff.2
      ⟨fun h => h.2.1 (hscalarCount h.1), refuseIf_bind_eq_ok_iff.2 ⟨?_,
        refuseIf_bind_eq_ok_iff.2 ⟨hkind _ (by decide) (by decide), refuseIf_bind_eq_ok_iff.2
          ⟨fun h => hkind _ (by decide) (by decide) h.1,
            refuseIf_of_not _ fun h => hkind _ (by decide) (by decide) h.1⟩⟩⟩⟩⟩
    rintro ⟨h | h | h, -⟩ <;> exact hkind _ (by decide) (by decide) h

end PatchblobTarget

end Npunlock
