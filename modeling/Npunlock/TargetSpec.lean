import Npunlock.RelocationSpec
import Npunlock.Target

/-!
# What a validated target satisfies

`validateTarget_spec` and `validateTargetV2_spec` : validation reads inside the blob
only, and the detail it fills points at the extent field of the selected range.
`findRangeRelocation_spec` does the same for the code pointer of a range.
-/

namespace Npunlock

open View

variable {layout : GraphLayout}

namespace GraphLayout.Valid

theorem params_in_file (h : layout.Valid) :
    layout.params.offset + layout.params.size ≤ layout.blob.size :=
  h.in_file h.located.params.lt (by
    rw [← GraphLayout.params, h.carrier.params_type]
    decide)

theorem invocations_in_file (h : layout.Valid) :
    layout.invocations.offset + layout.invocations.size ≤ layout.blob.size :=
  h.in_file h.located.invocations.lt (by
    rw [← GraphLayout.invocations, h.carrier.invocations_type]
    decide)

theorem ranges_in_file (h : layout.Valid) :
    layout.ranges.offset + layout.ranges.size ≤ layout.blob.size :=
  h.in_file h.located.ranges.lt (by
    rw [← GraphLayout.ranges, h.carrier.ranges_type]
    decide)

theorem text_in_file (h : layout.Valid) :
    layout.text.offset + layout.text.size ≤ layout.blob.size :=
  h.in_file h.located.text.lt (by
    rw [← GraphLayout.text, h.carrier.text_type]
    decide)

/-- The carrier sections as the validation functions look them up. -/
theorem sectionAt_params (h : layout.Valid) :
    sectionAt layout.sections layout.paramsIndex = .ok layout.params :=
  GraphLayout.sectionAt_eq h.located.params.lt

theorem sectionAt_invocations (h : layout.Valid) :
    sectionAt layout.sections layout.invocationsIndex = .ok layout.invocations :=
  GraphLayout.sectionAt_eq h.located.invocations.lt

theorem sectionAt_ranges (h : layout.Valid) :
    sectionAt layout.sections layout.rangesIndex = .ok layout.ranges :=
  GraphLayout.sectionAt_eq h.located.ranges.lt

theorem sectionAt_text (h : layout.Valid) :
    sectionAt layout.sections layout.kernelTextIndex = .ok layout.text :=
  GraphLayout.sectionAt_eq h.located.text.lt

theorem sectionAt_rangeRelocations (h : layout.Valid) :
    sectionAt layout.sections layout.rangeRelocationsIndex = .ok layout.rangeRelocations :=
  GraphLayout.sectionAt_eq h.located.rangeRelocations.lt

end GraphLayout.Valid

/-! ## Checks both versions make -/

theorem parameterBaseAt_spec {parameterBases : List ℕ} (hbases : BasesOf layout parameterBases)
    {index : ℕ} (hindex : index < parameterBases.length) :
    Safe (parameterBaseAt parameterBases index) fun base => base < layout.params.size := by
  have heq : parameterBaseAt parameterBases index = .ok parameterBases[index] := by
    simp [parameterBaseAt, hindex]
  rw [heq]
  exact Meets.ok (hbases.lt _ (List.getElem_mem hindex))

theorem checkDisjointOutput_spec (inputs : List MemrefContract) (output : MemrefContract) :
    Safe (checkDisjointOutput inputs output) fun _ => True := by
  unfold checkDisjointOutput
  refine (Meets.forM (P := fun _ => True) fun input _ => ?_).mono fun _ _ => trivial
  refine Meets.refuseIf_bind (by simp) fun _ => ?_
  exact (Meets.refuseIf (by simp)).mono fun _ _ => trivial

/-- The range has the code address form, at `rangeOffset`. -/
structure CodeRange (layout : GraphLayout) (rangeIndex rangeOffset : ℕ) : Prop where
  lt : rangeIndex < layout.ranges.size / 0x18
  offset_eq : rangeOffset = layout.ranges.offset + rangeIndex * 0x18
  address : littleEndian layout.blob.data (rangeOffset + 4) 4 = graphCodeAddress
  pointer : littleEndian layout.blob.data (rangeOffset + 8) 4 = 0

theorem CodeRange.end_le {rangeIndex rangeOffset : ℕ} (h : CodeRange layout rangeIndex rangeOffset)
    (hvalid : layout.Valid) :
    rangeOffset + 0x18 ≤ layout.ranges.offset + layout.ranges.size := by
  have := h.lt
  have := hvalid.carrier.ranges_size
  rw [h.offset_eq]
  omega

theorem checkRangeForm_spec (h : layout.Valid) {rangeIndex : ℕ}
    (hrange : rangeIndex < layout.ranges.size / 0x18) :
    Safe (checkRangeForm layout layout.ranges rangeIndex) (CodeRange layout rangeIndex) := by
  have hin := h.ranges_in_file
  unfold checkRangeForm
  simp (disch := omega) only [readU32, readLE_eq, ok_bind]
  refine Meets.refuseIf_bind (by simp) fun hform => ?_
  simp only [not_or, not_not] at hform
  exact Meets.ok ⟨hrange, rfl, hform.1, hform.2⟩

/-- A detail of a validated target points at the extent field of its range. -/
structure PatchDetail.Of (layout : GraphLayout) (invocationIndex rangeIndex : ℕ)
    (detail : PatchDetail) : Prop where
  invocationIndex_eq : detail.invocationIndex = invocationIndex
  rangeIndex_eq : detail.rangeIndex = rangeIndex
  invocation_lt : invocationIndex < layout.invocations.size / 0x40
  selects : littleEndian layout.blob.data
    (layout.invocations.offset + invocationIndex * 0x40) 4 = rangeIndex
  range : CodeRange layout rangeIndex (layout.ranges.offset + rangeIndex * 0x18)
  extent_eq : detail.extentFileOffset = layout.ranges.offset + rangeIndex * 0x18 + 0x0c
  oldExtent_eq : detail.oldExtent = littleEndian layout.blob.data detail.extentFileOffset 4

/-- The slots of a parameter block that fits below `limit` are addresses. -/
theorem slot_le_sizeMax (h : layout.Valid) {base limit count index : ℕ}
    (hlimit : limit ≤ layout.params.size) (hcount : base + count * 0x28 ≤ limit)
    (hindex : index < count) : base + index * 0x28 ≤ sizeMax := by
  have := h.params_in_file
  have := layout.blob.size_le
  omega

/-! ## Version 1 -/

theorem checkContractFlags_spec (target : PatchblobTarget) :
    Safe (checkContractFlags target) fun _ => True := by
  unfold checkContractFlags
  exact (Meets.refuseIf (by simp)).mono fun _ _ => trivial

theorem validateTarget_spec (h : layout.Valid) {parameterBases : List ℕ}
    (hbases : BasesOf layout parameterBases) (target : PatchblobTarget) :
    Safe (validateTarget layout parameterBases target)
      (PatchDetail.Of layout target.invocationIndex target.rangeIndex) := by
  have hinvocations := h.invocations_in_file
  have hranges := h.ranges_in_file
  unfold validateTarget
  rw [h.sectionAt_invocations, h.sectionAt_params, h.sectionAt_ranges, ok_bind, ok_bind, ok_bind]
  refine Meets.refuseIf_bind (by simp) fun hguard => ?_
  simp only [not_or, Nat.not_le, Nat.not_lt] at hguard
  obtain ⟨hinvocation, hrange, -⟩ := hguard
  have hcount := hbases.length_eq
  refine (checkContractFlags_spec target).bind fun _ _ => ?_
  rw [readU32, readLE_eq (by omega), ok_bind]
  refine Meets.refuseIf_bind (by simp) fun hselects => ?_
  refine (parameterBaseAt_spec hbases hinvocation).bind fun base hbase => ?_
  obtain ⟨hlt, hlimit⟩ := invocationParameterLimit_spec parameterBases hbase
  simp only [subSize_of_le hlt.le, ok_bind]
  refine Meets.refuseIf_bind (by simp) fun hblock => ?_
  have hslot : ∀ index, index < target.expectedInputCount + 1 →
      addSize base (index * 0x28) = .ok (base + index * 0x28) := fun index hindex =>
    addSize_of_le (slot_le_sizeMax h hlimit
      (show base + (target.expectedInputCount + 1) * 0x28 ≤ _ by omega) hindex)
  refine (Meets.checkRange (P := fun _ => True) fun index _ hindex => ?_).bind fun _ _ => ?_
  · rw [hslot index hindex, ok_bind]
    exact (asUnsupported_spec (findPointerRelocation_spec h.toHasHeaders _ _ _ _)).bind
      fun _ _ => Meets.ok trivial
  refine (countDataPointerRelocations_spec h.toHasHeaders _ _).bind fun _ _ => ?_
  refine Meets.refuseIf_bind (by simp) fun _ => ?_
  refine (Meets.mapRange (P := fun _ _ => True) fun index hindex => ?_).bind fun inputs _ => ?_
  · rw [hslot index (by omega), ok_bind]
    refine (validateMemref_spec h _).bind fun input _ => ?_
    exact Meets.refuseIf_bind (by simp) fun _ => Meets.ok trivial
  rw [hslot _ (by omega), ok_bind]
  refine (validateMemref_spec h _).bind fun output _ => ?_
  refine Meets.refuseIf_bind (by simp) fun _ => ?_
  refine (checkDisjointOutput_spec _ _).bind fun _ _ => ?_
  refine (checkRangeForm_spec h hrange).bind fun rangeOffset hform => ?_
  obtain rfl := hform.offset_eq
  rw [readU32, readLE_eq (by omega), ok_bind]
  refine Meets.ok ⟨rfl, rfl, by omega, not_not.1 hselects, hform, rfl, rfl⟩

/-! ## Version 2 -/

theorem checkTensorV2_spec (inputCount index : ℕ) (tensor : TensorContractV2) :
    Safe (checkTensorV2 inputCount index tensor) fun _ => True := by
  unfold checkTensorV2
  refine Meets.refuseIf_bind (by simp) fun _ => ?_
  exact (Meets.refuseIf (by simp)).mono fun _ _ => trivial

theorem countScalarInputs_spec (inputs : List TensorContractV2) (output : TensorContractV2) :
    Safe (countScalarInputs inputs output) fun _ => True := by
  unfold countScalarInputs
  generalize 0 = count
  induction inputs generalizing count with
  | nil => exact Meets.ok trivial
  | cons input rest ih =>
    rw [List.foldlM_cons]
    split_ifs
    · exact ih _
    · refine Meets.bind (P := fun _ => True) ?_ fun count _ => ih count
      exact Meets.refuseIf_bind (by simp) fun _ => Meets.ok trivial

theorem tensorAt_eq {tensors : List TensorContractV2} {index : ℕ} (h : index < tensors.length) :
    tensorAt tensors index = .ok tensors[index] := by
  simp [tensorAt, h]

theorem checkContractV2_spec (targetFlags : ℕ) (inputs : List TensorContractV2)
    (output : TensorContractV2) :
    Safe (checkContractV2 targetFlags inputs output) fun _ => True := by
  unfold checkContractV2
  refine (Meets.checkRange (P := fun _ => True) fun index _ hindex => ?_).bind fun _ _ => ?_
  · rw [tensorAt_eq hindex, ok_bind]
    exact checkTensorV2_spec _ _ _
  split
  · exact Meets.ok trivial
  · split_ifs
    · unfold checkConversionV2
      exact (Meets.refuseIf (by simp)).mono fun _ _ => trivial
    · unfold checkSamePrecisionV2
      refine Meets.refuseIf_bind (by simp) fun _ => ?_
      refine (countScalarInputs_spec _ _).bind fun _ _ => ?_
      refine Meets.refuseIf_bind (by simp) fun _ => ?_
      refine Meets.refuseIf_bind (by simp) fun _ => ?_
      refine Meets.refuseIf_bind (by simp) fun _ => ?_
      refine Meets.refuseIf_bind (by simp) fun _ => ?_
      refine Meets.refuseIf_bind (by simp) fun _ => ?_
      exact (Meets.refuseIf (by simp)).mono fun _ _ => trivial

theorem matchTensorsV2_spec (h : layout.Valid) {base limit : ℕ}
    {tensors : List TensorContractV2} (hlimit : limit ≤ layout.params.size)
    (hblock : base + tensors.length * 0x28 ≤ limit) :
    Safe (matchTensorsV2 layout base tensors) fun actual => actual.length = tensors.length := by
  unfold matchTensorsV2
  refine (Meets.mapRange (P := fun _ _ => True) fun index hindex => ?_).mono fun _ h => h.1
  rw [tensorAt_eq hindex, ok_bind, addSize_of_le (slot_le_sizeMax h hlimit hblock hindex), ok_bind]
  refine (validateMemref_spec h _).bind fun actual _ => ?_
  exact Meets.refuseIf_bind (by simp) fun _ => Meets.ok trivial

theorem validateTargetV2_spec (h : layout.Valid) {parameterBases : List ℕ}
    (hbases : BasesOf layout parameterBases) (target : PatchblobTargetV2) :
    Safe (validateTargetV2 layout parameterBases target)
      (PatchDetail.Of layout target.invocationIndex target.rangeIndex) := by
  have hinvocations := h.invocations_in_file
  have hranges := h.ranges_in_file
  unfold validateTargetV2
  rw [h.sectionAt_invocations, h.sectionAt_params, h.sectionAt_ranges, ok_bind, ok_bind, ok_bind]
  refine Meets.refuseIf_bind (by simp) fun hguard => ?_
  simp only [not_or, Nat.not_le, Nat.not_lt] at hguard
  obtain ⟨-, htwo, -, hinvocation, hrange⟩ := hguard
  have hcount := hbases.length_eq
  split
  · exact Meets.error (by simp)
  next output houtput =>
  refine (checkContractV2_spec _ _ _).bind fun _ _ => ?_
  rw [readU32, readLE_eq (by omega), ok_bind]
  refine Meets.refuseIf_bind (by simp) fun hselects => ?_
  refine (parameterBaseAt_spec hbases hinvocation).bind fun base hbase => ?_
  obtain ⟨hlt, hlimit⟩ := invocationParameterLimit_spec parameterBases hbase
  simp only [subSize_of_le hlt.le, ok_bind]
  refine Meets.refuseIf_bind (by simp) fun hblock => ?_
  refine (countDataPointerRelocations_spec h.toHasHeaders _ _).bind fun _ _ => ?_
  refine Meets.refuseIf_bind (by simp) fun _ => ?_
  rw [PatchblobTargetV2.tensorCount] at hblock
  refine (matchTensorsV2_spec h hlimit (by omega)).bind fun actual hactual => ?_
  split
  · exact Meets.error (by simp)
  refine (checkDisjointOutput_spec _ _).bind fun _ _ => ?_
  refine (checkRangeForm_spec h hrange).bind fun rangeOffset hform => ?_
  obtain rfl := hform.offset_eq
  rw [readU32, readLE_eq (by omega), ok_bind]
  refine Meets.ok ⟨rfl, rfl, by omega, not_not.1 hselects, hform, rfl, rfl⟩

/-! ## The code pointer of a range -/

theorem isRangeRelocation_iff {rangeIndex : ℕ} {candidate : GraphRelocation} :
    isRangeRelocation layout rangeIndex candidate = true ↔
      candidate.targetOffset = rangeIndex * 0x18 + 8 ∧ candidate.type = rVpu32 ∧
        candidate.specialSource = false ∧
        candidate.sourceSectionIndex = some layout.kernelTextIndex := by
  simp [isRangeRelocation, and_assoc]

theorem findRangeRelocation_spec (h : layout.Valid) (rangeIndex : ℕ) :
    Safe (findRangeRelocation layout rangeIndex) fun relocation =>
      layout.rangeRelocations.info = layout.rangesIndex ∧
        isRangeRelocation layout rangeIndex relocation = true ∧
        IsEntry layout layout.rangeRelocationsIndex relocation := by
  unfold findRangeRelocation
  rw [h.sectionAt_rangeRelocations, ok_bind]
  refine Meets.refuseIf_bind (by simp) fun hlink => ?_
  simp only [not_or, not_not] at hlink
  refine (collectEntries_spec h.toHasHeaders _
    (P := fun r => isRangeRelocation layout rangeIndex r = true ∧
      IsEntry layout layout.rangeRelocationsIndex r) (by simp)
    fun r hr hwanted => ⟨hwanted, hr⟩).bind fun found hfound => ?_
  split
  · exact Meets.ok ⟨hlink.1, hfound _ (List.mem_singleton_self _)⟩
  · exact Meets.error (by simp)

end Npunlock
