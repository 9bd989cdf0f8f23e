import Npunlock.DiscoverySpec

/-!
# Graphs that differ in their code only

A patch moves sections, grows `KernelText` and rewrites the code extents of some ranges
and the addends of their code pointers. `Recoded layout layout'` says that `layout'` comes
from `layout` in this way, whatever the new offsets, extents and addends are. Every
function below the patch runs alike on the two graphs : the same errors, and values that
differ in file offsets, extents and code addends only.
-/

namespace Npunlock

/-! ## Windows of two blobs -/

/-- The `n` bytes at `p` of `v` are the `n` bytes at `p'` of `v'`. -/
structure SameBytes (v v' : View) (p p' n : ℕ) : Prop where
  in_left : p + n ≤ v.size
  in_right : p' + n ≤ v'.size
  eq : ∀ k < n, v'.data (p' + k) = v.data (p + k)

namespace SameBytes

variable {v v' : View} {p p' n : ℕ}

/-- A part of the window. -/
theorem sub (h : SameBytes v v' p p' n) (o m : ℕ) (hm : o + m ≤ n) :
    SameBytes v v' (p + o) (p' + o) m := by
  have hleft := h.in_left
  have hright := h.in_right
  refine ⟨by omega, by omega, fun k hk => ?_⟩
  rw [Nat.add_assoc, Nat.add_assoc]
  exact h.eq (o + k) (by omega)

theorem littleEndian_eq (h : SameBytes v v' p p' n) :
    littleEndian v'.data p' n = littleEndian v.data p n :=
  littleEndian_congr h.eq

theorem slice_eq (h : SameBytes v v' p p' n) : slice v'.data p' n = slice v.data p n :=
  slice_congr h.eq

theorem readLE (h : SameBytes v v' p p' n) : v'.readLE p' n = v.readLE p n := by
  rw [View.readLE_eq h.in_left, View.readLE_eq h.in_right, h.littleEndian_eq]

theorem readBytes (h : SameBytes v v' p p' n) : v'.readBytes p' n = v.readBytes p n := by
  rw [View.readBytes_eq h.in_left, View.readBytes_eq h.in_right, h.slice_eq]

theorem readString (h : SameBytes v v' p p' n) : v'.readString p' n = v.readString p n := by
  rw [View.readString_eq h.in_left, View.readString_eq h.in_right, terminated_congr h.eq]

theorem readI32 (h : SameBytes v v' p p' 4) : v'.readI32 p' = v.readI32 p :=
  congrArg (Except.map (signed 32)) h.readLE

theorem readI64 (h : SameBytes v v' p p' 8) : v'.readI64 p' = v.readI64 p :=
  congrArg (Except.map (signed 64)) h.readLE

end SameBytes

/-! ## The relation -/

/-- Byte `k` of section `i` is in no field that a patch rewrites : neither in the code
extent of a range nor in the addend of a range relocation. -/
def GraphLayout.Keeps (layout : GraphLayout) (i k : ℕ) : Prop :=
  (i = layout.rangesIndex → k % 0x18 < 0x0c ∨ 0x10 ≤ k % 0x18) ∧
    (i = layout.rangeRelocationsIndex → k % 0x18 < 0x10)

/-- `layout'` is `layout` with other file offsets, code extents and code addends, and with
a `KernelText` that begins with the old one. -/
structure Recoded (layout layout' : GraphLayout) : Prop where
  headers : layout.HasHeaders
  headers' : layout'.HasHeaders
  located : layout.Located
  carrier : layout.Carrier
  fields_eq : layout' = { layout with blob := layout'.blob, sections := layout'.sections }
  length_eq : layout'.sections.length = layout.sections.length
  sec_eq : ∀ i < layout.sections.length, layout'.sec i =
    { layout.sec i with offset := (layout'.sec i).offset, size := (layout'.sec i).size }
  size_eq : ∀ i < layout.sections.length, i ≠ layout.kernelTextIndex →
    (layout'.sec i).size = (layout.sec i).size
  text_le : layout.text.size ≤ layout'.text.size
  bytes : ∀ i < layout.sections.length, (layout.sec i).type ≠ shtNobits →
    ∀ k < (layout.sec i).size, layout.Keeps i k →
      layout'.blob.data ((layout'.sec i).offset + k) =
        layout.blob.data ((layout.sec i).offset + k)

namespace GraphLayout.Located

variable {layout : GraphLayout}

theorem sectionAt_text (h : layout.Located) :
    sectionAt layout.sections layout.kernelTextIndex = .ok layout.text :=
  GraphLayout.sectionAt_eq h.text.lt

theorem sectionAt_params (h : layout.Located) :
    sectionAt layout.sections layout.paramsIndex = .ok layout.params :=
  GraphLayout.sectionAt_eq h.params.lt

theorem sectionAt_invocations (h : layout.Located) :
    sectionAt layout.sections layout.invocationsIndex = .ok layout.invocations :=
  GraphLayout.sectionAt_eq h.invocations.lt

theorem sectionAt_ranges (h : layout.Located) :
    sectionAt layout.sections layout.rangesIndex = .ok layout.ranges :=
  GraphLayout.sectionAt_eq h.ranges.lt

/-- Sections with different names are different. -/
theorem ne_of_name {i j : ℕ} {a b : String} (hi : IsAt layout.sections i a)
    (hj : IsAt layout.sections j b) (hab : ascii a ≠ ascii b) : i ≠ j := by
  rintro rfl
  exact hab (hi.name.symm.trans hj.name)

theorem params_ne_ranges (h : layout.Located) : layout.paramsIndex ≠ layout.rangesIndex :=
  ne_of_name h.params h.ranges (by decide)

theorem invocations_ne_ranges (h : layout.Located) :
    layout.invocationsIndex ≠ layout.rangesIndex :=
  ne_of_name h.invocations h.ranges (by decide)

theorem text_ne_ranges (h : layout.Located) : layout.kernelTextIndex ≠ layout.rangesIndex :=
  ne_of_name h.text h.ranges (by decide)

theorem text_ne_params (h : layout.Located) : layout.kernelTextIndex ≠ layout.paramsIndex :=
  ne_of_name h.text h.params (by decide)

theorem text_ne_invocations (h : layout.Located) :
    layout.kernelTextIndex ≠ layout.invocationsIndex :=
  ne_of_name h.text h.invocations (by decide)

theorem text_ne_rangeRelocations (h : layout.Located) :
    layout.kernelTextIndex ≠ layout.rangeRelocationsIndex :=
  ne_of_name h.text h.rangeRelocations (by decide)

theorem ranges_ne_rangeRelocations (h : layout.Located) :
    layout.rangesIndex ≠ layout.rangeRelocationsIndex :=
  ne_of_name h.ranges h.rangeRelocations (by decide)

theorem params_ne_rangeRelocations (h : layout.Located) :
    layout.paramsIndex ≠ layout.rangeRelocationsIndex :=
  ne_of_name h.params h.rangeRelocations (by decide)

theorem invocations_ne_rangeRelocations (h : layout.Located) :
    layout.invocationsIndex ≠ layout.rangeRelocationsIndex :=
  ne_of_name h.invocations h.rangeRelocations (by decide)

end GraphLayout.Located

namespace Recoded

variable {layout layout' layout'' : GraphLayout}

theorem kernelTextIndex_eq (h : Recoded layout layout') :
    layout'.kernelTextIndex = layout.kernelTextIndex := by
  rw [h.fields_eq]

theorem paramsIndex_eq (h : Recoded layout layout') : layout'.paramsIndex = layout.paramsIndex := by
  rw [h.fields_eq]

theorem invocationsIndex_eq (h : Recoded layout layout') :
    layout'.invocationsIndex = layout.invocationsIndex := by
  rw [h.fields_eq]

theorem rangesIndex_eq (h : Recoded layout layout') : layout'.rangesIndex = layout.rangesIndex := by
  rw [h.fields_eq]

theorem rangeRelocationsIndex_eq (h : Recoded layout layout') :
    layout'.rangeRelocationsIndex = layout.rangeRelocationsIndex := by
  rw [h.fields_eq]

theorem compatibilityIndex_eq (h : Recoded layout layout') :
    layout'.compatibilityIndex = layout.compatibilityIndex := by
  rw [h.fields_eq]

theorem loaderAbiVersionIndex_eq (h : Recoded layout layout') :
    layout'.loaderAbiVersionIndex = layout.loaderAbiVersionIndex := by
  rw [h.fields_eq]

theorem mappedInferenceVersionIndex_eq (h : Recoded layout layout') :
    layout'.mappedInferenceVersionIndex = layout.mappedInferenceVersionIndex := by
  rw [h.fields_eq]

theorem platformInfoIndex_eq (h : Recoded layout layout') :
    layout'.platformInfoIndex = layout.platformInfoIndex := by
  rw [h.fields_eq]

theorem tileCount_eq (h : Recoded layout layout') : layout'.tileCount = layout.tileCount := by
  rw [h.fields_eq]

theorem sectionCount_eq (h : Recoded layout layout') :
    layout'.sectionCount = layout.sectionCount :=
  h.length_eq

variable {i : ℕ}

theorem type_eq (h : Recoded layout layout') (hi : i < layout.sections.length) :
    (layout'.sec i).type = (layout.sec i).type := by
  rw [h.sec_eq i hi]

theorem flags_eq (h : Recoded layout layout') (hi : i < layout.sections.length) :
    (layout'.sec i).flags = (layout.sec i).flags := by
  rw [h.sec_eq i hi]

theorem address_eq (h : Recoded layout layout') (hi : i < layout.sections.length) :
    (layout'.sec i).address = (layout.sec i).address := by
  rw [h.sec_eq i hi]

theorem link_eq (h : Recoded layout layout') (hi : i < layout.sections.length) :
    (layout'.sec i).link = (layout.sec i).link := by
  rw [h.sec_eq i hi]

theorem info_eq (h : Recoded layout layout') (hi : i < layout.sections.length) :
    (layout'.sec i).info = (layout.sec i).info := by
  rw [h.sec_eq i hi]

theorem alignment_eq (h : Recoded layout layout') (hi : i < layout.sections.length) :
    (layout'.sec i).alignment = (layout.sec i).alignment := by
  rw [h.sec_eq i hi]

theorem entrySize_eq (h : Recoded layout layout') (hi : i < layout.sections.length) :
    (layout'.sec i).entrySize = (layout.sec i).entrySize := by
  rw [h.sec_eq i hi]

theorem name_eq (h : Recoded layout layout') (hi : i < layout.sections.length) :
    (layout'.sec i).name = (layout.sec i).name := by
  rw [h.sec_eq i hi]

/-- A section that is not code keeps its size. -/
theorem size_eq_of_type (h : Recoded layout layout') (hi : i < layout.sections.length)
    (htype : (layout.sec i).type ≠ shtProgbits) : (layout'.sec i).size = (layout.sec i).size := by
  refine h.size_eq i hi fun heq => htype ?_
  rw [heq]
  exact h.carrier.text_type

/-- The fields a patch rewrites are in code ranges and relocations only. -/
theorem keeps_of_type (h : Recoded layout layout') (hprogbits : (layout.sec i).type ≠ shtProgbits)
    (hrela : (layout.sec i).type ≠ shtRela) (k : ℕ) : layout.Keeps i k := by
  refine ⟨fun heq => absurd ?_ hprogbits, fun heq => absurd ?_ hrela⟩
  · rw [heq]
    exact h.carrier.ranges_type
  · rw [heq]
    exact h.carrier.rangeRelocations_type

theorem keeps_of_ne (h : i ≠ layout.rangesIndex) (h' : i ≠ layout.rangeRelocationsIndex)
    (k : ℕ) : layout.Keeps i k :=
  ⟨fun heq => absurd heq h, fun heq => absurd heq h'⟩

/-- The bytes of a section, if it is not rewritten. -/
theorem window (h : Recoded layout layout') (hi : i < layout.sections.length)
    (htype : (layout.sec i).type ≠ shtNobits) (hkeeps : ∀ k, layout.Keeps i k) :
    SameBytes layout.blob layout'.blob (layout.sec i).offset (layout'.sec i).offset
      (layout.sec i).size := by
  have hin' := h.headers'.in_file (h.length_eq ▸ hi) (by rwa [h.type_eq hi])
  refine ⟨h.headers.in_file hi htype, ?_, fun k hk => h.bytes i hi htype k hk (hkeeps k)⟩
  by_cases heq : i = layout.kernelTextIndex
  · subst heq
    have hle := h.text_le
    rw [GraphLayout.text, GraphLayout.text, h.kernelTextIndex_eq] at hle
    omega
  · rwa [h.size_eq i hi heq] at hin'

theorem window_of_type (h : Recoded layout layout') (hi : i < layout.sections.length)
    (htype : (layout.sec i).type ≠ shtNobits) (hprogbits : (layout.sec i).type ≠ shtProgbits)
    (hrela : (layout.sec i).type ≠ shtRela) :
    SameBytes layout.blob layout'.blob (layout.sec i).offset (layout'.sec i).offset
      (layout.sec i).size :=
  h.window hi htype (h.keeps_of_type hprogbits hrela)

theorem params_eq (h : Recoded layout layout') :
    layout'.params = layout'.sec layout.paramsIndex := by
  rw [GraphLayout.params, h.paramsIndex_eq]

theorem invocations_eq (h : Recoded layout layout') :
    layout'.invocations = layout'.sec layout.invocationsIndex := by
  rw [GraphLayout.invocations, h.invocationsIndex_eq]

theorem ranges_eq (h : Recoded layout layout') :
    layout'.ranges = layout'.sec layout.rangesIndex := by
  rw [GraphLayout.ranges, h.rangesIndex_eq]

theorem text_eq (h : Recoded layout layout') :
    layout'.text = layout'.sec layout.kernelTextIndex := by
  rw [GraphLayout.text, h.kernelTextIndex_eq]

/-- The parameters are moved as a whole. -/
theorem window_params (h : Recoded layout layout') :
    SameBytes layout.blob layout'.blob layout.params.offset layout'.params.offset
      layout.params.size := by
  rw [h.params_eq]
  exact h.window h.located.params.lt
    (by rw [← GraphLayout.params, h.carrier.params_type]; decide)
    (keeps_of_ne h.located.params_ne_ranges h.located.params_ne_rangeRelocations)

/-- The invocations are moved as a whole. -/
theorem window_invocations (h : Recoded layout layout') :
    SameBytes layout.blob layout'.blob layout.invocations.offset layout'.invocations.offset
      layout.invocations.size := by
  rw [h.invocations_eq]
  exact h.window h.located.invocations.lt
    (by rw [← GraphLayout.invocations, h.carrier.invocations_type]; decide)
    (keeps_of_ne h.located.invocations_ne_ranges h.located.invocations_ne_rangeRelocations)

/-- The old code is moved as a whole. -/
theorem window_text (h : Recoded layout layout') :
    SameBytes layout.blob layout'.blob layout.text.offset layout'.text.offset
      layout.text.size := by
  rw [h.text_eq]
  exact h.window h.located.text.lt
    (by rw [← GraphLayout.text, h.carrier.text_type]; decide)
    (keeps_of_ne h.located.text_ne_ranges h.located.text_ne_rangeRelocations)

theorem params_size_eq (h : Recoded layout layout') : layout'.params.size = layout.params.size := by
  rw [h.params_eq]
  exact h.size_eq _ h.located.params.lt h.located.text_ne_params.symm

theorem invocations_size_eq (h : Recoded layout layout') :
    layout'.invocations.size = layout.invocations.size := by
  rw [h.invocations_eq]
  exact h.size_eq _ h.located.invocations.lt h.located.text_ne_invocations.symm

theorem ranges_size_eq (h : Recoded layout layout') : layout'.ranges.size = layout.ranges.size := by
  rw [h.ranges_eq]
  exact h.size_eq _ h.located.ranges.lt h.located.text_ne_ranges.symm

theorem rangeRelocations_eq (h : Recoded layout layout') :
    layout'.rangeRelocations = layout'.sec layout.rangeRelocationsIndex := by
  rw [GraphLayout.rangeRelocations, h.rangeRelocationsIndex_eq]

theorem isAt (h : Recoded layout layout') {literal : String}
    (hi : IsAt layout.sections i literal) : IsAt layout'.sections i literal :=
  ⟨h.length_eq ▸ hi.lt, (h.name_eq hi.lt).trans hi.name⟩

/-- The required sections are in the same positions. -/
theorem located' (h : Recoded layout layout') : layout'.Located := by
  obtain ⟨h1, h2, h3, h4, h5, h6, h7, h8, h9⟩ := h.located
  rw [h.fields_eq]
  exact ⟨h.isAt h1, h.isAt h2, h.isAt h3, h.isAt h4, h.isAt h5, h.isAt h6, h.isAt h7, h.isAt h8,
    h.isAt h9⟩

theorem hasCarrierForm_eq (h : Recoded layout layout') (hi : i < layout.sections.length)
    (flags alignment : ℕ) : hasCarrierForm (layout'.sec i) flags alignment =
      hasCarrierForm (layout.sec i) flags alignment := by
  rw [hasCarrierForm, hasCarrierForm, h.flags_eq hi, h.address_eq hi, h.link_eq hi, h.info_eq hi,
    h.alignment_eq hi, h.entrySize_eq hi]

/-- The ACT carrier keeps its form. -/
theorem carrier' (h : Recoded layout layout') : layout'.Carrier := by
  have ht := h.located.text.lt
  have hp := h.located.params.lt
  have hi := h.located.invocations.lt
  have hr := h.located.ranges.lt
  have hrr := h.located.rangeRelocations.lt
  have hc := h.carrier
  have hrela : (layout'.sec layout.rangeRelocationsIndex).size = layout.rangeRelocations.size :=
    h.size_eq_of_type hrr (by rw [← GraphLayout.rangeRelocations, hc.rangeRelocations_type]; decide)
  refine ⟨?_, ?_, ?_, ?_, ?_, ?_, ?_, ?_, ?_, ?_, ?_, ?_, ?_, ?_, ?_, ?_⟩
  · rw [h.text_eq, h.type_eq ht, ← GraphLayout.text, hc.text_type]
  · rw [h.params_eq, h.type_eq hp, ← GraphLayout.params, hc.params_type]
  · rw [h.invocations_eq, h.type_eq hi, ← GraphLayout.invocations, hc.invocations_type]
  · rw [h.ranges_eq, h.type_eq hr, ← GraphLayout.ranges, hc.ranges_type]
  · rw [h.rangeRelocations_eq, h.type_eq hrr, ← GraphLayout.rangeRelocations,
      hc.rangeRelocations_type]
  · rw [h.text_eq, h.hasCarrierForm_eq ht, ← GraphLayout.text, hc.text_form]
  · rw [h.params_eq, h.hasCarrierForm_eq hp, ← GraphLayout.params, hc.params_form]
  · rw [h.invocations_eq, h.hasCarrierForm_eq hi, ← GraphLayout.invocations, hc.invocations_form]
  · rw [h.ranges_eq, h.hasCarrierForm_eq hr, ← GraphLayout.ranges, hc.ranges_form]
  · rw [h.rangeRelocations_eq, h.flags_eq hrr, ← GraphLayout.rangeRelocations,
      hc.rangeRelocations_flags]
  · rw [h.rangeRelocations_eq, h.address_eq hrr, ← GraphLayout.rangeRelocations,
      hc.rangeRelocations_address]
  · rw [h.rangeRelocations_eq, h.alignment_eq hrr, ← GraphLayout.rangeRelocations,
      hc.rangeRelocations_alignment]
  · rw [h.invocations_size_eq, hc.invocations_size]
  · rw [h.ranges_size_eq, hc.ranges_size]
  · rw [h.rangeRelocations_eq, h.entrySize_eq hrr, ← GraphLayout.rangeRelocations,
      hc.rangeRelocations_entrySize]
  · rw [h.rangeRelocations_eq, hrela, hc.rangeRelocations_size]

/-- Sections are looked up alike. -/
theorem sectionAt_eq (h : Recoded layout layout') (hi : i < layout.sections.length) :
    sectionAt layout'.sections i = .ok (layout'.sec i) :=
  GraphLayout.sectionAt_eq (h.length_eq ▸ hi)

end Recoded

/-! ## The records of the parser -/

section Records

variable {layout layout' : GraphLayout} {i : ℕ}

theorem validateGraphCompatibility_recoded (h : Recoded layout layout') :
    Agree Eq (validateGraphCompatibility layout) (validateGraphCompatibility layout') := by
  have hi := h.located.compatibility.lt
  unfold validateGraphCompatibility
  rw [h.compatibilityIndex_eq, GraphLayout.sectionAt_eq hi, h.sectionAt_eq hi, ok_bind, ok_bind]
  by_cases htype : (layout.sec layout.compatibilityIndex).type = shtVpuCompatibility
  · have hsize := h.size_eq_of_type hi (by rw [htype]; decide)
    have hw := h.window_of_type hi (by rw [htype]; decide) (by rw [htype]; decide)
      (by rw [htype]; decide)
    refine Agree.refuseIf_bind ?_ fun _ => ?_
    · rw [h.type_eq hi, h.flags_eq hi, h.address_eq hi, h.link_eq hi, h.info_eq hi,
        h.alignment_eq hi, h.entrySize_eq hi, hsize]
    · rw [hsize]
      exact Agree.bind_eq hw.readBytes fun data _ => Agree.refl (fun _ => rfl) _
  · exact Agree.refuseIf_both (Or.inl htype) (Or.inl (by rwa [h.type_eq hi]))

theorem validateVersionNote_recoded (h : Recoded layout layout')
    (hi : i < layout.sections.length) (owner : List UInt8) (noteType : ℕ) (expected : List ℕ)
    (message : String) :
    Agree Eq (validateVersionNote layout i owner noteType expected message)
      (validateVersionNote layout' i owner noteType expected message) := by
  unfold validateVersionNote
  rw [GraphLayout.sectionAt_eq hi, h.sectionAt_eq hi, ok_bind, ok_bind]
  by_cases htype : (layout.sec i).type = shtNote
  · have hsize := h.size_eq_of_type hi (by rw [htype]; decide)
    have hw := h.window_of_type hi (by rw [htype]; decide) (by rw [htype]; decide)
      (by rw [htype]; decide)
    refine Agree.refuseIf_bind ?_ fun hform => ?_
    · rw [h.type_eq hi, h.flags_eq hi, h.address_eq hi, h.link_eq hi, h.info_eq hi,
        h.alignment_eq hi, h.entrySize_eq hi, hsize]
    · have hsize : (layout.sec i).size = 0x20 := by
        simp only [not_or, not_not] at hform
        exact hform.2.2.2.2.2.2.2
      refine Agree.bind_eq (hw.sub 0 4 (by omega)).readLE fun _ _ => ?_
      refine Agree.bind_eq (hw.sub 4 4 (by omega)).readLE fun _ _ => ?_
      refine Agree.bind_eq (hw.sub 8 4 (by omega)).readLE fun _ _ => ?_
      refine Agree.bind_eq (hw.sub 12 4 (by omega)).readBytes fun _ _ => ?_
      refine Agree.refuseIf_bind Iff.rfl fun _ => Agree.checkRange fun index _ hindex => ?_
      refine Agree.bind_eq ((hw.sub 16 16 (by omega)).sub (index * 4) 4 (by omega)).readLE
        fun _ _ => Agree.refuseIf Iff.rfl
  · exact Agree.refuseIf_both (Or.inl htype) (Or.inl (by rwa [h.type_eq hi]))

theorem validateActTileIndices_recoded (h : Recoded layout layout') :
    Agree Eq (validateActTileIndices layout) (validateActTileIndices layout') := by
  have hi := h.located.invocations.lt
  have hw := h.window_invocations
  unfold validateActTileIndices
  rw [h.invocationsIndex_eq, GraphLayout.sectionAt_eq hi, h.sectionAt_eq hi, ok_bind, ok_bind,
    ← h.invocations_eq, h.invocations_size_eq, h.tileCount_eq]
  refine Agree.checkRange fun index _ hindex => ?_
  replace hindex : index < layout.invocations.size / 0x40 := hindex
  exact Agree.bind_eq ((hw.sub (index * 0x40) 0x40 (by omega)).sub 0x34 4 (by omega)).readLE
    fun _ _ => Agree.refuseIf Iff.rfl

theorem validatePlatformInfo_recoded (h : Recoded layout layout') :
    Agree Eq (validatePlatformInfo layout) (validatePlatformInfo layout') := by
  have hi := h.located.platformInfo.lt
  unfold validatePlatformInfo
  rw [h.platformInfoIndex_eq, GraphLayout.sectionAt_eq hi, h.sectionAt_eq hi, ok_bind, ok_bind]
  by_cases htype : (layout.sec layout.platformInfoIndex).type = shtVpuPlatformInfo
  · have hsize := h.size_eq_of_type hi (by rw [htype]; decide)
    have hw := h.window_of_type hi (by rw [htype]; decide) (by rw [htype]; decide)
      (by rw [htype]; decide)
    refine Agree.refuseIf_bind ?_ fun hform => ?_
    · rw [h.type_eq hi, h.flags_eq hi, h.address_eq hi, h.link_eq hi, h.info_eq hi,
        h.alignment_eq hi, h.entrySize_eq hi, hsize]
    · have hsize : (layout.sec layout.platformInfoIndex).size = 0x28 := by
        simp only [not_or, not_not] at hform
        exact hform.2.2.2.2.2.1
      refine Agree.bind_eq (hw.sub 0 8 (by omega)).readLE fun _ _ => ?_
      refine Agree.bind_eq (hw.sub 8 8 (by omega)).readLE fun _ _ => ?_
      refine Agree.bind_eq (hw.sub 16 8 (by omega)).readLE fun _ _ => ?_
      refine Agree.bind_eq (hw.sub 24 8 (by omega)).readLE fun _ _ => ?_
      refine Agree.bind_eq (hw.sub 32 8 (by omega)).readLE fun _ _ => ?_
      exact Agree.refuseIf Iff.rfl
  · exact Agree.refuseIf_both (Or.inl htype) (Or.inl (by rwa [h.type_eq hi]))

theorem Recoded.withTileCount (h : Recoded layout layout') (tileCount : ℕ) :
    Recoded { layout with tileCount } { layout' with tileCount } := by
  obtain ⟨h1, h2, h3, h4, h5, h6, h7, h8, h9, h10⟩ := h
  exact ⟨⟨h1.1, h1.2, h1.3⟩, ⟨h2.1, h2.2, h2.3⟩,
    ⟨h3.1, h3.2, h3.3, h3.4, h3.5, h3.6, h3.7, h3.8, h3.9⟩,
    ⟨h4.1, h4.2, h4.3, h4.4, h4.5, h4.6, h4.7, h4.8, h4.9, h4.10, h4.11, h4.12, h4.13, h4.14,
      h4.15, h4.16⟩, by rw [h5], h6, h7, h8, h9, h10⟩

/-- The compatibility records are read alike. -/
theorem checkRecords_recoded (h : Recoded layout layout') :
    Agree (fun checked checked' => ∃ tileCount, checked = { layout with tileCount } ∧
      checked' = { layout' with tileCount }) (checkRecords layout) (checkRecords layout') := by
  unfold checkRecords
  refine (validateGraphCompatibility_recoded h).bind fun tileCount _ _ _ heq => ?_
  subst heq
  have ht := h.withTileCount tileCount
  simp only [h.loaderAbiVersionIndex_eq, h.mappedInferenceVersionIndex_eq]
  refine (validateVersionNote_recoded ht h.located.loaderAbiVersion.lt _ _ _ _).bind
    fun _ _ _ _ _ => ?_
  refine (validateVersionNote_recoded ht h.located.mappedInferenceVersion.lt _ _ _ _).bind
    fun _ _ _ _ _ => ?_
  refine (validateActTileIndices_recoded ht).bind fun _ _ _ _ _ => ?_
  refine (validatePlatformInfo_recoded ht).bind fun _ _ _ _ _ => ?_
  exact Agree.ok ⟨tileCount, rfl, rfl⟩

end Records

end Npunlock
