import Npunlock.PatchSpec

/-!
# What the patch writes

The bytes of the output, position by position. A range record with the code address form
and a resolvable relocation entry cannot lie in the ELF header, so the fields of the
targets are behind the section table (`CodeRange.behind_table`,
`GraphRelocation.ReadFrom.behind_table`). With the section table in its place, the output
holds the bytes of the input at their shifted positions outside the `Written` fields
(`patchedData_shift`), and the gap holds the image and zeros (`patchedData_gap`).
-/

namespace Npunlock

open View

variable {layout : GraphLayout}

/-! ## Sections behind the section table -/

namespace GraphLayout.Valid

/-- A section with bytes in the file lies in the ELF header or behind the section table. -/
theorem before_or_behind (h : layout.Valid) {i : ℕ} (hi : i < layout.sections.length)
    (hfile : (layout.sec i).FileBacked) :
    (layout.sec i).offset + (layout.sec i).size ≤ 64 ∨
      64 + layout.sections.length * 64 ≤ (layout.sec i).offset := by
  rcases Nat.eq_zero_or_pos i with rfl | hpos
  · exact absurd h.null.size hfile.2
  · exact h.placed.table i hpos hi hfile

theorem disjoint (h : layout.Valid) {i j : ℕ} (hi : i < layout.sections.length)
    (hj : j < layout.sections.length) (hne : i ≠ j) (hfile : (layout.sec i).FileBacked)
    (hfile' : (layout.sec j).FileBacked) : (layout.sec i).Disjoint (layout.sec j) := by
  have hpos : ∀ k, (layout.sec k).FileBacked → 1 ≤ k := by
    intro k hk
    rcases Nat.eq_zero_or_pos k with rfl | hk'
    · exact absurd h.null.size hk.2
    · exact hk'
  rcases Nat.lt_or_gt_of_ne hne with hlt | hlt
  · exact h.placed.disjoint i j (hpos i hfile) hlt hj hfile hfile'
  · exact (h.placed.disjoint j i (hpos j hfile') hlt hi hfile' hfile).symm

theorem mod_alignment (h : layout.Valid) {i : ℕ} (hi : i < layout.sections.length)
    (halign : 1 < (layout.sec i).alignment) :
    (layout.sec i).offset % (layout.sec i).alignment = 0 :=
  (h.fits i hi).aligned halign

end GraphLayout.Valid

/-- A range record with the code address form is not in the ELF header. -/
theorem CodeRange.behind_table (h : layout.Valid) {rangeIndex rangeOffset : ℕ}
    (hrange : CodeRange layout rangeIndex rangeOffset) :
    64 + layout.sections.length * 64 ≤ layout.ranges.offset := by
  have hlt := hrange.lt
  have hend := hrange.end_le h
  have haddress := hrange.address
  have hfile : layout.ranges.FileBacked := by
    refine ⟨?_, by omega⟩
    rw [h.carrier.ranges_type]
    decide
  refine (h.before_or_behind h.located.ranges.lt hfile).resolve_left fun hbefore => ?_
  replace hbefore : layout.ranges.offset + layout.ranges.size ≤ 64 := hbefore
  have halignment : layout.ranges.alignment = 64 :=
    (hasCarrierForm_iff.1 h.carrier.ranges_form).2.2.2.2.1
  have hmod := h.mod_alignment h.located.ranges.lt (by
    rw [← GraphLayout.ranges, halignment]
    decide)
  rw [← GraphLayout.ranges, halignment] at hmod
  have hsize := h.carrier.ranges_size
  rw [hrange.offset_eq] at haddress
  -- the first two records of a section at 0 would begin with ELF header fields
  obtain hzero | hone : rangeIndex = 0 ∨ rangeIndex = 1 := by omega
  · rw [show layout.ranges.offset + rangeIndex * 0x18 + 4 = 4 by omega] at haddress
    have hlow := littleEndian_mod layout.blob.data 4 1 3
    rw [haddress, h.header.elfClass] at hlow
    exact absurd hlow (by decide)
  · rw [show layout.ranges.offset + rangeIndex * 0x18 + 4 = 0x18 + 4 by omega] at haddress
    have hentry := littleEndian_add layout.blob.data 4 0x18 4
    rw [haddress, h.header.entry] at hentry
    simp only [graphCodeAddress] at hentry
    omega

/-- A relocation that writes 32 bits was not read in the ELF header. -/
theorem GraphRelocation.ReadFrom.behind_table (h : layout.Valid) {index entry : ℕ}
    {relocation : GraphRelocation} (hread : relocation.ReadFrom layout index entry)
    (halignment : (layout.sec index).alignment = 8) (htype : relocation.type = rVpu32) :
    64 + layout.sections.length * 64 ≤ (layout.sec index).offset := by
  have hend := hread.end_le
  have hle := hread.le_fileOffset
  have hfile : (layout.sec index).FileBacked := by
    refine ⟨?_, hread.size_ne_zero⟩
    rw [hread.type_eq]
    decide
  refine (h.before_or_behind hread.index_lt hfile).resolve_left fun hbefore => ?_
  have hmod := h.mod_alignment hread.index_lt (by rw [halignment]; decide)
  rw [halignment] at hmod
  have hentry := hread.fileOffset_eq
  have hinfo := hread.relocationType_eq
  rw [htype] at hinfo
  have hlow : ∀ a, a ≤ 4 → rVpu32 % 256 ^ a =
      littleEndian layout.blob.data (relocation.fileOffset + 8) a := by
    intro a ha
    have h8 := littleEndian_mod layout.blob.data (relocation.fileOffset + 8) a (8 - a)
    rw [show a + (8 - a) = 8 by omega] at h8
    rw [hinfo, ← h8, show (2 : ℕ) ^ 32 = 256 ^ a * 256 ^ (4 - a) by
      rw [← Nat.pow_add, show a + (4 - a) = 4 by omega]
      rfl]
    exact Nat.mod_mul_right_mod _ _ _
  -- at each position the type would be an ELF header field that is not `R_VPU_32`
  have hcases : relocation.fileOffset = 0 ∨ relocation.fileOffset = 8 ∨
      relocation.fileOffset = 16 ∨ relocation.fileOffset = 24 ∨ relocation.fileOffset = 32 ∨
      relocation.fileOffset = 40 := by omega
  have hheader := h.header
  rcases hcases with h0 | h0 | h0 | h0 | h0 | h0
  · have := hlow 1 (by omega)
    rw [h0, hheader.abiVersion] at this
    exact absurd this (by decide)
  · have := hlow 2 (by omega)
    rw [h0, hheader.type] at this
    exact absurd this (by decide)
  · rw [h0, hheader.entry] at hinfo
    exact absurd hinfo (by decide)
  · rw [h0, hheader.programTableOffset] at hinfo
    exact absurd hinfo (by decide)
  · rw [h0, hheader.sectionTableOffset] at hinfo
    exact absurd hinfo (by decide)
  · have := hlow 4 le_rfl
    rw [h0, hheader.flags] at this
    exact absurd this (by decide)

/-! ## The fields of the targets -/

/-- Where the fields of a planned detail are. -/
structure PatchDetail.Placed (layout : GraphLayout) (detail : PatchDetail) : Prop where
  ranges_behind : 64 + layout.sections.length * 64 ≤ layout.ranges.offset
  relocations_behind : 64 + layout.sections.length * 64 ≤ layout.rangeRelocations.offset
  range_lt : detail.rangeIndex < layout.ranges.size / 0x18
  extent_eq : detail.extentFileOffset = layout.ranges.offset + detail.rangeIndex * 0x18 + 0x0c
  addend_eq : ∃ entry < layout.rangeRelocations.size / 0x18,
    detail.addendFileOffset = layout.rangeRelocations.offset + entry * 0x18 + 16

theorem PatchDetail.Planned.placed (h : layout.Valid) {detail : PatchDetail}
    (hplanned : detail.Planned layout) : detail.Placed layout := by
  obtain ⟨hvalid, relocation, -, -, hwanted, ⟨entry, -, hread⟩, haddend, -⟩ := hplanned
  refine ⟨hvalid.range.behind_table h, ?_, hvalid.range.lt, hvalid.extent_eq, entry,
    hread.entry_lt, ?_⟩
  · exact hread.behind_table h h.carrier.rangeRelocations_alignment
      (isRangeRelocation_iff.1 hwanted).2.1
  · rw [haddend, hread.fileOffset_eq]
    rfl

namespace PatchDetail.Placed

variable {detail detail' : PatchDetail}

theorem extent_le (h : layout.Valid) (hd : detail.Placed layout) :
    detail.extentFileOffset + 0x0c ≤ layout.ranges.offset + layout.ranges.size := by
  have := hd.range_lt
  have := hd.extent_eq
  have := h.carrier.ranges_size
  omega

theorem addend_le (h : layout.Valid) (hd : detail.Placed layout) :
    layout.rangeRelocations.offset + 16 ≤ detail.addendFileOffset ∧
      detail.addendFileOffset + 8 ≤
        layout.rangeRelocations.offset + layout.rangeRelocations.size := by
  obtain ⟨entry, hentry, heq⟩ := hd.addend_eq
  have := h.carrier.rangeRelocations_size
  omega

theorem ranges_file (h : layout.Valid) (hd : detail.Placed layout) :
    layout.ranges.FileBacked := by
  refine ⟨by rw [h.carrier.ranges_type]; decide, ?_⟩
  have := hd.range_lt
  omega

theorem relocations_file (h : layout.Valid) (hd : detail.Placed layout) :
    layout.rangeRelocations.FileBacked := by
  refine ⟨by rw [h.carrier.rangeRelocations_type]; decide, ?_⟩
  obtain ⟨entry, hentry, -⟩ := hd.addend_eq
  omega

/-- `ActKernelRanges` and its relocations are two sections. -/
theorem sections_ne (h : layout.Valid) : layout.rangesIndex ≠ layout.rangeRelocationsIndex := by
  intro heq
  have h1 := h.carrier.ranges_type
  have h2 := h.carrier.rangeRelocations_type
  rw [GraphLayout.rangeRelocations, ← heq, ← GraphLayout.ranges, h1] at h2
  exact absurd h2 (by decide)

/-- Extents and addends do not overlap. -/
theorem extent_addend (h : layout.Valid) (hd : detail.Placed layout) (hd' : detail'.Placed layout) :
    detail.extentFileOffset + 4 ≤ detail'.addendFileOffset ∨
      detail'.addendFileOffset + 8 ≤ detail.extentFileOffset := by
  have hdisjoint := h.disjoint h.located.ranges.lt h.located.rangeRelocations.lt (sections_ne h)
    (hd.ranges_file h) (hd'.relocations_file h)
  have h1 := hd.extent_le h
  have h2 := hd.extent_eq
  have h3 := hd'.addend_le h
  rw [GraphSection.Disjoint, ← GraphLayout.ranges, ← GraphLayout.rangeRelocations] at hdisjoint
  omega

end PatchDetail.Placed

/-! ## The gap -/

namespace PatchPlan

variable {plan : PatchPlan} {image : View} {imageAlignment tailPadding : ℕ}

theorem Of.text_le_base (hplan : plan.Of layout image imageAlignment tailPadding) :
    layout.text.size ≤ plan.imageBase :=
  le_of_alignUp hplan.imageBase_eq

theorem Of.insertion_le (h : layout.Valid)
    (hplan : plan.Of layout image imageAlignment tailPadding) :
    plan.insertionFileOffset ≤ layout.blob.size := by
  rw [hplan.insertion_eq]
  exact h.text_in_file

theorem gapped_shift (h : layout.Valid) (hplan : plan.Of layout image imageAlignment tailPadding)
    {i : ℕ} (hi : i < layout.blob.size) :
    plan.gapped layout layout.text.offset image (plan.shift i) = layout.blob.data i := by
  have hbase := hplan.text_le_base
  have himage := hplan.image_le
  have hinsertion := hplan.insertion_eq
  have hle := hplan.insertion_le h
  unfold gapped shift
  split_ifs with hge
  · rw [overlay_of_outside (by omega), overlay_of_inside (by omega) (by omega)]
    congr 1
    omega
  · rw [overlay_of_outside (by omega), overlay_of_outside (by omega),
      overlay_of_inside (by omega) (by omega)]
    rfl

theorem gapped_gap (hplan : plan.Of layout image imageAlignment tailPadding) {k : ℕ}
    (hk : k < plan.insertedSize) :
    plan.gapped layout layout.text.offset image (plan.insertionFileOffset + k) =
      if plan.imageBase ≤ layout.text.size + k ∧
          layout.text.size + k < plan.imageBase + image.size then
        image.data (layout.text.size + k - plan.imageBase)
      else 0 := by
  have hinsertion := hplan.insertion_eq
  unfold gapped
  split_ifs with hin
  · rw [overlay_of_inside (by omega) (by omega)]
    congr 1
    omega
  · rw [overlay_of_outside (by omega), overlay_of_outside (by omega),
      overlay_of_outside (by omega)]

/-! ## The headers -/

/-- Position `p` is in a field that is written in the header of section `i`. -/
def HeaderField (kernelTextIndex tableOffset i p : ℕ) : Prop :=
  (tableOffset + i * 64 + 0x18 ≤ p ∧ p < tableOffset + i * 64 + 0x20) ∨
    (i = kernelTextIndex ∧ tableOffset + i * 64 + 0x20 ≤ p ∧ p < tableOffset + i * 64 + 0x28)

variable {kernelTextIndex tableOffset : ℕ}

theorem writeHeader_of_not {i p : ℕ} (sec : GraphSection) (m : ℕ → UInt8)
    (h : ¬HeaderField kernelTextIndex tableOffset i p) :
    plan.writeHeader kernelTextIndex tableOffset i sec m p = m p := by
  unfold HeaderField at h
  unfold writeHeader
  split_ifs with hi
  · rw [store_of_outside (by omega), store_of_outside (by omega)]
  · rw [store_of_outside (by omega)]

theorem writeHeaders_of_not {p : ℕ} :
    ∀ (sections : List GraphSection) (index : ℕ) (m : ℕ → UInt8),
      (∀ i, index ≤ i → i < index + sections.length →
        ¬HeaderField kernelTextIndex tableOffset i p) →
      plan.writeHeaders kernelTextIndex tableOffset index sections m p = m p
  | [], _, _, _ => rfl
  | sec :: rest, index, m, h => by
    rw [writeHeaders, writeHeaders_of_not rest (index + 1) _ fun i hi hi' =>
      h i (by omega) (by rw [List.length_cons]; omega)]
    exact writeHeader_of_not sec m (h index le_rfl (by rw [List.length_cons]; omega))

theorem writeHeaders_field (plan : PatchPlan) {p : ℕ} :
    ∀ (sections : List GraphSection) (index : ℕ) (m : ℕ → UInt8) (i : ℕ),
      i < sections.length → HeaderField kernelTextIndex tableOffset (index + i) p →
      ∃ m', plan.writeHeaders kernelTextIndex tableOffset index sections m p =
        plan.writeHeader kernelTextIndex tableOffset (index + i) (secOf sections i) m' p
  | [], _, _, _, hi, _ => absurd hi (Nat.not_lt_zero _)
  | sec :: rest, index, m, 0, _, hp => by
    refine ⟨m, ?_⟩
    rw [writeHeaders, writeHeaders_of_not rest (index + 1) _ fun j hj _ => ?_]
    · rfl
    · unfold HeaderField at hp ⊢
      omega
  | sec :: rest, index, m, i + 1, hi, hp => by
    rw [show index + (i + 1) = index + 1 + i by omega] at hp ⊢
    exact plan.writeHeaders_field rest (index + 1) _ i (by simpa using hi) hp

/-! ## Positions -/

theorem le_shift (plan : PatchPlan) (i : ℕ) : i ≤ plan.shift i := by
  unfold shift
  split_ifs <;> omega

theorem shift_lt_shift {i j : ℕ} (h : i < j) : plan.shift i < plan.shift j := by
  unfold shift
  split_ifs <;> omega

theorem shift_add_le_shift (plan : PatchPlan) {i j k : ℕ} (h : i + k ≤ j) :
    plan.shift i + k ≤ plan.shift j := by
  unfold shift
  split_ifs <;> omega

/-- The shifted bytes of a run that the insertion point does not cross are a run. -/
theorem shift_add_of_apart {start size k : ℕ}
    (h : plan.insertionFileOffset ≤ start ∨ start + size ≤ plan.insertionFileOffset)
    (hk : k < size) : plan.shift (start + k) = plan.shift start + k := by
  unfold shift
  split_ifs <;> omega

/-- The gap leaves the section table where it is. -/
def TableFixed (plan : PatchPlan) (layout : GraphLayout) : Prop :=
  plan.insertedSize = 0 ∨ 64 + layout.sections.length * 64 ≤ plan.insertionFileOffset

theorem TableFixed.shift_eq (h : plan.TableFixed layout) {i : ℕ}
    (hi : i < 64 + layout.sections.length * 64) : plan.shift i = i := by
  unfold TableFixed at h
  unfold shift
  split_ifs <;> omega

end PatchPlan

/-! ## The output -/

open PatchPlan

/-- The bytes of the output, once the target fields fit. -/
def patchedData (layout : GraphLayout) (plan : PatchPlan) (image : View)
    (details : List PatchDetail) : ℕ → UInt8 :=
  details.foldl (fun m detail => plan.writeTarget image.size detail m)
    (plan.writeHeaders layout.kernelTextIndex (plan.shift layout.sectionTableOffset) 0
      layout.sections
      (store (plan.gapped layout layout.text.offset image) 0x28 8
        (plan.shift layout.sectionTableOffset)))

/-- The output, once the target fields fit. -/
def patchedView (layout : GraphLayout) (plan : PatchPlan) (image : View)
    (details : List PatchDetail) : View :=
  { data := patchedData layout plan image details, size := plan.outputSize,
    size_le := plan.outputSize_le }

/-- The image fits the extent and addend fields of the targets, if there are any. -/
def FieldsFit (plan : PatchPlan) (image : View) (details : List PatchDetail) : Prop :=
  details = [] ∨ image.size ≤ uint32Max ∧ plan.imageBase ≤ int64Max

theorem writeTargets_eq_ok_iff {plan : PatchPlan} {image : View} :
    ∀ (details : List PatchDetail) (m m' : ℕ → UInt8),
      plan.writeTargets image.size details m = .ok m' ↔ FieldsFit plan image details ∧
        details.foldl (fun m detail => plan.writeTarget image.size detail m) m = m'
  | [], m, m' => by simp [writeTargets, FieldsFit]
  | detail :: rest, m, m' => by
    rw [writeTargets, refuseIf_bind_eq_ok_iff, writeTargets_eq_ok_iff rest, List.foldl_cons]
    simp only [FieldsFit, not_or, Nat.not_lt, reduceCtorEq, false_or]
    tauto

theorem writePatch_eq_ok_iff (h : layout.Valid) {plan : PatchPlan} {image : View}
    {details : List PatchDetail} {output : View} :
    writePatch layout plan image details = .ok output ↔
      FieldsFit plan image details ∧ patchedView layout plan image details = output := by
  unfold writePatch
  rw [h.sectionAt_text, ok_bind, bind_eq_ok_iff]
  simp only [writeTargets_eq_ok_iff, Except.ok.injEq]
  constructor
  · rintro ⟨_, ⟨hfit, rfl⟩, rfl⟩
    exact ⟨hfit, rfl⟩
  · rintro ⟨hfit, rfl⟩
    exact ⟨_, ⟨hfit, rfl⟩, rfl⟩

/-- The input positions whose bytes the patch may change. -/
def Written (layout : GraphLayout) (details : List PatchDetail) (i : ℕ) : Prop :=
  (∃ k < layout.sections.length, HeaderField layout.kernelTextIndex 64 k i) ∨
    ∃ detail ∈ details, (detail.extentFileOffset ≤ i ∧ i < detail.extentFileOffset + 4) ∨
      (detail.addendFileOffset ≤ i ∧ i < detail.addendFileOffset + 8)

section Output

variable {plan : PatchPlan} {image : View} {imageAlignment tailPadding : ℕ}
  {details : List PatchDetail}

theorem writeTarget_of_outside {imageSize p : ℕ} {detail : PatchDetail} (m : ℕ → UInt8)
    (hextent : p < plan.shift detail.extentFileOffset ∨
      plan.shift detail.extentFileOffset + 4 ≤ p)
    (haddend : p < plan.shift detail.addendFileOffset ∨
      plan.shift detail.addendFileOffset + 8 ≤ p) :
    plan.writeTarget imageSize detail m p = m p := by
  rw [writeTarget, store_of_outside haddend, store_of_outside hextent]

/-- Outside the fields of the targets. -/
theorem patchedData_of_outside {p : ℕ}
    (hextent : ∀ detail ∈ details, p < plan.shift detail.extentFileOffset ∨
      plan.shift detail.extentFileOffset + 4 ≤ p)
    (haddend : ∀ detail ∈ details, p < plan.shift detail.addendFileOffset ∨
      plan.shift detail.addendFileOffset + 8 ≤ p) :
    patchedData layout plan image details p =
      plan.writeHeaders layout.kernelTextIndex (plan.shift layout.sectionTableOffset) 0
        layout.sections (store (plan.gapped layout layout.text.offset image) 0x28 8
          (plan.shift layout.sectionTableOffset)) p :=
  foldl_of_keeps _ fun detail hdetail m =>
    writeTarget_of_outside m (hextent detail hdetail) (haddend detail hdetail)

variable (h : layout.Valid) (hplan : plan.Of layout image imageAlignment tailPadding)
  (hplaced : ∀ detail ∈ details, detail.Placed layout)

include h hplaced in
/-- Before the end of the section table there are header fields only. -/
theorem patchedData_of_lt_table {p : ℕ} (hp : p < 64 + layout.sections.length * 64) :
    patchedData layout plan image details p =
      plan.writeHeaders layout.kernelTextIndex (plan.shift layout.sectionTableOffset) 0
        layout.sections (store (plan.gapped layout layout.text.offset image) 0x28 8
          (plan.shift layout.sectionTableOffset)) p := by
  refine patchedData_of_outside (fun detail hdetail => ?_) fun detail hdetail => ?_
  · have hd := hplaced detail hdetail
    have := hd.ranges_behind
    have := hd.extent_eq
    have := plan.le_shift detail.extentFileOffset
    omega
  · have hd := hplaced detail hdetail
    have := hd.relocations_behind
    have := (hd.addend_le h).1
    have := plan.le_shift detail.addendFileOffset
    omega

include h hplaced in
/-- The output says where its section table is. -/
theorem patchedData_tableOffset (hpos : 0 < layout.sections.length) :
    littleEndian (patchedData layout plan image details) 0x28 8 =
      plan.shift 64 % 2 ^ 64 := by
  have hshift := plan.le_shift 64
  refine littleEndian_byteOf (v := plan.shift 64) fun k hk => ?_
  rw [patchedData_of_lt_table h hplaced (by omega), writeHeaders_of_not _ _ _ fun i _ _ => ?_,
    h.tableOffset, store, overlay_add hk]
  unfold HeaderField
  rw [h.tableOffset]
  omega

include h hplan in
/-- A byte that is in no written field is found at its shifted position. -/
theorem patchedData_shift (hfixed : plan.TableFixed layout) {i : ℕ} (hi : i < layout.blob.size)
    (hwritten : ¬Written layout details i) :
    patchedData layout plan image details (plan.shift i) = layout.blob.data i := by
  simp only [Written, not_or, not_exists, not_and, Nat.not_lt] at hwritten
  obtain ⟨hheader, htarget⟩ := hwritten
  have hle := plan.le_shift i
  have htable : plan.shift layout.sectionTableOffset = 64 := by
    rw [h.tableOffset]
    exact hfixed.shift_eq (by have := h.count_pos; omega)
  rw [patchedData_of_outside, htable, writeHeaders_of_not]
  · by_cases hfield : 0x28 ≤ plan.shift i ∧ plan.shift i < 0x30
    · have hsame : plan.shift i = i := hfixed.shift_eq (by omega)
      rw [hsame] at hfield ⊢
      rw [store, overlay_of_inside hfield.1 (by omega), ← h.header.sectionTableOffset,
        byteOf_littleEndian _ (by omega)]
      congr 1
      omega
    · rw [store_of_outside (by omega), gapped_shift h hplan hi]
  · intro k _ hk
    rw [Nat.zero_add] at hk
    by_cases hlt : i < 64 + layout.sections.length * 64
    · rw [hfixed.shift_eq hlt]
      exact hheader k hk
    · unfold HeaderField
      omega
  · intro detail hdetail
    by_cases hlt : i < detail.extentFileOffset
    · exact Or.inl (shift_lt_shift hlt)
    · exact Or.inr (plan.shift_add_le_shift ((htarget detail hdetail).1 (by omega)))
  · intro detail hdetail
    by_cases hlt : i < detail.addendFileOffset
    · exact Or.inl (shift_lt_shift hlt)
    · exact Or.inr (plan.shift_add_le_shift ((htarget detail hdetail).2 (by omega)))

include hplan in
/-- The sections of the targets are apart from the insertion point. -/
theorem apart_of_fileBacked {index : ℕ} (hindex : index < layout.sections.length)
    (htype : (layout.sec index).type ≠ shtNobits) (hsize : (layout.sec index).size ≠ 0) :
    plan.insertionFileOffset ≤ (layout.sec index).offset ∨
      (layout.sec index).offset + (layout.sec index).size ≤ plan.insertionFileOffset := by
  by_cases heq : index = layout.kernelTextIndex
  · subst heq
    refine Or.inr ?_
    rw [hplan.insertion_eq]
    exact le_rfl
  · exact hplan.apart index hindex heq ⟨htype, hsize⟩

include h hplan hplaced in
/-- The gap holds the image and zeros. -/
theorem patchedData_gap (hfixed : plan.TableFixed layout) {k : ℕ} (hk : k < plan.insertedSize) :
    patchedData layout plan image details (plan.insertionFileOffset + k) =
      if plan.imageBase ≤ layout.text.size + k ∧
          layout.text.size + k < plan.imageBase + image.size then
        image.data (layout.text.size + k - plan.imageBase)
      else 0 := by
  have htableLe : 64 + layout.sections.length * 64 ≤ plan.insertionFileOffset :=
    hfixed.resolve_left (by omega)
  have htable : plan.shift layout.sectionTableOffset = 64 := by
    rw [h.tableOffset]
    exact hfixed.shift_eq (by have := h.count_pos; omega)
  -- a field of a section apart from the insertion point is not in the gap
  have hfield : ∀ {start size offset n : ℕ}, plan.insertionFileOffset ≤ start ∨
      start + size ≤ plan.insertionFileOffset → start ≤ offset → offset + n ≤ start + size →
      plan.insertionFileOffset + k < plan.shift offset ∨
        plan.shift offset + n ≤ plan.insertionFileOffset + k := by
    intro start size offset n hapart hle hle'
    unfold shift
    split_ifs <;> omega
  rw [patchedData_of_outside, htable, writeHeaders_of_not, store_of_outside (by omega),
    gapped_gap hplan hk]
  · intro i _ hi
    unfold HeaderField
    omega
  · intro detail hdetail
    have hd := hplaced detail hdetail
    have hfile := hd.ranges_file h
    have hle := hd.extent_le h
    have heq := hd.extent_eq
    exact hfield (apart_of_fileBacked hplan h.located.ranges.lt hfile.1 hfile.2)
      (by rw [← GraphLayout.ranges]; omega) (by rw [← GraphLayout.ranges]; omega)
  · intro detail hdetail
    have hd := hplaced detail hdetail
    have hfile := hd.relocations_file h
    have hle := hd.addend_le h
    exact hfield (apart_of_fileBacked hplan h.located.rangeRelocations.lt hfile.1 hfile.2)
      (by rw [← GraphLayout.rangeRelocations]; omega)
      (by rw [← GraphLayout.rangeRelocations]; omega)

/-! ## The fields of the targets in the output -/

include hplaced in
theorem extent_apart {d d' : PatchDetail} (hd : d ∈ details) (hd' : d' ∈ details) :
    d'.extentFileOffset = d.extentFileOffset ∨ d.extentFileOffset + 4 ≤ d'.extentFileOffset ∨
      d'.extentFileOffset + 4 ≤ d.extentFileOffset := by
  have h1 := (hplaced d hd).extent_eq
  have h2 := (hplaced d' hd').extent_eq
  omega

include hplaced in
theorem addend_apart {d d' : PatchDetail} (hd : d ∈ details) (hd' : d' ∈ details) :
    d'.addendFileOffset = d.addendFileOffset ∨ d.addendFileOffset + 8 ≤ d'.addendFileOffset ∨
      d'.addendFileOffset + 8 ≤ d.addendFileOffset := by
  obtain ⟨i, -, h1⟩ := (hplaced d hd).addend_eq
  obtain ⟨j, -, h2⟩ := (hplaced d' hd').addend_eq
  omega

include h hplaced in
/-- The extent field of a target holds the size of the image. -/
theorem patchedData_extent {detail : PatchDetail} (hdetail : detail ∈ details) {k : ℕ}
    (hk : k < 4) :
    patchedData layout plan image details (plan.shift detail.extentFileOffset + k) =
      byteOf image.size k := by
  have hown : ∀ d ∈ details, plan.shift detail.extentFileOffset + k <
      plan.shift d.addendFileOffset ∨
        plan.shift d.addendFileOffset + 8 ≤ plan.shift detail.extentFileOffset + k := by
    intro d hd
    rcases (hplaced detail hdetail).extent_addend h (hplaced d hd) with hle | hle
    all_goals
      have := plan.shift_add_le_shift hle
      omega
  have hset : ∀ m, plan.writeTarget image.size detail m
      (plan.shift detail.extentFileOffset + k) = byteOf image.size k := by
    intro m
    rw [writeTarget, store_of_outside (hown detail hdetail), store, overlay_add hk]
  refine foldl_eq_of_writes _ (fun d hd => ?_) (Or.inr ⟨detail, hdetail, hset⟩)
  rcases extent_apart hplaced hdetail hd with heq | hle | hle
  · refine Or.inr fun m => ?_
    rw [writeTarget, store_of_outside (hown d hd), heq, store, overlay_add hk]
  all_goals
    have := plan.shift_add_le_shift hle
    exact Or.inl fun m => writeTarget_of_outside m (by omega) (hown d hd)

include h hplaced in
/-- The addend field of a target holds the position of the image. -/
theorem patchedData_addend {detail : PatchDetail} (hdetail : detail ∈ details) {k : ℕ}
    (hk : k < 8) :
    patchedData layout plan image details (plan.shift detail.addendFileOffset + k) =
      byteOf plan.imageBase k := by
  have hown : ∀ d ∈ details, plan.shift detail.addendFileOffset + k <
      plan.shift d.extentFileOffset ∨
        plan.shift d.extentFileOffset + 4 ≤ plan.shift detail.addendFileOffset + k := by
    intro d hd
    rcases (hplaced d hd).extent_addend h (hplaced detail hdetail) with hle | hle
    all_goals
      have := plan.shift_add_le_shift hle
      omega
  have hset : ∀ m, plan.writeTarget image.size detail m
      (plan.shift detail.addendFileOffset + k) = byteOf plan.imageBase k := by
    intro m
    rw [writeTarget, store, overlay_add hk]
  refine foldl_eq_of_writes _ (fun d hd => ?_) (Or.inr ⟨detail, hdetail, hset⟩)
  rcases addend_apart hplaced hdetail hd with heq | hle | hle
  · refine Or.inr fun m => ?_
    rw [writeTarget, heq, store, overlay_add hk]
  all_goals
    have := plan.shift_add_le_shift hle
    exact Or.inl fun m => writeTarget_of_outside m (hown d hd) (by omega)

end Output

/-! ## The section headers of the output -/

/-- Section `index` of the output. -/
def PatchPlan.moveSection (plan : PatchPlan) (kernelTextIndex index : ℕ) (sec : GraphSection) :
    GraphSection :=
  { sec with
    offset := plan.newOffset sec
    size := if index = kernelTextIndex then plan.newTextSize else sec.size }

section Headers

variable {plan : PatchPlan} {image : View} {imageAlignment tailPadding : ℕ}
  {details : List PatchDetail}

theorem PatchPlan.newOffset_lt (plan : PatchPlan) {sec : GraphSection}
    (hsec : sec.offset < 2 ^ 64) : plan.newOffset sec < 2 ^ 64 := by
  unfold PatchPlan.newOffset
  split_ifs
  · exact Nat.mod_lt _ (by decide)
  · exact hsec

theorem sec_offset_eq (h : layout.Valid) {i : ℕ} (hi : i < layout.sections.length) :
    (layout.sec i).offset = (headerAt layout.blob i).offset := by
  rw [← h.eq_headerAt i hi]

theorem PatchPlan.Of.newTextSize_lt (h : layout.Valid)
    (hplan : plan.Of layout image imageAlignment tailPadding) : plan.newTextSize < 2 ^ 64 := by
  have hin := h.text_in_file
  have hout := plan.outputSize_le
  rw [hplan.outputSize_eq] at hout
  rw [hplan.newTextSize_eq]
  unfold sizeMax at hout
  omega

/-- The headers of the output are those of the input with the new offsets and the new
size of `KernelText`. -/
theorem headerAt_patched (h : layout.Valid)
    (hplan : plan.Of layout image imageAlignment tailPadding)
    (hplaced : ∀ detail ∈ details, detail.Placed layout) (hfixed : plan.TableFixed layout) {i : ℕ}
    (hi : i < layout.sections.length) :
    headerAt (patchedView layout plan image details) i =
      plan.moveSection layout.kernelTextIndex i (headerAt layout.blob i) := by
  have htable : plan.shift layout.sectionTableOffset = 64 := by
    rw [h.tableOffset]
    exact hfixed.shift_eq (by have := h.count_pos; omega)
  have hblob := h.table_le
  -- a header field that is not written
  have hkeep : ∀ f n, f + n ≤ 64 → (∀ k < n, ¬HeaderField layout.kernelTextIndex 64 i
      (64 + i * 64 + f + k)) →
      littleEndian (patchedData layout plan image details) (64 + i * 64 + f) n =
        littleEndian layout.blob.data (64 + i * 64 + f) n := by
    intro f n hf hnot
    refine littleEndian_congr fun k hk => ?_
    have hpos : 64 + i * 64 + f + k < 64 + layout.sections.length * 64 := by omega
    rw [← hfixed.shift_eq hpos]
    rw [patchedData_shift h hplan hfixed (by omega), hfixed.shift_eq hpos]
    rintro (⟨j, hj, hfield⟩ | ⟨detail, hdetail, hin⟩)
    · by_cases hij : j = i
      · rw [hij] at hfield
        exact hnot k hk hfield
      · unfold HeaderField at hfield
        omega
    · have hd := hplaced detail hdetail
      have := hd.ranges_behind
      have := hd.relocations_behind
      have := hd.extent_eq
      have := (hd.addend_le h).1
      omega
  have hfieldByte : ∀ p, HeaderField layout.kernelTextIndex 64 i p →
      ∃ m, patchedData layout plan image details p =
        plan.writeHeader layout.kernelTextIndex 64 i (layout.sec i) m p := by
    intro p hp
    have hlt : p < 64 + layout.sections.length * 64 := by
      unfold HeaderField at hp
      omega
    rw [patchedData_of_lt_table h hplaced hlt, htable]
    obtain ⟨m, hm⟩ := plan.writeHeaders_field layout.sections 0 _ i hi
      (by rwa [Nat.zero_add])
    rw [Nat.zero_add] at hm
    exact ⟨m, hm⟩
  have hoffset : littleEndian (patchedData layout plan image details) (64 + i * 64 + 0x18) 8 =
      plan.newOffset (layout.sec i) := by
    have hlt := plan.newOffset_lt (by
      rw [sec_offset_eq h hi]
      exact headerAt_offset_lt _ _)
    rw [← Nat.mod_eq_of_lt hlt]
    refine littleEndian_byteOf (n := 8) fun k hk => ?_
    obtain ⟨m, hm⟩ := hfieldByte (64 + i * 64 + 0x18 + k) (by unfold HeaderField; omega)
    rw [hm, writeHeader]
    split_ifs
    · rw [store_of_outside (by omega), store, overlay_add hk]
    · rw [store, overlay_add hk]
  have hsize : littleEndian (patchedData layout plan image details) (64 + i * 64 + 0x20) 8 =
      if i = layout.kernelTextIndex then plan.newTextSize
      else littleEndian layout.blob.data (64 + i * 64 + 0x20) 8 := by
    split_ifs with heq
    · rw [← Nat.mod_eq_of_lt (hplan.newTextSize_lt h)]
      refine littleEndian_byteOf (n := 8) fun k hk => ?_
      obtain ⟨m, hm⟩ := hfieldByte (64 + i * 64 + 0x20 + k) (by unfold HeaderField; omega)
      rw [hm, writeHeader, if_pos heq, store, overlay_add hk]
    · refine hkeep 0x20 8 (by omega) fun k hk => ?_
      unfold HeaderField
      omega
  have hnewOffset : plan.newOffset (layout.sec i) = plan.newOffset (headerAt layout.blob i) := by
    unfold PatchPlan.newOffset
    rw [sec_offset_eq h hi]
  have hnot : ∀ f n, f + n ≤ 0x18 ∨ 0x28 ≤ f → ∀ k < n,
      ¬HeaderField layout.kernelTextIndex 64 i (64 + i * 64 + f + k) := by
    intro f n hf k hk
    unfold HeaderField
    omega
  simp only [headerAt, PatchPlan.moveSection, patchedView, GraphSection.mk.injEq]
  refine ⟨hkeep 4 4 (by omega) (hnot 4 4 (by omega)), hkeep 8 8 (by omega) (hnot 8 8 (by omega)),
    hkeep 0x10 8 (by omega) (hnot 0x10 8 (by omega)), ?_, hsize,
    hkeep 0x28 4 (by omega) (hnot 0x28 4 (by omega)),
    hkeep 0x2c 4 (by omega) (hnot 0x2c 4 (by omega)),
    hkeep 0x30 8 (by omega) (hnot 0x30 8 (by omega)),
    hkeep 0x38 8 (by omega) (hnot 0x38 8 (by omega)), trivial, trivial⟩
  rw [hoffset, hnewOffset]
  rfl

end Headers

end Npunlock
