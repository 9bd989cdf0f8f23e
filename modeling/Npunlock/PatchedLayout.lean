import Npunlock.PatchBytes
import Npunlock.RecodedDiscovery

/-!
# The output as a graph

`GraphLayout.Fits` says when the gap the planner chose leaves a graph that can be parsed :
the section table stays in its place, every section that moves stays aligned, and an empty
`KernelText`, which moves as well, lands clear of the other sections. Then the output is
`patchedLayout`, which is a recoding of the input (`recoded_patched`).
-/

namespace Npunlock

open View PatchPlan

variable {layout : GraphLayout} {plan : PatchPlan} {image : View}
  {imageAlignment tailPadding : ℕ} {details : List PatchDetail}

/-! ## When the gap fits -/

/-- An empty `KernelText` moves behind the gap it opens. Its new extent has to be in the
file and clear of the sections there. -/
structure GraphLayout.EmptyTextFits (layout : GraphLayout) (gap : ℕ) : Prop where
  in_file : layout.text.offset + gap ≤ layout.blob.size
  apart : ∀ i < layout.sections.length, i ≠ layout.kernelTextIndex → (layout.sec i).FileBacked →
    layout.text.offset ≤ (layout.sec i).offset →
      layout.text.offset + gap ≤ (layout.sec i).offset

/-- A gap of `gap > 0` bytes behind `KernelText` leaves a graph. -/
structure GraphLayout.FitsGap (layout : GraphLayout) (gap : ℕ) : Prop where
  behind : 64 < layout.text.offset + layout.text.size
  aligned : ∀ i < layout.sections.length,
    layout.text.offset + layout.text.size ≤ (layout.sec i).offset →
      1 < (layout.sec i).alignment → (layout.sec i).alignment ∣ gap
  emptyText : layout.text.size = 0 → layout.EmptyTextFits gap

/-- There is no gap, or it leaves a graph. -/
def GraphLayout.Fits (layout : GraphLayout) (gap : ℕ) : Prop :=
  gap = 0 ∨ layout.FitsGap gap

instance (layout : GraphLayout) (gap : ℕ) : Decidable (layout.EmptyTextFits gap) :=
  decidable_of_iff (layout.text.offset + gap ≤ layout.blob.size ∧
      ∀ i < layout.sections.length, i ≠ layout.kernelTextIndex →
        ((layout.sec i).type ≠ shtNobits ∧ (layout.sec i).size ≠ 0) →
          layout.text.offset ≤ (layout.sec i).offset →
            layout.text.offset + gap ≤ (layout.sec i).offset)
    ⟨fun h => ⟨h.1, h.2⟩, fun h => ⟨h.1, h.2⟩⟩

instance (layout : GraphLayout) (gap : ℕ) : Decidable (layout.FitsGap gap) :=
  decidable_of_iff (64 < layout.text.offset + layout.text.size ∧
      (∀ i < layout.sections.length,
        layout.text.offset + layout.text.size ≤ (layout.sec i).offset →
          1 < (layout.sec i).alignment → (layout.sec i).alignment ∣ gap) ∧
      (layout.text.size = 0 → layout.EmptyTextFits gap))
    ⟨fun h => ⟨h.1, h.2.1, h.2.2⟩, fun h => ⟨h.1, h.2, h.3⟩⟩

instance (layout : GraphLayout) (gap : ℕ) : Decidable (layout.Fits gap) :=
  inferInstanceAs (Decidable (gap = 0 ∨ layout.FitsGap gap))

theorem GraphLayout.Fits.tableFixed (hfits : layout.Fits plan.insertedSize)
    (hplan : plan.Of layout image imageAlignment tailPadding) : plan.TableFixed layout := by
  rcases hfits with hzero | hgap
  · exact Or.inl hzero
  · have := hgap.behind
    have := hplan.table
    have := hplan.insertion_eq
    exact Or.inr (by omega)

/-! ## New offsets -/

/-- A section in the file goes where its first byte goes. -/
theorem newOffset_eq_shift (hplan : plan.Of layout image imageAlignment tailPadding)
    (hfixed : plan.TableFixed layout) {sec : GraphSection}
    (hin : sec.offset ≤ layout.blob.size) : plan.newOffset sec = plan.shift sec.offset := by
  have hout := plan.outputSize_le
  rw [hplan.outputSize_eq] at hout
  unfold sizeMax at hout
  unfold TableFixed at hfixed
  unfold PatchPlan.newOffset shift
  by_cases hge : plan.insertionFileOffset ≤ sec.offset
  · by_cases hzero : sec.offset = 0
    · rw [if_neg (by simp [hzero]), if_pos hge]
      omega
    · rw [if_pos ⟨hge, hzero⟩, if_pos hge, Nat.mod_eq_of_lt (by omega)]
  · rw [if_neg (by omega), if_neg hge]

/-- The new offset of a section is aligned if the shift is. -/
theorem newOffset_mod (h : layout.Valid) {i : ℕ} (hi : i < layout.sections.length)
    (halign : 1 < (layout.sec i).alignment)
    (hdvd : plan.insertionFileOffset ≤ (layout.sec i).offset → (layout.sec i).offset ≠ 0 →
      (layout.sec i).alignment ∣ plan.insertedSize) :
    plan.newOffset (layout.sec i) % (layout.sec i).alignment = 0 := by
  have hmod := h.mod_alignment hi halign
  unfold PatchPlan.newOffset
  split_ifs with hge
  · have hpow := (h.fits i hi).powerOfTwo (by omega)
    have hlt : (layout.sec i).alignment < 2 ^ 64 := by
      have := headerAt_alignment_lt layout.blob i
      rwa [← h.eq_headerAt i hi] at this
    rw [Nat.mod_mod_of_dvd _ (dvd_two_pow_of_isPowerOfTwo hpow hlt)]
    exact Nat.mod_eq_zero_of_dvd
      (Nat.dvd_add (Nat.dvd_of_mod_eq_zero hmod) (hdvd hge.1 hge.2))
  · exact hmod

/-- The other direction : an aligned new offset needs an aligned shift. -/
theorem dvd_of_newOffset_mod (h : layout.Valid) {i : ℕ} (hi : i < layout.sections.length)
    (halign : 1 < (layout.sec i).alignment) (hge : plan.insertionFileOffset ≤ (layout.sec i).offset)
    (hne : (layout.sec i).offset ≠ 0)
    (hmod : plan.newOffset (layout.sec i) % (layout.sec i).alignment = 0) :
    (layout.sec i).alignment ∣ plan.insertedSize := by
  have hold := h.mod_alignment hi halign
  have hpow := (h.fits i hi).powerOfTwo (by omega)
  have hlt : (layout.sec i).alignment < 2 ^ 64 := by
    have := headerAt_alignment_lt layout.blob i
    rwa [← h.eq_headerAt i hi] at this
  rw [PatchPlan.newOffset, if_pos ⟨hge, hne⟩,
    Nat.mod_mod_of_dvd _ (dvd_two_pow_of_isPowerOfTwo hpow hlt)] at hmod
  exact (Nat.dvd_add_right (Nat.dvd_of_mod_eq_zero hold)).1 (Nat.dvd_of_mod_eq_zero hmod)

/-! ## The layout of the output -/

/-- The sections of the output. -/
def PatchPlan.moveSections (plan : PatchPlan) (kernelTextIndex : ℕ)
    (sections : List GraphSection) : List GraphSection :=
  sections.mapIdx (plan.moveSection kernelTextIndex)

@[simp] theorem PatchPlan.length_moveSections (plan : PatchPlan) (kernelTextIndex : ℕ)
    (sections : List GraphSection) :
    (plan.moveSections kernelTextIndex sections).length = sections.length := by
  simp [moveSections]

theorem PatchPlan.secOf_moveSections (plan : PatchPlan) (kernelTextIndex : ℕ)
    {sections : List GraphSection} {i : ℕ} (hi : i < sections.length) :
    secOf (plan.moveSections kernelTextIndex sections) i =
      plan.moveSection kernelTextIndex i (secOf sections i) := by
  simp [moveSections, secOf, hi]

/-- The layout of the output. -/
def patchedLayout (layout : GraphLayout) (plan : PatchPlan) (image : View)
    (details : List PatchDetail) : GraphLayout :=
  { layout with
    blob := patchedView layout plan image details
    sections := plan.moveSections layout.kernelTextIndex layout.sections }

@[simp] theorem length_patchedLayout :
    (patchedLayout layout plan image details).sections.length = layout.sections.length :=
  plan.length_moveSections _ _

theorem patchedLayout_sec {i : ℕ} (hi : i < layout.sections.length) :
    (patchedLayout layout plan image details).sec i =
      plan.moveSection layout.kernelTextIndex i (layout.sec i) :=
  plan.secOf_moveSections _ hi

theorem moveSection_text_size (plan : PatchPlan) (kernelTextIndex : ℕ) (sec : GraphSection) :
    (plan.moveSection kernelTextIndex kernelTextIndex sec).size = plan.newTextSize :=
  if_pos rfl

theorem patchedLayout_text (h : layout.Valid) :
    (patchedLayout layout plan image details).text =
      plan.moveSection layout.kernelTextIndex layout.kernelTextIndex layout.text :=
  patchedLayout_sec h.located.text.lt

section Output

variable (h : layout.Valid) (hplan : plan.Of layout image imageAlignment tailPadding)
  (hplaced : ∀ detail ∈ details, detail.Placed layout)

include h hplan in
/-- A section with bytes in the file moves as its bytes do. -/
theorem newOffset_add (hfixed : plan.TableFixed layout) {i k : ℕ}
    (hi : i < layout.sections.length) (htype : (layout.sec i).type ≠ shtNobits)
    (hk : k < (layout.sec i).size) :
    plan.newOffset (layout.sec i) + k = plan.shift ((layout.sec i).offset + k) := by
  have hin := h.in_file hi htype
  rw [newOffset_eq_shift hplan hfixed (by omega)]
  exact (shift_add_of_apart (apart_of_fileBacked hplan hi htype (by omega)) hk).symm

include h hplan in
/-- Sections that are in the file end in the output. -/
theorem newOffset_le (hfixed : plan.TableFixed layout) {i : ℕ}
    (hi : i < layout.sections.length) (htype : (layout.sec i).type ≠ shtNobits) :
    plan.newOffset (layout.sec i) + (layout.sec i).size ≤ plan.outputSize := by
  have hin := h.in_file hi htype
  rw [newOffset_eq_shift hplan hfixed (by omega), hplan.outputSize_eq]
  unfold shift
  split_ifs <;> omega

include h hplaced in
/-- A byte of a section is in a written field only if it is in the extent of a target, in
`ActKernelRanges`, or in the addend of one, in its relocations. -/
theorem not_written_of {i k : ℕ} (hi : i < layout.sections.length)
    (htype : (layout.sec i).type ≠ shtNobits) (hk : k < (layout.sec i).size)
    (hextent : i = layout.rangesIndex → ∀ detail ∈ details,
      k < detail.rangeIndex * 0x18 + 0x0c ∨ detail.rangeIndex * 0x18 + 0x10 ≤ k)
    (haddend : i = layout.rangeRelocationsIndex → ∀ detail ∈ details, ∀ entry,
      detail.addendFileOffset = layout.rangeRelocations.offset + entry * 0x18 + 16 →
        k < entry * 0x18 + 0x10 ∨ entry * 0x18 + 0x18 ≤ k) :
    ¬Written layout details ((layout.sec i).offset + k) := by
  have hfile : (layout.sec i).FileBacked := ⟨htype, by omega⟩
  have hbehind := h.before_or_behind hi hfile
  rintro (⟨j, hj, hfield⟩ | ⟨detail, hdetail, hin⟩)
  · unfold HeaderField at hfield
    omega
  have hd := hplaced detail hdetail
  rcases hin with hin | hin
  · have heq := hd.extent_eq
    have hle := hd.extent_le h
    by_cases hir : i = layout.rangesIndex
    · have hfree := hextent hir detail hdetail
      subst hir
      rw [← GraphLayout.ranges] at hin
      omega
    · have hdisjoint := h.disjoint hi h.located.ranges.lt hir hfile (hd.ranges_file h)
      rw [GraphSection.Disjoint, ← GraphLayout.ranges] at hdisjoint
      omega
  · obtain ⟨entry, hentry, heq⟩ := hd.addend_eq
    have hle := hd.addend_le h
    by_cases hir : i = layout.rangeRelocationsIndex
    · have hfree := haddend hir detail hdetail entry heq
      subst hir
      rw [← GraphLayout.rangeRelocations] at hin
      omega
    · have hdisjoint := h.disjoint hi h.located.rangeRelocations.lt hir hfile
        (hd.relocations_file h)
      rw [GraphSection.Disjoint, ← GraphLayout.rangeRelocations] at hdisjoint
      omega

include h hplaced in
/-- A kept byte of a section is in no written field. -/
theorem not_written {i k : ℕ} (hi : i < layout.sections.length)
    (htype : (layout.sec i).type ≠ shtNobits) (hk : k < (layout.sec i).size)
    (hkeeps : layout.Keeps i k) : ¬Written layout details ((layout.sec i).offset + k) := by
  refine not_written_of h hplaced hi htype hk (fun hir detail _ => ?_)
    fun hir detail _ entry _ => ?_
  · have := hkeeps.1 hir
    omega
  · have := hkeeps.2 hir
    omega

include h hplan in
/-- `KernelText` stays where it is, unless it is empty. -/
theorem newOffset_text (hfixed : plan.TableFixed layout) :
    plan.newOffset layout.text =
      if layout.text.size = 0 then plan.shift layout.text.offset else layout.text.offset := by
  have hin := h.text_in_file
  have hinsertion := hplan.insertion_eq
  rw [newOffset_eq_shift hplan hfixed (by omega)]
  split_ifs with hzero
  · rfl
  · exact if_neg (by omega)

include h hplan in
/-- The headers of the output pass the checks on headers. -/
theorem fits_patched (hfits : layout.Fits plan.insertedSize) {i : ℕ}
    (hi : i < layout.sections.length) :
    (plan.moveSection layout.kernelTextIndex i (layout.sec i)).Fits plan.outputSize := by
  have hfixed := hfits.tableFixed hplan
  have hinsertion := hplan.insertion_eq
  refine ⟨(h.fits i hi).powerOfTwo, fun halign => ?_, fun htype => ?_⟩
  · refine newOffset_mod h hi halign fun hge _ => ?_
    rcases hfits with hzero | hgap
    · rw [hzero]
      exact dvd_zero _
    · exact hgap.aligned i hi (by omega) halign
  · have hle := newOffset_le h hplan hfixed hi htype
    by_cases htext : i = layout.kernelTextIndex
    · subst htext
      have hin := h.text_in_file
      rw [moveSection_text_size, hplan.newTextSize_eq, hplan.outputSize_eq, ← GraphLayout.text]
      change plan.newOffset layout.text + _ ≤ _
      rw [newOffset_text h hplan hfixed]
      split_ifs with hzero
      · rcases hfits with hgap | hgap
        · unfold shift
          split_ifs <;> omega
        · have := (hgap.emptyText hzero).in_file
          unfold shift
          split_ifs <;> omega
      · omega
    · simpa only [moveSection, if_neg htext] using hle

include h hplan hplaced in
theorem patchedLayout_hasHeaders (hfits : layout.Fits plan.insertedSize) :
    (patchedLayout layout plan image details).HasHeaders := by
  have hfixed := hfits.tableFixed hplan
  refine ⟨?_, fun i hi => ?_, fun i hi => ?_⟩
  · have htable := h.table_le
    have hsize : layout.blob.size ≤ plan.outputSize := by
      rw [hplan.outputSize_eq]
      omega
    rw [length_patchedLayout]
    exact htable.trans hsize
  · rw [length_patchedLayout] at hi
    rw [patchedLayout_sec hi]
    refine Eq.trans ?_ (headerAt_patched h hplan hplaced hfixed hi).symm
    rw [← h.eq_headerAt i hi]
    rfl
  · rw [length_patchedLayout] at hi
    rw [patchedLayout_sec hi]
    exact fits_patched h hplan hfits hi

include h hplan hplaced in
/-- The output is a recoding of the input. -/
theorem recoded_patched (hfits : layout.Fits plan.insertedSize) :
    Recoded layout (patchedLayout layout plan image details) where
  headers := h.toHasHeaders
  headers' := patchedLayout_hasHeaders h hplan hplaced hfits
  located := h.located
  carrier := h.carrier
  fields_eq := rfl
  length_eq := length_patchedLayout
  sec_eq i hi := by
    rw [patchedLayout_sec hi]
    rfl
  size_eq i hi hne := by
    rw [patchedLayout_sec hi]
    exact if_neg hne
  text_le := by
    rw [patchedLayout_text h, moveSection_text_size, hplan.newTextSize_eq]
    omega
  bytes i hi htype k hk hkeeps := by
    have hfixed := hfits.tableFixed hplan
    have hin := h.in_file hi htype
    rw [patchedLayout_sec hi]
    refine (congrArg _ (newOffset_add h hplan hfixed hi htype hk)).trans ?_
    exact patchedData_shift h hplan hfixed (by omega) (not_written h hplaced hi htype hk hkeeps)

end Output

end Npunlock
