import Npunlock.Reparse

/-!
# The self-checks of a patch

After it has written the output, a patch parses it again and compares it with the input.
`checkOutput_eq_ok_iff` : the two checks succeed if and only if the gap fits
(`GraphLayout.Fits`) and an empty `KernelText` moves to where the image is already
(`GraphLayout.HoldsImage`). The planner does not make sure of either : it leaves the
alignments of sections without bytes in the file out of account, and moves the header of an
empty `KernelText` away from the image.
-/

namespace Npunlock

open View PatchPlan

variable {layout : GraphLayout} {plan : PatchPlan} {image : View}
  {imageAlignment tailPadding : ℕ} {details : List PatchDetail}

/-! ## The bytes that may change -/

theorem headerOffset_eq (h : layout.Valid) {i : ℕ} (hi : i < layout.sections.length) :
    (layout.sec i).headerOffset = 64 + i * 64 :=
  congrArg GraphSection.headerOffset (h.eq_headerAt i hi)

/-- The comparison leaves out the written fields. -/
theorem oldByteMayChange_of_written (h : layout.Valid) {i : ℕ}
    (hwritten : Written layout details i) :
    oldByteMayChange layout plan (details.map (plan.patchedDetail image.size)) i = true := by
  have hunshift : ∀ x, (if plan.insertionFileOffset + plan.insertedSize ≤ plan.shift x then
      plan.shift x - plan.insertedSize else plan.shift x) = x := by
    intro x
    unfold shift
    split_ifs <;> omega
  unfold oldByteMayChange
  rcases hwritten with ⟨k, hk, hfield⟩ | ⟨detail, hdetail, hin⟩
  · refine Bool.or_eq_true_iff.2 (Or.inl (Bool.or_eq_true_iff.2 (Or.inr ?_)))
    refine List.any_eq_true.2 ⟨(layout.sec k, k), ?_, ?_⟩
    · rw [List.mem_zipIdx_iff_getElem?, GraphLayout.sec, secOf]
      simp [hk]
    · simp only [headerOffset_eq h hk]
      unfold HeaderField at hfield
      simp only [Bool.or_eq_true, Bool.and_eq_true, decide_eq_true_eq, beq_iff_eq]
      omega
  · refine Bool.or_eq_true_iff.2 (Or.inr ?_)
    refine List.any_eq_true.2 ⟨_, List.mem_map_of_mem hdetail, ?_⟩
    dsimp only [patchedDetail]
    rw [hunshift, hunshift]
    simpa using hin

/-! ## The content of `KernelText` -/

theorem alignUp_zero {alignment result : ℕ} (h : alignUp 0 alignment = some result) :
    result = 0 := by
  obtain ⟨hpow, -, rfl⟩ := alignUp_eq_some_iff.1 h
  obtain ⟨k, rfl⟩ := isPowerOfTwo_iff.1 hpow
  have hpos : 0 < 2 ^ k := Nat.two_pow_pos k
  rw [Nat.div_eq_of_lt (by omega), Nat.zero_mul]

/-- If `KernelText` is empty, the bytes it moves to are the image and zeros already. -/
def GraphLayout.HoldsImage (layout : GraphLayout) (image : View) (gap : ℕ) : Prop :=
  layout.text.size = 0 → ∀ k < gap,
    layout.blob.data (layout.text.offset + k) = if k < image.size then image.data k else 0

instance (layout : GraphLayout) (image : View) (gap : ℕ) :
    Decidable (layout.HoldsImage image gap) :=
  inferInstanceAs (Decidable (layout.text.size = 0 → ∀ k < gap,
    layout.blob.data (layout.text.offset + k) = if k < image.size then image.data k else 0))

section Output

variable (h : layout.Valid) (hplan : plan.Of layout image imageAlignment tailPadding)
  (hplaced : ∀ detail ∈ details, detail.Placed layout)
  (hfits : layout.Fits plan.insertedSize) (hholds : layout.HoldsImage image plan.insertedSize)

include h hplan hplaced in
/-- Where an empty `KernelText` was, there is no field of a target. -/
theorem not_written_emptyText (hfixed : plan.TableFixed layout) (hzero : layout.text.size = 0)
    (hgap : layout.EmptyTextFits plan.insertedSize) {k : ℕ} (hk : k < plan.insertedSize) :
    ¬Written layout details (layout.text.offset + k) := by
  have hinsertion := hplan.insertion_eq
  have hbehind := hfixed.resolve_left (by omega)
  -- a section with bytes in the file is clear of the new `KernelText`
  have hclear : ∀ i < layout.sections.length, i ≠ layout.kernelTextIndex →
      (layout.sec i).FileBacked →
      (layout.sec i).offset + (layout.sec i).size ≤ layout.text.offset ∨
        layout.text.offset + plan.insertedSize ≤ (layout.sec i).offset := by
    intro i hi hne hfile
    rcases hplan.apart i hi hne hfile with hge | hle
    · exact Or.inr (hgap.apart i hi hne hfile (by omega))
    · exact Or.inl (by omega)
  rintro (⟨j, hj, hfield⟩ | ⟨detail, hdetail, hin⟩)
  · unfold HeaderField at hfield
    omega
  have hd := hplaced detail hdetail
  rcases hin with hin | hin
  · have hle := hd.extent_le h
    have heq := hd.extent_eq
    have := hclear _ h.located.ranges.lt h.located.text_ne_ranges.symm (hd.ranges_file h)
    rw [← GraphLayout.ranges] at this
    omega
  · have hle := hd.addend_le h
    have := hclear _ h.located.rangeRelocations.lt h.located.text_ne_rangeRelocations.symm
      (hd.relocations_file h)
    rw [← GraphLayout.rangeRelocations] at this
    omega

include h hplan hplaced hfits hholds in
/-- Behind the old code, `KernelText` holds the image and zeros. -/
theorem patchedText_tail {k : ℕ} (hk : layout.text.size ≤ k)
    (hk' : k < layout.text.size + plan.insertedSize) :
    patchedData layout plan image details (plan.newOffset layout.text + k) =
      if plan.imageBase ≤ k ∧ k < plan.imageBase + image.size then image.data (k - plan.imageBase)
      else 0 := by
  have hfixed := hfits.tableFixed hplan
  have hinsertion := hplan.insertion_eq
  rw [newOffset_text h hplan hfixed]
  by_cases hzero : layout.text.size = 0
  · have hgap := (hfits.resolve_left (by omega)).emptyText hzero
    have hin := hgap.in_file
    have hbase : plan.imageBase = 0 := by
      have := hplan.imageBase_eq
      rw [hzero] at this
      exact alignUp_zero this
    have hnot := not_written_emptyText h hplan hplaced hfixed hzero hgap (k := k) (by omega)
    have hdata := patchedData_shift h hplan hfixed (by omega) hnot
    have hshift : plan.shift (layout.text.offset + k) = plan.shift layout.text.offset + k := by
      unfold shift
      split_ifs <;> omega
    rw [if_pos hzero, ← hshift, hdata, hholds hzero k (by omega), hbase]
    simp
  · have hdata := patchedData_gap h hplan hplaced hfixed (k := k - layout.text.size) (by omega)
    rw [if_neg hzero, show layout.text.offset + k =
      plan.insertionFileOffset + (k - layout.text.size) by omega, hdata,
      show layout.text.size + (k - layout.text.size) = k by omega]

include h hplan hfits in
/-- `KernelText` ends in the output. -/
theorem patchedText_le :
    plan.newOffset layout.text + (layout.text.size + plan.insertedSize) ≤ plan.outputSize := by
  have hfit := (fits_patched h hplan hfits h.located.text.lt).inBounds (by
    change layout.text.type ≠ shtNobits
    rw [h.carrier.text_type]
    decide)
  rw [moveSection_text_size, hplan.newTextSize_eq] at hfit
  exact hfit

/-! ## The comparison succeeds -/

include h hplan hplaced hfits in
theorem verifySection_patched {i : ℕ} (hi : i < layout.sections.length) :
    verifySection layout (patchedLayout layout plan image details) plan i = .ok () := by
  have hrecoded := recoded_patched h hplan hplaced hfits
  unfold verifySection
  rw [GraphLayout.sectionAt_eq hi, hrecoded.sectionAt_eq hi, ok_bind, ok_bind,
    refuseIf_bind_eq_ok_iff]
  refine ⟨?_, ?_⟩
  · rw [hrecoded.type_eq hi, hrecoded.flags_eq hi, hrecoded.address_eq hi, hrecoded.link_eq hi,
      hrecoded.info_eq hi, hrecoded.alignment_eq hi, hrecoded.entrySize_eq hi,
      patchedLayout_sec hi]
    simp only [ne_eq, not_true_eq_false, false_or, not_or, not_and, not_not]
    exact ⟨rfl, fun hne => (if_neg hne).symm⟩
  · split_ifs with hskip
    · rfl
    · simp only [not_or] at hskip
      obtain ⟨htext, hranges, hrelocations, htype⟩ := hskip
      have hw := hrecoded.window hi htype (Recoded.keeps_of_ne hranges hrelocations)
      rw [hrecoded.size_eq i hi htext, refuseIf_bind_eq_ok_iff, hw.readBytes,
        View.readBytes_eq hw.in_left, ok_bind, ok_bind, refuseIf_eq_ok_iff]
      simp

include h hplan hplaced hfits hholds in
theorem verifyPreservation_patched :
    verifyPreservation layout (patchedLayout layout plan image details) plan image
      (details.map (plan.patchedDetail image.size)) = .ok () := by
  have hrecoded := recoded_patched h hplan hplaced hfits
  have hfixed := hfits.tableFixed hplan
  have himage := hplan.image_le
  have hbase := hplan.text_le_base
  have hle := patchedText_le h hplan hfits
  have hw := hrecoded.window_text
  have htext : sectionAt (patchedLayout layout plan image details).sections
      (patchedLayout layout plan image details).kernelTextIndex =
      .ok (plan.moveSection layout.kernelTextIndex layout.kernelTextIndex layout.text) := by
    rw [hrecoded.located'.sectionAt_text, patchedLayout_text h]
  rw [patchedLayout_text h] at hw
  unfold verifyPreservation
  rw [h.sectionAt_text, htext, ok_bind, ok_bind, moveSection_text_size, hplan.newTextSize_eq,
    hrecoded.sectionCount_eq]
  refine refuseIf_bind_eq_ok_iff.2 ⟨by simp, ?_⟩
  refine bind_eq_ok_iff.2 ⟨_, View.readBytes_eq hw.in_left, ?_⟩
  refine bind_eq_ok_iff.2 ⟨_, hw.readBytes.trans (View.readBytes_eq hw.in_left), ?_⟩
  refine refuseIf_bind_eq_ok_iff.2 ⟨by simp, ?_⟩
  have hsections : checkRange 0 layout.sectionCount
      (verifySection layout (patchedLayout layout plan image details) plan) = .ok () :=
    checkRange_eq_ok_iff.2 fun i _ hi => verifySection_patched h hplan hplaced hfits hi
  have hin : (plan.moveSection layout.kernelTextIndex layout.kernelTextIndex layout.text).offset +
      plan.imageBase + image.size ≤ (patchedLayout layout plan image details).blob.size := by
    change plan.newOffset layout.text + plan.imageBase + image.size ≤ plan.outputSize
    omega
  have hcopy : slice (patchedLayout layout plan image details).blob.data
      ((plan.moveSection layout.kernelTextIndex layout.kernelTextIndex layout.text).offset +
        plan.imageBase) image.size = slice image.data 0 image.size := by
    refine slice_congr fun k hk => ?_
    have htail := patchedText_tail h hplan hplaced hfits hholds (k := plan.imageBase + k) (by omega)
      (by omega)
    rw [if_pos (by omega), ← Nat.add_assoc, Nat.add_sub_cancel_left] at htail
    rw [Nat.zero_add]
    exact htail
  refine bind_eq_ok_iff.2 ⟨(), hsections, ?_⟩
  refine bind_eq_ok_iff.2 ⟨_, View.readBytes_eq hin, ?_⟩
  refine refuseIf_bind_eq_ok_iff.2 ⟨by simp [hcopy], ?_⟩
  refine bind_eq_ok_iff.2 ⟨(), checkRange_eq_ok_iff.2 fun k hk hk' => ?_,
    checkRange_eq_ok_iff.2 fun i _ hi => ?_⟩
  · split_ifs with hinside
    · rfl
    · have hread : (patchedLayout layout plan image details).blob.readU8
          ((plan.moveSection layout.kernelTextIndex layout.kernelTextIndex layout.text).offset +
            k) = .ok (littleEndian (patchedData layout plan image details)
              (plan.newOffset layout.text + k) 1) := View.readLE_eq (by
          change plan.newOffset layout.text + k + 1 ≤ plan.outputSize
          omega)
      have hzero : littleEndian (patchedData layout plan image details)
          (plan.newOffset layout.text + k) 1 = 0 := by
        have htail := patchedText_tail h hplan hplaced hfits hholds hk hk'
        rw [if_neg hinside] at htail
        exact (littleEndian_byteOf (v := 0) fun j hj => by
          rw [show j = 0 by omega, Nat.add_zero, htail]
          rfl).trans rfl
      rw [hread, ok_bind, hzero, refuseIf_of_not _ (by simp)]
  · unfold verifyByte
    split_ifs with hchange
    · rfl
    · have hnot : ¬Written layout details i := fun hwritten =>
        hchange (oldByteMayChange_of_written h hwritten)
      have hdata := patchedData_shift h hplan hfixed hi hnot
      have hsame : SameBytes layout.blob (patchedLayout layout plan image details).blob i
          (plan.shift i) 1 := by
        refine ⟨hi, ?_, fun k hk => ?_⟩
        · change plan.shift i + 1 ≤ plan.outputSize
          rw [hplan.outputSize_eq]
          unfold shift
          split_ifs <;> omega
        · rw [show k = 0 by omega]
          exact hdata
      rw [View.readU8, View.readU8, hsame.readLE, View.readLE_eq hsame.in_left, ok_bind, ok_bind,
        refuseIf_of_not _ (by simp)]

/-! ## When the self-checks succeed -/

include h hplan hplaced in
/-- The parser accepts the output only if the gap fits. -/
theorem fits_of_parseGraph (hparse : parseGraph layout.blob = .ok layout)
    {layout' : GraphLayout}
    (hparse' : parseGraph (patchedView layout plan image details) = .ok layout') :
    layout.Fits plan.insertedSize := by
  by_cases hgap : plan.insertedSize = 0
  · exact Or.inl hgap
  have hinsertion := hplan.insertion_eq
  have hsize := plan.outputSize_le
  rw [hplan.outputSize_eq] at hsize
  unfold sizeMax at hsize
  have htable := h.table_le
  have hpos := h.count_pos
  have hvalid' := GraphLayout.Valid.of_parse hparse'
  have hblob' := blob_of_parse hparse'
  -- the section table is where the parser expects it
  have hbehind : 64 < plan.insertionFileOffset := by
    have hoffset := hvalid'.header.sectionTableOffset
    rw [hblob'] at hoffset
    change littleEndian (patchedData layout plan image details) 0x28 8 = 64 at hoffset
    rw [patchedData_tableOffset h hplaced hpos] at hoffset
    unfold shift at hoffset
    split_ifs at hoffset <;> omega
  have hfixed : plan.TableFixed layout := by
    have := hplan.table
    exact Or.inr (by omega)
  -- so the headers of the output are those of the input, moved
  obtain ⟨run⟩ := parseGraph_eq_ok_iff.1 hparse
  obtain ⟨run'⟩ := parseGraph_eq_ok_iff.1 hparse'
  have hlen : layout'.sections.length = layout.sections.length := by
    have hread := readHeader_patched h hplan hplaced hfixed run.header_eq
    rw [run'.header_eq, Except.ok.injEq, Prod.mk.injEq] at hread
    rw [← run'.length_headers, ← run.length_headers, run'.headers_read.1, run.headers_read.1,
      hread.1]
  have hsec : ∀ i < layout.sections.length, ({ layout'.sec i with name := [] } : GraphSection) =
      plan.moveSection layout.kernelTextIndex i { layout.sec i with name := [] } := by
    intro i hi
    rw [hvalid'.eq_headerAt i (by omega), hblob', h.eq_headerAt i hi]
    exact headerAt_patched h hplan hplaced hfixed hi
  have hoffset : ∀ i < layout.sections.length, (layout'.sec i).offset =
      plan.newOffset (layout.sec i) := fun i hi => congrArg GraphSection.offset (hsec i hi)
  have htype : ∀ i < layout.sections.length, (layout'.sec i).type = (layout.sec i).type := by
    intro i hi
    have hfield := congrArg GraphSection.type (hsec i hi)
    exact hfield
  refine Or.inr ⟨by omega, fun i hi hge halign => ?_, fun hzero => ?_⟩
  · refine dvd_of_newOffset_mod h hi halign (by omega) (by omega) ?_
    have halignment : (layout'.sec i).alignment = (layout.sec i).alignment := by
      have hfield := congrArg GraphSection.alignment (hsec i hi)
      exact hfield
    have haligned := (hvalid'.fits i (by omega)).aligned (by rwa [halignment])
    rwa [halignment, hoffset i hi] at haligned
  · have htext := h.located.text.lt
    have hnew : (layout'.sec layout.kernelTextIndex).offset =
        layout.text.offset + plan.insertedSize := by
      have hin := h.text_in_file
      rw [hoffset _ htext, ← GraphLayout.text, newOffset_text h hplan hfixed, if_pos hzero]
      unfold shift
      split_ifs <;> omega
    have hnewSize : (layout'.sec layout.kernelTextIndex).size = plan.insertedSize := by
      have hsize' : (layout'.sec layout.kernelTextIndex).size = plan.newTextSize :=
        (congrArg GraphSection.size (hsec _ htext)).trans (if_pos rfl)
      rw [hsize', hplan.newTextSize_eq]
      omega
    have hnobits : (layout'.sec layout.kernelTextIndex).type ≠ shtNobits := by
      rw [htype _ htext, ← GraphLayout.text, h.carrier.text_type]
      decide
    refine ⟨?_, fun j hj hne hfile hge => ?_⟩
    · have hin := hvalid'.in_file (by omega) hnobits
      rw [hblob', hnew, hnewSize] at hin
      change _ ≤ plan.outputSize at hin
      rw [hplan.outputSize_eq] at hin
      omega
    · have hsizeJ : (layout'.sec j).size = (layout.sec j).size :=
        (congrArg GraphSection.size (hsec j hj)).trans (if_neg hne)
      have hin := h.in_file hj hfile.1
      have hdisjoint := hvalid'.disjoint (i := layout.kernelTextIndex) (j := j) (by omega)
        (by omega) hne.symm ⟨hnobits, by omega⟩ ⟨by rw [htype j hj]; exact hfile.1,
          by rw [hsizeJ]; exact hfile.2⟩
      have hpos := hfile.2
      rw [GraphSection.Disjoint, hnew, hnewSize, hsizeJ, hoffset j hj,
        newOffset_eq_shift hplan hfixed (by omega)] at hdisjoint
      unfold shift at hdisjoint
      split_ifs at hdisjoint <;> omega

include h hplan hplaced hfits in
/-- The comparison succeeds only if an empty `KernelText` found the image. -/
theorem holdsImage_of_verify
    (hverify : verifyPreservation layout (patchedLayout layout plan image details) plan image
      (details.map (plan.patchedDetail image.size)) = .ok ()) :
    layout.HoldsImage image plan.insertedSize := by
  intro hzero k hk
  have hrecoded := recoded_patched h hplan hplaced hfits
  have hfixed := hfits.tableFixed hplan
  have hgap := (hfits.resolve_left (by omega)).emptyText hzero
  have hin := hgap.in_file
  have hinsertion := hplan.insertion_eq
  have hle := patchedText_le h hplan hfits
  have himage := hplan.image_le
  have hbase : plan.imageBase = 0 := by
    have := hplan.imageBase_eq
    rw [hzero] at this
    exact alignUp_zero this
  have htext : sectionAt (patchedLayout layout plan image details).sections
      (patchedLayout layout plan image details).kernelTextIndex =
      .ok (plan.moveSection layout.kernelTextIndex layout.kernelTextIndex layout.text) := by
    rw [hrecoded.located'.sectionAt_text, patchedLayout_text h]
  -- the bytes at the new place are those at the old one
  have hmoved : patchedData layout plan image details (plan.newOffset layout.text + k) =
      layout.blob.data (layout.text.offset + k) := by
    have hnot := not_written_emptyText h hplan hplaced hfixed hzero hgap (k := k) hk
    have hdata := patchedData_shift h hplan hfixed (by omega) hnot
    rw [newOffset_text h hplan hfixed, if_pos hzero, ← hdata]
    congr 1
    unfold shift
    split_ifs <;> omega
  unfold verifyPreservation at hverify
  rw [h.sectionAt_text, htext, ok_bind, ok_bind, moveSection_text_size, hplan.newTextSize_eq]
    at hverify
  replace hverify := (refuseIf_bind_eq_ok_iff.1 hverify).2
  obtain ⟨_, -, hverify⟩ := bind_eq_ok_iff.1 hverify
  obtain ⟨_, -, hverify⟩ := bind_eq_ok_iff.1 hverify
  replace hverify := (refuseIf_bind_eq_ok_iff.1 hverify).2
  obtain ⟨_, -, hverify⟩ := bind_eq_ok_iff.1 hverify
  obtain ⟨newImage, hnew, hverify⟩ := bind_eq_ok_iff.1 hverify
  obtain ⟨hcopy, hverify⟩ := refuseIf_bind_eq_ok_iff.1 hverify
  obtain ⟨_, hpadding, -⟩ := bind_eq_ok_iff.1 hverify
  rw [← hmoved]
  split_ifs with hlt
  · rw [View.readBytes_eq (by
      change plan.newOffset layout.text + plan.imageBase + image.size ≤ plan.outputSize
      omega), Except.ok.injEq] at hnew
    rw [← hnew, not_not, slice_eq_slice_iff] at hcopy
    have hbyte := hcopy k hlt
    rw [hbase, Nat.zero_add] at hbyte
    exact hbyte
  · have hbyte := checkRange_eq_ok_iff.1 hpadding k (by omega) (by omega)
    rw [if_neg (by omega), View.readU8, View.readLE_eq (by
      change plan.newOffset layout.text + k + 1 ≤ plan.outputSize
      omega), ok_bind, refuseIf_eq_ok_iff, not_not] at hbyte
    have hzero := byteOf_littleEndian (patchedData layout plan image details) (n := 1)
      (o := plan.newOffset layout.text + k) (k := 0) (by omega)
    change littleEndian (patchedData layout plan image details) (plan.newOffset layout.text + k) 1
      = 0 at hbyte
    rw [hbyte] at hzero
    exact hzero.symm

include h hplan hplaced in
/-- Exactly when the self-checks of a patch succeed. -/
theorem checkOutput_eq_ok_iff (hparse : parseGraph layout.blob = .ok layout) :
    checkOutput layout plan image (details.map (plan.patchedDetail image.size))
        (patchedView layout plan image details) = .ok () ↔
      layout.Fits plan.insertedSize ∧ layout.HoldsImage image plan.insertedSize := by
  unfold checkOutput
  rw [bind_eq_ok_iff]
  constructor
  · rintro ⟨layout', hparse', hverify⟩
    have hfits := fits_of_parseGraph h hplan hplaced hparse hparse'
    have hsame := parseGraph_patched h hplan hplaced hfits hparse
    rw [hparse', Except.ok.injEq] at hsame
    rw [hsame] at hverify
    exact ⟨hfits, holdsImage_of_verify h hplan hplaced hfits hverify⟩
  · rintro ⟨hfits, hholds⟩
    exact ⟨_, parseGraph_patched h hplan hplaced hfits hparse,
      verifyPreservation_patched h hplan hplaced hfits hholds⟩

end Output

/-! ## The whole patch -/

section Patch

variable {τ γ : Type} {version : TargetVersion τ} {contract : τ → γ} {graphBlob : View}
  {targets : List τ}

/-- A request the planner accepted, whose output passes the self-checks. -/
structure PatchRun (version : TargetVersion τ) (graphBlob image : View) (targets : List τ)
    (imageAlignment tailPadding : ℕ) (layout : GraphLayout) (details : List PatchDetail)
    (plan : PatchPlan) : Prop where
  request_eq : planRequest version graphBlob image targets imageAlignment tailPadding =
    .ok (layout, details, plan)
  parse_eq : parseGraph graphBlob = .ok layout
  blob_eq : layout.blob = graphBlob
  valid : layout.Valid
  details_of : PlannedDetails layout (targets.map version.selection) details
  plan_of : plan.Of layout image imageAlignment tailPadding
  fields : FieldsFit plan image details
  fits : layout.Fits plan.insertedSize
  holds : layout.HoldsImage image plan.insertedSize

namespace PatchRun

variable (hrun : PatchRun version graphBlob image targets imageAlignment tailPadding layout details
  plan)

include hrun

theorem placed : ∀ detail ∈ details, detail.Placed layout :=
  fun detail hdetail => (hrun.details_of.planned detail hdetail).placed hrun.valid

theorem tableFixed : plan.TableFixed layout :=
  hrun.fits.tableFixed hrun.plan_of

theorem parse_patched : parseGraph (patchedView layout plan image details) =
    .ok (patchedLayout layout plan image details) :=
  parseGraph_patched hrun.valid hrun.plan_of hrun.placed hrun.fits
    (by rw [hrun.blob_eq, hrun.parse_eq])

theorem recoded : Recoded layout (patchedLayout layout plan image details) :=
  recoded_patched hrun.valid hrun.plan_of hrun.placed hrun.fits

end PatchRun

/-- The self-checks, after a request that was planned and written. -/
theorem patchGraphBlobWith_iff (hl : version.Lawful contract)
    (hrequest : planRequest version graphBlob image targets imageAlignment tailPadding =
      .ok (layout, details, plan)) {patched : View}
    (hwrite : writePatch layout plan image details = .ok patched) :
    (∃ summary, patchGraphBlobWith version graphBlob image targets imageAlignment tailPadding =
        .ok (patched, summary)) ↔
      layout.Fits plan.insertedSize ∧ layout.HoldsImage image plan.insertedSize := by
  obtain ⟨hparse, hdetails, hplan⟩ :=
    (planRequest_spec hl graphBlob image targets imageAlignment tailPadding).value _ hrequest
  dsimp only at hparse hdetails hplan
  have hvalid := GraphLayout.Valid.of_parse hparse
  have hblob := blob_of_parse hparse
  obtain ⟨hfields, rfl⟩ := (writePatch_eq_ok_iff hvalid).1 hwrite
  have hplaced : ∀ detail ∈ details, detail.Placed layout :=
    fun detail hdetail => (hdetails.planned detail hdetail).placed hvalid
  rw [← checkOutput_eq_ok_iff hvalid hplan hplaced (by rw [hblob, hparse])]
  unfold patchGraphBlobWith
  rw [hrequest, ok_bind]
  dsimp only
  rw [hwrite, ok_bind]
  constructor
  · rintro ⟨summary, hpatch⟩
    obtain ⟨_, hcheck, -⟩ := bind_eq_ok_iff.1 hpatch
    exact hcheck
  · intro hcheck
    exact ⟨_, bind_eq_ok_iff.2 ⟨(), hcheck, rfl⟩⟩

/-- What a successful patch has done. -/
theorem patchRun_of_eq_ok (hl : version.Lawful contract) {output : View} {summary : PatchSummary}
    (hpatch : patchGraphBlobWith version graphBlob image targets imageAlignment tailPadding =
      .ok (output, summary)) :
    ∃ layout details plan,
      PatchRun version graphBlob image targets imageAlignment tailPadding layout details plan ∧
        output = patchedView layout plan image details := by
  have hpatch' := hpatch
  unfold patchGraphBlobWith at hpatch'
  obtain ⟨⟨layout, details, plan⟩, hrequest, hrest⟩ := bind_eq_ok_iff.1 hpatch'
  obtain ⟨patched, hwrite, hrest⟩ := bind_eq_ok_iff.1 hrest
  obtain ⟨_, -, hrest⟩ := bind_eq_ok_iff.1 hrest
  cases hrest
  obtain ⟨hfits, hholds⟩ := (patchGraphBlobWith_iff hl hrequest hwrite).1 ⟨_, hpatch⟩
  obtain ⟨hparse, hdetails, hplan⟩ :=
    (planRequest_spec hl graphBlob image targets imageAlignment tailPadding).value _ hrequest
  dsimp only at hparse hdetails hplan
  have hvalid := GraphLayout.Valid.of_parse hparse
  obtain ⟨hfields, houtput⟩ := (writePatch_eq_ok_iff hvalid).1 hwrite
  exact ⟨layout, details, plan, ⟨hrequest, hparse, blob_of_parse hparse, hvalid, hdetails, hplan,
    hfields, hfits, hholds⟩, houtput.symm⟩

end Patch

/-- A request that was planned and written passes the self-checks if and only if the gap
fits and an empty `KernelText` moves to where the image is. -/
theorem planned_patch_succeeds_iff (abi : Abi) (graphBlob image : View)
    (targets : List abi.Target) (imageAlignment tailPadding : ℕ) (layout : GraphLayout)
    (details : List PatchDetail) (plan : PatchPlan) (patched : View)
    (hrequest : planRequest abi.version graphBlob image targets imageAlignment tailPadding =
      .ok (layout, details, plan))
    (hwrite : writePatch layout plan image details = .ok patched) :
    (∃ summary, patchGraphBlobWith abi.version graphBlob image targets imageAlignment tailPadding =
        .ok (patched, summary)) ↔
      layout.Fits plan.insertedSize ∧ layout.HoldsImage image plan.insertedSize :=
  patchGraphBlobWith_iff abi.lawful hrequest hwrite

/-! ## Patches of the example graph -/

/-- The version 1 target of an invocation of the example graph. -/
def exampleTarget (index : ℕ) : PatchblobTarget :=
  { invocationIndex := index, rangeIndex := index, expectedInputCount := 1,
    expectedElementCount := 8, expectedSpanBytes := 16, requiredContractFlags := 0x1f }

/-- Sixteen bytes of code. -/
def exampleImage : View :=
  viewOf 16 (by decide) 0x33333333333333333333333333333333

/-- A request on an example graph, up to the self-checks, and whether they will succeed. -/
def ExampleGraph.request (g : ExampleGraph) (targets : List PatchblobTarget) : Result Bool := do
  let (layout, details, plan) ←
    planRequest (Abi.version .v1) g.view exampleImage targets 16 0
  let _ ← writePatch layout plan exampleImage details
  .ok (layout.Fits plan.insertedSize ∧ layout.HoldsImage exampleImage plan.insertedSize)

theorem ExampleGraph.exists_of_request {g : ExampleGraph} {targets : List PatchblobTarget}
    {fits : Bool} (h : g.request targets = .ok fits) :
    ∃ layout details plan patched,
      planRequest (Abi.version .v1) g.view exampleImage targets 16 0 =
        .ok (layout, details, plan) ∧
      writePatch layout plan exampleImage details = .ok patched ∧
      (fits = true ↔
        layout.Fits plan.insertedSize ∧ layout.HoldsImage exampleImage plan.insertedSize) := by
  obtain ⟨⟨layout, details, plan⟩, hrequest, h⟩ := bind_eq_ok_iff.1 h
  obtain ⟨patched, hwrite, h⟩ := bind_eq_ok_iff.1 h
  cases h
  exact ⟨layout, details, plan, patched, hrequest, hwrite, by simp⟩

/-- A patch of the first invocation passes the planner. -/
theorem example_request : ExampleGraph.request {} [exampleTarget 0] = .ok true := by
  decide +kernel

/-- A section without bytes in the file, with the alignment of a page. -/
def pageGraph : ExampleGraph :=
  { extraType := shtNobits, extraOffset := 4096, extraAlignment := 4096 }

theorem page_request : pageGraph.request [exampleTarget 0] = .ok false := by
  decide +kernel

/-- The self-checks of a planned patch of the example graph succeed as stated. -/
theorem planned_patch_succeeds_iff_example :
    ∃ layout details plan patched,
      planRequest (Abi.version .v1) (ExampleGraph.view {}) exampleImage [exampleTarget 0] 16 0 =
        .ok (layout, details, plan) ∧
      writePatch layout plan exampleImage details = .ok patched ∧
      ∃ summary, patchGraphBlobWith (Abi.version .v1) (ExampleGraph.view {}) exampleImage
        [exampleTarget 0] 16 0 = .ok (patched, summary) := by
  obtain ⟨layout, details, plan, patched, hrequest, hwrite, hfits⟩ :=
    ExampleGraph.exists_of_request example_request
  exact ⟨layout, details, plan, patched, hrequest, hwrite,
    (planned_patch_succeeds_iff .v1 _ _ _ _ _ _ _ _ _ hrequest hwrite).2 (hfits.1 rfl)⟩

/-- The section at a page boundary moves with the file offsets, and is not aligned then :
the planner accepts the request, and the output is not a graph. -/
theorem planned_patch_fails :
    ∃ layout details plan patched,
      planRequest (Abi.version .v1) pageGraph.view exampleImage [exampleTarget 0] 16 0 =
        .ok (layout, details, plan) ∧
      writePatch layout plan exampleImage details = .ok patched ∧
      failureOf (patchGraphBlobWith (Abi.version .v1) pageGraph.view exampleImage
        [exampleTarget 0] 16 0) =
          some (malformed "graph section extent or alignment is malformed") := by
  obtain ⟨layout, details, plan, patched, hrequest, hwrite, -⟩ :=
    ExampleGraph.exists_of_request page_request
  exact ⟨layout, details, plan, patched, hrequest, hwrite, by decide +kernel⟩

end Npunlock
