import Npunlock.SelfCheck

/-!
# What a patch does to the code

A range designates the bytes of `KernelText` that its code pointer and its extent name.
`patch_postcondition` : in the output of a successful patch, every targeted range
designates the image, and nothing else of the file changed but offsets. Other ranges
designate what they did (`PatchRun.rangeCode_untargeted`), so an invocation that no target
names keeps its code unless it shares the range of a target
(`untargeted_code_preserved_iff`).
-/

namespace Npunlock

open View PatchPlan

variable {layout layout' : GraphLayout}

/-! ## Designated code -/

/-- The code extent of a range. -/
def codeExtent (layout : GraphLayout) (rangeIndex : ℕ) : ℕ :=
  littleEndian layout.blob.data (layout.ranges.offset + rangeIndex * 0x18 + 0x0c) 4

/-- The address of the code of a range in `KernelText`, and its extent. -/
def rangeCode (layout : GraphLayout) (rangeIndex : ℕ) : Option (ℤ × ℕ) :=
  match findRangeRelocation layout rangeIndex with
  | .ok relocation => some (relocation.addend, codeExtent layout rangeIndex)
  | .error _ => none

/-- The bytes of `KernelText` at an address, if they are all there. -/
def codeAt (layout : GraphLayout) (address : ℤ) (extent : ℕ) : Option (List UInt8) :=
  if 0 ≤ address ∧ address.toNat + extent ≤ layout.text.size then
    some (slice layout.blob.data (layout.text.offset + address.toNat) extent)
  else none

/-- The code that a range designates. -/
def designatedCode (layout : GraphLayout) (rangeIndex : ℕ) : Option (List UInt8) :=
  (rangeCode layout rangeIndex).bind fun code => codeAt layout code.1 code.2

/-- The range of an invocation. -/
def invocationRange (layout : GraphLayout) (invocationIndex : ℕ) : ℕ :=
  littleEndian layout.blob.data (layout.invocations.offset + invocationIndex * 0x40) 4

/-- The code that an invocation designates. -/
def invocationCode (layout : GraphLayout) (invocationIndex : ℕ) : Option (List UInt8) :=
  designatedCode layout (invocationRange layout invocationIndex)

theorem findRangeRelocation_lt (h : layout.Valid) {rangeIndex : ℕ} {relocation : GraphRelocation}
    (hfind : findRangeRelocation layout rangeIndex = .ok relocation) :
    rangeIndex < layout.ranges.size / 0x18 := by
  obtain ⟨hinfo, hwanted, entry, -, hread⟩ := (findRangeRelocation_spec h rangeIndex).value _ hfind
  obtain ⟨hoffset, htype, -, -⟩ := isRangeRelocation_iff.1 hwanted
  obtain ⟨writeSize, hwrite, -, hle⟩ := hread.write
  have hranges : (layout.sec (layout.sec layout.rangeRelocationsIndex).info).size =
      layout.ranges.size := by
    rw [← GraphLayout.rangeRelocations, hinfo]
    rfl
  have hsize := h.carrier.ranges_size
  rw [htype, show relocationWriteSize rVpu32 = some 4 by decide, Option.some.injEq] at hwrite
  rw [hranges, hoffset, ← hwrite] at hle
  omega

namespace Recoded

variable (h : Recoded layout layout')

include h

theorem invocationRange_eq {index : ℕ} (hindex : index < layout.invocations.size / 0x40) :
    invocationRange layout' index = invocationRange layout index :=
  (((h.window_invocations).sub (index * 0x40) 0x40 (by omega)).sub 0 4 (by omega)).littleEndian_eq

/-- Code of the original is where it was. -/
theorem codeAt_of_eq_some {address : ℤ} {extent : ℕ} {code : List UInt8}
    (hcode : codeAt layout address extent = some code) :
    codeAt layout' address extent = some code := by
  have hle := h.text_le
  unfold codeAt at hcode ⊢
  split_ifs at hcode with hin
  rw [if_pos ⟨hin.1, hin.2.trans hle⟩, ← hcode,
    (h.window_text.sub address.toNat extent hin.2).slice_eq]

/-- A range that keeps its pointer and extent keeps its code. -/
theorem designatedCode_of_eq_some {rangeIndex : ℕ} {code : List UInt8}
    (hsame : rangeCode layout' rangeIndex = rangeCode layout rangeIndex)
    (hcode : designatedCode layout rangeIndex = some code) :
    designatedCode layout' rangeIndex = some code := by
  unfold designatedCode at hcode ⊢
  obtain ⟨⟨address, extent⟩, hrange, hcode⟩ := Option.bind_eq_some_iff.1 hcode
  rw [hsame, hrange]
  exact h.codeAt_of_eq_some hcode

end Recoded

/-! ## The ranges of the output -/

namespace PatchRun

variable {τ : Type} {version : TargetVersion τ} {graphBlob image : View} {targets : List τ}
  {imageAlignment tailPadding : ℕ} {details : List PatchDetail} {plan : PatchPlan}
  (hrun : PatchRun version graphBlob image targets imageAlignment tailPadding layout details plan)

include hrun

/-- A byte of a section that is in no written field. -/
theorem byte_eq {i k : ℕ} (hi : i < layout.sections.length)
    (htype : (layout.sec i).type ≠ shtNobits) (hk : k < (layout.sec i).size)
    (hnot : ¬Written layout details ((layout.sec i).offset + k)) :
    patchedData layout plan image details
        (((patchedLayout layout plan image details).sec i).offset + k) =
      layout.blob.data ((layout.sec i).offset + k) := by
  have hin := hrun.valid.in_file hi htype
  rw [patchedLayout_sec hi]
  refine (congrArg _ (newOffset_add hrun.valid hrun.plan_of hrun.tableFixed hi htype hk)).trans ?_
  exact patchedData_shift hrun.valid hrun.plan_of hrun.tableFixed (by omega) hnot

theorem ranges_nobits : (layout.sec layout.rangesIndex).type ≠ shtNobits := by
  rw [← GraphLayout.ranges, hrun.valid.carrier.ranges_type]
  decide

theorem rangeRelocations_nobits :
    (layout.sec layout.rangeRelocationsIndex).type ≠ shtNobits := by
  rw [← GraphLayout.rangeRelocations, hrun.valid.carrier.rangeRelocations_type]
  decide

/-- The extent of a range that no target selects. -/
theorem codeExtent_untargeted {rangeIndex : ℕ}
    (hrange : rangeIndex < layout.ranges.size / 0x18)
    (huntargeted : ∀ detail ∈ details, detail.rangeIndex ≠ rangeIndex) :
    codeExtent (patchedLayout layout plan image details) rangeIndex =
      codeExtent layout rangeIndex := by
  have hi := hrun.valid.located.ranges.lt
  unfold codeExtent
  rw [hrun.recoded.ranges_eq]
  refine littleEndian_congr fun k hk => ?_
  rw [Nat.add_assoc, Nat.add_assoc, Nat.add_assoc, Nat.add_assoc]
  have hsize : rangeIndex * 0x18 + (0x0c + k) < (layout.sec layout.rangesIndex).size := by
    rw [← GraphLayout.ranges]
    omega
  refine hrun.byte_eq hi hrun.ranges_nobits hsize (not_written_of hrun.valid hrun.placed hi
    hrun.ranges_nobits hsize (fun _ detail hdetail => ?_) fun heq => ?_)
  · have := huntargeted detail hdetail
    omega
  · exact absurd heq hrun.valid.located.ranges_ne_rangeRelocations

/-- A range that no target selects keeps its code pointer and its extent. -/
theorem rangeCode_untargeted {rangeIndex : ℕ}
    (huntargeted : ∀ detail ∈ details, detail.rangeIndex ≠ rangeIndex) :
    rangeCode (patchedLayout layout plan image details) rangeIndex =
      rangeCode layout rangeIndex := by
  have hagree := findRangeRelocation_recoded hrun.recoded rangeIndex
  unfold rangeCode
  generalize hfind : findRangeRelocation layout rangeIndex = x at hagree ⊢
  generalize findRangeRelocation (patchedLayout layout plan image details) rangeIndex = y
    at hagree ⊢
  cases hagree with
  | error e => rfl
  | @ok relocation relocation' hsame =>
    obtain ⟨entry, hsame⟩ := hsame
    have hi := hrun.valid.located.rangeRelocations.lt
    have hentry := hsame.left.entry_lt
    have hwanted := ((findRangeRelocation_spec hrun.valid rangeIndex).value _ hfind).2.1
    have haddend : relocation'.addend = relocation.addend := by
      rw [hsame.left.addend_eq, hsame.right.addend_eq, hsame.left.fileOffset_eq,
        hsame.right.fileOffset_eq]
      congr 1
      refine littleEndian_congr fun k hk => ?_
      rw [Nat.add_assoc, Nat.add_assoc, Nat.add_assoc, Nat.add_assoc]
      have hsize : entry * 0x18 + (16 + k) < (layout.sec layout.rangeRelocationsIndex).size := by
        omega
      refine hrun.byte_eq hi hrun.rangeRelocations_nobits hsize (not_written_of hrun.valid
        hrun.placed hi hrun.rangeRelocations_nobits hsize (fun heq => ?_)
        fun _ detail hdetail entry' hentry' => ?_)
      · exact absurd heq.symm hrun.valid.located.ranges_ne_rangeRelocations
      · -- the entry of a target writes another range
        obtain ⟨target, -, -, hwanted', ⟨other, -, hread⟩, haddress, -⟩ :=
          (hrun.details_of.planned detail hdetail).relocation
        have hne := huntargeted detail hdetail
        have htarget := hsame.left.targetOffset_eq
        have htarget' := hread.targetOffset_eq
        rw [(isRangeRelocation_iff.1 hwanted).1, hsame.left.fileOffset_eq] at htarget
        rw [(isRangeRelocation_iff.1 hwanted').1, hread.fileOffset_eq] at htarget'
        have hother : other = entry' := by
          rw [hread.fileOffset_eq, hentry', GraphLayout.rangeRelocations] at haddress
          omega
        have hdistinct : entry ≠ entry' := by
          rintro rfl
          rw [hother] at htarget'
          omega
        omega
    dsimp only
    rw [haddend, hrun.codeExtent_untargeted (findRangeRelocation_lt hrun.valid hfind) huntargeted]

theorem fields_fit {detail : PatchDetail} (hdetail : detail ∈ details) :
    image.size ≤ uint32Max ∧ plan.imageBase ≤ int64Max := by
  refine hrun.fields.resolve_left fun hempty => ?_
  rw [hempty] at hdetail
  exact absurd hdetail (by simp)

/-- A targeted range has the extent of the image. -/
theorem codeExtent_targeted {detail : PatchDetail} (hdetail : detail ∈ details) :
    codeExtent (patchedLayout layout plan image details) detail.rangeIndex = image.size := by
  have hi := hrun.valid.located.ranges.lt
  have hd := hrun.placed detail hdetail
  have hrange := hd.range_lt
  have hfit := (hrun.fields_fit hdetail).1
  have hmod : image.size % 256 ^ 4 = image.size := by
    refine Nat.mod_eq_of_lt ?_
    unfold uint32Max at hfit
    omega
  unfold codeExtent
  rw [← hmod]
  refine littleEndian_byteOf fun k hk => ?_
  have hsize : detail.rangeIndex * 0x18 + 0x0c + k < (layout.sec layout.rangesIndex).size := by
    rw [← GraphLayout.ranges]
    omega
  have hsize' : detail.rangeIndex * 0x18 + 0x0c < (layout.sec layout.rangesIndex).size := by
    omega
  have hmove := newOffset_add hrun.valid hrun.plan_of hrun.tableFixed hi hrun.ranges_nobits hsize'
  have hfield : patchedData layout plan image details _ = _ :=
    patchedData_extent hrun.valid hrun.placed hdetail hk
  rw [hd.extent_eq, Nat.add_assoc, GraphLayout.ranges, ← hmove] at hfield
  rw [hrun.recoded.ranges_eq, patchedLayout_sec hi]
  rw [← Nat.add_assoc] at hfield
  exact hfield

/-- A targeted range points at the image. -/
theorem rangeCode_targeted {detail : PatchDetail} (hdetail : detail ∈ details) :
    rangeCode (patchedLayout layout plan image details) detail.rangeIndex =
      some ((plan.imageBase : ℤ), image.size) := by
  obtain ⟨relocation, hfind, -, -, ⟨other, -, hread⟩, haddress, -⟩ :=
    (hrun.details_of.planned detail hdetail).relocation
  obtain ⟨relocation', hfind', entry, hsame⟩ :=
    (findRangeRelocation_recoded hrun.recoded detail.rangeIndex).exists_ok hfind
  have hi := hrun.valid.located.rangeRelocations.lt
  have hentry := hsame.left.entry_lt
  have hfit := (hrun.fields_fit hdetail).2
  have hsize : entry * 0x18 + 16 < (layout.sec layout.rangeRelocationsIndex).size := by
    omega
  have hmove := newOffset_add hrun.valid hrun.plan_of hrun.tableFixed hi
    hrun.rangeRelocations_nobits hsize
  have hvalue : littleEndian (patchedData layout plan image details)
      (relocation'.fileOffset + 16) 8 = plan.imageBase % 256 ^ 8 := by
    refine littleEndian_byteOf fun k hk => ?_
    have hfield : patchedData layout plan image details _ = _ :=
      patchedData_addend hrun.valid hrun.placed hdetail hk
    rw [haddress, hsame.left.fileOffset_eq, Nat.add_assoc, ← hmove] at hfield
    rw [hsame.right.fileOffset_eq, patchedLayout_sec hi]
    rw [← Nat.add_assoc] at hfield
    exact hfield
  have haddend : relocation'.addend = plan.imageBase := by
    rw [hsame.right.addend_eq]
    change signed 64 (littleEndian (patchedData layout plan image details) _ 8) = _
    unfold int64Max at hfit
    rw [hvalue, Nat.mod_eq_of_lt (by omega), signed, if_pos (by omega)]
  unfold rangeCode
  rw [hfind']
  dsimp only
  rw [hrun.codeExtent_targeted hdetail, haddend]

/-- `KernelText` of the output holds the image at its base. -/
theorem codeAt_image :
    codeAt (patchedLayout layout plan image details) plan.imageBase image.size =
      some (slice image.data 0 image.size) := by
  have himage := hrun.plan_of.image_le
  have hbase := hrun.plan_of.text_le_base
  have hsize : (patchedLayout layout plan image details).text.size =
      layout.text.size + plan.insertedSize := by
    rw [patchedLayout_text hrun.valid, moveSection_text_size, hrun.plan_of.newTextSize_eq]
  unfold codeAt
  rw [if_pos ⟨by omega, by rw [hsize]; omega⟩, Int.toNat_natCast]
  congr 1
  refine slice_congr fun k hk => ?_
  have htail := patchedText_tail hrun.valid hrun.plan_of hrun.placed hrun.fits hrun.holds
    (k := plan.imageBase + k) (by omega) (by omega)
  rw [if_pos (by omega), ← Nat.add_assoc, Nat.add_sub_cancel_left] at htail
  rw [Nat.zero_add, patchedLayout_text hrun.valid]
  exact htail

/-- A targeted range designates the image. -/
theorem designatedCode_targeted {detail : PatchDetail} (hdetail : detail ∈ details) :
    designatedCode (patchedLayout layout plan image details) detail.rangeIndex =
      some (slice image.data 0 image.size) := by
  unfold designatedCode
  rw [hrun.rangeCode_targeted hdetail]
  exact hrun.codeAt_image

/-- Another range designates the code it did. -/
theorem designatedCode_untargeted {rangeIndex : ℕ} {code : List UInt8}
    (huntargeted : ∀ detail ∈ details, detail.rangeIndex ≠ rangeIndex)
    (hcode : designatedCode layout rangeIndex = some code) :
    designatedCode (patchedLayout layout plan image details) rangeIndex = some code :=
  hrun.recoded.designatedCode_of_eq_some (hrun.rangeCode_untargeted huntargeted) hcode

/-- The details of a request select the ranges of its targets. -/
theorem untargeted_of {rangeIndex : ℕ}
    (huntargeted : ∀ target ∈ targets, version.rangeIndex target ≠ rangeIndex) :
    ∀ detail ∈ details, detail.rangeIndex ≠ rangeIndex := by
  intro detail hdetail heq
  have hmem : (detail.invocationIndex, detail.rangeIndex) ∈ targets.map version.selection := by
    rw [← hrun.details_of.selections_eq]
    exact List.mem_map_of_mem hdetail
  obtain ⟨target, htarget, hselection⟩ := List.mem_map.1 hmem
  exact huntargeted target htarget ((Prod.mk.inj hselection).2.trans heq)

theorem exists_detail {target : τ} (htarget : target ∈ targets) :
    ∃ detail ∈ details, detail.invocationIndex = version.invocationIndex target ∧
      detail.rangeIndex = version.rangeIndex target := by
  have hmem : version.selection target ∈ targets.map version.selection :=
    List.mem_map_of_mem htarget
  rw [← hrun.details_of.selections_eq] at hmem
  obtain ⟨detail, hdetail, hselection⟩ := List.mem_map.1 hmem
  exact ⟨detail, hdetail, (Prod.mk.inj hselection).1, (Prod.mk.inj hselection).2⟩

end PatchRun

/-! ## The postcondition -/

/-- The fields of the input that a patch rewrites : the offset of the section table, the
offsets of the sections that move, the size of `KernelText`, and the extent and the code
pointer addend of each target. -/
def Rewritten {τ : Type} (version : TargetVersion τ) (layout : GraphLayout) (targets : List τ)
    (i : ℕ) : Prop :=
  (0x28 ≤ i ∧ i < 0x30) ∨
    (∃ k < layout.sections.length,
      (layout.text.offset + layout.text.size ≤ (layout.sec k).offset ∧ (layout.sec k).offset ≠ 0) ∧
        64 + k * 64 + 0x18 ≤ i ∧ i < 64 + k * 64 + 0x20) ∨
    (64 + layout.kernelTextIndex * 64 + 0x20 ≤ i ∧ i < 64 + layout.kernelTextIndex * 64 + 0x28) ∨
    ∃ target ∈ targets,
      (layout.ranges.offset + version.rangeIndex target * 0x18 + 0x0c ≤ i ∧
        i < layout.ranges.offset + version.rangeIndex target * 0x18 + 0x10) ∨
      ∃ relocation, findRangeRelocation layout (version.rangeIndex target) = .ok relocation ∧
        relocation.fileOffset + 0x10 ≤ i ∧ i < relocation.fileOffset + 0x18

/-- `output` is `graphBlob` with a gap of `gap` bytes at the end of `KernelText`, which
holds `image` at the address `base` of `KernelText`, and the targets point there. -/
structure Patched {τ : Type} (version : TargetVersion τ) (layout layout' : GraphLayout)
    (image : View) (targets : List τ) (imageAlignment gap base : ℕ) : Prop where
  size_eq : layout'.blob.size = layout.blob.size + gap
  bytes_eq : ∀ i < layout.blob.size, ¬Rewritten version layout targets i →
    layout'.blob.data (if layout.text.offset + layout.text.size ≤ i then i + gap else i) =
      layout.blob.data i
  sections_eq : layout'.sections.length = layout.sections.length ∧
    ∀ k < layout.sections.length, layout'.sec k =
      { layout.sec k with
        offset :=
          if layout.text.offset + layout.text.size ≤ (layout.sec k).offset ∧
              (layout.sec k).offset ≠ 0 then
            ((layout.sec k).offset + gap) % 2 ^ 64
          else (layout.sec k).offset
        size := if k = layout.kernelTextIndex then layout.text.size + gap
          else (layout.sec k).size }
  base_aligned : base % imageAlignment = 0
  base_bounds : layout.text.size ≤ base ∧ base + image.size ≤ layout.text.size + gap
  gap_bytes : ∀ k < gap,
    layout'.blob.data (layout.text.offset + layout.text.size + k) =
      if base ≤ layout.text.size + k ∧ layout.text.size + k < base + image.size then
        image.data (layout.text.size + k - base)
      else 0
  targets_eq : ∀ target ∈ targets,
    rangeCode layout' (version.rangeIndex target) = some ((base : ℤ), image.size) ∧
      designatedCode layout' (version.rangeIndex target) = some (slice image.data 0 image.size)

namespace PatchRun

variable {τ : Type} {version : TargetVersion τ} {graphBlob image : View} {targets : List τ}
  {imageAlignment tailPadding : ℕ} {details : List PatchDetail} {plan : PatchPlan}
  (hrun : PatchRun version graphBlob image targets imageAlignment tailPadding layout details plan)

include hrun

/-- The offset field of a section that does not move keeps its bytes. -/
theorem offsetField_eq {k p : ℕ} (hk : k < layout.sections.length)
    (hstays : ¬(layout.text.offset + layout.text.size ≤ (layout.sec k).offset ∧
      (layout.sec k).offset ≠ 0))
    (hp : 64 + k * 64 + 0x18 ≤ p) (hp' : p < 64 + k * 64 + 0x20) :
    patchedData layout plan image details p = layout.blob.data p := by
  have hinsertion := hrun.plan_of.insertion_eq
  have hheader := congrArg GraphSection.offset
    (headerAt_patched hrun.valid hrun.plan_of hrun.placed hrun.tableFixed hk)
  have hsame : littleEndian (patchedData layout plan image details) (64 + k * 64 + 0x18) 8 =
      littleEndian layout.blob.data (64 + k * 64 + 0x18) 8 := by
    refine hheader.trans ?_
    change plan.newOffset (headerAt layout.blob k) = (headerAt layout.blob k).offset
    rw [← hrun.valid.eq_headerAt k hk, PatchPlan.newOffset, if_neg (by rwa [hinsertion])]
  have hnew := byteOf_littleEndian (patchedData layout plan image details) (n := 8)
    (o := 64 + k * 64 + 0x18) (k := p - (64 + k * 64 + 0x18)) (by omega)
  have hold := byteOf_littleEndian layout.blob.data (n := 8)
    (o := 64 + k * 64 + 0x18) (k := p - (64 + k * 64 + 0x18)) (by omega)
  rw [hsame] at hnew
  rw [show p = 64 + k * 64 + 0x18 + (p - (64 + k * 64 + 0x18)) by omega, ← hnew, ← hold]

/-- A byte that is not rewritten is found at its shifted position. -/
theorem data_shift {i : ℕ} (hi : i < layout.blob.size)
    (hnot : ¬Rewritten version layout targets i) :
    patchedData layout plan image details (plan.shift i) = layout.blob.data i := by
  have hshift : ¬Written layout details i → patchedData layout plan image details _ = _ :=
    patchedData_shift hrun.valid hrun.plan_of hrun.tableFixed hi
  by_cases hwritten : Written layout details i
  · rcases hwritten with ⟨k, hk, hfield⟩ | ⟨detail, hdetail, hin⟩
    · have hfixed := hrun.tableFixed.shift_eq (i := i) (by unfold HeaderField at hfield; omega)
      rw [hfixed]
      rcases hfield with hfield | ⟨rfl, hfield⟩
      · refine hrun.offsetField_eq hk (fun hmoves => hnot ?_) hfield.1 hfield.2
        exact Or.inr (Or.inl ⟨k, hk, hmoves, hfield⟩)
      · exact absurd (Or.inr (Or.inr (Or.inl hfield))) hnot
    · refine absurd (Or.inr (Or.inr (Or.inr ?_))) hnot
      obtain ⟨target, htarget, hselection⟩ := List.mem_map.1 (show
          (detail.invocationIndex, detail.rangeIndex) ∈ targets.map version.selection by
        rw [← hrun.details_of.selections_eq]
        exact List.mem_map_of_mem hdetail)
      have hrange : version.rangeIndex target = detail.rangeIndex := (Prod.mk.inj hselection).2
      obtain ⟨relocation, hfind, -, -, -, haddress, -⟩ :=
        (hrun.details_of.planned detail hdetail).relocation
      have hextent := (hrun.placed detail hdetail).extent_eq
      refine ⟨target, htarget, ?_⟩
      rw [hrange]
      rcases hin with hin | hin
      · exact Or.inl ⟨by omega, by omega⟩
      · exact Or.inr ⟨relocation, hfind, by omega, by omega⟩
  · exact hshift hwritten

end PatchRun

/-- What a successful patch has done to its input. -/
theorem patch_postcondition (abi : Abi) (graphBlob image : View) (targets : List abi.Target)
    (imageAlignment tailPadding : ℕ) (output : View) (summary : PatchSummary)
    (h : patchGraphBlobWith abi.version graphBlob image targets imageAlignment tailPadding =
      .ok (output, summary)) :
    ∃ layout layout' gap base, parseGraph graphBlob = .ok layout ∧
      parseGraph output = .ok layout' ∧ layout.blob = graphBlob ∧ layout'.blob = output ∧
      Patched abi.version layout layout' image targets imageAlignment gap base := by
  obtain ⟨layout, details, plan, hrun, rfl⟩ := patchRun_of_eq_ok abi.lawful h
  have hplan := hrun.plan_of
  have hinsertion := hplan.insertion_eq
  refine ⟨layout, patchedLayout layout plan image details, plan.insertedSize, plan.imageBase,
    hrun.parse_eq, hrun.parse_patched, hrun.blob_eq, rfl, hplan.outputSize_eq, fun i hi hnot => ?_,
    ⟨length_patchedLayout, fun k hk => ?_⟩, mod_of_alignUp hplan.imageBase_eq,
    ⟨hplan.text_le_base, ?_⟩, fun k hk => ?_, fun target htarget => ?_⟩
  · rw [← hinsertion]
    exact hrun.data_shift hi hnot
  · rw [patchedLayout_sec hk, PatchPlan.moveSection, PatchPlan.newOffset, hinsertion,
      hplan.newTextSize_eq]
  · have := hplan.image_le
    omega
  · rw [← hinsertion]
    exact patchedData_gap hrun.valid hplan hrun.placed hrun.tableFixed hk
  · obtain ⟨detail, hdetail, -, hrange⟩ := hrun.exists_detail htarget
    rw [← hrange]
    exact ⟨hrun.rangeCode_targeted hdetail, hrun.designatedCode_targeted hdetail⟩

/-- A patch of the first invocation of the example graph. -/
theorem example_patch : ∃ output summary,
    patchGraphBlobWith (Abi.version .v1) (ExampleGraph.view {}) exampleImage [exampleTarget 0]
      16 0 = .ok (output, summary) := by
  obtain ⟨layout, details, plan, patched, hrequest, hwrite, hfits⟩ :=
    ExampleGraph.exists_of_request example_request
  obtain ⟨summary, hpatch⟩ :=
    (patchGraphBlobWith_iff (Abi.lawful .v1) hrequest hwrite).2 (hfits.1 rfl)
  exact ⟨patched, summary, hpatch⟩

theorem patch_postcondition_example :
    ∃ output layout layout' gap base, parseGraph (ExampleGraph.view {}) = .ok layout ∧
      parseGraph output = .ok layout' ∧
      Patched (Abi.version .v1) layout layout' exampleImage [exampleTarget 0] 16 gap base := by
  obtain ⟨output, summary, hpatch⟩ := example_patch
  obtain ⟨layout, layout', gap, base, hparse, hparse', -, -, hpatched⟩ :=
    patch_postcondition .v1 _ _ _ _ _ _ _ hpatch
  exact ⟨output, layout, layout', gap, base, hparse, hparse', hpatched⟩

/-! ## Invocations that no target names -/

/-- An invocation, named by a target or not, keeps its code if and only if no target
selects its range, or the image is that code. -/
theorem untargeted_code_preserved_iff (abi : Abi) (graphBlob image : View)
    (targets : List abi.Target) (imageAlignment tailPadding : ℕ) (output : View)
    (summary : PatchSummary) (layout layout' : GraphLayout)
    (h : patchGraphBlobWith abi.version graphBlob image targets imageAlignment tailPadding =
      .ok (output, summary))
    (hparse : parseGraph graphBlob = .ok layout) (hparse' : parseGraph output = .ok layout')
    (invocationIndex : ℕ) (hindex : invocationIndex < layout.invocations.size / 0x40)
    (code : List UInt8) (hcode : invocationCode layout invocationIndex = some code) :
    invocationCode layout' invocationIndex = some code ↔
      (∀ target ∈ targets,
        abi.version.rangeIndex target ≠ invocationRange layout invocationIndex) ∨
        code = slice image.data 0 image.size := by
  obtain ⟨run, details, plan, hrun, rfl⟩ := patchRun_of_eq_ok abi.lawful h
  obtain rfl : run = layout := by
    have heq := hrun.parse_eq
    rwa [hparse, Except.ok.injEq, eq_comm] at heq
  rw [hrun.parse_patched, Except.ok.injEq] at hparse'
  subst hparse'
  unfold invocationCode at hcode ⊢
  rw [hrun.recoded.invocationRange_eq hindex]
  by_cases huntargeted : ∀ target ∈ targets,
      abi.version.rangeIndex target ≠ invocationRange run invocationIndex
  · have hsame := hrun.designatedCode_untargeted (hrun.untargeted_of huntargeted) hcode
    exact ⟨fun _ => Or.inl huntargeted, fun _ => hsame⟩
  · obtain ⟨target, htarget, heq⟩ : ∃ target ∈ targets,
        abi.version.rangeIndex target = invocationRange run invocationIndex := by
      by_contra hnone
      exact huntargeted fun target htarget heq => hnone ⟨target, htarget, heq⟩
    obtain ⟨detail, hdetail, -, hrange⟩ := hrun.exists_detail htarget
    have hnew := hrun.designatedCode_targeted hdetail
    rw [hrange, heq] at hnew
    rw [hnew, Option.some.injEq]
    constructor
    · exact fun hsame => Or.inr hsame.symm
    · exact fun hsame => (hsame.resolve_left huntargeted).symm

theorem untargeted_code_preserved_iff_example :
    ∃ output layout layout' code, parseGraph (ExampleGraph.view {}) = .ok layout ∧
      parseGraph output = .ok layout' ∧ invocationCode layout 1 = some code ∧
      (invocationCode layout' 1 = some code ↔
        (∀ target ∈ [exampleTarget 0],
          (Abi.version .v1).rangeIndex target ≠ invocationRange layout 1) ∨
          code = slice exampleImage.data 0 exampleImage.size) := by
  obtain ⟨output, summary, hpatch⟩ := example_patch
  obtain ⟨layout, layout', -, -, hparse, hparse', -⟩ := patch_postcondition .v1 _ _ _ _ _ _ _ hpatch
  have hcode : (parseGraph (ExampleGraph.view {})).map (fun layout =>
      (layout.invocations.size, invocationCode layout 1)) =
        .ok (128, some (List.replicate 8 0x22)) := by
    decide +kernel
  rw [hparse, map_ok, Except.ok.injEq, Prod.mk.injEq] at hcode
  obtain ⟨hsize, hcode⟩ := hcode
  exact ⟨output, layout, layout', _, hparse, hparse', hcode,
    untargeted_code_preserved_iff .v1 _ _ _ _ _ _ _ _ _ hpatch hparse hparse' 1
      (by rw [hsize]; decide) _ hcode⟩

/-- The example graph with one range for both invocations. -/
def sharedGraph : ExampleGraph :=
  { secondRange := 0 }

theorem shared_request : sharedGraph.request [exampleTarget 0] = .ok true := by
  decide +kernel

/-- Two invocations share a range. A patch of the first changes the code of the second. -/
theorem untargeted_code_changes :
    ∃ output summary layout layout' code,
      patchGraphBlobWith (Abi.version .v1) sharedGraph.view exampleImage [exampleTarget 0] 16 0 =
        .ok (output, summary) ∧
      parseGraph sharedGraph.view = .ok layout ∧ parseGraph output = .ok layout' ∧
      1 < layout.invocations.size / 0x40 ∧
      (∀ target ∈ [exampleTarget 0], (Abi.version .v1).invocationIndex target ≠ 1) ∧
      invocationCode layout 1 = some code ∧ invocationCode layout' 1 ≠ some code := by
  obtain ⟨layout, details, plan, patched, hrequest, hwrite, hfits⟩ :=
    ExampleGraph.exists_of_request shared_request
  obtain ⟨summary, hpatch⟩ :=
    (patchGraphBlobWith_iff (Abi.lawful .v1) hrequest hwrite).2 (hfits.1 rfl)
  obtain ⟨layout, details, plan, hrun, rfl⟩ := patchRun_of_eq_ok (Abi.lawful .v1) hpatch
  have hcode : (parseGraph sharedGraph.view).map (fun layout =>
      (layout.invocations.size, invocationRange layout 1, invocationCode layout 1)) =
        .ok (128, 0, some (List.replicate 8 0x11)) := by
    decide +kernel
  rw [hrun.parse_eq, map_ok, Except.ok.injEq, Prod.mk.injEq, Prod.mk.injEq] at hcode
  obtain ⟨hsize, hrange, hcode⟩ := hcode
  have hindex : 1 < layout.invocations.size / 0x40 := by
    rw [hsize]
    decide
  obtain ⟨detail, hdetail, -, hselected⟩ := hrun.exists_detail (List.mem_singleton_self _)
  have hunnamed : ∀ target ∈ [exampleTarget 0],
      (Abi.version .v1).invocationIndex target ≠ 1 := by
    intro target htarget
    rw [List.mem_singleton.1 htarget]
    decide
  refine ⟨_, summary, layout, _, _, hpatch, hrun.parse_eq, hrun.parse_patched, hindex, hunnamed,
    hcode, ?_⟩
  have hnew := hrun.designatedCode_targeted hdetail
  rw [hselected] at hnew
  unfold invocationCode
  rw [hrun.recoded.invocationRange_eq hindex, hrange]
  refine fun heq => absurd (hnew.symm.trans heq) (by decide)

end Npunlock
