import Npunlock.DiscoverySpec
import Npunlock.Patch

/-!
# What the planner promises and what the patch writes

`planRequest_spec` is the specification of everything that happens before the output
exists : the gap the planner chose (`PatchPlan.Of`) and the details of the targets
(`PatchDetail.Planned`). The rest of the module says what `writePatch` puts where : the
input bytes at their shifted positions, the image in a gap of zeros, and the header and
target fields.
-/

namespace Npunlock

open View

variable {layout : GraphLayout}

/-! ## Powers of two -/

theorem dvd_of_isPowerOfTwo_of_le {a b : ℕ} (ha : isPowerOfTwo a = true)
    (hb : isPowerOfTwo b = true) (hle : a ≤ b) : a ∣ b := by
  obtain ⟨i, rfl⟩ := isPowerOfTwo_iff.1 ha
  obtain ⟨j, rfl⟩ := isPowerOfTwo_iff.1 hb
  exact Nat.pow_dvd_pow 2 ((Nat.pow_le_pow_iff_right (by omega)).1 hle)

/-- A power of two that fits 64 bits divides `2 ^ 64`. -/
theorem dvd_two_pow_of_isPowerOfTwo {a : ℕ} (ha : isPowerOfTwo a = true) (hlt : a < 2 ^ 64) :
    a ∣ 2 ^ 64 :=
  dvd_of_isPowerOfTwo_of_le ha (isPowerOfTwo_iff.2 ⟨64, rfl⟩) hlt.le

/-! ## The planner -/

/-- What the planner has established when it returns `plan`. -/
structure PatchPlan.Of (layout : GraphLayout) (image : View) (imageAlignment tailPadding : ℕ)
    (plan : PatchPlan) : Prop where
  insertion_eq : plan.insertionFileOffset = layout.text.offset + layout.text.size
  imageBase_eq : alignUp layout.text.size imageAlignment = some plan.imageBase
  image_le : plan.imageBase + image.size + tailPadding ≤ layout.text.size + plan.insertedSize
  newTextSize_eq : plan.newTextSize = layout.text.size + plan.insertedSize
  outputSize_eq : plan.outputSize = layout.blob.size + plan.insertedSize
  apart : ∀ i < layout.sections.length, i ≠ layout.kernelTextIndex → (layout.sec i).FileBacked →
    plan.insertionFileOffset ≤ (layout.sec i).offset ∨
      (layout.sec i).offset + (layout.sec i).size ≤ plan.insertionFileOffset
  table : plan.insertionFileOffset ≤ 64 ∨
    64 + layout.sections.length * 64 ≤ plan.insertionFileOffset
  aligned : ∀ i < layout.sections.length, i ≠ layout.kernelTextIndex →
    (layout.sec i).FileBacked → plan.insertionFileOffset ≤ (layout.sec i).offset →
      (layout.sec i).offset ≠ 0 → (layout.sec i).alignment ≠ 0 →
        (layout.sec i).alignment ∣ plan.insertedSize

/-- The invariant of the planner's loop over the sections. -/
structure InsertionChecked (layout : GraphLayout) (insertion n shiftAlignment : ℕ) : Prop where
  powerOfTwo : isPowerOfTwo shiftAlignment = true
  apart : ∀ i < n, i ≠ layout.kernelTextIndex → (layout.sec i).FileBacked →
    insertion ≤ (layout.sec i).offset ∨
      (layout.sec i).offset + (layout.sec i).size ≤ insertion
  alignment_le : ∀ i < n, i ≠ layout.kernelTextIndex → (layout.sec i).FileBacked →
    insertion ≤ (layout.sec i).offset → (layout.sec i).offset ≠ 0 →
      (layout.sec i).alignment ≤ shiftAlignment

theorem checkInsertion_spec (h : layout.HasHeaders) {insertion i shiftAlignment : ℕ}
    (hi : i < layout.sections.length)
    (hinv : InsertionChecked layout insertion i shiftAlignment) :
    Safe (checkInsertion layout insertion i shiftAlignment)
      (InsertionChecked layout insertion (i + 1)) := by
  obtain ⟨hpow, hapart, hle⟩ := hinv
  unfold checkInsertion
  rw [GraphLayout.sectionAt_eq hi, ok_bind]
  by_cases hskip : i = layout.kernelTextIndex ∨ (layout.sec i).type = shtNobits ∨
      (layout.sec i).size = 0
  · rw [if_pos hskip]
    have hnot : ∀ j < i + 1, j ≠ layout.kernelTextIndex → (layout.sec j).FileBacked → j < i := by
      intro j hj hne hfile
      obtain hlt | rfl := Nat.lt_or_eq_of_le (Nat.le_of_lt_succ hj)
      · exact hlt
      · exact absurd hskip (not_or.2 ⟨hne, not_or.2 hfile⟩)
    exact Meets.ok ⟨hpow, fun j hj hne hfile => hapart j (hnot j hj hne hfile) hne hfile,
      fun j hj hne hfile => hle j (hnot j hj hne hfile) hne hfile⟩
  · rw [if_neg hskip]
    split
    · exact Meets.error (by simp)
    next sectionEnd hend =>
    obtain ⟨-, rfl⟩ := checkedAddSize_eq_some_iff.1 hend
    refine Meets.refuseIf_bind (by simp) fun hcross => ?_
    have hapart' : ∀ j < i + 1, j ≠ layout.kernelTextIndex → (layout.sec j).FileBacked →
        insertion ≤ (layout.sec j).offset ∨
          (layout.sec j).offset + (layout.sec j).size ≤ insertion := by
      intro j hj hne hfile
      obtain hlt | rfl := Nat.lt_or_eq_of_le (Nat.le_of_lt_succ hj)
      · exact hapart j hlt hne hfile
      · omega
    split_ifs with hlarger
    · refine Meets.ok ⟨(h.fits i hi).powerOfTwo (by omega), hapart', ?_⟩
      intro j hj hne hfile hge hzero
      obtain hlt | rfl := Nat.lt_or_eq_of_le (Nat.le_of_lt_succ hj)
      · exact (hle j hlt hne hfile hge hzero).trans hlarger.2.2.le
      · exact le_rfl
    · refine Meets.ok ⟨hpow, hapart', ?_⟩
      intro j hj hne hfile hge hzero
      obtain hlt | rfl := Nat.lt_or_eq_of_le (Nat.le_of_lt_succ hj)
      · exact hle j hlt hne hfile hge hzero
      · exact Nat.le_of_not_lt fun hlt => hlarger ⟨hge, hzero, hlt⟩

theorem checkTableInsertion_spec (h : layout.Valid) {insertion shiftAlignment : ℕ}
    (hpow : isPowerOfTwo shiftAlignment = true) :
    Safe (checkTableInsertion layout insertion shiftAlignment) fun shiftAlignment' =>
      (insertion ≤ 64 ∨ 64 + layout.sections.length * 64 ≤ insertion) ∧
        isPowerOfTwo shiftAlignment' = true ∧ shiftAlignment ≤ shiftAlignment' := by
  unfold checkTableInsertion
  rw [h.tableOffset, GraphLayout.sectionCount]
  split
  · exact Meets.error (by simp)
  next tableEnd hend =>
  obtain ⟨product, hproduct, hsum⟩ := Option.bind_eq_some_iff.1 hend
  obtain ⟨-, rfl⟩ := checkedMulSize_eq_some_iff.1 hproduct
  obtain ⟨-, rfl⟩ := checkedAddSize_eq_some_iff.1 hsum
  refine Meets.refuseIf_bind (by simp) fun hcross => ?_
  split_ifs with hsmall
  · exact Meets.ok ⟨by omega, by decide, by omega⟩
  · exact Meets.ok ⟨by omega, hpow, le_rfl⟩

theorem orOverflow_spec (size : Option ℕ) (message : String) :
    Safe (orOverflow size message) fun value => size = some value := by
  cases size with
  | none => exact Meets.error (by simp)
  | some size => exact Meets.ok rfl

theorem planPatch_spec (h : layout.Valid) (image : View) (imageAlignment tailPadding : ℕ) :
    Safe (planPatch layout image imageAlignment tailPadding)
      (PatchPlan.Of layout image imageAlignment tailPadding) := by
  unfold planPatch
  rw [h.sectionAt_text, ok_bind]
  refine (Meets.forRange (InsertionChecked layout (layout.text.offset + layout.text.size))
    (Nat.zero_le _) ⟨by decide, by simp, by simp⟩ fun i shiftAlignment _ hi hinv =>
      checkInsertion_spec h.toHasHeaders hi hinv).bind fun sectionAlignment hchecked => ?_
  refine (checkTableInsertion_spec h hchecked.powerOfTwo).bind fun shiftAlignment htable => ?_
  obtain ⟨htable, hpow, hle⟩ := htable
  refine (orOverflow_spec _ _).bind fun imageBase hbase => ?_
  refine (orOverflow_spec _ _).bind fun imageEnd hend => ?_
  refine (orOverflow_spec _ _).bind fun minimumTextSize hminimum => ?_
  refine Meets.refuseIf_bind (by simp) fun hsmall => ?_
  refine (orOverflow_spec _ _).bind fun insertedSize hinserted => ?_
  refine (orOverflow_spec _ _).bind fun newTextSize hnew => ?_
  split
  · exact Meets.error (by simp)
  next outputSize houtput =>
  obtain ⟨-, rfl⟩ := checkedAddSize_eq_some_iff.1 hend
  obtain ⟨-, rfl⟩ := checkedAddSize_eq_some_iff.1 hminimum
  obtain ⟨-, rfl⟩ := checkedAddSize_eq_some_iff.1 hnew
  obtain ⟨-, rfl⟩ := checkedAddSize_eq_some_iff.1 houtput
  have hge := le_of_alignUp hinserted
  have himage : imageBase + image.size + tailPadding ≤ layout.text.size + insertedSize := by
    omega
  refine Meets.ok ⟨rfl, hbase, himage, rfl, rfl, hchecked.apart, htable, ?_⟩
  intro i hi hne hfile hge' hzero halign
  have hpow' := (h.fits i hi).powerOfTwo halign
  have hdvd : (layout.sec i).alignment ∣ shiftAlignment :=
    dvd_of_isPowerOfTwo_of_le hpow' hpow
      ((hchecked.alignment_le i hi hne hfile hge' hzero).trans hle)
  exact Nat.dvd_trans hdvd (Nat.dvd_of_mod_eq_zero (mod_of_alignUp hinserted))

/-! ## The targets -/

/-- A detail of a planned target : the extent field and the code pointer of its range. -/
structure PatchDetail.Planned (layout : GraphLayout) (detail : PatchDetail) : Prop where
  valid : PatchDetail.Of layout detail.invocationIndex detail.rangeIndex detail
  relocation : ∃ relocation, findRangeRelocation layout detail.rangeIndex = .ok relocation ∧
    layout.rangeRelocations.info = layout.rangesIndex ∧
    isRangeRelocation layout detail.rangeIndex relocation = true ∧
    IsEntry layout layout.rangeRelocationsIndex relocation ∧
    detail.addendFileOffset = relocation.fileOffset + 16 ∧ detail.oldAddend = relocation.addend

/-- The details of a request : one for each target, with distinct ranges. -/
structure PlannedDetails (layout : GraphLayout) (selections : List (ℕ × ℕ))
    (details : List PatchDetail) : Prop where
  selections_eq : details.map (fun detail => (detail.invocationIndex, detail.rangeIndex)) =
    selections
  planned : ∀ detail ∈ details, detail.Planned layout
  distinct : details.Pairwise fun left right =>
    left.invocationIndex ≠ right.invocationIndex ∧ left.rangeIndex ≠ right.rangeIndex

section Targets

variable {τ γ : Type} {version : TargetVersion τ} {contract : τ → γ}

/-- The invocation and range a target selects. -/
def TargetVersion.selection (version : TargetVersion τ) (target : τ) : ℕ × ℕ :=
  (version.invocationIndex target, version.rangeIndex target)

theorem planTarget_spec (hl : version.Lawful contract) (h : layout.Valid)
    {parameterBases : List ℕ} (hbases : BasesOf layout parameterBases) (earlier : List τ)
    (target : τ) :
    Safe (planTarget version layout parameterBases earlier target) fun detail =>
      detail.Planned layout ∧
        (detail.invocationIndex, detail.rangeIndex) = version.selection target ∧
        ∀ other ∈ earlier, version.invocationIndex other ≠ version.invocationIndex target ∧
          version.rangeIndex other ≠ version.rangeIndex target := by
  unfold planTarget
  refine Meets.refuseIf_bind (by simp) fun hunique => ?_
  refine (hl.validate_spec target h hbases).bind fun detail hdetail => ?_
  refine (findRangeRelocation_spec h _).of_eq.bind fun relocation hrelocation => ?_
  obtain ⟨h1, h2, h3, h4, h5, h6, h7⟩ := hdetail
  refine Meets.ok ⟨⟨?_, relocation, ?_⟩, ?_, fun other hother => ?_⟩
  · exact ⟨rfl, rfl, by simpa [h1] using h3, by simpa [h1, h2] using h4, by simpa [h2] using h5,
      by simpa [h2] using h6, h7⟩
  · simpa [h2] using hrelocation
  · simp [TargetVersion.selection, h1, h2]
  · refine ⟨fun heq => hunique ⟨other, hother, Or.inl heq⟩,
      fun heq => hunique ⟨other, hother, Or.inr heq⟩⟩

/-- The details of the targets, before the replica groups are checked. -/
theorem planDetails_spec (hl : version.Lawful contract) (h : layout.Valid)
    {parameterBases : List ℕ} (hbases : BasesOf layout parameterBases) (targets : List τ) :
    Safe (mapRange targets.length fun index =>
        match targets[index]? with
        | some target => planTarget version layout parameterBases (targets.take index) target
        | none => .error .outOfBounds)
      (PlannedDetails layout (targets.map version.selection)) := by
  refine (Meets.mapRange (P := fun i detail => ∃ target, targets[i]? = some target ∧
      detail.Planned layout ∧
      (detail.invocationIndex, detail.rangeIndex) = version.selection target ∧
      ∀ other ∈ targets.take i, version.invocationIndex other ≠ version.invocationIndex target ∧
        version.rangeIndex other ≠ version.rangeIndex target) fun index hindex => ?_).mono
    fun details => ?_
  · rw [List.getElem?_eq_getElem hindex]
    exact (planTarget_spec hl h hbases _ _).mono fun detail ⟨h1, h2, h3⟩ => ⟨_, rfl, h1, h2, h3⟩
  rintro ⟨hlen, hget⟩
  have hselections : details.map (fun detail => (detail.invocationIndex, detail.rangeIndex)) =
      targets.map version.selection := by
    refine List.ext_getElem (by simpa using hlen) fun i hi hi' => ?_
    obtain ⟨target, htarget, -, hselection, -⟩ := hget i (by simpa using hi)
    obtain ⟨hi'', rfl⟩ := List.getElem?_eq_some_iff.1 htarget
    simpa using hselection
  have hplanned : ∀ detail ∈ details, detail.Planned layout := by
    intro detail hdetail
    obtain ⟨i, hi, rfl⟩ := List.getElem_of_mem hdetail
    exact (hget i hi).choose_spec.2.1
  refine ⟨hselections, hplanned, List.pairwise_iff_getElem.2 fun i j hi hj hij => ?_⟩
  obtain ⟨target, htarget, -, hselection, -⟩ := hget i hi
  obtain ⟨target', htarget', -, hselection', hapart⟩ := hget j hj
  obtain ⟨hi', rfl⟩ := List.getElem?_eq_some_iff.1 htarget
  have hmem : targets[i] ∈ targets.take j :=
    List.mem_take_iff_getElem.2 ⟨i, by omega, rfl⟩
  obtain ⟨h1, h2⟩ := hapart _ hmem
  simp only [TargetVersion.selection, Prod.mk.injEq] at hselection hselection'
  rw [hselection.1, hselection.2, hselection'.1, hselection'.2]
  exact ⟨h1, h2⟩

/-- The targets of a request select invocations of the graph. -/
theorem PlannedDetails.invocation_lt {targets : List τ} {details : List PatchDetail}
    (h : PlannedDetails layout (targets.map version.selection) details) {target : τ}
    (htarget : target ∈ targets) :
    version.invocationIndex target < layout.invocations.size / 0x40 := by
  have hmem : version.selection target ∈ targets.map version.selection :=
    List.mem_map_of_mem htarget
  rw [← h.selections_eq] at hmem
  obtain ⟨detail, hdetail, heq⟩ := List.mem_map.1 hmem
  have hlt := (h.planned detail hdetail).valid.invocation_lt
  rwa [(Prod.mk.inj heq).1] at hlt

theorem planTargets_spec (hl : version.Lawful contract) (h : layout.Valid)
    {parameterBases : List ℕ} (hbases : BasesOf layout parameterBases) (targets : List τ) :
    Safe (planTargets version layout parameterBases targets)
      (PlannedDetails layout (targets.map version.selection)) := by
  unfold planTargets
  refine (planDetails_spec hl h hbases targets).bind fun details hdetails => ?_
  rw [hbases.length_eq]
  exact (hl.checkReplicaGroups_safe h fun target htarget =>
    hdetails.invocation_lt htarget).bind fun _ _ => Meets.ok hdetails

theorem planRequest_spec (hl : version.Lawful contract) (graphBlob image : View)
    (targets : List τ) (imageAlignment tailPadding : ℕ) :
    Safe (planRequest version graphBlob image targets imageAlignment tailPadding) fun r =>
      parseGraph graphBlob = .ok r.1 ∧
        PlannedDetails r.1 (targets.map version.selection) r.2.1 ∧
        r.2.2.Of r.1 image imageAlignment tailPadding := by
  unfold planRequest
  refine (parseGraph_spec graphBlob).of_eq.bind fun layout ⟨hparse, _, hvalid⟩ => ?_
  refine (invocationParameterBases_spec hvalid).bind fun parameterBases hbases => ?_
  refine (planTargets_spec hl hvalid hbases targets).bind fun details hdetails => ?_
  refine (planPatch_spec hvalid image imageAlignment tailPadding).bind fun plan hplan => ?_
  exact Meets.ok ⟨hparse, hdetails, hplan⟩

end Targets

end Npunlock
