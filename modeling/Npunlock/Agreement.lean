import Npunlock.SelfCheck
import Npunlock.Validation

/-!
# The two versions of the target records

Version 1 describes the tensors of an invocation by one contract, version 2 by a list.
On a graph that version 1 discovery accepts, version 2 discovery returns the same records
with the contract spelled out (`discoverGraphTargets_toV2`), and a patch with the one or
the other does the same (`patchGraphBlobWith_toV2`). `legacyTargetsFromV2` is the
projection of version 2 targets to version 1 that the Python front end makes.
-/

namespace Npunlock

open View

variable {layout : GraphLayout} {parameterBases : List ℕ}

/-! ## Validation -/

/-- Two details of one target that a patch treats alike. -/
def SameFields (detail detail' : PatchDetail) : Prop :=
  detail.invocationIndex = detail'.invocationIndex ∧ detail.rangeIndex = detail'.rangeIndex ∧
    detail.extentFileOffset = detail'.extentFileOffset ∧
    detail.addendFileOffset = detail'.addendFileOffset

theorem sameFields_of_validate (h : layout.Valid) (hbases : BasesOf layout parameterBases)
    {target : PatchblobTarget} {detail detail' : PatchDetail}
    (hvalid : validateTarget layout parameterBases target = .ok detail)
    (hvalid' : validateTargetV2 layout parameterBases target.toV2 = .ok detail') :
    SameFields detail detail' := by
  obtain ⟨-, -, base, inputs, output, -, -, -, -, rfl⟩ :=
    (validateTarget_eq_ok_iff h hbases).1 hvalid
  obtain ⟨-, -, base', inputs', output', -, -, -, rfl⟩ :=
    (validateTargetV2_eq_ok_iff h hbases rfl).1 hvalid'
  exact ⟨rfl, rfl, rfl, rfl⟩

/-- A target of version 1 is valid if and only if its contract, spelled out, is. -/
theorem validate_toV2_iff (h : layout.Valid) (hbases : BasesOf layout parameterBases)
    {target : PatchblobTarget} (hflags : checkContractFlags target = .ok ())
    (hcount : 0 < target.expectedInputCount) :
    (∃ detail, validateTarget layout parameterBases target = .ok detail) ↔
      ∃ detail, validateTargetV2 layout parameterBases target.toV2 = .ok detail := by
  constructor
  · rintro ⟨detail, hvalid⟩
    obtain ⟨-, height, base, inputs, output, hselected, hlen, hinputs, houtput, -⟩ :=
      (validateTarget_eq_ok_iff h hbases).1 hvalid
    have haccepted : output.Accepted := by
      refine (validateMemref_spec h (base + inputs.length * 0x28)).value _ ?_
      rw [hselected.block.memref_eq inputs.length (by simp)]
      simp
    have hcontract := PatchblobTarget.checkContractV2_toV2 hflags hcount
      (.of_matches haccepted houtput)
    refine ⟨_, (validateTargetV2_eq_ok_iff h hbases rfl).2 ⟨⟨rfl, by simpa, by simpa⟩, hcontract,
      base, inputs, output, hselected, ?_, houtput, rfl⟩⟩
    refine List.forall₂_iff_get.2 ⟨by simp [hlen], fun i hi hi' => ?_⟩
    rw [List.get_eq_getElem, target.getElem_inputsV2]
    exact hinputs i hi'
  · rintro ⟨detail, hvalid⟩
    obtain ⟨⟨-, -, height⟩, -, base, inputs, output, hselected, hinputs, houtput, -⟩ :=
      (validateTargetV2_eq_ok_iff h hbases rfl).1 hvalid
    obtain ⟨hlen, hinputs⟩ := List.forall₂_iff_get.1 hinputs
    rw [target.length_inputsV2] at hlen height
    refine ⟨_, (validateTarget_eq_ok_iff h hbases).2 ⟨hflags, height, base, inputs, output,
      hselected, hlen.symm, fun i hi => ?_, houtput, rfl⟩⟩
    have hmatches := hinputs i (by rw [target.length_inputsV2]; omega) hi
    rwa [List.get_eq_getElem, target.getElem_inputsV2] at hmatches

/-! ## Discovery -/

/-- A discovered record with its contract spelled out. -/
def DiscoveredTarget.toV2 (record : DiscoveredTarget PatchblobTarget) :
    DiscoveredTarget PatchblobTargetV2 where
  groupIndex := record.groupIndex
  target := record.target.toV2

theorem describeTensorV2_input {target : PatchblobTarget} {tensor : MemrefContract} {i : ℕ}
    (hi : i < target.expectedInputCount) (hmatches : (target.inputV2 i).Matches tensor) :
    describeTensorV2 (target.expectedInputCount + 1) i tensor = target.inputV2 i := by
  obtain ⟨helements, hspan, hdtype⟩ := hmatches
  rw [PatchblobTarget.inputV2, target.dtypeFromPublicPrecisionV2_dtype] at hdtype
  unfold describeTensorV2
  rw [helements, hspan, hdtype]
  simp only [if_neg (show ¬i + 1 = target.expectedInputCount + 1 by omega)]
  rfl

theorem describeTensorV2_output {target : PatchblobTarget} {tensor : MemrefContract}
    (hmatches : target.outputV2.Matches tensor) :
    describeTensorV2 (target.expectedInputCount + 1) target.expectedInputCount tensor =
      target.outputV2 := by
  obtain ⟨helements, hspan, hdtype⟩ := hmatches
  rw [PatchblobTarget.outputV2, target.dtypeFromPublicPrecisionV2_dtype] at hdtype
  unfold describeTensorV2
  rw [helements, hspan, hdtype]
  simp only [if_true]
  rfl

theorem hasMixedPrecision_toV2 (target : PatchblobTarget) :
    hasMixedPrecision (target.inputsV2 ++ [target.outputV2]) = false := by
  have hprecision : ∀ tensor ∈ target.inputsV2 ++ [target.outputV2],
      tensor.precision = publicPrecisionV2 target.dtype := by
    intro tensor htensor
    rcases List.mem_append.1 htensor with hinput | houtput
    · obtain ⟨i, -, rfl⟩ := List.mem_map.1 hinput
      rfl
    · rw [List.mem_singleton.1 houtput]
      rfl
  generalize target.inputsV2 ++ [target.outputV2] = tensors at hprecision
  cases tensors with
  | nil => rfl
  | cons first rest =>
    obtain ⟨hfirst, hrest⟩ := List.forall_mem_cons.1 hprecision
    refine List.any_eq_false.2 fun tensor htensor => ?_
    simp [hrest tensor htensor, hfirst]

theorem of_countRecords {index recordCount base : ℕ}
    (hcount : countRecords layout parameterBases index = .ok (recordCount, base)) :
    parameterBaseAt parameterBases index = .ok base ∧ 2 ≤ recordCount := by
  unfold countRecords at hcount
  obtain ⟨_, -, hcount⟩ := bind_eq_ok_iff.1 hcount
  obtain ⟨base', hbase, hcount⟩ := bind_eq_ok_iff.1 hcount
  obtain ⟨_, -, hcount⟩ := bind_eq_ok_iff.1 hcount
  obtain ⟨_, -, hcount⟩ := bind_eq_ok_iff.1 hcount
  obtain ⟨hguard, hcount⟩ := refuseIf_bind_eq_ok_iff.1 hcount
  cases hcount
  exact ⟨hbase, by omega⟩

theorem of_describeTarget (h : layout.Valid) {index : ℕ} {target : PatchblobTarget}
    (hdescribe : describeTarget layout parameterBases index = .ok target) :
    (∃ base, countRecords layout parameterBases index =
        .ok (target.expectedInputCount + 1, base) ∧
      parameterBaseAt parameterBases index = .ok base) ∧
    layout.blob.readU32 (layout.invocations.offset + index * 0x40) = .ok target.rangeIndex ∧
      target.invocationIndex = index ∧ 0 < target.expectedInputCount := by
  unfold describeTarget at hdescribe
  obtain ⟨⟨recordCount, base⟩, hcount, hdescribe⟩ := bind_eq_ok_iff.1 hdescribe
  obtain ⟨firstInput, -, hdescribe⟩ := bind_eq_ok_iff.1 hdescribe
  rw [h.sectionAt_invocations, ok_bind] at hdescribe
  obtain ⟨rangeIndex, hrange, hdescribe⟩ := bind_eq_ok_iff.1 hdescribe
  obtain ⟨scalarFlag, -, hdescribe⟩ := bind_eq_ok_iff.1 hdescribe
  obtain ⟨hbase, htwo⟩ := of_countRecords hcount
  cases hdescribe
  dsimp only
  rw [Nat.sub_add_cancel (by omega)]
  exact ⟨⟨base, hcount, hbase⟩, hrange, rfl, by omega⟩

/-- Version 2 describes an invocation by the contract that version 1 found valid. -/
theorem describeTargetV2_eq_toV2 (h : layout.Valid) (hbases : BasesOf layout parameterBases)
    {index : ℕ} {target : PatchblobTarget} {detail : PatchDetail}
    (hdescribe : describeTarget layout parameterBases index = .ok target)
    (hvalid : validateTarget layout parameterBases target = .ok detail) :
    describeTargetV2 layout parameterBases index = .ok target.toV2 := by
  obtain ⟨-, -, base', inputs, output, hselected, hlen, hinputs, houtput, -⟩ :=
    (validateTarget_eq_ok_iff h hbases).1 hvalid
  obtain ⟨⟨base, hcount, hbase⟩, hrange, rfl, -⟩ := of_describeTarget h hdescribe
  obtain rfl : base = base' := Except.ok.inj (hbase.symm.trans hselected.block.base_eq)
  have hblockLen : (inputs ++ [output]).length = target.expectedInputCount + 1 := by
    simp [hlen]
  have hroom := hselected.block.block_le
  rw [hblockLen] at hroom
  have htensors : (mapRange (target.expectedInputCount + 1) fun tensorIndex => do
      let slot ← addSize base (tensorIndex * 0x28)
      let actual ← validateMemref layout slot
      .ok (describeTensorV2 (target.expectedInputCount + 1) tensorIndex actual)) =
      .ok (target.inputsV2 ++ [target.outputV2]) := by
    refine mapRange_eq_ok_iff.2 ⟨by simp, fun i hi => ?_⟩
    rw [List.length_append, List.length_singleton, target.length_inputsV2] at hi
    rw [addSize_slot h hbases hbase hroom hi, ok_bind,
      hselected.block.memref_eq i (by omega), ok_bind]
    by_cases hinput : i < target.expectedInputCount
    · rw [List.getElem_append_left (by omega), List.getElem_append_left (by simpa),
        target.getElem_inputsV2, describeTensorV2_input hinput (hinputs i (by omega))]
    · obtain rfl : i = target.expectedInputCount := by omega
      simp [← hlen, ← describeTensorV2_output houtput]
  unfold describeTargetV2
  rw [hcount, ok_bind]
  dsimp only
  rw [h.sectionAt_invocations, ok_bind, hrange, ok_bind, htensors, ok_bind,
    hasMixedPrecision_toV2]
  rfl

theorem contract_toV2 {left right : PatchblobTarget} (h : left.contract = right.contract) :
    left.toV2.contract = right.toV2.contract := by
  obtain ⟨_, _, _, _, _, _⟩ := left
  obtain ⟨_, _, _, _, _, _⟩ := right
  simp only [PatchblobTarget.contract, Prod.mk.injEq] at h
  obtain ⟨rfl, rfl, rfl, rfl⟩ := h
  rfl

theorem startsGroup_toV2 (records : List (DiscoveredTarget PatchblobTarget)) (other : ℕ) :
    startsGroup (records.map DiscoveredTarget.toV2) other = startsGroup records other := by
  simp only [startsGroup, List.getElem?_map, Option.map_map]
  rfl

theorem joinGroup_toV2 {records : List (DiscoveredTarget PatchblobTarget)}
    {groupCount index groupCount' : ℕ} {target : PatchblobTarget}
    (hjoin : joinGroup targetVersion1 layout records groupCount target index = .ok groupCount') :
    joinGroup targetVersion2 layout (records.map DiscoveredTarget.toV2) groupCount target.toV2
      index = .ok groupCount' := by
  unfold joinGroup at hjoin ⊢
  simp only [startsGroup_toV2]
  obtain ⟨continues, hcontinues, hjoin⟩ := bind_eq_ok_iff.1 hjoin
  refine bind_eq_ok_iff.2 ⟨continues, hcontinues, ?_⟩
  split_ifs at hjoin ⊢
  · rw [List.getElem?_map]
    cases hprevious : records[index - 1]? with
    | none =>
      rw [hprevious] at hjoin
      cases hjoin
    | some previous =>
      rw [hprevious] at hjoin
      obtain ⟨hsame, hjoin⟩ := refuseIf_bind_eq_ok_iff.1 hjoin
      have hcontract := contract_toV2 ((contractsEqual_iff _ _).1 (not_not.1 hsame))
      exact refuseIf_bind_eq_ok_iff.2
        ⟨not_not.2 ((tensorContractsV2Equal_iff _ _).2 hcontract), hjoin⟩
  · exact hjoin

/-- A step of the pass in version 1 is one in version 2. -/
theorem discoverRecord_toV2 (h : layout.Valid) (hbases : BasesOf layout parameterBases)
    {index groupCount : ℕ} {records : List (DiscoveredTarget PatchblobTarget)}
    {state : List (DiscoveredTarget PatchblobTarget) × ℕ}
    (hrecord : discoverRecord targetVersion1 layout parameterBases index (records, groupCount) =
      .ok state) :
    discoverRecord targetVersion2 layout parameterBases index
      (records.map DiscoveredTarget.toV2, groupCount) =
        .ok (state.1.map DiscoveredTarget.toV2, state.2) := by
  unfold discoverRecord at hrecord
  obtain ⟨target, hdescribe, hrecord⟩ := bind_eq_ok_iff.1 hrecord
  obtain ⟨detail, hvalid, hrecord⟩ := bind_eq_ok_iff.1 hrecord
  obtain ⟨relocation, hfind, hrecord⟩ := bind_eq_ok_iff.1 hrecord
  obtain ⟨hunique, hrecord⟩ := refuseIf_bind_eq_ok_iff.1 hrecord
  obtain ⟨groupCount', hjoin, hrecord⟩ := bind_eq_ok_iff.1 hrecord
  cases hrecord
  obtain ⟨hflags, -⟩ := (validateTarget_eq_ok_iff h hbases).1 hvalid
  obtain ⟨-, -, -, hcount⟩ := of_describeTarget h hdescribe
  obtain ⟨detail', hvalid'⟩ := (validate_toV2_iff h hbases hflags hcount).1 ⟨detail, hvalid⟩
  have hunique' : ¬∃ other ∈ records.map DiscoveredTarget.toV2,
      other.target.rangeIndex = target.toV2.rangeIndex := by
    rintro ⟨other, hother, hsame⟩
    obtain ⟨record, hrecord, rfl⟩ := List.mem_map.1 hother
    exact hunique ⟨record, hrecord, hsame⟩
  unfold discoverRecord
  refine bind_eq_ok_iff.2 ⟨_, describeTargetV2_eq_toV2 h hbases hdescribe hvalid,
    bind_eq_ok_iff.2 ⟨_, hvalid', bind_eq_ok_iff.2 ⟨_, hfind, refuseIf_bind_eq_ok_iff.2
      ⟨hunique', bind_eq_ok_iff.2 ⟨_, joinGroup_toV2 hjoin, ?_⟩⟩⟩⟩⟩
  rw [List.map_append]
  rfl

/-- Where version 1 discovery succeeds, version 2 discovery returns its records with the
contracts spelled out. -/
theorem discoverGraphTargets_toV2 {blob : View}
    {records : List (DiscoveredTarget PatchblobTarget)} {groupCount : ℕ}
    (hdiscover : discoverGraphTargetsWith targetVersion1 blob = .ok (records, groupCount)) :
    discoverGraphTargetsWith targetVersion2 blob =
      .ok (records.map DiscoveredTarget.toV2, groupCount) := by
  unfold discoverGraphTargetsWith at hdiscover ⊢
  obtain ⟨layout, hparse, hdiscover⟩ := bind_eq_ok_iff.1 hdiscover
  rw [hparse, ok_bind]
  have h := GraphLayout.Valid.of_parse hparse
  unfold discoverRecords at hdiscover ⊢
  obtain ⟨parameterBases, hbases, hdiscover⟩ := bind_eq_ok_iff.1 hdiscover
  rw [hbases, ok_bind]
  have hbasesOf := (invocationParameterBases_spec h).value _ hbases
  rw [h.sectionAt_ranges, ok_bind] at hdiscover ⊢
  obtain ⟨hguard, hdiscover⟩ := refuseIf_bind_eq_ok_iff.1 hdiscover
  have hstep : ∀ index s t u, 0 ≤ index → index < parameterBases.length →
      t = (s.1.map DiscoveredTarget.toV2, s.2) →
      discoverRecord targetVersion1 layout parameterBases index s = .ok u →
        ∃ v, discoverRecord targetVersion2 layout parameterBases index t = .ok v ∧
          v = (u.1.map DiscoveredTarget.toV2, u.2) := by
    rintro index s t u - - rfl hu
    exact ⟨_, discoverRecord_toV2 h hbasesOf hu, rfl⟩
  obtain ⟨_, hrun, rfl⟩ := forRange_simulation
    (fun _ (s : List (DiscoveredTarget PatchblobTarget) × ℕ) t =>
      t = (s.1.map DiscoveredTarget.toV2, s.2)) hdiscover (Nat.zero_le _) rfl hstep
  exact refuseIf_bind_eq_ok_iff.2 ⟨hguard, hrun⟩

/-! ## Patches -/

/-- Both versions accept the target. -/
structure BothValid (layout : GraphLayout) (parameterBases : List ℕ) (target : PatchblobTarget) :
    Prop where
  version1 : ∃ detail, validateTarget layout parameterBases target = .ok detail
  version2 : ∃ detail, validateTargetV2 layout parameterBases target.toV2 = .ok detail

theorem planTarget_toV2 (h : layout.Valid) (hbases : BasesOf layout parameterBases)
    {target : PatchblobTarget} (hboth : BothValid layout parameterBases target)
    (earlier : List PatchblobTarget) :
    Agree SameFields (planTarget targetVersion1 layout parameterBases earlier target)
      (planTarget targetVersion2 layout parameterBases (earlier.map PatchblobTarget.toV2)
        target.toV2) := by
  obtain ⟨⟨detail, hvalid⟩, detail', hvalid'⟩ := hboth
  obtain ⟨hinvocation, hrange, hextent, -⟩ := sameFields_of_validate h hbases hvalid hvalid'
  unfold planTarget
  refine Agree.refuseIf_bind ?_ fun _ => ?_
  · simp only [List.mem_map, exists_exists_and_eq_and]
    exact Iff.rfl
  · refine Agree.bind (R := SameFields) ?_ fun d d' _ _ hsame => ?_
    · change Agree SameFields (validateTarget layout parameterBases target)
        (validateTargetV2 layout parameterBases target.toV2)
      rw [hvalid, hvalid']
      exact Agree.ok (sameFields_of_validate h hbases hvalid hvalid')
    · refine Agree.bind_eq rfl fun relocation _ => Agree.ok ?_
      exact ⟨hsame.1, hsame.2.1, hsame.2.2.1, rfl⟩

theorem planTargets_toV2 (h : layout.Valid) (hbases : BasesOf layout parameterBases)
    {targets : List PatchblobTarget}
    (hboth : ∀ target ∈ targets, BothValid layout parameterBases target) :
    Agree (List.Forall₂ SameFields) (planTargets targetVersion1 layout parameterBases targets)
      (planTargets targetVersion2 layout parameterBases (targets.map PatchblobTarget.toV2)) := by
  unfold planTargets
  rw [List.length_map]
  refine (Agree.mapRange (R := SameFields) fun index hindex => ?_).bind
    fun details details' _ _ hsame => ?_
  · rw [List.getElem?_map, List.getElem?_eq_getElem hindex, ← List.map_take]
    exact planTarget_toV2 h hbases (hboth _ (List.getElem_mem hindex)) _
  · -- no target is a conversion
    have hgroups : checkReplicaGroups layout parameterBases.length
        (targets.map PatchblobTarget.toV2) = .ok () := by
      refine forM_eq_ok_iff.2 fun target htarget => ?_
      obtain ⟨target, -, rfl⟩ := List.mem_map.1 htarget
      exact if_pos (Nat.zero_and _)
    exact Agree.bind_eq hgroups fun _ _ => Agree.ok hsame

theorem writeTargets_congr {plan : PatchPlan} {imageSize : ℕ} {details details' : List PatchDetail}
    (hsame : List.Forall₂ SameFields details details') :
    ∀ m, plan.writeTargets imageSize details' m = plan.writeTargets imageSize details m := by
  induction hsame with
  | nil => exact fun _ => rfl
  | cons hfields _ ih =>
    obtain ⟨-, -, hextent, haddend⟩ := hfields
    intro m
    rw [PatchPlan.writeTargets, PatchPlan.writeTargets, PatchPlan.writeTarget,
      PatchPlan.writeTarget, hextent, haddend]
    exact bind_congr fun _ => ih _

theorem oldByteMayChange_congr {plan : PatchPlan} {imageSize : ℕ}
    {details details' : List PatchDetail} (hsame : List.Forall₂ SameFields details details')
    (offset : ℕ) :
    oldByteMayChange layout plan (details'.map (plan.patchedDetail imageSize)) offset =
      oldByteMayChange layout plan (details.map (plan.patchedDetail imageSize)) offset := by
  unfold oldByteMayChange
  dsimp only
  congr 1
  induction hsame with
  | nil => rfl
  | @cons detail detail' _ _ hfields _ ih =>
    obtain ⟨-, -, hextent, haddend⟩ := hfields
    rw [List.map_cons, List.map_cons, List.any_cons, List.any_cons, ih]
    cases detail
    cases detail'
    dsimp only at hextent haddend
    subst hextent haddend
    rfl

theorem checkOutput_congr {plan : PatchPlan} {image patched : View}
    {details details' : List PatchDetail} (hsame : List.Forall₂ SameFields details details') :
    checkOutput layout plan image (details'.map (plan.patchedDetail image.size)) patched =
      checkOutput layout plan image (details.map (plan.patchedDetail image.size)) patched := by
  have hbyte : ∀ newLayout, verifyByte layout newLayout plan
      (details'.map (plan.patchedDetail image.size)) =
        verifyByte layout newLayout plan (details.map (plan.patchedDetail image.size)) := by
    intro newLayout
    funext index
    unfold verifyByte
    rw [oldByteMayChange_congr hsame]
  unfold checkOutput verifyPreservation
  simp only [hbyte]

/-- Targets that both versions accept are patched alike : with one output, or one error. -/
theorem patchGraphBlobWith_toV2 {graphBlob : View} (hparse : parseGraph graphBlob = .ok layout)
    (hbases : invocationParameterBases layout = .ok parameterBases)
    {targets : List PatchblobTarget}
    (hboth : ∀ target ∈ targets, BothValid layout parameterBases target) (image : View)
    (imageAlignment tailPadding : ℕ) :
    Agree (fun r r' => r.1 = r'.1)
      (patchGraphBlobWith targetVersion1 graphBlob image targets imageAlignment tailPadding)
      (patchGraphBlobWith targetVersion2 graphBlob image (targets.map PatchblobTarget.toV2)
        imageAlignment tailPadding) := by
  have h := GraphLayout.Valid.of_parse hparse
  have hbasesOf := (invocationParameterBases_spec h).value _ hbases
  have hrequest : Agree (fun r r' => r.1 = r'.1 ∧ List.Forall₂ SameFields r.2.1 r'.2.1 ∧
      r.2.2 = r'.2.2)
      (planRequest targetVersion1 graphBlob image targets imageAlignment tailPadding)
      (planRequest targetVersion2 graphBlob image (targets.map PatchblobTarget.toV2)
        imageAlignment tailPadding) := by
    unfold planRequest
    rw [hparse, ok_bind, ok_bind, hbases, ok_bind, ok_bind]
    refine (planTargets_toV2 h hbasesOf hboth).bind fun details details' _ _ hsame => ?_
    exact Agree.bind_eq rfl fun plan _ => Agree.ok ⟨rfl, hsame, rfl⟩
  unfold patchGraphBlobWith
  refine hrequest.bind fun r r' _ _ hr => ?_
  obtain ⟨layout, details, plan⟩ := r
  obtain ⟨layout', details', plan'⟩ := r'
  obtain ⟨rfl, hsame, rfl⟩ := hr
  dsimp only at hsame ⊢
  have hwrite : writePatch layout plan image details' = writePatch layout plan image details := by
    unfold writePatch
    simp only [writeTargets_congr hsame]
  refine Agree.bind_eq hwrite fun patched _ => ?_
  exact Agree.bind_eq (checkOutput_congr hsame) fun _ _ => Agree.ok rfl

end Npunlock
