import Npunlock.PatchSpec
import Npunlock.RecodedTarget

/-!
# Discovery and planning in a recoded graph

`discoverRecords_recoded` : the pass over the invocations returns the same records on a
recoded graph. `planTargets_recoded` : targets that can be planned in one can be planned
in the other. Both versions of the target records are `Stable`, which is what the two
proofs use of a version.
-/

namespace Npunlock

variable {layout layout' : GraphLayout}

/-! ## Group identities -/

theorem invocationGroupIdentityEqual_recoded (h : Recoded layout layout') {left right : ℕ}
    (hleft : left < layout.invocations.size / 0x40)
    (hright : right < layout.invocations.size / 0x40) :
    invocationGroupIdentityEqual layout' left right =
      invocationGroupIdentityEqual layout left right := by
  have hw := h.window_invocations
  have hl := hw.sub (left * 0x40) 0x40 (by omega)
  have hr := hw.sub (right * 0x40) 0x40 (by omega)
  unfold invocationGroupIdentityEqual
  simp only [h.sectionAt_invocations, h.located.sectionAt_invocations, ok_bind]
  rw [(hl.sub 0x0c 0x24 (by omega)).readBytes, (hr.sub 0x0c 0x24 (by omega)).readBytes,
    (hl.sub 0x3c 4 (by omega)).readBytes, (hr.sub 0x3c 4 (by omega)).readBytes]

/-! ## The two versions -/

/-- A version of the target records that does not see where code is. -/
structure TargetVersion.Stable {τ : Type} (version : TargetVersion τ) : Prop where
  describe_recoded : ∀ {layout layout' : GraphLayout} {parameterBases : List ℕ} {index : ℕ},
    Recoded layout layout' → BasesOf layout parameterBases → index < parameterBases.length →
      Agree Eq (version.describe layout parameterBases index)
        (version.describe layout' parameterBases index)
  validate_recoded : ∀ {layout layout' : GraphLayout} {parameterBases : List ℕ} (target : τ),
    Recoded layout layout' → BasesOf layout parameterBases →
      Agree SameDetail (version.validate layout parameterBases target)
        (version.validate layout' parameterBases target)
  checkReplicaGroups_recoded : ∀ {layout layout' : GraphLayout} {targets : List τ},
    Recoded layout layout' →
      (∀ target ∈ targets, version.invocationIndex target < layout.invocations.size / 0x40) →
      Agree Eq (version.checkReplicaGroups layout (layout.invocations.size / 0x40) targets)
        (version.checkReplicaGroups layout' (layout.invocations.size / 0x40) targets)

theorem countRecords_recoded (h : Recoded layout layout') (parameterBases : List ℕ) (index : ℕ) :
    Agree Eq (countRecords layout parameterBases index)
      (countRecords layout' parameterBases index) := by
  unfold countRecords
  simp only [h.sectionAt_params, h.located.sectionAt_params, ok_bind]
  rw [h.params_size_eq]
  refine Agree.bind_eq rfl fun base _ => ?_
  refine (countDataPointerRelocations_recoded h _ _).bind fun recordCount _ _ _ heq => ?_
  subst heq
  exact Agree.refl (fun _ => rfl) _

theorem scalarInputFlag_recoded (h : Recoded layout layout') (base : ℕ)
    (firstInput : MemrefContract) (inputCount : ℕ) :
    Agree Eq (scalarInputFlag layout base firstInput inputCount)
      (scalarInputFlag layout' base firstInput inputCount) := by
  unfold scalarInputFlag
  split_ifs
  · refine Agree.bind_eq rfl fun secondSlot _ => ?_
    refine (validateMemref_recoded h secondSlot).bind fun secondInput _ _ _ heq => ?_
    subst heq
    refine Agree.bind_eq rfl fun outputSlot _ => ?_
    refine (validateMemref_recoded h outputSlot).bind fun output _ _ _ heq => ?_
    subst heq
    exact Agree.ok rfl
  · exact Agree.ok rfl

theorem describeTarget_recoded (h : Recoded layout layout') {parameterBases : List ℕ}
    (hbases : BasesOf layout parameterBases) {index : ℕ} (hindex : index < parameterBases.length) :
    Agree Eq (describeTarget layout parameterBases index)
      (describeTarget layout' parameterBases index) := by
  have hw := h.window_invocations
  rw [hbases.length_eq] at hindex
  unfold describeTarget
  refine (countRecords_recoded h parameterBases index).bind fun r _ _ _ heq => ?_
  subst heq
  refine (validateMemref_recoded h r.2).bind fun firstInput _ _ _ heq => ?_
  subst heq
  simp only [h.sectionAt_invocations, h.located.sectionAt_invocations, ok_bind]
  refine Agree.bind_eq ((hw.sub (index * 0x40) 0x40 (by omega)).sub 0 4 (by omega)).readLE
    fun rangeIndex _ => ?_
  refine (scalarInputFlag_recoded h _ _ _).bind fun scalarFlag _ _ _ heq => ?_
  subst heq
  exact Agree.ok rfl

theorem describeTargetV2_recoded (h : Recoded layout layout') {parameterBases : List ℕ}
    (hbases : BasesOf layout parameterBases) {index : ℕ} (hindex : index < parameterBases.length) :
    Agree Eq (describeTargetV2 layout parameterBases index)
      (describeTargetV2 layout' parameterBases index) := by
  have hw := h.window_invocations
  rw [hbases.length_eq] at hindex
  unfold describeTargetV2
  refine (countRecords_recoded h parameterBases index).bind fun r _ _ _ heq => ?_
  subst heq
  simp only [h.sectionAt_invocations, h.located.sectionAt_invocations, ok_bind]
  refine Agree.bind_eq ((hw.sub (index * 0x40) 0x40 (by omega)).sub 0 4 (by omega)).readLE
    fun rangeIndex _ => ?_
  refine (Agree.mapRange_eq fun tensorIndex _ => ?_).bind fun tensors _ _ _ heq => ?_
  · refine Agree.bind_eq rfl fun slot _ => ?_
    refine (validateMemref_recoded h slot).bind fun actual _ _ _ heq => ?_
    subst heq
    exact Agree.ok rfl
  · subst heq
    exact Agree.ok rfl

theorem checkReplicaGroups_recoded (h : Recoded layout layout') {targets : List PatchblobTargetV2}
    (htargets : ∀ target ∈ targets,
      target.invocationIndex < layout.invocations.size / 0x40) :
    Agree Eq (checkReplicaGroups layout (layout.invocations.size / 0x40) targets)
      (checkReplicaGroups layout' (layout.invocations.size / 0x40) targets) := by
  unfold checkReplicaGroups
  refine Agree.forM fun target htarget => ?_
  split_ifs
  · exact Agree.ok rfl
  · refine Agree.checkRange fun other _ hother => ?_
    exact Agree.bind_eq
      (invocationGroupIdentityEqual_recoded h (htargets target htarget) hother)
      fun equal _ => Agree.refuseIf Iff.rfl

theorem targetVersion1_stable : targetVersion1.Stable where
  describe_recoded h hbases hindex := describeTarget_recoded h hbases hindex
  validate_recoded target h hbases := validateTarget_recoded h hbases target
  checkReplicaGroups_recoded _ _ := Agree.ok rfl

theorem targetVersion2_stable : targetVersion2.Stable where
  describe_recoded h hbases hindex := describeTargetV2_recoded h hbases hindex
  validate_recoded target h hbases := validateTargetV2_recoded h hbases target
  checkReplicaGroups_recoded h htargets := checkReplicaGroups_recoded h htargets

theorem Abi.stable : ∀ abi : Abi, abi.version.Stable
  | .v1 => targetVersion1_stable
  | .v2 => targetVersion2_stable

/-! ## The pass over the invocations -/

section Pass

variable {τ γ : Type} {version : TargetVersion τ} {contract : τ → γ}

theorem joinGroup_recoded (h : Recoded layout layout') {index : ℕ}
    (hindex : index < layout.invocations.size / 0x40) (discovered : List (DiscoveredTarget τ))
    (groupCount : ℕ) (target : τ) :
    Agree Eq (joinGroup version layout discovered groupCount target index)
      (joinGroup version layout' discovered groupCount target index) := by
  have hcontinues : continuesGroup layout' index = continuesGroup layout index := by
    unfold continuesGroup
    split_ifs
    · rfl
    · exact invocationGroupIdentityEqual_recoded h (by omega) hindex
  unfold joinGroup
  refine Agree.bind_eq hcontinues fun continues _ => ?_
  split_ifs
  · exact Agree.refl (fun _ => rfl) _
  · refine (Agree.checkRange fun other _ hother => ?_).bind fun _ _ _ _ _ =>
      Agree.refl (fun _ => rfl) _
    split_ifs
    · exact Agree.bind_eq (invocationGroupIdentityEqual_recoded h (by omega) hindex)
        fun equal _ => Agree.refuseIf Iff.rfl
    · exact Agree.ok rfl

theorem discoverRecord_recoded (hs : version.Stable) (h : Recoded layout layout')
    {parameterBases : List ℕ} (hbases : BasesOf layout parameterBases) {index : ℕ}
    (hindex : index < parameterBases.length) (state : List (DiscoveredTarget τ) × ℕ) :
    Agree Eq (discoverRecord version layout parameterBases index state)
      (discoverRecord version layout' parameterBases index state) := by
  obtain ⟨discovered, groupCount⟩ := state
  unfold discoverRecord
  refine (hs.describe_recoded h hbases hindex).bind fun target _ _ _ heq => ?_
  subst heq
  refine (hs.validate_recoded target h hbases).bind fun _ _ _ _ _ => ?_
  refine (findRangeRelocation_recoded h _).bind fun _ _ _ _ _ => ?_
  refine Agree.refuseIf_bind Iff.rfl fun _ => ?_
  refine (joinGroup_recoded h (by rwa [← hbases.length_eq]) discovered groupCount target).bind
    fun groupCount' _ _ _ heq => ?_
  subst heq
  exact Agree.ok rfl

/-- Discovery returns the same records, or the same error. -/
theorem discoverRecords_recoded (hs : version.Stable) (hvalid : layout.Valid)
    (h : Recoded layout layout') :
    Agree Eq (discoverRecords version layout) (discoverRecords version layout') := by
  unfold discoverRecords
  refine (invocationParameterBases_recoded h).bind fun parameterBases _ hbases _ heq => ?_
  subst heq
  replace hbases := (invocationParameterBases_spec hvalid).value _ hbases
  simp only [h.sectionAt_ranges, h.located.sectionAt_ranges, ok_bind]
  rw [h.ranges_size_eq]
  refine Agree.refuseIf_bind Iff.rfl fun _ => ?_
  refine Agree.forRange (fun _ => Eq) (Nat.zero_le _) rfl fun index state _ _ hindex heq => ?_
  subst heq
  exact discoverRecord_recoded hs h hbases hindex state

/-! ## The details of a request -/

/-- Two details of one target, in the two graphs. -/
def SameTarget (detail detail' : PatchDetail) : Prop :=
  ∃ extentFileOffset addendFileOffset oldExtent oldAddend,
    { detail with extentFileOffset, addendFileOffset, oldExtent, oldAddend } = detail'

theorem planTarget_recoded (hs : version.Stable) (h : Recoded layout layout')
    {parameterBases : List ℕ} (hbases : BasesOf layout parameterBases) (earlier : List τ)
    (target : τ) :
    Agree SameTarget (planTarget version layout parameterBases earlier target)
      (planTarget version layout' parameterBases earlier target) := by
  unfold planTarget
  refine Agree.refuseIf_bind Iff.rfl fun _ => ?_
  refine (hs.validate_recoded target h hbases).bind fun detail _ _ _ hdetail => ?_
  obtain ⟨_, _, rfl⟩ := hdetail
  exact (findRangeRelocation_recoded h _).bind fun _ _ _ _ _ => Agree.ok ⟨_, _, _, _, rfl⟩

theorem planTargets_recoded (hl : version.Lawful contract) (hs : version.Stable)
    (hvalid : layout.Valid) (h : Recoded layout layout') {parameterBases : List ℕ}
    (hbases : BasesOf layout parameterBases) (targets : List τ) :
    Agree (List.Forall₂ SameTarget) (planTargets version layout parameterBases targets)
      (planTargets version layout' parameterBases targets) := by
  unfold planTargets
  refine (Agree.mapRange (R := SameTarget) fun index hindex => ?_).bind
    fun details details' hdetails _ hsame => ?_
  · rw [List.getElem?_eq_getElem hindex]
    exact planTarget_recoded hs h hbases _ _
  · have hplanned := (planDetails_spec hl hvalid hbases targets).value details hdetails
    rw [hbases.length_eq]
    exact (hs.checkReplicaGroups_recoded h fun target htarget =>
      hplanned.invocation_lt htarget).bind fun _ _ _ _ _ => Agree.ok hsame

end Pass

end Npunlock
