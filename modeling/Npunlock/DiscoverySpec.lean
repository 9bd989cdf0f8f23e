import Npunlock.Discovery
import Npunlock.Grouping
import Npunlock.TargetSpec

/-!
# The grouping law of discovery

`TargetVersion.Lawful` is what the two versions of a target have in common : each
function has its specification, and contracts are compared field by field.
`DiscoveryRun` is the invariant of the pass over the invocations, and
`discovery_grouping` the law the records of a successful run satisfy.
-/

namespace Npunlock

open View

variable {layout : GraphLayout}

/-! ## Group identities -/

/-- The bytes of an invocation that identify its source operation. -/
def groupIdentity (layout : GraphLayout) (index : ℕ) : List UInt8 × List UInt8 :=
  let record := layout.invocations.offset + index * 0x40
  (slice layout.blob.data (record + 0x0c) 0x24, slice layout.blob.data (record + 0x3c) 4)

theorem invocationGroupIdentityEqual_eq (h : layout.Valid) {left right : ℕ}
    (hleft : left < layout.invocations.size / 0x40)
    (hright : right < layout.invocations.size / 0x40) :
    invocationGroupIdentityEqual layout left right =
      .ok (groupIdentity layout left == groupIdentity layout right) := by
  have hin := h.invocations_in_file
  unfold invocationGroupIdentityEqual
  rw [h.sectionAt_invocations, ok_bind]
  simp (disch := omega) only [readBytes_eq, ok_bind]
  rfl

/-! ## The two versions -/

/-- What discovery and patching rely on in a version of the target records. -/
structure TargetVersion.Lawful {τ γ : Type} (version : TargetVersion τ) (contract : τ → γ) :
    Prop where
  describe_spec : ∀ {layout : GraphLayout} {parameterBases : List ℕ} {index : ℕ},
    layout.Valid → BasesOf layout parameterBases → index < parameterBases.length →
      Safe (version.describe layout parameterBases index) fun target =>
        version.invocationIndex target = index
  validate_spec : ∀ {layout : GraphLayout} {parameterBases : List ℕ} (target : τ),
    layout.Valid → BasesOf layout parameterBases →
      Safe (version.validate layout parameterBases target)
        (PatchDetail.Of layout (version.invocationIndex target) (version.rangeIndex target))
  sameContracts_iff : ∀ left right : τ,
    version.sameContracts left right = true ↔ contract left = contract right
  checkReplicaGroups_safe : ∀ {layout : GraphLayout} {targets : List τ},
    layout.Valid →
      (∀ target ∈ targets, version.invocationIndex target < layout.invocations.size / 0x40) →
      Safe (version.checkReplicaGroups layout (layout.invocations.size / 0x40) targets)
        fun _ => True

theorem countRecords_spec (h : layout.Valid) {parameterBases : List ℕ}
    (hbases : BasesOf layout parameterBases) {index : ℕ} (hindex : index < parameterBases.length) :
    Safe (countRecords layout parameterBases index) fun r =>
      2 ≤ r.1 ∧ r.1 ≤ patchblobTargetV2MaxTensors ∧
        r.2 + r.1 * 0x28 ≤ layout.params.size := by
  unfold countRecords
  rw [h.sectionAt_params, ok_bind]
  refine (parameterBaseAt_spec hbases hindex).bind fun base hbase => ?_
  obtain ⟨hlt, hlimit⟩ := invocationParameterLimit_spec parameterBases hbase
  refine (countDataPointerRelocations_spec h.toHasHeaders _ _).bind fun recordCount _ => ?_
  rw [subSize_of_le hlt.le, ok_bind]
  refine Meets.refuseIf_bind (by simp) fun hguard => ?_
  simp only [not_or, Nat.not_lt] at hguard
  exact Meets.ok ⟨hguard.1, hguard.2.1, by omega⟩

theorem scalarInputFlag_spec (h : layout.Valid) {base inputCount : ℕ}
    (firstInput : MemrefContract)
    (hblock : base + (inputCount + 1) * 0x28 ≤ layout.params.size) :
    Safe (scalarInputFlag layout base firstInput inputCount) fun _ => True := by
  unfold scalarInputFlag
  split_ifs with hbinary
  · rw [addSize_of_le (by simpa using slot_le_sizeMax h le_rfl hblock (show 1 < _ by omega)),
      ok_bind]
    refine (validateMemref_spec h _).bind fun secondInput _ => ?_
    rw [addSize_of_le (slot_le_sizeMax h le_rfl hblock (show 2 < _ by omega)), ok_bind]
    exact (validateMemref_spec h _).bind fun output _ => Meets.ok trivial
  · exact Meets.ok trivial

theorem describeTarget_spec (h : layout.Valid) {parameterBases : List ℕ}
    (hbases : BasesOf layout parameterBases) {index : ℕ} (hindex : index < parameterBases.length) :
    Safe (describeTarget layout parameterBases index) fun target =>
      target.invocationIndex = index := by
  have hinvocations := h.invocations_in_file
  have hcount := hbases.length_eq
  unfold describeTarget
  refine (countRecords_spec h hbases hindex).bind fun r => ?_
  obtain ⟨recordCount, base⟩ := r
  rintro ⟨htwo, -, hblock⟩
  simp only at htwo hblock ⊢
  refine (validateMemref_spec h _).bind fun firstInput _ => ?_
  rw [h.sectionAt_invocations, ok_bind, readU32, readLE_eq (by omega), ok_bind]
  have hroom : base + (recordCount - 1 + 1) * 0x28 ≤ layout.params.size := by omega
  exact (scalarInputFlag_spec h firstInput hroom).bind fun scalarFlag _ => Meets.ok rfl

theorem describeTargetV2_spec (h : layout.Valid) {parameterBases : List ℕ}
    (hbases : BasesOf layout parameterBases) {index : ℕ} (hindex : index < parameterBases.length) :
    Safe (describeTargetV2 layout parameterBases index) fun target =>
      target.invocationIndex = index := by
  have hinvocations := h.invocations_in_file
  have hcount := hbases.length_eq
  unfold describeTargetV2
  refine (countRecords_spec h hbases hindex).bind fun r => ?_
  obtain ⟨recordCount, base⟩ := r
  rintro ⟨htwo, -, hblock⟩
  simp only at htwo hblock ⊢
  rw [h.sectionAt_invocations, ok_bind, readU32, readLE_eq (by omega), ok_bind]
  refine (Meets.mapRange (P := fun _ _ => True) fun tensorIndex htensor => ?_).bind
    fun tensors _ => Meets.ok rfl
  rw [addSize_of_le (slot_le_sizeMax h le_rfl hblock htensor), ok_bind]
  exact (validateMemref_spec h _).bind fun actual _ => Meets.ok trivial

/-- The contract of a version 1 target. -/
def PatchblobTarget.contract (target : PatchblobTarget) : ℕ × ℕ × ℕ × ℕ :=
  (target.expectedInputCount, target.expectedElementCount, target.expectedSpanBytes,
    target.requiredContractFlags)

/-- The contract of a version 2 target : its flags, and its tensors without struct sizes. -/
def PatchblobTargetV2.contract (target : PatchblobTargetV2) : ℕ × List TensorContractV2 :=
  (target.targetFlags, target.tensors.map fun tensor => { tensor with structSize := 0 })

theorem contractsEqual_iff (left right : PatchblobTarget) :
    contractsEqual left right = true ↔ left.contract = right.contract := by
  simp [contractsEqual, PatchblobTarget.contract, and_assoc]

theorem tensorContractEqual_iff (left right : TensorContractV2) :
    tensorContractEqual left right = true ↔
      ({ left with structSize := 0 } : TensorContractV2) = { right with structSize := 0 } := by
  simp [tensorContractEqual, and_assoc]

theorem tensorContractsV2Equal_iff (left right : PatchblobTargetV2) :
    tensorContractsV2Equal left right = true ↔ left.contract = right.contract := by
  have hlist : ∀ l r : List TensorContractV2,
      (l.length = r.length ∧ ∀ p ∈ l.zip r, tensorContractEqual p.1 p.2 = true) ↔
        l.map (fun t => { t with structSize := 0 }) =
          r.map (fun t => { t with structSize := 0 }) := by
    intro l
    induction l with
    | nil => intro r; cases r <;> simp
    | cons a l ih =>
      intro r
      cases r with
      | nil => simp
      | cons b r =>
        rw [List.map_cons, List.map_cons, List.cons.injEq, ← ih r, ← tensorContractEqual_iff]
        simp only [List.length_cons, List.zip_cons_cons, List.forall_mem_cons,
          Nat.add_right_cancel_iff]
        tauto
  have := hlist left.tensors right.tensors
  simp only [tensorContractsV2Equal, PatchblobTargetV2.contract, PatchblobTargetV2.tensorCount,
    Bool.and_eq_true, beq_iff_eq, List.all_eq_true, Prod.mk.injEq, ← this]
  tauto

theorem checkReplicaGroups_spec (h : layout.Valid) {targets : List PatchblobTargetV2}
    (htargets : ∀ target ∈ targets,
      target.invocationIndex < layout.invocations.size / 0x40) :
    Safe (checkReplicaGroups layout (layout.invocations.size / 0x40) targets) fun _ => True := by
  unfold checkReplicaGroups
  refine (Meets.forM (P := fun _ => True) fun target htarget => ?_).mono fun _ _ => trivial
  split_ifs
  · exact Meets.ok trivial
  · refine (Meets.checkRange (P := fun _ => True) fun other _ hother => ?_).mono
      fun _ _ => trivial
    rw [invocationGroupIdentityEqual_eq h (htargets target htarget) hother, ok_bind]
    exact (Meets.refuseIf (by simp)).mono fun _ _ => trivial

theorem targetVersion1_lawful : targetVersion1.Lawful PatchblobTarget.contract where
  describe_spec h hbases hindex := describeTarget_spec h hbases hindex
  validate_spec target h hbases := validateTarget_spec h hbases target
  sameContracts_iff := contractsEqual_iff
  checkReplicaGroups_safe _ _ := Meets.ok trivial

theorem targetVersion2_lawful : targetVersion2.Lawful PatchblobTargetV2.contract where
  describe_spec h hbases hindex := describeTargetV2_spec h hbases hindex
  validate_spec target h hbases := validateTargetV2_spec h hbases target
  sameContracts_iff := tensorContractsV2Equal_iff
  checkReplicaGroups_safe h htargets := checkReplicaGroups_spec h htargets

/-- What contracts of a version are compared as. -/
def Abi.Contract : Abi → Type
  | .v1 => ℕ × ℕ × ℕ × ℕ
  | .v2 => ℕ × List TensorContractV2

def Abi.contract : (abi : Abi) → abi.Target → abi.Contract
  | .v1 => PatchblobTarget.contract
  | .v2 => PatchblobTargetV2.contract

theorem Abi.lawful : ∀ abi : Abi, abi.version.Lawful abi.contract
  | .v1 => targetVersion1_lawful
  | .v2 => targetVersion2_lawful

/-! ## The pass over the invocations -/

/-- The group of the record at a position. -/
def groupAt {τ : Type} (records : List (DiscoveredTarget τ)) (index : ℕ) : ℕ :=
  (records.map (·.groupIndex)).getD index 0

section Pass

variable {τ γ : Type} {version : TargetVersion τ} {contract : τ → γ}

theorem groupAt_eq {records : List (DiscoveredTarget τ)} {index : ℕ}
    (h : index < records.length) : groupAt records index = records[index].groupIndex := by
  simp [groupAt, h]

theorem groupAt_append_of_lt {records : List (DiscoveredTarget τ)} {record : DiscoveredTarget τ}
    {index : ℕ} (h : index < records.length) :
    groupAt (records ++ [record]) index = groupAt records index := by
  rw [groupAt_eq h, groupAt_eq (by simp; omega), List.getElem_append_left h]

theorem groupAt_append_length (records : List (DiscoveredTarget τ))
    (record : DiscoveredTarget τ) :
    groupAt (records ++ [record]) records.length = record.groupIndex := by
  simp [groupAt]

theorem startsGroup_iff {records : List (DiscoveredTarget τ)} {index : ℕ}
    (h : index < records.length) :
    startsGroup records index = true ↔ Opens (groupAt records) index := by
  have h' : index - 1 < records.length := by omega
  rw [Opens, groupAt_eq h, groupAt_eq h']
  simp [startsGroup, h, h']

/-- The invariant of the pass : what holds of the first `n` records and the group count. -/
structure DiscoveryRun (version : TargetVersion τ) (contract : τ → γ) (layout : GraphLayout)
    (parameterBases : List ℕ) (n : ℕ) (state : List (DiscoveredTarget τ) × ℕ) : Prop where
  length_eq : state.1.length = n
  index_eq : ∀ i (hi : i < state.1.length), version.invocationIndex state.1[i].target = i
  validated : ∀ record ∈ state.1, ∃ detail,
    version.validate layout parameterBases record.target = .ok detail
  range_found : ∀ record ∈ state.1, ∃ relocation,
    findRangeRelocation layout (version.rangeIndex record.target) = .ok relocation
  grouped : Grouped (groupIdentity layout) (groupAt state.1) n
  count_eq : ∀ i, i + 1 = n → state.2 = groupAt state.1 i + 1
  count_zero : n = 0 → state.2 = 0
  ranges : ∀ i j (hi : i < state.1.length) (hj : j < state.1.length),
    version.rangeIndex state.1[i].target = version.rangeIndex state.1[j].target → i = j
  contracts : ∀ i j (hi : i < state.1.length) (hj : j < state.1.length),
    groupAt state.1 i = groupAt state.1 j → contract state.1[i].target = contract state.1[j].target
  described : ∀ record ∈ state.1, version.describe layout parameterBases
    (version.invocationIndex record.target) = .ok record.target

/-- How the group count changes with invocation `n`. -/
inductive Joined (contract : τ → γ) (layout : GraphLayout) (records : List (DiscoveredTarget τ))
    (groupCount : ℕ) (target : τ) (n : ℕ) : ℕ → Prop
  | continued (i : ℕ) (hi : i < records.length) (hn : i + 1 = n)
      (hkey : groupIdentity layout i = groupIdentity layout n)
      (hcontract : contract records[i].target = contract target) :
      Joined contract layout records groupCount target n groupCount
  | opened (hkey : ∀ i < n, Opens (groupAt records) i →
      groupIdentity layout i ≠ groupIdentity layout n) :
      Joined contract layout records groupCount target n (groupCount + 1)

theorem joinGroup_spec (hl : version.Lawful contract) (h : layout.Valid)
    {records : List (DiscoveredTarget τ)} {groupCount n : ℕ} (hlen : records.length = n)
    (hn : n < layout.invocations.size / 0x40) (target : τ) :
    Safe (joinGroup version layout records groupCount target n)
      (Joined contract layout records groupCount target n) := by
  have hcontinues : Safe (continuesGroup layout n) fun continues =>
      continues = true → 0 < n ∧ groupIdentity layout (n - 1) = groupIdentity layout n := by
    unfold continuesGroup
    split_ifs with hzero
    · exact Meets.ok (by simp)
    · rw [invocationGroupIdentityEqual_eq h (by omega) hn]
      exact Meets.ok fun heq => ⟨by omega, by simpa using heq⟩
  unfold joinGroup
  refine hcontinues.bind fun continues hkey => ?_
  split_ifs with hcontinue
  · obtain ⟨hpos, hkey⟩ := hkey hcontinue
    have hprev : records[n - 1]? = some records[n - 1] := List.getElem?_eq_getElem (by omega)
    rw [hprev]
    refine Meets.refuseIf_bind (by simp) fun hsame => ?_
    exact Meets.ok (.continued (n - 1) (by omega) (by omega) hkey
      ((hl.sameContracts_iff _ _).1 (not_not.1 hsame)))
  · refine (Meets.checkRange (P := fun i => Opens (groupAt records) i →
        groupIdentity layout i ≠ groupIdentity layout n) fun i _ hi => ?_).bind fun _ hfresh => ?_
    · split_ifs with hstart
      · rw [invocationGroupIdentityEqual_eq h (by omega) hn, ok_bind]
        refine (Meets.refuseIf (by simp)).mono fun _ hne _ => ?_
        simpa using hne
      · refine Meets.ok fun hopen => absurd ((startsGroup_iff (by omega)).2 hopen) hstart
    · refine Meets.refuseIf_bind (by simp) fun _ => ?_
      exact Meets.ok (.opened fun i hi => hfresh i (Nat.zero_le _) hi)

section Joins

variable {records : List (DiscoveredTarget τ)} {groupCount groupCount' : ℕ} {target : τ}
  (hjoined : Joined contract layout records groupCount target records.length groupCount')
  (hgrouped : Grouped (groupIdentity layout) (groupAt records) records.length)
  (hcount : ∀ i, i + 1 = records.length → groupCount = groupAt records i + 1)

include hjoined hgrouped hcount

/-- The group of a record that joins. -/
theorem Joined.grouped (hzero : records.length = 0 → groupCount = 0) :
    Grouped (groupIdentity layout)
      (groupAt (records ++ [{ groupIndex := groupCount' - 1, target }])) (records.length + 1) := by
  have hnew : groupAt (records ++ [{ groupIndex := groupCount' - 1, target }]) records.length =
      groupCount' - 1 := groupAt_append_length records _
  refine (hgrouped.congr fun k hk => groupAt_append_of_lt hk).extend (fun h0 => ?_) fun i hi => ?_
  · rw [h0] at hnew
    rw [hnew]
    cases hjoined with
    | continued i hi => omega
    | opened => rw [hzero h0]
  · have hcount := hcount i hi
    rw [hnew, groupAt_append_of_lt (by omega)]
    cases hjoined with
    | continued j hj hjn hkey =>
      obtain rfl : j = i := by omega
      exact Or.inl ⟨hkey, by omega⟩
    | opened hkey =>
      refine Or.inr ⟨fun j hj hopen => hkey j hj ?_, by omega⟩
      exact (opens_congr fun k hk => groupAt_append_of_lt (by omega)).1 hopen

/-- A record in the group of the new one is in the group of the record before it. -/
theorem Joined.contract_eq (hcontracts : ∀ i j (hi : i < records.length) (hj : j < records.length),
      groupAt records i = groupAt records j → contract records[i].target = contract records[j].target)
    {i : ℕ} (hi : i < records.length) (hgroup : groupAt records i = groupCount' - 1) :
    contract records[i].target = contract target := by
  cases hjoined with
  | continued j hj hjn hkey hcontract =>
    have hcount := hcount j hjn
    rw [← hcontract]
    exact hcontracts i j hi hj (by omega)
  | opened =>
    have hcount := hcount (records.length - 1) (by omega)
    have := hgrouped.group_le (show i ≤ records.length - 1 by omega) (by omega)
    omega

end Joins

/-- One more record keeps the invariant, if it has the right index, a new range, and
joins a group as `joinGroup` says. -/
theorem DiscoveryRun.extend {parameterBases : List ℕ} {n groupCount groupCount' : ℕ}
    {records : List (DiscoveredTarget τ)} {target : τ}
    (hrun : DiscoveryRun version contract layout parameterBases n (records, groupCount))
    (hindex : version.invocationIndex target = n)
    (hdescribed : version.describe layout parameterBases n = .ok target)
    (hvalidated : ∃ detail, version.validate layout parameterBases target = .ok detail)
    (hfound : ∃ relocation,
      findRangeRelocation layout (version.rangeIndex target) = .ok relocation)
    (hrange : ∀ record ∈ records, version.rangeIndex record.target ≠ version.rangeIndex target)
    (hjoined : Joined contract layout records groupCount target n groupCount') :
    DiscoveryRun version contract layout parameterBases (n + 1)
      (records ++ [{ groupIndex := groupCount' - 1, target }], groupCount') := by
  obtain ⟨hlen, hindices, hvalid, hranges, hgrouped, hcount, hzero, hdistinct, hcontracts,
    hdescriptions⟩ := hrun
  simp only at hlen hindices hvalid hranges hgrouped hcount hzero hdistinct hcontracts hdescriptions
  subst hlen
  set record : DiscoveredTarget τ := { groupIndex := groupCount' - 1, target } with hrecord
  have hold : ∀ i (hi : i < records.length),
      (records ++ [record]).get ⟨i, by simp; omega⟩ = records[i] :=
    fun i hi => List.getElem_append_left hi
  simp only [List.get_eq_getElem] at hold
  have hcases : ∀ i, i < (records ++ [record]).length → i < records.length ∨ i = records.length :=
    fun i hi => by
      rw [List.length_append, List.length_singleton] at hi
      omega
  -- the group of the new record
  have hnew : groupAt (records ++ [record]) records.length = groupCount' - 1 :=
    groupAt_append_length records record
  refine ⟨by simp, ?_, ?_, ?_, hjoined.grouped hgrouped hcount hzero, ?_, by omega, ?_, ?_, ?_⟩
  · intro i hi
    rcases hcases i hi with hlt | rfl
    · rw [hold i hlt]
      exact hindices i hlt
    · simpa using hindex
  · intro r hr
    rcases List.mem_append.1 hr with hr | hr
    · exact hvalid r hr
    · obtain rfl := List.mem_singleton.1 hr
      exact hvalidated
  · intro r hr
    rcases List.mem_append.1 hr with hr | hr
    · exact hranges r hr
    · obtain rfl := List.mem_singleton.1 hr
      exact hfound
  · intro i hi
    obtain rfl : i = records.length := by omega
    rw [hnew]
    cases hjoined with
    | continued j hj hjn =>
      have := hcount j hjn
      omega
    | opened => omega
  · intro i j hi hj heq
    rcases hcases i hi with hlt | rfl <;> rcases hcases j hj with hlt' | rfl
    · rw [hold i hlt, hold j hlt'] at heq
      exact hdistinct i j hlt hlt' heq
    · rw [hold i hlt, List.getElem_append_right le_rfl] at heq
      exact absurd (by simpa using heq) (hrange _ (List.getElem_mem hlt))
    · rw [hold j hlt', List.getElem_append_right le_rfl] at heq
      exact absurd (by simpa using heq.symm) (hrange _ (List.getElem_mem hlt'))
    · rfl
  · intro i j hi hj heq
    rcases hcases i hi with hlt | rfl <;> rcases hcases j hj with hlt' | rfl
    · rw [groupAt_append_of_lt hlt, groupAt_append_of_lt hlt'] at heq
      rw [hold i hlt, hold j hlt']
      exact hcontracts i j hlt hlt' heq
    · rw [groupAt_append_of_lt hlt, hnew] at heq
      rw [hold i hlt, List.getElem_append_right le_rfl]
      simpa using hjoined.contract_eq hgrouped hcount hcontracts hlt heq
    · rw [groupAt_append_of_lt hlt', hnew] at heq
      rw [hold j hlt', List.getElem_append_right le_rfl]
      simpa using (hjoined.contract_eq hgrouped hcount hcontracts hlt' heq.symm).symm
    · rfl
  · intro r hr
    rcases List.mem_append.1 hr with hr | hr
    · exact hdescriptions r hr
    · obtain rfl := List.mem_singleton.1 hr
      rwa [hindex]

theorem discoverRecord_spec (hl : version.Lawful contract) (h : layout.Valid)
    {parameterBases : List ℕ} (hbases : BasesOf layout parameterBases) {n : ℕ}
    (hn : n < parameterBases.length) {state : List (DiscoveredTarget τ) × ℕ}
    (hrun : DiscoveryRun version contract layout parameterBases n state) :
    Safe (discoverRecord version layout parameterBases n state)
      (DiscoveryRun version contract layout parameterBases (n + 1)) := by
  obtain ⟨records, groupCount⟩ := state
  unfold discoverRecord
  refine (hl.describe_spec h hbases hn).of_eq.bind fun target ⟨hdescribe, hindex⟩ => ?_
  refine (hl.validate_spec target h hbases).of_eq.bind fun detail hdetail => ?_
  refine (findRangeRelocation_spec h _).of_eq.bind fun relocation hrelocation => ?_
  refine Meets.refuseIf_bind (by simp) fun hrange => ?_
  have hn' : n < layout.invocations.size / 0x40 := by
    rw [← hbases.length_eq]
    exact hn
  refine (joinGroup_spec hl h hrun.length_eq hn' target).bind fun groupCount' hjoined => ?_
  refine Meets.ok (hrun.extend hindex hdescribe ⟨detail, hdetail.1⟩ ⟨relocation, hrelocation.1⟩ ?_
    hjoined)
  exact fun record hrecord heq => hrange ⟨record, hrecord, heq⟩

/-- The records of a parsed graph, with the invariant at the end of the pass. -/
theorem discoverRecords_spec (hl : version.Lawful contract) (h : layout.Valid) :
    Safe (discoverRecords version layout) fun state =>
      ∃ parameterBases, invocationParameterBases layout = .ok parameterBases ∧
        BasesOf layout parameterBases ∧ 0 < parameterBases.length ∧
        DiscoveryRun version contract layout parameterBases parameterBases.length state := by
  unfold discoverRecords
  refine (invocationParameterBases_spec h).of_eq.bind fun parameterBases ⟨heq, hbases⟩ => ?_
  rw [h.sectionAt_ranges, ok_bind]
  refine Meets.refuseIf_bind (by simp) fun hcount => ?_
  refine (Meets.forRange (DiscoveryRun version contract layout parameterBases) (Nat.zero_le _) ?_
    fun n state _ hn hrun => discoverRecord_spec hl h hbases hn hrun).mono fun state hrun => ?_
  · exact ⟨rfl, by simp, by simp, by simp, Grouped.zero _ _, by omega, fun _ => rfl, by simp,
      by simp, by simp⟩
  · exact ⟨parameterBases, heq, hbases, by omega, hrun⟩

theorem discoverGraphTargetsWith_spec (hl : version.Lawful contract) (blob : View) :
    Safe (discoverGraphTargetsWith version blob) fun state =>
      ∃ layout parameterBases, parseGraph blob = .ok layout ∧
        invocationParameterBases layout = .ok parameterBases ∧ BasesOf layout parameterBases ∧
        0 < parameterBases.length ∧
        DiscoveryRun version contract layout parameterBases parameterBases.length state := by
  unfold discoverGraphTargetsWith
  refine (parseGraph_spec blob).of_eq.bind fun layout ⟨hparse, _, hvalid⟩ => ?_
  refine (discoverRecords_spec hl hvalid).mono fun state => ?_
  rintro ⟨parameterBases, heq, hbases, hpos, hrun⟩
  exact ⟨layout, parameterBases, hparse, heq, hbases, hpos, hrun⟩

end Pass

/-! ## The law -/

/-- Groups are the classes of equal identity, numbered in blocks from 0, with distinct
ranges and one contract in each. -/
structure GroupingLaw (abi : Abi) (layout : GraphLayout)
    (records : List (DiscoveredTarget abi.Target)) (groupCount : ℕ) : Prop where
  same_group_iff : ∀ i j (hi : i < records.length) (hj : j < records.length),
    records[i].groupIndex = records[j].groupIndex ↔
      invocationGroupIdentityEqual layout (abi.version.invocationIndex records[i].target)
        (abi.version.invocationIndex records[j].target) = .ok true
  first : ∀ h : 0 < records.length, records[0].groupIndex = 0
  step : ∀ i (h : i + 1 < records.length), records[i + 1].groupIndex = records[i].groupIndex ∨
    records[i + 1].groupIndex = records[i].groupIndex + 1
  count : ∀ i (h : i + 1 = records.length), groupCount = records[i].groupIndex + 1
  ranges : ∀ i j (hi : i < records.length) (hj : j < records.length),
    abi.version.rangeIndex records[i].target = abi.version.rangeIndex records[j].target → i = j
  contracts : ∀ i j (hi : i < records.length) (hj : j < records.length),
    records[i].groupIndex = records[j].groupIndex →
      abi.contract records[i].target = abi.contract records[j].target

/-- The records of a successful discovery, of either version, satisfy the grouping law. -/
theorem discovery_grouping (abi : Abi) (blob : View)
    (records : List (DiscoveredTarget abi.Target)) (groupCount : ℕ)
    (h : discoverGraphTargetsWith abi.version blob = .ok (records, groupCount)) :
    ∃ layout, parseGraph blob = .ok layout ∧ GroupingLaw abi layout records groupCount := by
  obtain ⟨layout, parameterBases, hparse, -, hbases, hpos, hrun⟩ :=
    (discoverGraphTargetsWith_spec abi.lawful blob).value _ h
  obtain ⟨hlen, hindices, -, -, hgrouped, hcount, -, hdistinct, hcontracts, -⟩ := hrun
  simp only at hlen hindices hgrouped hcount hdistinct hcontracts
  have hvalid := GraphLayout.Valid.of_parse hparse
  refine ⟨layout, hparse, fun i j hi hj => ?_, fun h0 => ?_, fun i hi => ?_, fun i hi => ?_,
    hdistinct, fun i j hi hj heq => ?_⟩
  · rw [hindices i hi, hindices j hj, invocationGroupIdentityEqual_eq hvalid
      (by rw [← hbases.length_eq]; omega) (by rw [← hbases.length_eq]; omega),
      ← groupAt_eq hi, ← groupAt_eq hj, hgrouped.group_eq_iff (by omega) (by omega)]
    simp
  · rw [← groupAt_eq h0]
    exact hgrouped.first (by omega)
  · rw [← groupAt_eq hi, ← groupAt_eq (show i < records.length by omega)]
    exact hgrouped.group_step (by omega)
  · rw [← groupAt_eq (show i < records.length by omega)]
    exact hcount i (by omega)
  · rw [← groupAt_eq hi, ← groupAt_eq hj] at heq
    exact hcontracts i j hi hj heq

/-! ## An example graph -/

/-- Little-endian values at their offsets, as one number. -/
def imageOf (fields : List (ℕ × ℕ)) : ℕ :=
  fields.foldr (fun field rest => field.2 <<< (8 * field.1) + rest) 0

/-- The bytes of a number below `2 ^ (8 * size)`. -/
def viewOf (size : ℕ) (h : size ≤ sizeMax) (image : ℕ) : View where
  data i := UInt8.ofNat (image >>> (8 * i))
  size := size
  size_le := h

/-- Text, as a number with its first character in the lowest byte. -/
def textImage (text : String) : ℕ :=
  (ascii text).foldr (fun byte rest => byte.toNat + 256 * rest) 0

/-- What differs between the example graphs. -/
structure ExampleGraph where
  textOffset : ℕ := 2048
  textSize : ℕ := 32
  secondRange : ℕ := 1
  extraType : ℕ := shtProgbits
  extraOffset : ℕ := 0
  extraSize : ℕ := 0
  extraAlignment : ℕ := 0
  invocationCount : ℕ := 2
  elementCount : ℕ := 8
  secondOperation : ℕ := 0

namespace ExampleGraph

def sectionHeader (index name type flags offset size link info alignment entrySize : ℕ) :
    List (ℕ × ℕ) :=
  let header := 64 + 64 * index
  [(header, name), (header + 4, type), (header + 8, flags), (header + 0x18, offset),
    (header + 0x20, size), (header + 0x28, link), (header + 0x2c, info),
    (header + 0x30, alignment), (header + 0x38, entrySize)]

/-- A RELA entry of type `R_VPU_32`. -/
def relocation (entry targetOffset symbol addend : ℕ) : List (ℕ × ℕ) :=
  [(entry, targetOffset), (entry + 8, rVpu32), (entry + 12, symbol), (entry + 16, addend)]

/-- A static FP16 tensor of rank 1 in CMX. -/
def memref (record : ℕ) : List (ℕ × ℕ) :=
  [(record + 8, 1), (record + 0x0c, 1), (record + 0x18, npunlockDtypeF16), (record + 0x24, 2)]

variable (g : ExampleGraph)

def elfHeader : List (ℕ × ℕ) :=
  [(0, 0x464c457f), (4, 2), (5, 1), (0x10, 1), (0x28, 64), (0x34, 64), (0x3a, 64), (0x3c, 17),
    (0x3e, 1)]

def sectionHeaders : List (ℕ × ℕ) :=
  sectionHeader 0 0 shtNull 0 0 0 0 0 4 0 ++
  sectionHeader 1 0x01 shtStrtab 0 1152 291 0 0 4 0 ++
  sectionHeader 2 0x09 shtProgbits 0x40000000 g.textOffset g.textSize 0 0 1024 1 ++
  sectionHeader 3 0x1a shtProgbits 0x40000000 1728 176 0 0 64 1 ++
  sectionHeader 4 0x2d shtProgbits 0x20000004 1920 (64 * g.invocationCount) 0 0 64 1 ++
  sectionHeader 5 0x48 shtProgbits 0x20000004 2112 48 0 0 64 1 ++
  sectionHeader 6 0x5e shtRela 0x40 2160 48 9 5 8 0x18 ++
  sectionHeader 7 0x78 shtRela 0x40 2208 (24 * g.invocationCount) 9 4 8 0x18 ++
  sectionHeader 8 0x97 shtRela 0x40 2256 192 9 3 8 0x18 ++
  sectionHeader 9 0xae shtSymtab 0 1448 48 10 0 8 0x18 ++
  sectionHeader 10 0xbc shtStrtab 0 1496 47 0 0 4 0 ++
  sectionHeader 11 0x97 shtRela 0x40 2448 96 vpuRtSymtab 3 8 0x18 ++
  sectionHeader 12 0xc7 shtVpuCompatibility 0 1543 44 0 0 1 1 ++
  sectionHeader 13 0xdc shtNote 0 1588 0x20 0 0 4 1 ++
  sectionHeader 14 0xf3 shtNote 0 1620 0x20 0 0 4 1 ++
  sectionHeader 15 0x110 shtVpuPlatformInfo 0 1656 0x28 0 0 8 1 ++
  sectionHeader 16 0 g.extraType 0 g.extraOffset g.extraSize 0 0 g.extraAlignment 0

def strings : List (ℕ × ℕ) :=
  [(0x01, ".strtab"), (0x09, ".text.KernelText"), (0x1a, ".text.KernelParams"),
    (0x2d, ".text.ActKernelInvocations"), (0x48, ".text.ActKernelRanges"),
    (0x5e, ".rlt.text.ActKernelRanges"), (0x78, ".rlt.text.ActKernelInvocations"),
    (0x97, ".rlt.text.KernelParams"), (0xae, ".symtab.tasks"), (0xbc, ".symstrtab"),
    (0xc7, "compatibility_string"), (0xdc, ".note.LoaderABIVersion"),
    (0xf3, ".note.MappedInferenceVersion"), (0x110, ".meta.PlatformInfo"),
    (345, "sym_kernelTextSection"), (367, "sym_kernelParamsSection"),
    (391, "compiler=8.3;npu=3720;t=2;elf=1.2.0;mi=7.0.4")].map
      fun (offset, text) => (1152 + offset, textImage text)

/-- The symbols, the version notes and the platform record. -/
def records : List (ℕ × ℕ) :=
  [(1448, 0x01), (1448 + 6, 2), (1472, 0x17), (1472 + 6, 3),
    (1588, 4), (1592, 16), (1596, 1), (1600, textImage "GNU"), (1608, 1), (1612, 2),
    (1620, 4), (1624, 16), (1628, 0xa000), (1632, textImage "MIV"), (1640, 7), (1648, 4),
    (1656, 0x20), (1672, 1), (1680, 8), (1688, 3)]

/-- Two invocations, each with an input, an output and a range. They are of one operation unless
`secondOperation` says otherwise. -/
def carrier : List (ℕ × ℕ) :=
  memref 1728 ++ memref 1768 ++ memref 1808 ++ memref 1848 ++
  [(1728 + 160, g.elementCount), (1728 + 168, 16)] ++
  [(1920, 0), (1984, g.secondRange), (1920 + 0x34, 0), (1984 + 0x34, 1),
    (1984 + 0x3c, g.secondOperation)] ++
  [(2112 + 4, graphCodeAddress), (2112 + 12, 8), (2136 + 4, graphCodeAddress), (2136 + 12, 8)]

def relocations : List (ℕ × ℕ) :=
  relocation 2160 8 0 0 ++ relocation 2184 32 0 16 ++
  relocation 2208 4 1 0 ++ relocation 2232 68 1 80 ++
  relocation 2256 0x10 1 160 ++ relocation 2280 0x14 1 168 ++
  relocation 2304 0x38 1 160 ++ relocation 2328 0x3c 1 168 ++
  relocation 2352 0x60 1 160 ++ relocation 2376 0x64 1 168 ++
  relocation 2400 0x88 1 160 ++ relocation 2424 0x8c 1 168 ++
  relocation 2448 0 0 0 ++ relocation 2472 40 0 0x100 ++
  relocation 2496 80 0 0x200 ++ relocation 2520 120 0 0x300

/-- The code of the two ranges, if `KernelText` has room for it. -/
def code : List (ℕ × ℕ) :=
  if g.textSize = 32 then
    [(g.textOffset, 0x1111111111111111), (g.textOffset + 16, 0x2222222222222222)]
  else []

def view : View :=
  viewOf 2544 (by decide)
    (imageOf (elfHeader ++ g.sectionHeaders ++ strings ++ records ++ g.carrier ++ relocations ++
      g.code))

end ExampleGraph
/-- Discovery succeeds on the example graph. -/
theorem example_discovery :
    succeeds (discoverGraphTargetsWith (Abi.version .v1) (ExampleGraph.view {})) = true := by
  decide +kernel

/-- The law holds of the version 1 records of the example graph. -/
theorem discovery_grouping_example :
    ∃ records groupCount layout, GroupingLaw .v1 layout records groupCount := by
  obtain ⟨⟨records, groupCount⟩, h⟩ := succeeds_iff.1 example_discovery
  obtain ⟨layout, -, hlaw⟩ := discovery_grouping .v1 _ records groupCount h
  exact ⟨records, groupCount, layout, hlaw⟩

end Npunlock
