import Npunlock.Compare
import Npunlock.RoutingSpec

/-!
# What the comparison of two graphs says

The public header says of the result of a comparison : `contract_stable` is true only when
all inspected non-code observations are equal, and `unique_changed_group` additionally
requires exactly one complete group to have changed code. The code keeps the two apart :
`unique_changed_group` is set whenever one changed group was found, and its callers combine
it with `contract_stable`. `ComparisonLaw` says when each is set, that both together are what
the header says, and for which graphs `unique_changed_group` alone is
(`unique_changed_group_law`).
-/

namespace Npunlock

/-! ## Equal observations -/

theorem map_eq_map_iff_zip {α β : Type} {f : α → β} : ∀ {l l' : List α}, l.length = l'.length →
    (l.map f = l'.map f ↔ ∀ pair ∈ l.zip l', f pair.1 = f pair.2)
  | [], [], _ => by
    simp
  | [], _ :: _, h => by
    simp at h
  | _ :: _, [], h => by
    simp at h
  | a :: l, b :: l', h => by
    rw [List.map_cons, List.map_cons, List.cons.injEq, List.zip_cons_cons, List.forall_mem_cons,
      map_eq_map_iff_zip (by simpa using h)]

/-- All observations of the two graphs are equal, the code of the invocations apart. -/
structure NonCodeEqual (baseline candidate : GraphRoutingObservations) : Prop where
  invocations : baseline.invocations.map InvocationRoutingObservation.withoutCode =
    candidate.invocations.map InvocationRoutingObservation.withoutCode
  tables : { baseline with invocations := [] } = { candidate with invocations := [] }

section Comparison

variable {baseline candidate : GraphRoutingObservations}

theorem tableFlags_eq_zero_iff : tableFlags baseline candidate = 0 ↔
    { baseline with invocations := [], groupCount := 0, tileCountObserved := 0 } =
      { candidate with invocations := [], groupCount := 0, tileCountObserved := 0 } := by
  simp only [tableFlags, orAll_eq_zero_iff, List.forall_mem_cons, List.not_mem_nil,
    false_imp_iff, implies_true, and_true, not_or, not_not,
    flagIf_eq_zero_iff (show compareDmaChanged ≠ 0 by decide),
    flagIf_eq_zero_iff (show compareActDmaRelationsChanged ≠ 0 by decide),
    flagIf_eq_zero_iff (show compareActDmaActRelationsChanged ≠ 0 by decide),
    flagIf_eq_zero_iff (show compareActDmaDpuRelationsChanged ≠ 0 by decide),
    flagIf_eq_zero_iff (show compareOutputRoutingChanged ≠ 0 by decide),
    flagIf_eq_zero_iff (show compareActRelationsChanged ≠ 0 by decide),
    flagIf_eq_zero_iff (show compareDpuChanged ≠ 0 by decide),
    flagIf_eq_zero_iff (show compareActDpuRelationsChanged ≠ 0 by decide),
    GraphRoutingObservations.mk.injEq, RoutingTables.mk.injEq]
  tauto

/-- The code of an invocation of the group is not the same in the two graphs. -/
def GroupChanged (baseline candidate : GraphRoutingObservations) (groupIndex : ℕ) : Prop :=
  SameStructure baseline candidate ∧
    ∃ pair ∈ baseline.invocations.zip candidate.invocations,
      pair.1.groupIndex = groupIndex ∧ pair.2.groupIndex = groupIndex ∧
        codeEqual pair.1 pair.2 = false

/-- The code of no invocation of the group is the same in the two graphs. -/
def WholeGroupChanged (baseline candidate : GraphRoutingObservations) (groupIndex : ℕ) : Prop :=
  ∀ pair ∈ baseline.invocations.zip candidate.invocations, pair.1.groupIndex = groupIndex →
    codeEqual pair.1 pair.2 = false

/-! ## The flags -/

theorem sameGroup_iff (hgroups : baseline.InGroups)
    {pair : InvocationRoutingObservation × InvocationRoutingObservation}
    (hpair : pair ∈ baseline.invocations.zip candidate.invocations) :
    sameGroup baseline pair = true ↔ pair.2.groupIndex = pair.1.groupIndex := by
  have hlt := hgroups pair.1 (List.of_mem_zip hpair).1
  simp [sameGroup, hlt]

theorem groupHasCode_iff (hgroups : baseline.InGroups) {equal : Bool} {groupIndex : ℕ} :
    groupHasCode baseline candidate equal groupIndex = true ↔
      ∃ pair ∈ baseline.invocations.zip candidate.invocations,
        pair.1.groupIndex = groupIndex ∧ pair.2.groupIndex = groupIndex ∧
          codeEqual pair.1 pair.2 = equal := by
  simp only [groupHasCode, comparedInvocations, List.any_eq_true, List.mem_filter,
    Bool.and_eq_true, beq_iff_eq]
  constructor
  · rintro ⟨pair, ⟨hpair, hsame⟩, hgroup, hcode⟩
    rw [sameGroup_iff hgroups hpair] at hsame
    exact ⟨pair, hpair, hgroup, hsame.trans hgroup, hcode⟩
  · rintro ⟨pair, hpair, hgroup, hgroup', hcode⟩
    refine ⟨pair, ⟨hpair, ?_⟩, hgroup, hcode⟩
    rw [sameGroup_iff hgroups hpair, hgroup, hgroup']

theorem mem_changedGroups (hgroups : baseline.InGroups) {groupIndex : ℕ} :
    groupIndex ∈ changedGroups baseline candidate ↔
      GroupChanged baseline candidate groupIndex := by
  unfold changedGroups GroupChanged
  split_ifs with hstructure
  · rw [List.mem_filter, List.mem_range, groupHasCode_iff hgroups]
    constructor
    · rintro ⟨-, hchanged⟩
      exact ⟨hstructure, hchanged⟩
    · rintro ⟨-, pair, hpair, hgroup, hrest⟩
      refine ⟨?_, pair, hpair, hgroup, hrest⟩
      rw [← hgroup]
      exact hgroups pair.1 (List.of_mem_zip hpair).1
  · simp [hstructure]

theorem nodup_changedGroups : (changedGroups baseline candidate).Nodup := by
  unfold changedGroups
  split_ifs
  · exact List.nodup_range.filter _
  · exact List.nodup_nil

/-- The comparison finds one changed group iff one group is changed. -/
theorem changedGroups_eq_singleton_iff (hgroups : baseline.InGroups) {groupIndex : ℕ} :
    changedGroups baseline candidate = [groupIndex] ↔
      GroupChanged baseline candidate groupIndex ∧
        ∀ other, GroupChanged baseline candidate other → other = groupIndex := by
  simp only [← mem_changedGroups hgroups]
  constructor
  · intro h
    simp [h]
  · rintro ⟨hmem, hall⟩
    refine List.perm_singleton.1
      ((List.perm_ext_iff_of_nodup nodup_changedGroups (by simp)).2 fun other => ?_)
    rw [List.mem_singleton]
    exact ⟨hall other, fun h => h ▸ hmem⟩

theorem invocationFlags_eq_zero_iff (hgroups : baseline.InGroups)
    {pair : InvocationRoutingObservation × InvocationRoutingObservation}
    (hpair : pair ∈ baseline.invocations.zip candidate.invocations) :
    invocationFlags baseline pair = 0 ↔ pair.1.withoutCode = pair.2.withoutCode := by
  unfold invocationFlags
  split_ifs with hsame <;> rw [sameGroup_iff hgroups hpair] at hsame
  · rw [flagIf_eq_zero_iff (show compareInvocationContractChanged ≠ 0 by decide), not_not]
  · have hgroup : ∀ invocation : InvocationRoutingObservation,
        invocation.withoutCode.groupIndex = invocation.groupIndex := fun _ => rfl
    refine ⟨fun h => absurd h (by decide), fun h => absurd ?_ hsame⟩
    rw [← hgroup pair.2, ← h, hgroup]

/-- No flag of the structure is set iff the invocations are equal but for their code and no
group is changed in part. -/
theorem structureFlags_eq_zero_iff (hgroups : baseline.InGroups) :
    structureFlags baseline candidate = 0 ↔ SameStructure baseline candidate ∧
      baseline.invocations.map InvocationRoutingObservation.withoutCode =
        candidate.invocations.map InvocationRoutingObservation.withoutCode ∧
      ∀ groupIndex, GroupChanged baseline candidate groupIndex →
        WholeGroupChanged baseline candidate groupIndex := by
  unfold structureFlags
  split_ifs with hstructure
  · rw [or_eq_zero_iff, orAll_map_eq_zero_iff, orAll_map_eq_zero_iff,
      map_eq_map_iff_zip hstructure.2.1]
    simp only [flagIf_eq_zero_iff (show comparePartialGroupCodeChange ≠ 0 by decide),
      groupHasCode_iff hgroups, mem_changedGroups hgroups, hstructure, true_and]
    have hinvocations : (∀ pair ∈ baseline.invocations.zip candidate.invocations,
        invocationFlags baseline pair = 0) ↔
          ∀ pair ∈ baseline.invocations.zip candidate.invocations,
            pair.1.withoutCode = pair.2.withoutCode :=
      forall₂_congr fun pair hpair => invocationFlags_eq_zero_iff hgroups hpair
    rw [hinvocations]
    refine and_congr_right fun hequal => forall₂_congr fun groupIndex _ => ?_
    constructor
    · intro h pair hpair hgroup
      rw [← Bool.not_eq_true]
      refine fun hcode => h ⟨pair, hpair, hgroup, ?_, hcode⟩
      rw [← hgroup]
      exact (congrArg (·.groupIndex) (hequal pair hpair)).symm
    · rintro h ⟨pair, hpair, hgroup, -, hcode⟩
      simp [h pair hpair hgroup] at hcode
  · simp [hstructure, compareStructureChanged]

/-- The contract is stable iff all observations are equal, the code apart, and no group is
changed in part. -/
theorem mismatchFlags_eq_zero_iff (hgroups : baseline.InGroups) :
    structureFlags baseline candidate ||| tableFlags baseline candidate = 0 ↔
      NonCodeEqual baseline candidate ∧
        ∀ groupIndex, GroupChanged baseline candidate groupIndex →
          WholeGroupChanged baseline candidate groupIndex := by
  rw [or_eq_zero_iff, structureFlags_eq_zero_iff hgroups, tableFlags_eq_zero_iff]
  constructor
  · rintro ⟨⟨⟨hgroupCount, -, htiles⟩, hinvocations, hwhole⟩, htables⟩
    refine ⟨⟨hinvocations, ?_⟩, hwhole⟩
    simp only [GraphRoutingObservations.mk.injEq, RoutingTables.mk.injEq] at htables ⊢
    tauto
  · rintro ⟨⟨hinvocations, htables⟩, hwhole⟩
    have hlength := congrArg List.length hinvocations
    simp only [List.length_map] at hlength
    simp only [GraphRoutingObservations.mk.injEq, RoutingTables.mk.injEq] at htables ⊢
    refine ⟨⟨⟨?_, hlength, ?_⟩, hinvocations, hwhole⟩, ?_⟩ <;> tauto

/-! ## The comparison of the routing observations -/

theorem contractStable_iff (hgroups : baseline.InGroups) :
    (compareGraphRoutingObservations baseline candidate).contractStable = true ↔
      NonCodeEqual baseline candidate ∧
        ∀ groupIndex, GroupChanged baseline candidate groupIndex →
          WholeGroupChanged baseline candidate groupIndex := by
  rw [← mismatchFlags_eq_zero_iff hgroups]
  exact beq_iff_eq

theorem uniqueChangedGroup_iff (hgroups : baseline.InGroups) :
    (compareGraphRoutingObservations baseline candidate).uniqueChangedGroup = true ↔
      ∃! groupIndex, GroupChanged baseline candidate groupIndex := by
  have hlength : (compareGraphRoutingObservations baseline candidate).uniqueChangedGroup = true ↔
      (changedGroups baseline candidate).length = 1 := beq_iff_eq
  rw [hlength, List.length_eq_one_iff]
  simp only [changedGroups_eq_singleton_iff hgroups]
  rfl

end Comparison

/-! ## The comparison of two graphs -/

@[simp] theorem withGraphIo_uniqueChangedGroup (comparison : GraphRoutingComparison)
    (baselineIo candidateIo : List GraphIoSymbol) :
    (withGraphIo comparison baselineIo candidateIo).uniqueChangedGroup =
      comparison.uniqueChangedGroup := by
  unfold withGraphIo
  split_ifs <;> rfl

@[simp] theorem withGraphIo_changedGroupIndices (comparison : GraphRoutingComparison)
    (baselineIo candidateIo : List GraphIoSymbol) :
    (withGraphIo comparison baselineIo candidateIo).changedGroupIndices =
      comparison.changedGroupIndices := by
  unfold withGraphIo
  split_ifs <;> rfl

theorem withGraphIo_contractStable (comparison : GraphRoutingComparison)
    (baselineIo candidateIo : List GraphIoSymbol) :
    (withGraphIo comparison baselineIo candidateIo).contractStable = true ↔
      comparison.contractStable = true ∧ baselineIo = candidateIo := by
  unfold withGraphIo
  split_ifs with hio <;> simp [hio]

/-- The observations of both graphs that a comparison is made of. -/
structure ComparedGraphs (baselineBlob candidateBlob : View) where
  baseline : GraphRoutingObservations
  candidate : GraphRoutingObservations
  baselineIo : List GraphIoSymbol
  candidateIo : List GraphIoSymbol
  baseline_eq : inspectGraphRouting baselineBlob = .ok baseline
  candidate_eq : inspectGraphRouting candidateBlob = .ok candidate
  baselineIo_eq : inspectGraphIoSymbols baselineBlob = .ok baselineIo
  candidateIo_eq : inspectGraphIoSymbols candidateBlob = .ok candidateIo

theorem compareGraphs_eq_ok {baselineBlob candidateBlob : View} {result : GraphRoutingComparison}
    (h : compareGraphs baselineBlob candidateBlob = .ok result) :
    ∃ graphs : ComparedGraphs baselineBlob candidateBlob,
      result = withGraphIo (compareGraphRoutingObservations graphs.baseline graphs.candidate)
        graphs.baselineIo graphs.candidateIo := by
  unfold compareGraphs at h
  obtain ⟨-, h⟩ := refuseIf_bind_eq_ok_iff.1 h
  obtain ⟨baseline, hbaseline, h⟩ := bind_eq_ok_iff.1 h
  obtain ⟨candidate, hcandidate, h⟩ := bind_eq_ok_iff.1 h
  obtain ⟨baselineIo, hbaselineIo, h⟩ := bind_eq_ok_iff.1 h
  obtain ⟨candidateIo, hcandidateIo, h⟩ := bind_eq_ok_iff.1 h
  cases h
  exact ⟨⟨baseline, candidate, baselineIo, candidateIo, hbaseline, hcandidate, hbaselineIo,
    hcandidateIo⟩, rfl⟩

namespace ComparedGraphs

variable {baselineBlob candidateBlob : View} (graphs : ComparedGraphs baselineBlob candidateBlob)

/-- All observations of the two graphs are equal, the code of the invocations apart. -/
def Stable : Prop :=
  NonCodeEqual graphs.baseline graphs.candidate ∧ graphs.baselineIo = graphs.candidateIo

/-- The group has code that is not the same in the two graphs. -/
def Changed (groupIndex : ℕ) : Prop :=
  GroupChanged graphs.baseline graphs.candidate groupIndex

/-- No code of the group is the same in the two graphs. -/
def WholeChanged (groupIndex : ℕ) : Prop :=
  WholeGroupChanged graphs.baseline graphs.candidate groupIndex

/-- What the header says of a result with `unique_changed_group` set : the contract is
stable, one complete group changed and no other, and its index is given. -/
structure UniqueChange (result : GraphRoutingComparison) : Prop where
  contract_stable : result.contractStable = true
  stable : graphs.Stable
  complete_group : ∃ groupIndex, result.changedGroupIndices = [groupIndex] ∧
    graphs.Changed groupIndex ∧ graphs.WholeChanged groupIndex ∧
      ∀ other, graphs.Changed other → other = groupIndex

/-- When the flags of a comparison are set. With both set, the result is as the header
says. With `unique_changed_group` set it is iff the graphs are not of the following kind :
exactly one group has changed code, and in addition another observation differs or the group
has code that is the same. -/
structure ComparisonLaw (result : GraphRoutingComparison) : Prop where
  unique_iff : result.uniqueChangedGroup = true ↔
    ∃ groupIndex, graphs.Changed groupIndex ∧
      ∀ other, graphs.Changed other → other = groupIndex
  index : ∀ groupIndex, graphs.Changed groupIndex →
    (∀ other, graphs.Changed other → other = groupIndex) →
      result.changedGroupIndices = [groupIndex]
  stable_iff : result.contractStable = true ↔
    graphs.Stable ∧ ∀ groupIndex, graphs.Changed groupIndex → graphs.WholeChanged groupIndex
  documented : result.contractStable = true → result.uniqueChangedGroup = true →
    graphs.UniqueChange result
  documented_iff : (result.uniqueChangedGroup = true → graphs.UniqueChange result) ↔
    ¬∃ groupIndex, graphs.Changed groupIndex ∧
      (∀ other, graphs.Changed other → other = groupIndex) ∧
        ¬(graphs.Stable ∧ graphs.WholeChanged groupIndex)

/-- The result that `compareGraphs` makes of the observations of both graphs. -/
def comparison : GraphRoutingComparison :=
  withGraphIo (compareGraphRoutingObservations graphs.baseline graphs.candidate)
    graphs.baselineIo graphs.candidateIo

theorem comparison_law : graphs.ComparisonLaw graphs.comparison := by
  have hgroups := (fromGraph_of_inspect graphs.baseline_eq).in_groups
  have hunique : graphs.comparison.uniqueChangedGroup = true ↔
      ∃ groupIndex, graphs.Changed groupIndex ∧
        ∀ other, graphs.Changed other → other = groupIndex := by
    rw [comparison, withGraphIo_uniqueChangedGroup, uniqueChangedGroup_iff hgroups]
    rfl
  have hindex : ∀ groupIndex, graphs.Changed groupIndex →
      (∀ other, graphs.Changed other → other = groupIndex) →
        graphs.comparison.changedGroupIndices = [groupIndex] := by
    intro groupIndex hchanged hall
    rw [comparison, withGraphIo_changedGroupIndices]
    exact (changedGroups_eq_singleton_iff hgroups).2 ⟨hchanged, hall⟩
  have hstable : graphs.comparison.contractStable = true ↔
      graphs.Stable ∧ ∀ groupIndex, graphs.Changed groupIndex → graphs.WholeChanged groupIndex := by
    rw [comparison, withGraphIo_contractStable, contractStable_iff hgroups]
    exact and_right_comm
  have hdocumented : graphs.comparison.contractStable = true →
      graphs.comparison.uniqueChangedGroup = true → graphs.UniqueChange graphs.comparison := by
    intro hset hset'
    obtain ⟨hequal, hwhole⟩ := hstable.1 hset
    obtain ⟨groupIndex, hchanged, hall⟩ := hunique.1 hset'
    exact ⟨hset, hequal, groupIndex, hindex groupIndex hchanged hall, hchanged,
      hwhole groupIndex hchanged, hall⟩
  refine ⟨hunique, hindex, hstable, hdocumented, ?_⟩
  constructor
  · rintro h ⟨groupIndex, hchanged, hall, hnot⟩
    obtain ⟨-, hequal, other, -, hother, hwhole, -⟩ := h (hunique.2 ⟨groupIndex, hchanged, hall⟩)
    obtain rfl := hall other hother
    exact hnot ⟨hequal, hwhole⟩
  · intro hkind hset
    obtain ⟨groupIndex, hchanged, hall⟩ := hunique.1 hset
    obtain ⟨hequal, hwhole⟩ : graphs.Stable ∧ graphs.WholeChanged groupIndex := by
      by_contra hnot
      exact hkind ⟨groupIndex, hchanged, hall, hnot⟩
    refine hdocumented (hstable.2 ⟨hequal, fun other hother => ?_⟩) hset
    rw [hall other hother]
    exact hwhole

end ComparedGraphs

/-- Each flag of a comparison says what it is set for : `unique_changed_group` that one group
is changed, `contract_stable` that the graphs are equal but for whole groups. -/
theorem unique_changed_group_law (baselineBlob candidateBlob : View)
    (result : GraphRoutingComparison)
    (h : compareGraphs baselineBlob candidateBlob = .ok result) :
    ∃ graphs : ComparedGraphs baselineBlob candidateBlob, graphs.ComparisonLaw result := by
  obtain ⟨graphs, rfl⟩ := compareGraphs_eq_ok h
  exact ⟨graphs, graphs.comparison_law⟩

theorem unique_changed_group_law_example :
    ∃ (result : GraphRoutingComparison) (graphs : ComparedGraphs (RoutedGraph.view {})
      (RoutedGraph.view { codeExtra := 8, startAfter := 1 })), graphs.ComparisonLaw result := by
  have hcompared : succeeds (compareGraphs (RoutedGraph.view {})
      (RoutedGraph.view { codeExtra := 8, startAfter := 1 })) = true := by decide +kernel
  obtain ⟨result, h⟩ := succeeds_iff.1 hcompared
  exact ⟨result, unique_changed_group_law _ _ result h⟩

/-- The two graphs differ in the code of their only group and in the schedule of a DMA task.
The contract is not stable, and `unique_changed_group` is set. -/
theorem unique_changed_group_not_documented :
    (compareGraphs (RoutedGraph.view {}) (RoutedGraph.view { codeExtra := 8, startAfter := 1 })).map
        (fun result => (result.uniqueChangedGroup, result.contractStable,
          result.changedGroupIndices)) = .ok (true, false, [0]) := by
  decide +kernel

end Npunlock
