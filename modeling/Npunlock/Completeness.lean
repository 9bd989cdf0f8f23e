import Npunlock.Replicas

/-!
# Group completeness

`npunlock_derive_act_group_completeness` reports a group as complete when every invocation
has a slice or is a replica of one that has, and the slices cover the output.
`group_completeness_sound` : a complete group is matched perfectly, and the slices of the
group or those of the output hold the routed bytes once each.
-/

namespace Npunlock

/-! ## Derivation -/

/-- `npunlock_act_group_completeness_observation`. -/
structure ActGroupCompletenessObservation where
  actGroupIndex : ℕ
  outputSymbolRaw : ℕ
  invocationCount : ℕ
  routedInvocationCount : ℕ
  replicaInvocationCount : ℕ
  unresolvedInvocationCount : ℕ
  unresolvedFlags : ℕ
  complete : Bool
  deriving DecidableEq

/-- `NPUNLOCK_GROUP_COMPLETE_OUTPUT_SYMBOL_AMBIGUOUS`. -/
def groupCompleteOutputSymbolAmbiguous : ℕ := 1

/-- `NPUNLOCK_GROUP_COMPLETE_OUTPUT_COVER_UNRESOLVED`. -/
def groupCompleteOutputCoverUnresolved : ℕ := 2

/-- `NPUNLOCK_GROUP_COMPLETE_ROUTE_AMBIGUOUS`. -/
def groupCompleteRouteAmbiguous : ℕ := 4

/-- `NPUNLOCK_GROUP_COMPLETE_REPLICA_UNRESOLVED`. -/
def groupCompleteReplicaUnresolved : ℕ := 8

/-- `NPUNLOCK_GROUP_COMPLETE_INVOCATION_UNCLASSIFIED`. -/
def groupCompleteInvocationUnclassified : ℕ := 16

section Derivation

variable (invocations : List InvocationRoutingObservation)
  (slices : List ActOutputSliceCandidateObservation)
  (routes : List NetworkOutputRouteObservation) (covers : List ActOutputCoverObservation)
  (replicaGroups : List ActReplicaGroupObservation)
  (replicas : List ActReplicaCandidateObservation)

/-- The candidates of an unrouted invocation. -/
def replicasOf (groupIndex invocationIndex : ℕ) : List ActReplicaCandidateObservation :=
  replicas.filter fun candidate => candidate.actGroupIndex = groupIndex ∧
    candidate.unroutedInvocationIndex = invocationIndex

/-- The invocation is a replica of a routed one. -/
def isReplica (groupIndex : ℕ) (invocation : InvocationRoutingObservation) : Bool :=
  (invocationSlices slices invocation.invocationIndex).length = 0 ∧
    (replicasOf replicas groupIndex invocation.invocationIndex).length = 1

/-- The flags that an invocation adds. -/
def completenessFlags (groupIndex : ℕ) (invocation : InvocationRoutingObservation) : ℕ :=
  if (uniqueSlice slices invocation.invocationIndex).isSome = true then 0
  else if (invocationSlices slices invocation.invocationIndex).length ≠ 0 then
    groupCompleteRouteAmbiguous
  else if (replicasOf replicas groupIndex invocation.invocationIndex).length = 1 then 0
  else if (replicaGroups.find? fun group => group.actGroupIndex = groupIndex).any
      (fun group => group.translationSolutionCount ≠ 1) = true then
    groupCompleteReplicaUnresolved
  else groupCompleteInvocationUnclassified

/-- The output symbols of the routed members of a group. -/
def routedSymbols (groupIndex : ℕ) : List ℕ :=
  ((groupMembers invocations groupIndex).filterMap fun invocation =>
    uniqueSlice slices invocation.invocationIndex).map (·.outputSymbolRaw)

/-- The slices of a group. -/
def groupSlices (groupIndex : ℕ) : List ActOutputSliceCandidateObservation :=
  slices.filter fun slice => slice.actGroupIndex = groupIndex

/-- `exact_cover` : the slices of the group hold all bytes of the output. -/
def localExactCover (groupIndex symbol : ℕ) : Bool :=
  let groupSlices := slicesTo (groupSlices slices groupIndex) symbol
  let routeIntervals := (routesTo routes symbol).filterMap routeInterval
  let sliceIntervals := groupSlices.filterMap sliceInterval
  (∀ route ∈ routesTo routes symbol, routeInterval route ≠ none) ∧
    (∀ slice ∈ groupSlices, sliceInterval slice ≠ none) ∧
    routeIntervals.length ≠ 0 ∧ sliceIntervals.length ≠ 0 ∧
    (mergeOutputByteIntervals routeIntervals).2 = false ∧
    (mergeOutputByteIntervals sliceIntervals).2 = false ∧
    (mergeOutputByteIntervals routeIntervals).1 = (mergeOutputByteIntervals sliceIntervals).1

/-- `global_exact_cover` : the only cover of the output is exact. -/
def globalExactCover (symbol : ℕ) : Bool :=
  match covers.filter fun cover => cover.outputSymbolRaw = symbol with
  | [cover] => cover.exactCover
  | _ => false

/-- The flags that the output of a group adds. -/
def outputFlags (groupIndex : ℕ) : ℕ :=
  match routedSymbols invocations slices groupIndex with
  | [] => groupCompleteOutputSymbolAmbiguous
  | symbol :: others =>
    flagIf (∃ other ∈ others, other ≠ symbol) groupCompleteOutputSymbolAmbiguous |||
      flagIf (localExactCover slices routes groupIndex symbol = false ∧
        globalExactCover covers symbol = false) groupCompleteOutputCoverUnresolved

/-- The observation of a group. -/
def actGroupCompleteness (groupIndex : ℕ) : ActGroupCompletenessObservation :=
  let members := groupMembers invocations groupIndex
  let routedCount := (routedMembers invocations slices groupIndex).length
  let replicaCount := (members.filter (isReplica slices replicas groupIndex)).length
  let unresolvedCount := members.length - (routedCount + replicaCount)
  let flags := orAll (members.map (completenessFlags slices replicaGroups replicas groupIndex)) |||
    outputFlags invocations slices routes covers groupIndex
  { actGroupIndex := groupIndex
    outputSymbolRaw := (routedSymbols invocations slices groupIndex).headD 0
    invocationCount := members.length
    routedInvocationCount := routedCount
    replicaInvocationCount := replicaCount
    unresolvedInvocationCount := unresolvedCount
    unresolvedFlags := flags
    complete := flags = 0 ∧ unresolvedCount = 0 ∧ routedCount + replicaCount = members.length }

/-- `work_bound` of the group completeness. -/
def groupCompletenessWorkBound (groupCount : ℕ) : Option ℕ := do
  let workTerm ← checkedAddSize replicas.length 1
  let workTerm ← checkedMulSize invocations.length workTerm
  let workBound ← checkedAddSize workTerm slices.length
  let workBound ← checkedAddSize workBound routes.length
  let workBound ← checkedAddSize workBound covers.length
  let workBound ← checkedAddSize workBound replicaGroups.length
  checkedMulSize groupCount workBound

/-- `npunlock_derive_act_group_completeness`. -/
def deriveActGroupCompleteness (groupCount : ℕ) :
    Result (List ActGroupCompletenessObservation) := do
  refuseIf (uint32Max < invocations.length ∨ uint32Max < groupCount ∨ ¬withinWorkBound
      (groupCompletenessWorkBound invocations slices routes covers replicaGroups replicas
        groupCount))
    (unsupported "ACT group-completeness analysis exceeds its work bound")
  writeWithin groupCount (((List.range groupCount).filter fun groupIndex =>
    ∃ slice ∈ slices, slice.actGroupIndex = groupIndex).map
      (actGroupCompleteness invocations slices routes covers replicaGroups replicas))

end Derivation

/-! ## Complete groups -/

section Complete

variable {invocations : List InvocationRoutingObservation}
  {routes : List NetworkOutputRouteObservation}
  {slices : List ActOutputSliceCandidateObservation} {covers : List ActOutputCoverObservation}
  {groups : List ActReplicaGroupObservation} {replicas : List ActReplicaCandidateObservation}
  {groupIndex groupCount symbol : ℕ}

/-- The invocations of a group are routed by one slice each or matched with those that are,
and slices hold the bytes of the output once each. -/
structure GroupComplete (invocations : List InvocationRoutingObservation)
    (routes : List NetworkOutputRouteObservation)
    (slices : List ActOutputSliceCandidateObservation) (groupIndex symbol : ℕ) : Prop where
  classified : ∀ invocation ∈ groupMembers invocations groupIndex,
    invocation ∈ unroutedMembers invocations slices groupIndex ∨
    ∃ slice, invocationSlices slices invocation.invocationIndex = [slice] ∧
      routeMatchCount routes invocation = 1 ∧ slice.outputSymbolRaw = symbol
  unambiguous : hasAmbiguousRoute invocations slices groupIndex = false
  matched : unroutedMembers invocations slices groupIndex = [] ∨
    ∃ solution, replicaSolutions invocations slices groupIndex = [solution] ∧ solution ≠ 0 ∧
      PerfectMatching (fun u r => replicaContractsMatch u r = some solution)
        (unroutedMembers invocations slices groupIndex)
        (routedMembers invocations slices groupIndex)
  covered : OutputCovered routes (groupSlices slices groupIndex) symbol ∨
    OutputCovered routes slices symbol

theorem uniqueSlice_eq_some {invocationIndex : ℕ} {slice : ActOutputSliceCandidateObservation}
    (h : uniqueSlice slices invocationIndex = some slice) :
    invocationSlices slices invocationIndex = [slice] ∧ slice.routeCandidateCount = 1 := by
  unfold uniqueSlice at h
  split at h
  · rename_i unique heq
    split_ifs at h with hcount
    obtain rfl := Option.some.inj h
    exact ⟨heq, hcount⟩
  · cases h

/-- An invocation without flags is routed, or a replica. -/
theorem of_completenessFlags {invocation : InvocationRoutingObservation}
    (h : completenessFlags slices groups replicas groupIndex invocation = 0) :
    (∃ slice, uniqueSlice slices invocation.invocationIndex = some slice) ∨
      invocationSlices slices invocation.invocationIndex = [] ∧
        (replicasOf replicas groupIndex invocation.invocationIndex).length = 1 := by
  unfold completenessFlags at h
  split_ifs at h with hunique hroutes hreplica hunsolved
  · exact Or.inl (Option.isSome_iff_exists.1 hunique)
  · exact absurd h (by decide)
  · exact Or.inr ⟨List.length_eq_zero_iff.1 (not_not.1 hroutes), hreplica⟩
  · exact absurd h (by decide)
  · exact absurd h (by decide)

/-- An output without flags is that of all routed members, and covered. -/
theorem of_outputFlags (h : outputFlags invocations slices routes covers groupIndex = 0) :
    (∀ invocation ∈ groupMembers invocations groupIndex, ∀ slice,
      uniqueSlice slices invocation.invocationIndex = some slice →
        slice.outputSymbolRaw = (routedSymbols invocations slices groupIndex).headD 0) ∧
    (localExactCover slices routes groupIndex
        ((routedSymbols invocations slices groupIndex).headD 0) = true ∨
      globalExactCover covers ((routedSymbols invocations slices groupIndex).headD 0) = true) := by
  have hmem : ∀ invocation ∈ groupMembers invocations groupIndex, ∀ slice,
      uniqueSlice slices invocation.invocationIndex = some slice →
        slice.outputSymbolRaw ∈ routedSymbols invocations slices groupIndex :=
    fun invocation hmember slice hslice =>
      List.mem_map_of_mem (List.mem_filterMap.2 ⟨invocation, hmember, hslice⟩)
  unfold outputFlags at h
  split at h
  · exact absurd h (by decide)
  · rename_i symbol others hsymbols
    rw [hsymbols] at hmem ⊢
    simp only [or_eq_zero_iff,
      flagIf_eq_zero_iff (show groupCompleteOutputSymbolAmbiguous ≠ 0 by decide),
      flagIf_eq_zero_iff (show groupCompleteOutputCoverUnresolved ≠ 0 by decide),
      not_exists, not_and, not_not, Bool.not_eq_false, List.headD_cons] at h ⊢
    refine ⟨fun invocation hmember slice hslice => ?_, ?_⟩
    · rcases List.mem_cons.1 (hmem invocation hmember slice hslice) with heq | hother
      · exact heq
      · exact h.1 _ hother
    · by_cases hlocal : localExactCover slices routes groupIndex symbol = true
      · exact Or.inl hlocal
      · exact Or.inr (h.2 (Bool.eq_false_iff.2 hlocal))

/-- A group without ambiguous routes, as far as its members have no flags. -/
theorem not_hasAmbiguousRoute (h : ∀ invocation ∈ groupMembers invocations groupIndex,
      (∃ slice, uniqueSlice slices invocation.invocationIndex = some slice) ∨
        invocationSlices slices invocation.invocationIndex = []) :
    hasAmbiguousRoute invocations slices groupIndex = false := by
  unfold hasAmbiguousRoute
  refine decide_eq_false ?_
  rintro ⟨invocation, hmember, hroutes, hnone⟩
  rcases h invocation hmember with ⟨slice, hslice⟩ | hnil
  · rw [hslice] at hnone
    cases hnone
  · exact hroutes (List.length_eq_zero_iff.2 hnil)

/-! ## Derived data -/

/-- The slices of an invocation are those that were made for it. -/
theorem invocationSlices_eq (hindices : (invocations.map (·.invocationIndex)).Nodup)
    {invocation : InvocationRoutingObservation} (hmem : invocation ∈ invocations) :
    invocationSlices (invocations.flatMap (outputSlicesOf routes)) invocation.invocationIndex =
      outputSlicesOf routes invocation := by
  have hindex : ∀ act, ∀ slice ∈ outputSlicesOf routes act,
      slice.actInvocationIndex = act.invocationIndex := by
    intro act slice hslice
    obtain ⟨route, -, place, -, rfl⟩ := mem_outputSlicesOf.1 hslice
    rfl
  unfold invocationSlices
  rw [filter_flatMap_eq (List.Nodup.of_map _ hindices) hmem, List.filter_eq_self]
  · exact fun slice hslice => decide_eq_true (hindex _ slice hslice)
  · exact fun other hother hne slice hslice => decide_eq_false fun heq =>
      hne (eq_of_invocationIndex_eq hindices hother hmem ((hindex _ slice hslice).symm.trans heq))

theorem routeMatchCount_of_mem {act : InvocationRoutingObservation}
    {slice : ActOutputSliceCandidateObservation} (h : slice ∈ outputSlicesOf routes act) :
    routeMatchCount routes act = slice.routeCandidateCount ∧
      slice.actGroupIndex = act.groupIndex := by
  obtain ⟨route, -, place, -, rfl⟩ := mem_outputSlicesOf.1 h
  exact ⟨rfl, rfl⟩

/-- A replica of an unrouted invocation comes from the only solution of the group. -/
theorem exists_solution_of_replica
    (hreplica : (replicasOf ((replicaGroups invocations slices groupCount).flatMap
      (actReplicaCandidates invocations slices)) groupIndex symbol).length = 1) :
    ∃ solution, replicaSolutions invocations slices groupIndex = [solution] := by
  obtain ⟨candidate, hcandidate⟩ := List.length_eq_one_iff.1 hreplica
  obtain ⟨hmem, hkey, -⟩ := filter_eq_singleton hcandidate
  obtain ⟨other, -, hwritten⟩ := List.mem_flatMap.1 hmem
  obtain rfl : other = groupIndex :=
    (actGroupIndex_of_replica hwritten).symm.trans (of_decide_eq_true hkey).1
  unfold actReplicaCandidates at hwritten
  split at hwritten
  · rename_i solution hsolution
    exact ⟨solution, hsolution⟩
  · cases hwritten

theorem outputCovered_of_local
    (hcount : ∀ slice ∈ groupSlices slices groupIndex, slice.routeCandidateCount = 1)
    (h : localExactCover slices routes groupIndex symbol = true) :
    OutputCovered routes (groupSlices slices groupIndex) symbol := by
  unfold localExactCover at h
  obtain ⟨hroutes, hslices, -, -, hrouteOverlap, hsliceOverlap, hmerge⟩ := of_decide_eq_true h
  exact outputCovered_of_flags (outputCoverFlags_eq_zero_iff.2 ⟨hroutes, fun slice hslice =>
    ⟨hcount slice (List.mem_of_mem_filter hslice), hslices slice hslice⟩, hrouteOverlap,
      hsliceOverlap, hmerge⟩)

theorem outputCovered_of_global
    (hcovers : deriveActOutputCoverObservations invocations routes slices = .ok covers)
    (h : globalExactCover covers symbol = true) : OutputCovered routes slices symbol := by
  unfold globalExactCover at h
  split at h
  · rename_i cover hcover
    obtain ⟨hmem, hsymbol, -⟩ := filter_eq_singleton hcover
    obtain ⟨symbol', -, hderived⟩ :=
      exists_of_mapM (deriveActOutputCoverObservations_eq_ok hcovers) hmem
    obtain ⟨rfl, hexact, -⟩ := actOutputCover_eq_ok hderived
    rw [← of_decide_eq_true hsymbol]
    exact outputCovered_of_flags (hexact.1 h)
  · cases h

/-- A complete group of derived data is sound. -/
theorem groupComplete_of_complete (hindices : (invocations.map (·.invocationIndex)).Nodup)
    (hslices : slices = invocations.flatMap (outputSlicesOf routes))
    (hcovers : deriveActOutputCoverObservations invocations routes slices = .ok covers)
    (hreplicas : replicas = (replicaGroups invocations slices groupCount).flatMap
      (actReplicaCandidates invocations slices))
    (h : (actGroupCompleteness invocations slices routes covers groups replicas
      groupIndex).complete = true) :
    GroupComplete invocations routes slices groupIndex
      (actGroupCompleteness invocations slices routes covers groups replicas
        groupIndex).outputSymbolRaw := by
  obtain ⟨hflags, -, -⟩ := of_decide_eq_true h
  simp only [or_eq_zero_iff, orAll_map_eq_zero_iff] at hflags
  obtain ⟨hmembers, houtput⟩ := hflags
  obtain ⟨hsymbols, hcovered⟩ := of_outputFlags houtput
  have hclass := fun invocation hmember => of_completenessFlags (hmembers invocation hmember)
  have hunambiguous : hasAmbiguousRoute invocations slices groupIndex = false :=
    not_hasAmbiguousRoute fun invocation hmember => (hclass invocation hmember).imp_right And.left
  have hrouted : ∀ invocation ∈ groupMembers invocations groupIndex,
      ∀ slice ∈ outputSlicesOf routes invocation,
        invocationSlices slices invocation.invocationIndex = [slice] ∧
          slice.routeCandidateCount = 1 := by
    intro invocation hmember slice hslice
    rw [← invocationSlices_eq hindices (mem_groupMembers.1 hmember).1, ← hslices] at hslice
    rcases hclass invocation hmember with ⟨unique, hunique⟩ | ⟨hnil, -⟩
    · obtain ⟨honly, hcount⟩ := uniqueSlice_eq_some hunique
      rw [honly, List.mem_singleton] at hslice
      exact ⟨hslice ▸ honly, hslice ▸ hcount⟩
    · rw [hnil] at hslice
      cases hslice
  constructor
  case classified =>
    intro invocation hmember
    rcases hclass invocation hmember with ⟨slice, hslice⟩ | ⟨hnil, -⟩
    · obtain ⟨honly, hcount⟩ := uniqueSlice_eq_some hslice
      refine Or.inr ⟨slice, honly, ?_, hsymbols invocation hmember slice hslice⟩
      rw [hslices, invocationSlices_eq hindices (mem_groupMembers.1 hmember).1] at honly
      rw [(routeMatchCount_of_mem (by rw [honly]; exact List.mem_cons_self)).1, hcount]
    · exact Or.inl (mem_unroutedMembers.2 ⟨hmember, hnil⟩)
  case unambiguous => exact hunambiguous
  case matched =>
    rw [or_iff_not_imp_left]
    intro hne
    obtain ⟨u, hu⟩ := List.exists_mem_of_ne_nil _ hne
    obtain ⟨hmember, hnil⟩ := mem_unroutedMembers.1 hu
    rcases hclass u hmember with ⟨slice, hslice⟩ | ⟨-, hone⟩
    · rw [(uniqueSlice_eq_some hslice).1] at hnil
      cases hnil
    · rw [hreplicas] at hone
      obtain ⟨solution, hsolution⟩ := exists_solution_of_replica hone
      refine ⟨solution, hsolution, (mem_replicaSolutions hindices hunambiguous hne).1 ?_⟩
      rw [hsolution]
      exact List.mem_cons_self
  case covered =>
    refine hcovered.imp (fun hlocal => ?_) fun hglobal => outputCovered_of_global hcovers hglobal
    refine outputCovered_of_local (fun slice hslice => ?_) hlocal
    obtain ⟨hmem, hgroup⟩ := List.mem_filter.1 hslice
    rw [hslices] at hmem
    obtain ⟨act, hact, hmem⟩ := List.mem_flatMap.1 hmem
    have hmember : act ∈ groupMembers invocations groupIndex := mem_groupMembers.2
      ⟨hact, (routeMatchCount_of_mem hmem).2.symm.trans (of_decide_eq_true hgroup)⟩
    exact (hrouted act hmember slice hmem).2

/-- A complete group of derived data is sound : its invocations are routed by one slice or
matched perfectly with those that are, and the slices hold the routed bytes once each. -/
theorem group_completeness_sound
    {completeness : List ActGroupCompletenessObservation}
    (hindices : (invocations.map (·.invocationIndex)).Nodup)
    (hslices : deriveActOutputSliceCandidates invocations routes = .ok slices)
    (hcovers : deriveActOutputCoverObservations invocations routes slices = .ok covers)
    (hreplicas : deriveActReplicaCandidates invocations slices groupCount =
      .ok (groups, replicas))
    (hcompleteness : deriveActGroupCompleteness invocations slices routes covers groups replicas
      groupCount = .ok completeness) :
    ∀ group ∈ completeness, group.complete = true →
      GroupComplete invocations routes slices group.actGroupIndex group.outputSymbolRaw := by
  unfold deriveActGroupCompleteness at hcompleteness
  obtain ⟨-, hcompleteness⟩ := refuseIf_bind_eq_ok_iff.1 hcompleteness
  obtain ⟨-, rfl⟩ := writeWithin_eq_ok_iff.1 hcompleteness
  intro group hgroup hcomplete
  obtain ⟨groupIndex, -, rfl⟩ := List.mem_map.1 hgroup
  exact groupComplete_of_complete hindices (deriveActOutputSliceCandidates_spec hslices) hcovers
    (deriveActReplicaCandidates_eq_ok hreplicas).2 hcomplete

/-- Two tiles, one of which is routed to an output of four bytes. -/
theorem group_completeness_sound_example :
    GroupComplete exampleReplicas [exampleRoute 0 4] exampleReplicaSlices 0 1 := by
  have hslices : deriveActOutputSliceCandidates exampleReplicas [exampleRoute 0 4] =
      .ok exampleReplicaSlices := by
    decide +kernel
  have hcovers : deriveActOutputCoverObservations exampleReplicas [exampleRoute 0 4]
      exampleReplicaSlices = .ok [⟨1, 1, 4, 2, 2, 1, 2, 0, 4, 4, true⟩] := by
    decide +kernel
  have hreplicas : deriveActReplicaCandidates exampleReplicas exampleReplicaSlices 1 =
      .ok ([⟨0, 2, 2, 1, 1000⟩],
        [⟨0, 2, 0, 1, 0, 1, 0, 2, 1000⟩, ⟨0, 3, 1, 1, 0, 1, 2, 2, 1000⟩]) := by
    decide +kernel
  have hcompleteness : deriveActGroupCompleteness exampleReplicas exampleReplicaSlices
      [exampleRoute 0 4] [⟨1, 1, 4, 2, 2, 1, 2, 0, 4, 4, true⟩] [⟨0, 2, 2, 1, 1000⟩]
      [⟨0, 2, 0, 1, 0, 1, 0, 2, 1000⟩, ⟨0, 3, 1, 1, 0, 1, 2, 2, 1000⟩] 1 =
        .ok [⟨0, 1, 4, 2, 2, 0, 0, true⟩] := by
    decide +kernel
  exact group_completeness_sound (by decide) hslices hcovers hreplicas hcompleteness _
    List.mem_cons_self rfl

end Complete

end Npunlock
