import Npunlock.OutputCover

/-!
# Replicas

`npunlock_derive_act_replica_candidates` pairs the invocations of a group that no route
reaches with those that have a route, where one translation of the CMX addresses maps each
of them to another one. `replica_matching` : the solutions that are counted are the
translations for which the pairing is a perfect matching, and the pairs are written if there
is one solution. `deriveActReplicaCandidates_safe` : the arrays are large enough.
-/

namespace Npunlock

/-! ## Derivation -/

/-- `npunlock_act_replica_group_observation`. -/
structure ActReplicaGroupObservation where
  actGroupIndex : ℕ
  routedInvocationCount : ℕ
  unroutedInvocationCount : ℕ
  translationSolutionCount : ℕ
  cmxTranslationCandidate : ℤ
  deriving DecidableEq

/-- `npunlock_act_replica_candidate_observation`. -/
structure ActReplicaCandidateObservation where
  actGroupIndex : ℕ
  unroutedInvocationIndex : ℕ
  routedInvocationIndex : ℕ
  unroutedTileCandidateRaw : ℕ
  routedTileCandidateRaw : ℕ
  outputSymbolRaw : ℕ
  outputSliceAddendCandidate : ℕ
  outputSliceSpanBytes : ℕ
  cmxTranslationCandidate : ℤ
  deriving DecidableEq

section Derivation

variable (invocations : List InvocationRoutingObservation)
  (slices : List ActOutputSliceCandidateObservation)

/-- The slices that `invocation_slice_candidate_count` counts. -/
def invocationSlices (invocationIndex : ℕ) : List ActOutputSliceCandidateObservation :=
  slices.filter fun slice => slice.actInvocationIndex = invocationIndex

/-- `unique_candidate` of `invocation_slice_candidate_count`, where it counts one slice. -/
def uniqueSlice (invocationIndex : ℕ) : Option ActOutputSliceCandidateObservation :=
  match invocationSlices slices invocationIndex with
  | [unique] => if unique.routeCandidateCount = 1 then some unique else none
  | _ => none

/-- The members of a group without a slice. -/
def unroutedMembers (groupIndex : ℕ) : List InvocationRoutingObservation :=
  (groupMembers invocations groupIndex).filter fun invocation =>
    (invocationSlices slices invocation.invocationIndex).length = 0

/-- The members of a group with one slice of one route. -/
def routedMembers (groupIndex : ℕ) : List InvocationRoutingObservation :=
  (groupMembers invocations groupIndex).filter fun invocation =>
    (uniqueSlice slices invocation.invocationIndex).isSome

/-- `ambiguous_route` : a member has slices but no unique one. -/
def hasAmbiguousRoute (groupIndex : ℕ) : Bool :=
  ∃ invocation ∈ groupMembers invocations groupIndex,
    (invocationSlices slices invocation.invocationIndex).length ≠ 0 ∧
      uniqueSlice slices invocation.invocationIndex = none

/-- The translation maps the routed invocation to the unrouted one. -/
def isTranslated (translation : ℤ) (unrouted routed : InvocationRoutingObservation) : Bool :=
  replicaContractsMatch unrouted routed = some translation

/-- `replica_translation_solves_group`. -/
def replicaTranslationSolvesGroup (groupIndex : ℕ) (translation : ℤ) : Bool :=
  (∀ unrouted ∈ unroutedMembers invocations slices groupIndex,
      ((routedMembers invocations slices groupIndex).filter
        (isTranslated translation unrouted)).length = 1) ∧
    ∀ routed ∈ routedMembers invocations slices groupIndex,
      ((unroutedMembers invocations slices groupIndex).filter fun unrouted =>
        isTranslated translation unrouted routed).length = 1

/-- `translations` : the translations between members. -/
def replicaTranslations (groupIndex : ℕ) : List ℤ :=
  if hasAmbiguousRoute invocations slices groupIndex = true then []
  else firsts id ((unroutedMembers invocations slices groupIndex).flatMap fun unrouted =>
    (routedMembers invocations slices groupIndex).filterMap (replicaContractsMatch unrouted))

/-- The translations that solve a group. -/
def replicaSolutions (groupIndex : ℕ) : List ℤ :=
  (replicaTranslations invocations slices groupIndex).filter
    (replicaTranslationSolvesGroup invocations slices groupIndex)

/-- The observation of a group. -/
def actReplicaGroup (groupIndex : ℕ) : ActReplicaGroupObservation where
  actGroupIndex := groupIndex
  routedInvocationCount := (routedMembers invocations slices groupIndex).length
  unroutedInvocationCount := (unroutedMembers invocations slices groupIndex).length
  translationSolutionCount := (replicaSolutions invocations slices groupIndex).length
  cmxTranslationCandidate :=
    match replicaSolutions invocations slices groupIndex with
    | [solution] => solution
    | _ => 0

/-- The record of a pair. -/
def actReplicaCandidate (groupIndex : ℕ) (solution : ℤ)
    (unrouted routed : InvocationRoutingObservation)
    (slice : ActOutputSliceCandidateObservation) : ActReplicaCandidateObservation where
  actGroupIndex := groupIndex
  unroutedInvocationIndex := unrouted.invocationIndex
  routedInvocationIndex := routed.invocationIndex
  unroutedTileCandidateRaw := unrouted.tileCandidateRaw
  routedTileCandidateRaw := routed.tileCandidateRaw
  outputSymbolRaw := slice.outputSymbolRaw
  outputSliceAddendCandidate := slice.outputSliceAddendCandidate
  outputSliceSpanBytes := slice.actSpanBytes
  cmxTranslationCandidate := solution

/-- The record of an unrouted member : of the first routed one that the solution maps to it. -/
def replicaOf (groupIndex : ℕ) (solution : ℤ) (unrouted : InvocationRoutingObservation) :
    Option ActReplicaCandidateObservation := do
  let routed ← (routedMembers invocations slices groupIndex).find? (isTranslated solution unrouted)
  let slice ← uniqueSlice slices routed.invocationIndex
  some (actReplicaCandidate groupIndex solution unrouted routed slice)

/-- The records of a group. -/
def actReplicaCandidates (groupIndex : ℕ) : List ActReplicaCandidateObservation :=
  match replicaSolutions invocations slices groupIndex with
  | [solution] => (unroutedMembers invocations slices groupIndex).filterMap
      (replicaOf invocations slices groupIndex solution)
  | _ => []

/-- The groups with routed and unrouted members. -/
def replicaGroups (groupCount : ℕ) : List ℕ :=
  (List.range groupCount).filter fun groupIndex =>
    (routedMembers invocations slices groupIndex).length ≠ 0 ∧
      (unroutedMembers invocations slices groupIndex).length ≠ 0

/-- `npunlock_derive_act_replica_candidates`. -/
def deriveActReplicaCandidates (groupCount : ℕ) :
    Result (List ActReplicaGroupObservation × List ActReplicaCandidateObservation) := do
  refuseIf (¬withinWorkBound
      ((checkedMulSize invocations.length invocations.length).bind (checkedMulSize · groupCount)))
    (unsupported "ACT replica analysis exceeds its work bound")
  (replicaGroups invocations slices groupCount).forM fun groupIndex => do
    let _ ← writeWithin (invocations.length * invocations.length)
      (replicaTranslations invocations slices groupIndex)
    .ok ()
  let groups ← writeWithin groupCount
    ((replicaGroups invocations slices groupCount).map (actReplicaGroup invocations slices))
  let candidates ← writeWithin invocations.length
    ((replicaGroups invocations slices groupCount).flatMap
      (actReplicaCandidates invocations slices))
  .ok (groups, candidates)

end Derivation

/-! ## Capacities -/

section Capacities

variable {invocations : List InvocationRoutingObservation}
  {slices : List ActOutputSliceCandidateObservation} {groupIndex groupCount : ℕ}

theorem length_groupMembers_le : (groupMembers invocations groupIndex).length ≤
    invocations.length :=
  List.length_filter_le _ _

theorem length_replicaTranslations_le :
    (replicaTranslations invocations slices groupIndex).length ≤
      invocations.length * invocations.length := by
  have hrouted : (routedMembers invocations slices groupIndex).length ≤ invocations.length :=
    (List.length_filter_le _ _).trans length_groupMembers_le
  have hunrouted : (unroutedMembers invocations slices groupIndex).length ≤ invocations.length :=
    (List.length_filter_le _ _).trans length_groupMembers_le
  unfold replicaTranslations
  split_ifs
  · exact Nat.zero_le _
  · refine (length_firsts_le id _).trans ?_
    refine (length_flatMap_le fun unrouted _ =>
      (List.length_filterMap_le _ _).trans hrouted).trans ?_
    exact Nat.mul_le_mul_right _ hunrouted

theorem length_actReplicaCandidates_le :
    (actReplicaCandidates invocations slices groupIndex).length ≤
      (groupMembers invocations groupIndex).length := by
  unfold actReplicaCandidates
  split
  · exact (List.length_filterMap_le _ _).trans (List.length_filter_le _ _)
  · exact Nat.zero_le _

theorem nodup_replicaGroups : (replicaGroups invocations slices groupCount).Nodup :=
  List.nodup_range.filter _

/-- Every unrouted member is written once, over all groups. -/
theorem length_replicaCandidates_le :
    ((replicaGroups invocations slices groupCount).flatMap
      (actReplicaCandidates invocations slices)).length ≤ invocations.length := by
  rw [List.length_flatMap]
  refine le_trans (List.sum_le_sum fun groupIndex _ => length_actReplicaCandidates_le) ?_
  exact sum_length_filter_le nodup_replicaGroups invocations

/-- No array is written past its capacity. -/
theorem deriveActReplicaCandidates_safe :
    Safe (deriveActReplicaCandidates invocations slices groupCount) fun _ => True := by
  unfold deriveActReplicaCandidates
  refine Meets.refuseIf_bind (not_isFault_unsupported _) fun _ => ?_
  refine Meets.bind (Meets.forM (P := fun _ => True) fun groupIndex _ => ?_) fun _ _ => ?_
  · exact (safe_writeWithin length_replicaTranslations_le).bind fun _ _ => Meets.ok trivial
  · refine (safe_writeWithin ?_).bind fun _ _ => ?_
    · rw [List.length_map]
      exact (List.length_filter_le _ _).trans List.length_range.le
    · exact (safe_writeWithin length_replicaCandidates_le).bind fun _ _ => Meets.ok trivial

end Capacities

/-! ## Matchings -/

section Matchings

variable {invocations : List InvocationRoutingObservation}
  {slices : List ActOutputSliceCandidateObservation} {groupIndex groupCount : ℕ}

theorem isTranslated_iff {translation : ℤ} {unrouted routed : InvocationRoutingObservation} :
    isTranslated translation unrouted routed = true ↔
      replicaContractsMatch unrouted routed = some translation := by
  unfold isTranslated
  exact decide_eq_true_iff

/-- The pairs of a group that are written for a solution. -/
structure ReplicaPairs (unrouted routed : List InvocationRoutingObservation) (solution : ℤ)
    (candidates : List ActReplicaCandidateObservation) : Prop where
  solution_ne : solution ≠ 0
  matching : PerfectMatching (fun u r => replicaContractsMatch u r = some solution) unrouted routed
  pairs : List.Forall₂ (fun u candidate => candidate.unroutedInvocationIndex = u.invocationIndex ∧
      ∃ r ∈ routed, candidate.routedInvocationIndex = r.invocationIndex ∧
        replicaContractsMatch u r = some solution)
    unrouted candidates
  routed_perm : (candidates.map (·.routedInvocationIndex)).Perm
    (routed.map (·.invocationIndex))
  length_eq : unrouted.length = routed.length

theorem mem_unroutedMembers {invocation : InvocationRoutingObservation} :
    invocation ∈ unroutedMembers invocations slices groupIndex ↔
      invocation ∈ groupMembers invocations groupIndex ∧
        invocationSlices slices invocation.invocationIndex = [] := by
  unfold unroutedMembers
  rw [List.mem_filter, decide_eq_true_eq, List.length_eq_zero_iff]

theorem mem_routedMembers {invocation : InvocationRoutingObservation} :
    invocation ∈ routedMembers invocations slices groupIndex ↔
      invocation ∈ groupMembers invocations groupIndex ∧
        ∃ slice, uniqueSlice slices invocation.invocationIndex = some slice := by
  unfold routedMembers
  rw [List.mem_filter, Option.isSome_iff_exists]

section Distinct

variable (hindices : (invocations.map (·.invocationIndex)).Nodup)
include hindices

theorem nodup_unroutedMembers : (unroutedMembers invocations slices groupIndex).Nodup :=
  ((nodup_groupMembers hindices).of_map).filter _

theorem nodup_routedMembers : ((routedMembers invocations slices groupIndex).map
    (·.invocationIndex)).Nodup :=
  (nodup_groupMembers hindices).sublist (List.filter_sublist.map _)

theorem replicaTranslationSolvesGroup_iff {translation : ℤ} :
    replicaTranslationSolvesGroup invocations slices groupIndex translation = true ↔
      PerfectMatching (fun u r => replicaContractsMatch u r = some translation)
        (unroutedMembers invocations slices groupIndex)
        (routedMembers invocations slices groupIndex) := by
  have hunrouted : (unroutedMembers invocations slices groupIndex).Nodup :=
    nodup_unroutedMembers hindices
  have hrouted : ((routedMembers invocations slices groupIndex).map (·.invocationIndex)).Nodup :=
    nodup_routedMembers hindices
  have hiff := perfectMatching_iff (p := isTranslated translation) hunrouted hrouted.of_map
  simp only [isTranslated_iff] at hiff
  unfold replicaTranslationSolvesGroup
  rw [decide_eq_true_eq, hiff]

/-- The solutions of a group without ambiguous routes are the perfect matchings. -/
theorem mem_replicaSolutions (hambiguous : hasAmbiguousRoute invocations slices groupIndex = false)
    (hne : unroutedMembers invocations slices groupIndex ≠ []) {translation : ℤ} :
    translation ∈ replicaSolutions invocations slices groupIndex ↔ translation ≠ 0 ∧
      PerfectMatching (fun u r => replicaContractsMatch u r = some translation)
        (unroutedMembers invocations slices groupIndex)
        (routedMembers invocations slices groupIndex) := by
  unfold replicaSolutions
  rw [List.mem_filter, replicaTranslationSolvesGroup_iff hindices]
  constructor
  · rintro ⟨-, hmatching⟩
    obtain ⟨u, hu⟩ := List.exists_mem_of_ne_nil _ hne
    obtain ⟨r, ⟨-, hmatch⟩, -⟩ := hmatching.left u hu
    exact ⟨(replicaMatch_of hmatch).translation_ne, hmatching⟩
  · rintro ⟨-, hmatching⟩
    refine ⟨?_, hmatching⟩
    obtain ⟨u, hu⟩ := List.exists_mem_of_ne_nil _ hne
    obtain ⟨r, ⟨hr, hmatch⟩, -⟩ := hmatching.left u hu
    unfold replicaTranslations
    rw [if_neg (by rw [hambiguous]; decide)]
    have hmem : translation ∈ (unroutedMembers invocations slices groupIndex).flatMap fun u =>
        (routedMembers invocations slices groupIndex).filterMap (replicaContractsMatch u) :=
      List.mem_flatMap.2 ⟨u, hu, List.mem_filterMap.2 ⟨r, hr, hmatch⟩⟩
    obtain ⟨first, hfirst, rfl⟩ : ∃ first ∈ firsts id
        ((unroutedMembers invocations slices groupIndex).flatMap fun u =>
          (routedMembers invocations slices groupIndex).filterMap (replicaContractsMatch u)),
        id first = translation := exists_mem_firsts hmem
    exact hfirst

end Distinct

theorem nodup_replicaSolutions (invocations : List InvocationRoutingObservation)
    (slices : List ActOutputSliceCandidateObservation) (groupIndex : ℕ) :
    (replicaSolutions invocations slices groupIndex).Nodup := by
  unfold replicaSolutions replicaTranslations
  split_ifs
  · exact List.nodup_nil
  · have hnodup := nodup_firsts id ((unroutedMembers invocations slices groupIndex).flatMap
      fun u => (routedMembers invocations slices groupIndex).filterMap (replicaContractsMatch u))
    rw [List.map_id] at hnodup
    exact hnodup.filter _

/-- The record of an unrouted member that a solution maps a routed one to. -/
theorem exists_replicaOf {solution : ℤ} {u : InvocationRoutingObservation}
    (h : ∃ r ∈ routedMembers invocations slices groupIndex,
      replicaContractsMatch u r = some solution) :
    ∃ candidate, replicaOf invocations slices groupIndex solution u = some candidate ∧
      candidate.actGroupIndex = groupIndex ∧
      candidate.unroutedInvocationIndex = u.invocationIndex ∧
      ∃ r ∈ routedMembers invocations slices groupIndex,
        candidate.routedInvocationIndex = r.invocationIndex ∧
          replicaContractsMatch u r = some solution := by
  obtain ⟨r, hr, hmatch⟩ := h
  have hsome : ((routedMembers invocations slices groupIndex).find?
      (isTranslated solution u)).isSome = true :=
    List.find?_isSome.2 ⟨r, hr, isTranslated_iff.2 hmatch⟩
  obtain ⟨first, hfirst⟩ := Option.isSome_iff_exists.1 hsome
  have hmem := List.mem_of_find?_eq_some hfirst
  obtain ⟨-, slice, hslice⟩ := mem_routedMembers.1 hmem
  refine ⟨actReplicaCandidate groupIndex solution u first slice, ?_, rfl, rfl, first, hmem, rfl,
    isTranslated_iff.1 (List.find?_some hfirst)⟩
  unfold replicaOf
  rw [hfirst, Option.bind_eq_bind, Option.bind_some, hslice]
  rfl

/-- The pairs of the only solution. -/
theorem replicaPairs_of_solution (hindices : (invocations.map (·.invocationIndex)).Nodup)
    {solution : ℤ} (hne : solution ≠ 0)
    (hmatching : PerfectMatching (fun u r => replicaContractsMatch u r = some solution)
      (unroutedMembers invocations slices groupIndex)
      (routedMembers invocations slices groupIndex)) :
    ReplicaPairs (unroutedMembers invocations slices groupIndex)
      (routedMembers invocations slices groupIndex) solution
      ((unroutedMembers invocations slices groupIndex).filterMap
        (replicaOf invocations slices groupIndex solution)) := by
  have hunrouted : (unroutedMembers invocations slices groupIndex).Nodup :=
    nodup_unroutedMembers hindices
  have hrouted : ((routedMembers invocations slices groupIndex).map (·.invocationIndex)).Nodup :=
    nodup_routedMembers hindices
  have hreplica := fun u (hu : u ∈ unroutedMembers invocations slices groupIndex) =>
    exists_replicaOf ((hmatching.left u hu).exists.imp fun r h => h)
  have hpairs : List.Forall₂ (fun u candidate =>
      u ∈ unroutedMembers invocations slices groupIndex ∧
      candidate.unroutedInvocationIndex = u.invocationIndex ∧
      ∃ r ∈ routedMembers invocations slices groupIndex,
        candidate.routedInvocationIndex = r.invocationIndex ∧
          replicaContractsMatch u r = some solution)
      (unroutedMembers invocations slices groupIndex)
      ((unroutedMembers invocations slices groupIndex).filterMap
        (replicaOf invocations slices groupIndex solution)) := by
    refine ((List.forall₂_and_left _ _).2 ⟨fun u hu => hu, forall₂_filterMap fun u hu =>
      (hreplica u hu).imp fun _ h => h.1⟩).imp ?_
    rintro u candidate ⟨hu, heq⟩
    obtain ⟨candidate', heq', -, hrest⟩ := hreplica u hu
    obtain rfl := Option.some.inj (heq.symm.trans heq')
    exact ⟨hu, hrest⟩
  constructor
  case solution_ne => exact hne
  case matching => exact hmatching
  case pairs => exact hpairs.imp fun _ _ h => h.2
  case routed_perm =>
    refine (map_perm_map_iff hrouted).2 ⟨fun candidate hcandidate => ?_, fun r hr => ?_⟩
    · obtain ⟨u, -, -, -, r, hr, heq, -⟩ := exists_of_forall₂ hpairs.flip hcandidate
      exact ⟨r, hr, heq.symm⟩
    · have hone := (length_filter_eq_one_iff (p := fun u => isTranslated solution u r)
        hunrouted).2 (by simpa only [isTranslated_iff] using hmatching.right r hr)
      rw [← hone]
      refine (length_filter_of_forall₂ (fun u candidate hpair => ?_) hpairs).symm
      obtain ⟨hu, -, r', hr', hindex, hmatch⟩ := hpair
      rw [isTranslated_iff, decide_eq_true_eq, hindex]
      constructor
      · intro hmatch'
        exact congrArg _ ((hmatching.left u hu).unique ⟨hr', hmatch⟩ ⟨hr, hmatch'⟩)
      · intro heq
        rwa [← List.inj_on_of_nodup_map hrouted hr' hr heq]
  case length_eq =>
    refine PerfectMatching.length_eq (p := isTranslated solution) hunrouted hrouted.of_map ?_
    simpa only [isTranslated_iff] using hmatching

theorem mem_replicaGroups : groupIndex ∈ replicaGroups invocations slices groupCount ↔
    groupIndex < groupCount ∧ routedMembers invocations slices groupIndex ≠ [] ∧
      unroutedMembers invocations slices groupIndex ≠ [] := by
  unfold replicaGroups
  rw [List.mem_filter, List.mem_range, decide_eq_true_eq, ne_eq, ne_eq, List.length_eq_zero_iff,
    List.length_eq_zero_iff]

theorem actGroupIndex_of_replica {candidate : ActReplicaCandidateObservation}
    (h : candidate ∈ actReplicaCandidates invocations slices groupIndex) :
    candidate.actGroupIndex = groupIndex := by
  unfold actReplicaCandidates at h
  split at h
  · obtain ⟨u, -, hreplica⟩ := List.mem_filterMap.1 h
    unfold replicaOf at hreplica
    obtain ⟨r, -, hreplica⟩ := Option.bind_eq_some_iff.1 hreplica
    obtain ⟨slice, -, hreplica⟩ := Option.bind_eq_some_iff.1 hreplica
    obtain rfl := Option.some.inj hreplica
    rfl
  · cases h

/-- The records of a group among those of all groups. -/
theorem filter_replicaCandidates (h : groupIndex ∈ replicaGroups invocations slices groupCount) :
    ((replicaGroups invocations slices groupCount).flatMap
      (actReplicaCandidates invocations slices)).filter
        (fun candidate => candidate.actGroupIndex = groupIndex) =
      actReplicaCandidates invocations slices groupIndex := by
  rw [filter_flatMap_eq nodup_replicaGroups h, List.filter_eq_self]
  · exact fun candidate hmem => decide_eq_true (actGroupIndex_of_replica hmem)
  · exact fun other _ hne candidate hmem =>
      decide_eq_false fun heq => hne ((actGroupIndex_of_replica hmem).symm.trans heq)

theorem deriveActReplicaCandidates_eq_ok {groups : List ActReplicaGroupObservation}
    {candidates : List ActReplicaCandidateObservation}
    (h : deriveActReplicaCandidates invocations slices groupCount = .ok (groups, candidates)) :
    groups = (replicaGroups invocations slices groupCount).map
      (actReplicaGroup invocations slices) ∧
    candidates = (replicaGroups invocations slices groupCount).flatMap
      (actReplicaCandidates invocations slices) := by
  unfold deriveActReplicaCandidates at h
  obtain ⟨-, h⟩ := refuseIf_bind_eq_ok_iff.1 h
  obtain ⟨-, -, h⟩ := bind_eq_ok_iff.1 h
  obtain ⟨_, hgroups, h⟩ := bind_eq_ok_iff.1 h
  obtain ⟨_, hcandidates, h⟩ := bind_eq_ok_iff.1 h
  obtain ⟨rfl, rfl⟩ := Prod.mk.inj (Except.ok.inj h)
  exact ⟨(writeWithin_eq_ok_iff.1 hgroups).2, (writeWithin_eq_ok_iff.1 hcandidates).2⟩

/-- The replica derivation writes within its arrays. It counts, for each group without
ambiguous routes, the translations that match the group perfectly, and writes the matching
of an only one. -/
theorem replica_matching (hindices : (invocations.map (·.invocationIndex)).Nodup) :
    (∀ failure, deriveActReplicaCandidates invocations slices groupCount = .error failure →
      ¬failure.IsFault) ∧
    ∀ groups candidates,
      deriveActReplicaCandidates invocations slices groupCount = .ok (groups, candidates) →
      (∀ groupIndex, (∃ group ∈ groups, group.actGroupIndex = groupIndex) ↔
        groupIndex < groupCount ∧ routedMembers invocations slices groupIndex ≠ [] ∧
          unroutedMembers invocations slices groupIndex ≠ []) ∧
      (∀ candidate ∈ candidates, ∃ group ∈ groups,
        group.actGroupIndex = candidate.actGroupIndex) ∧
      ∀ group ∈ groups, hasAmbiguousRoute invocations slices group.actGroupIndex = false →
        (∃ solutions : Finset ℤ, group.translationSolutionCount = solutions.card ∧
          ∀ t, t ∈ solutions ↔ t ≠ 0 ∧ PerfectMatching
            (fun u r => replicaContractsMatch u r = some t)
            (unroutedMembers invocations slices group.actGroupIndex)
            (routedMembers invocations slices group.actGroupIndex)) ∧
        (group.translationSolutionCount = 1 → ∃ solution, ReplicaPairs
          (unroutedMembers invocations slices group.actGroupIndex)
          (routedMembers invocations slices group.actGroupIndex) solution
          (candidates.filter fun candidate => candidate.actGroupIndex = group.actGroupIndex)) ∧
        (group.translationSolutionCount ≠ 1 →
          candidates.filter (fun candidate => candidate.actGroupIndex = group.actGroupIndex) =
            []) := by
  refine ⟨deriveActReplicaCandidates_safe.not_bad, fun groups candidates h => ?_⟩
  obtain ⟨rfl, rfl⟩ := deriveActReplicaCandidates_eq_ok h
  refine ⟨fun groupIndex => ?_, fun candidate hcandidate => ?_, fun group hgroup hambiguous => ?_⟩
  · rw [← mem_replicaGroups]
    constructor
    · rintro ⟨_, hgroup, rfl⟩
      obtain ⟨groupIndex, hmem, rfl⟩ := List.mem_map.1 hgroup
      exact hmem
    · exact fun hmem => ⟨_, List.mem_map_of_mem hmem, rfl⟩
  · obtain ⟨groupIndex, hmem, hreplica⟩ := List.mem_flatMap.1 hcandidate
    exact ⟨_, List.mem_map_of_mem hmem, (actGroupIndex_of_replica hreplica).symm⟩
  · obtain ⟨groupIndex, hmem, rfl⟩ := List.mem_map.1 hgroup
    obtain ⟨-, -, hunrouted⟩ := mem_replicaGroups.1 hmem
    have hsolutions := nodup_replicaSolutions invocations slices groupIndex
    have hcandidates := filter_replicaCandidates hmem
    change (∃ solutions : Finset ℤ, (replicaSolutions invocations slices groupIndex).length =
      solutions.card ∧ _) ∧ _
    refine ⟨⟨(replicaSolutions invocations slices groupIndex).toFinset, ?_, fun t => ?_⟩,
      fun hone => ?_, fun hnot => ?_⟩
    · rw [List.toFinset_card_of_nodup hsolutions]
    · rw [List.mem_toFinset]
      exact mem_replicaSolutions hindices hambiguous hunrouted
    · obtain ⟨solution, hsolution⟩ := List.length_eq_one_iff.1 hone
      have hmember : solution ∈ replicaSolutions invocations slices groupIndex := by
        rw [hsolution]
        exact List.mem_cons_self
      have hperfect := (mem_replicaSolutions hindices hambiguous hunrouted).1 hmember
      refine ⟨solution, ?_⟩
      have hwritten : actReplicaCandidates invocations slices groupIndex =
          (unroutedMembers invocations slices groupIndex).filterMap
            (replicaOf invocations slices groupIndex solution) := by
        unfold actReplicaCandidates
        rw [hsolution]
      refine (hcandidates.trans hwritten) ▸ ?_
      exact replicaPairs_of_solution hindices hperfect.1 hperfect.2
    · refine hcandidates.trans ?_
      unfold actReplicaCandidates
      split
      · rename_i solution hsolution
        exact absurd (congrArg List.length hsolution) hnot
      · rfl

/-- Two invocations and their replicas on another tile. -/
def exampleReplicas : List InvocationRoutingObservation :=
  [exampleInvocation 0 0 0 100 0 0 1, exampleInvocation 0 1 0 102 2 0 1,
    exampleInvocation 0 2 1 1100 1000 0 1, exampleInvocation 0 3 1 1102 1002 0 1]

/-- The slices of the two invocations that are routed. -/
def exampleReplicaSlices : List ActOutputSliceCandidateObservation :=
  exampleReplicas.flatMap (outputSlicesOf [exampleRoute 0 4])

theorem replica_matching_example : ∃ solution, ReplicaPairs
    (unroutedMembers exampleReplicas exampleReplicaSlices 0)
    (routedMembers exampleReplicas exampleReplicaSlices 0) solution
    [⟨0, 2, 0, 1, 0, 1, 0, 2, 1000⟩, ⟨0, 3, 1, 1, 0, 1, 2, 2, 1000⟩] := by
  have hderived : deriveActReplicaCandidates exampleReplicas exampleReplicaSlices 1 =
      .ok ([⟨0, 2, 2, 1, 1000⟩],
        [⟨0, 2, 0, 1, 0, 1, 0, 2, 1000⟩, ⟨0, 3, 1, 1, 0, 1, 2, 2, 1000⟩]) := by
    decide +kernel
  exact ((((replica_matching (by decide)).2 _ _ hderived).2.2 _
    List.mem_cons_self (by decide +kernel)).2.1 rfl)

end Matchings

end Npunlock
