import Npunlock.ActDpuCover
import Npunlock.DmaFanin

/-!
# Tile covers

`npunlock_derive_dpu_act_input_observations` compares the inputs of a group with the DPU
outputs of the same tile, and `npunlock_derive_act_dma_dpu_input_observations` the DPU inputs
of the tiles with the destination of a fan-in. `tile_covers_sound` : on an exact cover the
members of the group have one tile each, and every member has one endpoint of a DPU invariant
of its tile, at the place that the translation of the tile gives.
-/

namespace Npunlock

/-! ## Tiles of a group -/

/-- An endpoint of a DPU invariant. -/
abbrev DpuEndpoint := DpuInvariantObservation × DpuCmxAddressObservation

/-- The members of a group have one tile each, and an endpoint of an invariant of the tile. -/
structure TileAssignment (members : List InvocationRoutingObservation) (tileCount : ℕ)
    (pairs : List (InvocationRoutingObservation × DpuEndpoint)) : Prop where
  members_eq : (pairs.map (·.1)).Perm members
  count_eq : members.length = tileCount
  tiles_eq : pairs.map (·.1.tileCandidateRaw) = List.range tileCount
  clusters_eq : ∀ pair ∈ pairs, pair.2.1.clusterRaw = pair.1.tileCandidateRaw

section Assignment

variable {members : List InvocationRoutingObservation} {tileCount : ℕ}
  {pairs : List (InvocationRoutingObservation × DpuEndpoint)}

/-- As many members as tiles, with one pair for every tile. -/
theorem tileAssignment_of {f : ℕ → Option (InvocationRoutingObservation × DpuEndpoint)}
    (hcount : members.length = tileCount)
    (h : ∀ tile ∈ List.range tileCount, ∃ pair, f tile = some pair)
    (hpair : ∀ tile pair, f tile = some pair → pair.1 ∈ members ∧
      pair.1.tileCandidateRaw = tile ∧ pair.2.1.clusterRaw = pair.1.tileCandidateRaw) :
    TileAssignment members tileCount ((List.range tileCount).filterMap f) := by
  have hpairs := forall₂_filterMap h
  have htiles : ((List.range tileCount).filterMap f).map (·.1.tileCandidateRaw) =
      List.range tileCount := by
    rw [← List.forall₂_eq_eq_eq, List.forall₂_map_left_iff]
    exact hpairs.flip.imp fun pair tile heq => (hpair tile pair heq).2.1
  have hmem : ∀ pair ∈ (List.range tileCount).filterMap f, ∃ tile, f tile = some pair := by
    intro pair hmem
    obtain ⟨tile, -, heq⟩ := List.mem_filterMap.1 hmem
    exact ⟨tile, heq⟩
  refine ⟨?_, hcount, htiles, fun pair hp => ?_⟩
  · refine perm_of_nodup_map (f := InvocationRoutingObservation.tileCandidateRaw) ?_ ?_ ?_
    · rw [List.map_map]
      change (((List.range tileCount).filterMap f).map (·.1.tileCandidateRaw)).Nodup
      rw [htiles]
      exact List.nodup_range
    · intro invocation hinvocation
      obtain ⟨pair, hp, rfl⟩ := List.mem_map.1 hinvocation
      obtain ⟨tile, heq⟩ := hmem pair hp
      exact (hpair tile pair heq).1
    · rw [List.length_map, ← hpairs.length_eq, List.length_range, hcount]
  · obtain ⟨tile, heq⟩ := hmem pair hp
    exact (hpair tile pair heq).2.2

/-- Different members have different invariants. -/
theorem TileAssignment.invariants_ne (h : TileAssignment members tileCount pairs) :
    (pairs.map (·.2.1)).Nodup := by
  refine List.Nodup.of_map DpuInvariantObservation.clusterRaw ?_
  have hclusters : (pairs.map (·.2.1)).map (·.clusterRaw) = List.range tileCount := by
    rw [List.map_map, ← h.tiles_eq]
    exact List.map_congr_left h.clusters_eq
  exact hclusters ▸ List.nodup_range

end Assignment

/-! ## DPU outputs into ACT inputs -/

/-- `npunlock_dpu_act_input_candidate_observation`. -/
structure DpuActInputCandidateObservation where
  consumerGroupIndex : ℕ
  consumerInvocationIndex : ℕ := 0
  consumerTensorRecordIndex : ℕ
  tileCandidateRaw : ℕ
  dpuSectionIndex : ℕ := 0
  dpuInvariantIndex : ℕ := 0
  dpuClusterRaw : ℕ := 0
  dpuFieldMaskRaw : ℕ := 0
  dpuCandidateCount : ℕ := 0
  dataSymbolRaw : ℕ := 0
  dpuBaseAddendRaw : ℤ := 0
  tileTranslationCandidate : ℤ := 0
  translatedDestinationAddendRaw : ℤ := 0
  actInputAddendRaw : ℤ := 0
  spanBytes : ℕ := 0
  barrierIntersectionRaw : ℕ := 0
  deriving DecidableEq

/-- `npunlock_dpu_act_input_cover_observation`. -/
structure DpuActInputCoverObservation where
  consumerGroupIndex : ℕ
  consumerTensorRecordIndex : ℕ
  tileCountExpected : ℕ
  invocationCount : ℕ
  translatedTileCount : ℕ
  matchedDpuOutputCount : ℕ
  unresolvedFlags : ℕ
  exactCover : Bool
  deriving DecidableEq

/-- `NPUNLOCK_DPU_ACT_INPUT_TILE_SET_UNRESOLVED`. -/
def dpuActInputTileSetUnresolved : ℕ := 1

/-- `NPUNLOCK_DPU_ACT_INPUT_AMBIGUOUS`. -/
def dpuActInputAmbiguous : ℕ := 2

/-- `NPUNLOCK_DPU_ACT_OUTPUT_REUSED`. -/
def dpuActOutputReused : ℕ := 4

/-- What the loop of `dpu_act_input_match_count` compares : the output at an address is the
input of an invocation, with the addend of tile 0. -/
def dpuActInputMatches (invocation : InvocationRoutingObservation) (tensorIndex : ℕ)
    (baseAddend : ℤ) (endpoint : DpuEndpoint) : Bool :=
  endpoint.1.clusterRaw = invocation.tileCandidateRaw ∧
    endpoint.1.outputElementCount = (invocation.contract tensorIndex).elementCount ∧
    endpoint.1.outputSpanBytes = (invocation.contract tensorIndex).spanBytes ∧
    endpoint.1.postMaskRaw &&& invocation.waitMaskRaw ≠ 0 ∧
    endpoint.2.dataSymbolRaw = (invocation.routing tensorIndex).dataSymbol ∧
    endpoint.2.dataAddendRaw = baseAddend

/-- What a candidate is reused by : the group, the tensor and the invariant. -/
def DpuActInputCandidateObservation.output (candidate : DpuActInputCandidateObservation) :
    ℕ × ℕ × ℕ × ℕ :=
  (candidate.consumerGroupIndex, candidate.consumerTensorRecordIndex, candidate.dpuSectionIndex,
    candidate.dpuInvariantIndex)

section DpuAct

variable (invocations : List InvocationRoutingObservation)
  (dpuInvariants : List DpuInvariantObservation)

/-- `find_group_tile_invocation`, where it counts one match. -/
def groupTileInvocation (groupIndex tileIndex : ℕ) : Option InvocationRoutingObservation :=
  match invocations.filter fun invocation =>
    invocation.groupIndex = groupIndex ∧ invocation.tileCandidateRaw = tileIndex with
  | [invocation] => some invocation
  | _ => none

/-- `base_addend` of `dpu_act_input_match_count`, if it is set. -/
def dpuActBaseAddend (invocation : InvocationRoutingObservation) (tensorIndex : ℕ)
    (translation : ℤ) : Option ℤ :=
  if (invocation.routing tensorIndex).dataAddend < 0 then none
  else checkedSubtractI64 (invocation.routing tensorIndex).dataAddend translation

/-- The outputs that `dpu_act_input_match_count` counts. -/
def dpuActInputs (invocation : InvocationRoutingObservation) (tensorIndex : ℕ)
    (translation : ℤ) : List DpuEndpoint :=
  match dpuActBaseAddend invocation tensorIndex translation with
  | none => []
  | some baseAddend => (dpuEndpoints dpuInvariants .dpuToAct).filter
      (dpuActInputMatches invocation tensorIndex baseAddend)

/-- The invocation of a tile, with its translation from the one of tile 0. -/
def tileTranslation (reference : InvocationRoutingObservation) (groupIndex tileIndex : ℕ) :
    Option (InvocationRoutingObservation × ℤ) := do
  let invocation ← groupTileInvocation invocations groupIndex tileIndex
  if tileIndex = 0 then some (invocation, 0)
  else (replicaContractsMatch invocation reference).map (invocation, ·)

/-- The record of a tile. -/
def dpuActCandidate (reference : InvocationRoutingObservation)
    (groupIndex tensorIndex tileIndex : ℕ) : DpuActInputCandidateObservation :=
  let empty : DpuActInputCandidateObservation :=
    { consumerGroupIndex := groupIndex
      consumerTensorRecordIndex := tensorIndex
      tileCandidateRaw := tileIndex }
  match tileTranslation invocations reference groupIndex tileIndex with
  | none => empty
  | some (invocation, translation) =>
    let outputs := dpuActInputs dpuInvariants invocation tensorIndex translation
    let candidate :=
      { empty with
        consumerInvocationIndex := invocation.invocationIndex
        tileTranslationCandidate := translation
        actInputAddendRaw := (invocation.routing tensorIndex).dataAddend
        translatedDestinationAddendRaw := (invocation.routing tensorIndex).dataAddend
        spanBytes := (invocation.contract tensorIndex).spanBytes
        dpuCandidateCount := outputs.length
        dpuBaseAddendRaw := (dpuActBaseAddend invocation tensorIndex translation).getD 0 }
    match outputs with
    | [(dpu, address)] =>
      { candidate with
        dpuSectionIndex := dpu.sectionIndex
        dpuInvariantIndex := dpu.invariantIndex
        dpuClusterRaw := dpu.clusterRaw
        dataSymbolRaw := address.dataSymbolRaw
        dpuFieldMaskRaw := dpuAddressFieldMask dpu.outputs 0 address
        barrierIntersectionRaw := dpu.postMaskRaw &&& invocation.waitMaskRaw }
    | _ => candidate

/-- The invocation and the output of a tile, if there is one of each. -/
def dpuActPair (reference : InvocationRoutingObservation)
    (groupIndex tensorIndex tileIndex : ℕ) :
    Option (InvocationRoutingObservation × DpuEndpoint) := do
  let (invocation, translation) ← tileTranslation invocations reference groupIndex tileIndex
  match dpuActInputs dpuInvariants invocation tensorIndex translation with
  | [endpoint] => some (invocation, endpoint)
  | _ => none

/-- The inputs with an output for tile 0 : the invocation of tile 0, the group and the
tensor. -/
def dpuActKeys (groupCount : ℕ) : List (InvocationRoutingObservation × ℕ × ℕ) :=
  (List.range groupCount).flatMap fun groupIndex =>
    match groupTileInvocation invocations groupIndex 0 with
    | none => []
    | some reference => ((List.range (reference.tensorCount - 1)).filter fun tensorIndex =>
        (dpuActInputs dpuInvariants reference tensorIndex 0).length ≠ 0).map
          (reference, groupIndex, ·)

/-- The records of an input. -/
def dpuActCandidates (tileCount : ℕ) (key : InvocationRoutingObservation × ℕ × ℕ) :
    List DpuActInputCandidateObservation :=
  (List.range tileCount).map (dpuActCandidate invocations dpuInvariants key.1 key.2.1 key.2.2)

/-- The observation of an input. -/
def dpuActCover (tileCount : ℕ) (earlier : List DpuActInputCandidateObservation)
    (key : InvocationRoutingObservation × ℕ × ℕ) : DpuActInputCoverObservation :=
  let (reference, groupIndex, tensorIndex) := key
  let members := groupMembers invocations groupIndex
  let translated := (List.range tileCount).filter fun tileIndex =>
    (tileTranslation invocations reference groupIndex tileIndex).isSome
  let matched := (List.range tileCount).filter fun tileIndex =>
    (dpuActPair invocations dpuInvariants reference groupIndex tensorIndex tileIndex).isSome
  let counted := (dpuActCandidates invocations dpuInvariants tileCount key).filter fun candidate =>
    candidate.dpuCandidateCount = 1
  let flags := flagIf (members.length ≠ tileCount) dpuActInputTileSetUnresolved |||
    flagIf (∃ tileIndex ∈ List.range tileCount, tileTranslation invocations reference groupIndex
      tileIndex = none) dpuActInputTileSetUnresolved |||
    flagIf (∃ tileIndex ∈ translated, dpuActPair invocations dpuInvariants reference groupIndex
      tensorIndex tileIndex = none) dpuActInputAmbiguous |||
    flagIf ((firstsFrom (·.output) (earlier.filter fun candidate =>
      candidate.dpuCandidateCount = 1) counted).length ≠ counted.length) dpuActOutputReused
  { consumerGroupIndex := groupIndex
    consumerTensorRecordIndex := tensorIndex
    tileCountExpected := tileCount
    invocationCount := members.length
    translatedTileCount := translated.length
    matchedDpuOutputCount := matched.length
    unresolvedFlags := flags
    exactCover := flags = 0 ∧ translated.length = tileCount ∧ matched.length = tileCount }

/-- `work_bound` of the DPU outputs. -/
def dpuActInputWorkBound (groupCount : ℕ) : Option ℕ := do
  let workBound ← checkedMulSize groupCount patchblobTargetV2MaxTensors
  let workBound ← checkedMulSize workBound invocations.length
  let workBound ← checkedMulSize workBound dpuInvariants.length
  checkedMulSize workBound dpuMaxOutputAddresses

/-- `npunlock_derive_dpu_act_input_observations`. -/
def deriveDpuActInputObservations (groupCount tileCount : ℕ) :
    Result (List DpuActInputCandidateObservation × List DpuActInputCoverObservation) :=
  if tileCount = 0 ∨ invocations.length = 0 ∨ dpuInvariants.length = 0 then .ok ([], [])
  else do
    refuseIf (uint32Max < groupCount ∨
        ¬withinWorkBound (dpuActInputWorkBound invocations dpuInvariants groupCount))
      (unsupported "DPU/ACT input analysis exceeds its work bound")
    let keys := dpuActKeys invocations dpuInvariants groupCount
    let candidates := keys.flatMap (dpuActCandidates invocations dpuInvariants tileCount)
    refuseIf (∃ candidate ∈ candidates, uint32Max < candidate.dpuCandidateCount)
      (unsupported "DPU/ACT input ambiguity exceeds the supported range")
    let candidates ← writeWithin (keys.length * tileCount) candidates
    let covers ← writeWithin keys.length
      (writeFrom (dpuActCandidates invocations dpuInvariants tileCount)
        (dpuActCover invocations dpuInvariants tileCount) [] keys)
    .ok (candidates, covers)

end DpuAct

/-! ## Exact covers of ACT inputs -/

section DpuActExact

variable {invocations : List InvocationRoutingObservation}
  {dpuInvariants : List DpuInvariantObservation} {reference : InvocationRoutingObservation}
  {groupIndex tensorIndex tileIndex tileCount : ℕ}

/-- Every member of a group has one DPU output at its input, and the reference is that of
tile 0. -/
structure DpuActInputCover (invocations : List InvocationRoutingObservation)
    (dpuInvariants : List DpuInvariantObservation)
    (candidates : List DpuActInputCandidateObservation) (cover : DpuActInputCoverObservation)
    (reference : InvocationRoutingObservation)
    (pairs : List (InvocationRoutingObservation × DpuEndpoint)) : Prop where
  assignment : TileAssignment (groupMembers invocations cover.consumerGroupIndex)
    cover.tileCountExpected pairs
  reference_mem : reference ∈ groupMembers invocations cover.consumerGroupIndex ∧
    reference.tileCandidateRaw = 0
  translated : ∀ pair ∈ pairs, pair.1 = reference ∨ ∃ translation,
    replicaContractsMatch pair.1 reference = some translation ∧
      (pair.1.routing cover.consumerTensorRecordIndex).dataAddend - translation =
        (reference.routing cover.consumerTensorRecordIndex).dataAddend
  one_output : ∀ pair ∈ pairs, (dpuEndpoints dpuInvariants .dpuToAct).filter
    (dpuActInputMatches pair.1 cover.consumerTensorRecordIndex
      (reference.routing cover.consumerTensorRecordIndex).dataAddend) = [pair.2]
  invariants_ne : (pairs.map fun pair => (pair.2.1.sectionIndex, pair.2.1.invariantIndex)).Nodup
  reported : ∀ pair ∈ pairs, ∃ candidate ∈ candidates,
    candidate.consumerGroupIndex = cover.consumerGroupIndex ∧
      candidate.consumerTensorRecordIndex = cover.consumerTensorRecordIndex ∧
      candidate.consumerInvocationIndex = pair.1.invocationIndex ∧
      candidate.dpuSectionIndex = pair.2.1.sectionIndex ∧
      candidate.dpuInvariantIndex = pair.2.1.invariantIndex

theorem groupTileInvocation_eq_some {invocation : InvocationRoutingObservation}
    (h : groupTileInvocation invocations groupIndex tileIndex = some invocation) :
    invocation ∈ groupMembers invocations groupIndex ∧
      invocation.tileCandidateRaw = tileIndex := by
  unfold groupTileInvocation at h
  split at h
  · rename_i only heq
    obtain rfl := Option.some.inj h
    obtain ⟨hmem, hkey, -⟩ := filter_eq_singleton heq
    obtain ⟨hgroup, htile⟩ := of_decide_eq_true hkey
    exact ⟨mem_groupMembers.2 ⟨hmem, hgroup⟩, htile⟩
  · cases h

/-- The translation of a tile is that of its input, from the one of tile 0. -/
theorem of_tileTranslation {invocation : InvocationRoutingObservation} {translation : ℤ}
    (hreference : groupTileInvocation invocations groupIndex 0 = some reference)
    (h : tileTranslation invocations reference groupIndex tileIndex =
      some (invocation, translation)) :
    groupTileInvocation invocations groupIndex tileIndex = some invocation ∧
      (invocation = reference ∧ translation = 0 ∨
        replicaContractsMatch invocation reference = some translation) := by
  unfold tileTranslation at h
  obtain ⟨found, hfound, h⟩ := Option.bind_eq_some_iff.1 h
  split_ifs at h with hzero
  · obtain ⟨rfl, rfl⟩ := Prod.mk.inj (Option.some.inj h)
    rw [hzero] at hfound ⊢
    exact ⟨hfound, Or.inl ⟨Option.some.inj (hfound.symm.trans hreference), rfl⟩⟩
  · obtain ⟨other, hother, heq⟩ := Option.map_eq_some_iff.1 h
    obtain ⟨rfl, rfl⟩ := Prod.mk.inj heq
    exact ⟨hfound, Or.inr hother⟩

theorem dpuActInputs_eq_singleton {invocation : InvocationRoutingObservation} {translation : ℤ}
    {endpoint : DpuEndpoint}
    (h : dpuActInputs dpuInvariants invocation tensorIndex translation = [endpoint]) :
    (dpuEndpoints dpuInvariants .dpuToAct).filter (dpuActInputMatches invocation tensorIndex
      ((invocation.routing tensorIndex).dataAddend - translation)) = [endpoint] := by
  unfold dpuActInputs at h
  split at h
  · cases h
  · rename_i baseAddend hbase
    unfold dpuActBaseAddend at hbase
    split_ifs at hbase
    rwa [checkedSubtractI64_eq_some hbase] at h

/-- The pair of a tile, with the translation of the tile. -/
theorem dpuActPair_eq_some {pair : InvocationRoutingObservation × DpuEndpoint}
    (h : dpuActPair invocations dpuInvariants reference groupIndex tensorIndex tileIndex =
      some pair) :
    ∃ translation, tileTranslation invocations reference groupIndex tileIndex =
        some (pair.1, translation) ∧
      dpuActInputs dpuInvariants pair.1 tensorIndex translation = [pair.2] := by
  unfold dpuActPair at h
  obtain ⟨⟨invocation, translation⟩, htile, h⟩ := Option.bind_eq_some_iff.1 h
  dsimp only at h
  split at h
  · rename_i endpoint houtputs
    obtain rfl := Option.some.inj h
    exact ⟨translation, htile, houtputs⟩
  · cases h

/-- The record of a tile with a pair names its invocation and its invariant. -/
theorem dpuActCandidate_of_pair {pair : InvocationRoutingObservation × DpuEndpoint}
    (h : dpuActPair invocations dpuInvariants reference groupIndex tensorIndex tileIndex =
      some pair) :
    ∃ candidate, dpuActCandidate invocations dpuInvariants reference groupIndex tensorIndex
        tileIndex = candidate ∧ candidate.dpuCandidateCount = 1 ∧
      candidate.consumerInvocationIndex = pair.1.invocationIndex ∧
      candidate.output =
        (groupIndex, tensorIndex, pair.2.1.sectionIndex, pair.2.1.invariantIndex) := by
  obtain ⟨translation, htile, houtputs⟩ := dpuActPair_eq_some h
  refine ⟨_, rfl, ?_⟩
  unfold dpuActCandidate
  rw [htile]
  dsimp only
  rw [houtputs]
  exact ⟨rfl, rfl, rfl⟩

/-- On an exact observation every tile has a pair, and the pairs have different invariants. -/
theorem of_dpuActCover_exact {earlier : List DpuActInputCandidateObservation}
    (h : (dpuActCover invocations dpuInvariants tileCount earlier
      (reference, groupIndex, tensorIndex)).exactCover = true) :
    (groupMembers invocations groupIndex).length = tileCount ∧
    (∀ tileIndex ∈ List.range tileCount, ∃ pair, dpuActPair invocations dpuInvariants reference
      groupIndex tensorIndex tileIndex = some pair) ∧
    ((dpuActCandidates invocations dpuInvariants tileCount
      (reference, groupIndex, tensorIndex)).map (·.output)).Nodup := by
  obtain ⟨hflags, -, hmatched⟩ := of_decide_eq_true h
  simp only [or_eq_zero_iff,
    flagIf_eq_zero_iff (show dpuActInputTileSetUnresolved ≠ 0 by decide),
    flagIf_eq_zero_iff (show dpuActOutputReused ≠ 0 by decide)] at hflags
  obtain ⟨⟨⟨hcount, -⟩, -⟩, hreused⟩ := hflags
  have hpairs : ∀ tileIndex ∈ List.range tileCount, ∃ pair, dpuActPair invocations dpuInvariants
      reference groupIndex tensorIndex tileIndex = some pair := by
    have hall := List.length_filter_eq_length_iff.1 (hmatched.trans List.length_range.symm)
    exact fun tile htile => Option.isSome_iff_exists.1 (hall tile htile)
  refine ⟨not_not.1 hcount, hpairs, ?_⟩
  have hall : (dpuActCandidates invocations dpuInvariants tileCount
      (reference, groupIndex, tensorIndex)).filter (fun candidate =>
        candidate.dpuCandidateCount = 1) = dpuActCandidates invocations dpuInvariants tileCount
          (reference, groupIndex, tensorIndex) := by
    rw [List.filter_eq_self]
    intro candidate hcandidate
    obtain ⟨tile, htile, rfl⟩ := List.mem_map.1 hcandidate
    obtain ⟨pair, hpair⟩ := hpairs tile htile
    obtain ⟨_, rfl, hone, -⟩ := dpuActCandidate_of_pair hpair
    exact decide_eq_true hone
  rw [hall] at hreused
  exact nodup_of_length_firstsFrom (not_not.1 hreused)

/-- An exact observation is sound. -/
theorem dpuActInputCover_of_exact {earlier candidates : List DpuActInputCandidateObservation}
    (hreference : groupTileInvocation invocations groupIndex 0 = some reference)
    (htensor : tensorIndex < reference.tensorCount - 1)
    (hcandidates : ∀ candidate ∈ dpuActCandidates invocations dpuInvariants tileCount
      (reference, groupIndex, tensorIndex), candidate ∈ candidates)
    (h : (dpuActCover invocations dpuInvariants tileCount earlier
      (reference, groupIndex, tensorIndex)).exactCover = true) :
    DpuActInputCover invocations dpuInvariants candidates
      (dpuActCover invocations dpuInvariants tileCount earlier (reference, groupIndex, tensorIndex))
      reference ((List.range tileCount).filterMap
        (dpuActPair invocations dpuInvariants reference groupIndex tensorIndex)) := by
  obtain ⟨hcount, hpairs, hnodup⟩ := of_dpuActCover_exact h
  have hpair : ∀ pair ∈ (List.range tileCount).filterMap
      (dpuActPair invocations dpuInvariants reference groupIndex tensorIndex),
      ∃ tile ∈ List.range tileCount, dpuActPair invocations dpuInvariants reference groupIndex
        tensorIndex tile = some pair :=
    fun pair hmem => List.mem_filterMap.1 hmem
  have htranslation : ∀ tile pair, dpuActPair invocations dpuInvariants reference groupIndex
      tensorIndex tile = some pair → ∃ translation,
        (pair.1 = reference ∧ translation = 0 ∨
          replicaContractsMatch pair.1 reference = some translation) ∧
        (pair.1.routing tensorIndex).dataAddend - translation =
          (reference.routing tensorIndex).dataAddend ∧
        dpuActInputs dpuInvariants pair.1 tensorIndex translation = [pair.2] := by
    intro tile pair heq
    obtain ⟨translation, htile, houtputs⟩ := dpuActPair_eq_some heq
    obtain ⟨-, hmatch⟩ := of_tileTranslation hreference htile
    refine ⟨translation, hmatch, ?_, houtputs⟩
    rcases hmatch with ⟨hsame, rfl⟩ | hmatch
    · rw [hsame, sub_zero]
    · have hreplica := replicaMatch_of hmatch
      have hcounts := hreplica.tensorCount_eq
      have haddend := hreplica.addend_eq tensorIndex (by omega)
      omega
  have houtput : ∀ tile pair, dpuActPair invocations dpuInvariants reference groupIndex
      tensorIndex tile = some pair → (dpuEndpoints dpuInvariants .dpuToAct).filter
        (dpuActInputMatches pair.1 tensorIndex (reference.routing tensorIndex).dataAddend) =
          [pair.2] := by
    intro tile pair heq
    obtain ⟨translation, -, haddend, houtputs⟩ := htranslation tile pair heq
    rw [← haddend]
    exact dpuActInputs_eq_singleton houtputs
  constructor
  case assignment =>
    refine tileAssignment_of hcount hpairs fun tile pair heq => ?_
    obtain ⟨translation, htile, -⟩ := dpuActPair_eq_some heq
    obtain ⟨hmem, htile⟩ := groupTileInvocation_eq_some (of_tileTranslation hreference htile).1
    obtain ⟨-, hmatch, -⟩ := filter_eq_singleton (houtput tile pair heq)
    exact ⟨hmem, htile, (of_decide_eq_true hmatch).1⟩
  case reference_mem => exact groupTileInvocation_eq_some hreference
  case translated =>
    intro pair hmem
    obtain ⟨tile, -, heq⟩ := hpair pair hmem
    obtain ⟨translation, ⟨hsame, -⟩ | hmatch, haddend, -⟩ := htranslation tile pair heq
    · exact Or.inl hsame
    · exact Or.inr ⟨translation, hmatch, haddend⟩
  case one_output =>
    intro pair hmem
    obtain ⟨tile, -, heq⟩ := hpair pair hmem
    exact houtput tile pair heq
  case invariants_ne =>
    refine List.Nodup.of_map (fun key : ℕ × ℕ => (groupIndex, tensorIndex, key)) ?_
    convert hnodup using 1
    unfold dpuActCandidates
    rw [List.map_map, List.map_map, ← List.forall₂_eq_eq_eq, List.forall₂_map_left_iff,
      List.forall₂_map_right_iff]
    refine (forall₂_filterMap hpairs).flip.imp fun pair tile heq => ?_
    obtain ⟨_, rfl, -, -, houtput⟩ := dpuActCandidate_of_pair heq
    exact houtput.symm
  case reported =>
    intro pair hmem
    obtain ⟨tile, htile, heq⟩ := hpair pair hmem
    obtain ⟨_, rfl, -, hinvocation, houtput⟩ := dpuActCandidate_of_pair heq
    refine ⟨_, hcandidates _ (List.mem_map_of_mem htile), ?_⟩
    exact ⟨congrArg Prod.fst houtput, congrArg (·.2.1) houtput, hinvocation,
      congrArg (·.2.2.1) houtput, congrArg (·.2.2.2) houtput⟩

/-- The keys of the observations name the member of tile 0 and one of its inputs. -/
theorem mem_dpuActKeys {groupCount : ℕ} {key : InvocationRoutingObservation × ℕ × ℕ}
    (h : key ∈ dpuActKeys invocations dpuInvariants groupCount) :
    groupTileInvocation invocations key.2.1 0 = some key.1 ∧
      key.2.2 < key.1.tensorCount - 1 := by
  obtain ⟨groupIndex, -, hkey⟩ := List.mem_flatMap.1 h
  split at hkey
  · cases hkey
  · rename_i reference hreference
    obtain ⟨tensorIndex, htensor, rfl⟩ := List.mem_map.1 hkey
    exact ⟨hreference, List.mem_range.1 (List.mem_of_mem_filter htensor)⟩

/-- Exact observations of derived DPU outputs are sound. -/
theorem dpuActInputCovers_sound {groupCount : ℕ}
    {candidates : List DpuActInputCandidateObservation}
    {covers : List DpuActInputCoverObservation}
    (h : deriveDpuActInputObservations invocations dpuInvariants groupCount tileCount =
      .ok (candidates, covers)) :
    ∀ cover ∈ covers, cover.exactCover = true → cover.tileCountExpected = tileCount ∧
      ∃ reference pairs, DpuActInputCover invocations dpuInvariants candidates cover reference
        pairs := by
  unfold deriveDpuActInputObservations at h
  intro cover hcover hexact
  split_ifs at h
  · obtain ⟨-, rfl⟩ := Prod.mk.inj (Except.ok.inj h)
    cases hcover
  · obtain ⟨-, h⟩ := refuseIf_bind_eq_ok_iff.1 h
    obtain ⟨-, h⟩ := refuseIf_bind_eq_ok_iff.1 h
    obtain ⟨_, hcandidates, h⟩ := bind_eq_ok_iff.1 h
    obtain ⟨-, rfl⟩ := writeWithin_eq_ok_iff.1 hcandidates
    obtain ⟨_, hcovers, h⟩ := bind_eq_ok_iff.1 h
    obtain ⟨-, rfl⟩ := writeWithin_eq_ok_iff.1 hcovers
    obtain ⟨rfl, rfl⟩ := Prod.mk.inj (Except.ok.inj h)
    obtain ⟨key, hkey, earlier, rfl⟩ := exists_of_mem_writeFrom hcover
    obtain ⟨hreference, htensor⟩ := mem_dpuActKeys hkey
    refine ⟨rfl, key.1, _, dpuActInputCover_of_exact hreference htensor ?_ hexact⟩
    exact fun candidate hcandidate => List.mem_flatMap.2 ⟨key, hkey, hcandidate⟩

end DpuActExact

/-! ## Fan-ins into DPU inputs -/

/-- `npunlock_act_dma_dpu_input_candidate_observation`. -/
structure ActDmaDpuInputCandidateObservation where
  actGroupIndex : ℕ
  tileCandidateRaw : ℕ
  actInvocationIndex : ℕ
  dpuSectionIndex : ℕ := 0
  dpuInvariantIndex : ℕ := 0
  dpuFieldMaskRaw : ℕ := 0
  dpuCandidateCount : ℕ
  cmxSymbolRaw : ℕ
  faninDestinationAddendRaw : ℤ
  tileTranslationCandidate : ℤ
  translatedDestinationAddendRaw : ℤ
  dpuInputAddendRaw : ℤ := 0
  spanBytes : ℕ
  barrierIntersectionRaw : ℕ := 0
  deriving DecidableEq

/-- `npunlock_act_dma_dpu_input_cover_observation`. -/
structure ActDmaDpuInputCoverObservation where
  actGroupIndex : ℕ
  tileCountExpected : ℕ
  invocationCount : ℕ
  translatedTileCount : ℕ := 0
  matchedDpuInputCount : ℕ := 0
  unresolvedFlags : ℕ
  exactCover : Bool := false
  deriving DecidableEq

/-- `NPUNLOCK_ACT_DMA_DPU_FANIN_UNRESOLVED`. -/
def actDmaDpuFaninUnresolved : ℕ := 1

/-- `NPUNLOCK_ACT_DMA_DPU_TILE_SET_UNRESOLVED`. -/
def actDmaDpuTileSetUnresolved : ℕ := 2

/-- `NPUNLOCK_ACT_DMA_DPU_INPUT_AMBIGUOUS`. -/
def actDmaDpuInputAmbiguous : ℕ := 4

/-- `NPUNLOCK_ACT_DMA_DPU_INPUT_REUSED`. -/
def actDmaDpuInputReused : ℕ := 8

/-- What a candidate is reused by : the group, the invariant and the input. -/
def ActDmaDpuInputCandidateObservation.input (candidate : ActDmaDpuInputCandidateObservation) :
    ℕ × ℕ × ℕ × ℤ :=
  (candidate.actGroupIndex, candidate.dpuSectionIndex, candidate.dpuInvariantIndex,
    candidate.dpuInputAddendRaw)

/-- What the loop over the invariants compares : the input at an address is the destination of
a fan-in, for a tile. -/
def actDmaDpuInputMatches (fanin : ActDmaFaninObservation) (tileIndex : ℕ) (destination : ℤ)
    (endpoint : DpuEndpoint) : Bool :=
  endpoint.1.clusterRaw = tileIndex ∧ endpoint.1.inputSpanBytes = fanin.spanBytes ∧
    fanin.faninPostMaskRaw &&& endpoint.1.waitMaskRaw ≠ 0 ∧
    endpoint.2.dataSymbolRaw = fanin.cmxDestinationSymbolRaw ∧
    endpoint.2.dataAddendRaw = destination

section DmaDpu

variable (invocations : List InvocationRoutingObservation)
  (sources : List ActDmaSourceCandidateObservation)
  (dpuInvariants : List DpuInvariantObservation) (tileCount : ℕ)

/-- A member with a tile and one spill task, with its candidate. -/
def tileSource (groupIndex : ℕ) (invocation : InvocationRoutingObservation) :
    Option (InvocationRoutingObservation × ActDmaSourceCandidateObservation) :=
  if invocation.tileCandidateRaw < tileCount then
    (faninSource sources groupIndex invocation).map (invocation, ·)
  else none

/-- The members with a tile and one spill task. -/
def tileSources (groupIndex : ℕ) :
    List (InvocationRoutingObservation × ActDmaSourceCandidateObservation) :=
  (groupMembers invocations groupIndex).filterMap (tileSource sources tileCount groupIndex)

/-- `tile_invocations` and `tile_sources` : the first member of a tile. -/
def tileSlot (groupIndex tileIndex : ℕ) :
    Option (InvocationRoutingObservation × ActDmaSourceCandidateObservation) :=
  (tileSources invocations sources tileCount groupIndex).find? fun member =>
    member.1.tileCandidateRaw = tileIndex

/-- The invocation of a tile, with its translation from the one of tile 0 and the destination
that the translation gives. -/
def translatedDestination (fanin : ActDmaFaninObservation) (tileIndex : ℕ) :
    Option (InvocationRoutingObservation × ℤ × ℤ) := do
  let (invocation, source) ← tileSlot invocations sources tileCount fanin.actGroupIndex tileIndex
  let (_, reference) ← tileSlot invocations sources tileCount fanin.actGroupIndex 0
  if source.actDataAddendRaw < 0 ∨ reference.actDataAddendRaw < 0 ∨
      fanin.cmxDestinationAddendRaw < 0 then none
  else do
    let translation ← checkedSubtractI64 source.actDataAddendRaw reference.actDataAddendRaw
    let destination ← checkedAddI64 fanin.cmxDestinationAddendRaw translation
    if destination < 0 then none else some (invocation, translation, destination)

/-- The inputs at the destination of a tile. Their number is within the work bound. -/
def actDmaDpuInputs (fanin : ActDmaFaninObservation) (tileIndex : ℕ) (destination : ℤ) :
    List DpuEndpoint :=
  (dpuEndpoints dpuInvariants .actToDpu).filter (actDmaDpuInputMatches fanin tileIndex destination)

/-- The record of a tile. -/
def actDmaDpuCandidate (fanin : ActDmaFaninObservation) (tileIndex : ℕ) :
    Option ActDmaDpuInputCandidateObservation := do
  let (invocation, translation, destination) ←
    translatedDestination invocations sources tileCount fanin tileIndex
  let inputs := actDmaDpuInputs dpuInvariants fanin tileIndex destination
  let candidate : ActDmaDpuInputCandidateObservation :=
    { actGroupIndex := fanin.actGroupIndex
      tileCandidateRaw := tileIndex
      actInvocationIndex := invocation.invocationIndex
      dpuCandidateCount := inputs.length
      cmxSymbolRaw := fanin.cmxDestinationSymbolRaw
      faninDestinationAddendRaw := fanin.cmxDestinationAddendRaw
      tileTranslationCandidate := translation
      translatedDestinationAddendRaw := destination
      spanBytes := fanin.spanBytes }
  some (match inputs with
    | [(dpu, address)] =>
      { candidate with
        dpuSectionIndex := dpu.sectionIndex
        dpuInvariantIndex := dpu.invariantIndex
        dpuFieldMaskRaw := dpuAddressFieldMask dpu.inputs dpu.inputAmbiguousFieldsRaw address
        dpuInputAddendRaw := address.dataAddendRaw
        barrierIntersectionRaw := fanin.faninPostMaskRaw &&& dpu.waitMaskRaw }
    | _ => candidate)

/-- The invocation and the input of a tile, if there is one of each. -/
def actDmaDpuPair (fanin : ActDmaFaninObservation) (tileIndex : ℕ) :
    Option (InvocationRoutingObservation × DpuEndpoint) := do
  let (invocation, _, destination) ←
    translatedDestination invocations sources tileCount fanin tileIndex
  match actDmaDpuInputs dpuInvariants fanin tileIndex destination with
  | [endpoint] => some (invocation, endpoint)
  | _ => none

/-- The fan-in names a group, and there are tiles. -/
def hasTileSet (groupCount : ℕ) (fanin : ActDmaFaninObservation) : Bool :=
  fanin.actGroupIndex < groupCount ∧ tileCount ≠ 0

/-- The records of a fan-in. -/
def actDmaDpuCandidates (groupCount : ℕ) (fanin : ActDmaFaninObservation) :
    List ActDmaDpuInputCandidateObservation :=
  if fanin.exactCover = true ∧ hasTileSet tileCount groupCount fanin = true then
    (List.range tileCount).filterMap
      (actDmaDpuCandidate invocations sources dpuInvariants tileCount fanin)
  else []

/-- The flags of the tiles of a fan-in. -/
def actDmaDpuFlags (groupCount : ℕ) (earlier : List ActDmaDpuInputCandidateObservation)
    (fanin : ActDmaFaninObservation) : ℕ :=
  let members := groupMembers invocations fanin.actGroupIndex
  let placed := tileSources invocations sources tileCount fanin.actGroupIndex
  let counted := (actDmaDpuCandidates invocations sources dpuInvariants tileCount groupCount
    fanin).filter fun candidate => candidate.dpuCandidateCount = 1
  flagIf (placed.length ≠ members.length) actDmaDpuTileSetUnresolved |||
    flagIf ((firsts (·.1.tileCandidateRaw) placed).length ≠ placed.length)
      actDmaDpuTileSetUnresolved |||
    flagIf (members.length ≠ tileCount ∨
      tileSlot invocations sources tileCount fanin.actGroupIndex 0 = none)
      actDmaDpuTileSetUnresolved |||
    flagIf (∃ tileIndex ∈ List.range tileCount, translatedDestination invocations sources tileCount
      fanin tileIndex = none) actDmaDpuTileSetUnresolved |||
    flagIf (∃ tileIndex ∈ List.range tileCount, translatedDestination invocations sources tileCount
      fanin tileIndex ≠ none ∧ actDmaDpuPair invocations sources dpuInvariants tileCount fanin
        tileIndex = none) actDmaDpuInputAmbiguous |||
    flagIf ((firstsFrom (·.input) (earlier.filter fun candidate =>
      candidate.dpuCandidateCount = 1) counted).length ≠ counted.length) actDmaDpuInputReused

/-- The observation of a fan-in. -/
def actDmaDpuCover (groupCount : ℕ) (earlier : List ActDmaDpuInputCandidateObservation)
    (fanin : ActDmaFaninObservation) : ActDmaDpuInputCoverObservation :=
  if fanin.exactCover = false then
    { actGroupIndex := fanin.actGroupIndex
      tileCountExpected := tileCount
      invocationCount := fanin.invocationCount
      unresolvedFlags := actDmaDpuFaninUnresolved }
  else if hasTileSet tileCount groupCount fanin = false then
    { actGroupIndex := fanin.actGroupIndex
      tileCountExpected := tileCount
      invocationCount := fanin.invocationCount
      unresolvedFlags := actDmaDpuTileSetUnresolved }
  else
    let translated := (List.range tileCount).filter fun tileIndex =>
      (translatedDestination invocations sources tileCount fanin tileIndex).isSome
    let matched := (List.range tileCount).filter fun tileIndex =>
      (actDmaDpuPair invocations sources dpuInvariants tileCount fanin tileIndex).isSome
    let flags := actDmaDpuFlags invocations sources dpuInvariants tileCount groupCount earlier fanin
    { actGroupIndex := fanin.actGroupIndex
      tileCountExpected := tileCount
      invocationCount := (groupMembers invocations fanin.actGroupIndex).length
      translatedTileCount := translated.length
      matchedDpuInputCount := matched.length
      unresolvedFlags := flags
      exactCover := flags = 0 ∧ translated.length = tileCount ∧ matched.length = tileCount }

/-- `npunlock_derive_act_dma_dpu_input_observations`. -/
def deriveActDmaDpuInputObservations (groupCount : ℕ) (fanins : List ActDmaFaninObservation) :
    Result (List ActDmaDpuInputCandidateObservation × List ActDmaDpuInputCoverObservation) :=
  if fanins.length = 0 then .ok ([], [])
  else do
    refuseIf (uint32Max < groupCount ∨ uint32Max < invocations.length ∨
        uint32Max < sources.length ∨ uint32Max < fanins.length ∨
        uint32Max < dpuInvariants.length ∨ ¬withinWorkBound ((checkedMulSize invocations.length
          dpuInvariants.length).bind (checkedMulSize · dpuMaxInputRelocations)))
      (unsupported "ACT/DMA/DPU input analysis exceeds its work bound")
    let candidates ← writeWithin (fanins.length * tileCount) (fanins.flatMap
      (actDmaDpuCandidates invocations sources dpuInvariants tileCount groupCount))
    let covers ← writeWithin fanins.length (writeFrom
      (actDmaDpuCandidates invocations sources dpuInvariants tileCount groupCount)
      (actDmaDpuCover invocations sources dpuInvariants tileCount groupCount) [] fanins)
    .ok (candidates, covers)

end DmaDpu

/-! ## Exact covers of fan-ins -/

section DmaDpuExact

variable {invocations : List InvocationRoutingObservation}
  {sources : List ActDmaSourceCandidateObservation}
  {dpuInvariants : List DpuInvariantObservation} {fanin : ActDmaFaninObservation}
  {tileCount tileIndex groupIndex groupCount : ℕ}

/-- The addend that the only candidate of a member spills. -/
def spilledAddend (sources : List ActDmaSourceCandidateObservation) (groupIndex : ℕ)
    (invocation : InvocationRoutingObservation) : ℤ :=
  match faninSource sources groupIndex invocation with
  | none => 0
  | some source => source.actDataAddendRaw

/-- Every member of the group of a fan-in has one DPU input at the destination, moved by its
translation from the reference, which is that of tile 0. -/
structure ActDmaDpuInputCover (invocations : List InvocationRoutingObservation)
    (sources : List ActDmaSourceCandidateObservation)
    (dpuInvariants : List DpuInvariantObservation)
    (candidates : List ActDmaDpuInputCandidateObservation) (fanin : ActDmaFaninObservation)
    (cover : ActDmaDpuInputCoverObservation) (reference : InvocationRoutingObservation)
    (pairs : List (InvocationRoutingObservation × DpuEndpoint)) : Prop where
  fanin_exact : fanin.exactCover = true ∧ cover.actGroupIndex = fanin.actGroupIndex
  assignment : TileAssignment (groupMembers invocations fanin.actGroupIndex)
    cover.tileCountExpected pairs
  reference_mem : reference ∈ groupMembers invocations fanin.actGroupIndex ∧
    reference.tileCandidateRaw = 0
  one_source : ∀ invocation ∈ groupMembers invocations fanin.actGroupIndex,
    ∃ source, faninSources sources fanin.actGroupIndex invocation = [source] ∧
      source.dmaCandidateCount = 1 ∧ 0 ≤ source.actDataAddendRaw ∧
      source.actDataAddendRaw = spilledAddend sources fanin.actGroupIndex invocation
  one_input : ∀ pair ∈ pairs, (dpuEndpoints dpuInvariants .actToDpu).filter
    (actDmaDpuInputMatches fanin pair.1.tileCandidateRaw (fanin.cmxDestinationAddendRaw +
      (spilledAddend sources fanin.actGroupIndex pair.1 -
        spilledAddend sources fanin.actGroupIndex reference))) = [pair.2]
  inputs_ne : (pairs.map fun pair => (pair.2.1.sectionIndex, pair.2.1.invariantIndex,
    pair.2.2.dataAddendRaw)).Nodup
  invariants_ne : (pairs.map (·.2.1)).Nodup
  reported : ∀ pair ∈ pairs, ∃ candidate ∈ candidates,
    candidate.actGroupIndex = fanin.actGroupIndex ∧
      candidate.actInvocationIndex = pair.1.invocationIndex ∧
      candidate.dpuSectionIndex = pair.2.1.sectionIndex ∧
      candidate.dpuInvariantIndex = pair.2.1.invariantIndex ∧
      candidate.dpuInputAddendRaw = pair.2.2.dataAddendRaw

theorem tileSource_eq_some {invocation : InvocationRoutingObservation}
    {member : InvocationRoutingObservation × ActDmaSourceCandidateObservation}
    (h : tileSource sources tileCount groupIndex invocation = some member) :
    member.1 = invocation ∧ faninSource sources groupIndex invocation = some member.2 := by
  unfold tileSource at h
  split_ifs at h
  obtain ⟨source, hsource, rfl⟩ := Option.map_eq_some_iff.1 h
  exact ⟨rfl, hsource⟩

theorem tileSlot_eq_some
    {member : InvocationRoutingObservation × ActDmaSourceCandidateObservation}
    (h : tileSlot invocations sources tileCount groupIndex tileIndex = some member) :
    member.1 ∈ groupMembers invocations groupIndex ∧ member.1.tileCandidateRaw = tileIndex ∧
      faninSource sources groupIndex member.1 = some member.2 := by
  unfold tileSlot at h
  obtain ⟨invocation, hmem, hmember⟩ := List.mem_filterMap.1 (List.mem_of_find?_eq_some h)
  obtain ⟨rfl, hsource⟩ := tileSource_eq_some hmember
  have htile := List.find?_some h
  exact ⟨hmem, of_decide_eq_true htile, hsource⟩

theorem spilledAddend_of_faninSource {invocation : InvocationRoutingObservation}
    {source : ActDmaSourceCandidateObservation}
    (h : faninSource sources groupIndex invocation = some source) :
    spilledAddend sources groupIndex invocation = source.actDataAddendRaw := by
  unfold spilledAddend
  rw [h]

/-- The destination of a tile is that of the fan-in, moved by the distance of the spills. -/
theorem of_translatedDestination {invocation : InvocationRoutingObservation}
    {translation destination : ℤ}
    (h : translatedDestination invocations sources tileCount fanin tileIndex =
      some (invocation, translation, destination)) :
    ∃ source member, tileSlot invocations sources tileCount fanin.actGroupIndex tileIndex =
        some (invocation, source) ∧ 0 ≤ source.actDataAddendRaw ∧
      tileSlot invocations sources tileCount fanin.actGroupIndex 0 = some member ∧
      destination = fanin.cmxDestinationAddendRaw +
        (spilledAddend sources fanin.actGroupIndex invocation -
          spilledAddend sources fanin.actGroupIndex member.1) := by
  unfold translatedDestination at h
  obtain ⟨⟨found, source⟩, hslot, h⟩ := Option.bind_eq_some_iff.1 h
  obtain ⟨⟨base, reference⟩, hreference, h⟩ := Option.bind_eq_some_iff.1 h
  dsimp only at h
  rw [Option.ite_none_left_eq_some] at h
  obtain ⟨hnonneg, h⟩ := h
  obtain ⟨distance, hdistance, h⟩ := Option.bind_eq_some_iff.1 h
  obtain ⟨sum, hsum, h⟩ := Option.bind_eq_some_iff.1 h
  rw [Option.ite_none_left_eq_some] at h
  obtain ⟨rfl, rfl, rfl⟩ : found = invocation ∧ distance = translation ∧ sum = destination := by
    simpa using h.2
  refine ⟨source, _, hslot, by omega, hreference, ?_⟩
  rw [checkedAddI64_eq_some hsum, checkedSubtractI64_eq_some hdistance,
    spilledAddend_of_faninSource (tileSlot_eq_some hslot).2.2,
    spilledAddend_of_faninSource (tileSlot_eq_some hreference).2.2]

theorem actDmaDpuPair_eq_some {pair : InvocationRoutingObservation × DpuEndpoint}
    (h : actDmaDpuPair invocations sources dpuInvariants tileCount fanin tileIndex = some pair) :
    ∃ translation destination, translatedDestination invocations sources tileCount fanin
        tileIndex = some (pair.1, translation, destination) ∧
      actDmaDpuInputs dpuInvariants fanin tileIndex destination = [pair.2] := by
  unfold actDmaDpuPair at h
  obtain ⟨⟨invocation, translation, destination⟩, htile, h⟩ := Option.bind_eq_some_iff.1 h
  dsimp only at h
  split at h
  · rename_i endpoint hinputs
    obtain rfl := Option.some.inj h
    exact ⟨translation, destination, htile, hinputs⟩
  · cases h

/-- The record of a tile with a pair names its invocation, its invariant and its input. -/
theorem actDmaDpuCandidate_of_pair {pair : InvocationRoutingObservation × DpuEndpoint}
    (h : actDmaDpuPair invocations sources dpuInvariants tileCount fanin tileIndex = some pair) :
    ∃ candidate, actDmaDpuCandidate invocations sources dpuInvariants tileCount fanin tileIndex =
        some candidate ∧ candidate.dpuCandidateCount = 1 ∧
      candidate.actInvocationIndex = pair.1.invocationIndex ∧
      candidate.input = (fanin.actGroupIndex, pair.2.1.sectionIndex, pair.2.1.invariantIndex,
        pair.2.2.dataAddendRaw) := by
  obtain ⟨translation, destination, htile, hinputs⟩ := actDmaDpuPair_eq_some h
  unfold actDmaDpuCandidate
  rw [htile]
  refine ⟨_, rfl, ?_⟩
  dsimp only
  rw [hinputs]
  exact ⟨rfl, rfl, rfl⟩

/-- What an exact observation has passed. -/
theorem of_actDmaDpuCover_exact {earlier : List ActDmaDpuInputCandidateObservation}
    (h : (actDmaDpuCover invocations sources dpuInvariants tileCount groupCount earlier
      fanin).exactCover = true) :
    fanin.exactCover = true ∧ hasTileSet tileCount groupCount fanin = true ∧
    actDmaDpuFlags invocations sources dpuInvariants tileCount groupCount earlier fanin = 0 ∧
    ∀ tileIndex ∈ List.range tileCount, ∃ pair,
      actDmaDpuPair invocations sources dpuInvariants tileCount fanin tileIndex = some pair := by
  unfold actDmaDpuCover at h
  split_ifs at h with hfanin htiles
  obtain ⟨hflags, -, hmatched⟩ := of_decide_eq_true h
  refine ⟨(Bool.not_eq_false _).mp hfanin, (Bool.not_eq_false _).mp htiles, hflags, ?_⟩
  have hall := List.length_filter_eq_length_iff.1 (hmatched.trans List.length_range.symm)
  exact fun tile htile => Option.isSome_iff_exists.1 (hall tile htile)

/-- On an exact observation all records are matched, and name different inputs. -/
theorem nodup_actDmaDpuCandidates {earlier : List ActDmaDpuInputCandidateObservation}
    (h : (actDmaDpuCover invocations sources dpuInvariants tileCount groupCount earlier
      fanin).exactCover = true) :
    ((actDmaDpuCandidates invocations sources dpuInvariants tileCount groupCount fanin).map
      (·.input)).Nodup := by
  obtain ⟨hfanin, htiles, hflags, hpairs⟩ := of_actDmaDpuCover_exact h
  unfold actDmaDpuFlags at hflags
  simp only [or_eq_zero_iff,
    flagIf_eq_zero_iff (show actDmaDpuInputReused ≠ 0 by decide)] at hflags
  obtain ⟨-, hreused⟩ := hflags
  have hall : (actDmaDpuCandidates invocations sources dpuInvariants tileCount groupCount
      fanin).filter (fun candidate => candidate.dpuCandidateCount = 1) =
        actDmaDpuCandidates invocations sources dpuInvariants tileCount groupCount fanin := by
    rw [List.filter_eq_self]
    intro candidate hcandidate
    unfold actDmaDpuCandidates at hcandidate
    rw [if_pos ⟨hfanin, htiles⟩] at hcandidate
    obtain ⟨tile, htile, heq⟩ := List.mem_filterMap.1 hcandidate
    obtain ⟨pair, hpair⟩ := hpairs tile htile
    obtain ⟨_, heq', hone, -⟩ := actDmaDpuCandidate_of_pair hpair
    obtain rfl := Option.some.inj (heq.symm.trans heq')
    exact decide_eq_true hone
  rw [hall] at hreused
  exact nodup_of_length_firstsFrom (not_not.1 hreused)

theorem actDmaDpuCover_group (invocations : List InvocationRoutingObservation)
    (sources : List ActDmaSourceCandidateObservation)
    (dpuInvariants : List DpuInvariantObservation) (fanin : ActDmaFaninObservation)
    (tileCount groupCount : ℕ) (earlier : List ActDmaDpuInputCandidateObservation) :
    (actDmaDpuCover invocations sources dpuInvariants tileCount groupCount earlier
        fanin).actGroupIndex = fanin.actGroupIndex ∧
      (actDmaDpuCover invocations sources dpuInvariants tileCount groupCount earlier
        fanin).tileCountExpected = tileCount := by
  unfold actDmaDpuCover
  split_ifs <;> exact ⟨rfl, rfl⟩

/-- An exact observation is sound. -/
theorem actDmaDpuInputCover_of_exact
    {earlier candidates : List ActDmaDpuInputCandidateObservation}
    (hcandidates : ∀ candidate ∈ actDmaDpuCandidates invocations sources dpuInvariants tileCount
      groupCount fanin, candidate ∈ candidates)
    (h : (actDmaDpuCover invocations sources dpuInvariants tileCount groupCount earlier
      fanin).exactCover = true) :
    ∃ reference, ActDmaDpuInputCover invocations sources dpuInvariants candidates fanin
      (actDmaDpuCover invocations sources dpuInvariants tileCount groupCount earlier fanin)
      reference ((List.range tileCount).filterMap
        (actDmaDpuPair invocations sources dpuInvariants tileCount fanin)) := by
  obtain ⟨hfanin, htiles, hflags, hpairs⟩ := of_actDmaDpuCover_exact h
  have hnodup := nodup_actDmaDpuCandidates h
  obtain ⟨hgroup, hexpected⟩ := actDmaDpuCover_group invocations sources dpuInvariants fanin
    tileCount groupCount earlier
  unfold actDmaDpuFlags at hflags
  simp only [or_eq_zero_iff,
    flagIf_eq_zero_iff (show actDmaDpuTileSetUnresolved ≠ 0 by decide), not_or, not_not] at hflags
  obtain ⟨⟨⟨⟨⟨-, -⟩, hcount, hreference⟩, -⟩, -⟩, -⟩ := hflags
  obtain ⟨reference, hreference⟩ := Option.ne_none_iff_exists'.1 hreference
  have hpair : ∀ pair ∈ (List.range tileCount).filterMap
      (actDmaDpuPair invocations sources dpuInvariants tileCount fanin),
      ∃ tile ∈ List.range tileCount, actDmaDpuPair invocations sources dpuInvariants tileCount
        fanin tile = some pair :=
    fun pair hmem => List.mem_filterMap.1 hmem
  have htile : ∀ tile pair, actDmaDpuPair invocations sources dpuInvariants tileCount fanin tile =
      some pair → (∃ source, tileSlot invocations sources tileCount fanin.actGroupIndex tile =
          some (pair.1, source) ∧ 0 ≤ source.actDataAddendRaw) ∧
        (dpuEndpoints dpuInvariants .actToDpu).filter (actDmaDpuInputMatches fanin tile
          (fanin.cmxDestinationAddendRaw + (spilledAddend sources fanin.actGroupIndex pair.1 -
            spilledAddend sources fanin.actGroupIndex reference.1))) = [pair.2] := by
    intro tile pair heq
    obtain ⟨translation, destination, htranslated, hinputs⟩ := actDmaDpuPair_eq_some heq
    obtain ⟨source, base, hslot, hnonneg, hbase, rfl⟩ := of_translatedDestination htranslated
    obtain rfl := Option.some.inj (hreference.symm.trans hbase)
    exact ⟨⟨source, hslot, hnonneg⟩, hinputs⟩
  have hassignment : TileAssignment (groupMembers invocations fanin.actGroupIndex) tileCount
      ((List.range tileCount).filterMap
        (actDmaDpuPair invocations sources dpuInvariants tileCount fanin)) := by
    refine tileAssignment_of hcount hpairs fun tile pair heq => ?_
    obtain ⟨⟨source, hslot, -⟩, hinput⟩ := htile tile pair heq
    obtain ⟨hmem, hinvocation, -⟩ := tileSlot_eq_some hslot
    obtain ⟨-, hmatch, -⟩ := filter_eq_singleton hinput
    exact ⟨hmem, hinvocation, (of_decide_eq_true hmatch).1.trans hinvocation.symm⟩
  refine ⟨reference.1, ?_⟩
  constructor
  case fanin_exact => exact ⟨hfanin, hgroup⟩
  case assignment => rwa [hexpected]
  case reference_mem =>
    obtain ⟨hmem, hzero, -⟩ := tileSlot_eq_some hreference
    exact ⟨hmem, hzero⟩
  case one_source =>
    intro invocation hmem
    obtain ⟨pair, hp, rfl⟩ := List.mem_map.1 (hassignment.members_eq.mem_iff.2 hmem)
    obtain ⟨tile, -, heq⟩ := hpair pair hp
    obtain ⟨⟨source, hslot, hnonneg⟩, -⟩ := htile tile pair heq
    obtain ⟨-, -, hsource⟩ := tileSlot_eq_some hslot
    obtain ⟨honly, hone⟩ := faninSource_eq_some_iff.1 hsource
    exact ⟨source, honly, hone, hnonneg, (spilledAddend_of_faninSource hsource).symm⟩
  case one_input =>
    intro pair hp
    obtain ⟨tile, -, heq⟩ := hpair pair hp
    obtain ⟨⟨source, hslot, -⟩, hinput⟩ := htile tile pair heq
    obtain ⟨-, hinvocation, -⟩ := tileSlot_eq_some hslot
    rw [hinvocation]
    exact hinput
  case inputs_ne =>
    refine List.Nodup.of_map (fun key : ℕ × ℕ × ℤ => (fanin.actGroupIndex, key)) ?_
    convert hnodup using 1
    unfold actDmaDpuCandidates
    rw [if_pos ⟨hfanin, htiles⟩, List.map_map, List.map_filterMap, List.map_filterMap]
    refine List.filterMap_congr fun tile hmem => ?_
    obtain ⟨pair, heq⟩ := hpairs tile hmem
    obtain ⟨candidate, heq', -, -, hinput⟩ := actDmaDpuCandidate_of_pair heq
    rw [heq, heq', Option.map_some, Option.map_some, hinput]
    rfl
  case invariants_ne => exact hassignment.invariants_ne
  case reported =>
    intro pair hp
    obtain ⟨tile, hmem, heq⟩ := hpair pair hp
    obtain ⟨candidate, heq', -, hinvocation, hinput⟩ := actDmaDpuCandidate_of_pair heq
    refine ⟨candidate, hcandidates candidate ?_, congrArg Prod.fst hinput, hinvocation,
      congrArg (·.2.1) hinput, congrArg (·.2.2.1) hinput, congrArg (·.2.2.2) hinput⟩
    unfold actDmaDpuCandidates
    rw [if_pos ⟨hfanin, htiles⟩]
    exact List.mem_filterMap.2 ⟨tile, hmem, heq'⟩

/-- Exact observations of the DPU inputs of fan-ins are sound. -/
theorem actDmaDpuInputCovers_sound {fanins : List ActDmaFaninObservation}
    {candidates : List ActDmaDpuInputCandidateObservation}
    {covers : List ActDmaDpuInputCoverObservation}
    (h : deriveActDmaDpuInputObservations invocations sources dpuInvariants tileCount groupCount
      fanins = .ok (candidates, covers)) :
    List.Forall₂ (fun fanin cover => cover.exactCover = true →
        cover.tileCountExpected = tileCount ∧ ∃ reference pairs, ActDmaDpuInputCover invocations
          sources dpuInvariants candidates fanin cover reference pairs) fanins covers := by
  unfold deriveActDmaDpuInputObservations at h
  split_ifs at h with hempty
  · obtain ⟨-, rfl⟩ := Prod.mk.inj (Except.ok.inj h)
    rw [List.eq_nil_of_length_eq_zero hempty]
    exact List.Forall₂.nil
  · obtain ⟨-, h⟩ := refuseIf_bind_eq_ok_iff.1 h
    obtain ⟨_, hcandidates, h⟩ := bind_eq_ok_iff.1 h
    obtain ⟨-, rfl⟩ := writeWithin_eq_ok_iff.1 hcandidates
    obtain ⟨_, hcovers, h⟩ := bind_eq_ok_iff.1 h
    obtain ⟨-, rfl⟩ := writeWithin_eq_ok_iff.1 hcovers
    obtain ⟨rfl, rfl⟩ := Prod.mk.inj (Except.ok.inj h)
    refine forall₂_writeFrom [] fun fanin hfanin earlier hexact =>
      ⟨(actDmaDpuCover_group ..).2, ?_⟩
    obtain ⟨reference, hcover⟩ := actDmaDpuInputCover_of_exact
      (fun candidate hcandidate => List.mem_flatMap.2 ⟨fanin, hfanin, hcandidate⟩) hexact
    exact ⟨reference, _, hcover⟩

/-- A derived candidate of a member spills the output of the member. -/
theorem spilledAddend_of_derived {tasks : List DmaTaskObservation}
    (hindices : (invocations.map (·.invocationIndex)).Nodup)
    (hsources : deriveActDmaSourceCandidates invocations tasks = .ok sources)
    {invocation : InvocationRoutingObservation} (hmem : invocation ∈ invocations)
    {source : ActDmaSourceCandidateObservation}
    (hsource : faninSources sources groupIndex invocation = [source]) :
    source.actDataAddendRaw = (invocation.routing (invocation.tensorCount - 1)).dataAddend := by
  obtain ⟨hderived, hkey, -⟩ := filter_eq_singleton hsource
  rw [deriveActDmaSourceCandidates_spec hsources] at hderived
  obtain ⟨act, hact, hderived⟩ := List.mem_flatMap.1 hderived
  obtain ⟨dma, -, rfl⟩ := mem_dmaSourcesOf.1 hderived
  obtain ⟨-, hindex, -⟩ := of_decide_eq_true hkey
  obtain rfl := eq_of_invocationIndex_eq hindices hact hmem hindex
  rfl

end DmaDpuExact

/-! ## Tile covers -/

/-- Exact covers of inputs by DPU outputs, and of DPU inputs by fan-ins, are sound : the
members of the group have the expected tiles once each, and every member has one endpoint, of
an invariant of its tile, at the place that its translation gives. -/
theorem tile_covers_sound {invocations : List InvocationRoutingObservation}
    {dpuInvariants : List DpuInvariantObservation} {groupCount tileCount : ℕ}
    (hindices : (invocations.map (·.invocationIndex)).Nodup) :
    (∀ candidates covers, deriveDpuActInputObservations invocations dpuInvariants groupCount
        tileCount = .ok (candidates, covers) →
      ∀ cover ∈ covers, cover.exactCover = true → cover.tileCountExpected = tileCount ∧
        ∃ reference pairs, DpuActInputCover invocations dpuInvariants candidates cover reference
          pairs) ∧
    ∀ sources fanins candidates covers, deriveActDmaDpuInputObservations invocations sources
        dpuInvariants tileCount groupCount fanins = .ok (candidates, covers) →
      List.Forall₂ (fun fanin cover => cover.exactCover = true →
        cover.tileCountExpected = tileCount ∧
        (∃ reference pairs, ActDmaDpuInputCover invocations sources dpuInvariants candidates fanin
          cover reference pairs) ∧
        ∀ tasks, deriveActDmaSourceCandidates invocations tasks = .ok sources →
          ∀ invocation ∈ groupMembers invocations fanin.actGroupIndex,
            spilledAddend sources fanin.actGroupIndex invocation =
              (invocation.routing (invocation.tensorCount - 1)).dataAddend) fanins covers := by
  refine ⟨fun candidates covers h => dpuActInputCovers_sound h,
    fun sources fanins candidates covers h => ?_⟩
  refine (actDmaDpuInputCovers_sound h).imp fun fanin cover hsound hexact => ?_
  obtain ⟨hexpected, reference, pairs, hcover⟩ := hsound hexact
  refine ⟨hexpected, ⟨reference, pairs, hcover⟩, fun tasks hsources invocation hmem => ?_⟩
  obtain ⟨source, hsource, -, -, haddend⟩ := hcover.one_source invocation hmem
  rw [← haddend]
  exact spilledAddend_of_derived hindices hsources (mem_groupMembers.1 hmem).1 hsource

/-- Two tiles that spill their outputs. -/
def exampleTiles : List InvocationRoutingObservation :=
  [exampleInvocation 0 0 0 0 100 1 1, exampleInvocation 0 1 1 10 110 1 1]

/-- An invariant for each tile, that writes the input of tile 0 and reads what is spilled. -/
def exampleTileInvariants : List DpuInvariantObservation :=
  [0, 1].map fun tile : ℕ =>
    { exampleDpuInput with
      invariantIndex := tile
      clusterRaw := tile
      waitMaskRaw := 4
      postMaskRaw := 1
      inputs := [⟨0, 0, 4, 500 + 10 * tile⟩]
      outputElementCount := 1
      outputSpanBytes := 2
      outputs := [⟨0, 0, 4, 0⟩] }

theorem tile_covers_sound_example :
    (∃ candidates cover reference pairs, DpuActInputCover exampleTiles exampleTileInvariants
      candidates cover reference pairs) ∧
    ∃ candidates fanin cover reference pairs, ActDmaDpuInputCover exampleTiles
      (exampleTiles.flatMap (dmaSourcesOf exampleSpillTasks)) exampleTileInvariants candidates
      fanin cover reference pairs := by
  have hindices : (exampleTiles.map (·.invocationIndex)).Nodup := by
    decide
  constructor
  · have hderived : deriveDpuActInputObservations exampleTiles exampleTileInvariants 1 2 = .ok
        ([⟨0, 0, 0, 0, 14, 0, 0, 1, 1, 4, 0, 0, 0, 0, 2, 1⟩,
          ⟨0, 1, 0, 1, 14, 1, 1, 1, 1, 4, 0, 10, 10, 10, 2, 1⟩],
          [⟨0, 0, 2, 2, 2, 2, 0, true⟩]) := by
      decide +kernel
    obtain ⟨-, reference, pairs, hcover⟩ :=
      (tile_covers_sound hindices).1 _ _ hderived _ List.mem_cons_self rfl
    exact ⟨_, _, reference, pairs, hcover⟩
  · have hderived : deriveActDmaDpuInputObservations exampleTiles
        (exampleTiles.flatMap (dmaSourcesOf exampleSpillTasks)) exampleTileInvariants 2 1
        [actDmaFanin exampleTiles exampleSpillTasks
          (exampleTiles.flatMap (dmaSourcesOf exampleSpillTasks)) 0] = .ok
        ([⟨0, 0, 0, 14, 0, 1, 1, 4, 500, 0, 500, 500, 4, 4⟩,
          ⟨0, 1, 1, 14, 1, 1, 1, 4, 500, 10, 510, 510, 4, 4⟩], [⟨0, 2, 2, 2, 2, 0, true⟩]) := by
      decide +kernel
    obtain ⟨-, ⟨reference, pairs, hcover⟩, -⟩ :=
      (List.forall₂_cons.1 ((tile_covers_sound hindices).2 _ _ _ _ hderived)).1 rfl
    exact ⟨_, _, _, reference, pairs, hcover⟩

end Npunlock
