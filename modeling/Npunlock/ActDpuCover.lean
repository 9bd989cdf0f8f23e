import Npunlock.Observations

/-!
# Outputs into DPU inputs

`derive_act_dpu_edge_candidates` joins the tensors of the invocations with the CMX addresses
of the DPU invariants, in both directions, and
`npunlock_derive_act_dpu_output_cover_observations` compares the outputs of a group with the
DPU inputs that they lie in. `act_dpu_output_cover_sound` : on an exact cover every output
lies in one DPU input, and the outputs in each input tile it.
-/

namespace Npunlock

/-! ## Addresses -/

/-- The symbol and the addend of an address. -/
def DpuCmxAddressObservation.place (address : DpuCmxAddressObservation) : ℕ × ℤ :=
  (address.dataSymbolRaw, address.dataAddendRaw)

/-- The addresses whose field is not ambiguous. -/
def classifiedAddresses (addresses : List DpuCmxAddressObservation) (ambiguousFieldsRaw : ℕ) :
    List DpuCmxAddressObservation :=
  addresses.filter fun address => ambiguousFieldsRaw.testBit address.fieldIndex = false

/-- The addresses that `dpu_address_is_first` accepts. -/
def firstAddresses (addresses : List DpuCmxAddressObservation) (ambiguousFieldsRaw : ℕ) :
    List DpuCmxAddressObservation :=
  firsts (·.place) (classifiedAddresses addresses ambiguousFieldsRaw)

/-- `dpu_address_field_mask`. -/
def dpuAddressFieldMask (addresses : List DpuCmxAddressObservation) (ambiguousFieldsRaw : ℕ)
    (address : DpuCmxAddressObservation) : ℕ :=
  orAll (((classifiedAddresses addresses ambiguousFieldsRaw).filter fun other =>
    other.place = address.place).map fun other => 1 <<< other.fieldIndex)

/-! ## Edges -/

/-- The `NPUNLOCK_ACT_DPU_DIRECTION` values. -/
inductive ActDpuDirection
  | actToDpu
  | dpuToAct
  deriving DecidableEq

/-- `npunlock_act_dpu_edge_candidate_observation`. -/
structure ActDpuEdgeCandidateObservation where
  direction : ActDpuDirection
  actGroupIndex : ℕ
  actInvocationIndex : ℕ
  actTensorRecordIndex : ℕ
  dpuSectionIndex : ℕ
  dpuInvariantIndex : ℕ
  dpuFieldMaskRaw : ℕ
  actCandidateCount : ℕ
  dataSymbolRaw : ℕ
  actDataAddendRaw : ℤ
  actSpanBytes : ℕ
  dpuDataAddendRaw : ℤ
  dpuSpanBytes : ℕ
  barrierIntersectionRaw : ℕ
  deriving DecidableEq

/-- The bytes of the tensor of an invariant in a direction. -/
def dpuSpan (direction : ActDpuDirection) (dpu : DpuInvariantObservation) : ℕ :=
  match direction with
  | .actToDpu => dpu.inputSpanBytes
  | .dpuToAct => dpu.outputSpanBytes

/-- The barriers that the end of one side posts and the start of the other waits for. -/
def dpuIntersection (direction : ActDpuDirection) (act : InvocationRoutingObservation)
    (dpu : DpuInvariantObservation) : ℕ :=
  match direction with
  | .actToDpu => act.postMaskRaw &&& dpu.waitMaskRaw
  | .dpuToAct => dpu.postMaskRaw &&& act.waitMaskRaw

/-- The addresses of an invariant in a direction, with its ambiguous fields. -/
def dpuAddresses (direction : ActDpuDirection) (dpu : DpuInvariantObservation) :
    List DpuCmxAddressObservation × ℕ :=
  match direction with
  | .actToDpu => (dpu.inputs, dpu.inputAmbiguousFieldsRaw)
  | .dpuToAct => (dpu.outputs, 0)

/-- The tensors of an invocation in a direction : its output or its inputs. -/
def edgeTensors (direction : ActDpuDirection) (act : InvocationRoutingObservation) : List ℕ :=
  match direction with
  | .actToDpu => [act.tensorCount - 1]
  | .dpuToAct => List.range (act.tensorCount - 1)

/-- `act_dpu_candidate_matches`. -/
def actDpuCandidateMatches (act : InvocationRoutingObservation) (tensorIndex : ℕ)
    (direction : ActDpuDirection)
    (endpoint : DpuInvariantObservation × DpuCmxAddressObservation) : Bool :=
  let (dpu, address) := endpoint
  let routing := act.routing tensorIndex
  let tensor := act.contract tensorIndex
  let actStart := routing.dataAddend.toNat
  let dpuStart := address.dataAddendRaw.toNat
  0 ≤ routing.dataAddend ∧ 0 ≤ address.dataAddendRaw ∧ tensor.spanBytes ≠ 0 ∧
    routing.dataSymbol = address.dataSymbolRaw ∧ dpuSpan direction dpu ≠ 0 ∧
    dpuIntersection direction act dpu ≠ 0 ∧ dpuStart ≤ actStart ∧
    actStart ≤ uint64Max - tensor.spanBytes ∧ dpuStart ≤ uint64Max - dpuSpan direction dpu ∧
    actStart + tensor.spanBytes ≤ dpuStart + dpuSpan direction dpu

section Edges

variable (invocations : List InvocationRoutingObservation)
  (dpuInvariants : List DpuInvariantObservation)

/-- The addresses of all invariants in a direction that are compared. -/
def dpuEndpoints (direction : ActDpuDirection) :
    List (DpuInvariantObservation × DpuCmxAddressObservation) :=
  dpuInvariants.flatMap fun dpu =>
    (firstAddresses (dpuAddresses direction dpu).1 (dpuAddresses direction dpu).2).map (dpu, ·)

/-- The first pass : the numbers of comparisons and of matches. The number of inputs of an
invocation without tensors wraps. -/
def countActDpuEdges : Result (ℕ × ℕ) :=
  invocations.foldlM (fun counts act => do
    let _ ← subSize act.tensorCount 1
    [ActDpuDirection.actToDpu, .dpuToAct].foldlM (fun counts direction =>
      (edgeTensors direction act).foldlM (fun counts tensorIndex =>
        (dpuEndpoints dpuInvariants direction).foldlM (fun counts endpoint =>
          countMatch "ACT/DPU edge candidate analysis exceeds its work bound"
            "ACT/DPU edge candidate count overflows"
            (actDpuCandidateMatches act tensorIndex direction endpoint) counts)
          counts) counts) counts) (0, 0)

/-- The endpoints that a tensor of an invocation matches. -/
def matchedEndpoints (act : InvocationRoutingObservation) (direction : ActDpuDirection)
    (tensorIndex : ℕ) : List (DpuInvariantObservation × DpuCmxAddressObservation) :=
  (dpuEndpoints dpuInvariants direction).filter (actDpuCandidateMatches act tensorIndex direction)

/-- The record that is written for a match. -/
def actDpuEdgeCandidate (act : InvocationRoutingObservation) (direction : ActDpuDirection)
    (tensorIndex localCount : ℕ)
    (endpoint : DpuInvariantObservation × DpuCmxAddressObservation) :
    ActDpuEdgeCandidateObservation where
  direction := direction
  actGroupIndex := act.groupIndex
  actInvocationIndex := act.invocationIndex
  actTensorRecordIndex := tensorIndex
  dpuSectionIndex := endpoint.1.sectionIndex
  dpuInvariantIndex := endpoint.1.invariantIndex
  dpuFieldMaskRaw := dpuAddressFieldMask (dpuAddresses direction endpoint.1).1
    (dpuAddresses direction endpoint.1).2 endpoint.2
  actCandidateCount := localCount
  dataSymbolRaw := endpoint.2.dataSymbolRaw
  actDataAddendRaw := (act.routing tensorIndex).dataAddend
  actSpanBytes := (act.contract tensorIndex).spanBytes
  dpuDataAddendRaw := endpoint.2.dataAddendRaw
  dpuSpanBytes := dpuSpan direction endpoint.1
  barrierIntersectionRaw := dpuIntersection direction act endpoint.1

/-- The records of a tensor. -/
def tensorEdges (act : InvocationRoutingObservation) (direction : ActDpuDirection)
    (tensorIndex : ℕ) : List ActDpuEdgeCandidateObservation :=
  (matchedEndpoints dpuInvariants act direction tensorIndex).map
    (actDpuEdgeCandidate act direction tensorIndex
      (matchedEndpoints dpuInvariants act direction tensorIndex).length)

/-- The records of an invocation. -/
def actDpuEdgesOf (act : InvocationRoutingObservation) : List ActDpuEdgeCandidateObservation :=
  [ActDpuDirection.actToDpu, .dpuToAct].flatMap fun direction =>
    (edgeTensors direction act).flatMap (tensorEdges dpuInvariants act direction)

/-- `derive_act_dpu_edge_candidates`. -/
def deriveActDpuEdgeCandidates : Result (List ActDpuEdgeCandidateObservation) := do
  let (_, resultCount) ← countActDpuEdges invocations dpuInvariants
  if resultCount = 0 then .ok []
  else do
    refuseIf (∃ act ∈ invocations, ∃ direction ∈ [ActDpuDirection.actToDpu, .dpuToAct],
        ∃ tensorIndex ∈ edgeTensors direction act,
          uint32Max < (matchedEndpoints dpuInvariants act direction tensorIndex).length)
      (unsupported "ACT/DPU edge ambiguity count exceeds the supported range")
    refuseIf ((invocations.flatMap (actDpuEdgesOf dpuInvariants)).length ≠ resultCount)
      (unsupported "ACT/DPU edge candidate count changed during inspection")
    .ok (invocations.flatMap (actDpuEdgesOf dpuInvariants))

end Edges

section EdgesSpec

variable {invocations : List InvocationRoutingObservation}
  {dpuInvariants : List DpuInvariantObservation}

/-- The first pass checks the tensor counts, and counts what the second pass writes. -/
theorem of_countActDpuEdges {counts : ℕ × ℕ}
    (h : countActDpuEdges invocations dpuInvariants = .ok counts) :
    counts.2 = (invocations.flatMap (actDpuEdgesOf dpuInvariants)).length ∧
      ∀ act ∈ invocations, act.tensorCount ≠ 0 := by
  unfold countActDpuEdges at h
  constructor
  · rw [List.length_flatMap]
    refine (foldlM_adds Prod.snd (fun counts act counts' hstep => ?_) h).trans (Nat.zero_add _)
    obtain ⟨_, -, hstep⟩ := bind_eq_ok_iff.1 hstep
    unfold actDpuEdgesOf
    rw [List.length_flatMap]
    refine foldlM_adds Prod.snd (fun counts direction counts' hstep => ?_) hstep
    rw [List.length_flatMap]
    refine foldlM_adds Prod.snd (fun counts tensorIndex counts' hstep => ?_) hstep
    unfold tensorEdges matchedEndpoints
    rw [List.length_map, ← List.countP_eq_length_filter, countP_eq_sum]
    refine foldlM_adds Prod.snd (fun counts endpoint counts' hstep => ?_) hstep
    rw [countMatch_eq_ok hstep]
  · intro act hact hzero
    obtain ⟨_, _, hstep⟩ := exists_step_of_foldlM h act hact
    obtain ⟨_, hcheck, -⟩ := bind_eq_ok_iff.1 hstep
    unfold subSize at hcheck
    rw [hzero, if_pos (by omega)] at hcheck
    cases hcheck

theorem deriveActDpuEdgeCandidates_spec {candidates : List ActDpuEdgeCandidateObservation}
    (h : deriveActDpuEdgeCandidates invocations dpuInvariants = .ok candidates) :
    candidates = invocations.flatMap (actDpuEdgesOf dpuInvariants) ∧
      ∀ act ∈ invocations, act.tensorCount ≠ 0 := by
  unfold deriveActDpuEdgeCandidates at h
  obtain ⟨counts, hcounts, h⟩ := bind_eq_ok_iff.1 h
  obtain ⟨hcount, htensors⟩ := of_countActDpuEdges hcounts
  dsimp only at h
  exact ⟨eq_of_counted hcount h, htensors⟩

end EdgesSpec

/-! ## Covers -/

/-- `npunlock_act_dpu_output_cover_observation`. -/
structure ActDpuOutputCoverObservation where
  actGroupIndex : ℕ
  invocationCount : ℕ
  matchedInvocationCount : ℕ
  unresolvedInvocationCount : ℕ
  dpuInputCount : ℕ
  exactCoverInputCount : ℕ
  unresolvedFlags : ℕ
  exactCover : Bool
  deriving DecidableEq

/-- `NPUNLOCK_ACT_DPU_COVER_CONSUMER_AMBIGUOUS`. -/
def actDpuCoverConsumerAmbiguous : ℕ := 1

/-- `NPUNLOCK_ACT_DPU_COVER_INVOCATION_UNCLASSIFIED`. -/
def actDpuCoverInvocationUnclassified : ℕ := 2

/-- `NPUNLOCK_ACT_DPU_COVER_SLICE_OVERLAP`. -/
def actDpuCoverSliceOverlap : ℕ := 4

/-- `NPUNLOCK_ACT_DPU_COVER_UNION_MISMATCH`. -/
def actDpuCoverUnionMismatch : ℕ := 8

/-- What `act_dpu_candidates_share_input` compares : a DPU input. -/
def ActDpuEdgeCandidateObservation.dpuInput (edge : ActDpuEdgeCandidateObservation) :
    ℕ × ℕ × ℕ × ℤ × ℕ :=
  (edge.dpuSectionIndex, edge.dpuInvariantIndex, edge.dataSymbolRaw, edge.dpuDataAddendRaw,
    edge.dpuSpanBytes)

/-- The bytes of the output, if they are addressable. -/
def outputInterval (edge : ActDpuEdgeCandidateObservation) : Option OutputByteInterval :=
  if edge.actDataAddendRaw < 0 then none
  else byteInterval edge.actDataAddendRaw.toNat edge.actSpanBytes

/-- The bytes of the DPU input, if they are addressable. -/
def dpuInputInterval (edge : ActDpuEdgeCandidateObservation) : Option OutputByteInterval :=
  if edge.dpuDataAddendRaw < 0 then none
  else byteInterval edge.dpuDataAddendRaw.toNat edge.dpuSpanBytes

section Covers

variable (invocations : List InvocationRoutingObservation)
  (candidates : List ActDpuEdgeCandidateObservation)

/-- The edges from the output of an invocation. -/
def outputDpuEdges (invocation : InvocationRoutingObservation) :
    List ActDpuEdgeCandidateObservation :=
  candidates.filter fun edge => edge.direction = .actToDpu ∧
    edge.actGroupIndex = invocation.groupIndex ∧
    edge.actInvocationIndex = invocation.invocationIndex ∧
    edge.actTensorRecordIndex = invocation.tensorCount - 1

/-- The invocation has one edge from its output. -/
def outputMatched (invocation : InvocationRoutingObservation) : Bool :=
  invocation.tensorCount ≠ 0 ∧ (outputDpuEdges candidates invocation).length = 1 ∧
    ∃ unique ∈ (outputDpuEdges candidates invocation).getLast?, unique.actCandidateCount = 1

/-- The flags that an invocation adds. -/
def outputMatchFlags (invocation : InvocationRoutingObservation) : ℕ :=
  if outputMatched candidates invocation = true then 0
  else actDpuCoverInvocationUnclassified ||| flagIf (invocation.tensorCount ≠ 0 ∧
    (1 < (outputDpuEdges candidates invocation).length ∨
      ∃ unique ∈ (outputDpuEdges candidates invocation).getLast?, unique.actCandidateCount ≠ 1))
    actDpuCoverConsumerAmbiguous

/-- The unambiguous edges from the outputs of a group. -/
def countedDpuEdges (groupIndex : ℕ) : List ActDpuEdgeCandidateObservation :=
  candidates.filter fun edge => edge.direction = .actToDpu ∧ edge.actGroupIndex = groupIndex ∧
    edge.actCandidateCount = 1

/-- The unambiguous edges into the DPU input of an edge. -/
def assignedEdges (groupIndex : ℕ) (endpoint : ActDpuEdgeCandidateObservation) :
    List ActDpuEdgeCandidateObservation :=
  (countedDpuEdges candidates groupIndex).filter fun edge => edge.dpuInput = endpoint.dpuInput

/-- The outputs in the DPU input of an edge tile it. -/
def dpuInputCovered (groupIndex : ℕ) (endpoint : ActDpuEdgeCandidateObservation) : Bool :=
  match dpuInputInterval endpoint with
  | none => false
  | some input => mergeOutputByteIntervals
      ((assignedEdges candidates groupIndex endpoint).filterMap outputInterval) = ([input], false)

/-- The flags that a DPU input adds. -/
def dpuInputFlags (groupIndex : ℕ) (endpoint : ActDpuEdgeCandidateObservation) : ℕ :=
  flagIf (∃ edge ∈ assignedEdges candidates groupIndex endpoint, outputInterval edge = none)
      actDpuCoverUnionMismatch |||
    flagIf ((mergeOutputByteIntervals ((assignedEdges candidates groupIndex endpoint).filterMap
      outputInterval)).2 = true) actDpuCoverSliceOverlap |||
    flagIf (dpuInputCovered candidates groupIndex endpoint = false) actDpuCoverUnionMismatch

/-- The observation of a group. -/
def actDpuOutputCover (groupIndex : ℕ) : ActDpuOutputCoverObservation :=
  let members := groupMembers invocations groupIndex
  let endpoints := firsts (·.dpuInput) (countedDpuEdges candidates groupIndex)
  let matchedCount := (members.filter (outputMatched candidates)).length
  let coveredCount := (endpoints.filter (dpuInputCovered candidates groupIndex)).length
  let flags := orAll (members.map (outputMatchFlags candidates)) |||
    orAll (endpoints.map (dpuInputFlags candidates groupIndex)) |||
    flagIf (endpoints.length = 0) actDpuCoverConsumerAmbiguous
  { actGroupIndex := groupIndex
    invocationCount := members.length
    matchedInvocationCount := matchedCount
    unresolvedInvocationCount := members.length - matchedCount
    dpuInputCount := endpoints.length
    exactCoverInputCount := coveredCount
    unresolvedFlags := flags
    exactCover := flags = 0 ∧ members.length ≠ 0 ∧ matchedCount = members.length ∧
      coveredCount = endpoints.length }

/-- `work_bound` of the output covers. -/
def actDpuOutputCoverWorkBound (invocationCount groupCount candidateCount : ℕ) : Option ℕ := do
  let workTerm ← checkedAddSize invocationCount candidateCount
  let workBound ← checkedMulSize candidateCount workTerm
  checkedMulSize groupCount workBound

/-- `npunlock_derive_act_dpu_output_cover_observations`. -/
def deriveActDpuOutputCoverObservations (groupCount : ℕ) :
    Result (List ActDpuOutputCoverObservation) :=
  if groupCount = 0 ∨ candidates.length = 0 then .ok []
  else do
    refuseIf (uint32Max < invocations.length ∨ uint32Max < groupCount ∨
        uint32Max < candidates.length ∨ ¬withinWorkBound
          (actDpuOutputCoverWorkBound invocations.length groupCount candidates.length))
      (unsupported "ACT/DPU output-cover analysis exceeds its work bound")
    writeWithin groupCount (((List.range groupCount).filter fun groupIndex =>
      ∃ edge ∈ candidates, edge.direction = .actToDpu ∧ edge.actGroupIndex = groupIndex).map
        (actDpuOutputCover invocations candidates))

end Covers

/-! ## Exact covers -/

section Exact

variable {invocations : List InvocationRoutingObservation}
  {dpuInvariants : List DpuInvariantObservation}
  {candidates : List ActDpuEdgeCandidateObservation} {groupIndex : ℕ}

/-- The outputs of a group lie in DPU inputs, one each, and tile them. -/
structure DpuOutputCover (invocations : List InvocationRoutingObservation)
    (candidates : List ActDpuEdgeCandidateObservation) (cover : ActDpuOutputCoverObservation)
    (edges : List ActDpuEdgeCandidateObservation) (inputs : List (ℕ × ℕ × ℕ × ℤ × ℕ)) :
    Prop where
  nonempty : groupMembers invocations cover.actGroupIndex ≠ []
  one_edge : List.Forall₂ (fun invocation edge => outputDpuEdges candidates invocation = [edge] ∧
      edge.actDataAddendRaw = (invocation.routing (invocation.tensorCount - 1)).dataAddend ∧
      edge.actSpanBytes = (invocation.contract (invocation.tensorCount - 1)).spanBytes)
    (groupMembers invocations cover.actGroupIndex) edges
  inputs_ne : inputs.Nodup
  inputs_length : inputs.length = cover.dpuInputCount
  edge_input : ∀ edge ∈ edges, edge.dpuInput ∈ inputs
  input_edge : ∀ input ∈ inputs, ∃ edge ∈ edges, edge.dpuInput = input
  addressable : ∀ edge ∈ edges, outputInterval edge ≠ none
  apart : ∀ input ∈ inputs, ((edges.filter fun edge => edge.dpuInput = input).filterMap
    outputInterval).Pairwise Interval.Apart
  start_nonneg : ∀ input ∈ inputs, 0 ≤ input.2.2.2.1
  union_eq : ∀ input ∈ inputs, Interval.covered ((edges.filter fun edge =>
    edge.dpuInput = input).filterMap outputInterval) =
      Interval.points ⟨input.2.2.2.1.toNat, input.2.2.2.1.toNat + input.2.2.2.2⟩
  sum_eq : ((groupMembers invocations cover.actGroupIndex).map fun invocation =>
      (invocation.contract (invocation.tensorCount - 1)).spanBytes).sum =
    (inputs.map fun input => input.2.2.2.2).sum

theorem outputMatched_iff {m : InvocationRoutingObservation} (hm : m.tensorCount ≠ 0) :
    outputMatched candidates m = true ↔
      ∃ edge, outputDpuEdges candidates m = [edge] ∧ edge.actCandidateCount = 1 := by
  unfold outputMatched
  rw [decide_eq_true_eq, and_iff_right hm, length_one_and_last_iff]

/-- The edges of an invocation towards the DPU are those of its output. -/
theorem actDpuEdgesOf_filter (act : InvocationRoutingObservation) :
    (actDpuEdgesOf dpuInvariants act).filter (fun edge => edge.direction = .actToDpu) =
      tensorEdges dpuInvariants act .actToDpu (act.tensorCount - 1) := by
  have hdirection : ∀ (direction : ActDpuDirection) (tensorIndex : ℕ),
      ∀ edge ∈ tensorEdges dpuInvariants act direction tensorIndex, edge.direction = direction := by
    intro direction tensorIndex edge hedge
    obtain ⟨endpoint, -, rfl⟩ := List.mem_map.1 hedge
    rfl
  unfold actDpuEdgesOf
  rw [List.flatMap_cons, List.flatMap_cons, List.flatMap_nil, List.append_nil, List.filter_append]
  have hto : ((edgeTensors .actToDpu act).flatMap (tensorEdges dpuInvariants act .actToDpu)) =
      tensorEdges dpuInvariants act .actToDpu (act.tensorCount - 1) := by
    unfold edgeTensors
    rw [List.flatMap_cons, List.flatMap_nil, List.append_nil]
  rw [hto, List.filter_eq_self.2, List.filter_eq_nil_iff.2, List.append_nil]
  · intro edge hedge
    obtain ⟨tensorIndex, -, hedge⟩ := List.mem_flatMap.1 hedge
    rw [hdirection _ _ edge hedge]
    decide
  · intro edge hedge
    exact decide_eq_true (hdirection _ _ edge hedge)

theorem actGroupIndex_of_mem {act : InvocationRoutingObservation}
    {edge : ActDpuEdgeCandidateObservation} (h : edge ∈ actDpuEdgesOf dpuInvariants act) :
    edge.actGroupIndex = act.groupIndex ∧ edge.actInvocationIndex = act.invocationIndex := by
  obtain ⟨direction, -, h⟩ := List.mem_flatMap.1 h
  obtain ⟨tensorIndex, -, h⟩ := List.mem_flatMap.1 h
  obtain ⟨endpoint, -, rfl⟩ := List.mem_map.1 h
  exact ⟨rfl, rfl⟩

/-- The edges from the output of an invocation are those that were made for it. -/
theorem outputDpuEdges_eq (hindices : (invocations.map (·.invocationIndex)).Nodup)
    {m : InvocationRoutingObservation} (hm : m ∈ invocations) :
    outputDpuEdges (invocations.flatMap (actDpuEdgesOf dpuInvariants)) m =
      tensorEdges dpuInvariants m .actToDpu (m.tensorCount - 1) := by
  unfold outputDpuEdges
  rw [filter_flatMap_eq (List.Nodup.of_map _ hindices) hm]
  · rw [← actDpuEdgesOf_filter]
    refine List.filter_congr fun edge hedge => decide_eq_decide.2 ⟨fun h => h.1, fun h => ?_⟩
    obtain ⟨hgroup, hindex⟩ := actGroupIndex_of_mem hedge
    have houtput : edge ∈ tensorEdges dpuInvariants m .actToDpu (m.tensorCount - 1) := by
      rw [← actDpuEdgesOf_filter]
      exact List.mem_filter.2 ⟨hedge, decide_eq_true h⟩
    obtain ⟨endpoint, -, rfl⟩ := List.mem_map.1 houtput
    exact ⟨rfl, rfl, rfl, rfl⟩
  · intro other hother hne edge hedge
    refine decide_eq_false fun h => hne ?_
    exact eq_of_invocationIndex_eq hindices hother hm
      ((actGroupIndex_of_mem hedge).2.symm.trans h.2.2.1)

/-- The unambiguous edges of a group, member by member. -/
theorem countedDpuEdges_eq :
    countedDpuEdges (invocations.flatMap (actDpuEdgesOf dpuInvariants)) groupIndex =
      (groupMembers invocations groupIndex).flatMap fun m =>
        (tensorEdges dpuInvariants m .actToDpu (m.tensorCount - 1)).filter
          fun edge => edge.actCandidateCount = 1 := by
  unfold countedDpuEdges groupMembers
  rw [List.filter_flatMap]
  refine flatMap_filter_eq fun act _ => ?_
  rw [← actDpuEdgesOf_filter, List.filter_filter]
  split_ifs with hgroup
  · refine List.filter_congr fun edge hedge => ?_
    rw [(actGroupIndex_of_mem hedge).1, ← Bool.decide_and, decide_eq_decide]
    have hact := of_decide_eq_true hgroup
    exact ⟨fun h => ⟨h.2.2, h.1⟩, fun h => ⟨h.2, hact, h.1⟩⟩
  · refine List.filter_eq_nil_iff.2 fun edge hedge h => hgroup ?_
    obtain ⟨-, hedgeGroup, -⟩ := of_decide_eq_true h
    exact decide_eq_true ((actGroupIndex_of_mem hedge).1.symm.trans hedgeGroup)

/-- A member whose only edge is unambiguous. -/
theorem exists_only_edge (hindices : (invocations.map (·.invocationIndex)).Nodup)
    {m : InvocationRoutingObservation} (hm : m ∈ invocations) (htensors : m.tensorCount ≠ 0)
    (hmatched : outputMatched (invocations.flatMap (actDpuEdgesOf dpuInvariants)) m = true) :
    ∃ edge, (tensorEdges dpuInvariants m .actToDpu (m.tensorCount - 1)).filter
        (fun edge => edge.actCandidateCount = 1) = [edge] ∧
      outputDpuEdges (invocations.flatMap (actDpuEdgesOf dpuInvariants)) m = [edge] ∧
      edge.actDataAddendRaw = (m.routing (m.tensorCount - 1)).dataAddend ∧
      edge.actSpanBytes = (m.contract (m.tensorCount - 1)).spanBytes := by
  obtain ⟨edge, hedge, hcount⟩ := (outputMatched_iff htensors).1 hmatched
  have honly := hedge
  rw [outputDpuEdges_eq hindices hm] at honly
  obtain ⟨endpoint, -, hrecord⟩ := List.mem_map.1
    (by rw [honly]; exact List.mem_cons_self :
      edge ∈ tensorEdges dpuInvariants m .actToDpu (m.tensorCount - 1))
  refine ⟨edge, ?_, hedge, by rw [← hrecord]; rfl, by rw [← hrecord]; rfl⟩
  rw [honly, List.filter_eq_self, List.forall_mem_singleton]
  exact decide_eq_true hcount

theorem of_outputInterval {edge : ActDpuEdgeCandidateObservation} {interval : OutputByteInterval}
    (h : outputInterval edge = some interval) : interval =
      ⟨edge.actDataAddendRaw.toNat, edge.actDataAddendRaw.toNat + edge.actSpanBytes⟩ := by
  unfold outputInterval at h
  split_ifs at h
  exact byteInterval_eq_some h

theorem of_dpuInputInterval {edge : ActDpuEdgeCandidateObservation}
    {interval : OutputByteInterval} (h : dpuInputInterval edge = some interval) :
    0 ≤ edge.dpuDataAddendRaw ∧ interval =
      ⟨edge.dpuDataAddendRaw.toNat, edge.dpuDataAddendRaw.toNat + edge.dpuSpanBytes⟩ := by
  unfold dpuInputInterval at h
  split_ifs at h with hneg
  exact ⟨not_lt.1 hneg, byteInterval_eq_some h⟩

/-- What a DPU input without flags says about the outputs in it. -/
theorem of_dpuInputFlags {endpoint : ActDpuEdgeCandidateObservation}
    (h : dpuInputFlags candidates groupIndex endpoint = 0) :
    (∀ edge ∈ assignedEdges candidates groupIndex endpoint, outputInterval edge ≠ none) ∧
    ∃ input, dpuInputInterval endpoint = some input ∧ mergeOutputByteIntervals
      ((assignedEdges candidates groupIndex endpoint).filterMap outputInterval) =
        ([input], false) := by
  unfold dpuInputFlags at h
  simp only [or_eq_zero_iff, flagIf_eq_zero_iff (show actDpuCoverUnionMismatch ≠ 0 by decide),
    not_exists, not_and, Bool.not_eq_false] at h
  obtain ⟨⟨haddressable, -⟩, hcovered⟩ := h
  refine ⟨haddressable, ?_⟩
  unfold dpuInputCovered at hcovered
  split at hcovered
  · cases hcovered
  · rename_i input hinput
    exact ⟨input, hinput, of_decide_eq_true hcovered⟩

/-- The outputs that tile a DPU input are as long as it, together. -/
theorem sum_assignedEdges {endpoint : ActDpuEdgeCandidateObservation}
    (h : dpuInputFlags candidates groupIndex endpoint = 0) :
    ((assignedEdges candidates groupIndex endpoint).map (·.actSpanBytes)).sum =
      endpoint.dpuSpanBytes := by
  obtain ⟨haddressable, input, hinput, hmerge⟩ := of_dpuInputFlags h
  have htotal : ∀ {edges : List ActDpuEdgeCandidateObservation},
      (∀ edge ∈ edges, outputInterval edge ≠ none) →
      (edges.map (·.actSpanBytes)).sum = Interval.total (edges.filterMap outputInterval) := by
    intro edges hedges
    induction edges with
    | nil => rfl
    | cons edge edges ih =>
      obtain ⟨hedge, hrest⟩ := List.forall_mem_cons.1 hedges
      obtain ⟨interval, heq⟩ := Option.ne_none_iff_exists'.1 hedge
      rw [List.map_cons, List.sum_cons, ih hrest, List.filterMap_cons_some heq,
        Interval.total_cons, of_outputInterval heq, Nat.add_sub_cancel_left]
  have hle : ∀ x ∈ (assignedEdges candidates groupIndex endpoint).filterMap outputInterval,
      x.start ≤ x.stop := by
    intro x hx
    obtain ⟨edge, -, heq⟩ := List.mem_filterMap.1 hx
    rw [of_outputInterval heq]
    exact Nat.le_add_right _ _
  unfold mergeOutputByteIntervals at hmerge
  rw [htotal haddressable, ← Interval.total_merge hle (congrArg Prod.snd hmerge), hmerge,
    Interval.total_cons, Interval.total_nil, Nat.add_zero, (of_dpuInputInterval hinput).2]
  exact Nat.add_sub_cancel_left _ _

/-- An exact cover is sound. -/
theorem dpuOutputCover_of_exact (hindices : (invocations.map (·.invocationIndex)).Nodup)
    (htensors : ∀ invocation ∈ invocations, invocation.tensorCount ≠ 0)
    (hcandidates : candidates = invocations.flatMap (actDpuEdgesOf dpuInvariants))
    (h : (actDpuOutputCover invocations candidates groupIndex).exactCover = true) :
    DpuOutputCover invocations candidates (actDpuOutputCover invocations candidates groupIndex)
      (countedDpuEdges candidates groupIndex)
      ((firsts (·.dpuInput) (countedDpuEdges candidates groupIndex)).map (·.dpuInput)) := by
  obtain ⟨hflags, hne, hmatched, -⟩ := of_decide_eq_true h
  simp only [or_eq_zero_iff, orAll_map_eq_zero_iff] at hflags
  obtain ⟨⟨-, hinputs⟩, -⟩ := hflags
  rw [List.length_filter_eq_length_iff] at hmatched
  have hedges : List.Forall₂ (fun invocation edge =>
      outputDpuEdges candidates invocation = [edge] ∧
      edge.actDataAddendRaw = (invocation.routing (invocation.tensorCount - 1)).dataAddend ∧
      edge.actSpanBytes = (invocation.contract (invocation.tensorCount - 1)).spanBytes)
      (groupMembers invocations groupIndex) (countedDpuEdges candidates groupIndex) := by
    subst hcandidates
    have honly := fun m (hm : m ∈ groupMembers invocations groupIndex) =>
      exists_only_edge hindices (mem_groupMembers.1 hm).1
        (htensors m (mem_groupMembers.1 hm).1) (hmatched m hm)
    rw [countedDpuEdges_eq]
    refine ((List.forall₂_and_left _ _).2 ⟨honly, forall₂_flatMap fun m hm =>
      (honly m hm).imp fun _ h => h.1⟩).imp ?_
    rintro m edge ⟨⟨edge', hfilter, hrest⟩, heq⟩
    obtain rfl := (List.cons.inj (hfilter.symm.trans heq)).1
    exact hrest
  have hendpoint : ∀ input ∈ (firsts (·.dpuInput) (countedDpuEdges candidates groupIndex)).map
      (·.dpuInput), ∃ endpoint ∈ countedDpuEdges candidates groupIndex,
        endpoint.dpuInput = input ∧ dpuInputFlags candidates groupIndex endpoint = 0 := by
    intro input hinput
    obtain ⟨endpoint, hmem, rfl⟩ := List.mem_map.1 hinput
    exact ⟨endpoint, mem_of_mem_firsts hmem, rfl, hinputs endpoint hmem⟩
  constructor
  case nonempty => exact fun hnil => hne (List.length_eq_zero_iff.2 hnil)
  case one_edge => exact hedges
  case inputs_ne => exact nodup_firsts _ _
  case inputs_length => rw [List.length_map]; rfl
  case edge_input =>
    intro edge hedge
    exact List.mem_map.2 (exists_mem_firsts hedge)
  case input_edge =>
    intro input hinput
    obtain ⟨endpoint, hmem, heq, -⟩ := hendpoint input hinput
    exact ⟨endpoint, hmem, heq⟩
  case addressable =>
    intro edge hedge
    obtain ⟨endpoint, hmem, heq⟩ : ∃ endpoint ∈ firsts (·.dpuInput)
        (countedDpuEdges candidates groupIndex), endpoint.dpuInput = edge.dpuInput :=
      exists_mem_firsts hedge
    exact (of_dpuInputFlags (hinputs endpoint hmem)).1 edge
      (List.mem_filter.2 ⟨hedge, decide_eq_true heq.symm⟩)
  case apart =>
    intro input hinput
    obtain ⟨endpoint, -, rfl, hflags⟩ := hendpoint input hinput
    obtain ⟨-, _, -, hmerge⟩ := of_dpuInputFlags hflags
    exact Interval.apart_of_not_overlap (congrArg Prod.snd hmerge)
  case start_nonneg =>
    intro input hinput
    obtain ⟨endpoint, -, rfl, hflags⟩ := hendpoint input hinput
    obtain ⟨-, _, hinterval, -⟩ := of_dpuInputFlags hflags
    exact (of_dpuInputInterval hinterval).1
  case union_eq =>
    intro input hinput
    obtain ⟨endpoint, -, rfl, hflags⟩ := hendpoint input hinput
    obtain ⟨-, interval, hinterval, hmerge⟩ := of_dpuInputFlags hflags
    obtain ⟨-, rfl⟩ := of_dpuInputInterval hinterval
    exact Interval.covered_of_merge_eq_singleton (congrArg Prod.fst hmerge)
  case sum_eq =>
    have hspans : (groupMembers invocations groupIndex).map (fun invocation =>
        (invocation.contract (invocation.tensorCount - 1)).spanBytes) =
          (countedDpuEdges candidates groupIndex).map (·.actSpanBytes) := by
      rw [← List.forall₂_eq_eq_eq, List.forall₂_map_left_iff, List.forall₂_map_right_iff]
      exact hedges.imp fun _ _ h => h.2.2.symm
    refine (congrArg List.sum hspans).trans ?_
    rw [← sum_filter_key (nodup_firsts (·.dpuInput) (countedDpuEdges candidates groupIndex))
      fun edge hedge => List.mem_map.2 (exists_mem_firsts hedge)]
    refine congrArg List.sum (List.map_congr_left fun input hinput => ?_)
    obtain ⟨endpoint, -, rfl, hflags⟩ := hendpoint input hinput
    exact sum_assignedEdges hflags

/-- An exact output cover of derived edges is sound : each output lies in one DPU input, and
the outputs in each input tile it. -/
theorem act_dpu_output_cover_sound {groupCount : ℕ}
    {covers : List ActDpuOutputCoverObservation}
    (hindices : (invocations.map (·.invocationIndex)).Nodup)
    (hcandidates : deriveActDpuEdgeCandidates invocations dpuInvariants = .ok candidates)
    (hcovers : deriveActDpuOutputCoverObservations invocations candidates groupCount =
      .ok covers) :
    ∀ cover ∈ covers, cover.exactCover = true →
      ∃ edges inputs, DpuOutputCover invocations candidates cover edges inputs := by
  obtain ⟨hspec, htensors⟩ := deriveActDpuEdgeCandidates_spec hcandidates
  unfold deriveActDpuOutputCoverObservations at hcovers
  intro cover hcover hexact
  split_ifs at hcovers
  · cases hcovers
    cases hcover
  · obtain ⟨-, hcovers⟩ := refuseIf_bind_eq_ok_iff.1 hcovers
    obtain ⟨-, rfl⟩ := writeWithin_eq_ok_iff.1 hcovers
    obtain ⟨groupIndex, -, rfl⟩ := List.mem_map.1 hcover
    exact ⟨_, _, dpuOutputCover_of_exact hindices htensors hspec hexact⟩

/-- An invariant with one input of four bytes. -/
def exampleDpuInput : DpuInvariantObservation where
  sectionIndex := 14
  invariantIndex := 0
  clusterRaw := 0
  waitMaskRaw := 1
  postMaskRaw := 2
  barrierGroupRaw := 0
  barrierMaskRaw := 0
  startAfterRaw := 0
  cleanAfterRaw := 0
  variantCountRaw := 1
  inputDimensionsXyz := [1, 1, 2]
  inputDtypeRaw := 0
  inputDenseRaw := 1
  inputElementCount := 2
  inputSpanBytes := 4
  outputDimensionsXyz := [1, 1, 2]
  outputDtypeRaw := 0
  outputSparseRaw := 0
  outputElementCount := 2
  outputSpanBytes := 4
  inputs := [⟨0, 0, 4, 100⟩]
  inputAmbiguousFieldsRaw := 0
  outputs := []

/-- Two outputs that tile an input. -/
def exampleOutputs : List InvocationRoutingObservation :=
  [exampleInvocation 0 0 0 0 100 0 1, exampleInvocation 0 1 1 10 102 0 1]

theorem act_dpu_output_cover_sound_example : ∃ edges inputs,
    DpuOutputCover exampleOutputs (exampleOutputs.flatMap (actDpuEdgesOf [exampleDpuInput]))
      (actDpuOutputCover exampleOutputs
        (exampleOutputs.flatMap (actDpuEdgesOf [exampleDpuInput])) 0) edges inputs := by
  have hcovers : deriveActDpuOutputCoverObservations exampleOutputs
      (exampleOutputs.flatMap (actDpuEdgesOf [exampleDpuInput])) 1 =
        .ok [actDpuOutputCover exampleOutputs
          (exampleOutputs.flatMap (actDpuEdgesOf [exampleDpuInput])) 0] := by
    decide +kernel
  have hcandidates : deriveActDpuEdgeCandidates exampleOutputs [exampleDpuInput] =
      .ok (exampleOutputs.flatMap (actDpuEdgesOf [exampleDpuInput])) := by
    decide +kernel
  exact act_dpu_output_cover_sound (by decide) hcandidates hcovers _ List.mem_cons_self
    (by decide +kernel)

end Exact

end Npunlock
