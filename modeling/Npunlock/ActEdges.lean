import Npunlock.Observations

/-!
# Edges between ACT invocations

`npunlock_derive_act_edge_candidates` joins the output of an invocation to the input of a
later one at the same CMX address, where the barriers order the two. The order is found by
`act_schedule_hop_count`, a pass over the invocations between the two that keeps, for each
barrier, the least number of hops after which it is posted. `scheduleChain_of_hopCount` : a
hop count other than zero is the length of a chain of barriers. `deriveActEdgeCandidates_spec` :
a derivation that succeeds returns the matches of all pairs, each with the number of
producers that match its input.
-/

namespace Npunlock

/-! ## Schedule -/

/-- The least hop count of the barriers in a mask. -/
def minimumHops (barrierHops : List ℕ) (mask : ℕ) : ℕ :=
  (List.range 64).foldl (fun minimum bit =>
    if mask.testBit bit = true ∧ barrierHops.getD bit 0 < minimum then barrierHops.getD bit 0
    else minimum) uint32Max

/-- The barriers in a mask are posted after `hops` hops. -/
def postHops (mask hops : ℕ) (barrierHops : List ℕ) : List ℕ :=
  barrierHops.mapIdx fun bit current =>
    if mask.testBit bit = true ∧ hops < current then hops else current

/-- The loop of `act_schedule_hop_count` over the invocations before the consumer. -/
def hopsThrough (consumer : InvocationRoutingObservation) :
    List InvocationRoutingObservation → List ℕ → ℕ
  | [], barrierHops =>
    if minimumHops barrierHops consumer.waitMaskRaw = uint32Max then 0
    else minimumHops barrierHops consumer.waitMaskRaw
  | invocation :: rest, barrierHops =>
    if minimumHops barrierHops invocation.waitMaskRaw = uint32Max ∨
        minimumHops barrierHops invocation.waitMaskRaw = uint32Max - 1 then
      hopsThrough consumer rest barrierHops
    else
      hopsThrough consumer rest (postHops invocation.postMaskRaw
        (minimumHops barrierHops invocation.waitMaskRaw + 1) barrierHops)

/-- `act_schedule_hop_count`. -/
def actScheduleHopCount (invocations : List InvocationRoutingObservation)
    (producerIndex consumerIndex : ℕ) : ℕ :=
  if consumerIndex ≤ producerIndex then 0
  else
    match invocations[producerIndex]?, invocations[consumerIndex]? with
    | some producer, some consumer =>
      hopsThrough consumer ((invocations.take consumerIndex).drop (producerIndex + 1))
        (postHops producer.postMaskRaw 1 (List.replicate 64 uint32Max))
    | _, _ => 0

/-- A chain of invocations, each of which waits for a barrier that the one before it posts. -/
inductive ScheduleChain (invocations : List InvocationRoutingObservation) (producerIndex : ℕ) :
    ℕ → ℕ → Prop
  | start : ScheduleChain invocations producerIndex 0 producerIndex
  | hop {hops i j : ℕ} {left right : InvocationRoutingObservation}
      (chain : ScheduleChain invocations producerIndex hops i) (lt : i < j)
      (left_eq : invocations[i]? = some left) (right_eq : invocations[j]? = some right)
      (barrier : left.postMaskRaw &&& right.waitMaskRaw ≠ 0) :
      ScheduleChain invocations producerIndex (hops + 1) j

variable {invocations : List InvocationRoutingObservation} {producerIndex consumerIndex : ℕ}

/-- Every barrier with a hop count is posted by an invocation before `n` at the end of a
chain of that length. -/
def HopsReached (invocations : List InvocationRoutingObservation) (producerIndex n : ℕ)
    (barrierHops : List ℕ) : Prop :=
  ∀ bit < 64, barrierHops.getD bit 0 ≠ uint32Max → ∃ hops i invocation,
    barrierHops.getD bit 0 = hops + 1 ∧ i < n ∧ invocations[i]? = some invocation ∧
      ScheduleChain invocations producerIndex hops i ∧ invocation.postMaskRaw.testBit bit = true

theorem minimumHops_cases (barrierHops : List ℕ) (mask : ℕ) :
    minimumHops barrierHops mask = uint32Max ∨ ∃ bit < 64, mask.testBit bit = true ∧
      minimumHops barrierHops mask = barrierHops.getD bit 0 := by
  have hfold : ∀ (bits : List ℕ) (minimum : ℕ), (∀ bit ∈ bits, bit < 64) →
      (bits.foldl (fun minimum bit => if mask.testBit bit = true ∧
        barrierHops.getD bit 0 < minimum then barrierHops.getD bit 0 else minimum) minimum =
          minimum) ∨ ∃ bit < 64, mask.testBit bit = true ∧
        bits.foldl (fun minimum bit => if mask.testBit bit = true ∧
          barrierHops.getD bit 0 < minimum then barrierHops.getD bit 0 else minimum) minimum =
            barrierHops.getD bit 0 := by
    intro bits
    induction bits with
    | nil => exact fun minimum _ => Or.inl rfl
    | cons bit bits ih =>
      intro minimum hbits
      obtain ⟨hbit, hbits⟩ := List.forall_mem_cons.1 hbits
      rw [List.foldl_cons]
      split_ifs with hless
      · rcases ih (barrierHops.getD bit 0) hbits with heq | h
        · exact Or.inr ⟨bit, hbit, hless.1, heq⟩
        · exact Or.inr h
      · exact ih minimum hbits
  exact hfold (List.range 64) uint32Max fun bit h => List.mem_range.1 h

theorem getD_postHops (mask hops bit : ℕ) (barrierHops : List ℕ) :
    (postHops mask hops barrierHops).getD bit 0 = barrierHops.getD bit 0 ∨
      mask.testBit bit = true ∧ (postHops mask hops barrierHops).getD bit 0 = hops := by
  unfold postHops
  rw [List.getD_eq_getElem?_getD, List.getD_eq_getElem?_getD, List.getElem?_mapIdx]
  cases barrierHops[bit]? with
  | none => exact Or.inl rfl
  | some current =>
    rw [Option.map_some, Option.getD_some, Option.getD_some]
    split_ifs with h
    · exact Or.inr ⟨h.1, rfl⟩
    · exact Or.inl rfl

/-- A wait for a posted barrier extends a chain. -/
theorem HopsReached.extend {n : ℕ} {barrierHops : List ℕ}
    (h : HopsReached invocations producerIndex n barrierHops)
    {waiting : InvocationRoutingObservation} (hwaiting : invocations[n]? = some waiting)
    (hfound : minimumHops barrierHops waiting.waitMaskRaw ≠ uint32Max) :
    ScheduleChain invocations producerIndex (minimumHops barrierHops waiting.waitMaskRaw) n := by
  rcases minimumHops_cases barrierHops waiting.waitMaskRaw with hnone | ⟨bit, hbit, hwait, heq⟩
  · exact absurd hnone hfound
  · rw [heq] at hfound ⊢
    obtain ⟨hops, i, invocation, hhops, hi, hinvocation, hchain, hpost⟩ := h bit hbit hfound
    rw [hhops]
    refine hchain.hop hi hinvocation hwaiting fun hzero => ?_
    have hboth := congrArg (fun mask => mask.testBit bit) hzero
    rw [Nat.testBit_and, hpost, hwait] at hboth
    simp at hboth

/-- The invocations that an invocation posts barriers for are reached one hop later. -/
theorem HopsReached.post {n hops : ℕ} {barrierHops : List ℕ}
    (h : HopsReached invocations producerIndex n barrierHops)
    {posting : InvocationRoutingObservation} (hposting : invocations[n]? = some posting)
    (hchain : ScheduleChain invocations producerIndex hops n) :
    HopsReached invocations producerIndex (n + 1)
      (postHops posting.postMaskRaw (hops + 1) barrierHops) := by
  intro bit hbit hfound
  rcases getD_postHops posting.postMaskRaw (hops + 1) bit barrierHops with heq | ⟨hpost, heq⟩
  · rw [heq] at hfound ⊢
    obtain ⟨hops, i, invocation, hhops, hi, hrest⟩ := h bit hbit hfound
    exact ⟨hops, i, invocation, hhops, by omega, hrest⟩
  · exact ⟨hops, n, posting, heq, by omega, hposting, hchain, hpost⟩

theorem HopsReached.mono {m n : ℕ} {barrierHops : List ℕ}
    (h : HopsReached invocations producerIndex m barrierHops) (hmn : m ≤ n) :
    HopsReached invocations producerIndex n barrierHops := by
  intro bit hbit hfound
  obtain ⟨hops, i, invocation, hhops, hi, hrest⟩ := h bit hbit hfound
  exact ⟨hops, i, invocation, hhops, by omega, hrest⟩

theorem scheduleChain_of_hopsThrough {consumer : InvocationRoutingObservation}
    (hconsumer : invocations[consumerIndex]? = some consumer) :
    ∀ {between : List InvocationRoutingObservation} {n : ℕ} {barrierHops : List ℕ},
      between = (invocations.take consumerIndex).drop n → n ≤ consumerIndex →
      HopsReached invocations producerIndex n barrierHops →
      hopsThrough consumer between barrierHops ≠ 0 →
      ScheduleChain invocations producerIndex (hopsThrough consumer between barrierHops)
        consumerIndex
  | [], n, barrierHops, _, hn, hreached, hne => by
    unfold hopsThrough at hne ⊢
    split_ifs at hne ⊢ with hnone
    · exact absurd rfl hne
    · exact (hreached.mono hn).extend hconsumer hnone
  | invocation :: rest, n, barrierHops, heq, hn, hreached, hne => by
    have hinvocation : invocations[n]? = some invocation ∧ n < consumerIndex := by
      have hhead := congrArg (fun l => l[0]?) heq
      rw [List.getElem?_cons_zero, List.getElem?_drop, Nat.add_zero, List.getElem?_take] at hhead
      split_ifs at hhead with hlt
      exact ⟨hhead.symm, hlt⟩
    have hrest : rest = (invocations.take consumerIndex).drop (n + 1) := by
      rw [← List.tail_drop, ← heq, List.tail_cons]
    unfold hopsThrough at hne ⊢
    split_ifs at hne ⊢ with hskip
    · have hreached' := hreached.mono (Nat.le_add_right n 1)
      exact scheduleChain_of_hopsThrough hconsumer hrest hinvocation.2 hreached' hne
    · refine scheduleChain_of_hopsThrough hconsumer hrest hinvocation.2 ?_ hne
      exact hreached.post hinvocation.1 (hreached.extend hinvocation.1 fun h => hskip (Or.inl h))

/-- A hop count other than zero is the length of a chain. -/
theorem scheduleChain_of_hopCount
    (h : actScheduleHopCount invocations producerIndex consumerIndex ≠ 0) :
    ScheduleChain invocations producerIndex
      (actScheduleHopCount invocations producerIndex consumerIndex) consumerIndex := by
  unfold actScheduleHopCount at h ⊢
  split_ifs at h ⊢ with hle
  · exact absurd rfl h
  · split at h
    · rename_i producer consumer hproducer hconsumer
      refine scheduleChain_of_hopsThrough hconsumer rfl (by omega) ?_ h
      have hnone : HopsReached invocations producerIndex producerIndex
          (List.replicate 64 uint32Max) := by
        intro bit hbit hne
        rw [List.getD_eq_getElem?_getD, List.getElem?_replicate_of_lt hbit] at hne
        exact absurd rfl hne
      exact hnone.post hproducer .start
    · exact absurd rfl h

/-! ## Candidates -/

/-- `npunlock_act_edge_candidate_observation`. -/
structure ActEdgeCandidateObservation where
  producerGroupIndex : ℕ
  producerInvocationIndex : ℕ
  producerTensorRecordIndex : ℕ
  consumerGroupIndex : ℕ
  consumerInvocationIndex : ℕ
  consumerTensorRecordIndex : ℕ
  consumerCandidateCount : ℕ
  scheduleHopCount : ℕ
  dataSymbolRaw : ℕ
  dataAddendRaw : ℤ
  spanBytes : ℕ
  barrierIntersectionRaw : ℕ
  deriving DecidableEq

/-- `act_edge_candidate_matches` : the schedule hops of a match. -/
def actEdgeCandidateMatches (invocations : List InvocationRoutingObservation)
    (producerIndex consumerIndex consumerTensorIndex : ℕ) : Option ℕ :=
  match invocations[producerIndex]?, invocations[consumerIndex]? with
  | some producer, some consumer =>
    let producerTensorIndex := producer.tensorCount - 1
    let output := producer.contract producerTensorIndex
    let input := consumer.contract consumerTensorIndex
    let outputRouting := producer.routing producerTensorIndex
    let inputRouting := consumer.routing consumerTensorIndex
    let hops := actScheduleHopCount invocations producerIndex consumerIndex
    if producer.invocationIndex < consumer.invocationIndex ∧
        producer.groupIndex ≠ consumer.groupIndex ∧
        output.role = patchblobTensorRoleOutputV2 ∧ input.role = patchblobTensorRoleInputV2 ∧
        output.precision = input.precision ∧ output.elementCount = input.elementCount ∧
        output.spanBytes = input.spanBytes ∧ output.spanBytes ≠ 0 ∧
        0 ≤ outputRouting.dataAddend ∧
        outputRouting.dataAddend ≤ (uint64Max - output.spanBytes : ℕ) ∧
        outputRouting.dataSymbol = inputRouting.dataSymbol ∧
        outputRouting.dataAddend = inputRouting.dataAddend ∧ hops ≠ 0 then some hops
    else none
  | _, _ => none

/-- The record that is written for a match. -/
def actEdgeCandidate (producer consumer : InvocationRoutingObservation)
    (consumerTensorIndex localCount hops : ℕ) : ActEdgeCandidateObservation :=
  let producerTensorIndex := producer.tensorCount - 1
  { producerGroupIndex := producer.groupIndex
    producerInvocationIndex := producer.invocationIndex
    producerTensorRecordIndex := producerTensorIndex
    consumerGroupIndex := consumer.groupIndex
    consumerInvocationIndex := consumer.invocationIndex
    consumerTensorRecordIndex := consumerTensorIndex
    consumerCandidateCount := localCount
    scheduleHopCount := hops
    dataSymbolRaw := (producer.routing producerTensorIndex).dataSymbol
    dataAddendRaw := (producer.routing producerTensorIndex).dataAddend
    spanBytes := (producer.contract producerTensorIndex).spanBytes
    barrierIntersectionRaw := producer.postMaskRaw &&& consumer.waitMaskRaw }

/-- The number of tensors of an invocation is supported. -/
def checkTensorCount (invocation : InvocationRoutingObservation) : Result Unit :=
  refuseIf (invocation.tensorCount < 2 ∨ patchblobTargetV2MaxTensors < invocation.tensorCount)
    (unsupported "ACT edge candidate has an unsupported tensor count")

/-- The first pass : the numbers of comparisons and of matches. -/
def countActEdges (invocations : List InvocationRoutingObservation) : Result (ℕ × ℕ) :=
  (List.finRange invocations.length).foldlM (fun counts consumerIndex => do
    checkTensorCount (invocations.get consumerIndex)
    (List.range ((invocations.get consumerIndex).tensorCount - 1)).foldlM
      (fun counts tensorIndex =>
        (List.finRange invocations.length).foldlM (fun counts (producerIndex : Fin _) => do
          checkTensorCount (invocations.get producerIndex)
          countMatch "ACT edge candidate analysis exceeds its work bound"
            "ACT edge candidate count overflows"
            (actEdgeCandidateMatches invocations producerIndex consumerIndex tensorIndex).isSome
            counts) counts) counts) (0, 0)

/-- `local_count` : the number of producers that match an input. -/
def consumerMatchCount (invocations : List InvocationRoutingObservation)
    (consumerIndex : Fin invocations.length) (tensorIndex : ℕ) : ℕ :=
  (List.finRange invocations.length).countP fun producerIndex : Fin invocations.length =>
    (actEdgeCandidateMatches invocations producerIndex consumerIndex tensorIndex).isSome

/-- The inputs of all invocations. -/
def consumerInputs (invocations : List InvocationRoutingObservation) :
    List (Fin invocations.length × ℕ) :=
  (List.finRange invocations.length).flatMap fun consumerIndex =>
    (List.range ((invocations.get consumerIndex).tensorCount - 1)).map fun tensorIndex =>
      (consumerIndex, tensorIndex)

/-- The records that the second pass writes. -/
def actEdgeCandidates (invocations : List InvocationRoutingObservation) :
    List ActEdgeCandidateObservation :=
  (consumerInputs invocations).flatMap fun (consumerIndex, tensorIndex) =>
    (List.finRange invocations.length).filterMap fun producerIndex : Fin invocations.length =>
      (actEdgeCandidateMatches invocations producerIndex consumerIndex tensorIndex).map
        (actEdgeCandidate (invocations.get producerIndex) (invocations.get consumerIndex)
          tensorIndex (consumerMatchCount invocations consumerIndex tensorIndex))

/-- `npunlock_derive_act_edge_candidates`. -/
def deriveActEdgeCandidates (invocations : List InvocationRoutingObservation) :
    Result (List ActEdgeCandidateObservation) := do
  let (_, resultCount) ← countActEdges invocations
  if resultCount = 0 then .ok []
  else do
    refuseIf (∃ input ∈ consumerInputs invocations,
        uint32Max < consumerMatchCount invocations input.1 input.2)
      (unsupported "ACT edge ambiguity count exceeds the supported range")
    refuseIf ((actEdgeCandidates invocations).length ≠ resultCount)
      (unsupported "ACT edge candidate count changed during inspection")
    .ok (actEdgeCandidates invocations)

/-! ## What is derived -/

theorem of_checkTensorCount {invocation : InvocationRoutingObservation} {u : Unit}
    (h : checkTensorCount invocation = .ok u) :
    2 ≤ invocation.tensorCount ∧ invocation.tensorCount ≤ 9 := by
  have hnot := refuseIf_eq_ok_iff.1 h
  unfold patchblobTargetV2MaxTensors at hnot
  omega

theorem length_actEdgeCandidates : (actEdgeCandidates invocations).length =
    ((List.finRange invocations.length).map fun consumerIndex =>
      ((List.range ((invocations.get consumerIndex).tensorCount - 1)).map fun tensorIndex =>
        consumerMatchCount invocations consumerIndex tensorIndex).sum).sum := by
  unfold actEdgeCandidates consumerInputs consumerMatchCount
  simp only [List.flatMap_assoc, List.flatMap_map, List.length_flatMap,
    List.length_filterMap_eq_countP, Option.isSome_map]

theorem consumerMatchCount_eq_sum (consumerIndex : Fin invocations.length) (tensorIndex : ℕ) :
    consumerMatchCount invocations consumerIndex tensorIndex =
      ((List.finRange invocations.length).map fun producerIndex : Fin invocations.length =>
        if (actEdgeCandidateMatches invocations producerIndex consumerIndex tensorIndex).isSome
        then 1 else 0).sum :=
  countP_eq_sum

/-- The first pass checks the tensor counts, and counts what the second pass writes. -/
theorem of_countActEdges {counts : ℕ × ℕ} (h : countActEdges invocations = .ok counts) :
    counts.2 = (actEdgeCandidates invocations).length ∧
      ∀ invocation ∈ invocations, 2 ≤ invocation.tensorCount ∧ invocation.tensorCount ≤ 9 := by
  unfold countActEdges at h
  constructor
  · rw [length_actEdgeCandidates]
    refine (foldlM_adds Prod.snd (fun counts consumerIndex counts' hstep => ?_) h).trans
      (Nat.zero_add _)
    obtain ⟨-, -, hstep⟩ := bind_eq_ok_iff.1 hstep
    refine foldlM_adds Prod.snd (fun counts tensorIndex counts' hstep => ?_) hstep
    rw [consumerMatchCount_eq_sum]
    refine foldlM_adds Prod.snd (fun counts producerIndex counts' hstep => ?_) hstep
    obtain ⟨-, -, hstep⟩ := bind_eq_ok_iff.1 hstep
    rw [countMatch_eq_ok hstep]
  · intro invocation hinvocation
    obtain ⟨i, hi, rfl⟩ := List.getElem_of_mem hinvocation
    obtain ⟨_, _, hstep⟩ := exists_step_of_foldlM h ⟨i, hi⟩ (List.mem_finRange _)
    obtain ⟨_, hcheck, -⟩ := bind_eq_ok_iff.1 hstep
    exact of_checkTensorCount hcheck

theorem deriveActEdgeCandidates_spec {candidates : List ActEdgeCandidateObservation}
    (h : deriveActEdgeCandidates invocations = .ok candidates) :
    candidates = actEdgeCandidates invocations ∧
      ∀ invocation ∈ invocations, 2 ≤ invocation.tensorCount ∧ invocation.tensorCount ≤ 9 := by
  unfold deriveActEdgeCandidates at h
  obtain ⟨counts, hcounts, h⟩ := bind_eq_ok_iff.1 h
  obtain ⟨hcount, htensors⟩ := of_countActEdges hcounts
  dsimp only at h
  exact ⟨eq_of_counted hcount h, htensors⟩

/-- A candidate is a match. -/
theorem mem_actEdgeCandidates {candidate : ActEdgeCandidateObservation} :
    candidate ∈ actEdgeCandidates invocations ↔
      ∃ (producerIndex consumerIndex : Fin invocations.length) (tensorIndex hops : ℕ),
        tensorIndex < (invocations.get consumerIndex).tensorCount - 1 ∧
        actEdgeCandidateMatches invocations producerIndex consumerIndex tensorIndex = some hops ∧
        actEdgeCandidate (invocations.get producerIndex) (invocations.get consumerIndex) tensorIndex
          (consumerMatchCount invocations consumerIndex tensorIndex) hops = candidate := by
  simp only [actEdgeCandidates, consumerInputs, List.mem_flatMap, List.mem_map, List.mem_filterMap,
    List.mem_finRange, List.mem_range, true_and, Option.map_eq_some_iff, Prod.exists,
    Prod.mk.injEq]
  constructor
  · rintro ⟨_, _, ⟨c, t, ht, rfl, rfl⟩, p, hops, hmatch, heq⟩
    exact ⟨p, c, t, hops, ht, hmatch, heq⟩
  · rintro ⟨p, c, t, hops, ht, hmatch, heq⟩
    exact ⟨c, t, ⟨c, t, ht, rfl, rfl⟩, p, hops, hmatch, heq⟩

/-- What a match says : the tensors agree, and the barriers order the invocations. -/
structure ActEdge (invocations : List InvocationRoutingObservation)
    (producerIndex consumerIndex : Fin invocations.length) (tensorIndex : ℕ) : Prop where
  lt : (invocations.get producerIndex).invocationIndex <
    (invocations.get consumerIndex).invocationIndex
  group_ne : (invocations.get producerIndex).groupIndex ≠ (invocations.get consumerIndex).groupIndex
  output_role : ((invocations.get producerIndex).contract
    ((invocations.get producerIndex).tensorCount - 1)).role = patchblobTensorRoleOutputV2
  input_role : ((invocations.get consumerIndex).contract tensorIndex).role =
    patchblobTensorRoleInputV2
  contract_eq : ∀ output input, output = (invocations.get producerIndex).contract
      ((invocations.get producerIndex).tensorCount - 1) →
    input = (invocations.get consumerIndex).contract tensorIndex →
    output.precision = input.precision ∧ output.elementCount = input.elementCount ∧
      output.spanBytes = input.spanBytes
  place_eq : ∀ output input, output = (invocations.get producerIndex).routing
      ((invocations.get producerIndex).tensorCount - 1) →
    input = (invocations.get consumerIndex).routing tensorIndex →
    output.dataSymbol = input.dataSymbol ∧ output.dataAddend = input.dataAddend
  chain : ∃ hops, ScheduleChain invocations producerIndex (hops + 1) consumerIndex

theorem actEdge_of_matches {p c : Fin invocations.length} {tensorIndex hops : ℕ}
    (h : actEdgeCandidateMatches invocations p c tensorIndex = some hops) :
    ActEdge invocations p c tensorIndex := by
  unfold actEdgeCandidateMatches at h
  rw [List.getElem?_eq_getElem p.2, List.getElem?_eq_getElem c.2] at h
  dsimp only at h
  split_ifs at h with hmatch
  obtain ⟨hlt, hgroup, houtput, hinput, hprecision, helements, hspan, -, -, -, hsymbol, haddend,
    hhops⟩ := hmatch
  refine ⟨hlt, hgroup, houtput, hinput, ?_, ?_, ?_⟩
  · rintro _ _ rfl rfl
    exact ⟨hprecision, helements, hspan⟩
  · rintro _ _ rfl rfl
    exact ⟨hsymbol, haddend⟩
  · have hchain := scheduleChain_of_hopCount hhops
    obtain ⟨n, hn⟩ := Nat.exists_eq_succ_of_ne_zero hhops
    rw [hn] at hchain
    exact ⟨n, hchain⟩

end Npunlock
