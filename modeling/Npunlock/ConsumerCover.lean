import Npunlock.ActEdges

/-!
# Consumer covers

`npunlock_derive_act_consumer_cover_observations` reports, for each group with an edge, how
its invocations are consumed. `consumer_cover_bijection` : a cover is exact iff the edges
that leave the group match its invocations with different inputs one to one, and no other
edge touches an end of one of them.
-/

namespace Npunlock

/-! ## Derivation -/

/-- `npunlock_act_consumer_cover_observation`. -/
structure ActConsumerCoverObservation where
  producerGroupIndex : ℕ
  producerInvocationCount : ℕ
  matchedProducerInvocationCount : ℕ
  unresolvedProducerInvocationCount : ℕ
  consumerInputCount : ℕ
  consumerGroupCount : ℕ
  unresolvedFlags : ℕ
  exactCover : Bool
  deriving DecidableEq

/-- `NPUNLOCK_ACT_CONSUMER_COVER_EDGE_AMBIGUOUS`. -/
def actConsumerCoverEdgeAmbiguous : ℕ := 1

/-- `NPUNLOCK_ACT_CONSUMER_COVER_PRODUCER_UNCLASSIFIED`. -/
def actConsumerCoverProducerUnclassified : ℕ := 2

/-- `NPUNLOCK_ACT_CONSUMER_COVER_INPUT_DUPLICATED`. -/
def actConsumerCoverInputDuplicated : ℕ := 4

/-- The output that an edge leaves. -/
def ActEdgeCandidateObservation.producer (edge : ActEdgeCandidateObservation) : ℕ × ℕ × ℕ :=
  (edge.producerGroupIndex, edge.producerInvocationIndex, edge.producerTensorRecordIndex)

/-- The input that an edge enters, as `act_edge_candidates_share_consumer` compares it. -/
def ActEdgeCandidateObservation.consumer (edge : ActEdgeCandidateObservation) : ℕ × ℕ × ℕ :=
  (edge.consumerGroupIndex, edge.consumerInvocationIndex, edge.consumerTensorRecordIndex)

section Derivation

variable (invocations : List InvocationRoutingObservation)
  (candidates : List ActEdgeCandidateObservation)

/-- `unique_producer_edges`. -/
def uniqueProducerEdge (candidate : ActEdgeCandidateObservation) : Bool :=
  (candidates.filter fun other => other.producer = candidate.producer).length = 1

/-- The candidates that leave the output of an invocation. -/
def outputEdges (invocation : InvocationRoutingObservation) : List ActEdgeCandidateObservation :=
  candidates.filter fun candidate => candidate.producer =
    (invocation.groupIndex, invocation.invocationIndex, invocation.tensorCount - 1)

/-- The invocation has one edge, and its input no other. -/
def producerMatched (invocation : InvocationRoutingObservation) : Bool :=
  invocation.tensorCount ≠ 0 ∧ (outputEdges candidates invocation).length = 1 ∧
    ∃ unique ∈ (outputEdges candidates invocation).getLast?, unique.consumerCandidateCount = 1

/-- The flags that an invocation adds. -/
def producerFlags (invocation : InvocationRoutingObservation) : ℕ :=
  if producerMatched candidates invocation = true then 0
  else actConsumerCoverProducerUnclassified ||| flagIf (invocation.tensorCount ≠ 0 ∧
    (1 < (outputEdges candidates invocation).length ∨
      ∃ unique ∈ (outputEdges candidates invocation).getLast?, unique.consumerCandidateCount ≠ 1))
    actConsumerCoverEdgeAmbiguous

/-- The candidates whose inputs are counted. -/
def countedEdges (groupIndex : ℕ) : List ActEdgeCandidateObservation :=
  candidates.filter fun candidate => candidate.producerGroupIndex = groupIndex ∧
    candidate.consumerCandidateCount = 1 ∧ uniqueProducerEdge candidates candidate = true

/-- The observation of a group. The first candidate of a consumer group is also the first of
its input, so the consumer groups are counted among all candidates. -/
def actConsumerCover (groupIndex : ℕ) : ActConsumerCoverObservation :=
  let members := groupMembers invocations groupIndex
  let counted := countedEdges candidates groupIndex
  let matchedCount := (members.filter (producerMatched candidates)).length
  let inputCount := (firsts (·.consumer) counted).length
  let flags := orAll (members.map (producerFlags candidates)) |||
    flagIf (inputCount ≠ counted.length) actConsumerCoverInputDuplicated
  { producerGroupIndex := groupIndex
    producerInvocationCount := members.length
    matchedProducerInvocationCount := matchedCount
    unresolvedProducerInvocationCount := members.length - matchedCount
    consumerInputCount := inputCount
    consumerGroupCount := (firsts (·.consumerGroupIndex) counted).length
    unresolvedFlags := flags
    exactCover := flags = 0 ∧ members.length ≠ 0 ∧ matchedCount = members.length ∧
      inputCount = matchedCount }

/-- `work_bound` of the consumer covers. -/
def actConsumerCoverWorkBound (invocationCount groupCount candidateCount : ℕ) : Option ℕ := do
  let workTerm ← checkedAddSize invocationCount candidateCount
  let workBound ← checkedMulSize candidateCount workTerm
  let workBound ← checkedMulSize groupCount workBound
  let workTerm ← checkedMulSize candidateCount candidateCount
  let workBound ← checkedAddSize workBound workTerm
  let workTerm ← checkedMulSize groupCount candidateCount
  let workBound ← checkedAddSize workBound workTerm
  let workTerm ← checkedMulSize groupCount invocationCount
  checkedAddSize workBound workTerm

/-- `npunlock_derive_act_consumer_cover_observations`. -/
def deriveActConsumerCoverObservations (groupCount : ℕ) :
    Result (List ActConsumerCoverObservation) :=
  if groupCount = 0 ∨ candidates.length = 0 then .ok []
  else do
    refuseIf (uint32Max < invocations.length ∨ uint32Max < groupCount ∨
        uint32Max < candidates.length ∨ ¬withinWorkBound
          (actConsumerCoverWorkBound invocations.length groupCount candidates.length))
      (unsupported "ACT consumer-cover analysis exceeds its work bound")
    writeWithin groupCount (((List.range groupCount).filter fun groupIndex =>
      ∃ candidate ∈ candidates, candidate.producerGroupIndex = groupIndex).map
        (actConsumerCover invocations candidates))

end Derivation

/-! ## Edges of a group -/

section Edges

variable {invocations : List InvocationRoutingObservation} {groupIndex : ℕ}

/-- The edges that leave a group. -/
def edgesFrom (candidates : List ActEdgeCandidateObservation) (groupIndex : ℕ) :
    List ActEdgeCandidateObservation :=
  candidates.filter fun candidate => candidate.producerGroupIndex = groupIndex

/-- An edge joins the output of an invocation to an input of another one. -/
structure EdgeJoins (invocations : List InvocationRoutingObservation)
    (edge : ActEdgeCandidateObservation) (p c : Fin invocations.length) : Prop where
  producer_eq : edge.producer = ((invocations.get p).groupIndex,
    (invocations.get p).invocationIndex, (invocations.get p).tensorCount - 1)
  consumer_eq : edge.consumer = ((invocations.get c).groupIndex,
    (invocations.get c).invocationIndex, edge.consumerTensorRecordIndex)
  tensor_lt : edge.consumerTensorRecordIndex < (invocations.get c).tensorCount - 1
  actEdge : ActEdge invocations p c edge.consumerTensorRecordIndex

theorem exists_edgeJoins {edge : ActEdgeCandidateObservation}
    (h : edge ∈ actEdgeCandidates invocations) : ∃ p c, EdgeJoins invocations edge p c := by
  obtain ⟨p, c, t, hops, ht, hmatch, rfl⟩ := mem_actEdgeCandidates.1 h
  exact ⟨p, c, rfl, rfl, ht, actEdge_of_matches hmatch⟩

theorem mem_edgesFrom {candidates : List ActEdgeCandidateObservation}
    {edge : ActEdgeCandidateObservation} : edge ∈ edgesFrom candidates groupIndex ↔
      edge ∈ candidates ∧ edge.producerGroupIndex = groupIndex := by
  unfold edgesFrom
  rw [List.mem_filter, decide_eq_true_eq]

/-- An edge of a group leaves a member. -/
theorem exists_member {edge : ActEdgeCandidateObservation}
    (h : edge ∈ edgesFrom (actEdgeCandidates invocations) groupIndex) :
    ∃ m ∈ groupMembers invocations groupIndex,
      edge.producer = (m.groupIndex, m.invocationIndex, m.tensorCount - 1) := by
  obtain ⟨hmem, hgroup⟩ := mem_edgesFrom.1 h
  obtain ⟨p, _, hjoins⟩ := exists_edgeJoins hmem
  have hp : edge.producerGroupIndex = (invocations.get p).groupIndex :=
    congrArg (·.1) hjoins.producer_eq
  exact ⟨invocations.get p, mem_groupMembers.2 ⟨List.get_mem _ _, hp ▸ hgroup⟩,
    hjoins.producer_eq⟩

variable (hindices : (invocations.map (·.invocationIndex)).Nodup)
include hindices

theorem get_inj {p q : Fin invocations.length}
    (h : (invocations.get p).invocationIndex = (invocations.get q).invocationIndex) : p = q := by
  have hget := eq_of_invocationIndex_eq hindices (List.get_mem _ _) (List.get_mem _ _) h
  exact (List.Nodup.of_map _ hindices).get_inj_iff.1 hget

/-- The edges of a member are those of the group with its index. -/
theorem outputEdges_eq {m : InvocationRoutingObservation}
    (hm : m ∈ groupMembers invocations groupIndex) :
    outputEdges (actEdgeCandidates invocations) m =
      (edgesFrom (actEdgeCandidates invocations) groupIndex).filter
        fun edge => edge.producerInvocationIndex = m.invocationIndex := by
  unfold outputEdges edgesFrom
  rw [List.filter_filter]
  refine List.filter_congr fun edge hedge => ?_
  obtain ⟨hmem, rfl⟩ := mem_groupMembers.1 hm
  obtain ⟨p, _, hjoins⟩ := exists_edgeJoins hedge
  rw [← Bool.decide_and, decide_eq_decide]
  constructor
  · intro h
    exact ⟨congrArg (·.2.1) h, congrArg (·.1) h⟩
  · rintro ⟨hindex, -⟩
    have hp : edge.producerInvocationIndex = (invocations.get p).invocationIndex :=
      congrArg (·.2.1) hjoins.producer_eq
    rw [hjoins.producer_eq,
      eq_of_invocationIndex_eq hindices (List.get_mem _ p) hmem (hp.symm.trans hindex)]

/-- An input has one match iff no other edge enters it. -/
theorem consumerCandidateCount_eq_one_iff {edge : ActEdgeCandidateObservation}
    (hedge : edge ∈ actEdgeCandidates invocations) :
    edge.consumerCandidateCount = 1 ↔
      ∀ other ∈ actEdgeCandidates invocations, other.consumer = edge.consumer → other = edge := by
  obtain ⟨p, c, t, hops, ht, hmatch, rfl⟩ := mem_actEdgeCandidates.1 hedge
  have hcount : consumerMatchCount invocations c t = 1 ↔ ∀ q : Fin invocations.length,
      (actEdgeCandidateMatches invocations q c t).isSome = true → q = p := by
    unfold consumerMatchCount
    rw [List.countP_eq_length_filter, length_filter_eq_one_iff (List.nodup_finRange _)]
    simp only [List.mem_finRange, true_and]
    have hp := Option.isSome_of_mem hmatch
    exact ⟨fun ⟨a, _, hall⟩ q hq => (hall q hq).trans (hall p hp).symm, fun h => ⟨p, hp, h⟩⟩
  refine hcount.trans ⟨fun hone other hother heq => ?_, fun honly q hq => ?_⟩
  · obtain ⟨q, c', t', hops', _, hmatch', rfl⟩ := mem_actEdgeCandidates.1 hother
    obtain rfl : c' = c := get_inj hindices (congrArg (·.2.1) heq)
    obtain rfl : t' = t := congrArg (·.2.2) heq
    obtain rfl := hone q (by rw [hmatch']; rfl)
    rw [Option.some.inj (hmatch'.symm.trans hmatch)]
  · obtain ⟨hops', hmatch'⟩ := Option.isSome_iff_exists.1 hq
    have heq := honly _ (mem_actEdgeCandidates.2 ⟨q, c, t, hops', ht, hmatch', rfl⟩) rfl
    exact get_inj hindices (congrArg (·.producerInvocationIndex) heq)

end Edges

/-! ## Exact covers -/

/-- The edges that leave a group match its invocations with different inputs one to one, and
no other edge touches an end of one of them. -/
structure ConsumerBijection (invocations : List InvocationRoutingObservation)
    (candidates : List ActEdgeCandidateObservation) (groupIndex : ℕ) : Prop where
  nonempty : groupMembers invocations groupIndex ≠ []
  producers : ((edgesFrom candidates groupIndex).map (·.producerInvocationIndex)).Perm
    ((groupMembers invocations groupIndex).map (·.invocationIndex))
  consumers : ((edgesFrom candidates groupIndex).map (·.consumer)).Nodup
  producer_only : ∀ edge ∈ edgesFrom candidates groupIndex, ∀ other ∈ candidates,
    other.producer = edge.producer → other = edge
  consumer_only : ∀ edge ∈ edgesFrom candidates groupIndex, ∀ other ∈ candidates,
    other.consumer = edge.consumer → other = edge

section Exact

variable {invocations : List InvocationRoutingObservation}
  {candidates : List ActEdgeCandidateObservation} {groupIndex : ℕ}

/-- An invocation with tensors is matched iff it has one edge, whose input has no other. -/
theorem producerMatched_iff {m : InvocationRoutingObservation} (hm : m.tensorCount ≠ 0) :
    producerMatched candidates m = true ↔
      ∃ edge, outputEdges candidates m = [edge] ∧ edge.consumerCandidateCount = 1 := by
  unfold producerMatched
  rw [decide_eq_true_eq, and_iff_right hm, length_one_and_last_iff]

theorem producerFlags_eq_zero_iff {m : InvocationRoutingObservation} :
    producerFlags candidates m = 0 ↔ producerMatched candidates m = true := by
  unfold producerFlags
  split_ifs with h
  · exact iff_of_true rfl h
  · rw [or_eq_zero_iff]
    exact iff_of_false (fun h => absurd h.1 (by decide)) h

theorem actConsumerCover_exactCover_iff :
    (actConsumerCover invocations candidates groupIndex).exactCover = true ↔
      groupMembers invocations groupIndex ≠ [] ∧
      (∀ m ∈ groupMembers invocations groupIndex, producerMatched candidates m = true) ∧
      ((countedEdges candidates groupIndex).map (·.consumer)).Nodup ∧
      (countedEdges candidates groupIndex).length =
        (groupMembers invocations groupIndex).length := by
  unfold actConsumerCover
  simp only [decide_eq_true_eq, or_eq_zero_iff, orAll_map_eq_zero_iff, producerFlags_eq_zero_iff,
    flagIf_eq_zero_iff (show actConsumerCoverInputDuplicated ≠ 0 by decide), not_not,
    length_firsts_eq_iff, List.length_filter_eq_length_iff, ne_eq, List.length_eq_zero_iff]
  constructor
  · rintro ⟨⟨hmatched, hnodup⟩, hne, -, hcount⟩
    rw [length_firsts_eq_iff.2 hnodup, List.filter_eq_self.2 hmatched] at hcount
    exact ⟨hne, hmatched, hnodup, hcount⟩
  · rintro ⟨hne, hmatched, hnodup, hcount⟩
    rw [length_firsts_eq_iff.2 hnodup, List.filter_eq_self.2 hmatched]
    exact ⟨⟨hmatched, hnodup⟩, hne, hmatched, hcount⟩

/-- Where every member has one edge, every edge of the group is counted. -/
theorem countedEdges_eq (hmatched : ∀ m ∈ groupMembers invocations groupIndex,
      ∃ edge, outputEdges (actEdgeCandidates invocations) m = [edge] ∧
        edge.consumerCandidateCount = 1) :
    countedEdges (actEdgeCandidates invocations) groupIndex =
      edgesFrom (actEdgeCandidates invocations) groupIndex := by
  unfold countedEdges edgesFrom
  refine List.filter_congr fun edge hedge => decide_eq_decide.2 ⟨fun h => h.1, fun hgroup => ?_⟩
  obtain ⟨m, hm, hproducer⟩ := exists_member (mem_edgesFrom.2 ⟨hedge, hgroup⟩)
  obtain ⟨only, honly, hcount⟩ := hmatched m hm
  have hmem : edge ∈ outputEdges (actEdgeCandidates invocations) m :=
    List.mem_filter.2 ⟨hedge, decide_eq_true hproducer⟩
  rw [honly, List.mem_singleton] at hmem
  refine ⟨hgroup, hmem ▸ hcount, ?_⟩
  unfold uniqueProducerEdge
  rw [hproducer]
  unfold outputEdges at honly
  rw [honly]
  rfl

theorem consumerBijection_iff (hindices : (invocations.map (·.invocationIndex)).Nodup) :
    ConsumerBijection invocations (actEdgeCandidates invocations) groupIndex ↔
      groupMembers invocations groupIndex ≠ [] ∧
      (∀ m ∈ groupMembers invocations groupIndex,
        ∃ edge, outputEdges (actEdgeCandidates invocations) m = [edge] ∧
          edge.consumerCandidateCount = 1) ∧
      ((edgesFrom (actEdgeCandidates invocations) groupIndex).map (·.consumer)).Nodup := by
  constructor
  · rintro ⟨hne, hproducers, hconsumers, -, honly⟩
    refine ⟨hne, fun m hm => ?_, hconsumers⟩
    have hone := ((map_perm_map_iff (nodup_groupMembers hindices)).1 hproducers).2 m hm
    rw [← outputEdges_eq hindices hm] at hone
    obtain ⟨edge, hedge⟩ := List.length_eq_one_iff.1 hone
    refine ⟨edge, hedge, ?_⟩
    have hmem : edge ∈ edgesFrom (actEdgeCandidates invocations) groupIndex :=
      List.mem_of_mem_filter (by rw [← outputEdges_eq hindices hm, hedge]; simp)
    exact (consumerCandidateCount_eq_one_iff hindices (mem_edgesFrom.1 hmem).1).2 (honly edge hmem)
  · rintro ⟨hne, hmatched, hconsumers⟩
    have honly : ∀ edge ∈ edgesFrom (actEdgeCandidates invocations) groupIndex,
        edge.consumerCandidateCount = 1 ∧ ∀ other ∈ actEdgeCandidates invocations,
          other.producer = edge.producer → other = edge := by
      intro edge hedge
      obtain ⟨m, hm, hproducer⟩ := exists_member hedge
      obtain ⟨only, hedges, hcount⟩ := hmatched m hm
      have hall : ∀ other ∈ actEdgeCandidates invocations, other.producer = edge.producer →
          other = only := by
        intro other hother heq
        have hmem : other ∈ outputEdges (actEdgeCandidates invocations) m :=
          List.mem_filter.2 ⟨hother, decide_eq_true (heq.trans hproducer)⟩
        rwa [hedges, List.mem_singleton] at hmem
      obtain rfl := hall edge (mem_edgesFrom.1 hedge).1 rfl
      exact ⟨hcount, hall⟩
    refine ⟨hne, (map_perm_map_iff (nodup_groupMembers hindices)).2 ⟨fun edge hedge => ?_,
      fun m hm => ?_⟩, hconsumers, fun edge hedge => (honly edge hedge).2, fun edge hedge => ?_⟩
    · obtain ⟨m, hm, hproducer⟩ := exists_member hedge
      exact ⟨m, hm, (congrArg (·.2.1) hproducer).symm⟩
    · obtain ⟨edge, hedges, -⟩ := hmatched m hm
      rw [← outputEdges_eq hindices hm, hedges]
      rfl
    · exact (consumerCandidateCount_eq_one_iff hindices (mem_edgesFrom.1 hedge).1).1
        (honly edge hedge).1

/-- A cover is exact iff the edges of its group match the invocations one to one. -/
theorem exactCover_iff_consumerBijection
    (hindices : (invocations.map (·.invocationIndex)).Nodup)
    (htensors : ∀ invocation ∈ invocations, 2 ≤ invocation.tensorCount) :
    (actConsumerCover invocations (actEdgeCandidates invocations) groupIndex).exactCover = true ↔
      ConsumerBijection invocations (actEdgeCandidates invocations) groupIndex := by
  have hmatched : (∀ m ∈ groupMembers invocations groupIndex,
      producerMatched (actEdgeCandidates invocations) m = true) ↔
      ∀ m ∈ groupMembers invocations groupIndex,
        ∃ edge, outputEdges (actEdgeCandidates invocations) m = [edge] ∧
          edge.consumerCandidateCount = 1 := by
    refine forall₂_congr fun m hm => producerMatched_iff ?_
    have hcount := htensors m (mem_groupMembers.1 hm).1
    omega
  rw [actConsumerCover_exactCover_iff, consumerBijection_iff hindices, hmatched]
  refine and_congr_right fun hne => and_congr_right fun hedges => ?_
  rw [countedEdges_eq hedges]
  refine ⟨fun h => h.1, fun hnodup => ⟨hnodup, ?_⟩⟩
  have hproducers := ((consumerBijection_iff hindices).2 ⟨hne, hedges, hnodup⟩).producers
  simpa using hproducers.length_eq

end Exact

/-- The consumer covers that are derived from the derived edges are exact iff the edges of
the group are a bijection, and every edge is one of the schedule. -/
theorem consumer_cover_bijection {invocations : List InvocationRoutingObservation}
    {groupCount : ℕ} {candidates : List ActEdgeCandidateObservation}
    {covers : List ActConsumerCoverObservation}
    (hindices : (invocations.map (·.invocationIndex)).Nodup)
    (hcandidates : deriveActEdgeCandidates invocations = .ok candidates)
    (hcovers : deriveActConsumerCoverObservations invocations candidates groupCount = .ok covers) :
    (∀ cover ∈ covers, cover.exactCover = true ↔
      ConsumerBijection invocations candidates cover.producerGroupIndex) ∧
    (∀ groupIndex < groupCount, ConsumerBijection invocations candidates groupIndex →
      ∃ cover ∈ covers, cover.producerGroupIndex = groupIndex ∧ cover.exactCover = true) ∧
    ∀ edge ∈ candidates, ∃ p c, EdgeJoins invocations edge p c := by
  obtain ⟨rfl, htensors⟩ := deriveActEdgeCandidates_spec hcandidates
  have hexact : ∀ {groupIndex},
      (actConsumerCover invocations (actEdgeCandidates invocations) groupIndex).exactCover = true ↔
        ConsumerBijection invocations (actEdgeCandidates invocations) groupIndex :=
    exactCover_iff_consumerBijection hindices fun invocation h => (htensors invocation h).1
  have hparticipates : ∀ {groupIndex},
      ConsumerBijection invocations (actEdgeCandidates invocations) groupIndex →
      ∃ candidate ∈ actEdgeCandidates invocations, candidate.producerGroupIndex = groupIndex := by
    intro groupIndex h
    obtain ⟨edge, hedge⟩ := List.exists_mem_of_length_pos
      (l := edgesFrom (actEdgeCandidates invocations) groupIndex) (by
        have hlen := h.producers.length_eq
        rw [List.length_map, List.length_map] at hlen
        rw [hlen]
        exact List.length_pos_of_ne_nil h.nonempty)
    exact ⟨edge, mem_edgesFrom.1 hedge⟩
  unfold deriveActConsumerCoverObservations at hcovers
  refine ⟨?_, ?_, fun edge => exists_edgeJoins⟩
  · intro cover hcover
    split_ifs at hcovers
    · cases hcovers
      cases hcover
    · obtain ⟨-, hcovers⟩ := refuseIf_bind_eq_ok_iff.1 hcovers
      obtain ⟨-, rfl⟩ := writeWithin_eq_ok_iff.1 hcovers
      obtain ⟨groupIndex, -, rfl⟩ := List.mem_map.1 hcover
      exact hexact
  · intro groupIndex hgroup hbijection
    obtain ⟨candidate, hcandidate, heq⟩ := hparticipates hbijection
    split_ifs at hcovers with hnone
    · rcases hnone with hnone | hnone
      · omega
      · rw [List.eq_nil_of_length_eq_zero hnone] at hcandidate
        cases hcandidate
    · obtain ⟨-, hcovers⟩ := refuseIf_bind_eq_ok_iff.1 hcovers
      obtain ⟨-, rfl⟩ := writeWithin_eq_ok_iff.1 hcovers
      refine ⟨_, List.mem_map.2 ⟨groupIndex, List.mem_filter.2 ⟨List.mem_range.2 hgroup, ?_⟩, rfl⟩,
        rfl, hexact.2 hbijection⟩
      exact decide_eq_true ⟨candidate, hcandidate, heq⟩

/-- Two invocations that are consumed by two of another group. -/
def exampleConsumed : List InvocationRoutingObservation :=
  [exampleInvocation 0 0 0 0 100 0 1, exampleInvocation 0 1 1 10 110 0 1,
    exampleInvocation 1 2 0 100 200 1 2, exampleInvocation 1 3 1 110 210 1 2]

theorem consumer_cover_bijection_example :
    ConsumerBijection exampleConsumed (actEdgeCandidates exampleConsumed) 0 := by
  have hcovers : deriveActConsumerCoverObservations exampleConsumed
      (actEdgeCandidates exampleConsumed) 2 =
        .ok [actConsumerCover exampleConsumed (actEdgeCandidates exampleConsumed) 0] := by
    decide +kernel
  exact ((consumer_cover_bijection (by decide) (by decide +kernel) hcovers).1 _
    List.mem_cons_self).1 (by decide +kernel)

end Npunlock
