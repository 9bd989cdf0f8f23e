import Mathlib.Data.Finset.Card
import Npunlock.ActEdges

/-!
# The schedule hop count

`act_schedule_hop_count` keeps a hop count for each barrier. A finite one never exceeds the
number of barriers that have one (`Bounded`), so the counts stay far below `UINT32_MAX` and
no invocation is skipped. Every chain to an invocation bounds the counts of the barriers it
posts (`Shortest`). With `scheduleChain_of_hopCount`, the hop count is the length of the
shortest chain (`isLeast_actScheduleHopCount`).
-/

namespace Npunlock

/-! ## Hop counts of barriers -/

section Barriers

variable {barrierHops : List ℕ} {mask hops bit : ℕ}

/-- The barriers with a hop count. -/
def postedBarriers (barrierHops : List ℕ) : Finset ℕ :=
  (Finset.range 64).filter fun bit => barrierHops.getD bit 0 ≠ uint32Max

theorem mem_postedBarriers :
    bit ∈ postedBarriers barrierHops ↔ bit < 64 ∧ barrierHops.getD bit 0 ≠ uint32Max := by
  simp [postedBarriers]

theorem card_postedBarriers_le : (postedBarriers barrierHops).card ≤ 64 := by
  refine (Finset.card_filter_le _ _).trans ?_
  simp

/-- No hop count is zero or exceeds the number of barriers that have one. -/
structure Bounded (barrierHops : List ℕ) : Prop where
  length_eq : barrierHops.length = 64
  pos : ∀ bit < 64, 0 < barrierHops.getD bit 0
  le_card : ∀ bit ∈ postedBarriers barrierHops,
    barrierHops.getD bit 0 ≤ (postedBarriers barrierHops).card

theorem Bounded.le_64 (h : Bounded barrierHops) (hbit : bit ∈ postedBarriers barrierHops) :
    barrierHops.getD bit 0 ≤ 64 :=
  (h.le_card bit hbit).trans card_postedBarriers_le

theorem minimumHops_le (hbit : bit < 64) (hmask : mask.testBit bit = true) :
    minimumHops barrierHops mask ≤ barrierHops.getD bit 0 := by
  have hfold : ∀ (bits : List ℕ) (minimum : ℕ),
      bits.foldl (fun minimum bit => if mask.testBit bit = true ∧
        barrierHops.getD bit 0 < minimum then barrierHops.getD bit 0 else minimum) minimum ≤
          minimum ∧ (bit ∈ bits → bits.foldl (fun minimum bit => if mask.testBit bit = true ∧
        barrierHops.getD bit 0 < minimum then barrierHops.getD bit 0 else minimum) minimum ≤
          barrierHops.getD bit 0) := by
    intro bits
    induction bits with
    | nil => simp
    | cons other bits ih =>
      intro minimum
      rw [List.foldl_cons]
      split_ifs with hless
      · refine ⟨(ih _).1.trans hless.2.le, fun hmem => ?_⟩
        rcases List.mem_cons.1 hmem with rfl | hmem
        · exact (ih _).1
        · exact (ih _).2 hmem
      · refine ⟨(ih _).1, fun hmem => ?_⟩
        rcases List.mem_cons.1 hmem with rfl | hmem
        · exact (ih _).1.trans (not_lt.1 fun hlt => hless ⟨hmask, hlt⟩)
        · exact (ih _).2 hmem
  exact (hfold (List.range 64) uint32Max).2 (List.mem_range.2 hbit)

@[simp] theorem length_postHops : (postHops mask hops barrierHops).length = barrierHops.length := by
  simp [postHops]

theorem getD_postHops_eq (hbit : bit < barrierHops.length) :
    (postHops mask hops barrierHops).getD bit 0 =
      if mask.testBit bit = true ∧ hops < barrierHops.getD bit 0 then hops
      else barrierHops.getD bit 0 := by
  simp [postHops, List.getD, hbit]

/-- A posted barrier keeps its hop count or gets a lower one. -/
theorem getD_postHops_le (hbit : bit < barrierHops.length) :
    (postHops mask hops barrierHops).getD bit 0 ≤ barrierHops.getD bit 0 := by
  rw [getD_postHops_eq hbit]
  split_ifs with h
  · exact h.2.le
  · exact le_rfl

theorem getD_postHops_le_hops (hbit : bit < barrierHops.length) (hmask : mask.testBit bit = true) :
    (postHops mask hops barrierHops).getD bit 0 ≤ hops := by
  rw [getD_postHops_eq hbit]
  split_ifs with h
  · exact le_rfl
  · exact not_lt.1 fun hlt => h ⟨hmask, hlt⟩

/-- The bounds stay if barriers are posted with one hop more than a wait found. -/
theorem Bounded.post (h : Bounded barrierHops) (hpos : 0 < hops)
    (hle : hops ≤ (postedBarriers barrierHops).card + 1) :
    Bounded (postHops mask hops barrierHops) := by
  have hlength : ∀ {bit}, bit < 64 → bit < barrierHops.length := fun hbit => h.length_eq.symm ▸ hbit
  have hsubset : postedBarriers barrierHops ⊆ postedBarriers (postHops mask hops barrierHops) := by
    intro bit hbit
    have hle64 := h.le_64 hbit
    have hkept : (postHops mask hops barrierHops).getD bit 0 ≤ barrierHops.getD bit 0 :=
      getD_postHops_le (hlength (mem_postedBarriers.1 hbit).1)
    refine mem_postedBarriers.2 ⟨(mem_postedBarriers.1 hbit).1, ?_⟩
    unfold uint32Max
    omega
  refine ⟨by rw [length_postHops, h.length_eq], fun bit hbit => ?_, fun bit hbit => ?_⟩
  · rw [getD_postHops_eq (hlength hbit)]
    split_ifs
    · exact hpos
    · exact h.pos bit hbit
  · obtain ⟨hlt, hposted⟩ := mem_postedBarriers.1 hbit
    rw [getD_postHops_eq (hlength hlt)] at hposted ⊢
    have hcardle := Finset.card_le_card hsubset
    by_cases hold : bit ∈ postedBarriers barrierHops
    · have hcount := h.le_card bit hold
      split_ifs with hless <;> omega
    · -- the barrier is posted for the first time, which makes room for one more hop
      have hmax : barrierHops.getD bit 0 = uint32Max := by
        by_contra hne
        exact hold (mem_postedBarriers.2 ⟨hlt, hne⟩)
      have hstrict : (postedBarriers barrierHops).card <
          (postedBarriers (postHops mask hops barrierHops)).card :=
        Finset.card_lt_card ⟨hsubset, fun hsub => hold (hsub hbit)⟩
      split_ifs at hposted ⊢ with hless
      · omega
      · exact absurd hmax hposted

end Barriers

/-! ## Shortest chains -/

section Chains

variable {invocations : List InvocationRoutingObservation} {producerIndex consumerIndex n : ℕ}
  {barrierHops : List ℕ}

/-- A chain goes forward. -/
theorem ScheduleChain.le {hops i : ℕ} (h : ScheduleChain invocations producerIndex hops i) :
    producerIndex ≤ i := by
  induction h with
  | start => exact le_rfl
  | hop _ hlt _ _ _ ih => exact ih.trans hlt.le

/-- A hop count other than zero is of an earlier producer. -/
theorem lt_of_hopCount (h : actScheduleHopCount invocations producerIndex consumerIndex ≠ 0) :
    producerIndex < consumerIndex := by
  by_contra hle
  exact h (if_pos (not_lt.1 hle))

theorem hops_of_matches {tensorIndex hops : ℕ}
    (h : actEdgeCandidateMatches invocations producerIndex consumerIndex tensorIndex = some hops) :
    hops = actScheduleHopCount invocations producerIndex consumerIndex ∧
      actScheduleHopCount invocations producerIndex consumerIndex ≠ 0 := by
  unfold actEdgeCandidateMatches at h
  split at h
  · dsimp only at h
    split_ifs at h with hmatch
    exact ⟨(Option.some.inj h).symm, by tauto⟩
  · cases h

/-- Every chain to an invocation before `n` bounds the hop counts of the barriers that the
invocation posts. -/
def Shortest (invocations : List InvocationRoutingObservation) (producerIndex n : ℕ)
    (barrierHops : List ℕ) : Prop :=
  ∀ hops i posting, i < n → invocations[i]? = some posting →
    ScheduleChain invocations producerIndex hops i →
      ∀ bit < 64, posting.postMaskRaw.testBit bit = true →
        bit ∈ postedBarriers barrierHops ∧ barrierHops.getD bit 0 ≤ hops + 1

/-- The wait masks are words of 64 bits. -/
def WaitMasksFit (invocations : List InvocationRoutingObservation) : Prop :=
  ∀ invocation ∈ invocations, invocation.waitMaskRaw < 2 ^ 64

theorem exists_common_bit {post wait : ℕ} (hwait : wait < 2 ^ 64) (h : post &&& wait ≠ 0) :
    ∃ bit < 64, post.testBit bit = true ∧ wait.testBit bit = true := by
  obtain ⟨bit, hbit⟩ := Nat.exists_testBit_of_ne_zero h
  rw [Nat.testBit_and, Bool.and_eq_true] at hbit
  refine ⟨bit, ?_, hbit⟩
  by_contra hlarge
  have hfalse := Nat.testBit_lt_two_pow
    (hwait.trans_le (Nat.pow_le_pow_right (by omega) (not_lt.1 hlarge)))
  rw [hfalse] at hbit
  exact Bool.false_ne_true hbit.2

/-- A chain to an invocation bounds the hop count that its wait finds. -/
theorem Shortest.minimumHops_le (h : Shortest invocations producerIndex n barrierHops)
    (hbounded : Bounded barrierHops) (hmasks : WaitMasksFit invocations)
    {waiting : InvocationRoutingObservation} (hwaiting : invocations[n]? = some waiting)
    (hlt : producerIndex < n) {hops : ℕ} (hchain : ScheduleChain invocations producerIndex hops n) :
    minimumHops barrierHops waiting.waitMaskRaw ≤ hops ∧
      minimumHops barrierHops waiting.waitMaskRaw ≤ 64 := by
  cases hchain with
  | start => exact absurd hlt (lt_irrefl _)
  | @hop hops i _ left right hchain hi hleft hright hbarrier =>
    obtain rfl := Option.some.inj (hwaiting.symm.trans hright)
    obtain ⟨bit, hbit, hpost, hwait⟩ :=
      exists_common_bit (hmasks waiting (List.mem_of_getElem? hwaiting)) hbarrier
    obtain ⟨hposted, hle⟩ := h hops i left hi hleft hchain bit hbit hpost
    have hminimum : minimumHops barrierHops waiting.waitMaskRaw ≤ barrierHops.getD bit 0 :=
      Npunlock.minimumHops_le hbit hwait
    exact ⟨hminimum.trans hle, hminimum.trans (hbounded.le_64 hposted)⟩

/-- What a wait finds is bounded by the number of posted barriers. -/
theorem Bounded.minimumHops_bounds (h : Bounded barrierHops) {mask : ℕ}
    (hfound : minimumHops barrierHops mask ≠ uint32Max) :
    0 < minimumHops barrierHops mask ∧
      minimumHops barrierHops mask ≤ (postedBarriers barrierHops).card := by
  rcases minimumHops_cases barrierHops mask with hnone | ⟨bit, hbit, -, heq⟩
  · exact absurd hnone hfound
  · rw [heq] at hfound ⊢
    exact ⟨h.pos bit hbit, h.le_card bit (mem_postedBarriers.2 ⟨hbit, hfound⟩)⟩

theorem Shortest.post (h : Shortest invocations producerIndex n barrierHops)
    (hbounded : Bounded barrierHops) {posting : InvocationRoutingObservation}
    (hposting : invocations[n]? = some posting) {hops : ℕ} (hsmall : hops ≤ 64)
    (hleast : ∀ k, ScheduleChain invocations producerIndex k n → hops ≤ k) :
    Shortest invocations producerIndex (n + 1)
      (postHops posting.postMaskRaw (hops + 1) barrierHops) := by
  intro k i invocation hi hinvocation hchain bit hbit hpost
  have hlength : bit < barrierHops.length := hbounded.length_eq.symm ▸ hbit
  rcases Nat.lt_succ_iff_lt_or_eq.1 hi with hi | rfl
  · obtain ⟨hposted, hle⟩ := h k i invocation hi hinvocation hchain bit hbit hpost
    have hkept : (postHops posting.postMaskRaw (hops + 1) barrierHops).getD bit 0 ≤
      barrierHops.getD bit 0 := getD_postHops_le hlength
    have hle64 := hbounded.le_64 hposted
    refine ⟨mem_postedBarriers.2 ⟨hbit, ?_⟩, hkept.trans hle⟩
    unfold uint32Max
    omega
  · obtain rfl := Option.some.inj (hposting.symm.trans hinvocation)
    have hnew : (postHops posting.postMaskRaw (hops + 1) barrierHops).getD bit 0 ≤ hops + 1 :=
      getD_postHops_le_hops hlength hpost
    have hk := hleast k hchain
    refine ⟨mem_postedBarriers.2 ⟨hbit, ?_⟩, by omega⟩
    unfold uint32Max
    omega

/-- An invocation that no chain reaches is skipped. -/
theorem Shortest.skip (h : Shortest invocations producerIndex n barrierHops)
    (hnone : ∀ k, ¬ScheduleChain invocations producerIndex k n) :
    Shortest invocations producerIndex (n + 1) barrierHops := by
  intro k i invocation hi hinvocation hchain bit hbit hpost
  rcases Nat.lt_succ_iff_lt_or_eq.1 hi with hi | rfl
  · exact h k i invocation hi hinvocation hchain bit hbit hpost
  · exact absurd hchain (hnone k)

/-- The loop over the invocations before the consumer ends with a hop count that no chain to
the consumer is shorter than. -/
theorem hopsThrough_le (hmasks : WaitMasksFit invocations)
    {consumer : InvocationRoutingObservation}
    (hconsumer : invocations[consumerIndex]? = some consumer) {k : ℕ}
    (hchain : ScheduleChain invocations producerIndex k consumerIndex) :
    ∀ {between : List InvocationRoutingObservation} {n : ℕ} {barrierHops : List ℕ},
      between = (invocations.take consumerIndex).drop n → producerIndex < n →
      n + between.length = consumerIndex → Bounded barrierHops →
      Shortest invocations producerIndex n barrierHops →
      0 < hopsThrough consumer between barrierHops ∧
        hopsThrough consumer between barrierHops ≤ k
  | [], n, barrierHops, _, hlt, hn, hbounded, hshortest => by
    obtain rfl : n = consumerIndex := by simpa using hn
    obtain ⟨hle, hsmall⟩ := hshortest.minimumHops_le hbounded hmasks hconsumer hlt hchain
    have hfound : minimumHops barrierHops consumer.waitMaskRaw ≠ uint32Max := by
      unfold uint32Max
      omega
    rw [hopsThrough, if_neg hfound]
    exact ⟨(hbounded.minimumHops_bounds hfound).1, hle⟩
  | invocation :: rest, n, barrierHops, heq, hlt, hn, hbounded, hshortest => by
    have hinvocation : invocations[n]? = some invocation := by
      have hhead := congrArg (fun l => l[0]?) heq
      rw [List.getElem?_cons_zero, List.getElem?_drop, Nat.add_zero, List.getElem?_take] at hhead
      split_ifs at hhead
      exact hhead.symm
    have hrest : rest = (invocations.take consumerIndex).drop (n + 1) := by
      rw [← List.tail_drop, ← heq, List.tail_cons]
    have hn' : n + 1 + rest.length = consumerIndex := by
      rw [← hn, List.length_cons]
      omega
    have hleast : ∀ k, ScheduleChain invocations producerIndex k n →
        minimumHops barrierHops invocation.waitMaskRaw ≤ k ∧
          minimumHops barrierHops invocation.waitMaskRaw ≤ 64 := fun k hk =>
      hshortest.minimumHops_le hbounded hmasks hinvocation hlt hk
    unfold hopsThrough
    split_ifs with hskip
    · have hnone : ∀ k, ¬ScheduleChain invocations producerIndex k n := by
        intro k hk
        have hsmall := (hleast k hk).2
        unfold uint32Max at hskip
        omega
      exact hopsThrough_le hmasks hconsumer hchain hrest (by omega) hn' hbounded
        (hshortest.skip hnone)
    · have hfound : minimumHops barrierHops invocation.waitMaskRaw ≠ uint32Max :=
        fun h => hskip (.inl h)
      obtain ⟨hpos, hcard⟩ := hbounded.minimumHops_bounds hfound
      have hsmall := hcard.trans card_postedBarriers_le
      exact hopsThrough_le hmasks hconsumer hchain hrest (by omega) hn'
        (hbounded.post (by omega) (by omega))
        (hshortest.post hbounded hinvocation hsmall fun k hk => (hleast k hk).1)

/-- No hop count exceeds the length of a chain. -/
theorem actScheduleHopCount_le (hmasks : WaitMasksFit invocations)
    (hlt : producerIndex < consumerIndex) (hconsumer : consumerIndex < invocations.length) {k : ℕ}
    (hchain : ScheduleChain invocations producerIndex k consumerIndex) :
    0 < actScheduleHopCount invocations producerIndex consumerIndex ∧
      actScheduleHopCount invocations producerIndex consumerIndex ≤ k := by
  have hunposted : ∀ bit < 64, (List.replicate 64 uint32Max).getD bit 0 = uint32Max := by
    intro bit hbit
    rw [List.getD_eq_getElem?_getD, List.getElem?_replicate_of_lt hbit, Option.getD_some]
  have hbounded : Bounded (List.replicate 64 uint32Max) := by
    refine ⟨List.length_replicate, fun bit hbit => ?_, fun bit hbit => ?_⟩
    · rw [hunposted bit hbit]
      decide
    · obtain ⟨hbit, hne⟩ := mem_postedBarriers.1 hbit
      exact absurd (hunposted bit hbit) hne
  have hnone : Shortest invocations producerIndex producerIndex (List.replicate 64 uint32Max) := by
    intro hops i posting hi _ hreached
    exact absurd hreached.le (by omega)
  have hproducer := List.getElem?_eq_getElem (hlt.trans hconsumer)
  have hlength : producerIndex + 1 +
      ((invocations.take consumerIndex).drop (producerIndex + 1)).length = consumerIndex := by
    simp
    omega
  rw [actScheduleHopCount, if_neg (not_le.2 hlt), hproducer, List.getElem?_eq_getElem hconsumer]
  exact hopsThrough_le hmasks (List.getElem?_eq_getElem hconsumer) hchain rfl (by omega) hlength
    (hbounded.post (by omega) (by omega))
    (hnone.post hbounded hproducer (Nat.zero_le _) fun _ _ => Nat.zero_le _)

end Chains

/-- The hop count of two positions is the length of the shortest chain, and zero if there is
no chain. A candidate has one hop iff the barriers of its invocations meet. -/
theorem schedule_hop_count (invocations : List InvocationRoutingObservation)
    (hmasks : WaitMasksFit invocations) :
    (∀ producerIndex consumerIndex, producerIndex < consumerIndex →
      consumerIndex < invocations.length →
        (actScheduleHopCount invocations producerIndex consumerIndex = 0 ↔
          ¬∃ k, ScheduleChain invocations producerIndex k consumerIndex) ∧
        ((∃ k, ScheduleChain invocations producerIndex k consumerIndex) →
          IsLeast {k | ScheduleChain invocations producerIndex k consumerIndex}
            (actScheduleHopCount invocations producerIndex consumerIndex))) ∧
    ∀ candidates, deriveActEdgeCandidates invocations = .ok candidates →
      ∀ candidate ∈ candidates,
        (candidate.scheduleHopCount = 1 ↔ candidate.barrierIntersectionRaw ≠ 0) := by
  constructor
  · intro producerIndex consumerIndex hlt hconsumer
    have hle := fun k (hchain : ScheduleChain invocations producerIndex k consumerIndex) =>
      actScheduleHopCount_le hmasks hlt hconsumer hchain
    refine ⟨⟨?_, fun hnone => ?_⟩, ?_⟩
    · rintro hzero ⟨k, hchain⟩
      have := (hle k hchain).1
      omega
    · by_contra hne
      exact hnone ⟨_, scheduleChain_of_hopCount hne⟩
    · rintro ⟨k, hchain⟩
      exact ⟨scheduleChain_of_hopCount (hle k hchain).1.ne', fun k hk => (hle k hk).2⟩
  · intro candidates hcandidates candidate hcandidate
    rw [(deriveActEdgeCandidates_spec hcandidates).1, mem_actEdgeCandidates] at hcandidate
    obtain ⟨p, c, tensorIndex, hops, -, hmatch, rfl⟩ := hcandidate
    obtain ⟨rfl, hne⟩ := hops_of_matches hmatch
    have hlt := lt_of_hopCount hne
    have hp : invocations[(p : ℕ)]? = some (invocations.get p) := List.getElem?_eq_getElem p.2
    have hc : invocations[(c : ℕ)]? = some (invocations.get c) := List.getElem?_eq_getElem c.2
    constructor
    · intro hone
      have hchain := scheduleChain_of_hopCount hne
      rw [show actScheduleHopCount invocations p c = 1 from hone] at hchain
      cases hchain with
      | hop hstart _ hleft hright hbarrier =>
        cases hstart
        rwa [← Option.some.inj (hp.symm.trans hleft), ← Option.some.inj (hc.symm.trans hright)]
          at hbarrier
    · intro hbarrier
      have hle := (actScheduleHopCount_le hmasks hlt c.2
        (ScheduleChain.start.hop hlt hp hc hbarrier)).2
      exact Nat.le_antisymm hle (Nat.pos_of_ne_zero hne)

/-- Three invocations, of which the second waits for the first and the third for the second. -/
def exampleSchedule : List InvocationRoutingObservation :=
  [exampleInvocation 0 0 0 0 64 1 2, exampleInvocation 1 1 0 80 128 2 4,
    exampleInvocation 2 2 0 64 192 4 8]

theorem schedule_hop_count_example :
    IsLeast {k | ScheduleChain exampleSchedule 0 k 2} (actScheduleHopCount exampleSchedule 0 2) ∧
      actScheduleHopCount exampleSchedule 0 2 = 2 := by
  have hmasks : WaitMasksFit exampleSchedule := by
    simp [WaitMasksFit, exampleSchedule, exampleInvocation]
  have htwo : actScheduleHopCount exampleSchedule 0 2 = 2 := by decide +kernel
  have hhops := (schedule_hop_count exampleSchedule hmasks).1 0 2 (by omega) (by decide)
  refine ⟨hhops.2 ?_, htwo⟩
  by_contra hnone
  have hzero := hhops.1.2 hnone
  omega

end Npunlock
