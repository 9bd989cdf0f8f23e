import Npunlock.DmaFanin

/-!
# Spills into ACT inputs

`npunlock_derive_act_dma_act_input_observations` joins the spills of the invocations with the
DMA tasks that reload them into the inputs of other groups, and compares what a group spills
with what is reloaded. `dma_act_cover_sound` : on an exact cover every invocation spills by
one task or is the replica of one that does, and the reloads read every spilled byte once.
-/

namespace Npunlock

/-! ## Reloads -/

/-- `npunlock_act_dma_act_input_candidate_observation`. -/
structure ActDmaActInputCandidateObservation where
  producerGroupIndex : ℕ
  producerInvocationIndex : ℕ
  spillDmaSectionIndex : ℕ
  spillDmaTaskIndex : ℕ
  consumerGroupIndex : ℕ
  consumerInvocationIndex : ℕ
  consumerTensorRecordIndex : ℕ
  reloadDmaSectionIndex : ℕ
  reloadDmaTaskIndex : ℕ
  reloadDmaEngineIndex : ℕ
  consumerCandidateCount : ℕ
  ddrSymbolTableIndex : ℕ
  ddrSymbolRaw : ℕ
  ddrSourceAddendRaw : ℤ
  cmxDestinationSymbolRaw : ℕ
  cmxDestinationAddendRaw : ℤ
  spanBytes : ℕ
  spillBarrierIntersectionRaw : ℕ
  consumerBarrierIntersectionRaw : ℕ
  deriving DecidableEq

/-- A spill, the invocation that produces it and the task that reloads it. -/
structure Reload where
  source : ActDmaSourceCandidateObservation
  producer : InvocationRoutingObservation
  task : DmaTaskObservation

/-- `act_dma_act_input_candidate_matches`. -/
def actDmaActInputCandidateMatches (consumer : InvocationRoutingObservation)
    (consumerTensorIndex : ℕ) (source : ActDmaSourceCandidateObservation)
    (producer : InvocationRoutingObservation) (reload : DmaTaskObservation) : Bool :=
  let producerOutput := producer.contract (producer.tensorCount - 1)
  let consumerInput := consumer.contract consumerTensorIndex
  let consumerRouting := consumer.routing consumerTensorIndex
  let spillStart := source.ddrDestinationAddendRaw.toNat
  let reloadStart := reload.source.addendRaw.toNat
  producer.tensorCount ≠ 0 ∧ consumerTensorIndex + 1 < consumer.tensorCount ∧
    source.spanBytes ≠ 0 ∧ source.spanBytes ≤ uint32Max ∧ 0 ≤ source.ddrDestinationAddendRaw ∧
    0 ≤ reload.source.addendRaw ∧ reload.lengthBytes ≠ 0 ∧
    spillStart ≤ uint64Max - source.spanBytes ∧ reloadStart ≤ uint64Max - reload.lengthBytes ∧
    source.actGroupIndex = producer.groupIndex ∧
    source.actInvocationIndex = producer.invocationIndex ∧
    source.actTensorRecordIndex = producer.tensorCount - 1 ∧
    producer.groupIndex ≠ consumer.groupIndex ∧
    producerOutput.role = patchblobTensorRoleOutputV2 ∧
    consumerInput.role = patchblobTensorRoleInputV2 ∧
    producerOutput.precision = consumerInput.precision ∧
    dmaTaskIsSimpleContiguous reload = true ∧ reload.source.memoryKind = .ddrBuffer ∧
    reload.source.relocationType = rVpu64 ∧ reload.sourceValueRaw = 0 ∧
    reload.source.symbolTableIndex = source.ddrSymbolTableIndex ∧
    reload.source.symbolRaw = source.ddrSymbolRaw ∧ spillStart ≤ reloadStart ∧
    reloadStart + reload.lengthBytes ≤ spillStart + source.spanBytes ∧
    reload.destination.memoryKind = .cmx ∧ reload.destination.relocationType = rVpu64 ∧
    reload.destinationValueRaw = 0 ∧ reload.destination.symbolRaw = consumerRouting.dataSymbol ∧
    reload.destination.addendRaw = consumerRouting.dataAddend ∧
    reload.lengthBytes = consumerInput.spanBytes ∧
    source.dmaPostMaskRaw &&& reload.waitMaskRaw ≠ 0 ∧
    reload.postMaskRaw &&& consumer.waitMaskRaw ≠ 0

/-- The record that is written for a match. -/
def actDmaActInputCandidate (consumer : InvocationRoutingObservation)
    (consumerTensorIndex localCount : ℕ) (reload : Reload) :
    ActDmaActInputCandidateObservation where
  producerGroupIndex := reload.producer.groupIndex
  producerInvocationIndex := reload.producer.invocationIndex
  spillDmaSectionIndex := reload.source.dmaSectionIndex
  spillDmaTaskIndex := reload.source.dmaTaskIndex
  consumerGroupIndex := consumer.groupIndex
  consumerInvocationIndex := consumer.invocationIndex
  consumerTensorRecordIndex := consumerTensorIndex
  reloadDmaSectionIndex := reload.task.sectionIndex
  reloadDmaTaskIndex := reload.task.taskIndex
  reloadDmaEngineIndex := reload.task.engineIndex
  consumerCandidateCount := localCount
  ddrSymbolTableIndex := reload.source.ddrSymbolTableIndex
  ddrSymbolRaw := reload.source.ddrSymbolRaw
  ddrSourceAddendRaw := reload.task.source.addendRaw
  cmxDestinationSymbolRaw := reload.task.destination.symbolRaw
  cmxDestinationAddendRaw := reload.task.destination.addendRaw
  spanBytes := reload.task.lengthBytes
  spillBarrierIntersectionRaw := reload.source.dmaPostMaskRaw &&& reload.task.waitMaskRaw
  consumerBarrierIntersectionRaw := reload.task.postMaskRaw &&& consumer.waitMaskRaw

section Candidates

variable (invocations : List InvocationRoutingObservation) (tasks : List DmaTaskObservation)
  (sources : List ActDmaSourceCandidateObservation)

/-- The reloads into an input. -/
def inputReloads (consumer : InvocationRoutingObservation) (consumerTensorIndex : ℕ) :
    List Reload :=
  sources.flatMap fun source =>
    (invocations.filter fun producer =>
      producer.invocationIndex = source.actInvocationIndex).flatMap fun producer =>
        (tasks.filter (actDmaActInputCandidateMatches consumer consumerTensorIndex source
          producer)).map (Reload.mk source producer)

/-- The records of an input. -/
def inputReloadCandidates (consumer : InvocationRoutingObservation) (consumerTensorIndex : ℕ) :
    List ActDmaActInputCandidateObservation :=
  (inputReloads invocations tasks sources consumer consumerTensorIndex).map
    (actDmaActInputCandidate consumer consumerTensorIndex
      (inputReloads invocations tasks sources consumer consumerTensorIndex).length)

/-- The inputs of an invocation. -/
def inputIndices (consumer : InvocationRoutingObservation) : List ℕ :=
  List.range (consumer.tensorCount - 1)

/-- The records of a consumer. -/
def reloadCandidatesOf (consumer : InvocationRoutingObservation) :
    List ActDmaActInputCandidateObservation :=
  (inputIndices consumer).flatMap (inputReloadCandidates invocations tasks sources consumer)

/-- The number of matches that the first pass counts. -/
def countReloads : ℕ :=
  (invocations.map fun consumer => ((inputIndices consumer).map fun consumerTensorIndex =>
    (sources.map fun source => ((invocations.filter fun producer =>
      producer.invocationIndex = source.actInvocationIndex).map fun producer =>
        tasks.countP (actDmaActInputCandidateMatches consumer consumerTensorIndex source
          producer)).sum).sum).sum).sum

end Candidates

/-! ## Covers -/

/-- `npunlock_act_dma_act_input_cover_observation`. -/
structure ActDmaActInputCoverObservation where
  producerGroupIndex : ℕ
  producerInvocationCount : ℕ
  routedProducerInvocationCount : ℕ
  replicaProducerInvocationCount : ℕ
  consumerGroupCount : ℕ
  consumerInputCount : ℕ
  unresolvedFlags : ℕ
  ddrSpanBytes : ℕ
  exactCover : Bool
  deriving DecidableEq

/-- `NPUNLOCK_ACT_DMA_ACT_SOURCE_UNCLASSIFIED`. -/
def actDmaActSourceUnclassified : ℕ := 1

/-- `NPUNLOCK_ACT_DMA_ACT_SOURCE_AMBIGUOUS`. -/
def actDmaActSourceAmbiguous : ℕ := 2

/-- `NPUNLOCK_ACT_DMA_ACT_REPLICA_UNRESOLVED`. -/
def actDmaActReplicaUnresolved : ℕ := 4

/-- `NPUNLOCK_ACT_DMA_ACT_DDR_COVER_UNRESOLVED`. -/
def actDmaActDdrCoverUnresolved : ℕ := 8

/-- `NPUNLOCK_ACT_DMA_ACT_CONSUMER_AMBIGUOUS`. -/
def actDmaActConsumerAmbiguous : ℕ := 16

/-- `NPUNLOCK_ACT_DMA_ACT_RELOAD_TASK_REUSED`. -/
def actDmaActReloadTaskReused : ℕ := 32

/-- The section and the index of the reload task of a candidate. -/
def ActDmaActInputCandidateObservation.reload (candidate : ActDmaActInputCandidateObservation) :
    ℕ × ℕ :=
  (candidate.reloadDmaSectionIndex, candidate.reloadDmaTaskIndex)

/-- The DDR symbol of a spill. -/
def ActDmaSourceCandidateObservation.ddrSymbol (source : ActDmaSourceCandidateObservation) :
    ℕ × ℕ :=
  (source.ddrSymbolTableIndex, source.ddrSymbolRaw)

/-- The bytes that a reload reads, if they are addressable. -/
def reloadInterval (candidate : ActDmaActInputCandidateObservation) : Option OutputByteInterval :=
  if candidate.ddrSourceAddendRaw < 0 then none
  else byteInterval candidate.ddrSourceAddendRaw.toNat candidate.spanBytes

/-- The members of a group that are routed, with their spills, and those that are not. -/
structure SpillSelection where
  routed : List (InvocationRoutingObservation × ActDmaSourceCandidateObservation)
  unrouted : List InvocationRoutingObservation
  flags : ℕ

/-- `consumer_intervals` and the counters, with the candidates that were looked at. -/
structure ReloadCount where
  earlier : List ActDmaActInputCandidateObservation
  intervals : List OutputByteInterval
  inputCount : ℕ
  groupCount : ℕ
  flags : ℕ

section Covers

variable (invocations : List InvocationRoutingObservation)
  (sources : List ActDmaSourceCandidateObservation)

/-- The candidates of an invocation of a group. -/
def spillSources (groupIndex : ℕ) (invocation : InvocationRoutingObservation) :
    List ActDmaSourceCandidateObservation :=
  sources.filter fun source => source.actGroupIndex = groupIndex ∧
    source.actInvocationIndex = invocation.invocationIndex

/-- The spill cannot be selected after those that are. -/
def spillConflicts
    (routed : List (InvocationRoutingObservation × ActDmaSourceCandidateObservation))
    (selected : ActDmaSourceCandidateObservation) : Bool :=
  (∃ prior ∈ routed, prior.2.task = selected.task) ∨ spillInterval selected = none ∨
    ∃ first ∈ routed.head?, first.2.ddrSymbol ≠ selected.ddrSymbol

/-- One round of the loop that selects the spills of a group. -/
def selectSpill (groupIndex : ℕ) (selection : SpillSelection)
    (invocation : InvocationRoutingObservation) : SpillSelection :=
  let unrouted := selection.unrouted ++ [invocation]
  match spillSources sources groupIndex invocation with
  | [] => { selection with unrouted := unrouted }
  | [selected] =>
    if selected.dmaCandidateCount ≠ 1 then
      { selection with
        unrouted := unrouted, flags := selection.flags ||| actDmaActSourceAmbiguous }
    else if spillConflicts selection.routed selected = true then
      { selection with
        unrouted := unrouted, flags := selection.flags ||| actDmaActDdrCoverUnresolved }
    else { selection with routed := selection.routed ++ [(invocation, selected)] }
  | _ => { selection with
      unrouted := unrouted, flags := selection.flags ||| actDmaActSourceAmbiguous }

/-- The spills that are selected for a group. -/
def spillSelection (groupIndex : ℕ) : SpillSelection :=
  (groupMembers invocations groupIndex).foldl (selectSpill sources groupIndex) ⟨[], [], 0⟩

/-- The routed members that a member is a replica of. -/
def routedReplicas
    (routed : List (InvocationRoutingObservation × ActDmaSourceCandidateObservation))
    (invocation : InvocationRoutingObservation) : List InvocationRoutingObservation :=
  (routed.map (·.1)).filter fun other => (replicaContractsMatch invocation other).isSome

/-- The candidates that a cover counts, unless they are in conflict. -/
def unambiguousReloads (candidates : List ActDmaActInputCandidateObservation) (groupIndex : ℕ) :
    List ActDmaActInputCandidateObservation :=
  candidates.filter fun candidate => candidate.producerGroupIndex = groupIndex ∧
    candidate.consumerCandidateCount = 1

/-- The first spill with the names that a candidate has. -/
def reloadSource (candidate : ActDmaActInputCandidateObservation) :
    Option ActDmaSourceCandidateObservation :=
  sources.find? fun possible => possible.actGroupIndex = candidate.producerGroupIndex ∧
    possible.actInvocationIndex = candidate.producerInvocationIndex ∧
    possible.dmaSectionIndex = candidate.spillDmaSectionIndex ∧
    possible.dmaTaskIndex = candidate.spillDmaTaskIndex

/-- One round of the loop that counts the reloads. A selected spill is the only one of its
invocation, so that comparing values is comparing the places. -/
def countReload (routed : List (InvocationRoutingObservation × ActDmaSourceCandidateObservation))
    (count : ReloadCount) (candidate : ActDmaActInputCandidateObservation) : ReloadCount :=
  let next := { count with earlier := count.earlier ++ [candidate] }
  match reloadSource sources candidate, reloadInterval candidate with
  | some source, some interval =>
    if source ∉ routed.map (·.2) then next
    else if ∃ earlier ∈ count.earlier, earlier.reload = candidate.reload then
      { next with flags := count.flags ||| actDmaActReloadTaskReused }
    else
      { next with
        intervals := count.intervals ++ [interval]
        inputCount := count.inputCount + 1
        groupCount := count.groupCount + if ∃ earlier ∈ count.earlier,
          earlier.consumerGroupIndex = candidate.consumerGroupIndex then 0 else 1 }
  | _, _ => next

/-- The reloads that are counted for a group. -/
def reloadCount (candidates : List ActDmaActInputCandidateObservation) (groupIndex : ℕ) :
    ReloadCount :=
  (unambiguousReloads candidates groupIndex).foldl
    (countReload sources (spillSelection invocations sources groupIndex).routed) ⟨[], [], 0, 0, 0⟩

/-- The span of the spills of a group, if the reloads have the same. -/
def reloadedSpan (routed : List (InvocationRoutingObservation × ActDmaSourceCandidateObservation))
    (intervals : List OutputByteInterval) : Option OutputByteInterval :=
  match mergeOutputByteIntervals (routed.filterMap fun member => spillInterval member.2),
    mergeOutputByteIntervals intervals with
  | ([spill], false), ([reload], false) => if spill = reload then some spill else none
  | _, _ => none

/-- The observation of a group. -/
def actDmaActInputCover (candidates : List ActDmaActInputCandidateObservation)
    (groupIndex : ℕ) : ActDmaActInputCoverObservation :=
  let members := groupMembers invocations groupIndex
  let selection := spillSelection invocations sources groupIndex
  let replicas := selection.unrouted.filter fun invocation =>
    (routedReplicas selection.routed invocation).length = 1
  let count := reloadCount invocations sources candidates groupIndex
  let flags := selection.flags |||
    flagIf (replicas.length ≠ selection.unrouted.length) actDmaActReplicaUnresolved |||
    flagIf (selection.routed.length = 0) actDmaActSourceUnclassified |||
    flagIf (∃ candidate ∈ candidates, candidate.producerGroupIndex = groupIndex ∧
      1 < candidate.consumerCandidateCount) actDmaActConsumerAmbiguous |||
    count.flags
  let span := if selection.routed.length = 0 ∨ count.intervals.length = 0 ∨
      selection.routed.length + replicas.length ≠ members.length then none
    else reloadedSpan selection.routed count.intervals
  let flags := flags ||| flagIf (span = none) actDmaActDdrCoverUnresolved
  { producerGroupIndex := groupIndex
    producerInvocationCount := members.length
    routedProducerInvocationCount := selection.routed.length
    replicaProducerInvocationCount := replicas.length
    consumerGroupCount := count.groupCount
    consumerInputCount := count.inputCount
    unresolvedFlags := flags
    ddrSpanBytes := (span.map fun ddr => ddr.stop - ddr.start).getD 0
    exactCover := flags = 0 ∧ count.groupCount ≠ 0 ∧ count.inputCount ≠ 0 }

/-- `work_bound` of the reloads. -/
def actDmaActWorkBound (taskCount groupCount : ℕ) : Option ℕ := do
  let workBound ← checkedMulSize sources.length invocations.length
  let workBound ← checkedMulSize workBound patchblobTargetV2MaxTensors
  let workBound ← checkedMulSize workBound taskCount
  let workBound ← checkedMulSize workBound 3
  let workTerm ← checkedMulSize groupCount invocations.length
  checkedAddSize workBound workTerm

/-- `npunlock_derive_act_dma_act_input_observations`. -/
def deriveActDmaActInputObservations (tasks : List DmaTaskObservation) (groupCount : ℕ) :
    Result (List ActDmaActInputCandidateObservation × List ActDmaActInputCoverObservation) := do
  refuseIf (¬withinWorkBound (actDmaActWorkBound invocations sources tasks.length groupCount))
    (unsupported "ACT/DMA/ACT analysis exceeds its work bound")
  let resultCount := countReloads invocations tasks sources
  refuseIf (sizeMax < resultCount) (unsupported "ACT/DMA/ACT candidate count overflows")
  refuseIf (∃ consumer ∈ invocations, ∃ consumerTensorIndex ∈ inputIndices consumer,
      uint32Max < (inputReloads invocations tasks sources consumer consumerTensorIndex).length)
    (unsupported "ACT/DMA/ACT ambiguity exceeds the supported range")
  let candidates := invocations.flatMap (reloadCandidatesOf invocations tasks sources)
  refuseIf (candidates.length ≠ resultCount)
    (unsupported "ACT/DMA/ACT candidate count changed during inspection")
  .ok (candidates, (sourceGroups sources groupCount).map
    (actDmaActInputCover invocations sources candidates))

end Covers

/-! ## Selected spills -/

section Selection

variable {sources : List ActDmaSourceCandidateObservation} {groupIndex : ℕ}

/-- The routed members have one candidate each, the others none, and the spills are different
tasks that write addressable bytes of one symbol. -/
structure Selects (sources : List ActDmaSourceCandidateObservation) (groupIndex : ℕ)
    (members : List InvocationRoutingObservation) (selection : SpillSelection) : Prop where
  classified : ∀ invocation ∈ members, (spillSources sources groupIndex invocation).length ≤ 1
  routed_eq : selection.routed.map (·.1) = members.filter fun invocation =>
    (spillSources sources groupIndex invocation).length = 1
  unrouted_eq : selection.unrouted = members.filter fun invocation =>
    (spillSources sources groupIndex invocation).length = 0
  one_source : ∀ member ∈ selection.routed,
    spillSources sources groupIndex member.1 = [member.2] ∧ member.2.dmaCandidateCount = 1
  tasks_ne : (selection.routed.map (·.2.task)).Nodup
  addressable : ∀ member ∈ selection.routed, spillInterval member.2 ≠ none
  symbol_eq : ∀ member ∈ selection.routed, ∀ first ∈ selection.routed.head?,
    member.2.ddrSymbol = first.2.ddrSymbol

variable {members : List InvocationRoutingObservation} {selection : SpillSelection}
  {invocation : InvocationRoutingObservation}

theorem Selects.append_unrouted (h : Selects sources groupIndex members selection)
    (hnone : spillSources sources groupIndex invocation = []) :
    Selects sources groupIndex (members ++ [invocation])
      { selection with unrouted := selection.unrouted ++ [invocation] } := by
  refine ⟨?_, ?_, ?_, h.one_source, h.tasks_ne, h.addressable, h.symbol_eq⟩
  · refine List.forall_mem_append.2 ⟨h.classified, List.forall_mem_singleton.2 ?_⟩
    rw [hnone]
    exact Nat.zero_le _
  · rw [List.filter_append, h.routed_eq]
    simp [hnone]
  · rw [List.filter_append, ← h.unrouted_eq]
    simp [hnone]

theorem Selects.append_routed {selected : ActDmaSourceCandidateObservation}
    (h : Selects sources groupIndex members selection)
    (hone : spillSources sources groupIndex invocation = [selected])
    (hcount : selected.dmaCandidateCount = 1)
    (hconflict : ¬spillConflicts selection.routed selected = true) :
    Selects sources groupIndex (members ++ [invocation])
      { selection with routed := selection.routed ++ [(invocation, selected)] } := by
  have hnot := of_decide_eq_false (Bool.eq_false_iff.2 hconflict)
  simp only [not_or, not_exists, not_and, not_not] at hnot
  obtain ⟨hreused, hinterval, hfirst⟩ := hnot
  constructor
  case classified =>
    refine List.forall_mem_append.2 ⟨h.classified, List.forall_mem_singleton.2 ?_⟩
    rw [hone]
    exact le_rfl
  case routed_eq =>
    rw [List.map_append, List.filter_append, h.routed_eq]
    simp [hone]
  case unrouted_eq =>
    rw [List.filter_append, ← h.unrouted_eq]
    simp [hone]
  case one_source =>
    exact List.forall_mem_append.2 ⟨h.one_source, List.forall_mem_singleton.2 ⟨hone, hcount⟩⟩
  case tasks_ne =>
    rw [List.map_append, List.nodup_append]
    refine ⟨h.tasks_ne, List.nodup_singleton _, ?_⟩
    rintro task htask other hother rfl
    obtain ⟨prior, hprior, rfl⟩ := List.mem_map.1 htask
    exact hreused prior hprior (List.mem_singleton.1 hother)
  case addressable =>
    exact List.forall_mem_append.2 ⟨h.addressable, List.forall_mem_singleton.2 hinterval⟩
  case symbol_eq =>
    intro member hmember first hhead
    dsimp only at hmember hhead
    -- the first of the routed members sets the symbol, and is the new one if there is no other
    cases hlist : selection.routed with
    | nil =>
      rw [hlist] at hmember hhead
      rw [List.mem_singleton.1 hmember, ← Option.some.inj hhead]
    | cons prior rest =>
      rw [hlist] at hhead
      obtain rfl : prior = first := Option.some.inj hhead
      have hprior : prior ∈ selection.routed.head? := by
        rw [hlist]
        rfl
      rcases List.mem_append.1 hmember with hmember | hmember
      · exact h.symbol_eq member hmember prior hprior
      · rw [List.mem_singleton.1 hmember]
        exact (hfirst prior hprior).symm

/-- A round without a flag was made without flags, and classifies the member. -/
theorem Selects.step (h : selection.flags = 0 → Selects sources groupIndex members selection)
    (hflags : (selectSpill sources groupIndex selection invocation).flags = 0) :
    Selects sources groupIndex (members ++ [invocation])
      (selectSpill sources groupIndex selection invocation) := by
  unfold selectSpill at hflags ⊢
  dsimp only at hflags ⊢
  split at hflags
  · rename_i hnone
    exact (h hflags).append_unrouted hnone
  · rename_i selected hone
    split_ifs at hflags ⊢ with hcount hconflict
    · exact absurd (or_eq_zero_iff.1 hflags).2 (by decide)
    · exact absurd (or_eq_zero_iff.1 hflags).2 (by decide)
    · exact (h hflags).append_routed hone (not_not.1 hcount) hconflict
  · exact absurd (or_eq_zero_iff.1 hflags).2 (by decide)

/-- A loop that ends without flags has classified the members. -/
theorem selects_of_flags (members : List InvocationRoutingObservation)
    (h : (members.foldl (selectSpill sources groupIndex) ⟨[], [], 0⟩).flags = 0) :
    Selects sources groupIndex members
      (members.foldl (selectSpill sources groupIndex) ⟨[], [], 0⟩) := by
  induction members using List.reverseRecOn with
  | nil =>
    constructor
    case tasks_ne => exact List.nodup_nil
    all_goals simp
  | append_singleton members invocation ih =>
    rw [List.foldl_append, List.foldl_cons, List.foldl_nil] at h ⊢
    exact Selects.step ih h

end Selection

/-! ## Counted reloads -/

section Counting

variable {sources : List ActDmaSourceCandidateObservation}
  {routed : List (InvocationRoutingObservation × ActDmaSourceCandidateObservation)}

/-- All candidates are counted : they reload different tasks, and the groups are counted
once each. -/
structure CountsAll (candidates : List ActDmaActInputCandidateObservation)
    (count : ReloadCount) : Prop where
  earlier_eq : count.earlier = candidates
  intervals_eq : count.intervals = candidates.filterMap reloadInterval
  inputCount_eq : count.inputCount = candidates.length
  groupCount_eq : count.groupCount = (candidates.map (·.consumerGroupIndex)).toFinset.card
  reloads_ne : (candidates.map (·.reload)).Nodup

/-- The candidate reloads a selected spill, from addressable bytes. -/
def Reachable (sources : List ActDmaSourceCandidateObservation)
    (routed : List (InvocationRoutingObservation × ActDmaSourceCandidateObservation))
    (candidate : ActDmaActInputCandidateObservation) : Prop :=
  (∃ source ∈ routed.map (·.2), reloadSource sources candidate = some source) ∧
    ∃ interval, reloadInterval candidate = some interval

/-- A round without a flag counts a reachable candidate. -/
theorem CountsAll.step {candidates : List ActDmaActInputCandidateObservation}
    {count : ReloadCount} {candidate : ActDmaActInputCandidateObservation}
    (h : count.flags = 0 → CountsAll candidates count)
    (hreachable : Reachable sources routed candidate)
    (hflags : (countReload sources routed count candidate).flags = 0) :
    CountsAll (candidates ++ [candidate]) (countReload sources routed count candidate) := by
  obtain ⟨⟨source, hmem, hsource⟩, interval, hinterval⟩ := hreachable
  unfold countReload at hflags ⊢
  rw [hsource, hinterval] at hflags ⊢
  dsimp only at hflags ⊢
  rw [if_neg (not_not.2 hmem)] at hflags ⊢
  by_cases hreused : ∃ earlier ∈ count.earlier, earlier.reload = candidate.reload
  · rw [if_pos hreused] at hflags
    exact absurd (or_eq_zero_iff.1 hflags).2 (by decide)
  · rw [if_neg hreused] at hflags ⊢
    obtain ⟨rfl, hintervals, hinput, hgroups, hreloads⟩ := h hflags
    constructor
    case earlier_eq => rfl
    case intervals_eq =>
      rw [List.filterMap_append, ← hintervals]
      simp [hinterval]
    case inputCount_eq =>
      rw [List.length_append, ← hinput]
      rfl
    case groupCount_eq => rw [card_keys_append, ← hgroups]
    case reloads_ne =>
      rw [List.map_append, List.nodup_append]
      refine ⟨hreloads, List.nodup_singleton _, ?_⟩
      rintro task htask other hother rfl
      obtain ⟨earlier, hearlier, rfl⟩ := List.mem_map.1 htask
      exact hreused ⟨earlier, hearlier, List.mem_singleton.1 hother⟩

/-- A loop that ends without flags has counted all candidates, if they are reachable. -/
theorem countsAll_of_flags (candidates : List ActDmaActInputCandidateObservation)
    (hreachable : ∀ candidate ∈ candidates, Reachable sources routed candidate)
    (h : (candidates.foldl (countReload sources routed) ⟨[], [], 0, 0, 0⟩).flags = 0) :
    CountsAll candidates (candidates.foldl (countReload sources routed) ⟨[], [], 0, 0, 0⟩) := by
  induction candidates using List.reverseRecOn with
  | nil => exact ⟨rfl, rfl, rfl, rfl, List.nodup_nil⟩
  | append_singleton candidates candidate ih =>
    obtain ⟨hall, hlast⟩ := List.forall_mem_append.1 hreachable
    rw [List.foldl_append, List.foldl_cons, List.foldl_nil] at h ⊢
    exact CountsAll.step (ih hall) (hlast candidate List.mem_cons_self) h

end Counting

/-! ## Derived candidates -/

section Derived

variable {invocations : List InvocationRoutingObservation} {tasks : List DmaTaskObservation}
  {sources : List ActDmaSourceCandidateObservation} {groupIndex consumerTensorIndex : ℕ}
  {consumer : InvocationRoutingObservation}

/-- The candidates of a member are those that were made for it. -/
theorem spillSources_eq (hindices : (invocations.map (·.invocationIndex)).Nodup)
    {invocation : InvocationRoutingObservation}
    (hmem : invocation ∈ groupMembers invocations groupIndex) :
    spillSources (invocations.flatMap (dmaSourcesOf tasks)) groupIndex invocation =
      dmaSourcesOf tasks invocation := by
  obtain ⟨hinvocation, hgroup⟩ := mem_groupMembers.1 hmem
  have hkey : ∀ act, ∀ source ∈ dmaSourcesOf tasks act,
      source.actGroupIndex = act.groupIndex ∧ source.actInvocationIndex = act.invocationIndex := by
    intro act source hsource
    obtain ⟨dma, -, rfl⟩ := mem_dmaSourcesOf.1 hsource
    exact ⟨rfl, rfl⟩
  unfold spillSources
  rw [filter_flatMap_eq (List.Nodup.of_map _ hindices) hinvocation, List.filter_eq_self]
  · intro source hsource
    obtain ⟨hg, hi⟩ := hkey invocation source hsource
    exact decide_eq_true ⟨hg.trans hgroup, hi⟩
  · intro other hother hne source hsource
    refine decide_eq_false fun h => hne ?_
    exact eq_of_invocationIndex_eq hindices hother hinvocation
      ((hkey other source hsource).2.symm.trans h.2)

theorem length_dmaSourcesOf {invocation : InvocationRoutingObservation} :
    (dmaSourcesOf tasks invocation).length = (spillTasks tasks invocation).length := by
  unfold dmaSourcesOf
  rw [List.length_map]

theorem mem_inputReloads {reload : Reload} :
    reload ∈ inputReloads invocations tasks sources consumer consumerTensorIndex ↔
      reload.source ∈ sources ∧ reload.producer ∈ invocations ∧ reload.task ∈ tasks ∧
        actDmaActInputCandidateMatches consumer consumerTensorIndex reload.source
          reload.producer reload.task = true := by
  simp only [inputReloads, List.mem_flatMap, List.mem_map, List.mem_filter, decide_eq_true_eq]
  constructor
  · rintro ⟨source, hsource, producer, ⟨hproducer, -⟩, task, ⟨htask, hmatch⟩, rfl⟩
    exact ⟨hsource, hproducer, htask, hmatch⟩
  · rintro ⟨hsource, hproducer, htask, hmatch⟩
    refine ⟨_, hsource, _, ⟨hproducer, ?_⟩, _, ⟨htask, hmatch⟩, rfl⟩
    unfold actDmaActInputCandidateMatches at hmatch
    obtain ⟨-, -, -, -, -, -, -, -, -, -, hindex, -⟩ := of_decide_eq_true hmatch
    exact hindex.symm

theorem mem_reloadCandidates {candidate : ActDmaActInputCandidateObservation} :
    candidate ∈ invocations.flatMap (reloadCandidatesOf invocations tasks sources) ↔
      ∃ consumer ∈ invocations, ∃ consumerTensorIndex ∈ inputIndices consumer,
        ∃ reload ∈ inputReloads invocations tasks sources consumer consumerTensorIndex,
          actDmaActInputCandidate consumer consumerTensorIndex
            (inputReloads invocations tasks sources consumer consumerTensorIndex).length reload =
              candidate := by
  simp only [reloadCandidatesOf, inputReloadCandidates, List.mem_flatMap, List.mem_map]

/-- The candidates of an input are those that were made for it. -/
theorem filter_reloadCandidates (hindices : (invocations.map (·.invocationIndex)).Nodup)
    (hconsumer : consumer ∈ invocations) (htensor : consumerTensorIndex ∈ inputIndices consumer) :
    ((invocations.flatMap (reloadCandidatesOf invocations tasks sources)).filter
      fun other => other.consumerInvocationIndex = consumer.invocationIndex ∧
        other.consumerTensorRecordIndex = consumerTensorIndex) =
      inputReloadCandidates invocations tasks sources consumer consumerTensorIndex := by
  have hkey : ∀ consumer tensorIndex, ∀ other ∈ inputReloadCandidates invocations tasks sources
      consumer tensorIndex, other.consumerInvocationIndex = consumer.invocationIndex ∧
        other.consumerTensorRecordIndex = tensorIndex := by
    intro consumer tensorIndex other hother
    obtain ⟨reload, -, rfl⟩ := List.mem_map.1 hother
    exact ⟨rfl, rfl⟩
  have hinputs : (inputIndices consumer).Nodup := List.nodup_range
  rw [filter_flatMap_eq (List.Nodup.of_map _ hindices) hconsumer]
  · unfold reloadCandidatesOf
    rw [filter_flatMap_eq hinputs htensor, List.filter_eq_self]
    · exact fun other hother => decide_eq_true (hkey _ _ other hother)
    · intro tensorIndex _ hne other hother
      exact decide_eq_false fun h => hne ((hkey _ _ other hother).2.symm.trans h.2)
  · intro act hact hne other hother
    obtain ⟨tensorIndex, -, hother⟩ := List.mem_flatMap.1 hother
    refine decide_eq_false fun h => hne ?_
    exact eq_of_invocationIndex_eq hindices hact hconsumer
      ((hkey _ _ other hother).1.symm.trans h.1)

/-- A candidate copies bytes of a spill to an input, after the spill and before the consumer,
and no other candidate does so. -/
structure ReloadsInput (candidates : List ActDmaActInputCandidateObservation)
    (candidate : ActDmaActInputCandidateObservation) (consumer : InvocationRoutingObservation)
    (spill : InvocationRoutingObservation × ActDmaSourceCandidateObservation)
    (task : DmaTaskObservation) : Prop where
  reload_eq : candidate.reload = task.task
  consumer_eq : candidate.consumerInvocationIndex = consumer.invocationIndex ∧
    candidate.consumerGroupIndex = consumer.groupIndex
  input_lt : candidate.consumerTensorRecordIndex + 1 < consumer.tensorCount
  producer_eq : candidate.producerInvocationIndex = spill.1.invocationIndex ∧
    (candidate.spillDmaSectionIndex, candidate.spillDmaTaskIndex) = spill.2.task
  symbol_eq : (task.source.symbolTableIndex, task.source.symbolRaw) = spill.2.ddrSymbol
  inside : ∃ written read, spillInterval spill.2 = some written ∧
    reloadInterval candidate = some read ∧
    read = ⟨task.source.addendRaw.toNat, task.source.addendRaw.toNat + task.lengthBytes⟩ ∧
    written.start ≤ read.start ∧ read.stop ≤ written.stop
  destination_eq : task.destination.memoryKind = .cmx ∧
    task.destination.symbolRaw = (consumer.routing candidate.consumerTensorRecordIndex).dataSymbol ∧
    task.destination.addendRaw = (consumer.routing candidate.consumerTensorRecordIndex).dataAddend ∧
    task.lengthBytes = (consumer.contract candidate.consumerTensorRecordIndex).spanBytes
  after_spill : spill.2.dmaPostMaskRaw &&& task.waitMaskRaw ≠ 0
  before_consumer : task.postMaskRaw &&& consumer.waitMaskRaw ≠ 0
  only : (candidates.filter fun other =>
    other.consumerInvocationIndex = candidate.consumerInvocationIndex ∧
      other.consumerTensorRecordIndex = candidate.consumerTensorRecordIndex) = [candidate]

theorem reloadInterval_eq_some {candidate : ActDmaActInputCandidateObservation}
    (hnonneg : 0 ≤ candidate.ddrSourceAddendRaw)
    (hle : candidate.ddrSourceAddendRaw.toNat ≤ uint64Max - candidate.spanBytes) :
    reloadInterval candidate = some ⟨candidate.ddrSourceAddendRaw.toNat,
      candidate.ddrSourceAddendRaw.toNat + candidate.spanBytes⟩ := by
  unfold reloadInterval byteInterval
  rw [if_neg (not_lt.2 hnonneg), if_neg (not_lt.2 hle)]

theorem spillInterval_eq_some {source : ActDmaSourceCandidateObservation}
    (hnonneg : 0 ≤ source.ddrDestinationAddendRaw)
    (hle : source.ddrDestinationAddendRaw.toNat ≤ uint64Max - source.spanBytes) :
    spillInterval source = some ⟨source.ddrDestinationAddendRaw.toNat,
      source.ddrDestinationAddendRaw.toNat + source.spanBytes⟩ := by
  have haddend : unsigned64 source.ddrDestinationAddendRaw =
      source.ddrDestinationAddendRaw.toNat := by
    have hcast := unsigned64_of_nonneg hnonneg (by omega)
    omega
  unfold spillInterval byteInterval
  rw [haddend, if_neg (not_lt.2 hle)]

/-- A spill with a reload is that of a routed member, if all members are classified. -/
theorem Selects.routed_of_mem {members : List InvocationRoutingObservation}
    {selection : SpillSelection} (h : Selects sources groupIndex members selection)
    {producer : InvocationRoutingObservation} (hproducer : producer ∈ members)
    {source : ActDmaSourceCandidateObservation}
    (hsource : source ∈ spillSources sources groupIndex producer) :
    (producer, source) ∈ selection.routed ∧
      spillSources sources groupIndex producer = [source] := by
  have hone : (spillSources sources groupIndex producer).length = 1 :=
    le_antisymm (h.classified producer hproducer) (List.length_pos_of_mem hsource)
  have hrouted : producer ∈ selection.routed.map (·.1) := by
    rw [h.routed_eq]
    exact List.mem_filter.2 ⟨hproducer, decide_eq_true hone⟩
  obtain ⟨⟨producer, selected⟩, hmember, rfl⟩ := List.mem_map.1 hrouted
  obtain ⟨honly, -⟩ := h.one_source _ hmember
  dsimp only at honly hsource
  rw [honly, List.mem_singleton] at hsource
  rw [hsource]
  exact ⟨hmember, honly⟩

/-- The spill of a candidate is found by its names, if it is the only one of its invocation. -/
theorem reloadSource_eq {candidate : ActDmaActInputCandidateObservation}
    {producer : InvocationRoutingObservation} {source : ActDmaSourceCandidateObservation}
    (honly : spillSources sources candidate.producerGroupIndex producer = [source])
    (hindex : candidate.producerInvocationIndex = producer.invocationIndex)
    (htask : (candidate.spillDmaSectionIndex, candidate.spillDmaTaskIndex) = source.task) :
    reloadSource sources candidate = some source := by
  obtain ⟨hmem, hkey, hall⟩ := filter_eq_singleton honly
  obtain ⟨hgroup, hinvocation⟩ := of_decide_eq_true hkey
  obtain ⟨hsection, htask⟩ := Prod.mk.inj htask
  unfold reloadSource
  cases hfind : sources.find? fun possible =>
      possible.actGroupIndex = candidate.producerGroupIndex ∧
        possible.actInvocationIndex = candidate.producerInvocationIndex ∧
        possible.dmaSectionIndex = candidate.spillDmaSectionIndex ∧
        possible.dmaTaskIndex = candidate.spillDmaTaskIndex with
  | none =>
    exact absurd (decide_eq_true ⟨hgroup, hinvocation.trans hindex.symm, hsection.symm,
      htask.symm⟩) (List.find?_eq_none.1 hfind source hmem)
  | some possible =>
    have hpossible := List.find?_some hfind
    obtain ⟨hg, hi, -⟩ := of_decide_eq_true hpossible
    exact congrArg some (hall possible (List.mem_of_find?_eq_some hfind)
      (decide_eq_true ⟨hg, hi.trans hindex⟩))

/-- An unambiguous candidate of a group feeds an input from a selected spill. -/
theorem of_unambiguousReload (hindices : (invocations.map (·.invocationIndex)).Nodup)
    {selection : SpillSelection}
    (hselects : Selects sources groupIndex (groupMembers invocations groupIndex) selection)
    {candidate : ActDmaActInputCandidateObservation}
    (h : candidate ∈ unambiguousReloads
      (invocations.flatMap (reloadCandidatesOf invocations tasks sources)) groupIndex) :
    Reachable sources selection.routed candidate ∧
    ∃ consumer ∈ invocations, ∃ spill ∈ selection.routed, ∃ task ∈ tasks, ReloadsInput
      (invocations.flatMap (reloadCandidatesOf invocations tasks sources)) candidate consumer
      spill task := by
  obtain ⟨hmem, hkey⟩ := List.mem_filter.1 h
  obtain ⟨hgroup, hcount⟩ := of_decide_eq_true hkey
  obtain ⟨consumer, hconsumer, tensorIndex, htensor, reload, hreload, rfl⟩ :=
    mem_reloadCandidates.1 hmem
  have hone : (inputReloads invocations tasks sources consumer tensorIndex).length = 1 := hcount
  obtain ⟨only, honly⟩ := List.length_eq_one_iff.1 hone
  obtain ⟨hsource, hproducer, htask, hmatch⟩ := mem_inputReloads.1 hreload
  unfold actDmaActInputCandidateMatches at hmatch
  obtain ⟨-, hinput, -, -, hspillNonneg, hreloadNonneg, -, hspillMax, hreloadMax, hsourceGroup,
    hsourceIndex, -, -, -, -, -, -, -, -, -, htable, hsymbol, hstart, hstop, hkind, -, -,
    hdestination, haddend, hlength, hafter, hbefore⟩ := of_decide_eq_true hmatch
  have hmember : reload.producer ∈ groupMembers invocations groupIndex :=
    mem_groupMembers.2 ⟨hproducer, hgroup⟩
  obtain ⟨hrouted, hspill⟩ := hselects.routed_of_mem hmember
    (List.mem_filter.2 ⟨hsource, decide_eq_true ⟨hsourceGroup.trans hgroup, hsourceIndex⟩⟩)
  have hinterval : reloadInterval (actDmaActInputCandidate consumer tensorIndex
      (inputReloads invocations tasks sources consumer tensorIndex).length reload) = some ⟨_, _⟩ :=
    reloadInterval_eq_some hreloadNonneg hreloadMax
  refine ⟨⟨⟨reload.source, List.mem_map.2 ⟨_, hrouted, rfl⟩, ?_⟩, _, hinterval⟩,
    consumer, hconsumer, _, hrouted, reload.task, htask, ?_⟩
  · exact reloadSource_eq (hgroup ▸ hspill) rfl rfl
  · constructor
    case reload_eq => rfl
    case consumer_eq => exact ⟨rfl, rfl⟩
    case input_lt => exact hinput
    case producer_eq => exact ⟨rfl, rfl⟩
    case symbol_eq => exact Prod.ext htable hsymbol
    case inside =>
      exact ⟨_, _, spillInterval_eq_some hspillNonneg hspillMax, hinterval, rfl, hstart, hstop⟩
    case destination_eq => exact ⟨hkind, hdestination, haddend, hlength⟩
    case after_spill => exact hafter
    case before_consumer => exact hbefore
    case only =>
      refine (filter_reloadCandidates hindices hconsumer htensor).trans ?_
      unfold inputReloadCandidates
      rw [honly] at hreload ⊢
      rw [List.map_singleton, List.mem_singleton.1 hreload]

end Derived

/-! ## Exact covers -/

section Exact

variable {invocations : List InvocationRoutingObservation} {tasks : List DmaTaskObservation}
  {sources : List ActDmaSourceCandidateObservation} {groupIndex : ℕ}

/-- The spills of a group tile a span of one symbol, and the reloads read it byte by byte. -/
structure DmaActCover (invocations : List InvocationRoutingObservation)
    (tasks : List DmaTaskObservation) (candidates : List ActDmaActInputCandidateObservation)
    (cover : ActDmaActInputCoverObservation)
    (routed : List (InvocationRoutingObservation × ActDmaSourceCandidateObservation))
    (reloads : List ActDmaActInputCandidateObservation) : Prop where
  routed_eq : routed.map (·.1) = (groupMembers invocations cover.producerGroupIndex).filter
    fun invocation => (spillTasks tasks invocation).length = 1
  spill_eq : ∀ member ∈ routed, ∃ dma, spillTasks tasks member.1 = [dma] ∧
    member.2 = actDmaSourceCandidate member.1 1 dma
  replica : ∀ invocation ∈ groupMembers invocations cover.producerGroupIndex,
    (spillTasks tasks invocation).length = 1 ∨ spillTasks tasks invocation = [] ∧
      ∃ other, routedReplicas routed invocation = [other]
  tasks_ne : (routed.map (·.2.task)).Nodup
  symbol_eq : ∃ symbol, ∀ member ∈ routed, member.2.ddrSymbol = symbol
  addressable : ∀ member ∈ routed, spillInterval member.2 ≠ none
  spills_apart : (routed.filterMap fun member => spillInterval member.2).Pairwise Interval.Apart
  spills_eq : ∃ ddr : OutputByteInterval,
    Interval.covered (routed.filterMap fun member => spillInterval member.2) = ddr.points ∧
      cover.ddrSpanBytes = ddr.stop - ddr.start
  reloads_eq : reloads = unambiguousReloads candidates cover.producerGroupIndex
  nonempty : reloads ≠ []
  count_eq : cover.consumerInputCount = reloads.length
  reloads_ne : (reloads.map (·.reload)).Nodup
  feeds : ∀ candidate ∈ reloads, ∃ consumer ∈ invocations, ∃ spill ∈ routed, ∃ task ∈ tasks,
    ReloadsInput candidates candidate consumer spill task
  reloads_apart : (reloads.filterMap reloadInterval).Pairwise Interval.Apart
  union_eq : Interval.covered (reloads.filterMap reloadInterval) =
    Interval.covered (routed.filterMap fun member => spillInterval member.2)
  once : ∀ address ∈ Interval.covered (routed.filterMap fun member => spillInterval member.2),
    reloads.countP (Interval.within reloadInterval address) = 1
  groups_eq : cover.consumerGroupCount = (reloads.map (·.consumerGroupIndex)).toFinset.card

theorem reloadedSpan_eq_some
    {routed : List (InvocationRoutingObservation × ActDmaSourceCandidateObservation)}
    {intervals : List OutputByteInterval} {ddr : OutputByteInterval}
    (h : reloadedSpan routed intervals = some ddr) :
    mergeOutputByteIntervals (routed.filterMap fun member => spillInterval member.2) =
        ([ddr], false) ∧
      mergeOutputByteIntervals intervals = ([ddr], false) := by
  unfold reloadedSpan at h
  split at h
  · rename_i spill reload hspill hreload
    split_ifs at h with heq
    obtain rfl := Option.some.inj h
    exact ⟨hspill, heq ▸ hreload⟩
  · cases h

/-- What an exact observation has passed. -/
theorem of_actDmaActInputCover_exact {candidates : List ActDmaActInputCandidateObservation}
    (h : (actDmaActInputCover invocations sources candidates groupIndex).exactCover = true) :
    (spillSelection invocations sources groupIndex).flags = 0 ∧
    (reloadCount invocations sources candidates groupIndex).flags = 0 ∧
    (∀ invocation ∈ (spillSelection invocations sources groupIndex).unrouted,
      (routedReplicas (spillSelection invocations sources groupIndex).routed
        invocation).length = 1) ∧
    (reloadCount invocations sources candidates groupIndex).inputCount ≠ 0 ∧
    ∃ ddr, reloadedSpan (spillSelection invocations sources groupIndex).routed
        (reloadCount invocations sources candidates groupIndex).intervals = some ddr ∧
      (actDmaActInputCover invocations sources candidates groupIndex).ddrSpanBytes =
        ddr.stop - ddr.start := by
  obtain ⟨hflags, -, hinputs⟩ := of_decide_eq_true h
  simp only [or_eq_zero_iff,
    flagIf_eq_zero_iff (show actDmaActReplicaUnresolved ≠ 0 by decide),
    flagIf_eq_zero_iff (show actDmaActDdrCoverUnresolved ≠ 0 by decide), not_not] at hflags
  obtain ⟨⟨⟨⟨⟨hselection, hreplicas⟩, -⟩, -⟩, hcount⟩, hspan⟩ := hflags
  have hall := List.length_filter_eq_length_iff.1 hreplicas
  obtain ⟨ddr, hddr⟩ := Option.ne_none_iff_exists'.1 hspan
  refine ⟨hselection, hcount, fun invocation hmem => of_decide_eq_true (hall invocation hmem),
    hinputs, ddr, ?_, ?_⟩
  · split_ifs at hddr
    exact hddr
  · unfold actDmaActInputCover
    dsimp only
    rw [hddr]
    rfl

/-- An exact cover of derived candidates is sound. -/
theorem dmaActCover_of_exact (hindices : (invocations.map (·.invocationIndex)).Nodup)
    (hsources : sources = invocations.flatMap (dmaSourcesOf tasks))
    {candidates : List ActDmaActInputCandidateObservation}
    (hcandidates : candidates = invocations.flatMap (reloadCandidatesOf invocations tasks sources))
    (h : (actDmaActInputCover invocations sources candidates groupIndex).exactCover = true) :
    DmaActCover invocations tasks candidates
      (actDmaActInputCover invocations sources candidates groupIndex)
      (spillSelection invocations sources groupIndex).routed
      (unambiguousReloads candidates groupIndex) := by
  obtain ⟨hselection, hcount, hreplicas, hinputs, ddr, hspan, hlength⟩ :=
    of_actDmaActInputCover_exact h
  have hselects : Selects sources groupIndex (groupMembers invocations groupIndex)
      (spillSelection invocations sources groupIndex) := selects_of_flags _ hselection
  have hfeeds := fun candidate hmem => of_unambiguousReload hindices hselects
    (hcandidates ▸ hmem : candidate ∈ unambiguousReloads
      (invocations.flatMap (reloadCandidatesOf invocations tasks sources)) groupIndex)
  have hcounts : CountsAll (unambiguousReloads candidates groupIndex)
      (reloadCount invocations sources candidates groupIndex) :=
    countsAll_of_flags _ (fun candidate hmem => (hfeeds candidate hmem).1) hcount
  obtain ⟨hspills, hreloads⟩ := reloadedSpan_eq_some hspan
  rw [hcounts.intervals_eq] at hreloads
  have hsourcesOf : ∀ invocation ∈ groupMembers invocations groupIndex,
      (spillSources sources groupIndex invocation).length =
        (spillTasks tasks invocation).length := by
    intro invocation hmem
    rw [hsources, spillSources_eq hindices hmem, length_dmaSourcesOf]
  have hrouted : (spillSelection invocations sources groupIndex).routed.map (·.1) =
      (groupMembers invocations groupIndex).filter fun invocation =>
        (spillTasks tasks invocation).length = 1 := by
    rw [hselects.routed_eq]
    exact List.filter_congr fun invocation hmem => by rw [hsourcesOf invocation hmem]
  constructor
  case routed_eq => exact hrouted
  case spill_eq =>
    intro member hmember
    have hmem : member.1 ∈ groupMembers invocations groupIndex :=
      List.mem_of_mem_filter (hrouted ▸ List.mem_map_of_mem hmember)
    obtain ⟨honly, hone⟩ := hselects.one_source member hmember
    rw [hsources, spillSources_eq hindices hmem] at honly
    exact spillTasks_eq_singleton (honly ▸ List.mem_cons_self) hone
  case replica =>
    intro invocation hmem
    rcases Nat.le_one_iff_eq_zero_or_eq_one.1 (hselects.classified invocation hmem) with
      hzero | hone
    · refine Or.inr ⟨List.eq_nil_of_length_eq_zero ((hsourcesOf invocation hmem).symm.trans hzero),
        List.length_eq_one_iff.1 (hreplicas invocation ?_)⟩
      rw [hselects.unrouted_eq]
      exact List.mem_filter.2 ⟨hmem, decide_eq_true hzero⟩
    · exact Or.inl ((hsourcesOf invocation hmem).symm.trans hone)
  case tasks_ne => exact hselects.tasks_ne
  case symbol_eq =>
    cases hlist : (spillSelection invocations sources groupIndex).routed with
    | nil => exact ⟨(0, 0), by simp⟩
    | cons first rest =>
      refine ⟨first.2.ddrSymbol, fun member hmember => ?_⟩
      exact hselects.symbol_eq member (hlist ▸ hmember) first (by rw [hlist]; rfl)
  case addressable => exact hselects.addressable
  case spills_apart => exact Interval.apart_of_not_overlap (congrArg Prod.snd hspills)
  case spills_eq =>
    exact ⟨ddr, Interval.covered_of_merge_eq_singleton (congrArg Prod.fst hspills), hlength⟩
  case reloads_eq => rfl
  case nonempty =>
    rintro hnil
    rw [hcounts.inputCount_eq, hnil] at hinputs
    exact hinputs rfl
  case count_eq => exact hcounts.inputCount_eq
  case reloads_ne => exact hcounts.reloads_ne
  case feeds =>
    intro candidate hmem
    rw [hcandidates]
    exact (hfeeds candidate hmem).2
  case reloads_apart => exact Interval.apart_of_not_overlap (congrArg Prod.snd hreloads)
  case union_eq =>
    rw [Interval.covered_of_merge_eq_singleton (congrArg Prod.fst hspills)]
    exact Interval.covered_of_merge_eq_singleton (congrArg Prod.fst hreloads)
  case once =>
    intro address haddress
    refine Interval.countP_within (Interval.apart_of_not_overlap (congrArg Prod.snd hreloads)) ?_
    rw [Interval.covered_of_merge_eq_singleton (congrArg Prod.fst hspills)] at haddress
    rw [Interval.covered_of_merge_eq_singleton (congrArg Prod.fst hreloads)]
    exact haddress
  case groups_eq => exact hcounts.groupCount_eq

/-- An exact cover of derived candidates is sound : the invocations spill by one task each or
are replicas of those that do, and the reloads of other groups read every spilled byte once. -/
theorem dma_act_cover_sound {groupCount : ℕ}
    {candidates : List ActDmaActInputCandidateObservation}
    {covers : List ActDmaActInputCoverObservation}
    (hindices : (invocations.map (·.invocationIndex)).Nodup)
    (hsources : deriveActDmaSourceCandidates invocations tasks = .ok sources)
    (hcovers : deriveActDmaActInputObservations invocations sources tasks groupCount =
      .ok (candidates, covers)) :
    ∀ cover ∈ covers, cover.exactCover = true → ∃ routed reloads,
      DmaActCover invocations tasks candidates cover routed reloads := by
  unfold deriveActDmaActInputObservations at hcovers
  obtain ⟨-, h⟩ := refuseIf_bind_eq_ok_iff.1 hcovers
  obtain ⟨-, h⟩ := refuseIf_bind_eq_ok_iff.1 h
  obtain ⟨-, h⟩ := refuseIf_bind_eq_ok_iff.1 h
  obtain ⟨-, h⟩ := refuseIf_bind_eq_ok_iff.1 h
  obtain ⟨rfl, rfl⟩ := Prod.mk.inj (Except.ok.inj h)
  intro cover hcover hexact
  obtain ⟨groupIndex, -, rfl⟩ := List.mem_map.1 hcover
  exact ⟨_, _, dmaActCover_of_exact hindices (deriveActDmaSourceCandidates_spec hsources) rfl
    hexact⟩

/-- A group of two replicas, one of which spills, and a consumer. -/
def exampleReloading : List InvocationRoutingObservation :=
  [exampleInvocation 0 0 0 0 100 0 1, exampleInvocation 0 1 1 10 110 0 1,
    exampleInvocation 1 2 0 200 300 8 0]

/-- A task that spills the output of the first invocation, and one that reloads it. -/
def exampleReloadTasks : List DmaTaskObservation :=
  [exampleTask 0 2 1 2 ⟨.cmx, 0, 0, 4, rVpu64, 100⟩ ⟨.ddrBuffer, 0, 26, 1, rVpu64, 0⟩ 0,
    exampleTask 1 2 2 8 ⟨.ddrBuffer, 0, 26, 1, rVpu64, 0⟩ ⟨.cmx, 0, 0, 4, rVpu64, 200⟩ 0]

theorem dma_act_cover_sound_example : ∃ candidates cover routed reloads,
    DmaActCover exampleReloading exampleReloadTasks candidates cover routed reloads := by
  have hsources : deriveActDmaSourceCandidates exampleReloading exampleReloadTasks =
      .ok [⟨0, 0, 1, 5, 0, 0, 1, 26, 1, 100, 100, 0, 2, 1, 2⟩] := by
    decide +kernel
  have hcovers : deriveActDmaActInputObservations exampleReloading
      [⟨0, 0, 1, 5, 0, 0, 1, 26, 1, 100, 100, 0, 2, 1, 2⟩] exampleReloadTasks 2 =
        .ok ([⟨0, 0, 5, 0, 1, 2, 0, 5, 1, 0, 1, 26, 1, 0, 4, 200, 2, 2, 8⟩],
          [⟨0, 2, 1, 1, 1, 1, 0, 2, true⟩]) := by
    decide +kernel
  obtain ⟨routed, reloads, hcover⟩ :=
    dma_act_cover_sound (by decide) hsources hcovers _ List.mem_cons_self rfl
  exact ⟨_, _, routed, reloads, hcover⟩

end Exact

end Npunlock
