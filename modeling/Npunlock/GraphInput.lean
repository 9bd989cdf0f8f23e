import Npunlock.DmaFanin

/-!
# Graph inputs

`npunlock_derive_graph_input_act_covers` reports, for each group and input tensor, the DMA
tasks that copy a network input to its invocations, or to one of several replicas of an
invocation as a multicast. `graph_input_cover_sound` : on an exact cover every invocation is
fed by one ordered task, or is the replica of one that is fed by a multicast, and the tasks
tile a span of one input.
-/

namespace Npunlock

/-! ## Tasks that feed an input -/

/-- `npunlock_graph_input_act_cover_observation`. -/
structure GraphInputActCoverObservation where
  actGroupIndex : ℕ
  actTensorRecordIndex : ℕ
  inputSymbolTableIndex : ℕ
  inputSymbolRaw : ℕ
  invocationCount : ℕ
  directDmaTaskCount : ℕ
  transitiveDmaTaskCount : ℕ
  replicaInvocationCount : ℕ
  unresolvedFlags : ℕ
  sourceSpanBytes : ℕ
  exactCover : Bool
  deriving DecidableEq

/-- `NPUNLOCK_GRAPH_INPUT_ACT_INPUT_AMBIGUOUS`. -/
def graphInputActInputAmbiguous : ℕ := 1

/-- `NPUNLOCK_GRAPH_INPUT_ACT_INVOCATION_UNCLASSIFIED`. -/
def graphInputActInvocationUnclassified : ℕ := 2

/-- `NPUNLOCK_GRAPH_INPUT_ACT_DMA_TASK_REUSED`. -/
def graphInputActDmaTaskReused : ℕ := 4

/-- `NPUNLOCK_GRAPH_INPUT_ACT_SOURCE_MISMATCH`. -/
def graphInputActSourceMismatch : ℕ := 8

/-- `NPUNLOCK_GRAPH_INPUT_ACT_SOURCE_COVER_UNRESOLVED`. -/
def graphInputActSourceCoverUnresolved : ℕ := 16

/-- `NPUNLOCK_GRAPH_INPUT_ACT_REPLICA_UNRESOLVED`. -/
def graphInputActReplicaUnresolved : ℕ := 32

/-- `NPUNLOCK_GRAPH_INPUT_ACT_SCHEDULE_UNRESOLVED`. -/
def graphInputActScheduleUnresolved : ℕ := 64

/-- `dma_task_is_multicast_cmx`. -/
def dmaTaskIsMulticastCmx (dma : DmaTaskObservation) : Bool :=
  dma.destination.memoryKind = .cmx ∧ dma.destination.relocationType = rVpu64Or ∧
    dma.destinationValueRaw = 0xc00000

section Matches

variable (tasks : List DmaTaskObservation) (invocation : InvocationRoutingObservation)

/-- The later tasks of the same section and engine that a source task and an invocation are
ordered through. -/
def relayTasks (source : Fin tasks.length) : List (Fin tasks.length) :=
  (List.finRange tasks.length).filter fun relay : Fin tasks.length =>
    relay ≠ source ∧ (tasks.get relay).sectionIndex = (tasks.get source).sectionIndex ∧
      (tasks.get relay).engineIndex = (tasks.get source).engineIndex ∧
      (tasks.get source).taskIndex < (tasks.get relay).taskIndex ∧
      (tasks.get source).postMaskRaw &&& (tasks.get relay).waitMaskRaw ≠ 0 ∧
      (tasks.get relay).postMaskRaw &&& invocation.waitMaskRaw ≠ 0

/-- `graph_input_dma_direct_or_same_engine_relay_hops`. -/
def graphInputDmaDirectOrSameEngineRelayHops (source : Fin tasks.length) : ℕ :=
  if (tasks.get source).postMaskRaw &&& invocation.waitMaskRaw ≠ 0 then 1
  else if (relayTasks tasks invocation source).length = 1 then 2 else 0

/-- `address_matched` of `graph_input_dma_matches`. -/
def graphInputAddressMatched (tensorIndex : ℕ) (dma : DmaTaskObservation) : Bool :=
  let tensor := invocation.contract tensorIndex
  let routing := invocation.routing tensorIndex
  tensor.role = patchblobTensorRoleInputV2 ∧ tensor.spanBytes ≠ 0 ∧
    tensor.spanBytes ≤ uint32Max ∧ 0 ≤ routing.dataAddend ∧
    dmaTaskIsSimpleContiguous dma = true ∧ dma.source.memoryKind = .networkInput ∧
    dma.source.relocationType = rVpu64 ∧ dma.sourceValueRaw = 0 ∧ 0 ≤ dma.source.addendRaw ∧
    dma.destination.memoryKind = .cmx ∧
    (dma.destination.relocationType = rVpu64 ∧ dma.destinationValueRaw = 0 ∨
      dma.destination.relocationType = rVpu64Or ∧ dma.destinationValueRaw = 0xc00000) ∧
    dma.destination.symbolRaw = routing.dataSymbol ∧
    dma.destination.addendRaw = routing.dataAddend ∧ dma.lengthBytes = tensor.spanBytes

/-- `graph_input_dma_matches`. -/
def graphInputDmaMatches (tensorIndex : ℕ) (dma : Fin tasks.length) : Bool :=
  graphInputAddressMatched invocation tensorIndex (tasks.get dma) = true ∧
    graphInputDmaDirectOrSameEngineRelayHops tasks invocation dma ≠ 0

/-- The invocation has the tensor as an input. -/
def hasInput (tensorIndex : ℕ) : Bool :=
  tensorIndex + 1 < invocation.tensorCount ∧
    (invocation.contract tensorIndex).role = patchblobTensorRoleInputV2

/-- The tasks that feed an input. -/
def feedingTasks (tensorIndex : ℕ) : List (Fin tasks.length) :=
  if hasInput invocation tensorIndex = true then
    (List.finRange tasks.length).filter (graphInputDmaMatches tasks invocation tensorIndex)
  else []

/-- `selected_tasks` : the only task that feeds an input. -/
def selectedTask (tensorIndex : ℕ) : Option (Fin tasks.length) :=
  match feedingTasks tasks invocation tensorIndex with
  | [selected] => some selected
  | _ => none

/-- The flags that the search for the tasks adds. -/
def feedingFlags (tensorIndex : ℕ) : ℕ :=
  flagIf (hasInput invocation tensorIndex = true ∧ ∃ dma : Fin tasks.length,
      graphInputDmaMatches tasks invocation tensorIndex dma = false ∧
        graphInputAddressMatched invocation tensorIndex (tasks.get dma) = true)
    graphInputActScheduleUnresolved |||
  flagIf (1 < (feedingTasks tasks invocation tensorIndex).length) graphInputActInputAmbiguous

/-- The task of `direct` is a multicast that reaches the input of a replica. -/
def multicastReaches (tensorIndex : ℕ) (direct : InvocationRoutingObservation) : Bool :=
  match selectedTask tasks direct tensorIndex, replicaContractsMatch invocation direct with
  | some task, some translation =>
    dmaTaskIsMulticastCmx (tasks.get task) &&
      checkedAddI64 (direct.routing tensorIndex).dataAddend translation ==
        some (invocation.routing tensorIndex).dataAddend
  | _, _ => false

end Matches

/-! ## Covers -/

section Covers

variable (invocations : List InvocationRoutingObservation) (tasks : List DmaTaskObservation)

/-- The tasks that feed the members of a group. -/
def groupTasks (groupIndex tensorIndex : ℕ) : List (Fin tasks.length) :=
  (groupMembers invocations groupIndex).filterMap (selectedTask tasks · tensorIndex)

/-- An invocation is the replica of one that is fed by a multicast. -/
def isFedReplica (groupIndex tensorIndex : ℕ) (invocation : InvocationRoutingObservation) : Bool :=
  (groupMembers invocations groupIndex).countP (multicastReaches tasks invocation tensorIndex) = 1

/-- The bytes of the input that a task reads, if they are addressable. -/
def inputInterval (task : Fin tasks.length) : Option OutputByteInterval :=
  byteInterval (unsigned64 (tasks.get task).source.addendRaw) (tasks.get task).lengthBytes

/-- The input that a task reads. -/
def inputSymbol (task : Fin tasks.length) : ℕ × ℕ :=
  ((tasks.get task).source.symbolTableIndex, (tasks.get task).source.symbolRaw)

/-- The flags of a group and a tensor. -/
def graphInputFlags (groupIndex tensorIndex : ℕ) : ℕ :=
  let members := groupMembers invocations groupIndex
  let selected := groupTasks invocations tasks groupIndex tensorIndex
  let unfed := members.filter fun invocation => selectedTask tasks invocation tensorIndex = none
  let merge := mergeOutputByteIntervals (selected.filterMap (inputInterval tasks))
  orAll (members.map (feedingFlags tasks · tensorIndex)) |||
    orAll (unfed.map fun invocation =>
      flagIf (isFedReplica invocations tasks groupIndex tensorIndex invocation = false)
        graphInputActReplicaUnresolved) |||
    flagIf (¬selected.Nodup) graphInputActDmaTaskReused |||
    flagIf (∃ task ∈ selected, some (inputSymbol tasks task) ≠
      (selected.map (inputSymbol tasks)).head?) graphInputActSourceMismatch |||
    flagIf (∃ task ∈ selected, inputInterval tasks task = none)
      graphInputActSourceCoverUnresolved |||
    flagIf (selected.length + (unfed.filter
        (isFedReplica invocations tasks groupIndex tensorIndex)).length ≠ members.length)
      graphInputActInvocationUnclassified |||
    flagIf (merge.2 = true ∨ merge.1.length ≠ 1 ∨ ∃ x ∈ merge.1, x.stop < x.start)
      graphInputActSourceCoverUnresolved

/-- The observation of a group and a tensor. -/
def graphInputActCover (groupIndex tensorIndex : ℕ) : GraphInputActCoverObservation :=
  let members := groupMembers invocations groupIndex
  let selected := groupTasks invocations tasks groupIndex tensorIndex
  let unfed := members.filter fun invocation => selectedTask tasks invocation tensorIndex = none
  let direct := members.filter fun invocation =>
    ∃ task ∈ selectedTask tasks invocation tensorIndex,
      graphInputDmaDirectOrSameEngineRelayHops tasks invocation task = 1
  let symbol := ((selected.map (inputSymbol tasks)).head?).getD (0, 0)
  let flags := graphInputFlags invocations tasks groupIndex tensorIndex
  { actGroupIndex := groupIndex
    actTensorRecordIndex := tensorIndex
    inputSymbolTableIndex := symbol.1
    inputSymbolRaw := symbol.2
    invocationCount := members.length
    directDmaTaskCount := direct.length
    transitiveDmaTaskCount := selected.length - direct.length
    replicaInvocationCount :=
      (unfed.filter (isFedReplica invocations tasks groupIndex tensorIndex)).length
    unresolvedFlags := flags
    sourceSpanBytes :=
      match mergeOutputByteIntervals (selected.filterMap (inputInterval tasks)) with
      | ([span], false) => if span.stop < span.start then 0 else span.stop - span.start
      | _ => 0
    exactCover := flags = 0 }

/-- The tensors of a group that a cover is looked for : the inputs of its first invocation. -/
def referenceTensors (groupIndex : ℕ) : List ℕ :=
  match groupMembers invocations groupIndex with
  | [] => []
  | reference :: _ => List.range (reference.tensorCount - 1)

/-- `npunlock_derive_graph_input_act_covers`. -/
def deriveGraphInputActCovers (groupCount : ℕ) : Result (List GraphInputActCoverObservation) := do
  refuseIf (uint32Max < groupCount ∨ uint32Max < invocations.length)
    (unsupported "graph-input/ACT cover indices exceed their ABI width")
  let resultCapacity := checkedMulSize groupCount (patchblobTargetV2MaxTensors - 1)
  refuseIf (resultCapacity = none ∨ ¬withinWorkBound (do
      let workBound ← checkedMulSize invocations.length tasks.length
      let workBound ← checkedMulSize workBound tasks.length
      checkedMulSize workBound (patchblobTargetV2MaxTensors - 1)))
    (unsupported "graph-input/ACT cover analysis exceeds its work bound")
  let covers := (List.range groupCount).flatMap fun groupIndex =>
    ((referenceTensors invocations groupIndex).filter fun tensorIndex =>
      (groupTasks invocations tasks groupIndex tensorIndex).length ≠ 0).map
        (graphInputActCover invocations tasks groupIndex)
  refuseIf (groupCount * (patchblobTargetV2MaxTensors - 1) < covers.length)
    (unsupported "graph-input/ACT cover count exceeded its allocation")
  .ok covers

end Covers

/-! ## Exact covers -/

variable {invocations : List InvocationRoutingObservation} {tasks : List DmaTaskObservation}
  {invocation direct : InvocationRoutingObservation} {groupIndex tensorIndex : ℕ}

/-- A task copies a network input to the place of an input tensor. -/
structure FeedsInput (invocation : InvocationRoutingObservation) (tensorIndex : ℕ)
    (dma : DmaTaskObservation) : Prop where
  role_eq : (invocation.contract tensorIndex).role = patchblobTensorRoleInputV2
  contiguous : dmaTaskIsSimpleContiguous dma = true
  source_eq : dma.source.memoryKind = .networkInput
  destination_eq : dma.destination.memoryKind = .cmx ∧
    dma.destination.symbolRaw = (invocation.routing tensorIndex).dataSymbol ∧
    dma.destination.addendRaw = (invocation.routing tensorIndex).dataAddend
  length_eq : dma.lengthBytes = (invocation.contract tensorIndex).spanBytes

/-- The end of a task orders it before an invocation, by itself or through one relay. -/
def InputOrdered (tasks : List DmaTaskObservation) (invocation : InvocationRoutingObservation)
    (task : Fin tasks.length) : Prop :=
  (tasks.get task).postMaskRaw &&& invocation.waitMaskRaw ≠ 0 ∨
    (relayTasks tasks invocation task).length = 1

/-- One task feeds an input of an invocation. -/
structure InputFed (tasks : List DmaTaskObservation) (invocation : InvocationRoutingObservation)
    (tensorIndex : ℕ) (task : Fin tasks.length) : Prop where
  feeds : FeedsInput invocation tensorIndex (tasks.get task)
  ordered : InputOrdered tasks invocation task
  only : ∀ other, graphInputAddressMatched invocation tensorIndex (tasks.get other) = true →
    other = task

/-- The invocation is a replica of one that is fed by a multicast. -/
def replicaOfFed (tasks : List DmaTaskObservation) (invocation : InvocationRoutingObservation)
    (tensorIndex : ℕ) (direct : InvocationRoutingObservation) : Bool :=
  (∃ task ∈ selectedTask tasks direct tensorIndex,
      dmaTaskIsMulticastCmx (tasks.get task) = true) ∧
    (replicaContractsMatch invocation direct).isSome = true

/-- The tasks that feed the inputs of a group tile a span of one network input. -/
structure GraphInputCover (invocations : List InvocationRoutingObservation)
    (tasks : List DmaTaskObservation) (cover : GraphInputActCoverObservation) : Prop where
  nonempty : groupTasks invocations tasks cover.actGroupIndex cover.actTensorRecordIndex ≠ []
  fed_or_replica : ∀ invocation ∈ groupMembers invocations cover.actGroupIndex,
    (∃ task, selectedTask tasks invocation cover.actTensorRecordIndex = some task ∧
      InputFed tasks invocation cover.actTensorRecordIndex task) ∨
    (∀ dma ∈ tasks, graphInputAddressMatched invocation cover.actTensorRecordIndex dma = false) ∧
      (groupMembers invocations cover.actGroupIndex).countP
        (replicaOfFed tasks invocation cover.actTensorRecordIndex) = 1
  ordered : ∀ invocation ∈ groupMembers invocations cover.actGroupIndex, ∀ task,
    graphInputAddressMatched invocation cover.actTensorRecordIndex (tasks.get task) = true →
      InputOrdered tasks invocation task
  tasks_ne : (groupTasks invocations tasks cover.actGroupIndex cover.actTensorRecordIndex).Nodup
  symbol_eq : ∀ task ∈ groupTasks invocations tasks cover.actGroupIndex cover.actTensorRecordIndex,
    inputSymbol tasks task = (cover.inputSymbolTableIndex, cover.inputSymbolRaw)
  addressable : ∀ task ∈ groupTasks invocations tasks cover.actGroupIndex
    cover.actTensorRecordIndex, inputInterval tasks task ≠ none
  apart : ((groupTasks invocations tasks cover.actGroupIndex
    cover.actTensorRecordIndex).filterMap (inputInterval tasks)).Pairwise Interval.Apart
  union_eq : ∃ start, Interval.covered ((groupTasks invocations tasks cover.actGroupIndex
    cover.actTensorRecordIndex).filterMap (inputInterval tasks)) =
      Interval.points ⟨start, start + cover.sourceSpanBytes⟩

theorem feedsInput_of {dma : DmaTaskObservation}
    (h : graphInputAddressMatched invocation tensorIndex dma = true) :
    FeedsInput invocation tensorIndex dma := by
  unfold graphInputAddressMatched at h
  obtain ⟨hrole, -, -, -, hcontiguous, hsource, -, -, -, hkind, -, hsymbol, haddend, hlength⟩ :=
    of_decide_eq_true h
  exact ⟨hrole, hcontiguous, hsource, ⟨hkind, hsymbol, haddend⟩, hlength⟩

theorem inputOrdered_iff {task : Fin tasks.length} :
    graphInputDmaDirectOrSameEngineRelayHops tasks invocation task ≠ 0 ↔
      InputOrdered tasks invocation task := by
  unfold graphInputDmaDirectOrSameEngineRelayHops InputOrdered
  split_ifs with hdirect hrelay
  · exact iff_of_true one_ne_zero (Or.inl hdirect)
  · exact iff_of_true two_ne_zero (Or.inr hrelay)
  · exact iff_of_false (fun h => h rfl) fun h => h.elim hdirect hrelay

theorem selectedTask_eq_some_iff {task : Fin tasks.length} :
    selectedTask tasks invocation tensorIndex = some task ↔
      feedingTasks tasks invocation tensorIndex = [task] := by
  unfold selectedTask
  split
  · rename_i selected heq
    rw [heq, Option.some.injEq, List.cons.injEq]
    exact ⟨fun h => ⟨h, rfl⟩, fun h => h.1⟩
  · rename_i hne
    exact ⟨fun h => (by cases h), fun h => absurd h (hne task)⟩

theorem hasInput_of_selected {task : Fin tasks.length}
    (h : selectedTask tasks invocation tensorIndex = some task) :
    hasInput invocation tensorIndex = true := by
  have hfeeding := selectedTask_eq_some_iff.1 h
  unfold feedingTasks at hfeeding
  split_ifs at hfeeding with hinput
  exact hinput

/-- Without flags every task at the place of an input is ordered. -/
theorem ordered_of_feedingFlags (h : feedingFlags tasks invocation tensorIndex = 0)
    (hinput : hasInput invocation tensorIndex = true) {task : Fin tasks.length}
    (haddress : graphInputAddressMatched invocation tensorIndex (tasks.get task) = true) :
    InputOrdered tasks invocation task := by
  unfold feedingFlags at h
  have hschedule := (flagIf_eq_zero_iff (by decide)).1 (or_eq_zero_iff.1 h).1
  by_contra hunordered
  refine hschedule ⟨hinput, task, ?_, haddress⟩
  unfold graphInputDmaMatches
  rw [decide_eq_false_iff_not, inputOrdered_iff]
  exact fun hboth => hunordered hboth.2

/-- Without flags the tasks that feed an input are those at its place. -/
theorem mem_feedingTasks (h : feedingFlags tasks invocation tensorIndex = 0)
    (hinput : hasInput invocation tensorIndex = true) {task : Fin tasks.length} :
    task ∈ feedingTasks tasks invocation tensorIndex ↔
      graphInputAddressMatched invocation tensorIndex (tasks.get task) = true := by
  unfold feedingTasks
  rw [if_pos hinput, List.mem_filter]
  unfold graphInputDmaMatches
  rw [decide_eq_true_eq, inputOrdered_iff]
  exact ⟨fun hmem => hmem.2.1, fun haddress =>
    ⟨List.mem_finRange task, haddress, ordered_of_feedingFlags h hinput haddress⟩⟩

theorem inputFed_of_selected (h : feedingFlags tasks invocation tensorIndex = 0)
    {task : Fin tasks.length} (hselected : selectedTask tasks invocation tensorIndex = some task) :
    InputFed tasks invocation tensorIndex task := by
  have hinput := hasInput_of_selected hselected
  have hfeeding := selectedTask_eq_some_iff.1 hselected
  have hmem : ∀ other : Fin tasks.length,
      graphInputAddressMatched invocation tensorIndex (tasks.get other) = true ↔ other = task := by
    intro other
    rw [← mem_feedingTasks h hinput, hfeeding, List.mem_singleton]
  have haddress := (hmem task).2 rfl
  exact ⟨feedsInput_of haddress, ordered_of_feedingFlags h hinput haddress,
    fun other => (hmem other).1⟩

/-- Without flags an input without a selected task has no task at its place. -/
theorem not_addressMatched_of_unselected (h : feedingFlags tasks invocation tensorIndex = 0)
    (hinput : hasInput invocation tensorIndex = true)
    (hselected : selectedTask tasks invocation tensorIndex = none) :
    ∀ dma ∈ tasks, graphInputAddressMatched invocation tensorIndex dma = false := by
  have hle : ¬1 < (feedingTasks tasks invocation tensorIndex).length := by
    unfold feedingFlags at h
    exact (flagIf_eq_zero_iff (by decide)).1 (or_eq_zero_iff.1 h).2
  have hnil : feedingTasks tasks invocation tensorIndex = [] := by
    cases hfeeding : feedingTasks tasks invocation tensorIndex with
    | nil => rfl
    | cons task rest =>
      rw [hfeeding, List.length_cons] at hle
      obtain rfl := List.eq_nil_of_length_eq_zero (by omega : rest.length = 0)
      rw [selectedTask_eq_some_iff.2 hfeeding] at hselected
      cases hselected
  intro dma hdma
  obtain ⟨task, rfl⟩ := List.mem_iff_get.1 hdma
  refine Bool.eq_false_iff.2 fun haddress => ?_
  have hmem := (mem_feedingTasks h hinput).2 haddress
  rw [hnil] at hmem
  cases hmem

/-! ## Replicas -/

theorem multicastReaches_iff : multicastReaches tasks invocation tensorIndex direct = true ↔
    ∃ task translation, selectedTask tasks direct tensorIndex = some task ∧
      replicaContractsMatch invocation direct = some translation ∧
      dmaTaskIsMulticastCmx (tasks.get task) = true ∧
      checkedAddI64 (direct.routing tensorIndex).dataAddend translation =
        some (invocation.routing tensorIndex).dataAddend := by
  unfold multicastReaches
  split
  · rename_i task translation htask htranslation
    simp [htask, htranslation]
  · rename_i hne
    simp only [Bool.false_eq_true, false_iff]
    rintro ⟨task, translation, htask, htranslation, -⟩
    exact hne task translation htask htranslation

/-- A replica of an invocation with the input has it as well, at a translated place. -/
theorem replica_input {translation : ℤ} (hmatch : replicaContractsMatch invocation direct =
      some translation) (hinput : hasInput direct tensorIndex = true) :
    hasInput invocation tensorIndex = true ∧ (invocation.routing tensorIndex).dataAddend =
      (direct.routing tensorIndex).dataAddend + translation := by
  have hreplica := replicaMatch_of hmatch
  unfold hasInput at hinput ⊢
  obtain ⟨hlt, hrole⟩ := of_decide_eq_true hinput
  rw [← hreplica.tensorCount_eq] at hlt
  have hcontract := hreplica.contract_eq tensorIndex (by omega)
  refine ⟨decide_eq_true ⟨hlt, hcontract.1.trans hrole⟩, ?_⟩
  exact hreplica.addend_eq tensorIndex (by omega)

/-- The check of the translated place never fails on its own. -/
theorem isFedReplica_iff (h : isFedReplica invocations tasks groupIndex tensorIndex invocation =
    true) : hasInput invocation tensorIndex = true ∧
      (groupMembers invocations groupIndex).countP
        (replicaOfFed tasks invocation tensorIndex) = 1 := by
  unfold isFedReplica at h
  have hcount := of_decide_eq_true h
  obtain ⟨reached, -, hreached⟩ := List.countP_pos_iff.1 (by omega :
    0 < (groupMembers invocations groupIndex).countP
      (multicastReaches tasks invocation tensorIndex))
  obtain ⟨task, translation, htask, hmatch, -, hadd⟩ := multicastReaches_iff.1 hreached
  obtain ⟨hinput, -⟩ := replica_input hmatch (hasInput_of_selected htask)
  -- the translated place is that of the invocation, whichever member it is translated from
  have hrange : ¬((invocation.routing tensorIndex).dataAddend < int64Min ∨
      int64Max < (invocation.routing tensorIndex).dataAddend) := by
    have hsum := checkedAddI64_eq_some hadd
    unfold checkedAddI64 at hadd
    rw [← hsum] at hadd
    split_ifs at hadd with hrange
    exact hrange
  refine ⟨hinput, ?_⟩
  rw [← hcount]
  refine List.countP_congr fun member _ => ?_
  rw [multicastReaches_iff]
  unfold replicaOfFed
  rw [decide_eq_true_eq]
  constructor
  · rintro ⟨⟨task, htask, hmulticast⟩, hsome⟩
    obtain ⟨translation, hmatch⟩ := Option.isSome_iff_exists.1 hsome
    refine ⟨task, translation, htask, hmatch, hmulticast, ?_⟩
    obtain ⟨-, haddend⟩ := replica_input hmatch (hasInput_of_selected htask)
    unfold checkedAddI64
    rw [← haddend]
    exact if_neg hrange
  · rintro ⟨task, translation, htask, hmatch, hmulticast, -⟩
    exact ⟨⟨task, htask, hmulticast⟩, by rw [hmatch]; rfl⟩

/-! ## Soundness -/

/-- An observation without flags is sound. -/
theorem graphInputCover_of_flags
    (h : graphInputFlags invocations tasks groupIndex tensorIndex = 0)
    (hne : groupTasks invocations tasks groupIndex tensorIndex ≠ []) :
    GraphInputCover invocations tasks
      (graphInputActCover invocations tasks groupIndex tensorIndex) := by
  unfold graphInputFlags at h
  simp only [or_eq_zero_iff, orAll_map_eq_zero_iff,
    flagIf_eq_zero_iff (show graphInputActReplicaUnresolved ≠ 0 by decide),
    flagIf_eq_zero_iff (show graphInputActDmaTaskReused ≠ 0 by decide),
    flagIf_eq_zero_iff (show graphInputActSourceMismatch ≠ 0 by decide),
    flagIf_eq_zero_iff (show graphInputActSourceCoverUnresolved ≠ 0 by decide),
    flagIf_eq_zero_iff (show graphInputActInvocationUnclassified ≠ 0 by decide),
    not_not, Bool.not_eq_false, not_or, not_exists, not_and] at h
  obtain ⟨⟨⟨⟨⟨⟨hfeeding, hreplicas⟩, hnodup⟩, hsymbol⟩, haddressable⟩, -⟩, hoverlap, hmerged,
    hspan⟩ := h
  have hreplica : ∀ invocation ∈ groupMembers invocations groupIndex,
      selectedTask tasks invocation tensorIndex = none →
      hasInput invocation tensorIndex = true ∧ (groupMembers invocations groupIndex).countP
        (replicaOfFed tasks invocation tensorIndex) = 1 := by
    intro invocation hmember hunfed
    exact isFedReplica_iff (hreplicas invocation
      (List.mem_filter.2 ⟨hmember, decide_eq_true hunfed⟩))
  have hinput : ∀ invocation ∈ groupMembers invocations groupIndex,
      hasInput invocation tensorIndex = true := by
    intro invocation hmember
    cases hselected : selectedTask tasks invocation tensorIndex with
    | none => exact (hreplica invocation hmember hselected).1
    | some task => exact hasInput_of_selected hselected
  obtain ⟨span, hmerge⟩ := List.length_eq_one_iff.1 hmerged
  have hpair : mergeOutputByteIntervals ((groupTasks invocations tasks groupIndex
      tensorIndex).filterMap (inputInterval tasks)) = ([span], false) :=
    Prod.ext hmerge (Bool.eq_false_iff.2 hoverlap)
  have hle := hspan span (by rw [hmerge]; exact List.mem_cons_self)
  have hbytes : (graphInputActCover invocations tasks groupIndex tensorIndex).sourceSpanBytes =
      span.stop - span.start := by
    unfold graphInputActCover
    simp only [hpair, if_neg hle]
  constructor
  case nonempty => exact hne
  case fed_or_replica =>
    intro invocation hmember
    cases hselected : selectedTask tasks invocation tensorIndex with
    | some task =>
      exact Or.inl ⟨task, hselected, inputFed_of_selected (hfeeding _ hmember) hselected⟩
    | none =>
      refine Or.inr ⟨?_, (hreplica invocation hmember hselected).2⟩
      exact not_addressMatched_of_unselected (hfeeding _ hmember) (hinput _ hmember) hselected
  case ordered =>
    exact fun invocation hmember task haddress =>
      ordered_of_feedingFlags (hfeeding _ hmember) (hinput _ hmember) haddress
  case tasks_ne => exact hnodup
  case symbol_eq =>
    intro task htask
    have hfirst := hsymbol task htask
    unfold graphInputActCover
    dsimp only
    rw [← hfirst]
    rfl
  case addressable => exact haddressable
  case apart => exact Interval.apart_of_not_overlap (Bool.eq_false_iff.2 hoverlap)
  case union_eq =>
    refine ⟨span.start, ?_⟩
    have hstop : span.start + (span.stop - span.start) = span.stop := by omega
    rw [hbytes, hstop]
    exact Interval.covered_of_merge_eq_singleton hmerge

/-- An exact cover of a graph input is sound. -/
theorem graph_input_cover_sound {groupCount : ℕ} {covers : List GraphInputActCoverObservation}
    (h : deriveGraphInputActCovers invocations tasks groupCount = .ok covers) :
    ∀ cover ∈ covers, cover.exactCover = true → GraphInputCover invocations tasks cover := by
  unfold deriveGraphInputActCovers at h
  obtain ⟨-, h⟩ := refuseIf_bind_eq_ok_iff.1 h
  obtain ⟨-, h⟩ := refuseIf_bind_eq_ok_iff.1 h
  obtain ⟨-, h⟩ := refuseIf_bind_eq_ok_iff.1 h
  obtain rfl := Except.ok.inj h
  intro cover hcover hexact
  obtain ⟨groupIndex, -, hcover⟩ := List.mem_flatMap.1 hcover
  obtain ⟨tensorIndex, htensor, rfl⟩ := List.mem_map.1 hcover
  refine graphInputCover_of_flags (of_decide_eq_true hexact) fun hnil => ?_
  have hlength := of_decide_eq_true (List.mem_filter.1 htensor).2
  rw [hnil] at hlength
  exact hlength rfl

/-- A task that copies an input of two bytes to two tiles. -/
def exampleInputTask : DmaTaskObservation :=
  exampleTask 0 2 0 1 ⟨.networkInput, 0, 26, 7, rVpu64, 0⟩ ⟨.cmx, 0, 0, 4, rVpu64Or, 100⟩ 0xc00000

/-- An invocation and its replica on another tile. -/
def exampleFed : List InvocationRoutingObservation :=
  [exampleInvocation 0 0 0 100 200 1 2, exampleInvocation 0 1 1 1100 1200 1 2]

theorem graph_input_cover_sound_example :
    GraphInputCover exampleFed [exampleInputTask]
      (graphInputActCover exampleFed [exampleInputTask] 0 0) := by
  have hcovers : deriveGraphInputActCovers exampleFed [exampleInputTask] 1 =
      .ok [graphInputActCover exampleFed [exampleInputTask] 0 0] := by
    decide +kernel
  exact graph_input_cover_sound hcovers _ List.mem_cons_self (by decide +kernel)

end Npunlock
