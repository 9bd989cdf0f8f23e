import Npunlock.Observations

/-!
# DMA fan-ins

`npunlock_derive_act_dma_source_candidates` finds the DMA tasks that spill the output of an
invocation to DDR memory, and `npunlock_derive_act_dma_fanin_observations` the task that
reads what the invocations of a group have spilled. `fanin_cover_sound` : on an exact cover
every invocation has one spill task, the spills are different tasks that tile a span of one
symbol, and one task reads this span after all of them.
-/

namespace Npunlock

/-! ## Spill tasks -/

/-- `npunlock_act_dma_source_candidate_observation`. -/
structure ActDmaSourceCandidateObservation where
  actGroupIndex : ℕ
  actInvocationIndex : ℕ
  actTensorRecordIndex : ℕ
  dmaSectionIndex : ℕ
  dmaTaskIndex : ℕ
  dmaEngineIndex : ℕ
  dmaCandidateCount : ℕ
  ddrSymbolTableIndex : ℕ
  ddrSymbolRaw : ℕ
  actDataAddendRaw : ℤ
  dmaSourceAddendRaw : ℤ
  ddrDestinationAddendRaw : ℤ
  spanBytes : ℕ
  barrierIntersectionRaw : ℕ
  dmaPostMaskRaw : ℕ
  deriving DecidableEq

/-- The section and the index of a task. -/
def DmaTaskObservation.task (dma : DmaTaskObservation) : ℕ × ℕ :=
  (dma.sectionIndex, dma.taskIndex)

/-- The section and the index of the task of a candidate. -/
def ActDmaSourceCandidateObservation.task (source : ActDmaSourceCandidateObservation) : ℕ × ℕ :=
  (source.dmaSectionIndex, source.dmaTaskIndex)

/-- `dma_task_is_simple_contiguous`. -/
def dmaTaskIsSimpleContiguous (task : DmaTaskObservation) : Bool :=
  task.transferTypeRaw = 1 ∧ task.lengthBytes ≠ 0 ∧ task.numPlanesRaw = 0 ∧
    task.sourcePlaneStrideRaw = 0 ∧ task.destinationPlaneStrideRaw = 0 ∧
    task.sourceWidthRaw = task.lengthBytes ∧ 0 ≤ task.sourceStrideRaw ∧
    task.sourceStrideRaw.toNat = task.lengthBytes ∧
    task.destinationWidthRaw = task.lengthBytes ∧ 0 ≤ task.destinationStrideRaw ∧
    task.destinationStrideRaw.toNat = task.lengthBytes

/-- `act_dma_source_candidate_matches`. -/
def actDmaSourceCandidateMatches (act : InvocationRoutingObservation)
    (dma : DmaTaskObservation) : Bool :=
  let routing := act.routing (act.tensorCount - 1)
  let tensor := act.contract (act.tensorCount - 1)
  act.tensorCount ≠ 0 ∧ tensor.role = patchblobTensorRoleOutputV2 ∧ tensor.spanBytes ≠ 0 ∧
    tensor.spanBytes ≤ uint32Max ∧ 0 ≤ routing.dataAddend ∧
    dmaTaskIsSimpleContiguous dma = true ∧ dma.source.memoryKind = .cmx ∧
    dma.source.relocationType = rVpu64 ∧ dma.sourceValueRaw = 0 ∧
    dma.source.symbolRaw = routing.dataSymbol ∧ dma.source.addendRaw = routing.dataAddend ∧
    dma.lengthBytes = tensor.spanBytes ∧ dma.destination.memoryKind = .ddrBuffer ∧
    dma.destination.relocationType = rVpu64 ∧ dma.destinationValueRaw = 0 ∧
    0 ≤ dma.destination.addendRaw ∧ act.postMaskRaw &&& dma.waitMaskRaw ≠ 0

/-- The record that is written for a match. -/
def actDmaSourceCandidate (act : InvocationRoutingObservation) (localCount : ℕ)
    (dma : DmaTaskObservation) : ActDmaSourceCandidateObservation where
  actGroupIndex := act.groupIndex
  actInvocationIndex := act.invocationIndex
  actTensorRecordIndex := act.tensorCount - 1
  dmaSectionIndex := dma.sectionIndex
  dmaTaskIndex := dma.taskIndex
  dmaEngineIndex := dma.engineIndex
  dmaCandidateCount := localCount
  ddrSymbolTableIndex := dma.destination.symbolTableIndex
  ddrSymbolRaw := dma.destination.symbolRaw
  actDataAddendRaw := (act.routing (act.tensorCount - 1)).dataAddend
  dmaSourceAddendRaw := dma.source.addendRaw
  ddrDestinationAddendRaw := dma.destination.addendRaw
  spanBytes := (act.contract (act.tensorCount - 1)).spanBytes
  barrierIntersectionRaw := act.postMaskRaw &&& dma.waitMaskRaw
  dmaPostMaskRaw := dma.postMaskRaw

section Sources

variable (invocations : List InvocationRoutingObservation) (tasks : List DmaTaskObservation)

/-- The spill tasks of an invocation. -/
def spillTasks (act : InvocationRoutingObservation) : List DmaTaskObservation :=
  tasks.filter (actDmaSourceCandidateMatches act)

/-- The candidates of an invocation. -/
def dmaSourcesOf (act : InvocationRoutingObservation) : List ActDmaSourceCandidateObservation :=
  (spillTasks tasks act).map (actDmaSourceCandidate act (spillTasks tasks act).length)

/-- `npunlock_derive_act_dma_source_candidates`. -/
def deriveActDmaSourceCandidates : Result (List ActDmaSourceCandidateObservation) := do
  refuseIf (¬withinWorkBound
      ((checkedMulSize invocations.length tasks.length).bind (checkedMulSize · 2)))
    (unsupported "ACT/DMA candidate analysis exceeds its work bound")
  let resultCount :=
    (invocations.map fun act => tasks.countP (actDmaSourceCandidateMatches act)).sum
  refuseIf (sizeMax < resultCount) (unsupported "ACT/DMA candidate count overflows")
  if resultCount = 0 then .ok []
  else do
    refuseIf (∃ act ∈ invocations, uint32Max < (spillTasks tasks act).length)
      (unsupported "ACT/DMA ambiguity exceeds the supported range")
    refuseIf ((invocations.flatMap (dmaSourcesOf tasks)).length ≠ resultCount)
      (unsupported "ACT/DMA candidate count changed during inspection")
    .ok (invocations.flatMap (dmaSourcesOf tasks))

end Sources

/-- Both passes go over the same matches. -/
theorem length_dmaSources (invocations : List InvocationRoutingObservation)
    (tasks : List DmaTaskObservation) : (invocations.flatMap (dmaSourcesOf tasks)).length =
      (invocations.map fun act => tasks.countP (actDmaSourceCandidateMatches act)).sum := by
  simp only [List.length_flatMap, dmaSourcesOf, spillTasks, List.length_map,
    List.countP_eq_length_filter]

theorem deriveActDmaSourceCandidates_spec {invocations : List InvocationRoutingObservation}
    {tasks : List DmaTaskObservation} {sources : List ActDmaSourceCandidateObservation}
    (h : deriveActDmaSourceCandidates invocations tasks = .ok sources) :
    sources = invocations.flatMap (dmaSourcesOf tasks) := by
  unfold deriveActDmaSourceCandidates at h
  obtain ⟨-, h⟩ := refuseIf_bind_eq_ok_iff.1 h
  obtain ⟨-, h⟩ := refuseIf_bind_eq_ok_iff.1 h
  exact eq_of_counted (length_dmaSources invocations tasks).symm h

/-! ## Fan-in tasks -/

/-- `npunlock_act_dma_fanin_observation`. -/
structure ActDmaFaninObservation where
  actGroupIndex : ℕ
  invocationCount : ℕ
  matchedInvocationCount : ℕ
  sourceDmaTaskCount : ℕ
  faninCandidateCount : ℕ := 0
  faninDmaSectionIndex : ℕ := 0
  faninDmaTaskIndex : ℕ := 0
  faninDmaEngineIndex : ℕ := 0
  ddrSymbolTableIndex : ℕ := 0
  ddrSymbolRaw : ℕ := 0
  cmxDestinationSymbolTableIndex : ℕ := 0
  cmxDestinationSymbolRaw : ℕ := 0
  ddrSourceAddendRaw : ℤ := 0
  spanBytes : ℕ := 0
  cmxDestinationAddendRaw : ℤ := 0
  cmxDestinationValueRaw : ℕ := 0
  faninWaitMaskRaw : ℕ := 0
  faninPostMaskRaw : ℕ := 0
  unresolvedFlags : ℕ := 0
  exactCover : Bool := false
  deriving DecidableEq

/-- `NPUNLOCK_ACT_DMA_FANIN_SOURCE_UNCLASSIFIED`. -/
def actDmaFaninSourceUnclassified : ℕ := 1

/-- `NPUNLOCK_ACT_DMA_FANIN_SOURCE_AMBIGUOUS`. -/
def actDmaFaninSourceAmbiguous : ℕ := 2

/-- `NPUNLOCK_ACT_DMA_FANIN_SOURCE_TASK_REUSED`. -/
def actDmaFaninSourceTaskReused : ℕ := 4

/-- `NPUNLOCK_ACT_DMA_FANIN_DDR_COVER_UNRESOLVED`. -/
def actDmaFaninDdrCoverUnresolved : ℕ := 8

/-- `NPUNLOCK_ACT_DMA_FANIN_TASK_AMBIGUOUS`. -/
def actDmaFaninTaskAmbiguous : ℕ := 16

/-- The bytes that a spill writes, if they are addressable. -/
def spillInterval (source : ActDmaSourceCandidateObservation) : Option OutputByteInterval :=
  byteInterval (unsigned64 source.ddrDestinationAddendRaw) source.spanBytes

/-- `dma_fanin_task_matches` : the task reads a span of DDR memory after all spills. -/
def dmaFaninTaskMatches (selected : List ActDmaSourceCandidateObservation)
    (ddrSymbolTableIndex ddrSymbolRaw ddrStart ddrSpan : ℕ) (fanin : DmaTaskObservation) : Bool :=
  ddrSpan ≠ 0 ∧ ddrSpan ≤ uint32Max ∧ (ddrStart : ℤ) ≤ int64Max ∧
    dmaTaskIsSimpleContiguous fanin = true ∧ fanin.source.memoryKind = .ddrBuffer ∧
    fanin.source.relocationType = rVpu64 ∧ fanin.sourceValueRaw = 0 ∧
    fanin.source.symbolTableIndex = ddrSymbolTableIndex ∧
    fanin.source.symbolRaw = ddrSymbolRaw ∧ fanin.source.addendRaw = ddrStart ∧
    fanin.lengthBytes = ddrSpan ∧ fanin.destination.memoryKind = .cmx ∧
    fanin.destination.relocationType = rVpu64Or ∧ fanin.destinationValueRaw = 0xc00000 ∧
    0 ≤ fanin.destination.addendRaw ∧
    ∀ source ∈ selected, source.task ≠ fanin.task ∧
      source.dmaPostMaskRaw &&& fanin.waitMaskRaw ≠ 0

section Fanin

variable (invocations : List InvocationRoutingObservation) (tasks : List DmaTaskObservation)
  (sources : List ActDmaSourceCandidateObservation)

/-- The candidates of the output of an invocation of a group. -/
def faninSources (groupIndex : ℕ) (invocation : InvocationRoutingObservation) :
    List ActDmaSourceCandidateObservation :=
  sources.filter fun source => source.actGroupIndex = groupIndex ∧
    source.actInvocationIndex = invocation.invocationIndex ∧
    (source.actTensorRecordIndex + 1) % 2 ^ 32 = invocation.tensorCount

/-- The only candidate of an invocation, if its task is the only spill task. -/
def faninSource (groupIndex : ℕ) (invocation : InvocationRoutingObservation) :
    Option ActDmaSourceCandidateObservation :=
  match faninSources sources groupIndex invocation with
  | [selected] => if selected.dmaCandidateCount = 1 then some selected else none
  | _ => none

/-- The flags that an invocation adds. -/
def faninSourceFlags (groupIndex : ℕ) (invocation : InvocationRoutingObservation) : ℕ :=
  match faninSource sources groupIndex invocation with
  | some selected => flagIf (spillInterval selected = none) actDmaFaninDdrCoverUnresolved
  | none => actDmaFaninSourceUnclassified |||
    flagIf (1 < (faninSources sources groupIndex invocation).length ∨
      ∃ selected ∈ (faninSources sources groupIndex invocation).getLast?,
        selected.dmaCandidateCount ≠ 1) actDmaFaninSourceAmbiguous

/-- `selected_candidate_indices` : the candidates of the invocations that are matched. -/
def faninSelection (groupIndex : ℕ) : List ActDmaSourceCandidateObservation :=
  ((groupMembers invocations groupIndex).filterMap (faninSource sources groupIndex)).filter
    fun source => spillInterval source ≠ none

/-- The DDR symbol that the first selected candidate sets. -/
def faninDdrSymbol (selected : List ActDmaSourceCandidateObservation) : ℕ × ℕ :=
  match selected with
  | [] => (0, 0)
  | source :: _ => (source.ddrSymbolTableIndex, source.ddrSymbolRaw)

/-- The flags before the spans are merged. -/
def faninFlags (groupIndex : ℕ) : ℕ :=
  let selected := faninSelection invocations sources groupIndex
  orAll ((groupMembers invocations groupIndex).map (faninSourceFlags sources groupIndex)) |||
    flagIf (∃ source ∈ selected, (source.ddrSymbolTableIndex, source.ddrSymbolRaw) ≠
      faninDdrSymbol selected) actDmaFaninDdrCoverUnresolved |||
    flagIf ((firsts (·.task) selected).length ≠ selected.length) actDmaFaninSourceTaskReused

/-- The observation of a group. -/
def actDmaFanin (groupIndex : ℕ) : ActDmaFaninObservation :=
  let members := groupMembers invocations groupIndex
  let selected := faninSelection invocations sources groupIndex
  let flags := faninFlags invocations sources groupIndex
  let observation : ActDmaFaninObservation :=
    { actGroupIndex := groupIndex
      invocationCount := members.length
      matchedInvocationCount := selected.length
      sourceDmaTaskCount := (firsts (·.task) selected).length }
  if selected.length = members.length ∧ selected.length ≠ 0 ∧ flags = 0 then
    match mergeOutputByteIntervals (selected.filterMap spillInterval) with
    | ([ddr], false) =>
      match tasks.filter (dmaFaninTaskMatches selected (faninDdrSymbol selected).1
        (faninDdrSymbol selected).2 ddr.start (ddr.stop - ddr.start)) with
      | [fanin] =>
        { observation with
          faninCandidateCount := 1
          faninDmaSectionIndex := fanin.sectionIndex
          faninDmaTaskIndex := fanin.taskIndex
          faninDmaEngineIndex := fanin.engineIndex
          ddrSymbolTableIndex := (faninDdrSymbol selected).1
          ddrSymbolRaw := (faninDdrSymbol selected).2
          cmxDestinationSymbolTableIndex := fanin.destination.symbolTableIndex
          cmxDestinationSymbolRaw := fanin.destination.symbolRaw
          ddrSourceAddendRaw := ddr.start
          spanBytes := ddr.stop - ddr.start
          cmxDestinationAddendRaw := fanin.destination.addendRaw
          cmxDestinationValueRaw := fanin.destinationValueRaw
          faninWaitMaskRaw := fanin.waitMaskRaw
          faninPostMaskRaw := fanin.postMaskRaw
          unresolvedFlags := flags
          exactCover := true }
      | fanins =>
        { observation with
          faninCandidateCount := fanins.length
          unresolvedFlags := flags ||| actDmaFaninTaskAmbiguous }
    | _ => { observation with unresolvedFlags := flags ||| actDmaFaninDdrCoverUnresolved }
  else { observation with unresolvedFlags := flags ||| actDmaFaninDdrCoverUnresolved }

/-- The groups with a source candidate. -/
def sourceGroups (groupCount : ℕ) : List ℕ :=
  (List.range groupCount).filter fun groupIndex =>
    ∃ source ∈ sources, source.actGroupIndex = groupIndex

/-- `work_bound` of the fan-ins. -/
def actDmaFaninWorkBound (invocationCount groupCount taskCount sourceCount : ℕ) : Option ℕ := do
  let workTerm ← checkedAddSize sourceCount invocationCount
  let workTerm ← checkedAddSize workTerm taskCount
  let workBound ← checkedMulSize invocationCount workTerm
  let workBound ← checkedAddSize workBound sourceCount
  checkedMulSize groupCount workBound

/-- `npunlock_derive_act_dma_fanin_observations`. -/
def deriveActDmaFaninObservations (groupCount : ℕ) : Result (List ActDmaFaninObservation) := do
  refuseIf (uint32Max < groupCount ∨ uint32Max < invocations.length ∨ uint32Max < sources.length ∨
      uint32Max < tasks.length ∨ ¬withinWorkBound (actDmaFaninWorkBound invocations.length
        groupCount tasks.length sources.length))
    (unsupported "ACT/DMA fan-in analysis exceeds its work bound")
  let observations := (sourceGroups sources groupCount).map (actDmaFanin invocations tasks sources)
  refuseIf (observations.length ≠ (sourceGroups sources groupCount).length)
    (unsupported "ACT/DMA fan-in count changed during inspection")
  .ok observations

end Fanin

/-! ## Exact covers -/

variable {invocations : List InvocationRoutingObservation} {tasks : List DmaTaskObservation}
  {sources : List ActDmaSourceCandidateObservation} {groupIndex : ℕ}

/-- A fan-in task reads the span of a cover after all its spills. -/
structure FaninTask (selected : List ActDmaSourceCandidateObservation)
    (cover : ActDmaFaninObservation) (fanin : DmaTaskObservation) : Prop where
  task_eq : fanin.task = (cover.faninDmaSectionIndex, cover.faninDmaTaskIndex)
  contiguous : dmaTaskIsSimpleContiguous fanin = true
  source_eq : fanin.source.memoryKind = .ddrBuffer ∧
    fanin.source.symbolTableIndex = cover.ddrSymbolTableIndex ∧
    fanin.source.symbolRaw = cover.ddrSymbolRaw ∧
    fanin.source.addendRaw = cover.ddrSourceAddendRaw
  length_eq : fanin.lengthBytes = cover.spanBytes
  destination_eq : fanin.destination.memoryKind = .cmx ∧
    fanin.destination.symbolRaw = cover.cmxDestinationSymbolRaw ∧
    fanin.destination.addendRaw = cover.cmxDestinationAddendRaw
  masks_eq : fanin.waitMaskRaw = cover.faninWaitMaskRaw ∧
    fanin.postMaskRaw = cover.faninPostMaskRaw
  task_ne : ∀ source ∈ selected, source.task ≠ fanin.task
  ordered : ∀ source ∈ selected, source.dmaPostMaskRaw &&& fanin.waitMaskRaw ≠ 0

/-- The spills of a group tile the span of its cover, and one task reads the span. -/
structure FaninCover (invocations : List InvocationRoutingObservation)
    (tasks : List DmaTaskObservation) (sources : List ActDmaSourceCandidateObservation)
    (cover : ActDmaFaninObservation) (selected : List ActDmaSourceCandidateObservation) :
    Prop where
  nonempty : groupMembers invocations cover.actGroupIndex ≠ []
  one_source : List.Forall₂ (fun invocation source =>
      faninSources sources cover.actGroupIndex invocation = [source] ∧
        source.dmaCandidateCount = 1)
    (groupMembers invocations cover.actGroupIndex) selected
  tasks_ne : (selected.map (·.task)).Nodup
  symbol_eq : ∀ source ∈ selected, source.ddrSymbolTableIndex = cover.ddrSymbolTableIndex ∧
    source.ddrSymbolRaw = cover.ddrSymbolRaw
  addressable : ∀ source ∈ selected, spillInterval source ≠ none
  apart : (selected.filterMap spillInterval).Pairwise Interval.Apart
  union_eq : Interval.covered (selected.filterMap spillInterval) =
    Interval.points ⟨cover.ddrSourceAddendRaw.toNat,
      cover.ddrSourceAddendRaw.toNat + cover.spanBytes⟩
  start_nonneg : 0 ≤ cover.ddrSourceAddendRaw
  one_fanin : ∃ fanin, tasks.filter (dmaFaninTaskMatches selected cover.ddrSymbolTableIndex
    cover.ddrSymbolRaw cover.ddrSourceAddendRaw.toNat cover.spanBytes) = [fanin] ∧
      FaninTask selected cover fanin

theorem faninSource_eq_some_iff {invocation : InvocationRoutingObservation}
    {source : ActDmaSourceCandidateObservation} :
    faninSource sources groupIndex invocation = some source ↔
      faninSources sources groupIndex invocation = [source] ∧ source.dmaCandidateCount = 1 := by
  unfold faninSource
  constructor
  · intro h
    split at h
    · rename_i selected heq
      split_ifs at h with hcount
      obtain rfl := Option.some.inj h
      exact ⟨heq, hcount⟩
    · cases h
  · rintro ⟨heq, hcount⟩
    rw [heq]
    exact if_pos hcount

/-- An invocation without a flag has one candidate, with an addressable span. -/
theorem of_faninSourceFlags {invocation : InvocationRoutingObservation}
    (h : faninSourceFlags sources groupIndex invocation = 0) : ∃ source,
      faninSource sources groupIndex invocation = some source ∧ spillInterval source ≠ none := by
  unfold faninSourceFlags at h
  split at h
  · rename_i source heq
    exact ⟨source, heq, (flagIf_eq_zero_iff (by decide)).1 h⟩
  · exact absurd (or_eq_zero_iff.1 h).1 (by decide)

/-- Without flags every member has one candidate, and these are the selected ones. -/
theorem forall₂_faninSelection
    (h : ∀ invocation ∈ groupMembers invocations groupIndex,
      faninSourceFlags sources groupIndex invocation = 0) :
    List.Forall₂ (fun invocation source =>
        faninSources sources groupIndex invocation = [source] ∧ source.dmaCandidateCount = 1)
      (groupMembers invocations groupIndex) (faninSelection invocations sources groupIndex) := by
  unfold faninSelection
  generalize groupMembers invocations groupIndex = members at h ⊢
  induction members with
  | nil => exact List.Forall₂.nil
  | cons invocation rest ih =>
    obtain ⟨hfirst, hrest⟩ := List.forall_mem_cons.1 h
    obtain ⟨source, hsource, hinterval⟩ := of_faninSourceFlags hfirst
    rw [List.filterMap_cons_some hsource, List.filter_cons_of_pos (by simpa using hinterval)]
    exact List.Forall₂.cons (faninSource_eq_some_iff.1 hsource) (ih hrest)

/-- What an exact observation has passed. -/
theorem actDmaFanin_exact
    (h : (actDmaFanin invocations tasks sources groupIndex).exactCover = true) :
    ∃ (selected : List ActDmaSourceCandidateObservation) (ddr : OutputByteInterval)
      (fanin : DmaTaskObservation),
      selected = faninSelection invocations sources groupIndex ∧ selected.length ≠ 0 ∧
      selected.length = (groupMembers invocations groupIndex).length ∧
      faninFlags invocations sources groupIndex = 0 ∧
      mergeOutputByteIntervals (selected.filterMap spillInterval) = ([ddr], false) ∧
      tasks.filter (dmaFaninTaskMatches selected (faninDdrSymbol selected).1
        (faninDdrSymbol selected).2 ddr.start (ddr.stop - ddr.start)) = [fanin] ∧
      actDmaFanin invocations tasks sources groupIndex =
        { actGroupIndex := groupIndex
          invocationCount := (groupMembers invocations groupIndex).length
          matchedInvocationCount := selected.length
          sourceDmaTaskCount := (firsts (·.task) selected).length
          faninCandidateCount := 1
          faninDmaSectionIndex := fanin.sectionIndex
          faninDmaTaskIndex := fanin.taskIndex
          faninDmaEngineIndex := fanin.engineIndex
          ddrSymbolTableIndex := (faninDdrSymbol selected).1
          ddrSymbolRaw := (faninDdrSymbol selected).2
          cmxDestinationSymbolTableIndex := fanin.destination.symbolTableIndex
          cmxDestinationSymbolRaw := fanin.destination.symbolRaw
          ddrSourceAddendRaw := ddr.start
          spanBytes := ddr.stop - ddr.start
          cmxDestinationAddendRaw := fanin.destination.addendRaw
          cmxDestinationValueRaw := fanin.destinationValueRaw
          faninWaitMaskRaw := fanin.waitMaskRaw
          faninPostMaskRaw := fanin.postMaskRaw
          unresolvedFlags := 0
          exactCover := true } := by
  generalize hcover : actDmaFanin invocations tasks sources groupIndex = cover at h
  unfold actDmaFanin at hcover
  dsimp only at hcover
  split_ifs at hcover with hselected
  · obtain ⟨hlength, hne, hflags⟩ := hselected
    split at hcover
    · rename_i ddr hmerge
      split at hcover
      · rename_i fanin hfanin
        refine ⟨_, ddr, fanin, rfl, hne, hlength, hflags, hmerge, hfanin, ?_⟩
        rw [← hcover, hflags]
      · rw [← hcover] at h
        cases h
    · rw [← hcover] at h
      cases h
  · rw [← hcover] at h
    cases h

/-- An exact observation is sound. -/
theorem faninCover_of_exact
    (h : (actDmaFanin invocations tasks sources groupIndex).exactCover = true) :
    FaninCover invocations tasks sources (actDmaFanin invocations tasks sources groupIndex)
      (faninSelection invocations sources groupIndex) := by
  obtain ⟨selected, ddr, fanin, rfl, hne, hlength, hflags, hmerge, hfanin, hcover⟩ :=
    actDmaFanin_exact h
  unfold faninFlags at hflags
  simp only [or_eq_zero_iff, orAll_map_eq_zero_iff,
    flagIf_eq_zero_iff (show actDmaFaninDdrCoverUnresolved ≠ 0 by decide),
    flagIf_eq_zero_iff (show actDmaFaninSourceTaskReused ≠ 0 by decide)] at hflags
  obtain ⟨⟨hmembers, hsymbol⟩, htasks⟩ := hflags
  rw [hcover]
  have hselected := forall₂_faninSelection hmembers
  obtain ⟨hmem, hmatch, -⟩ := filter_eq_singleton hfanin
  unfold dmaFaninTaskMatches at hmatch
  obtain ⟨hspan, -, -, hcontiguous, hkind, -, -, htable, hsymbolRaw, haddend, hlen, hdestination,
    -, -, -, hsources⟩ := of_decide_eq_true hmatch
  have hmerged : (Interval.merge ((faninSelection invocations sources groupIndex).filterMap
      spillInterval)).1 = [ddr] := congrArg Prod.fst hmerge
  have hstop : ddr.start + (ddr.stop - ddr.start) = ddr.stop := by omega
  constructor
  case nonempty =>
    rw [hlength] at hne
    exact fun hnil => hne (List.length_eq_zero_iff.2 hnil)
  case one_source => exact hselected
  case tasks_ne => exact length_firsts_eq_iff.1 (not_not.1 htasks)
  case symbol_eq =>
    intro source hsource
    by_contra hcontra
    exact hsymbol ⟨source, hsource, fun heq =>
      hcontra ⟨congrArg Prod.fst heq, congrArg Prod.snd heq⟩⟩
  case addressable =>
    intro source hsource
    exact of_decide_eq_true (List.mem_filter.1 hsource).2
  case apart => exact Interval.apart_of_not_overlap (congrArg Prod.snd hmerge)
  case union_eq =>
    rw [Interval.covered_of_merge_eq_singleton hmerged]
    dsimp only
    rw [Int.toNat_natCast, hstop]
  case start_nonneg => exact Int.natCast_nonneg _
  case one_fanin =>
    refine ⟨fanin, hfanin, ?_⟩
    exact ⟨rfl, hcontiguous, ⟨hkind, htable, hsymbolRaw, haddend⟩, hlen, ⟨hdestination, rfl, rfl⟩,
      ⟨rfl, rfl⟩, fun source hs => (hsources source hs).1, fun source hs => (hsources source hs).2⟩

/-! ## Derived candidates -/

theorem mem_dmaSourcesOf {act : InvocationRoutingObservation}
    {source : ActDmaSourceCandidateObservation} :
    source ∈ dmaSourcesOf tasks act ↔ ∃ dma ∈ spillTasks tasks act,
      actDmaSourceCandidate act (spillTasks tasks act).length dma = source := by
  unfold dmaSourcesOf
  rw [List.mem_map]

/-- A candidate whose task is the only one of its invocation. -/
theorem spillTasks_eq_singleton {act : InvocationRoutingObservation}
    {source : ActDmaSourceCandidateObservation} (h : source ∈ dmaSourcesOf tasks act)
    (hcount : source.dmaCandidateCount = 1) :
    ∃ dma, spillTasks tasks act = [dma] ∧ source = actDmaSourceCandidate act 1 dma := by
  obtain ⟨dma, hdma, rfl⟩ := mem_dmaSourcesOf.1 h
  have hone : (spillTasks tasks act).length = 1 := hcount
  obtain ⟨only, honly⟩ := List.length_eq_one_iff.1 hone
  rw [honly, List.mem_singleton] at hdma
  exact ⟨only, honly, by rw [hone, hdma]⟩

theorem tensorCount_ne_zero_of_mem {act : InvocationRoutingObservation}
    {dma : DmaTaskObservation} (h : dma ∈ spillTasks tasks act) : act.tensorCount ≠ 0 := by
  have hmatch := (List.mem_filter.1 h).2
  unfold actDmaSourceCandidateMatches at hmatch
  exact (of_decide_eq_true hmatch).1

/-- Members with the same candidates are the same, as their tasks are different. -/
theorem FaninCover.eq_of_sources_eq {cover : ActDmaFaninObservation}
    {selected : List ActDmaSourceCandidateObservation}
    (h : FaninCover invocations tasks sources cover selected)
    {m m' : InvocationRoutingObservation} (hm : m ∈ groupMembers invocations cover.actGroupIndex)
    (hm' : m' ∈ groupMembers invocations cover.actGroupIndex)
    (heq : faninSources sources cover.actGroupIndex m =
      faninSources sources cover.actGroupIndex m') : m = m' := by
  have hmap : (groupMembers invocations cover.actGroupIndex).map
      (faninSources sources cover.actGroupIndex) = selected.map fun source => [source] := by
    rw [← List.forall₂_eq_eq_eq, List.forall₂_map_left_iff, List.forall₂_map_right_iff]
    exact h.one_source.imp fun _ _ h => h.1
  have hnodup : ((groupMembers invocations cover.actGroupIndex).map
      (faninSources sources cover.actGroupIndex)).Nodup := by
    rw [hmap]
    exact h.tasks_ne.of_map.map fun _ _ h => (List.cons.inj h).1
  exact List.inj_on_of_nodup_map hnodup hm hm' heq

/-- Over derived candidates, every member of an exact group has one spill task. -/
theorem FaninCover.one_task {cover : ActDmaFaninObservation}
    {selected : List ActDmaSourceCandidateObservation}
    (h : FaninCover invocations tasks (invocations.flatMap (dmaSourcesOf tasks)) cover selected) :
    List.Forall₂ (fun invocation source => ∃ dma, spillTasks tasks invocation = [dma] ∧
        source = actDmaSourceCandidate invocation 1 dma)
      (groupMembers invocations cover.actGroupIndex) selected := by
  refine ((List.forall₂_and_left _ _).2 ⟨fun m hm => hm, h.one_source⟩).imp ?_
  rintro m source ⟨hm, hone, hcount⟩
  obtain ⟨hmem, hkey, -⟩ := filter_eq_singleton hone
  obtain ⟨m', hm', hsource⟩ := List.mem_flatMap.1 hmem
  obtain ⟨hgroup, hindex, -⟩ := of_decide_eq_true hkey
  obtain ⟨dma, hdma, hrecord⟩ := mem_dmaSourcesOf.1 hsource
  have hne := tensorCount_ne_zero_of_mem hdma
  have hgroup' : source.actGroupIndex = m'.groupIndex := by rw [← hrecord]; rfl
  have hindex' : source.actInvocationIndex = m'.invocationIndex := by rw [← hrecord]; rfl
  have htensor' : source.actTensorRecordIndex = m'.tensorCount - 1 := by rw [← hrecord]; rfl
  have hmember : m' ∈ groupMembers invocations cover.actGroupIndex :=
    mem_groupMembers.2 ⟨hm', hgroup'.symm.trans hgroup⟩
  -- the invocation that the candidate was made for has one candidate as well, and it is this one
  obtain ⟨source', -, hone', -⟩ := exists_of_forall₂ h.one_source hmember
  obtain ⟨-, hkey', hall⟩ := filter_eq_singleton hone'
  obtain ⟨-, -, htensor⟩ := of_decide_eq_true hkey'
  have hown : source = source' := by
    refine hall source hmem (decide_eq_true ⟨hgroup, hindex', ?_⟩)
    rw [htensor', Nat.sub_add_cancel (by omega)]
    omega
  rw [← hown] at hone'
  obtain rfl := h.eq_of_sources_eq hm hmember (hone.trans hone'.symm)
  exact spillTasks_eq_singleton hsource hcount

/-- An exact fan-in cover of derived candidates is sound : its spills tile one span, which
one task reads after them, and each of them is the only spill task of its invocation. -/
theorem fanin_cover_sound {groupCount : ℕ} {observations : List ActDmaFaninObservation}
    (h : deriveActDmaFaninObservations invocations tasks sources groupCount = .ok observations) :
    ∀ cover ∈ observations, cover.exactCover = true →
      ∃ selected, FaninCover invocations tasks sources cover selected ∧
        (deriveActDmaSourceCandidates invocations tasks = .ok sources →
          List.Forall₂ (fun invocation source => ∃ dma, spillTasks tasks invocation = [dma] ∧
              source = actDmaSourceCandidate invocation 1 dma)
            (groupMembers invocations cover.actGroupIndex) selected) := by
  unfold deriveActDmaFaninObservations at h
  obtain ⟨-, h⟩ := refuseIf_bind_eq_ok_iff.1 h
  obtain ⟨-, h⟩ := refuseIf_bind_eq_ok_iff.1 h
  obtain rfl := Except.ok.inj h
  intro cover hcover hexact
  obtain ⟨groupIndex, -, rfl⟩ := List.mem_map.1 hcover
  have hsound := faninCover_of_exact hexact
  refine ⟨_, hsound, fun hderived => ?_⟩
  obtain rfl := deriveActDmaSourceCandidates_spec hderived
  exact hsound.one_task

/-- Two members of a group. -/
def exampleSpilling : List InvocationRoutingObservation :=
  [exampleInvocation 0 0 0 0 100 0 1, exampleInvocation 0 1 1 10 110 0 1]

/-- A spill task for each member, and a task that reads both spills. -/
def exampleSpillTasks : List DmaTaskObservation :=
  [exampleTask 0 2 1 2 ⟨.cmx, 0, 0, 4, rVpu64, 100⟩ ⟨.ddrBuffer, 0, 26, 1, rVpu64, 0⟩ 0,
    exampleTask 1 2 1 2 ⟨.cmx, 0, 0, 4, rVpu64, 110⟩ ⟨.ddrBuffer, 0, 26, 1, rVpu64, 2⟩ 0,
    exampleTask 2 4 2 4 ⟨.ddrBuffer, 0, 26, 1, rVpu64, 0⟩ ⟨.cmx, 0, 0, 4, rVpu64Or, 500⟩ 0xc00000]

theorem fanin_cover_sound_example : ∃ selected,
    FaninCover exampleSpilling exampleSpillTasks
      (exampleSpilling.flatMap (dmaSourcesOf exampleSpillTasks))
      (actDmaFanin exampleSpilling exampleSpillTasks
        (exampleSpilling.flatMap (dmaSourcesOf exampleSpillTasks)) 0) selected := by
  have hobservations : deriveActDmaFaninObservations exampleSpilling exampleSpillTasks
      (exampleSpilling.flatMap (dmaSourcesOf exampleSpillTasks)) 1 =
        .ok [actDmaFanin exampleSpilling exampleSpillTasks
          (exampleSpilling.flatMap (dmaSourcesOf exampleSpillTasks)) 0] := by
    decide +kernel
  obtain ⟨selected, hcover, -⟩ := fanin_cover_sound hobservations _ List.mem_cons_self
    (by decide +kernel)
  exact ⟨selected, hcover⟩

end Npunlock
