import Npunlock.Counting
import Npunlock.Intervals
import Npunlock.Target

/-!
# Routing observations

The records that `npunlock_inspect_graph_routing` reads from a graph : invocations with the
places of their tensors, DMA tasks, routes to the network outputs and DPU invariants. The
derivations combine them. An array with a count is the list of its entries, and an entry
behind the last one reads as the zeros that the source allocates.

The tables here are inputs of the derivations, whatever their origin, and the comparison
bound of the derivations is checked as the source does it. The sizes of allocations are
left out, like the allocations.
-/

namespace Npunlock

/-! ## Invocations -/

/-- `npunlock_tensor_routing_observation`. -/
structure TensorRoutingObservation where
  dataSymbol : ℕ
  dataAddend : ℤ
  rank : ℕ
  dimensions : List ℤ
  stridesBits : List ℤ
  deriving DecidableEq

/-- `npunlock_invocation_routing_observation`. -/
structure InvocationRoutingObservation where
  groupIndex : ℕ
  codeOffsetRaw : ℕ
  codeExtent : ℕ
  codeSha256 : List UInt8
  tileCandidateRaw : ℕ
  parameterBase : ℕ
  waitMaskRaw : ℕ
  postMaskRaw : ℕ
  barrierGroupRaw : ℕ
  barrierMaskRaw : ℕ
  startAfterRaw : ℕ
  cleanAfterRaw : ℕ
  target : PatchblobTargetV2
  tensors : List TensorRoutingObservation
  deriving DecidableEq

instance : Inhabited TensorContractV2 :=
  ⟨⟨0, 0, 0, 0, 0, 0, 0⟩⟩

instance : Inhabited TensorRoutingObservation :=
  ⟨⟨0, 0, 0, [], []⟩⟩

namespace InvocationRoutingObservation

variable (invocation : InvocationRoutingObservation)

/-- `target.tensors[index]`. -/
def contract (index : ℕ) : TensorContractV2 :=
  invocation.target.tensors.getD index default

/-- `tensors[index]`. -/
def routing (index : ℕ) : TensorRoutingObservation :=
  invocation.tensors.getD index default

/-- `target.tensor_count`. -/
def tensorCount : ℕ :=
  invocation.target.tensorCount

/-- `target.invocation_index`. -/
def invocationIndex : ℕ :=
  invocation.target.invocationIndex

end InvocationRoutingObservation

/-- The invocations of a group. -/
def groupMembers (invocations : List InvocationRoutingObservation) (groupIndex : ℕ) :
    List InvocationRoutingObservation :=
  invocations.filter fun invocation => invocation.groupIndex = groupIndex

theorem mem_groupMembers {invocations : List InvocationRoutingObservation} {groupIndex : ℕ}
    {invocation : InvocationRoutingObservation} :
    invocation ∈ groupMembers invocations groupIndex ↔
      invocation ∈ invocations ∧ invocation.groupIndex = groupIndex := by
  unfold groupMembers
  rw [List.mem_filter, decide_eq_true_eq]

/-- Invocations with the same index are the same. -/
theorem eq_of_invocationIndex_eq {invocations : List InvocationRoutingObservation}
    (hindices : (invocations.map (·.invocationIndex)).Nodup)
    {left right : InvocationRoutingObservation} (hleft : left ∈ invocations)
    (hright : right ∈ invocations) (h : left.invocationIndex = right.invocationIndex) :
    left = right :=
  List.inj_on_of_nodup_map hindices hleft hright h

theorem nodup_groupMembers {invocations : List InvocationRoutingObservation} {groupIndex : ℕ}
    (hindices : (invocations.map (·.invocationIndex)).Nodup) :
    ((groupMembers invocations groupIndex).map (·.invocationIndex)).Nodup :=
  hindices.sublist (List.filter_sublist.map _)

/-- An invocation with an input and an output of two bytes at places of one symbol. -/
def exampleInvocation (groupIndex invocationIndex tile : ℕ) (input output : ℤ)
    (waitMask postMask : ℕ) : InvocationRoutingObservation where
  groupIndex := groupIndex
  codeOffsetRaw := 0
  codeExtent := 0
  codeSha256 := []
  tileCandidateRaw := tile
  parameterBase := 0
  waitMaskRaw := waitMask
  postMaskRaw := postMask
  barrierGroupRaw := 0
  barrierMaskRaw := 0
  startAfterRaw := 0
  cleanAfterRaw := 0
  target :=
    { abiVersion := 2
      invocationIndex := invocationIndex
      rangeIndex := 0
      targetFlags := 0
      tensors := [⟨40, patchblobTensorRoleInputV2, 0, 0, 1, 2, 0⟩,
        ⟨40, patchblobTensorRoleOutputV2, 1, 0, 1, 2, 0⟩] }
  tensors := [⟨4, input, 1, [1], [16]⟩, ⟨4, output, 1, [1], [16]⟩]

/-! ## Tasks, routes and invariants -/

/-- The `NPUNLOCK_DMA_ENDPOINT` kinds of memory. -/
inductive DmaEndpoint
  | unknown
  | cmx
  | ddrBuffer
  | constant
  | networkInput
  | networkOutput
  | runtime
  deriving DecidableEq

/-- `npunlock_dma_endpoint_observation`. -/
structure DmaEndpointObservation where
  memoryKind : DmaEndpoint
  relocationSectionIndex : ℕ
  symbolTableIndex : ℕ
  symbolRaw : ℕ
  relocationType : ℕ
  addendRaw : ℤ
  deriving DecidableEq

/-- `npunlock_dma_task_observation`. -/
structure DmaTaskObservation where
  sectionIndex : ℕ
  taskIndex : ℕ
  engineIndex : ℕ
  transferTypeRaw : ℕ
  lengthBytes : ℕ
  numPlanesRaw : ℕ
  taskIdRaw : ℕ
  sourcePlaneStrideRaw : ℤ
  destinationPlaneStrideRaw : ℤ
  sourceWidthRaw : ℕ
  sourceStrideRaw : ℤ
  destinationWidthRaw : ℕ
  destinationStrideRaw : ℤ
  waitMaskRaw : ℕ
  postMaskRaw : ℕ
  startAfterRaw : ℕ
  cleanAfterRaw : ℕ
  sourceValueRaw : ℕ
  destinationValueRaw : ℕ
  source : DmaEndpointObservation
  destination : DmaEndpointObservation
  deriving DecidableEq

/-- A task that copies a number of bytes from one place to another. -/
def exampleTask (taskIndex length waitMask postMask : ℕ)
    (source destination : DmaEndpointObservation) (destinationValue : ℕ) :
    DmaTaskObservation where
  sectionIndex := 5
  taskIndex := taskIndex
  engineIndex := 0
  transferTypeRaw := 1
  lengthBytes := length
  numPlanesRaw := 0
  taskIdRaw := 0
  sourcePlaneStrideRaw := 0
  destinationPlaneStrideRaw := 0
  sourceWidthRaw := length
  sourceStrideRaw := length
  destinationWidthRaw := length
  destinationStrideRaw := length
  waitMaskRaw := waitMask
  postMaskRaw := postMask
  startAfterRaw := 0
  cleanAfterRaw := 0
  sourceValueRaw := 0
  destinationValueRaw := destinationValue
  source := source
  destination := destination

/-- `npunlock_network_output_route_observation`. -/
structure NetworkOutputRouteObservation where
  dmaSectionIndex : ℕ
  dmaTaskIndex : ℕ
  cmxSourceSymbolRaw : ℕ
  cmxSourceAddendRaw : ℤ
  outputSymbolRaw : ℕ
  outputAddendRaw : ℤ
  lengthBytes : ℕ
  deriving DecidableEq

/-- `npunlock_dpu_cmx_address_observation`. -/
structure DpuCmxAddressObservation where
  fieldIndex : ℕ
  relocationType : ℕ
  dataSymbolRaw : ℕ
  dataAddendRaw : ℤ
  deriving DecidableEq

/-- `npunlock_dpu_invariant_observation`. -/
structure DpuInvariantObservation where
  sectionIndex : ℕ
  invariantIndex : ℕ
  clusterRaw : ℕ
  waitMaskRaw : ℕ
  postMaskRaw : ℕ
  barrierGroupRaw : ℕ
  barrierMaskRaw : ℕ
  startAfterRaw : ℕ
  cleanAfterRaw : ℕ
  variantCountRaw : ℕ
  inputDimensionsXyz : List ℕ
  inputDtypeRaw : ℕ
  inputDenseRaw : ℕ
  inputElementCount : ℕ
  inputSpanBytes : ℕ
  outputDimensionsXyz : List ℕ
  outputDtypeRaw : ℕ
  outputSparseRaw : ℕ
  outputElementCount : ℕ
  outputSpanBytes : ℕ
  inputs : List DpuCmxAddressObservation
  inputAmbiguousFieldsRaw : ℕ
  outputs : List DpuCmxAddressObservation
  deriving DecidableEq

/-- `NPUNLOCK_DPU_MAX_INPUT_RELOCATIONS`. -/
def dpuMaxInputRelocations : ℕ := 8

/-- `NPUNLOCK_DPU_MAX_OUTPUT_ADDRESSES`. -/
def dpuMaxOutputAddresses : ℕ := 4

/-! ## The comparison bound -/

/-- `ACT_EDGE_MAX_COMPARISONS`. -/
def actEdgeMaxComparisons : ℕ := 16777216

/-- The checked computation of a work bound has a result within the bound. -/
def withinWorkBound (bound : Option ℕ) : Prop :=
  ∃ work ∈ bound, work ≤ actEdgeMaxComparisons

instance (bound : Option ℕ) : Decidable (withinWorkBound bound) :=
  match bound with
  | none => .isFalse (by simp [withinWorkBound])
  | some work => decidable_of_iff (work ≤ actEdgeMaxComparisons) (by simp [withinWorkBound])

/-- One comparison of a counting loop, with the number of comparisons and of matches so far. -/
def countMatch (message countMessage : String) (matched : Bool) (counts : ℕ × ℕ) :
    Result (ℕ × ℕ) := do
  refuseIf (counts.1 = actEdgeMaxComparisons) (unsupported message)
  refuseIf (matched = true ∧ counts.2 = sizeMax) (unsupported countMessage)
  .ok (counts.1 + 1, if matched then counts.2 + 1 else counts.2)

/-- The records that a filling loop writes to an array with room for `capacity`. -/
def writeWithin {α : Type} (capacity : ℕ) (records : List α) : Result (List α) :=
  if capacity < records.length then .error .outOfBounds else .ok records

theorem countMatch_eq_ok {message countMessage : String} {matched : Bool} {counts counts' : ℕ × ℕ}
    (h : countMatch message countMessage matched counts = .ok counts') :
    counts' = (counts.1 + 1, counts.2 + if matched then 1 else 0) := by
  unfold countMatch at h
  obtain ⟨-, h⟩ := refuseIf_bind_eq_ok_iff.1 h
  obtain ⟨-, h⟩ := refuseIf_bind_eq_ok_iff.1 h
  cases h
  split_ifs <;> rfl

theorem writeWithin_eq_ok_iff {α : Type} {capacity : ℕ} {records written : List α} :
    writeWithin capacity records = .ok written ↔ records.length ≤ capacity ∧ written = records := by
  unfold writeWithin
  split_ifs with h
  · simp [h]
  · simp [Nat.not_lt.1 h, eq_comm]

theorem safe_writeWithin {α : Type} {capacity : ℕ} {records : List α}
    (h : records.length ≤ capacity) : Safe (writeWithin capacity records) fun _ => True := by
  rw [writeWithin_eq_ok_iff.2 ⟨h, rfl⟩]
  exact Meets.ok trivial

/-! ## Signed arithmetic -/

/-- `INT64_MIN`. -/
def int64Min : ℤ := -2 ^ 63

/-- `checked_subtract_i64`. -/
def checkedSubtractI64 (left right : ℤ) : Option ℤ :=
  if left - right < int64Min ∨ int64Max < left - right then none else some (left - right)

/-- `checked_add_i64`. -/
def checkedAddI64 (left right : ℤ) : Option ℤ :=
  if left + right < int64Min ∨ int64Max < left + right then none else some (left + right)

theorem checkedSubtractI64_eq_some {left right difference : ℤ}
    (h : checkedSubtractI64 left right = some difference) : difference = left - right := by
  unfold checkedSubtractI64 at h
  split_ifs at h
  exact (Option.some.inj h).symm

theorem checkedAddI64_eq_some {left right sum : ℤ} (h : checkedAddI64 left right = some sum) :
    sum = left + right := by
  unfold checkedAddI64 at h
  split_ifs at h
  exact (Option.some.inj h).symm

/-- `(uint64_t)value` of a signed 64-bit value. -/
def unsigned64 (value : ℤ) : ℕ :=
  (value % 2 ^ 64).toNat

theorem unsigned64_of_nonneg {value : ℤ} (h : 0 ≤ value) (hmax : value ≤ uint64Max) :
    (unsigned64 value : ℤ) = value := by
  unfold unsigned64
  rw [Int.emod_eq_of_lt h (by unfold uint64Max at hmax; omega), Int.toNat_of_nonneg h]

/-! ## Byte intervals -/

/-- `output_byte_interval`. -/
abbrev OutputByteInterval := Interval ℕ

/-- `merge_output_byte_intervals` : the merged intervals and `has_overlap`. -/
def mergeOutputByteIntervals (intervals : List OutputByteInterval) :
    List OutputByteInterval × Bool :=
  Interval.merge intervals

/-- The interval of `length` bytes from a start that is already unsigned, unless it wraps. -/
def byteInterval (start length : ℕ) : Option OutputByteInterval :=
  if uint64Max - length < start then none else some ⟨start, start + length⟩

theorem byteInterval_eq_some {start length : ℕ} {interval : OutputByteInterval}
    (h : byteInterval start length = some interval) : interval = ⟨start, start + length⟩ := by
  unfold byteInterval at h
  split_ifs at h
  exact (Option.some.inj h).symm

/-! ## Replicas -/

/-- The checks of `replica_contracts_match` before its loop. -/
def sameSchedule (left right : InvocationRoutingObservation) : Bool :=
  left.tileCandidateRaw != right.tileCandidateRaw && left.waitMaskRaw == right.waitMaskRaw &&
    left.postMaskRaw == right.postMaskRaw && left.barrierGroupRaw == right.barrierGroupRaw &&
    left.barrierMaskRaw == right.barrierMaskRaw && left.startAfterRaw == right.startAfterRaw &&
    left.cleanAfterRaw == right.cleanAfterRaw &&
    left.target.abiVersion == right.target.abiVersion &&
    left.tensorCount == right.tensorCount && left.target.targetFlags == right.target.targetFlags

/-- One round of the loop of `replica_contracts_match` : the distance of two tensors that
agree otherwise. -/
def tensorTranslation (left right : InvocationRoutingObservation) (index : ℕ) : Option ℤ :=
  let leftContract := left.contract index
  let rightContract := right.contract index
  let leftRouting := left.routing index
  let rightRouting := right.routing index
  if leftContract.role ≠ rightContract.role ∨
      leftContract.tensorIndex ≠ rightContract.tensorIndex ∨
      leftContract.precision ≠ rightContract.precision ∨
      leftContract.elementCount ≠ rightContract.elementCount ∨
      leftContract.spanBytes ≠ rightContract.spanBytes ∨
      leftContract.observedFlags ≠ rightContract.observedFlags ∨
      leftRouting.dataSymbol ≠ rightRouting.dataSymbol ∨ leftRouting.rank ≠ rightRouting.rank ∨
      leftRouting.dimensions.take leftRouting.rank ≠ rightRouting.dimensions.take leftRouting.rank ∨
      leftRouting.stridesBits.take leftRouting.rank ≠
        rightRouting.stridesBits.take leftRouting.rank ∨
      leftRouting.dataAddend < 0 ∨ rightRouting.dataAddend < 0 then none
  else some (leftRouting.dataAddend - rightRouting.dataAddend)

/-- `replica_contracts_match` : the translation of a match. -/
def replicaContractsMatch (left right : InvocationRoutingObservation) : Option ℤ :=
  if sameSchedule left right then
    match (List.range left.tensorCount).mapM (tensorTranslation left right) with
    | some (result :: rest) => if (∀ current ∈ rest, current = result) ∧ result ≠ 0 then some result
      else none
    | _ => none
  else none

/-- What a match says about the tensors. -/
structure ReplicaMatch (left right : InvocationRoutingObservation) (translation : ℤ) : Prop where
  tile_ne : left.tileCandidateRaw ≠ right.tileCandidateRaw
  wait_eq : left.waitMaskRaw = right.waitMaskRaw
  post_eq : left.postMaskRaw = right.postMaskRaw
  tensorCount_eq : left.tensorCount = right.tensorCount
  translation_ne : translation ≠ 0
  contract_eq : ∀ i < left.tensorCount, (left.contract i).role = (right.contract i).role ∧
    (left.contract i).elementCount = (right.contract i).elementCount ∧
    (left.contract i).spanBytes = (right.contract i).spanBytes ∧
    (left.routing i).dataSymbol = (right.routing i).dataSymbol
  addend_nonneg : ∀ i < left.tensorCount,
    0 ≤ (left.routing i).dataAddend ∧ 0 ≤ (right.routing i).dataAddend
  addend_eq : ∀ i < left.tensorCount,
    (left.routing i).dataAddend = (right.routing i).dataAddend + translation

theorem replicaMatch_of {left right : InvocationRoutingObservation} {translation : ℤ}
    (h : replicaContractsMatch left right = some translation) :
    ReplicaMatch left right translation := by
  unfold replicaContractsMatch at h
  split_ifs at h with hschedule
  simp only [sameSchedule, Bool.and_eq_true, bne_iff_ne, beq_iff_eq, ne_eq] at hschedule
  obtain ⟨⟨⟨⟨⟨⟨⟨⟨⟨htile, hwait⟩, hpost⟩, -⟩, -⟩, -⟩, -⟩, -⟩, hcount⟩, -⟩ := hschedule
  split at h
  · rename_i result rest htranslations
    split_ifs at h with hall
    obtain rfl := Option.some.inj h
    obtain ⟨hlen, htensors⟩ := List.forall₂_iff_get.1 (mapM_eq_some_iff.1 htranslations)
    have hsame : ∀ current ∈ result :: rest, current = result :=
      List.forall_mem_cons.2 ⟨rfl, hall.1⟩
    have htensor : ∀ i < left.tensorCount, tensorTranslation left right i = some result := by
      intro i hi
      have hread := htensors i (by simpa using hi) (by rw [← hlen]; simpa using hi)
      rw [List.get_eq_getElem, List.getElem_range] at hread
      rw [hread, Option.some.injEq]
      exact hsame _ (List.get_mem _ _)
    have hinv : ∀ i < left.tensorCount, _ := fun i hi => by
      have hread := htensor i hi
      unfold tensorTranslation at hread
      rw [Option.ite_none_left_eq_some] at hread
      simp only [not_or, not_not, not_lt] at hread
      exact hread
    refine ⟨htile, hwait, hpost, hcount, hall.2, fun i hi => ?_, fun i hi => ?_, fun i hi => ?_⟩
    · obtain ⟨⟨hrole, -, -, helements, hspan, -, hsymbol, -⟩, -⟩ := hinv i hi
      exact ⟨hrole, helements, hspan, hsymbol⟩
    · obtain ⟨⟨-, -, -, -, -, -, -, -, -, -, hleft, hright⟩, -⟩ := hinv i hi
      exact ⟨hleft, hright⟩
    · have hdistance := Option.some.inj (hinv i hi).2
      omega
  · cases h

end Npunlock
