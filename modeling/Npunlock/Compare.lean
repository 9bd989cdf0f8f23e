import Npunlock.IoSymbols
import Npunlock.Routing

/-!
# Comparison of two graphs

`npunlock_compare_graph_routing_observations` compares the tables of two inspections. The
code of an invocation may differ, and then its group counts as changed. Every other
difference sets a flag. `patchblob_compare_graphs` inspects both graphs and compares their
input and output symbols as well.
-/

namespace Npunlock

/-! ## Flags -/

/-- `PATCHBLOB_COMPARE_STRUCTURE_CHANGED`. -/
def compareStructureChanged : ℕ := 1

/-- `PATCHBLOB_COMPARE_INVOCATION_CONTRACT_CHANGED`. -/
def compareInvocationContractChanged : ℕ := 2

/-- `PATCHBLOB_COMPARE_OUTPUT_ROUTING_CHANGED`. -/
def compareOutputRoutingChanged : ℕ := 4

/-- `PATCHBLOB_COMPARE_ACT_RELATIONS_CHANGED`. -/
def compareActRelationsChanged : ℕ := 8

/-- `PATCHBLOB_COMPARE_DPU_CHANGED`. -/
def compareDpuChanged : ℕ := 16

/-- `PATCHBLOB_COMPARE_ACT_DPU_RELATIONS_CHANGED`. -/
def compareActDpuRelationsChanged : ℕ := 32

/-- `PATCHBLOB_COMPARE_PARTIAL_GROUP_CODE_CHANGE`. -/
def comparePartialGroupCodeChange : ℕ := 64

/-- `PATCHBLOB_COMPARE_DMA_CHANGED`. -/
def compareDmaChanged : ℕ := 128

/-- `PATCHBLOB_COMPARE_ACT_DMA_RELATIONS_CHANGED`. -/
def compareActDmaRelationsChanged : ℕ := 256

/-- `PATCHBLOB_COMPARE_ACT_DMA_DPU_RELATIONS_CHANGED`. -/
def compareActDmaDpuRelationsChanged : ℕ := 512

/-- `PATCHBLOB_COMPARE_ACT_DMA_ACT_RELATIONS_CHANGED`. -/
def compareActDmaActRelationsChanged : ℕ := 1024

/-- `PATCHBLOB_COMPARE_GRAPH_IO_CHANGED`. -/
def compareGraphIoChanged : ℕ := 2048

/-! ## Invocations -/

/-- `left` and `right` in the loop over the invocations, with the code fields cleared. -/
def InvocationRoutingObservation.withoutCode (invocation : InvocationRoutingObservation) :
    InvocationRoutingObservation :=
  { invocation with
    codeOffsetRaw := 0
    codeExtent := 0
    codeSha256 := List.replicate 32 0
    target := { invocation.target with rangeIndex := 0 } }

/-- `code_equal`. -/
def codeEqual (left right : InvocationRoutingObservation) : Bool :=
  left.codeExtent == right.codeExtent && left.codeSha256 == right.codeSha256

section Invocations

variable (baseline candidate : GraphRoutingObservations)

/-- The two graphs have the same numbers of groups, invocations and tiles. -/
def SameStructure : Prop :=
  baseline.groupCount = candidate.groupCount ∧
    baseline.invocations.length = candidate.invocations.length ∧
    baseline.tileCountObserved = candidate.tileCountObserved

instance : Decidable (SameStructure baseline candidate) :=
  inferInstanceAs (Decidable (_ ∧ _ ∧ _))

/-- Both invocations are in one group of the graph. -/
def sameGroup (pair : InvocationRoutingObservation × InvocationRoutingObservation) : Bool :=
  pair.1.groupIndex < baseline.groupCount && pair.2.groupIndex == pair.1.groupIndex

/-- The invocations by position, where they are in one group. -/
def comparedInvocations : List (InvocationRoutingObservation × InvocationRoutingObservation) :=
  (baseline.invocations.zip candidate.invocations).filter (sameGroup baseline)

/-- `changed[group_index]` and, for `equal`, `unchanged[group_index]`. -/
def groupHasCode (equal : Bool) (groupIndex : ℕ) : Bool :=
  (comparedInvocations baseline candidate).any fun pair =>
    pair.1.groupIndex == groupIndex && codeEqual pair.1 pair.2 == equal

/-- `changed_groups`. -/
def changedGroups : List ℕ :=
  if SameStructure baseline candidate then
    (List.range baseline.groupCount).filter (groupHasCode baseline candidate false)
  else []

/-- The flags of one pair of invocations. -/
def invocationFlags (pair : InvocationRoutingObservation × InvocationRoutingObservation) : ℕ :=
  if sameGroup baseline pair then
    flagIf (pair.1.withoutCode ≠ pair.2.withoutCode) compareInvocationContractChanged
  else compareStructureChanged

/-- The flags of the structure, the invocations and the groups. -/
def structureFlags : ℕ :=
  if SameStructure baseline candidate then
    orAll ((baseline.invocations.zip candidate.invocations).map (invocationFlags baseline)) |||
      orAll ((changedGroups baseline candidate).map fun groupIndex =>
        flagIf (groupHasCode baseline candidate true groupIndex = true)
          comparePartialGroupCodeChange)
  else compareStructureChanged

end Invocations

/-! ## Tables -/

/-- The flags of the tables that are not equal. -/
def tableFlags (baseline candidate : GraphRoutingObservations) : ℕ :=
  orAll [
    flagIf (baseline.dmaTasks ≠ candidate.dmaTasks) compareDmaChanged,
    flagIf (baseline.actDmaSourceCandidates ≠ candidate.actDmaSourceCandidates ∨
      baseline.actDmaFaninObservations ≠ candidate.actDmaFaninObservations ∨
      baseline.graphInputActCovers ≠ candidate.graphInputActCovers)
      compareActDmaRelationsChanged,
    flagIf (baseline.actDmaActInputCandidates ≠ candidate.actDmaActInputCandidates ∨
      baseline.actDmaActInputCovers ≠ candidate.actDmaActInputCovers)
      compareActDmaActRelationsChanged,
    flagIf (baseline.actDmaDpuInputCandidates ≠ candidate.actDmaDpuInputCandidates ∨
      baseline.actDmaDpuInputCovers ≠ candidate.actDmaDpuInputCovers)
      compareActDmaDpuRelationsChanged,
    flagIf (baseline.networkOutputRoutes ≠ candidate.networkOutputRoutes)
      compareOutputRoutingChanged,
    flagIf (baseline.actOutputSliceCandidates ≠ candidate.actOutputSliceCandidates ∨
      baseline.actOutputCovers ≠ candidate.actOutputCovers ∨
      baseline.actReplicaGroups ≠ candidate.actReplicaGroups ∨
      baseline.actReplicaCandidates ≠ candidate.actReplicaCandidates ∨
      baseline.actGroupCompleteness ≠ candidate.actGroupCompleteness ∨
      baseline.actEdgeCandidates ≠ candidate.actEdgeCandidates ∨
      baseline.actConsumerCovers ≠ candidate.actConsumerCovers) compareActRelationsChanged,
    flagIf (baseline.dpuInvariants ≠ candidate.dpuInvariants) compareDpuChanged,
    flagIf (baseline.actDpuEdgeCandidates ≠ candidate.actDpuEdgeCandidates ∨
      baseline.actDpuOutputCovers ≠ candidate.actDpuOutputCovers ∨
      baseline.dpuActInputCandidates ≠ candidate.dpuActInputCandidates ∨
      baseline.dpuActInputCovers ≠ candidate.dpuActInputCovers) compareActDpuRelationsChanged]

/-! ## The comparison -/

/-- `npunlock_graph_routing_comparison` and `patchblob_comparison_result`. -/
structure GraphRoutingComparison where
  mismatchFlags : ℕ
  contractStable : Bool
  uniqueChangedGroup : Bool
  changedGroupIndices : List ℕ
  deriving DecidableEq

/-- `npunlock_compare_graph_routing_observations`. -/
def compareGraphRoutingObservations (baseline candidate : GraphRoutingObservations) :
    GraphRoutingComparison :=
  let mismatchFlags := structureFlags baseline candidate ||| tableFlags baseline candidate
  let changed := changedGroups baseline candidate
  { mismatchFlags, contractStable := mismatchFlags == 0,
    uniqueChangedGroup := changed.length == 1, changedGroupIndices := changed }

/-- The comparison with the input and output symbols compared by `graph_io_symbols_equal`. -/
def withGraphIo (comparison : GraphRoutingComparison)
    (baselineIo candidateIo : List GraphIoSymbol) :
    GraphRoutingComparison :=
  if baselineIo = candidateIo then comparison
  else
    { comparison with
      mismatchFlags := comparison.mismatchFlags ||| compareGraphIoChanged
      contractStable := false }

/-- `patchblob_compare_graphs`. -/
def compareGraphs (baselineBlob candidateBlob : View) : Result GraphRoutingComparison := do
  refuseIf (baselineBlob.size = 0 ∨ candidateBlob.size = 0)
    (setDiagnostic .invalidArgument "patchblob.compare"
      "baseline and candidate graph views must be non-empty")
  let baseline ← inspectGraphRouting baselineBlob
  let candidate ← inspectGraphRouting candidateBlob
  let baselineIo ← inspectGraphIoSymbols baselineBlob
  let candidateIo ← inspectGraphIoSymbols candidateBlob
  .ok (withGraphIo (compareGraphRoutingObservations baseline candidate) baselineIo candidateIo)

end Npunlock
