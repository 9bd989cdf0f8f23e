import Npunlock.Completeness
import Npunlock.ConsumerCover
import Npunlock.Discovery
import Npunlock.DmaActCover
import Npunlock.DpuInvariants
import Npunlock.GraphInput
import Npunlock.OutputRoutes
import Npunlock.Sha256
import Npunlock.TileCovers

/-!
# Routing inspection

`npunlock_inspect_graph_routing` reads the invocations, DMA tasks, network-output routes and
DPU invariants of a graph and derives all relations between them. Here the two halves are
`readRoutingTables` and `deriveRouting`.
-/

namespace Npunlock

/-! ## Reading the tables -/

/-- What is read from the graph itself. -/
structure RoutingTables where
  invocations : List InvocationRoutingObservation
  groupCount : ℕ
  tileCountObserved : ℕ
  networkOutputRoutes : List NetworkOutputRouteObservation
  dmaTasks : List DmaTaskObservation
  dpuInvariants : List DpuInvariantObservation

/-- The place of the `tensorIndex`-th tensor of an invocation. -/
def readTensorRouting (layout : GraphLayout) (parameterBase tensorIndex : ℕ) :
    Result TensorRoutingObservation := do
  let slot ← addSize parameterBase (tensorIndex * 0x28)
  let contract ← validateMemref layout slot
  .ok { dataSymbol := contract.dataSymbol, dataAddend := contract.dataAddend,
        rank := contract.rank, dimensions := contract.dimensions,
        stridesBits := contract.stridesBits }

/-- The code slice of a range : its offset in `KernelText`, its extent and its digest. -/
def readCodeSlice (layout : GraphLayout) (rangeIndex : ℕ) : Result (ℕ × ℕ × List UInt8) := do
  let ranges ← sectionAt layout.sections layout.rangesIndex
  let text ← sectionAt layout.sections layout.kernelTextIndex
  let relocation ← findRangeRelocation layout rangeIndex
  let codeExtent ← layout.blob.readU32 (ranges.offset + rangeIndex * 0x18 + 0x0c)
  refuseIf (relocation.addend < 0 ∨
      ¬rangeInBounds relocation.addend.toNat codeExtent text.size)
    (malformed "ACT range code slice is outside KernelText")
  let code ← layout.blob.readBytes (text.offset + relocation.addend.toNat) codeExtent
  .ok (relocation.addend.toNat, codeExtent, sha256 code)

/-- The observation of invocation `index`. -/
def readInvocation (layout : GraphLayout) (parameterBases : List ℕ)
    (discovered : List (DiscoveredTarget PatchblobTargetV2)) (index : ℕ) :
    Result InvocationRoutingObservation := do
  let invocations ← sectionAt layout.sections layout.invocationsIndex
  let record := invocations.offset + index * 0x40
  match discovered[index]? with
  | none => .error .outOfBounds
  | some { groupIndex, target } => do
    let (codeOffset, codeExtent, codeSha256) ← readCodeSlice layout target.rangeIndex
    let tileCandidate ← layout.blob.readU32 (record + 0x34)
    let parameterBase ← parameterBaseAt parameterBases index
    let waitMask ← layout.blob.readU64 (record + 0x10)
    let postMask ← layout.blob.readU64 (record + 0x18)
    let barrierGroup ← layout.blob.readU8 (record + 0x20)
    let barrierMask ← layout.blob.readU8 (record + 0x21)
    let startAfter ← layout.blob.readU32 (record + 0x28)
    let cleanAfter ← layout.blob.readU32 (record + 0x2c)
    let tensors ← mapRange target.tensorCount (readTensorRouting layout parameterBase)
    .ok { groupIndex, codeOffsetRaw := codeOffset, codeExtent, codeSha256,
          tileCandidateRaw := tileCandidate, parameterBase, waitMaskRaw := waitMask,
          postMaskRaw := postMask, barrierGroupRaw := barrierGroup,
          barrierMaskRaw := barrierMask, startAfterRaw := startAfter,
          cleanAfterRaw := cleanAfter, target, tensors }

/-- The tables of a graph. Discovery parses the blob on its own. -/
def readRoutingTables (blob : View) : Result RoutingTables := do
  let (discovered, groupCount) ← discoverGraphTargetsV2 blob
  let layout ← parseGraph blob
  let parameterBases ← invocationParameterBases layout
  refuseIf (parameterBases.length ≠ discovered.length)
    (unsupported "routing observation count does not match ACT discovery")
  let networkOutputRoutes ← inspectNetworkOutputRoutes layout
  let dmaTasks ← inspectDmaTasks layout
  let dpuInvariants ← inspectDpuInvariants layout
  let invocations ← mapRange parameterBases.length
    (readInvocation layout parameterBases discovered)
  .ok { invocations, groupCount, tileCountObserved := layout.tileCount, networkOutputRoutes,
        dmaTasks, dpuInvariants }

/-! ## Deriving the relations -/

/-- `npunlock_graph_routing_observations`. -/
structure GraphRoutingObservations extends RoutingTables where
  actDmaSourceCandidates : List ActDmaSourceCandidateObservation
  actDmaFaninObservations : List ActDmaFaninObservation
  graphInputActCovers : List GraphInputActCoverObservation
  actDmaActInputCandidates : List ActDmaActInputCandidateObservation
  actDmaActInputCovers : List ActDmaActInputCoverObservation
  actDmaDpuInputCandidates : List ActDmaDpuInputCandidateObservation
  actDmaDpuInputCovers : List ActDmaDpuInputCoverObservation
  actEdgeCandidates : List ActEdgeCandidateObservation
  actConsumerCovers : List ActConsumerCoverObservation
  actOutputSliceCandidates : List ActOutputSliceCandidateObservation
  actOutputCovers : List ActOutputCoverObservation
  actReplicaGroups : List ActReplicaGroupObservation
  actReplicaCandidates : List ActReplicaCandidateObservation
  actGroupCompleteness : List ActGroupCompletenessObservation
  actDpuEdgeCandidates : List ActDpuEdgeCandidateObservation
  actDpuOutputCovers : List ActDpuOutputCoverObservation
  dpuActInputCandidates : List DpuActInputCandidateObservation
  dpuActInputCovers : List DpuActInputCoverObservation

/-- The relations between the tables of a graph. -/
def deriveRouting (tables : RoutingTables) : Result GraphRoutingObservations := do
  let invocations := tables.invocations
  let groupCount := tables.groupCount
  let actDmaSourceCandidates ← deriveActDmaSourceCandidates invocations tables.dmaTasks
  let actDmaFaninObservations ← deriveActDmaFaninObservations invocations tables.dmaTasks
    actDmaSourceCandidates groupCount
  let graphInputActCovers ← deriveGraphInputActCovers invocations tables.dmaTasks groupCount
  let (actDmaActInputCandidates, actDmaActInputCovers) ← deriveActDmaActInputObservations
    invocations actDmaSourceCandidates tables.dmaTasks groupCount
  let (actDmaDpuInputCandidates, actDmaDpuInputCovers) ← deriveActDmaDpuInputObservations
    invocations actDmaSourceCandidates tables.dpuInvariants tables.tileCountObserved groupCount
    actDmaFaninObservations
  let actEdgeCandidates ← deriveActEdgeCandidates invocations
  let actConsumerCovers ← deriveActConsumerCoverObservations invocations actEdgeCandidates
    groupCount
  let actOutputSliceCandidates ← deriveActOutputSliceCandidates invocations
    tables.networkOutputRoutes
  let actOutputCovers ← deriveActOutputCoverObservations invocations tables.networkOutputRoutes
    actOutputSliceCandidates
  let (actReplicaGroups, actReplicaCandidates) ← deriveActReplicaCandidates invocations
    actOutputSliceCandidates groupCount
  let actGroupCompleteness ← deriveActGroupCompleteness invocations actOutputSliceCandidates
    tables.networkOutputRoutes actOutputCovers actReplicaGroups actReplicaCandidates groupCount
  let actDpuEdgeCandidates ← deriveActDpuEdgeCandidates invocations tables.dpuInvariants
  let actDpuOutputCovers ← deriveActDpuOutputCoverObservations invocations actDpuEdgeCandidates
    groupCount
  let (dpuActInputCandidates, dpuActInputCovers) ← deriveDpuActInputObservations invocations
    tables.dpuInvariants groupCount tables.tileCountObserved
  .ok { tables with
    actDmaSourceCandidates, actDmaFaninObservations, graphInputActCovers,
    actDmaActInputCandidates, actDmaActInputCovers, actDmaDpuInputCandidates,
    actDmaDpuInputCovers, actEdgeCandidates, actConsumerCovers, actOutputSliceCandidates,
    actOutputCovers, actReplicaGroups, actReplicaCandidates, actGroupCompleteness,
    actDpuEdgeCandidates, actDpuOutputCovers, dpuActInputCandidates, dpuActInputCovers }

/-- `npunlock_inspect_graph_routing`. -/
def inspectGraphRouting (blob : View) : Result GraphRoutingObservations := do
  let tables ← readRoutingTables blob
  deriveRouting tables

end Npunlock
