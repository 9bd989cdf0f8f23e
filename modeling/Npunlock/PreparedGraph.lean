import Npunlock.ActTargets
import Npunlock.IrGraph

/-!
# Prepared graphs

A `PreparedGraph` is a graph whose carrier was compiled once, with the ACT groups that
were discovered in the native blob. `NativeLibraries` stands for the native libraries : it
holds what they answer. `reviewBinding` turns carrier probes into a reviewed binding.
-/

namespace Npunlock

/-! ## Native observations -/

/-- A native call that did not succeed. -/
structure NativeError where
  stage : String
  status : ℕ
  statusName : String
  diagnostic : List UInt8
  deriving DecidableEq

inductive EndpointKind
  | actGroup
  | dpuInvariant
  | graphOutput
  | graphInput
  deriving DecidableEq

structure GraphRelationEndpoint where
  kind : EndpointKind
  primaryIndex : ℕ
  secondaryIndex : Option ℕ
  deriving DecidableEq

inductive RelationKind
  | actToOutput
  | actToAct
  | actToDpu
  | actToDpuViaDma
  | actToActViaDma
  | dpuToAct
  | graphInputToActViaDma
  deriving DecidableEq

structure ExactGraphRelation where
  kind : RelationKind
  source : GraphRelationEndpoint
  destination : GraphRelationEndpoint
  evidenceCount : ℕ
  deriving DecidableEq

inductive IOSymbolKind
  | input
  | output
  deriving DecidableEq

structure GraphIOSymbol where
  kind : IOSymbolKind
  symbolTableIndex : ℕ
  symbolIndex : ℕ
  sizeBytes : ℕ
  name : String
  deriving DecidableEq

inductive CoverageState
  | notObserved
  | incomplete
  | complete
  deriving DecidableEq

inductive CoverageKind
  | directOutput
  | actConsumer
  | dpuConsumer
  | dmaDpuConsumer
  | dmaActConsumer
  deriving DecidableEq

/-- The coverage of one group. `counts` holds the remaining flags and counts of the record,
which are only compared. -/
structure ActGroupCoverage where
  groupIndex : ℕ
  invocationCount : ℕ
  directOutputState : CoverageState
  actConsumerState : CoverageState
  dpuConsumerState : CoverageState
  dmaDpuConsumerState : CoverageState
  dmaActConsumerState : CoverageState
  counts : List ℕ
  deriving DecidableEq

def ActGroupCoverage.state (coverage : ActGroupCoverage) : CoverageKind → CoverageState
  | .directOutput => coverage.directOutputState
  | .actConsumer => coverage.actConsumerState
  | .dpuConsumer => coverage.dpuConsumerState
  | .dmaDpuConsumer => coverage.dmaDpuConsumerState
  | .dmaActConsumer => coverage.dmaActConsumerState

structure GraphComparison where
  mismatchFlags : ℕ
  changedGroupIndices : List ℕ
  contractStable : Bool
  uniqueChangedGroup : Bool
  deriving DecidableEq

def GraphComparison.accepted (comparison : GraphComparison) : Bool :=
  comparison.contractStable ∧ comparison.uniqueChangedGroup ∧
    comparison.changedGroupIndices.length = 1

/-- A compiled blob, with the driver, device and compiler it comes from. -/
structure IrCompileResult where
  graphBlob : List UInt8
  driverIndex : ℕ
  deviceIndex : ℕ
  driverVersion : ℕ
  vendorId : ℕ
  deviceId : ℕ
  graphExtensionVersion : ℕ
  compilerVersion : ℕ × ℕ
  deriving DecidableEq

/-- What the native libraries answer. -/
structure NativeLibraries where
  discoverPatchTargets : List UInt8 → Except NativeError (List (List PatchblobTarget))
  discoverPatchTargetsV2 : List UInt8 → Except NativeError (List (List ActTargetV2))
  inspectExactRelations : List UInt8 → Except NativeError (List ExactGraphRelation)
  inspectGraphIoSymbols : List UInt8 → Except NativeError (List GraphIOSymbol)
  inspectGroupCoverage : List UInt8 → Except NativeError (List ActGroupCoverage)
  compareGraphs : List UInt8 → List UInt8 → Except NativeError GraphComparison
  compileIr : SerializedIR → String → Except NativeError IrCompileResult
  queryIrProvenance : Except NativeError IrCompileResult

/-! ## Carrier probes -/

/-- A custom node recompiled with another carrier. -/
structure CarrierProbe where
  output : Tensor
  baselineCarrier : String
  candidateCarrier : String
  comparison : GraphComparison
  baselineIrSha256 : String
  candidateIrSha256 : String
  baselineGraphBlobSha256 : String
  candidateGraphBlobSha256 : String
  candidateIr : SerializedIR
  candidateProvenance : IrCompileResult
  deriving DecidableEq

def CarrierProbe.groupIndex (probe : CarrierProbe) : Option ℕ :=
  if probe.comparison.accepted then probe.comparison.changedGroupIndices.head? else none

structure CarrierMappingEvidence where
  output : Tensor
  probes : List CarrierProbe
  deriving DecidableEq

inductive EvidenceStatus
  | conflicting
  | consistent
  | insufficient
  deriving DecidableEq

namespace CarrierMappingEvidence

variable (evidence : CarrierMappingEvidence)

def acceptedProbes : List CarrierProbe :=
  evidence.probes.filter fun probe => probe.comparison.accepted

def status : EvidenceStatus :=
  let indices := (evidence.acceptedProbes.map CarrierProbe.groupIndex).dedup
  if 1 < indices.length then .conflicting
  else if 2 ≤ evidence.acceptedProbes.length ∧ indices.length = 1 then .consistent
  else .insufficient

def groupIndex : Option ℕ :=
  if evidence.status = .consistent then
    evidence.acceptedProbes.head?.bind CarrierProbe.groupIndex
  else none

end CarrierMappingEvidence

/-- A binding to one group, with the evidence behind it. -/
structure ReviewedBinding where
  output : Tensor
  groupIndex : ℕ
  coverageKind : CoverageKind
  baselineGraphBlobSha256 : String
  evidence : CarrierMappingEvidence
  coverage : ActGroupCoverage
  deriving DecidableEq

/-- The equality of the source, which does not compare the output and the evidence. -/
def ReviewedBinding.Same (first second : ReviewedBinding) : Prop :=
  first.groupIndex = second.groupIndex ∧ first.coverageKind = second.coverageKind ∧
    first.baselineGraphBlobSha256 = second.baselineGraphBlobSha256 ∧
      first.coverage = second.coverage

instance (first second : ReviewedBinding) : Decidable (first.Same second) :=
  inferInstanceAs (Decidable (_ ∧ _))

/-! ## Prepared graphs -/

/-- One ACT group with its position among the groups. -/
structure ActGroup where
  index : ℕ
  targets : GroupTargets
  deriving DecidableEq

/-- `enumerate` over the discovered groups. -/
def enumerateGroups (discovered : List GroupTargets) : List ActGroup :=
  discovered.mapIdx ActGroup.mk

theorem map_index_enumerateGroups (discovered : List GroupTargets) :
    (enumerateGroups discovered).map ActGroup.index = List.range discovered.length := by
  refine List.ext_getElem (by simp [enumerateGroups]) fun index _ _ => ?_
  simp [enumerateGroups]

/-- A graph with its compiled carrier. The saved indices and reviews are those of a bundle
it was loaded from. -/
structure PreparedGraph where
  graph : Graph
  serializedIr : SerializedIR
  irProvenance : IrCompileResult
  discovered : List GroupTargets
  libraries : NativeLibraries
  automaticIndices : Option (List (List ℕ))
  embeddedTargets : Option (List GroupTargets)
  buildFlags : String
  savedIndices : Option (List (List ℕ))
  savedReviews : Option (List (Option ReviewedBinding))
  serialized_eq : serializeIr graph [] = .ok serializedIr

namespace PreparedGraph

variable (prepared : PreparedGraph)

def groups : List ActGroup :=
  enumerateGroups prepared.discovered

def node (id : NodeId) : Node :=
  prepared.graph.heap.node id

def customNodes : List NodeId :=
  prepared.serializedIr.customNodes

/-- `serialize_ir` collects the custom nodes of the graph. -/
theorem customNodes_eq : prepared.customNodes = prepared.graph.customNodes := by
  have h := prepared.serialized_eq
  rw [serializeIr, refuseIf_bind_eq_ok_iff, refuseIf_bind_eq_ok_iff, bind_eq_ok_iff] at h
  obtain ⟨-, -, _, -, h⟩ := h
  exact (congrArg SerializedIR.customNodes (Except.ok.inj h)).symm

theorem getElem?_groups (index : ℕ) :
    prepared.groups[index]? = (prepared.discovered[index]?).map (ActGroup.mk index) := by
  simp [groups, enumerateGroups]

end PreparedGraph

end Npunlock
