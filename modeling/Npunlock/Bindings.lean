import Npunlock.PreparedGraph

/-!
# Bindings of custom nodes

`reviewBinding` turns carrier probes into a reviewed binding to one group.
`resolveBindings` binds every custom node of a prepared graph to ACT groups : by the
bindings it is given, else by the saved ones, else by the automatic ones. It checks that no
group is used twice and that the targets of the groups fit their node.

`digest` is the hexadecimal text of a SHA-256 hash.
-/

namespace Npunlock

/-- Why a binding is refused. -/
inductive BindingError
  | native (error : NativeError)
  | reviewOutput
  | reviewEvidence
  | notConsistent
  | probeOutput
  | otherBlob
  | evidenceOutOfRange (index : ℕ)
  | coverageCount
  | coverageGroup
  | notComplete (index : ℕ) (kind : CoverageKind) (state : CoverageState)
  | foreignReview
  | staleReview
  | emptySelection
  | foreignGroup
  | outOfRange (index : ℤ)
  | selectedTwice (index : ℕ)
  | embeddedTargets
  | notCustomOutput
  | boundTwice (label : String)
  | severalOutputs
  | missing (labels : List String)
  | assignedTwice (index : ℕ) (previous label : String)
  | noSuchGroup (index : ℕ)
  | mismatch (index : ℕ) (label : String) (reason : TargetsMismatch)
  | notCombined (indices : List ℕ) (label : String)
  deriving DecidableEq

/-- One element of a binding. -/
inductive BindingItem
  | index (value : ℤ)
  | group (value : ActGroup)
  deriving DecidableEq

/-- What a custom output is bound to. -/
inductive BindingValue
  | items (values : List BindingItem)
  | reviewed (value : ReviewedBinding)
  deriving DecidableEq

def BindingValue.review : BindingValue → Option ReviewedBinding
  | .items _ => none
  | .reviewed value => some value

/-- What `_resolve_bindings` returns, for the custom nodes in their order. -/
structure ResolvedBindings where
  indices : List (List ℕ)
  targets : List GroupTargets
  reviews : List (Option ReviewedBinding)
  deriving DecidableEq

namespace PreparedGraph

variable (digest : List UInt8 → String) (prepared : PreparedGraph)

/-- `review_binding`. -/
def reviewBinding (output : Tensor) (evidence : CarrierMappingEvidence) (kind : CoverageKind) :
    Except BindingError ReviewedBinding := do
  refuseIf (output.producer ∉ prepared.customNodes) BindingError.reviewOutput
  refuseIf (evidence.output ≠ output) BindingError.reviewEvidence
  match evidence.groupIndex with
  | none => .error .notConsistent
  | some groupIndex =>
    refuseIf (∃ probe ∈ evidence.probes, probe.output ≠ output) BindingError.probeOutput
    let baselineHash := digest prepared.irProvenance.graphBlob
    refuseIf (∃ probe ∈ evidence.probes, probe.baselineGraphBlobSha256 ≠ baselineHash)
      BindingError.otherBlob
    match prepared.groups[groupIndex]? with
    | none => .error (.evidenceOutOfRange groupIndex)
    | some group =>
      let records ← (prepared.libraries.inspectGroupCoverage
        prepared.irProvenance.graphBlob).mapError BindingError.native
      refuseIf (records.length ≠ prepared.groups.length) BindingError.coverageCount
      match records[groupIndex]? with
      | none => .error .coverageCount
      | some coverage =>
        refuseIf (coverage.groupIndex ≠ groupIndex ∨
          coverage.invocationCount ≠ group.targets.length) BindingError.coverageGroup
        refuseIf (coverage.state kind ≠ .complete)
          (BindingError.notComplete groupIndex kind (coverage.state kind))
        .ok {
          output, groupIndex
          coverageKind := kind
          baselineGraphBlobSha256 := baselineHash
          evidence, coverage }

/-- The index of one element of a binding. -/
def normalizeItem : BindingItem → Except BindingError ℕ
  | .group value =>
    if prepared.groups[value.index]? = some value then .ok value.index else .error .foreignGroup
  | .index value =>
    if 0 ≤ value ∧ value < prepared.groups.length then .ok value.toNat
    else .error (.outOfRange value)

/-- `_normalize_binding`. -/
def normalizeBinding (output : Tensor) : BindingValue → Except BindingError (List ℕ)
  | .reviewed value => do
    refuseIf (value.output ≠ output) BindingError.foreignReview
    let current ← prepared.reviewBinding digest output value.evidence value.coverageKind
    refuseIf (¬current.Same value) BindingError.staleReview
    .ok [value.groupIndex]
  | .items values => do
    refuseIf (values = []) BindingError.emptySelection
    values.foldlM (fun indices item => do
      let index ← prepared.normalizeItem item
      refuseIf (index ∈ indices) (BindingError.selectedTwice index)
      .ok (indices ++ [index])) []

/-- The indices and the review that a custom node is bound to. -/
abbrev BoundNode := NodeId × List ℕ × Option ReviewedBinding

/-- The nodes that the supplied bindings bind. -/
def boundNodes (bindings : List (Tensor × BindingValue)) :
    Except BindingError (List BoundNode) :=
  bindings.foldlM (fun bound binding => do
    let id := binding.1.producer
    refuseIf (id ∉ prepared.customNodes) BindingError.notCustomOutput
    refuseIf (id ∈ bound.map Prod.fst) (BindingError.boundTwice (prepared.node id).label)
    refuseIf ((prepared.node id).outputSpecs.length ≠ 1) BindingError.severalOutputs
    let indices ← prepared.normalizeBinding digest binding.1 binding.2
    .ok (bound ++ [(id, indices, binding.2.review)])) []

/-- The saved indices, else the automatic ones, with the saved reviews. -/
def defaultNodes : List BoundNode :=
  match prepared.savedIndices <|> prepared.automaticIndices with
  | none => []
  | some indices =>
    let reviews := prepared.savedReviews.getD (prepared.customNodes.map fun _ => none)
    prepared.customNodes.zip (indices.zip reviews)

/-- Notes that a node uses the groups, each for the first time. -/
def useGroups (id : NodeId) (used : List (ℕ × NodeId)) (indices : List ℕ) :
    Except BindingError (List (ℕ × NodeId)) :=
  indices.foldlM (fun used index =>
    match used.lookup index with
    | some previous =>
      .error (.assignedTwice index (prepared.node previous).label (prepared.node id).label)
    | none => .ok (used ++ [(index, id)])) used

/-- The targets of the version that patching uses for one group. -/
def patchTargets (targets : GroupTargets) : GroupTargets :=
  match targets.mapM PatchTargetContract.asVersioned with
  | none => targets
  | some versioned =>
    match legacyTargetsFromV2 (versioned.map ActTargetV2.toPatchTargetV2) with
    | none => targets
    | some legacy => if targets = [] then targets else legacy.map .legacy

/-- `self.groups[index].targets`. -/
def groupTargets (index : ℕ) : Except BindingError GroupTargets :=
  match prepared.groups[index]? with
  | some group => .ok group.targets
  | none => .error (.noSuchGroup index)

/-- The targets of the groups a node is bound to, if they fit it. -/
def selectTargets (id : NodeId) (indices : List ℕ) : Except BindingError GroupTargets := do
  let node := prepared.node id
  let groups ← indices.mapM prepared.groupTargets
  match indices, groups with
  | [index], [targets] =>
    match customTargetsMismatch node targets false with
    | some reason => .error (.mismatch index node.label reason)
    | none => .ok (patchTargets targets)
  | _, _ =>
    match combinedTargets node groups with
    | some targets => .ok targets
    | none => .error (.notCombined indices node.label)

/-- One round of the loop over the custom nodes. -/
def resolveNode (chosen : List BoundNode) (found : ResolvedBindings × List (ℕ × NodeId))
    (id : NodeId) : Except BindingError (ResolvedBindings × List (ℕ × NodeId)) :=
  match chosen.lookup id with
  | none => .error (.missing [(prepared.node id).label])
  | some (indices, review) => do
    let used ← prepared.useGroups id found.2 indices
    let targets ← prepared.selectTargets id indices
    .ok ({
      indices := found.1.indices ++ [indices]
      targets := found.1.targets ++ [targets]
      reviews := found.1.reviews ++ [review] }, used)

/-- `_resolve_bindings`. -/
def resolveBindings (bindings : List (Tensor × BindingValue)) :
    Except BindingError ResolvedBindings :=
  match prepared.embeddedTargets with
  | some targets => do
    refuseIf (bindings ≠ []) BindingError.embeddedTargets
    .ok {
      indices := prepared.customNodes.map fun _ => []
      targets
      reviews := prepared.customNodes.map fun _ => none }
  | none => do
    let bound ← prepared.boundNodes digest bindings
    let chosen := bound ++ prepared.defaultNodes
    let missing := prepared.customNodes.filter fun id => id ∉ chosen.map Prod.fst
    refuseIf (missing ≠ []) (BindingError.missing (missing.map fun id => (prepared.node id).label))
    let found ← prepared.customNodes.foldlM (prepared.resolveNode chosen) (⟨[], [], []⟩, [])
    .ok found.1

end PreparedGraph

end Npunlock
