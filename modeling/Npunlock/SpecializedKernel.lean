import Npunlock.Binary16
import Npunlock.PaddedBuffer
import Npunlock.RuntimePacking

/-!
# The specialised XGBoost kernel

The generator of a kernel for one ensemble, the kernel it generates, and the host's packing
for it. The generated text is a C function for each tree, whose body is nested tests, and
an entry point; here it is the syntax tree of these bodies (`TreeBody`) with the constants
of the entry point (`SpecializedKernel`), and `controlledAct` is what the text does. A
literal stands for the number that it is printed from, as nine digits are enough to read
it back.

The numbers of a chunk are transported in half or in single precision. A chunk of halves
holds twice as many numbers.
-/

namespace Npunlock

namespace Specialized

open Npunlock.Runtime (Arithmetic Predictions sigmoid)

/-! ## Transports -/

/-- The built-in transports. -/
inductive Transport
  | f16
  | f32
  deriving DecidableEq

/-- `TransportSpec`, with the conversions of its numbers. -/
structure TransportSpec where
  name : String
  chunkElements : ℕ
  logicalElements : ℕ
  narrow : Word → Word
  widen : Word → Word

/-- `TRANSPORTS`. -/
def Transport.spec : Transport → TransportSpec
  | .f16 => ⟨"f16", 2048, 4096, Binary16.narrow, Binary16.widen⟩
  | .f32 => ⟨"f32", 1024, 2048, id, id⟩

/-- `HEADER_WORDS`. -/
def headerWords : ℕ := 4

/-- `OUTPUT_WORDS_PER_SAMPLE`. -/
def outputWordsPerSample : ℕ := 3

/-! ## Generation -/

/-- `MAX_TREES`. -/
def maxTrees : ℕ := 64

/-- `MAX_TOTAL_NODES`. -/
def maxTotalNodes : ℕ := 1024

/-- `MAX_TREE_DEPTH`. -/
def maxTreeDepth : ℕ := 16

/-- The body of a tree's function. A split tests the feature for a missing value first, and
then against the threshold. -/
inductive TreeBody
  | leaf (value : Word)
  | split (feature : ℕ) (threshold : Word) (missing left right : TreeBody)
  deriving DecidableEq

/-- A generated kernel. -/
structure SpecializedKernel where
  transport : Transport
  featureCount : ℕ
  baseMargin : Word
  trees : List TreeBody
  deriving DecidableEq

/-- `_literal`. -/
def literal (value : Word) : Except ModelError Word := do
  refuseIf (Binary32.isFinite value = false) (.value "generated C constants must be finite")
  .ok value

/-- `_tree_body`, for a bounded depth. -/
def treeBody (tree : Tree) : ℕ → ℕ → Except ModelError TreeBody
  | 0, _ => .error .endless
  | depth + 1, node =>
    if tree.leftOf node = -1 then do
      let value ← literal (tree.valueOf node)
      .ok (.leaf value)
    else do
      let threshold ← literal (tree.valueOf node)
      let missing ← treeBody tree depth
        (if tree.defaultOf node then tree.leftOf node else tree.rightOf node).toNat
      let left ← treeBody tree depth (tree.leftOf node).toNat
      let right ← treeBody tree depth (tree.rightOf node).toNat
      .ok (.split (tree.featureOf node).toNat threshold missing left right)

/-- `max_depth` of an ensemble. -/
def ensembleDepth (ensemble : Ensemble) : Except ModelError ℕ := do
  let depths ← ensemble.trees.mapM Tree.maxDepth
  match depths.max? with
  | some depth => .ok depth
  | none => .error (.value "max() iterable argument is empty")

/-- `generate_kernel_source`. -/
def generateKernelSource (ensemble : Ensemble) (transport : Transport) :
    Except ModelError SpecializedKernel := do
  refuseIf (transport.spec.chunkElements - headerWords < ensemble.featureCount)
    (.value "feature vector cannot fit in one validated ACT invocation")
  refuseIf (maxTrees < ensemble.trees.length)
    (.value s!"model has more than the generator limit of {maxTrees} trees")
  refuseIf (maxTotalNodes < ensemble.nodeCount)
    (.value s!"model has more than the generator limit of {maxTotalNodes} nodes")
  let depth ← ensembleDepth ensemble
  refuseIf (maxTreeDepth < depth)
    (.value s!"model exceeds the generator depth limit of {maxTreeDepth}")
  let trees ← ensemble.trees.mapM fun tree => treeBody tree tree.nodeCount 0
  let baseMargin ← literal ensemble.baseMargin
  .ok ⟨transport, ensemble.featureCount, baseMargin, trees⟩

/-! ## The kernel -/

/-- `xgb_tree_N`, on the features that begin at `start`. -/
def TreeBody.run (widen : Word → Word) (input : List Word) (start : ℕ) :
    TreeBody → Except KernelHalt Word
  | .leaf value => .ok value
  | .split feature threshold missing left right => do
    let value := widen (← readWord input (u32 (start + feature)))
    if Binary32.isNaN value then missing.run widen input start
    else if Binary32.lt value threshold then left.run widen input start
    else right.run widen input start

namespace SpecializedKernel

variable (math : Arithmetic) (kernel : SpecializedKernel)

/-- `xgb_margin`, on the features that begin at `start`. -/
def margin (input : List Word) (start : ℕ) : Except KernelHalt Word :=
  kernel.trees.foldlM (fun margin tree => do
    let value ← tree.run kernel.transport.spec.widen input start
    .ok (math.add margin value)) kernel.baseMargin

/-- The checks of the header, which end in the number of samples. Every refusal is the same
return, so the number is checked at once. -/
def sampleCountOf (input : List Word) : Except KernelHalt ℕ := do
  let spec := kernel.transport.spec
  let sampleCount ← countOf (spec.widen (← readWord input 0))
    ((spec.chunkElements - headerWords) / kernel.featureCount)
  let featureCount := spec.widen (← readWord input 1)
  refuseIf (¬Binary32.eq featureCount (Binary32.ofNat kernel.featureCount)) .refused
  refuseIf (spec.chunkElements < u32 (headerWords + sampleCount * outputWordsPerSample)) .refused
  .ok sampleCount

/-- The round of a sample. -/
def writeSample (input : List Word) (sample : ℕ) (output : List Word) :
    Except KernelHalt (List Word) := do
  let narrow := kernel.transport.spec.narrow
  let margin ← kernel.margin math input (u32 (headerWords + sample * kernel.featureCount))
  let probability := sigmoid math margin
  writeWords output (u32 (headerWords + sample * outputWordsPerSample))
    [narrow margin, narrow probability,
      narrow (if Binary32.le Binary32.half probability then Binary32.one else 0)]

/-- `controlled_act`. A refused chunk leaves the output as it is. -/
def controlledAct (elementCount : ℕ) (input output : List Word) :
    Except KernelHalt (List Word) :=
  let spec := kernel.transport.spec
  if elementCount ≠ spec.chunkElements then .ok output
  else ifRefused (kernel.sampleCountOf input) (.ok output) fun sampleCount => do
    let output ← clearWords spec.chunkElements output
    let output ← writeWords output 0 ([sampleCount, kernel.featureCount, outputWordsPerSample,
      kernel.trees.length].map fun n => spec.narrow (Binary32.ofNat n))
    forRange 0 sampleCount output (kernel.writeSample math input)

/-- A run, with one invocation for each chunk of the tensor. -/
def run (packed output : List Word) : Except KernelHalt (List Word) := do
  let size := kernel.transport.spec.chunkElements
  let first ← kernel.controlledAct math size (packed.take size) (output.take size)
  let second ← kernel.controlledAct math size (packed.drop size) (output.drop size)
  .ok (first ++ second)

end SpecializedKernel

/-! ## Packing -/

/-- `batch_capacity`. -/
def batchCapacity (featureCount : ℕ) (transport : Transport) : Except ModelError ℕ := do
  refuseIf (featureCount = 0) (.value "feature_count must be a positive integer")
  .ok ((transport.spec.chunkElements - headerWords) / featureCount)

/-- `pack_features`. -/
def packFeatures (features : FeatureMatrix) (featureCount : ℕ) (transport : Transport) :
    Except ModelError (List Word) := do
  let spec := transport.spec
  Runtime.checkFeatures features featureCount
  let capacity ← batchCapacity featureCount transport
  refuseIf (capacity < features.rows.length) (.value
    s!"batch size {features.rows.length} exceeds {spec.name} invocation capacity {capacity}")
  let quantized := features.rows.map (List.map spec.narrow)
  refuseIf (∃ row ∈ quantized, ∃ value ∈ row, Binary32.isInf (spec.widen value))
    (.value s!"a feature overflows the {spec.name.toUpper} transport")
  let chunk := paddedTo spec.chunkElements ([features.rows.length, featureCount, 0, 0].map
    (fun n => spec.narrow (Binary32.ofNat n)) ++ quantized.flatten)
  .ok (chunk ++ chunk)

/-- `unpack_predictions`. -/
def unpackPredictions (output : List Word) (expectedSamples featureCount : ℕ)
    (transport : Transport) : Except ModelError Predictions := do
  let spec := transport.spec
  refuseIf (output.length ≠ spec.logicalElements) (.value
    s!"kernel output has {output.length} elements, expected {spec.logicalElements}")
  let first := output.take spec.chunkElements
  refuseIf (first ≠ output.drop spec.chunkElements)
    (.value "replicated ACT invocations produced different output bytes")
  let header ← (first.take headerWords).mapM fun word => Runtime.decodeInt (spec.widen word)
  let expected : List ℤ := [expectedSamples, featureCount, outputWordsPerSample]
  refuseIf (header.take 3 ≠ expected)
    (.value s!"kernel output header {header.take 3} does not match {expected}")
  refuseIf (spec.chunkElements < headerWords + expectedSamples * outputWordsPerSample)
    (.value s!"cannot reshape array of size {spec.chunkElements - headerWords}")
  let records := Runtime.recordsOf expectedSamples ((first.drop headerWords).map spec.widen)
  refuseIf (∃ record ∈ records,
      Runtime.classOf record ≠ some 0 ∧ Runtime.classOf record ≠ some 1)
    (.value "kernel produced a non-binary class")
  .ok
    { margins := records.map fun record => record.getD 0 0
      probabilities := records.map fun record => record.getD 1 0
      classes := records.map fun record => (Runtime.classOf record).getD 0 }

end Specialized

end Npunlock
