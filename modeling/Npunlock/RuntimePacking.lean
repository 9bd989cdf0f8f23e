import Npunlock.Ensemble
import Npunlock.RuntimeKernel

/-!
# Packing for the XGBoost runtime

The host side of the runtime kernels : the packing of features and models into the four
chunks of a logical tensor, the split of a model that is too large for one chunk, and the
reading of the kernels' outputs. A logical tensor is the list of its chunks, which the
source holds in one row.
-/

namespace Npunlock

namespace Runtime

/-- `RUNTIME_REPLICAS`. -/
def replicas : ℕ := 4

/-- `RUNTIME_LOGICAL_ELEMENTS`. -/
def logicalElements : ℕ := 4096

/-! ## Capacities -/

/-- The check of a feature count. -/
def checkFeatureCount (featureCount : ℕ) : Except ModelError Unit :=
  refuseIf (¬(0 < featureCount ∧ featureCount ≤ maxFeatures))
    (.value s!"feature_count must be between 1 and {maxFeatures}")

/-- `_runtime_invocation_capacity`. -/
def invocationCapacity (featureCount : ℕ) : Except ModelError ℕ := do
  checkFeatureCount featureCount
  .ok ((chunkElements - featureHeader) / max featureCount outputWords)

/-- `_partitioned_runtime_invocation_capacity`. -/
def partitionedInvocationCapacity (featureCount : ℕ) : Except ModelError ℕ := do
  checkFeatureCount featureCount
  .ok ((chunkElements - featureHeader) / max (featureCount + 1) outputWords)

/-- `runtime_batch_capacity`. -/
def batchCapacity (featureCount : ℕ) : Except ModelError ℕ := do
  let capacity ← invocationCapacity featureCount
  .ok (replicas * capacity)

/-- `partitioned_runtime_batch_capacity`. -/
def partitionedBatchCapacity (featureCount : ℕ) : Except ModelError ℕ := do
  let capacity ← partitionedInvocationCapacity featureCount
  .ok (replicas * capacity)

/-! ## Features -/

/-- A chunk that begins with the words and is zero behind them. -/
def chunkOf (words : List Word) : Except ModelError (List Word) := do
  refuseIf (chunkElements < words.length) (.value "could not broadcast input array")
  .ok (words ++ List.replicate (chunkElements - words.length) 0)

/-- The sizes of the shards, without their checks : as equal as possible, the larger
first. -/
def balancedSizes (sampleCount : ℕ) : List ℕ :=
  let active := min replicas (max 1 sampleCount)
  (List.range active).map fun replica =>
    sampleCount / active + if replica < sampleCount % active then 1 else 0

/-- `_shard_sizes`. -/
def shardSizes (sampleCount capacity : ℕ) : Except ModelError (List ℕ) := do
  refuseIf (capacity = 0) (.value "sample count and invocation capacity are invalid")
  refuseIf (replicas * capacity < sampleCount)
    (.value "sample count exceeds the four-invocation capacity")
  let sizes := balancedSizes sampleCount
  refuseIf (∃ size ∈ sizes, capacity < size)
    (.value "balanced sample shard exceeds invocation capacity")
  .ok sizes

/-- The rows cut into runs of the given sizes. -/
def cutRows {α : Type} : List ℕ → List α → List (List α)
  | [], _ => []
  | size :: sizes, rows => rows.take size :: cutRows sizes (rows.drop size)

/-- The chunk of one shard. -/
def shardChunk (featureCount : ℕ) (tail : List ℕ) (shard : List (List Word)) :
    Except ModelError (List Word) :=
  chunkOf ((shard.length :: featureCount :: tail).map Binary32.ofNat ++ shard.flatten)

/-- The chunks of all replicas : the inactive ones repeat the first. -/
def fillReplicas (chunks : List (List Word)) : List (List Word) :=
  chunks ++ List.replicate (replicas - chunks.length) (chunks.getD 0 [])

/-- `_pack_runtime_feature_shards`. -/
def packFeatureShards (rows : List (List Word)) (featureCount capacity : ℕ) (tail : List ℕ) :
    Except ModelError (List (List Word)) := do
  let sizes ← shardSizes rows.length capacity
  let chunks ← (cutRows sizes rows).mapM (shardChunk featureCount tail)
  .ok (fillReplicas chunks)

/-- The checks of a feature array. -/
def checkFeatures (features : FeatureMatrix) (featureCount : ℕ) : Except ModelError Unit := do
  refuseIf (features.width ≠ featureCount)
    (.value s!"features must have shape (N, {featureCount})")
  refuseIf (∃ row ∈ features.rows, ∃ value ∈ row, Binary32.isInf value)
    (.value "features may contain finite values or NaN, but not infinity")

/-- `pack_runtime_features`, with the capacity of an invocation. -/
def packRuntimeFeatures (features : FeatureMatrix) (featureCount capacity : ℕ) :
    Except ModelError (List (List Word)) := do
  checkFeatures features featureCount
  refuseIf (replicas * capacity < features.rows.length)
    (.value s!"batch size {features.rows.length} exceeds runtime capacity {replicas * capacity}")
  packFeatureShards features.rows featureCount capacity [0, 0]

/-- `pack_connected_runtime_features`. -/
def packConnectedFeatures (features : FeatureMatrix) (featureCount totalTreeCount : ℕ) :
    Except ModelError (List (List Word)) := do
  checkFeatures features featureCount
  let capacity ← partitionedInvocationCapacity featureCount
  refuseIf (replicas * capacity < features.rows.length)
    (.value (s!"batch size {features.rows.length} exceeds connected runtime capacity " ++
      s!"{replicas * capacity}"))
  refuseIf (¬(1 < totalTreeCount ∧ totalTreeCount ≤ maxTrees))
    (.value "connected runtime total_tree_count must be between 2 and 64")
  packFeatureShards features.rows featureCount capacity [totalTreeCount, 0]

/-! ## Models -/

/-- The metadata of a node. -/
def nodeMetadata (tree : Tree) (node : ℕ) : Except ModelError ℕ := do
  if tree.leftOf node = -1 then .ok leafFeature
  else do
    let feature := tree.featureOf node
    refuseIf (¬(0 ≤ feature ∧ feature < maxFeatures))
      (.value "runtime model contains an out-of-range feature index")
    let left := tree.leftOf node
    let right := tree.rightOf node
    refuseIf (¬(0 ≤ left ∧ left ≤ 15) ∨ ¬(0 ≤ right ∧ right ≤ 15))
      (.value "runtime model child index does not fit the compact format")
    .ok (feature.toNat + left.toNat * 2 ^ 6 + right.toNat * 2 ^ 10 +
      (if tree.defaultOf node then 1 else 0) * 2 ^ 14)

/-- The two words of a node. -/
def nodeWords (tree : Tree) (node : ℕ) : Except ModelError (List Word) := do
  refuseIf (¬Binary32.isFinite (tree.valueOf node))
    (.value "runtime model split thresholds and leaves must be finite")
  let metadata ← nodeMetadata tree node
  let size := if node = 0 then (tree.nodeCount - 1) * 2 ^ 15 else 0
  .ok [UInt32.ofNat (metadataBase + metadata + size), tree.valueOf node]

/-- The words of a tree. -/
def treeWords (tree : Tree) : Except ModelError (List Word) := do
  refuseIf (maxTreeNodes < tree.nodeCount)
    (.value s!"runtime model tree has {tree.nodeCount} nodes; capacity is {maxTreeNodes}")
  let words ← mapRange tree.nodeCount (nodeWords tree)
  .ok words.flatten

/-- The chunk of a model. -/
def modelChunk (ensemble : Ensemble) : Except ModelError (List Word) := do
  refuseIf (¬(0 < ensemble.featureCount ∧ ensemble.featureCount ≤ maxFeatures))
    (.value s!"runtime model supports at most {maxFeatures} features")
  refuseIf (¬(0 < ensemble.trees.length ∧ ensemble.trees.length ≤ maxTrees))
    (.value "runtime model supports between 1 and 64 trees")
  refuseIf (maxTotalNodes < ensemble.nodeCount)
    (.value s!"runtime model has {ensemble.nodeCount} nodes; capacity is {maxTotalNodes}")
  refuseIf (¬Binary32.isFinite ensemble.baseMargin)
    (.value "runtime model base margin must be finite")
  let words ← ensemble.trees.mapM treeWords
  chunkOf ([modelMagic, ensemble.trees.length, ensemble.nodeCount,
    ensemble.featureCount].map Binary32.ofNat ++ [ensemble.baseMargin] ++ words.flatten)

/-- `pack_runtime_model`. -/
def packRuntimeModel (ensemble : Ensemble) : Except ModelError (List (List Word)) := do
  let chunk ← modelChunk ensemble
  .ok (List.replicate replicas chunk)

/-- Whether the first `index` trees and the others each fit a chunk. -/
def fitsAt (ensemble : Ensemble) (index : ℕ) : Bool :=
  let before := ((ensemble.trees.take index).map Tree.nodeCount).sum
  before ≤ maxTotalNodes ∧ ensemble.nodeCount - before ≤ maxTotalNodes

/-- `partition_runtime_ensemble`. The last boundary that fits is taken. -/
def partitionEnsemble (ensemble : Ensemble) : Except ModelError (Ensemble × Ensemble) := do
  refuseIf (¬(1 < ensemble.trees.length ∧ ensemble.trees.length ≤ maxTrees))
    (.value "partitioned runtime supports between 2 and 64 total trees")
  refuseIf (ensemble.nodeCount ≤ maxTotalNodes)
    (.value ("partitioned runtime requires a model that exceeds the single-stage capacity of " ++
      s!"{maxTotalNodes} nodes"))
  refuseIf (2 * maxTotalNodes < ensemble.nodeCount)
    (.value (s!"partitioned runtime model has {ensemble.nodeCount} nodes; " ++
      s!"two-stage capacity is {2 * maxTotalNodes}"))
  match ((List.range' 1 (ensemble.trees.length - 1)).filter (fitsAt ensemble)).getLast? with
  | none => .error (.value ("partitioned runtime cannot split this model into two contiguous " ++
      s!"whole-tree groups of at most {maxTotalNodes} nodes"))
  | some index =>
    .ok ({ ensemble with trees := ensemble.trees.take index },
      { ensemble with baseMargin := 0, trees := ensemble.trees.drop index })

/-! ## Outputs -/

/-- `Predictions`. -/
structure Predictions where
  margins : List Word
  probabilities : List Word
  classes : List ℤ
  deriving DecidableEq

/-- `int(float(value))`. -/
def decodeInt (word : Word) : Except ModelError ℤ :=
  match Binary32.toInt? word with
  | some value => .ok value
  | none => if Binary32.isNaN word then .error (.value "cannot convert float NaN to integer")
    else .error (.overflow "cannot convert float infinity to integer")

/-- The header of an output chunk. -/
def decodeHeader (chunk : List Word) : Except ModelError (List ℤ) :=
  (chunk.take featureHeader).mapM decodeInt

/-- A list cut into records of three words. -/
def recordsOf : ℕ → List Word → List (List Word)
  | 0, _ => []
  | count + 1, words => words.take outputWords :: recordsOf count (words.drop outputWords)

/-- The check of a chunk's header. -/
def checkHeader (what : String) (chunk : List Word) (size featureCount treeCount : ℕ) :
    Except ModelError Unit := do
  let header ← decodeHeader chunk
  let expected : List ℤ := [size, featureCount, outputWords, treeCount]
  refuseIf (header ≠ expected) (.value s!"{what} header {header} does not match {expected}")

/-- The check of the size of an output. -/
def checkSize (what : String) (output : List (List Word)) : Except ModelError Unit :=
  refuseIf (output.map List.length ≠ List.replicate replicas chunkElements)
    (.value s!"{what} has {output.flatten.length} elements, expected {logicalElements}")

/-- The records of an output chunk, after the check of its header. -/
def chunkRecords (featureCount treeCount : ℕ) (entry : List Word × ℕ) :
    Except ModelError (List (List Word)) := do
  checkHeader "runtime kernel output" entry.1 entry.2 featureCount treeCount
  .ok (recordsOf entry.2 (entry.1.drop featureHeader))

/-- The class of a record, as `astype` converts it. -/
def classOf (record : List Word) : Option ℤ :=
  Binary32.toInt? (record.getD 2 0)

/-- `unpack_runtime_predictions`. -/
def unpackPredictions (output : List (List Word)) (expectedSamples featureCount treeCount
    capacity : ℕ) : Except ModelError Predictions := do
  checkSize "runtime kernel output" output
  let sizes ← shardSizes expectedSamples capacity
  let shards ← (output.zip sizes).mapM (chunkRecords featureCount treeCount)
  refuseIf (∃ chunk ∈ output.drop sizes.length, chunk ≠ output.getD 0 [])
    (.value "inactive runtime ACT invocations produced different output bytes")
  let records := shards.flatten
  refuseIf (∃ record ∈ records, ∃ value ∈ record.take 2, ¬Binary32.isFinite value)
    (.value "runtime kernel produced a non-finite margin or probability")
  refuseIf (∃ record ∈ records, Binary32.lt (record.getD 1 0) 0 ∨
      Binary32.lt Binary32.one (record.getD 1 0))
    (.value "runtime kernel produced a probability outside [0, 1]")
  refuseIf (∃ record ∈ records, classOf record ≠ some 0 ∧ classOf record ≠ some 1)
    (.value "runtime kernel produced a non-binary class")
  .ok
    { margins := records.map fun record => record.getD 0 0
      probabilities := records.map fun record => record.getD 1 0
      classes := records.map fun record => (classOf record).getD 0 }

/-- The margins of an output chunk of the first stage. -/
def partialMargins (featureCount treeCount : ℕ) (entry : List Word × ℕ) :
    Except ModelError (List Word) := do
  checkHeader "runtime partial output" entry.1 entry.2 featureCount treeCount
  let margins := (recordsOf entry.2 (entry.1.drop featureHeader)).map fun record =>
    record.getD 0 0
  refuseIf (∃ margin ∈ margins, ¬Binary32.isFinite margin)
    (.value "runtime partial output contains a non-finite margin")
  .ok margins

/-- `validate_runtime_partial`, which ends in the margins of the shards. -/
def validatePartial (output : List (List Word)) (expectedSamples featureCount treeCount
    capacity : ℕ) : Except ModelError (List (List Word)) := do
  checkSize "runtime partial output" output
  let sizes ← shardSizes expectedSamples capacity
  let shards ← (output.zip sizes).mapM (partialMargins featureCount treeCount)
  refuseIf (∃ chunk ∈ output.drop sizes.length, chunk ≠ output.getD 0 [])
    (.value "inactive runtime partial ACT invocations produced different output bytes")
  .ok shards

/-- The chunk of one shard for the second stage. -/
def chainedChunk (featureCount firstTreeCount totalTreeCount : ℕ)
    (entry : List (List Word) × List Word) : Except ModelError (List Word) :=
  chunkOf ([entry.1.length, featureCount, firstTreeCount, totalTreeCount].map Binary32.ofNat ++
    entry.1.flatten ++ entry.2)

/-- `_pack_chained_runtime_features`. -/
def packChainedFeatures (features : FeatureMatrix) (partialOutput : List (List Word))
    (featureCount firstTreeCount totalTreeCount : ℕ) : Except ModelError (List (List Word)) := do
  checkFeatures features featureCount
  let capacity ← partitionedInvocationCapacity featureCount
  refuseIf (replicas * capacity < features.rows.length)
    (.value (s!"batch size {features.rows.length} exceeds partitioned runtime capacity " ++
      s!"{replicas * capacity}"))
  refuseIf (¬(0 < firstTreeCount ∧ firstTreeCount < totalTreeCount ∧ totalTreeCount ≤ maxTrees))
    (.value "partitioned runtime tree counts must satisfy 0 < first < total <= 64")
  let margins ← validatePartial partialOutput features.rows.length featureCount firstTreeCount
    capacity
  let sizes ← shardSizes features.rows.length capacity
  let chunks ← ((cutRows sizes features.rows).zip margins).mapM
    (chainedChunk featureCount firstTreeCount totalTreeCount)
  .ok (fillReplicas chunks)

/-! ## Runs -/

/-- The outputs of the four invocations of a kernel. -/
def runReplicas (act : List Word → List Word → List Word → Except KernelHalt (List Word))
    (features model output : List (List Word)) : Except KernelHalt (List (List Word)) :=
  (features.zip (model.zip output)).mapM fun entry => act entry.1 entry.2.1 entry.2.2

end Runtime

end Npunlock
