import Npunlock.WordBuffer

/-!
# The runtime XGBoost kernels

The three kernels of the XGBoost runtime, which share the validation of the model and the
walk of a tree : the single-stage kernel (`runtimeAct`), the first stage of a connected
run (`firstAct`) and the second stage, which continues the margins of the first
(`chainAct`).

The model chunk is a header of five numbers and two words a node. The first word of a
node packs the feature, the children and the direction of a missing value into the low 19
bits of a number between one and two; the first node of a tree also holds the number of
its nodes. The second word is the threshold or the leaf.
-/

namespace Npunlock

namespace Runtime

/-- `XGB_CHUNK_ELEMENTS`. -/
def chunkElements : ℕ := 1024

/-- `XGB_FEATURE_HEADER`. -/
def featureHeader : ℕ := 4

/-- `XGB_OUTPUT_WORDS`. -/
def outputWords : ℕ := 3

/-- `XGB_MODEL_HEADER`. -/
def modelHeaderWords : ℕ := 5

/-- `XGB_MODEL_MAGIC`. -/
def modelMagic : ℕ := 372020

/-- `XGB_MAX_FEATURES`. -/
def maxFeatures : ℕ := 63

/-- `XGB_MAX_TREE_NODES`. -/
def maxTreeNodes : ℕ := 16

/-- `XGB_MAX_TOTAL_NODES`. -/
def maxTotalNodes : ℕ := 509

/-- The largest number of trees. -/
def maxTrees : ℕ := 64

/-- `XGB_LEAF_FEATURE`. -/
def leafFeature : ℕ := 63

/-- `XGB_METADATA_BASE`. -/
def metadataBase : ℕ := 0x3F800000

/-! ## Nodes -/

/-- `word & XGB_METADATA_PAYLOAD_MASK`. -/
def metadata (word : Word) : ℕ :=
  word.toNat % 2 ^ 19

/-- `(word & ~XGB_METADATA_PAYLOAD_MASK) == XGB_METADATA_BASE`. -/
def hasBase (word : Word) : Bool :=
  word.toNat / 2 ^ 19 * 2 ^ 19 = metadataBase

/-- `metadata & XGB_FEATURE_MASK`. -/
def featureOf (metadata : ℕ) : ℕ :=
  metadata % 2 ^ 6

/-- `(metadata >> XGB_LEFT_SHIFT) & XGB_CHILD_MASK`. -/
def leftOf (metadata : ℕ) : ℕ :=
  metadata / 2 ^ 6 % 2 ^ 4

/-- `(metadata >> XGB_RIGHT_SHIFT) & XGB_CHILD_MASK`. -/
def rightOf (metadata : ℕ) : ℕ :=
  metadata / 2 ^ 10 % 2 ^ 4

/-- `(metadata >> XGB_DEFAULT_SHIFT) & 1u`. -/
def defaultOf (metadata : ℕ) : ℕ :=
  metadata / 2 ^ 14 % 2

/-- `((metadata >> XGB_TREE_SIZE_SHIFT) & XGB_CHILD_MASK) + 1u`. -/
def treeNodesOf (metadata : ℕ) : ℕ :=
  metadata / 2 ^ 15 % 2 ^ 4 + 1

/-- `XGB_MODEL_HEADER + node * 2u`. -/
def nodeWord (node : ℕ) : ℕ :=
  u32 (modelHeaderWords + node * 2)

/-! ## Validation -/

section Model

variable (model : List Word)

/-- The checks of one node of a tree that begins at `root`. -/
def validateNode (featureCount root treeNodes node : ℕ) : Except KernelHalt Unit := do
  let word ← readWord model (nodeWord (root + node))
  refuseIf (hasBase word = false) .refused
  let metadata := metadata word
  if featureOf metadata ≠ leafFeature then
    refuseIf (featureCount ≤ featureOf metadata ∨ treeNodes ≤ leftOf metadata ∨
      treeNodes ≤ rightOf metadata) .refused

/-- The checks of one tree, which end in the root of the next. -/
def validateTree (featureCount nodeCount root : ℕ) : Except KernelHalt ℕ := do
  refuseIf (nodeCount ≤ root) .refused
  let word ← readWord model (nodeWord root)
  refuseIf (hasBase word = false) .refused
  let treeNodes := treeNodesOf (metadata word)
  refuseIf (nodeCount < u32 (root + treeNodes)) .refused
  checkRange 0 treeNodes fun node => validateNode model featureCount root treeNodes node
  .ok (u32 (root + treeNodes))

/-- `xgb_validate_model`. -/
def validateModel (featureCount treeCount nodeCount : ℕ) : Except KernelHalt Unit := do
  let root ← forRange 0 treeCount 0 fun _ root =>
    validateTree model featureCount nodeCount root
  refuseIf (root ≠ nodeCount) .refused

end Model

/-! ## Margins -/

/-- The arithmetic of the kernels. -/
structure Arithmetic where
  add : Word → Word → Word
  sub : Word → Word → Word
  div : Word → Word → Word
  exp : Word → Word

section Margin

variable (math : Arithmetic) (features model : List Word)

/-- The walk of a tree from `node`, for at most as many steps as the first argument
says. -/
def walkTree (sample featureCount root : ℕ) : ℕ → ℕ → Except KernelHalt Word
  | 0, _ => .error .refused
  | steps + 1, node => do
    let word := nodeWord (root + node)
    let metadata := metadata (← readWord model word)
    let splitOrLeaf ← readWord model (u32 (word + 1))
    if featureOf metadata = leafFeature then .ok splitOrLeaf
    else do
      let value ← readWord features
        (u32 (featureHeader + sample * featureCount + featureOf metadata))
      let goesLeft := if Binary32.isNaN value then defaultOf metadata ≠ 0
        else Binary32.lt value splitOrLeaf
      walkTree sample featureCount root steps
        (if goesLeft then leftOf metadata else rightOf metadata)

/-- The trees of a sample, added to `start`. -/
def addTrees (sample featureCount treeCount nodeCount : ℕ) (start : Word) :
    Except KernelHalt Word := do
  let state ← forRange 0 treeCount (0, start) fun _ state => do
    let rootWord ← readWord model (nodeWord state.1)
    let leaf ← walkTree features model sample featureCount state.1 maxTreeNodes 0
    .ok (u32 (state.1 + treeNodesOf (metadata rootWord)), math.add state.2 leaf)
  refuseIf (state.1 ≠ nodeCount) .refused
  .ok state.2

/-- `xgb_margin`. -/
def margin (sample featureCount treeCount nodeCount : ℕ) : Except KernelHalt Word := do
  let base ← readWord model 4
  addTrees math features model sample featureCount treeCount nodeCount base

/-- `xgb_chained_margin`. -/
def chainedMargin (sample sampleCount featureCount treeCount nodeCount : ℕ) :
    Except KernelHalt Word := do
  let carried ← readWord features
    (u32 (featureHeader + sampleCount * featureCount + sample))
  refuseIf (Binary32.isNaN carried ∨ ¬Binary32.eq (math.sub carried carried) 0) .refused
  addTrees math features model sample featureCount treeCount nodeCount carried

/-- `xgb_sigmoid`. -/
def sigmoid (value : Word) : Word :=
  if Binary32.le 0 value then
    math.div Binary32.one (math.add Binary32.one (math.exp (value ^^^ 0x80000000)))
  else math.div (math.exp value) (math.add Binary32.one (math.exp value))

end Margin

/-! ## Outputs -/

/-- `output[index] = 0.0f` for the whole chunk. -/
def clear (output : List Word) : Except KernelHalt (List Word) :=
  forRange 0 chunkElements output fun index output => writeWord output index 0

/-- `xgb_write_failure`. -/
def writeFailure (output : List Word) : Except KernelHalt (List Word) := do
  let output ← clear output
  writeWord output 3 Binary32.minusOne

/-- The record of a sample. -/
def writeRecord (math : Arithmetic) (sample : ℕ) (margin : Word) (output : List Word) :
    Except KernelHalt (List Word) :=
  let probability := sigmoid math margin
  writeWords output (u32 (featureHeader + sample * outputWords))
    [margin, probability, if Binary32.le Binary32.half probability then Binary32.one else 0]

/-- The loop over the samples, from `sample` on. A sample that fails ends it. -/
def sampleLoop (margin : ℕ → Except KernelHalt Word)
    (emit : ℕ → Word → List Word → Except KernelHalt (List Word)) :
    ℕ → ℕ → List Word → Except KernelHalt (List Word)
  | 0, _, output => .ok output
  | remaining + 1, sample, output =>
    ifRefused (margin sample) (writeWord output 3 Binary32.minusOne) fun margin' => do
      let output ← emit sample margin' output
      sampleLoop margin emit remaining (sample + 1) output

/-! ## The kernels -/

/-- The counts of the two headers. -/
structure Header where
  sampleCount : ℕ
  featureCount : ℕ
  treeCount : ℕ
  nodeCount : ℕ
  deriving DecidableEq

section Acts

variable (math : Arithmetic) (features model : List Word)

/-- The checks of `model[1]` and `model[0]`. -/
def treeCountOf : Except KernelHalt ℕ := do
  let magic ← countOf (← readWord model 0) modelMagic
  refuseIf (magic ≠ modelMagic) .refused
  let treeCount ← countOf (← readWord model 1) maxTrees
  refuseIf (treeCount = 0) .refused
  .ok treeCount

/-- The checks of `model[2]` and `model[3]`. -/
def nodeCountOf (featureCount : ℕ) : Except KernelHalt ℕ := do
  let nodeCount ← countOf (← readWord model 2) maxTotalNodes
  refuseIf (nodeCount = 0) .refused
  let modelFeatureCount ← countOf (← readWord model 3) maxFeatures
  refuseIf (modelFeatureCount ≠ featureCount) .refused
  .ok nodeCount

/-- The checks of the single-stage kernel. -/
def runtimeHeader : Except KernelHalt Header := do
  let sampleCount ← countOf (← readWord features 0) ((chunkElements - featureHeader) / 1)
  let featureCount ← countOf (← readWord features 1) maxFeatures
  refuseIf (featureCount = 0) .refused
  refuseIf ((chunkElements - featureHeader) / featureCount < sampleCount) .refused
  refuseIf ((chunkElements - featureHeader) / outputWords < sampleCount) .refused
  let treeCount ← treeCountOf model
  let nodeCount ← nodeCountOf model featureCount
  validateModel model featureCount treeCount nodeCount
  .ok ⟨sampleCount, featureCount, treeCount, nodeCount⟩

/-- `controlled_act` of the single-stage kernel. -/
def runtimeAct (elementCount : ℕ) (output : List Word) : Except KernelHalt (List Word) :=
  if elementCount ≠ chunkElements then .ok output
  else ifRefused (runtimeHeader features model) (writeFailure output) fun header => do
    let output ← clear output
    let output ← writeWords output 0
      [Binary32.ofNat header.sampleCount, Binary32.ofNat header.featureCount,
        Binary32.ofNat outputWords, Binary32.ofNat header.treeCount]
    sampleLoop
      (fun sample => margin math features model sample header.featureCount header.treeCount
        header.nodeCount)
      (writeRecord math) header.sampleCount 0 output

/-- The checks of the first stage, with the number of trees of both stages. -/
def firstHeader : Except KernelHalt (Header × ℕ) := do
  let sampleCount ← countOf (← readWord features 0) ((chunkElements - featureHeader) / 2)
  let featureCount ← countOf (← readWord features 1) maxFeatures
  refuseIf (featureCount = 0) .refused
  refuseIf ((chunkElements - featureHeader) / (featureCount + 1) < sampleCount) .refused
  let totalTreeCount ← countOf (← readWord features 2) maxTrees
  let treeCount ← treeCountOf model
  refuseIf (totalTreeCount ≤ treeCount) .refused
  let nodeCount ← nodeCountOf model featureCount
  validateModel model featureCount treeCount nodeCount
  .ok (⟨sampleCount, featureCount, treeCount, nodeCount⟩, totalTreeCount)

/-- `controlled_act` of the first stage. -/
def firstAct (elementCount : ℕ) (output : List Word) : Except KernelHalt (List Word) :=
  if elementCount ≠ chunkElements then .ok output
  else ifRefused (firstHeader features model) (writeFailure output) fun (header, total) => do
    let output ← clear output
    let output ← writeWords output 0
      [Binary32.ofNat header.sampleCount, Binary32.ofNat header.featureCount,
        Binary32.ofNat header.treeCount, Binary32.ofNat total]
    let featureElements := u32 (header.sampleCount * header.featureCount)
    let output ← forRange 0 featureElements output fun index output => do
      let word ← readWord features (u32 (featureHeader + index))
      writeWord output (u32 (featureHeader + index)) word
    sampleLoop
      (fun sample => margin math features model sample header.featureCount header.treeCount
        header.nodeCount)
      (fun sample margin output =>
        writeWord output (u32 (featureHeader + featureElements + sample)) margin)
      header.sampleCount 0 output

/-- The checks of the second stage, with the number of trees of both stages. -/
def chainHeader : Except KernelHalt (Header × ℕ) := do
  let sampleCount ← countOf (← readWord features 0) ((chunkElements - featureHeader) / 2)
  let featureCount ← countOf (← readWord features 1) maxFeatures
  refuseIf (featureCount = 0) .refused
  refuseIf ((chunkElements - featureHeader) / (featureCount + 1) < sampleCount) .refused
  refuseIf ((chunkElements - featureHeader) / outputWords < sampleCount) .refused
  let firstTreeCount ← countOf (← readWord features 2) maxTrees
  refuseIf (firstTreeCount = 0) .refused
  let totalTreeCount ← countOf (← readWord features 3) maxTrees
  let treeCount ← treeCountOf model
  refuseIf (u32 (firstTreeCount + treeCount) ≠ totalTreeCount) .refused
  let nodeCount ← nodeCountOf model featureCount
  let base ← readWord model 4
  refuseIf (¬Binary32.eq base 0) .refused
  validateModel model featureCount treeCount nodeCount
  .ok (⟨sampleCount, featureCount, treeCount, nodeCount⟩, totalTreeCount)

/-- `controlled_act` of the second stage. -/
def chainAct (elementCount : ℕ) (output : List Word) : Except KernelHalt (List Word) :=
  if elementCount ≠ chunkElements then .ok output
  else ifRefused (chainHeader features model) (writeFailure output) fun (header, total) => do
    let output ← clear output
    let output ← writeWords output 0
      [Binary32.ofNat header.sampleCount, Binary32.ofNat header.featureCount,
        Binary32.ofNat outputWords, Binary32.ofNat total]
    sampleLoop
      (fun sample => chainedMargin math features model sample header.sampleCount
        header.featureCount header.treeCount header.nodeCount)
      (writeRecord math) header.sampleCount 0 output

end Acts

end Runtime

end Npunlock
