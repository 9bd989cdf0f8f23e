import Npunlock.HnswHeaps
import Npunlock.HnswSearch
import Npunlock.WordBuffer

/-!
# The graph search kernel

`hnsw_search.c` makes the search of `search_index` on packed words. An invocation searches one
query a chunk; the graph and the bounds of the search stand in its first chunk only. The
candidates and the results are heaps in arrays of fixed length, whose first contents are
arbitrary, and the visited nodes are bits of two words.

The vectors are finite, so a distance is a sum of squares that are no NaN, and the words of
distances are in the order of the distances (`Distance.lt_word_iff`). The arithmetic is a
parameter.
-/

namespace Npunlock

/-! ## Distances -/

/-- The words of a sum of squares : no sign, and no NaN. -/
def Distance : Type :=
  { word : Word // word.toNat ≤ Binary32.infinite }

namespace Distance

/-- The word of a distance. -/
def word (distance : Distance) : Word :=
  distance.1

theorem word_injective : Function.Injective word :=
  Subtype.val_injective

instance : LinearOrder Distance :=
  LinearOrder.lift' (fun distance => distance.word.toNat) fun _ _ h =>
    word_injective (UInt32.toNat_inj.1 h)

theorem lt_def {a b : Distance} : a < b ↔ a.word.toNat < b.word.toNat :=
  Iff.rfl

/-- `0.0f`. -/
def zero : Distance :=
  ⟨0, Nat.zero_le _⟩

theorem toNat_word_lt (distance : Distance) : distance.word.toNat < 2 ^ 31 :=
  distance.2.trans_lt (by decide)

theorem order_word (distance : Distance) :
    Binary32.order distance.word = distance.word.toNat := by
  have hlt := distance.toNat_word_lt
  unfold Binary32.order Binary32.isNegative Binary32.magnitude
  rw [decide_eq_false (by omega), if_neg Bool.false_ne_true, Nat.mod_eq_of_lt hlt]

theorem isNaN_word (distance : Distance) : Binary32.isNaN distance.word = false := by
  unfold Binary32.isNaN Binary32.magnitude
  rw [Nat.mod_eq_of_lt distance.toNat_word_lt, decide_eq_false_iff_not, not_lt]
  exact distance.2

/-- The kernel compares distances as numbers. -/
theorem lt_word_iff {a b : Distance} : Binary32.lt a.word b.word = true ↔ a < b := by
  rw [Binary32.lt_iff, order_word, order_word, lt_def]
  simp [isNaN_word]

theorem eq_word_iff {a b : Distance} : Binary32.eq a.word b.word = true ↔ a = b := by
  simp only [Binary32.eq, isNaN_word, order_word, Bool.false_eq_true, not_false_eq_true, true_and,
    decide_eq_true_eq, Nat.cast_inj, UInt32.toNat_inj]
  exact word_injective.eq_iff

end Distance

/-- The arithmetic of distances. The difference of finite numbers is no NaN, so its square is
the word of a distance. -/
structure DistanceArithmetic where
  sub : Word → Word → Word
  square : Word → Distance
  add : Distance → Distance → Distance

section Distances

variable (math : DistanceArithmetic)

/-- `_distance`. -/
def sequentialDistance (a b : List Word) : Distance :=
  (a.zip b).foldl (fun total pair => math.add total (math.square (math.sub pair.1 pair.2)))
    Distance.zero

/-- The sum of four lanes. -/
def sumLanes (sums : List Distance) : Distance :=
  math.add (math.add (sums.getD 0 Distance.zero) (sums.getD 1 Distance.zero))
    (math.add (sums.getD 2 Distance.zero) (sums.getD 3 Distance.zero))

/-- `_search_distance`. -/
def searchDistance (a b : List Word) : Distance :=
  if a.length = 16 then
    let delta := List.zipWith math.sub a b
    let squared := delta.map math.square
    let sums := List.zipWith math.add
      (List.zipWith math.add (squared.take 4) ((squared.drop 4).take 4))
      (List.zipWith math.add ((squared.drop 8).take 4) ((squared.drop 12).take 4))
    sumLanes math sums
  else sequentialDistance math a b

end Distances

namespace HnswKernel

/-! ## Limits -/

/-- `HNSW_CHUNK_ELEMENTS`. -/
def chunkElements : ℕ := 1024

/-- `HNSW_MAX_CHUNKS_PER_INVOCATION`. -/
def maxChunksPerInvocation : ℕ := 80

/-- `HNSW_MAX_NODES`. -/
def maxNodes : ℕ := 48

/-- `HNSW_MAX_DIMENSIONS`. -/
def maxDimensions : ℕ := 32

/-- `HNSW_MAX_LEVELS`. -/
def maxLevels : ℕ := 4

/-- `HNSW_MAX_M`. -/
def maxM : ℕ := 4

/-- `HNSW_MAX_EF`. -/
def maxEf : ℕ := 24

/-- `HNSW_MAX_K`. -/
def maxK : ℕ := 16

/-- `HNSW_QUERY_MAGIC`. -/
def queryMagic : ℕ := 372021

/-- `HNSW_GRAPH_MAGIC`. -/
def graphMagic : ℕ := 372022

/-- `HNSW_OUTPUT_MAGIC`. -/
def outputMagic : ℕ := 372023

/-- `HNSW_FORMAT_VERSION`. -/
def formatVersion : ℕ := 4

/-- `HNSW_QUERY_HEADER`. -/
def queryHeader : ℕ := 8

/-- `HNSW_GRAPH_HEADER`. -/
def graphHeader : ℕ := 8

/-- `HNSW_OUTPUT_HEADER`. -/
def outputHeader : ℕ := 16

/-- `HNSW_OUTPUT_ELEMENTS`. -/
def outputElements : ℕ := outputHeader + maxK * 2

/-- `HNSW_NODE_GRAPH_ELEMENTS`. -/
def nodeGraphElements : ℕ := 1 + maxLevels * (1 + maxM)

/-- The `HNSW_STATUS_*` of a failure. -/
inductive Status
  | badQuery
  | badGraph
  | badSearch
  | internalBound
  deriving DecidableEq

def Status.toNat : Status → ℕ
  | .badQuery => 1
  | .badGraph => 2
  | .badSearch => 3
  | .internalBound => 4

/-! ## Accesses -/

/-- An access to an array of the kernel's stack. -/
def inBounds {α : Type} : Option α → Except KernelHalt α
  | some value => .ok value
  | none => .error .outOfBounds

/-- An unsigned integer of a buffer. -/
def readNat (buffer : List Word) (index : ℕ) : Except KernelHalt ℕ := do
  let word ← readWord buffer index
  .ok word.toNat

/-- `hnsw_float4`. -/
def readFloat4 (buffer : List Word) (index : ℕ) : Except KernelHalt (List Word) :=
  if index + 4 ≤ buffer.length then .ok ((buffer.drop index).take 4) else .error .outOfBounds

/-- `hnsw_graph_record`. -/
def hnswGraphRecord (node : ℕ) : ℕ :=
  u32 (graphHeader + node * nodeGraphElements)

/-- `hnsw_graph_layer`. -/
def hnswGraphLayer (node layer : ℕ) : ℕ :=
  u32 (hnswGraphRecord node + 1 + layer * (1 + maxM))

/-! ## Distances from the buffers -/

section Distances

variable (math : DistanceArithmetic) (payload : List Word)

/-- The squares of four lanes. -/
def squares4 (query candidate index : ℕ) : Except KernelHalt (List Distance) := do
  let query4 ← readFloat4 payload (query + index * 4)
  let candidate4 ← readFloat4 payload (candidate + index * 4)
  .ok ((List.zipWith math.sub query4 candidate4).map math.square)

/-- `hnsw_distance`, of the vectors at `query` and of a node in the vectors at `vectors`. -/
def hnswDistance (query vectors dimensions node : ℕ) : Except KernelHalt Distance :=
  let candidate := vectors + u32 (node * dimensions)
  if dimensions = 16 then do
    let squared0 ← squares4 math payload query candidate 0
    let squared1 ← squares4 math payload query candidate 1
    let squared2 ← squares4 math payload query candidate 2
    let squared3 ← squares4 math payload query candidate 3
    let sums := List.zipWith math.add (List.zipWith math.add squared0 squared1)
      (List.zipWith math.add squared2 squared3)
    .ok (sumLanes math sums)
  else
    forRange 0 dimensions Distance.zero fun index total => do
      let left ← readWord payload (query + index)
      let right ← readWord payload (candidate + index)
      .ok (math.add total (math.square (math.sub left right)))

end Distances

/-! ## The descent -/

/-- A loop over the links of a layer of a node. -/
def forLinks {σ : Type} (graph : List Word) (node layer : ℕ) (state : σ)
    (body : σ → ℕ → Except KernelHalt σ) : Except KernelHalt σ := do
  let list := hnswGraphLayer node layer
  let neighborCount ← readNat graph list
  forRange 0 neighborCount state fun slot state => do
    let neighbor ← readNat graph (u32 (list + 1 + slot))
    body state neighbor

section Search

variable (graph : List Word) (distance : ℕ → Except KernelHalt Distance)

/-- A step of the descent on a layer. -/
def descentStep (layer : ℕ) (descent : HnswIndex.Descent Distance) :
    Except KernelHalt (HnswIndex.Descent Distance ⊕ HnswIndex.Descent Distance) := do
  let (best, distanceCount) ← forLinks graph descent.current.node layer
    (descent.current, descent.distanceCount) fun state neighbor => do
      let entry : SearchEntry Distance := toLex (← distance neighbor, neighbor)
      .ok (if hnswBetter entry state.1 then entry else state.1, state.2 + 1)
  if best.node = descent.current.node then .ok (.inr { descent with distanceCount })
  else .ok (.inl { current := best, distanceCount, upperHops := descent.upperHops + 1 })

/-- The descent. A layer on which it does not stop is refused. -/
def descend (nodeCount entryPoint maxLevel : ℕ) : Except KernelHalt (HnswIndex.Descent Distance) :=
  do
    let first ← distance entryPoint
    ((List.range maxLevel).reverse.map (· + 1)).foldlM
      (fun descent layer => whileLoop .refused (descentStep graph distance layer) nodeCount descent)
      { current := toLex (first, entryPoint), distanceCount := 1, upperHops := 0 }

/-! ## The search on the lowest layer -/

/-- The variables of the search. -/
structure State where
  visited : List ℕ
  candidates : EntryHeap (SearchEntry Distance)
  top : EntryHeap (SearchEntry Distance)
  visitedCount : ℕ
  distanceCount : ℕ
  baseExpansions : ℕ
  candidatePeak : ℕ
  topPeak : ℕ

/-- The first contents of the arrays. -/
structure Arrays where
  candidates : List (SearchEntry Distance)
  top : List (SearchEntry Distance)
  length_candidates : candidates.length = maxNodes
  length_top : top.length = maxEf

/-- Whether the bit of a node is set. -/
def isVisited (visited : List ℕ) (node : ℕ) : Except KernelHalt Bool := do
  let word ← inBounds visited[node / 32]?
  .ok (word.testBit (node % 32))

def markVisited (visited : List ℕ) (node : ℕ) : Except KernelHalt (List ℕ) := do
  let word ← inBounds visited[node / 32]?
  .ok (visited.set (node / 32) (word ||| 1 <<< (node % 32)))

/-- The state before the loop. -/
def firstState (arrays : Arrays) (descent : HnswIndex.Descent Distance) :
    Except KernelHalt State := do
  let visited ← markVisited [0, 0] descent.current.node
  let candidates ← inBounds (hnswCandidatePush ⟨arrays.candidates, 0⟩ descent.current)
  let top ← inBounds (hnswTopPush ⟨arrays.top, 0⟩ descent.current)
  .ok
    { visited, candidates, top
      visitedCount := 1
      distanceCount := descent.distanceCount
      baseExpansions := 0
      candidatePeak := 1
      topPeak := 1 }

/-- Keeps a new entry. The candidates are refused when their array is full. -/
def keepEntry (efSearch : ℕ) (entry : SearchEntry Distance) (state : State) :
    Except KernelHalt State := do
  refuseIf (maxNodes ≤ state.candidates.size) .refused
  let candidates ← inBounds (hnswCandidatePush state.candidates entry)
  let top ← inBounds (if state.top.size < efSearch then hnswTopPush state.top entry
    else hnswTopReplace state.top entry)
  .ok { state with
    candidates, top
    candidatePeak := max state.candidatePeak candidates.size
    topPeak := max state.topPeak top.size }

/-- A link of the candidate. -/
def visitLink (efSearch : ℕ) (state : State) (neighbor : ℕ) : Except KernelHalt State := do
  if ← isVisited state.visited neighbor then .ok state
  else do
    let visited ← markVisited state.visited neighbor
    let entry : SearchEntry Distance := toLex (← distance neighbor, neighbor)
    let state := { state with
      visited
      visitedCount := state.visitedCount + 1
      distanceCount := state.distanceCount + 1 }
    if state.top.size < efSearch then keepEntry efSearch entry state
    else do
      let worst ← inBounds state.top.cells[0]?
      if hnswBetter entry worst then keepEntry efSearch entry state else .ok state

/-- Whether the candidate is worse than everything in full results. -/
def meetsBound (efSearch : ℕ) (candidate : SearchEntry Distance)
    (top : EntryHeap (SearchEntry Distance)) : Except KernelHalt Bool :=
  if efSearch ≤ top.size then do
    let worst ← inBounds top.cells[0]?
    .ok (hnswWorse candidate worst)
  else .ok false

/-- A round of the loop. It ends with whether the bound has ended it. -/
def searchRound (efSearch : ℕ) (state : State) : Except KernelHalt (State ⊕ State × Bool) :=
  if state.candidates.size = 0 then .ok (.inr (state, false))
  else do
    let (candidates, candidate) ← inBounds (hnswCandidatePop state.candidates)
    let state := { state with candidates }
    if ← meetsBound efSearch candidate state.top then .ok (.inr (state, true))
    else do
      let state ← forLinks graph candidate.node 0
        { state with baseExpansions := state.baseExpansions + 1 } (visitLink distance efSearch)
      .ok (.inl state)

end Search

/-! ## Outputs -/

/-- `hnsw_write_failure`. -/
def hnswWriteFailure (status : Status) (output : List Word) : Except KernelHalt (List Word) := do
  let output ← forRange 0 outputElements output fun value output => writeWord output value 0
  writeWords output 0 [UInt32.ofNat outputMagic, UInt32.ofNat status.toNat]

/-- The counters of the output header. -/
def counterWords (upperHops : ℕ) (outcome : State × Bool) : List ℕ :=
  [outcome.1.visitedCount, outcome.1.distanceCount, upperHops, outcome.1.baseExpansions,
    outcome.2.toNat, outcome.1.candidatePeak, outcome.1.topPeak]

/-- Writes the records, the last first, and takes them out of the results. -/
def writeRecords (resultCount : ℕ) (top : EntryHeap (SearchEntry Distance))
    (output : List Word) : Except KernelHalt (List Word) := do
  let (_, output) ← (List.range resultCount).reverse.foldlM (fun state index => do
    let worst ← inBounds state.1.cells[0]?
    let output ← writeWords state.2 (outputHeader + index * 2)
      [UInt32.ofNat worst.node, (ofLex worst).1.word]
    let top ← inBounds (hnswTopPop state.1)
    .ok (top, output)) (top, output)
  .ok output

/-- The header of a query chunk. -/
structure Header where
  nodeCount : ℕ
  dimensions : ℕ
  entryPoint : ℕ
  maxLevel : ℕ

/-- The end of the search : the header and the records, if there are enough results. -/
def writeResults (header : Header) (efSearch resultCount upperHops : ℕ) (outcome : State × Bool)
    (output : List Word) : Except KernelHalt (List Word) :=
  if outcome.1.top.size < resultCount then hnswWriteFailure .badSearch output
  else do
    let output ← forRange (outputHeader + resultCount * 2) outputElements output
      fun value output => writeWord output value 0
    let output ← writeWords output 0 (([outputMagic, 0, header.nodeCount, header.dimensions,
      header.entryPoint, header.maxLevel, efSearch, resultCount] ++
        counterWords upperHops outcome ++ [resultCount]).map UInt32.ofNat)
    let top ← whileLoop .outOfBounds (fun top =>
      if resultCount < top.size then do
        let top ← inBounds (hnswTopPop top)
        .ok (.inl top)
      else .ok (.inr top)) (outcome.1.top.size + 1) outcome.1.top
    writeRecords resultCount top output

/-- `hnsw_search_chunk`. The loop over the candidates is bounded here, and the bound never met. -/
def hnswSearchChunk (math : DistanceArithmetic) (arrays : Arrays)
    (queryPayload queryWords graph : List Word) (efSearch resultCount : ℕ) (output : List Word) :
    Except KernelHalt (List Word) := do
  let nodeCount ← readNat queryWords 2
  let dimensions ← readNat queryWords 3
  let entryPoint ← readNat queryWords 4
  let maxLevel ← readNat queryWords 5
  let distance := hnswDistance math queryPayload queryHeader (queryHeader + dimensions) dimensions
  ifRefused (descend graph distance nodeCount entryPoint maxLevel)
    (hnswWriteFailure .internalBound output) fun descent => do
      let state ← firstState arrays descent
      ifRefused (whileLoop .outOfBounds (searchRound graph distance efSearch) (nodeCount + 1) state)
        (hnswWriteFailure .internalBound output) fun outcome =>
          writeResults ⟨nodeCount, dimensions, entryPoint, maxLevel⟩ efSearch resultCount
            descent.upperHops outcome output

/-! ## The checks -/

/-- The checks of the links of a layer. -/
def validateLayer (graph : List Word) (nodeCount node nodeLevel layer : ℕ) :
    Except KernelHalt Unit := do
  let list := hnswGraphLayer node layer
  let neighborCount ← readNat graph list
  refuseIf (maxM < neighborCount ∨ (nodeLevel < layer ∧ neighborCount ≠ 0)) .refused
  (List.range neighborCount).forM fun slot => do
    let neighbor ← readNat graph (u32 (list + 1 + slot))
    refuseIf (nodeCount ≤ neighbor ∨ neighbor = node) .refused
    let level ← readNat graph (hnswGraphRecord neighbor)
    refuseIf (level < layer) .refused

/-- `hnsw_validate_graph`. -/
def hnswValidateGraph (graph : List Word) : Except KernelHalt Unit := do
  let nodeCount ← readNat graph 2
  let dimensions ← readNat graph 3
  let entryPoint ← readNat graph 4
  let maxLevel ← readNat graph 5
  let magic ← readNat graph 0
  let version ← readNat graph 1
  let levels ← readNat graph 6
  let m ← readNat graph 7
  refuseIf (magic ≠ graphMagic ∨ version ≠ formatVersion ∨ nodeCount = 0 ∨ maxNodes < nodeCount ∨
    dimensions = 0 ∨ maxDimensions < dimensions ∨ nodeCount ≤ entryPoint ∨ maxLevels ≤ maxLevel ∨
    levels ≠ maxLevels ∨ m = 0 ∨ maxM < m ∨
    chunkElements < u32 (graphHeader + nodeCount * nodeGraphElements)) .refused
  let entryLevel ← readNat graph (hnswGraphRecord entryPoint)
  refuseIf (entryLevel ≠ maxLevel) .refused
  (List.range nodeCount).forM fun node => do
    let nodeLevel ← readNat graph (hnswGraphRecord node)
    refuseIf (maxLevels ≤ nodeLevel ∨ maxLevel < nodeLevel) .refused
    (List.range maxLevels).forM (validateLayer graph nodeCount node nodeLevel)

/-- The checks of the header of a query. -/
def validateQuery (query graph : List Word) : Except KernelHalt (ℕ × ℕ) := do
  let magic ← readNat query 0
  let version ← readNat query 1
  let nodeCount ← readNat query 2
  let dimensions ← readNat query 3
  let entryPoint ← readNat query 4
  let maxLevel ← readNat query 5
  let efSearch ← readNat query 6
  let resultCount ← readNat query 7
  let graphHeader ← (List.range' 2 4).mapM (readNat graph)
  refuseIf (magic ≠ queryMagic ∨ version ≠ formatVersion ∨
    [nodeCount, dimensions, entryPoint, maxLevel] ≠ graphHeader ∨
    efSearch = 0 ∨ maxEf < efSearch ∨ nodeCount < efSearch ∨
    resultCount = 0 ∨ maxK < resultCount ∨ efSearch < resultCount ∨
    chunkElements < u32 (queryHeader + dimensions * (nodeCount + 1))) .refused
  .ok (efSearch, resultCount)

/-! ## The kernel -/

/-- A chunk of an invocation. -/
def chunkAt (chunks : List (List Word)) (chunk : ℕ) : Except KernelHalt (List Word) :=
  inBounds chunks[chunk]?

/-- Writes every chunk of the output. -/
def forChunks (chunkCount : ℕ) (output : List (List Word))
    (act : ℕ → List Word → Except KernelHalt (List Word)) :
    Except KernelHalt (List (List Word)) :=
  forRange 0 chunkCount output fun chunk output => do
    let before ← chunkAt output chunk
    let after ← act chunk before
    .ok (output.set chunk after)

/-- `controlled_act`. The arrays of each chunk's search are those of `arrays`. The search with the
bounds 16 and 5 is the same function with constant arguments. -/
def controlledAct (math : DistanceArithmetic) (arrays : ℕ → Arrays) (elementCount : ℕ)
    (query graph output : List (List Word)) : Except KernelHalt (List (List Word)) :=
  if elementCount = 0 ∨ chunkElements * maxChunksPerInvocation < elementCount ∨
      elementCount % chunkElements ≠ 0 then .ok output
  else do
    let chunkCount := elementCount / chunkElements
    let queryWords ← chunkAt query 0
    let graph ← chunkAt graph 0
    ifRefused (hnswValidateGraph graph)
      (forChunks chunkCount output fun _ => hnswWriteFailure .badGraph) fun _ =>
        ifRefused (validateQuery queryWords graph)
          (forChunks chunkCount output fun _ => hnswWriteFailure .badQuery)
          fun (efSearch, resultCount) => forChunks chunkCount output fun chunk output => do
            let queryPayload ← chunkAt query chunk
            if efSearch = 16 ∧ resultCount = 5 then
              hnswSearchChunk math (arrays chunk) queryPayload queryWords graph 16 5 output
            else
              hnswSearchChunk math (arrays chunk) queryPayload queryWords graph efSearch
                resultCount output

end HnswKernel

end Npunlock
