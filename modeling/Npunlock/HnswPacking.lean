import Npunlock.Effects
import Npunlock.HnswKernel
import Npunlock.Overwriting
import Npunlock.PaddedBuffer

/-!
# Packing for the graph search kernel

The host side of the kernel : the packing of an index and of queries into the chunks of the four
invocations, and the reading of the kernel's outputs. A logical tensor is the list of its chunks.

`NpuHnsw` keeps its buffers between searches. A search writes the queries into the buffer of the
search before it, and reads a buffer that held the results of that search.
-/

namespace Npunlock

namespace HnswPacking

open HnswKernel

/-! ## Capacities -/

/-- `REPLICAS`. -/
def replicas : ℕ := 4

/-- `MAX_BATCH_QUERIES`. -/
def maxBatchQueries : ℕ := replicas * maxChunksPerInvocation

/-- `index.vectors.shape`. -/
def vectorShape (index : HnswIndex) : ℕ × ℕ :=
  (index.vectors.shape.getD 0 0, index.vectors.shape.getD 1 0)

/-- `validate_capacity`. -/
def validateCapacity (index : HnswIndex) : Except String Unit := do
  let (nodeCount, dimensions) := vectorShape index
  refuseIf (maxNodes < nodeCount) s!"index has {nodeCount} nodes, maximum is {maxNodes}"
  refuseIf (maxDimensions < dimensions)
    s!"index dimension is {dimensions}, maximum is {maxDimensions}"
  refuseIf ((maxM : ℤ) < index.m) s!"index M is {index.m}, maximum is {maxM}"
  refuseIf ((maxLevels : ℤ) ≤ index.maxLevel)
    s!"index has level {index.maxLevel}, maximum is {maxLevels - 1}"
  refuseIf (chunkElements < queryHeader + dimensions * (nodeCount + 1))
    "query and vector payload do not fit one HNSW chunk"
  refuseIf (chunkElements < graphHeader + nodeCount * nodeGraphElements)
    "adjacency payload does not fit one HNSW chunk"

/-- `_validate_query_capacity`. -/
def validateQueryCapacity (queryCapacity : ℕ) : Except String Unit :=
  refuseIf (queryCapacity < replicas ∨ maxBatchQueries < queryCapacity ∨
      queryCapacity % replicas ≠ 0)
    s!"query_capacity must be a multiple of {replicas} in [{replicas}, {maxBatchQueries}]"

/-- Whether the chunk is the first one of an invocation, as `_invocation_starts` lists them. -/
def startsInvocation (queryCapacity chunk : ℕ) : Bool :=
  chunk ∈ (List.range replicas).map (· * (queryCapacity / replicas))

/-- `np.zeros` of a chunk. -/
def zeroChunk : List Word :=
  List.replicate chunkElements 0

/-! ## The graph -/

/-- The links of a layer, with their number and in their slots. -/
def layerRecord (index : HnswIndex) (node layer : ℕ) : Except String (List ℕ) := do
  let links ← if (layer : ℤ) ≤ index.levels.getD node 0 then index.neighborsOf node layer
    else .ok []
  .ok (links.length :: links ++ List.replicate (maxM - links.length) 0)

/-- The record of a node. -/
def nodeRecord (index : HnswIndex) (node : ℕ) : Except String (List ℕ) := do
  let layers ← (List.range maxLevels).mapM (layerRecord index node)
  .ok ((index.levels.getD node 0).toNat :: layers.flatten)

/-- `pack_graph`. -/
def packGraph (index : HnswIndex) (queryCapacity : ℕ) : Except String (List (List Word)) := do
  validateCapacity index
  validateQueryCapacity queryCapacity
  let (nodeCount, dimensions) := vectorShape index
  let records ← (List.range nodeCount).mapM (nodeRecord index)
  let chunk := paddedTo chunkElements (([graphMagic, formatVersion, nodeCount, dimensions,
    index.entryPoint.toNat, index.maxLevel.toNat, maxLevels, index.m.toNat] ++
      records.flatten).map UInt32.ofNat)
  .ok ((List.range queryCapacity).map fun row =>
    if startsInvocation queryCapacity row then chunk else zeroChunk)

/-! ## Queries -/

/-- An array of queries, as `np.asarray(queries, dtype=np.float32)` makes it. -/
structure QueryArray where
  shape : List ℕ
  values : List Word
  length_values : values.length = shape.prod

/-- `_normalize_queries`. A single query is a matrix of one row. -/
def normalizeQueries (index : HnswIndex) (queries : QueryArray) (maximum : ℕ) :
    Except String (List (List Word)) := do
  validateCapacity index
  let dimensions := (vectorShape index).2
  let shape := match queries.shape with
    | [columns] => [1, columns]
    | shape => shape
  match shape with
  | [count, columns] => do
    refuseIf (columns ≠ dimensions) s!"queries must have shape (count, {dimensions})"
    refuseIf (¬(1 ≤ count ∧ count ≤ maximum)) s!"query count must be in [1, {maximum}]"
    refuseIf (∃ value ∈ queries.values, Binary32.isFinite value = false)
      "queries must contain only finite values"
    .ok ((List.range count).map fun row => (queries.values.drop (row * columns)).take columns)
  | _ => .error s!"queries must have shape (count, {dimensions})"

/-- `_validate_search_parameters`. -/
def validateSearchParameters (index : HnswIndex) (k efSearch : ℤ) : Except String Unit := do
  let maximum := min maxEf (vectorShape index).1
  refuseIf (¬(1 ≤ efSearch ∧ efSearch ≤ maximum)) s!"ef_search must be in [1, {maximum}]"
  refuseIf (¬(1 ≤ k ∧ k ≤ min (maxK : ℤ) efSearch)) s!"k must be in [1, {min (maxK : ℤ) efSearch}]"

/-- The header of the first chunk of an invocation. -/
def queryHeaderWords (index : HnswIndex) (efSearch k : ℕ) : List Word :=
  [queryMagic, formatVersion, (vectorShape index).1, (vectorShape index).2,
    index.entryPoint.toNat, index.maxLevel.toNat, efSearch, k].map UInt32.ofNat

/-- `index.vectors.reshape(-1)`. -/
def vectorWords (index : HnswIndex) : List Word :=
  match index.vectors.items with
  | .float32 values => values
  | _ => []

/-- `_make_query_buffer`. -/
def makeQueryBuffer (index : HnswIndex) (queryCapacity : ℕ) : Except String (List (List Word)) := do
  validateCapacity index
  validateQueryCapacity queryCapacity
  let vectorsBegin := queryHeader + (vectorShape index).2
  .ok ((List.range queryCapacity).map fun row =>
    let chunk := if startsInvocation queryCapacity row
      then overwrite zeroChunk 0 (queryHeaderWords index 1 1) else zeroChunk
    overwrite chunk vectorsBegin (vectorWords index))

/-- The chunks with the header of a search and its queries. The chunks behind the last query
repeat the first one. -/
def writeQueries (index : HnswIndex) (queryCapacity efSearch k : ℕ) (queries : List (List Word))
    (target : List (List Word)) : List (List Word) :=
  target.mapIdx fun row chunk =>
    let chunk := if startsInvocation queryCapacity row
      then overwrite chunk 0 (queryHeaderWords index efSearch k) else chunk
    overwrite chunk queryHeader (queries.getD (if row < queries.length then row else 0) [])

/-- `_update_query_buffer`, of the chunks of a buffer. -/
def updateQueryBuffer (index : HnswIndex) (queries : QueryArray) (k efSearch : ℤ)
    (target : List (List Word)) : Except String (List (List Word) × List (List Word)) := do
  let queryCapacity := target.length
  validateQueryCapacity queryCapacity
  let matrix ← normalizeQueries index queries queryCapacity
  validateSearchParameters index k efSearch
  .ok (matrix, writeQueries index queryCapacity efSearch.toNat k.toNat matrix target)

/-! ## Results -/

/-- `PackedResult`. -/
structure PackedResult where
  ids : List ℤ
  distances : List Word
  stats : HnswIndex.SearchStats
  deriving DecidableEq

/-- The words of a header, as unsigned integers. -/
def headerOf (chunk : List Word) : List ℕ :=
  (chunk.take outputHeader).map UInt32.toNat

/-- The header that is expected of a search, without its counters. -/
def expectedHeader (index : HnswIndex) (efSearch k : ℕ) : List ℕ :=
  [outputMagic, 0, (vectorShape index).1, (vectorShape index).2, index.entryPoint.toNat,
    index.maxLevel.toNat, efSearch, k]

/-- `_COUNTER_LOWER_BOUNDS`. -/
def counterLowerBounds : List ℕ :=
  [1, 1, 0, 0, 0, 1, 1]

/-- The upper bounds of the counters. -/
def counterUpperBounds (index : HnswIndex) (efSearch : ℕ) : List ℕ :=
  let nodeCount := (vectorShape index).1
  [nodeCount, maxNodes * (maxLevels * maxM + 1), nodeCount * index.maxLevel.toNat, nodeCount, 1,
    maxNodes, efSearch]

/-- The values lie between the bounds. -/
def Between (lower upper values : List ℕ) : Prop :=
  List.Forall₂ (· ≤ ·) lower values ∧ List.Forall₂ (· ≤ ·) values upper

instance (lower upper values : List ℕ) : Decidable (Between lower upper values) :=
  inferInstanceAs (Decidable (_ ∧ _))

/-- The checks of the headers. They look for what is wrong if something is. -/
def checkHeaders (index : HnswIndex) (efSearch k : ℕ) (headers : List (List ℕ)) :
    Except String Unit :=
  let expected := expectedHeader index efSearch k
  let upper := counterUpperBounds index efSearch
  if ∀ header ∈ headers, Between (expected ++ counterLowerBounds ++ [k])
      (expected ++ upper ++ [k]) header then .ok ()
  else do
    refuseIf (∃ header ∈ headers, header.take 8 ≠ expected)
      "kernel output header does not match the requested index and search"
    refuseIf (∃ header ∈ headers, header[15]? ≠ some k)
      "kernel returned an unexpected result count"
    refuseIf (∃ header ∈ headers, header[12]? ≠ some 0 ∧ header[12]? ≠ some 1)
      "kernel returned an invalid termination flag"
    refuseIf (∃ header ∈ headers, ¬Between counterLowerBounds upper ((header.drop 8).take 7))
      "kernel returned an out-of-range traversal counter"
    .error "kernel returned invalid output metadata"

/-- `view(np.int32)`. -/
def toId (word : Word) : ℤ :=
  word.toInt32.toInt

/-- A chunk's node and distance of each result. -/
def recordsOf (k : ℕ) (chunk : List Word) : List (ℤ × Word) :=
  (List.range k).map fun row =>
    (toId (chunk.getD (outputHeader + 2 * row) 0), chunk.getD (outputHeader + 2 * row + 1) 0)

def isNode (index : HnswIndex) (id : ℤ) : Bool :=
  0 ≤ id ∧ id < (vectorShape index).1

def isDistance (distance : Word) : Bool :=
  Binary32.isFinite distance ∧ Binary32.lt distance 0 = false

/-- The next result stands in the wrong order. -/
def OutOfOrder (first next : ℤ × Word) : Prop :=
  Binary32.lt next.2 first.2 = true ∨ (Binary32.eq next.2 first.2 = true ∧ next.1 < first.1)

instance (first next : ℤ × Word) : Decidable (OutOfOrder first next) :=
  inferInstanceAs (Decidable (_ ∨ _))

/-- The checks of the results. -/
def checkRecords (index : HnswIndex) (rows : List (List (ℤ × Word))) : Except String Unit := do
  if ∃ row ∈ rows, ∃ record ∈ row, ¬isNode index record.1 ∨ ¬isDistance record.2 then do
    refuseIf (∃ row ∈ rows, ∃ record ∈ row, ¬isNode index record.1)
      "kernel returned an invalid node id"
    refuseIf (∃ row ∈ rows, ∃ record ∈ row, ¬isDistance record.2)
      "kernel returned an invalid distance"
    .error "kernel returned invalid result records"
  else .ok ()
  refuseIf (∃ row ∈ rows, ¬(row.map Prod.fst).Nodup) "kernel returned duplicate node ids"
  refuseIf (∃ row ∈ rows, ∃ pair ∈ row.zip row.tail, OutOfOrder pair.1 pair.2)
    "kernel results are not ordered by distance and node id"

/-- `_stats_from_counter_rows`, of a header. -/
def statsOf (header : List ℕ) : HnswIndex.SearchStats where
  visitedCount := header.getD 8 0
  distanceCount := header.getD 9 0
  upperHops := header.getD 10 0
  baseExpansions := header.getD 11 0
  terminatedByBound := header.getD 12 0 ≠ 0
  candidatePeak := header.getD 13 0
  topPeak := header.getD 14 0

/-- `unpack_results`. -/
def unpackResults (index : HnswIndex) (k efSearch queryCount : ℕ) (output : List (List Word)) :
    Except String (List PackedResult) := do
  refuseIf (∃ chunk ∈ output, chunk.length ≠ chunkElements)
    "kernel output element count is not a multiple of the HNSW chunk size"
  validateQueryCapacity output.length
  refuseIf (¬(1 ≤ queryCount ∧ queryCount ≤ output.length))
    s!"query_count must be in [1, {output.length}]"
  refuseIf (∃ chunk ∈ output.drop queryCount,
      chunk.take outputElements ≠ (output.getD 0 []).take outputElements)
    "unused replicated HNSW chunks produced different output bytes"
  let chunks := output.take queryCount
  checkHeaders index efSearch k (chunks.map headerOf)
  checkRecords index (chunks.map (recordsOf k))
  .ok (chunks.map fun chunk =>
    { ids := (recordsOf k chunk).map Prod.fst
      distances := (recordsOf k chunk).map Prod.snd
      stats := statsOf (headerOf chunk) })

/-! ## Searches -/

/-- The chunks of an invocation. -/
def invocationOf (chunks : List (List Word)) (invocation : ℕ) : List (List Word) :=
  let size := chunks.length / replicas
  (chunks.drop (invocation * size)).take size

/-- The four invocations of the kernel. -/
def runInvocations (math : DistanceArithmetic) (arrays : ℕ → ℕ → HnswKernel.Arrays)
    (query graph output : List (List Word)) : Except KernelHalt (List (List Word)) := do
  let outputs ← (List.range replicas).mapM fun invocation =>
    controlledAct math (arrays invocation) (chunkElements * (query.length / replicas))
      (invocationOf query invocation) (invocationOf graph invocation)
      (invocationOf output invocation)
  .ok outputs.flatten

/-- `NpuHnsw`, with its shared buffers. -/
structure NpuHnsw where
  index : HnswIndex
  queryBuffer : List (List Word)
  graphBuffer : List (List Word)
  outputBuffer : List (List Word)

/-- `NpuHnsw.__init__`, with the first contents of the output buffer. -/
def NpuHnsw.create (index : HnswIndex) (batchCapacity : ℕ) (outputBuffer : List (List Word)) :
    Except String NpuHnsw := do
  validateCapacity index
  refuseIf (batchCapacity < replicas ∨ maxBatchQueries < batchCapacity ∨
      batchCapacity % replicas ≠ 0)
    s!"batch_capacity must be a multiple of {replicas} in [{replicas}, {maxBatchQueries}]"
  let graphBuffer ← packGraph index batchCapacity
  let queryBuffer ← makeQueryBuffer index batchCapacity
  .ok { index, queryBuffer, graphBuffer, outputBuffer }

/-- `repr` of the counts. -/
def statsText (stats : HnswIndex.SearchStats) : String :=
  let terminated := if stats.terminatedByBound then "True" else "False"
  s!"SearchStats(visited_count={stats.visitedCount}, distance_count={stats.distanceCount}, " ++
    s!"upper_hops={stats.upperHops}, base_expansions={stats.baseExpansions}, " ++
    s!"terminated_by_bound={terminated}, candidate_peak={stats.candidatePeak}, " ++
    s!"top_peak={stats.topPeak})"

/-- The comparison of the results with `search_index`. -/
def verifyResults (math : DistanceArithmetic) (index : HnswIndex) (k efSearch : ℤ)
    (pairs : List (List Word × PackedResult)) : Except String Unit :=
  pairs.forM fun (query, result) => do
    let (entries, stats) ← index.searchIndex (searchDistance math) query k efSearch
    refuseIf (result.ids ≠ entries.map (fun entry => (entry.node : ℤ)) ∨
        result.distances ≠ entries.map fun entry => (ofLex entry).1.word)
      "NPU HNSW result does not match the independent host traversal"
    refuseIf (result.stats ≠ stats)
      s!"NPU HNSW traversal counters {statsText result.stats} do not match host {statsText stats}"

/-- The arguments of a search, and the contents of the kernel's arrays. -/
structure SearchCall where
  queries : QueryArray
  k : ℤ
  efSearch : ℤ
  verify : Bool
  arrays : ℕ → ℕ → HnswKernel.Arrays

/-- A failure of the kernel, which has no counterpart in the source. -/
def runProgram (math : DistanceArithmetic) (call : SearchCall) (npu : NpuHnsw) :
    Except String (List (List Word)) :=
  match runInvocations math call.arrays npu.queryBuffer npu.graphBuffer npu.outputBuffer with
  | .ok output => .ok output
  | .error _ => .error "the kernel left its buffers"

/-- `NpuHnsw.search_many`. -/
def NpuHnsw.searchMany (math : DistanceArithmetic) (call : SearchCall) :
    Effect String NpuHnsw (List PackedResult) := do
  let npu ← Effect.get
  let (matrix, queryBuffer) ← Effect.ofExcept
    (updateQueryBuffer npu.index call.queries call.k call.efSearch npu.queryBuffer)
  Effect.modify fun npu => { npu with queryBuffer }
  let npu ← Effect.get
  let outputBuffer ← Effect.ofExcept (runProgram math call npu)
  Effect.modify fun npu => { npu with outputBuffer }
  let results ← Effect.ofExcept
    (unpackResults npu.index call.k.toNat call.efSearch.toNat matrix.length outputBuffer)
  if call.verify then do
    Effect.ofExcept (verifyResults math npu.index call.k call.efSearch (matrix.zip results))
    pure results
  else pure results

/-- The answers of one search after another. -/
def NpuHnsw.run (math : DistanceArithmetic) :
    List SearchCall → NpuHnsw → List (Except String (List PackedResult))
  | [], _ => []
  | call :: calls, npu =>
    let (answer, npu) := NpuHnsw.searchMany math call npu
    answer :: NpuHnsw.run math calls npu

end HnswPacking

end Npunlock
