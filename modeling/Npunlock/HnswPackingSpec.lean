import Npunlock.HnswKernelSpec
import Npunlock.HnswPacking

/-!
# Searches on the device are searches on the host

The chunks that an `NpuHnsw` sends hold its index and the queries of the search at hand, whatever
was searched before. The kernel accepts them, and what the host reads back are the results of
`search_index`. So one search after another answers as the host does (`npu_searches_as_host`).
-/

namespace Npunlock

open HnswKernel

namespace HnswPacking

/-! ## Capacities -/

/-- An index that fits the kernel. -/
structure Fits (index : HnswIndex) (rows columns : ℕ) : Prop where
  valid : index.toHnswFields.Valid rows
  shape : vectorShape index = (rows, columns)
  length_vectorWords : (vectorWords index).length = rows * columns
  matrixRow_eq : ∀ v, HnswIndex.matrixRow index.vectors v =
    ((vectorWords index).drop (v * columns)).take columns
  rows_pos : 0 < rows
  columns_pos : 0 < columns
  rows_le : rows ≤ maxNodes
  columns_le : columns ≤ maxDimensions
  m_le : index.m ≤ maxM
  maxLevel_lt : index.maxLevel < maxLevels
  payload_le : queryHeader + columns * (rows + 1) ≤ chunkElements

theorem exists_fits {index : HnswIndex} (h : validateCapacity index = .ok ()) :
    ∃ rows columns, Fits index rows columns := by
  obtain ⟨rows, hvalid⟩ := index.exists_valid
  obtain ⟨values, columns, hitems, hshape, hcolumns, hfinite⟩ := hvalid.vectors
  have hvectorShape : vectorShape index = (rows, columns) := by
    rw [vectorShape, hshape]
    rfl
  have hlength := index.vectors.length_items
  rw [hitems, hshape] at hlength
  unfold validateCapacity at h
  rw [hvectorShape] at h
  simp only [refuseIf_bind_eq_ok_iff, refuseIf_eq_ok_iff, not_lt, not_le] at h
  obtain ⟨hrows, hdimensions, hm, hmaxLevel, hpayload, -⟩ := h
  refine ⟨rows, columns, hvalid, hvectorShape, ?_, ?_, Nat.pos_of_ne_zero hvalid.rows_ne_zero,
    Nat.pos_of_ne_zero hcolumns, hrows, hdimensions, hm, hmaxLevel, hpayload⟩
  · rw [vectorWords, hitems]
    simpa [NpyItems.length] using hlength
  · intro v
    rw [HnswIndex.matrixRow, vectorWords, hitems, hshape]

section Graph

variable {index : HnswIndex} {rows columns node layer : ℕ}

/-! ## The graph chunk -/

theorem readNat_of_getElem? {buffer : List Word} {i n : ℕ}
    (h : buffer[i]? = some (UInt32.ofNat n)) (hn : n < 2 ^ 32) : readNat buffer i = .ok n := by
  rw [readNat, readWord_of_getElem? h, ok_bind, UInt32.toNat_ofNat_of_lt' hn]

/-- The record of a layer. -/
def layerWords (index : HnswIndex) (node layer : ℕ) : List ℕ :=
  (index.layerLinks layer node).length :: index.layerLinks layer node ++
    List.replicate (maxM - (index.layerLinks layer node).length) 0

/-- The record of a node. -/
def nodeWords (index : HnswIndex) (node : ℕ) : List ℕ :=
  (index.levels.getD node 0).toNat :: ((List.range maxLevels).map (layerWords index node)).flatten

/-- The header of the graph. -/
def graphHeaderNats (index : HnswIndex) (rows columns : ℕ) : List ℕ :=
  [graphMagic, formatVersion, rows, columns, index.entryPoint.toNat, index.maxLevel.toNat,
    maxLevels, index.m.toNat]

/-- The chunk of the graph. -/
def graphChunk (index : HnswIndex) (rows columns : ℕ) : List Word :=
  paddedTo chunkElements ((graphHeaderNats index rows columns).map UInt32.ofNat ++
    ((List.range rows).map fun node => (nodeWords index node).map UInt32.ofNat).flatten)

/-- The links of a layer of a node, whether it has the layer or not. -/
theorem layerLinks_facts (hvalid : index.toHnswFields.Valid rows) (hnode : node < rows)
    (layer : ℕ) :
    ((index.layerLinks layer node).length : ℤ) ≤ index.m ∧
      (∀ neighbor ∈ index.layerLinks layer node, neighbor < rows ∧ neighbor ≠ node ∧
        (layer : ℤ) ≤ index.levels.getD neighbor 0) ∧
      (index.levels.getD node 0 < layer → index.layerLinks layer node = []) := by
  have hlevels : node < index.levels.length := by rwa [hvalid.length_levels]
  have hneighbors : node < index.neighbors.length := by rwa [hvalid.length_neighbors]
  have hvalidNode := hvalid.node node _ _ (List.getElem?_eq_getElem hlevels)
    (List.getElem?_eq_getElem hneighbors)
  have hlength := hvalidNode.length_eq
  have hlevelNonneg := hvalidNode.level_nonneg
  rw [List.getD_eq_getElem _ _ hlevels]
  by_cases hlayer : (layer : ℤ) ≤ index.levels[node]
  · have hhas : index.HasLayer layer node :=
      ⟨_, List.getElem?_eq_getElem hlevels, hlayer⟩
    have hlayers : layer < index.neighbors[node].length := by omega
    have hlinks := hvalidNode.layer layer _ (List.getElem?_eq_getElem hlayers)
    refine ⟨?_, fun neighbor hneighbor => ?_, fun hlt => absurd hlayer (not_le.2 hlt)⟩
    · rw [HnswIndex.layerLinks, List.getD_eq_getElem _ _ hneighbors,
        List.getD_eq_getElem _ _ hlayers, List.length_map]
      exact hlinks.length_le
    · obtain ⟨hne, hat⟩ := (HnswIndex.neighborsOf_eq hhas).2 neighbor hneighbor
      have hlt := hat.lt hvalid
      obtain ⟨level, hlevel, hle⟩ := hat
      refine ⟨hlt, hne, ?_⟩
      rw [List.getD_eq_getElem?_getD, hlevel]
      exact hle
  · have hnil : index.layerLinks layer node = [] := by
      rw [HnswIndex.layerLinks, List.getD_eq_getElem _ _ hneighbors,
        List.getD_eq_default _ _ (by omega)]
      rfl
    rw [hnil]
    refine ⟨?_, fun neighbor h => absurd h List.not_mem_nil, fun _ => rfl⟩
    rw [List.length_nil]
    exact hvalid.m_pos.le

variable (hfits : Fits index rows columns)

include hfits

theorem length_layerLinks_le (hnode : node < rows) (layer : ℕ) :
    (index.layerLinks layer node).length ≤ maxM := by
  have hle := (layerLinks_facts hfits.valid hnode layer).1
  have hm := hfits.m_le
  omega

theorem length_layerWords (hnode : node < rows) (layer : ℕ) :
    (layerWords index node layer).length = 1 + maxM := by
  have hle := length_layerLinks_le hfits hnode layer
  simp only [layerWords, List.length_cons, List.length_append, List.length_replicate]
  omega

theorem length_layerRecords (hnode : node < rows) :
    ∀ row ∈ (List.range maxLevels).map (layerWords index node), row.length = 1 + maxM := by
  intro row hrow
  obtain ⟨layer, -, rfl⟩ := List.mem_map.1 hrow
  exact length_layerWords hfits hnode layer

theorem length_nodeWords (hnode : node < rows) :
    (nodeWords index node).length = nodeGraphElements := by
  have hrows := length_layerRecords hfits hnode
  rw [nodeWords, List.length_cons, List.length_flatten,
    List.map_congr_left (g := fun _ => 1 + maxM) hrows, List.map_const', List.sum_replicate_nat,
    List.length_map, List.length_range, Nat.add_comm]
  rfl

/-- A word of a layer stands in the record of its node. -/
theorem getElem?_nodeWords (hnode : node < rows) (hlayer : layer < maxLevels) {slot : ℕ}
    (hslot : slot < 1 + maxM) :
    (nodeWords index node)[1 + layer * (1 + maxM) + slot]? =
      (layerWords index node layer)[slot]? := by
  have hentry := getElem?_flatten_rows [] (length_layerRecords hfits hnode) (i := layer)
    (by simpa using hlayer) hslot
  rw [List.append_nil] at hentry
  rw [nodeWords, show 1 + layer * (1 + maxM) + slot = layer * (1 + maxM) + slot + 1 by omega,
    List.getElem?_cons_succ, hentry]
  simp

/-- A word of a record stands in the chunk. -/
theorem getElem?_graphChunk (hnode : node < rows) {j : ℕ} (hj : j < nodeGraphElements) :
    (graphChunk index rows columns)[graphHeader + node * nodeGraphElements + j]? =
      (nodeWords index node)[j]?.map UInt32.ofNat := by
  have hrows : ∀ row ∈ (List.range rows).map fun node => (nodeWords index node).map UInt32.ofNat,
      row.length = nodeGraphElements := by
    intro row hrow
    obtain ⟨node, hnode, rfl⟩ := List.mem_map.1 hrow
    rw [List.length_map, length_nodeWords hfits (List.mem_range.1 hnode)]
  have hentry := @holdsRows_paddedTo _ _ ((graphHeaderNats index rows columns).map UInt32.ofNat)
    hrows chunkElements node (by simpa using hnode) j hj
  have hheader : ((graphHeaderNats index rows columns).map UInt32.ofNat).length = graphHeader := rfl
  rw [hheader] at hentry
  rw [graphChunk, hentry]
  simp

theorem graphHeader_lt : ∀ n ∈ graphHeaderNats index rows columns, n < 2 ^ 32 := by
  have hentry := hfits.valid.entryPoint
  have hrows := hfits.rows_le
  have hcolumns := hfits.columns_le
  have hmaxLevel := hfits.maxLevel_lt
  have hm := hfits.m_le
  simp only [graphHeaderNats, List.forall_mem_cons, graphMagic, formatVersion, maxLevels, maxNodes,
    maxDimensions, maxM, List.not_mem_nil, false_imp_iff, implies_true, and_true] at *
  omega

/-- A word of the header. -/
theorem readNat_graphHeader {i n : ℕ} (h : (graphHeaderNats index rows columns)[i]? = some n) :
    readNat (graphChunk index rows columns) i = .ok n := by
  have hi := (List.getElem?_eq_some_iff.1 h).1
  refine readNat_of_getElem? ?_ (graphHeader_lt hfits n (List.mem_of_getElem? h))
  rw [graphChunk, getElem?_paddedTo (by rw [List.length_append, List.length_map]; omega),
    List.getElem?_append_left (by rwa [List.length_map]), List.getElem?_map, h]
  rfl

theorem hnswGraphRecord_eq (hnode : node < rows) :
    hnswGraphRecord node = graphHeader + node * nodeGraphElements := by
  have hrows := hfits.rows_le
  refine u32_of_lt ?_
  simp only [graphHeader, nodeGraphElements, maxLevels, maxM, maxNodes] at *
  omega

theorem hnswGraphLayer_eq (hnode : node < rows) (hlayer : layer < maxLevels) :
    hnswGraphLayer node layer =
      graphHeader + node * nodeGraphElements + (1 + layer * (1 + maxM)) := by
  have hrows := hfits.rows_le
  rw [hnswGraphLayer, hnswGraphRecord_eq hfits hnode, u32_of_lt, Nat.add_assoc]
  simp only [graphHeader, nodeGraphElements, maxLevels, maxM, maxNodes] at *
  omega

/-- The level of a node. -/
theorem readNat_level (hnode : node < rows) :
    readNat (graphChunk index rows columns) (hnswGraphRecord node) =
      .ok (index.levels.getD node 0).toNat := by
  have hlevels : node < index.levels.length := by rwa [hfits.valid.length_levels]
  have hle := hfits.valid.level_le (List.getElem_mem hlevels)
  have hmaxLevel := hfits.maxLevel_lt
  have hfirst := getElem?_graphChunk hfits hnode (j := 0) (by decide)
  rw [Nat.add_zero] at hfirst
  rw [hnswGraphRecord_eq hfits hnode]
  refine readNat_of_getElem? hfirst ?_
  rw [List.getD_eq_getElem _ _ hlevels]
  simp only [maxLevels] at hmaxLevel
  omega

/-- The chunk holds the links of the index. -/
theorem holdsLinks_graphChunk : HoldsLinks (graphChunk index rows columns) index := by
  intro node hnode layer hlayer
  rw [hfits.valid.length_levels] at hnode
  have hlength := length_layerLinks_le hfits hnode layer
  have hrows := hfits.rows_le
  have hword (slot : ℕ) (hslot : slot < 1 + maxM) :
      (graphChunk index rows columns)[hnswGraphLayer node layer + slot]? =
        (layerWords index node layer)[slot]?.map UInt32.ofNat := by
    rw [hnswGraphLayer_eq hfits hnode hlayer, Nat.add_assoc, getElem?_graphChunk hfits hnode ?_,
      getElem?_nodeWords hfits hnode hlayer hslot]
    simp only [nodeGraphElements, maxLevels, maxM] at *
    omega
  refine ⟨?_, fun slot hslot => ?_⟩
  · have hfirst := hword 0 (by decide)
    refine readNat_of_getElem? hfirst ?_
    simp only [maxM] at hlength
    omega
  · have hentry := hword (slot + 1) (by omega)
    have hlist : u32 (hnswGraphLayer node layer + 1 + slot) =
        hnswGraphLayer node layer + (slot + 1) := by
      rw [u32_of_lt, Nat.add_assoc, Nat.add_comm 1]
      rw [hnswGraphLayer_eq hfits hnode hlayer]
      simp only [graphHeader, nodeGraphElements, maxLevels, maxM, maxNodes] at *
      omega
    have hneighbor := ((layerLinks_facts hfits.valid hnode layer).2.1 _
      (List.getElem_mem hslot)).1
    rw [hlist]
    refine readNat_of_getElem? ?_ ?_
    · rw [hentry, layerWords, List.cons_append, List.getElem?_cons_succ,
        List.getElem?_append_left hslot, List.getElem?_eq_getElem hslot]
      rfl
    · simp only [maxNodes] at hrows
      omega

/-- `pack_graph` makes the record of a node. -/
theorem nodeRecord_eq (hnode : node < rows) :
    nodeRecord index node = .ok (nodeWords index node) := by
  have hlayers : (List.range maxLevels).mapM (layerRecord index node) =
      .ok ((List.range maxLevels).map (layerWords index node)) := by
    refine mapM_eq_ok_iff.2 (List.forall₂_map_right_iff.2 (List.forall₂_same.2 fun layer _ => ?_))
    have hlevels : node < index.levels.length := by rwa [hfits.valid.length_levels]
    unfold layerRecord
    split_ifs with hlayer
    · have hhas : index.HasLayer layer node := ⟨_, List.getElem?_eq_getElem hlevels, by
        rwa [List.getD_eq_getElem _ _ hlevels] at hlayer⟩
      rw [(HnswIndex.neighborsOf_eq hhas).1, ok_bind]
      rfl
    · rw [ok_bind, layerWords, (layerLinks_facts hfits.valid hnode layer).2.2 (not_le.1 hlayer)]
  rw [nodeRecord, hlayers, ok_bind]
  rfl

theorem packGraph_eq {capacity : ℕ} (hcapacity : validateCapacity index = .ok ())
    (hquery : validateQueryCapacity capacity = .ok ()) :
    packGraph index capacity = .ok ((List.range capacity).map fun row =>
      if startsInvocation capacity row then graphChunk index rows columns else zeroChunk) := by
  have hrecords : (List.range rows).mapM (nodeRecord index) =
      .ok ((List.range rows).map (nodeWords index)) := by
    refine mapM_eq_ok_iff.2
      (List.forall₂_map_right_iff.2 (List.forall₂_same.2 fun node hnode => ?_))
    exact nodeRecord_eq hfits (List.mem_range.1 hnode)
  rw [packGraph, hcapacity, ok_bind, hquery, ok_bind, hfits.shape]
  dsimp only
  rw [hrecords, ok_bind, List.map_append, List.map_flatten, List.map_map]
  rfl

/-! ## The checks of the kernel -/

theorem validateLayer_eq (hnode : node < rows) (hlayer : layer < maxLevels) :
    validateLayer (graphChunk index rows columns) rows node (index.levels.getD node 0).toNat layer =
      .ok () := by
  obtain ⟨hcount, hslots⟩ := holdsLinks_graphChunk hfits node
    (by rwa [hfits.valid.length_levels]) layer hlayer
  obtain ⟨-, hneighbors, habove⟩ := layerLinks_facts hfits.valid hnode layer
  have hlength := length_layerLinks_le hfits hnode layer
  unfold validateLayer
  dsimp only
  rw [hcount, ok_bind, refuseIf_of_not, ok_bind]
  · refine forM_eq_ok_iff.2 fun slot hslot => ?_
    have hslot := List.mem_range.1 hslot
    obtain ⟨hlt, hne, hlevel⟩ := hneighbors _ (List.getElem_mem hslot)
    rw [hslots slot hslot, ok_bind, refuseIf_of_not _ (by omega), ok_bind,
      readNat_level hfits hlt, ok_bind, refuseIf_of_not _ (by omega)]
  · rintro (hlt | ⟨hlt, hne⟩)
    · omega
    · rw [habove (by omega)] at hne
      exact hne rfl

/-- The kernel accepts the graph. -/
theorem hnswValidateGraph_eq :
    hnswValidateGraph (graphChunk index rows columns) = .ok () := by
  have hvalid := hfits.valid
  have hentry := hvalid.entryPoint
  have hentryRows : index.entryPoint.toNat < rows := by omega
  have hlevels : index.entryPoint.toNat < index.levels.length := by rwa [hvalid.length_levels]
  have hentryLevel : index.levels.getD index.entryPoint.toNat 0 = index.maxLevel := by
    rw [List.getD_eq_getElem?_getD, hvalid.entryLevel]
    rfl
  have hheader {i n : ℕ} (h : (graphHeaderNats index rows columns)[i]? = some n) :=
    readNat_graphHeader hfits h
  have hmPos := hvalid.m_pos
  have hm := hfits.m_le
  have hmaxLevel := hfits.maxLevel_lt
  have hmaxLevelNonneg := index.maxLevel_nonneg
  have hrows := hfits.rows_le
  have hrowsPos := hfits.rows_pos
  have hcolumns := hfits.columns_le
  have hcolumnsPos := hfits.columns_pos
  unfold hnswValidateGraph
  rw [hheader (i := 2) rfl, ok_bind, hheader (i := 3) rfl, ok_bind, hheader (i := 4) rfl, ok_bind,
    hheader (i := 5) rfl, ok_bind, hheader (i := 0) rfl, ok_bind, hheader (i := 1) rfl, ok_bind,
    hheader (i := 6) rfl, ok_bind, hheader (i := 7) rfl, ok_bind, refuseIf_of_not, ok_bind,
    readNat_level hfits hentryRows, ok_bind, hentryLevel, refuseIf_of_not _ (not_not.2 rfl),
    ok_bind]
  · refine forM_eq_ok_iff.2 fun node hnode => ?_
    have hnode := List.mem_range.1 hnode
    have hlevels : node < index.levels.length := by rwa [hvalid.length_levels]
    have hle := hvalid.level_le (List.getElem_mem hlevels)
    have hlevel : index.levels.getD node 0 ≤ index.maxLevel := by
      rwa [List.getD_eq_getElem _ _ hlevels]
    rw [readNat_level hfits hnode, ok_bind, refuseIf_of_not _ (by omega), ok_bind]
    exact forM_eq_ok_iff.2 fun layer hlayer =>
      validateLayer_eq hfits hnode (List.mem_range.1 hlayer)
  · have hsize : u32 (graphHeader + rows * nodeGraphElements) ≤ chunkElements := by
      rw [u32_of_lt]
      all_goals
        simp only [graphHeader, nodeGraphElements, maxLevels, maxM, maxNodes, chunkElements] at *
        omega
    simp only [not_or]
    omega

end Graph

/-! ## The query chunks -/

section Query

variable {index : HnswIndex} {rows columns capacity : ℕ} {chunk query : List Word}

/-- The chunk has its size and holds the vectors of the index. -/
def HoldsVectors (index : HnswIndex) (columns : ℕ) (chunk : List Word) : Prop :=
  chunk.length = chunkElements ∧ vectorWords index <+: chunk.drop (queryHeader + columns)

theorem length_queryHeaderWords (index : HnswIndex) (efSearch k : ℕ) :
    (queryHeaderWords index efSearch k).length = queryHeader :=
  rfl

theorem HoldsVectors.writeHeader (h : HoldsVectors index columns chunk) (efSearch k : ℕ) :
    HoldsVectors index columns (overwrite chunk 0 (queryHeaderWords index efSearch k)) := by
  have hinside : 0 + (queryHeaderWords index efSearch k).length ≤ chunk.length := by
    rw [h.1, length_queryHeaderWords]
    decide
  refine ⟨(length_overwrite hinside).trans h.1, ?_⟩
  rw [drop_overwrite_of_le hinside (by rw [length_queryHeaderWords]; omega)]
  exact h.2

theorem HoldsVectors.writeQuery (h : HoldsVectors index columns chunk)
    (hquery : query.length = columns) (hpayload : queryHeader + columns ≤ chunkElements) :
    HoldsVectors index columns (overwrite chunk queryHeader query) ∧
      query <+: (overwrite chunk queryHeader query).drop queryHeader := by
  have hinside : queryHeader + query.length ≤ chunk.length := by
    rw [h.1, hquery]
    exact hpayload
  refine ⟨⟨(length_overwrite hinside).trans h.1, ?_⟩, ?_⟩
  · rw [drop_overwrite_of_le hinside (by rw [hquery])]
    exact h.2
  · rw [drop_overwrite hinside]
    exact List.prefix_append ..

/-- The chunks of a buffer that hold the vectors. -/
def HoldsBuffer (index : HnswIndex) (columns capacity : ℕ) (chunks : List (List Word)) : Prop :=
  chunks.length = capacity ∧ ∀ chunk ∈ chunks, HoldsVectors index columns chunk

theorem makeQueryBuffer_eq (hfits : Fits index rows columns)
    (hcapacity : validateCapacity index = .ok ())
    (hquery : validateQueryCapacity capacity = .ok ()) :
    ∃ chunks, makeQueryBuffer index capacity = .ok chunks ∧
      HoldsBuffer index columns capacity chunks := by
  have hpayload := hfits.payload_le
  rw [Nat.mul_succ] at hpayload
  refine ⟨_, by rw [makeQueryBuffer, hcapacity, ok_bind, hquery, ok_bind],
    by rw [List.length_map, List.length_range], fun chunk hchunk => ?_⟩
  obtain ⟨row, -, rfl⟩ := List.mem_map.1 hchunk
  have hzero : zeroChunk.length = chunkElements := List.length_replicate
  have hbase : (if startsInvocation capacity row
      then overwrite zeroChunk 0 (queryHeaderWords index 1 1) else zeroChunk).length =
        chunkElements := by
    split_ifs
    · rw [length_overwrite (by rw [hzero, length_queryHeaderWords]; decide), hzero]
    · exact hzero
  rw [hfits.shape]
  dsimp only
  have hinside : queryHeader + columns + (vectorWords index).length ≤
      (if startsInvocation capacity row
        then overwrite zeroChunk 0 (queryHeaderWords index 1 1) else zeroChunk).length := by
    rw [hbase, hfits.length_vectorWords, Nat.mul_comm]
    omega
  refine ⟨(length_overwrite hinside).trans hbase, ?_⟩
  rw [drop_overwrite hinside]
  exact List.prefix_append ..

/-- The query of a chunk. -/
def queryOf (queries : List (List Word)) (row : ℕ) : List Word :=
  queries.getD (if row < queries.length then row else 0) []

theorem queryOf_mem {queries : List (List Word)} (h : queries ≠ []) (row : ℕ) :
    queryOf queries row ∈ queries := by
  have hpos := List.length_pos_iff.2 h
  have hlt : (if row < queries.length then row else 0) < queries.length := by
    split_ifs with hrow
    · exact hrow
    · exact hpos
  rw [queryOf, List.getD_eq_getElem _ _ hlt]
  exact List.getElem_mem hlt

/-- The chunk holds a query, the vectors and, at the start of an invocation, the header. -/
structure HoldsQuery (index : HnswIndex) (columns capacity efSearch k row : ℕ)
    (query chunk : List Word) : Prop where
  vectors : HoldsVectors index columns chunk
  queryAt : query <+: chunk.drop queryHeader
  header : startsInvocation capacity row = true →
    chunk.take queryHeader = queryHeaderWords index efSearch k

theorem writeQueries_holds {queries target : List (List Word)} {efSearch k row : ℕ}
    (htarget : HoldsBuffer index columns capacity target)
    (hpayload : queryHeader + columns ≤ chunkElements) (hqueries : queries ≠ [])
    (hwidth : ∀ query ∈ queries, query.length = columns)
    (hchunk : (writeQueries index capacity efSearch k queries target)[row]? = some chunk) :
    HoldsQuery index columns capacity efSearch k row (queryOf queries row) chunk := by
  rw [writeQueries, List.getElem?_mapIdx, Option.map_eq_some_iff] at hchunk
  obtain ⟨before, hbefore, rfl⟩ := hchunk
  have hvectors := htarget.2 before (List.mem_of_getElem? hbefore)
  have hlength := hwidth _ (queryOf_mem hqueries row)
  have hheaded : HoldsVectors index columns (if startsInvocation capacity row
      then overwrite before 0 (queryHeaderWords index efSearch k) else before) := by
    split_ifs
    · exact hvectors.writeHeader efSearch k
    · exact hvectors
  obtain ⟨hholds, hquery⟩ := hheaded.writeQuery hlength hpayload
  refine ⟨hholds, hquery, fun hstarts => ?_⟩
  have hinside : queryHeader ≤ (overwrite before 0 (queryHeaderWords index efSearch k)).length := by
    rw [(hvectors.writeHeader efSearch k).1]
    decide
  dsimp only
  rw [if_pos hstarts, take_overwrite_of_le hinside le_rfl, overwrite, List.take_zero,
    List.nil_append]
  exact List.take_left' (length_queryHeaderWords index efSearch k)

theorem writeQueries_holdsBuffer {queries target : List (List Word)} {efSearch k : ℕ}
    (htarget : HoldsBuffer index columns capacity target)
    (hpayload : queryHeader + columns ≤ chunkElements) (hqueries : queries ≠ [])
    (hwidth : ∀ query ∈ queries, query.length = columns) :
    HoldsBuffer index columns capacity (writeQueries index capacity efSearch k queries target) := by
  refine ⟨by rw [writeQueries, List.length_mapIdx, htarget.1], fun chunk hchunk => ?_⟩
  obtain ⟨row, hrow⟩ := List.mem_iff_getElem?.1 hchunk
  exact (writeQueries_holds htarget hpayload hqueries hwidth hrow).vectors

end Query

/-! ## An invocation -/

section Invocation

variable {index : HnswIndex} {rows columns capacity : ℕ} {k efSearch : ℤ}

/-- The parameters of a search that is accepted. -/
structure Accepts (rows : ℕ) (k efSearch : ℤ) : Prop where
  efSearch_pos : 1 ≤ efSearch
  efSearch_le_maxEf : efSearch ≤ maxEf
  efSearch_le_rows : efSearch ≤ rows
  k_pos : 1 ≤ k
  k_le_maxK : k ≤ maxK
  k_le_efSearch : k ≤ efSearch

theorem validateSearchParameters_eq_ok_iff (hfits : Fits index rows columns) :
    validateSearchParameters index k efSearch = .ok () ↔ Accepts rows k efSearch := by
  unfold validateSearchParameters
  rw [hfits.shape]
  simp only [refuseIf_bind_eq_ok_iff, refuseIf_eq_ok_iff, not_not, Nat.cast_min, le_min_iff]
  constructor
  · rintro ⟨⟨hpos, hmaximum, hrows⟩, hk, hmaxK, hle⟩
    exact ⟨hpos, hmaximum, hrows, hk, hmaxK, hle⟩
  · rintro ⟨hpos, hmaximum, hrows, hk, hmaxK, hle⟩
    exact ⟨⟨hpos, hmaximum, hrows⟩, hk, hmaxK, hle⟩

/-- The header of the queries. -/
def queryHeaderNats (index : HnswIndex) (rows columns efSearch k : ℕ) : List ℕ :=
  [queryMagic, formatVersion, rows, columns, index.entryPoint.toNat, index.maxLevel.toNat,
    efSearch, k]

section Header

variable (hfits : Fits index rows columns) (haccepts : Accepts rows k efSearch)
  {chunk : List Word}
  (hchunk : chunk.take queryHeader = queryHeaderWords index efSearch.toNat k.toNat)

include hfits haccepts hchunk

theorem readNat_queryHeader {i n : ℕ}
    (h : (queryHeaderNats index rows columns efSearch.toNat k.toNat)[i]? = some n) :
    readNat chunk i = .ok n := by
  have hi := (List.getElem?_eq_some_iff.1 h).1
  have hbound : ∀ n ∈ queryHeaderNats index rows columns efSearch.toNat k.toNat, n < 2 ^ 32 := by
    have hentry := hfits.valid.entryPoint
    have hrows := hfits.rows_le
    have hcolumns := hfits.columns_le
    have hmaxLevel := hfits.maxLevel_lt
    have hmaxEf := haccepts.efSearch_le_maxEf
    have hmaxK := haccepts.k_le_maxK
    simp only [queryHeaderNats, List.forall_mem_cons, queryMagic, formatVersion, maxLevels,
      maxNodes, maxDimensions, maxEf, maxK, List.not_mem_nil, false_imp_iff, implies_true,
      and_true] at *
    omega
  refine readNat_of_getElem? ?_ (hbound n (List.mem_of_getElem? h))
  rw [← List.getElem?_take_of_lt (show i < queryHeader from hi), hchunk, queryHeaderWords,
    hfits.shape, List.getElem?_map]
  exact congrArg (Option.map UInt32.ofNat) h

/-- The kernel accepts the header. -/
theorem validateQuery_eq : validateQuery chunk (graphChunk index rows columns) =
    .ok (efSearch.toNat, k.toNat) := by
  have hheader {i n : ℕ} (h : (queryHeaderNats index rows columns efSearch.toNat k.toNat)[i]? =
      some n) := readNat_queryHeader hfits haccepts hchunk h
  have hgraph : (List.range' 2 4).mapM (readNat (graphChunk index rows columns)) =
      .ok [rows, columns, index.entryPoint.toNat, index.maxLevel.toNat] := by
    refine mapM_eq_ok_iff.2 (.cons ?_ (.cons ?_ (.cons ?_ (.cons ?_ .nil))))
    all_goals exact readNat_graphHeader hfits rfl
  have hsize : u32 (queryHeader + columns * (rows + 1)) ≤ chunkElements := by
    have hpayload := hfits.payload_le
    rwa [u32_of_lt (hpayload.trans_lt (by decide))]
  obtain ⟨hpos, hmaximum, hrows, hk, hmaxK, hle⟩ := haccepts
  unfold validateQuery
  rw [hheader (i := 0) rfl, ok_bind, hheader (i := 1) rfl, ok_bind, hheader (i := 2) rfl, ok_bind,
    hheader (i := 3) rfl, ok_bind, hheader (i := 4) rfl, ok_bind, hheader (i := 5) rfl, ok_bind,
    hheader (i := 6) rfl, ok_bind, hheader (i := 7) rfl, ok_bind, hgraph, ok_bind,
    refuseIf_of_not, ok_bind]
  simp only [not_or, ne_eq, not_true_eq_false, not_false_eq_true, true_and]
  omega

end Header

/-- A loop over the chunks of an output writes each of them. -/
theorem forChunks_eq {output : List (List Word)}
    {act : ℕ → List Word → Except KernelHalt (List Word)} {after : ℕ → List Word}
    (h : ∀ chunk before, output[chunk]? = some before → act chunk before = .ok (after chunk)) :
    forChunks output.length output act = .ok ((List.range output.length).map after) := by
  have hloop : Returns (forChunks output.length output act) fun chunks =>
      chunks = (List.range output.length).map after ++ output.drop output.length := by
    refine Meets.forRange (fun chunk (chunks : List (List Word)) =>
      chunks = (List.range chunk).map after ++ output.drop chunk) (Nat.zero_le _) (by simp) ?_
    rintro chunk chunks - hchunk rfl
    have hlength : ((List.range chunk).map after).length = chunk := by
      rw [List.length_map, List.length_range]
    have hread : chunkAt ((List.range chunk).map after ++ output.drop chunk) chunk =
        .ok output[chunk] := by
      rw [chunkAt, List.getElem?_append_right hlength.le, hlength, Nat.sub_self,
        List.getElem?_drop, Nat.add_zero, List.getElem?_eq_getElem hchunk, inBounds_some]
    rw [hread, ok_bind, h chunk _ (List.getElem?_eq_getElem hchunk), ok_bind]
    refine Meets.ok ?_
    rw [List.set_append_right _ _ hlength.le, hlength, Nat.sub_self,
      List.drop_eq_getElem_cons hchunk, List.set_cons_zero, List.range_succ, List.map_append,
      List.append_assoc]
    rfl
  obtain ⟨chunks, hchunks, rfl⟩ := hloop.exists_ok
  rw [hchunks, List.drop_length, List.append_nil]

/-- The header of the kernel's outputs. -/
def outputHeaderOf (index : HnswIndex) (rows columns : ℕ) : Header :=
  ⟨rows, columns, index.entryPoint.toNat, index.maxLevel.toNat⟩

/-- The chunk that a search leaves. -/
def chunkAfter (index : HnswIndex) (rows columns : ℕ) (k efSearch : ℤ)
    (outcome : List (SearchEntry Distance) × HnswIndex.SearchStats) (before : List Word) :
    List Word :=
  chunkWords (outputHeaderOf index rows columns) efSearch.toNat k.toNat outcome ++
    before.drop outputElements

/-- An invocation searches the query of each of its chunks. -/
theorem controlledAct_eq {math : DistanceArithmetic} (arrays : ℕ → HnswKernel.Arrays)
    (hfits : Fits index rows columns) (haccepts : Accepts rows k efSearch)
    {query graph output : List (List Word)} {queries : ℕ → List Word}
    {outcomes : ℕ → List (SearchEntry Distance) × HnswIndex.SearchStats} {first : List Word}
    (hpos : 0 < output.length) (hcount : output.length ≤ maxChunksPerInvocation)
    (hgraph : graph[0]? = some (graphChunk index rows columns)) (hfirst : query[0]? = some first)
    (hheader : first.take queryHeader = queryHeaderWords index efSearch.toNat k.toNat)
    (hqueries : ∀ chunk < output.length, ∃ payload, query[chunk]? = some payload ∧
      HoldsVectors index columns payload ∧ queries chunk <+: payload.drop queryHeader ∧
        (queries chunk).length = columns ∧
          ∀ value ∈ queries chunk, Binary32.isFinite value = true)
    (houtcomes : ∀ chunk < output.length,
      index.searchIndex (searchDistance math) (queries chunk) k efSearch = .ok (outcomes chunk))
    (houtput : ∀ chunk ∈ output, chunk.length = chunkElements) :
    controlledAct math arrays (chunkElements * output.length) query graph output =
      .ok ((List.range output.length).map fun chunk =>
        chunkAfter index rows columns k efSearch (outcomes chunk) (output.getD chunk [])) := by
  have hsearch (chunk : ℕ) (before : List Word) (hbefore : output[chunk]? = some before) :
      ∃ payload, query[chunk]? = some payload ∧
        hnswSearchChunk math (arrays chunk) payload first (graphChunk index rows columns)
          efSearch.toNat k.toNat before =
            .ok (chunkAfter index rows columns k efSearch (outcomes chunk)
              (output.getD chunk [])) := by
    have hchunk := (List.getElem?_eq_some_iff.1 hbefore).1
    obtain ⟨payload, hpayload, hvectors, hquery, hwidth, hfinite⟩ := hqueries chunk hchunk
    have hread {i n : ℕ} (h : (queryHeaderNats index rows columns efSearch.toNat k.toNat)[i]? =
        some n) := readNat_queryHeader hfits haccepts hheader h
    have hrows := hfits.rows_le
    have hcolumns := hfits.columns_le
    have hholds : HoldsChunk index rows (queries chunk) payload first
        (graphChunk index rows columns) := by
      refine ⟨hread rfl, by rw [hwidth]; exact hread rfl, hread rfl, hread rfl, hquery,
        fun v hv => ?_, holdsLinks_graphChunk hfits⟩
      have hle : (v + 1) * columns ≤ rows * columns := Nat.mul_le_mul_right _ hv
      rw [Nat.succ_mul] at hle
      have hsmall : v * columns < 2 ^ 32 := by
        have hmul : rows * columns ≤ maxNodes * maxDimensions := Nat.mul_le_mul hrows hcolumns
        have hvalue : maxNodes * maxDimensions = 1536 := rfl
        omega
      have hlength := hfits.length_vectorWords
      rw [hwidth, u32_of_lt hsmall, hfits.matrixRow_eq v]
      refine ⟨?_, ?_⟩
      · rw [List.length_take, List.length_drop]
        omega
      · rw [← List.drop_drop]
        exact (List.take_prefix _ _).trans (hvectors.2.drop _)
    have hshape : (queries chunk).length = index.vectors.shape.getD 1 0 := by
      rw [hwidth]
      exact (congrArg Prod.snd hfits.shape).symm
    obtain ⟨outcome, houtcome, hrun⟩ := hnswSearchChunk_eq math (arrays chunk)
      hfits.valid hrows hfits.maxLevel_lt hholds hshape hfinite haccepts.efSearch_le_rows
      haccepts.efSearch_le_maxEf (by have := haccepts.k_pos; omega) haccepts.k_le_efSearch
      haccepts.k_le_maxK (houtput before (List.mem_of_getElem? hbefore))
    obtain rfl := Except.ok.inj (houtcome.symm.trans (houtcomes chunk hchunk))
    refine ⟨payload, hpayload, hrun.trans ?_⟩
    rw [chunkAfter, List.getD_eq_getElem?_getD, hbefore, hwidth]
    rfl
  have hsize : ¬(chunkElements * output.length = 0 ∨
      chunkElements * maxChunksPerInvocation < chunkElements * output.length ∨
        chunkElements * output.length % chunkElements ≠ 0) := by
    have hchunkElements : chunkElements = 1024 := rfl
    have hmaximum : maxChunksPerInvocation = 80 := rfl
    rw [Nat.mul_mod_right, hchunkElements]
    omega
  rw [controlledAct, if_neg hsize, Nat.mul_div_cancel_left _ (by decide)]
  dsimp only
  rw [chunkAt, hfirst, inBounds_some, ok_bind, chunkAt, hgraph, inBounds_some, ok_bind,
    hnswValidateGraph_eq hfits]
  dsimp only [ifRefused]
  rw [validateQuery_eq hfits haccepts hheader]
  refine forChunks_eq fun chunk before hbefore => ?_
  obtain ⟨payload, hpayload, hrun⟩ := hsearch chunk before hbefore
  rw [chunkAt, hpayload, inBounds_some, ok_bind]
  split_ifs with hdefault
  · obtain ⟨hdefaultEf, hdefaultK⟩ : efSearch.toNat = 16 ∧ k.toNat = 5 := hdefault
    rwa [hdefaultEf, hdefaultK] at hrun
  · exact hrun

end Invocation

/-! ## The four invocations -/

section Invocations

variable {index : HnswIndex} {rows columns capacity : ℕ} {k efSearch : ℤ}

/-- A capacity that is accepted. -/
theorem validateQueryCapacity_eq_ok_iff :
    validateQueryCapacity capacity = .ok () ↔ ∃ size, capacity = replicas * size ∧ 0 < size ∧
      size ≤ maxChunksPerInvocation := by
  have hreplicas : replicas = 4 := rfl
  have hmaximum : maxChunksPerInvocation = 80 := rfl
  have hbatch : maxBatchQueries = 320 := rfl
  rw [validateQueryCapacity, refuseIf_eq_ok_iff, hreplicas, hmaximum, hbatch]
  constructor
  · intro h
    exact ⟨capacity / 4, by omega, by omega, by omega⟩
  · rintro ⟨size, rfl, hpos, hle⟩
    omega

section Slices

variable {chunks : List (List Word)} {size invocation chunk : ℕ}

theorem length_invocationOf (hlength : chunks.length = replicas * size)
    (hinvocation : invocation < replicas) : (invocationOf chunks invocation).length = size := by
  have hsize : chunks.length / replicas = size := by
    rw [hlength, Nat.mul_div_cancel_left _ (by decide)]
  have hle : (invocation + 1) * size ≤ replicas * size := Nat.mul_le_mul_right _ hinvocation
  rw [Nat.succ_mul] at hle
  rw [invocationOf, hsize, List.length_take, List.length_drop, hlength]
  omega

theorem getElem?_invocationOf (hlength : chunks.length = replicas * size) (hchunk : chunk < size) :
    (invocationOf chunks invocation)[chunk]? = chunks[invocation * size + chunk]? := by
  have hsize : chunks.length / replicas = size := by
    rw [hlength, Nat.mul_div_cancel_left _ (by decide)]
  rw [invocationOf, hsize, List.getElem?_take_of_lt hchunk, List.getElem?_drop]

theorem startsInvocation_first (hinvocation : invocation < replicas) :
    startsInvocation (replicas * size) (invocation * size) = true := by
  rw [startsInvocation, Nat.mul_div_cancel_left _ (by decide), decide_eq_true_eq]
  exact List.mem_map.2 ⟨invocation, List.mem_range.2 hinvocation, rfl⟩

/-- The rows of all invocations, in order. -/
theorem flatten_rows {α : Type} (after : ℕ → α) (size : ℕ) : ∀ count,
    ((List.range count).map fun invocation =>
      (List.range size).map fun chunk => after (invocation * size + chunk)).flatten =
        (List.range (count * size)).map after
  | 0 => by simp
  | count + 1 => by
    rw [List.range_succ, List.map_append, List.flatten_append, flatten_rows after size count,
      Nat.succ_mul, List.range_add, List.map_append, List.map_map]
    simp [Function.comp_def]

end Slices

/-- Every chunk of the output is that of its query. -/
theorem runInvocations_eq {math : DistanceArithmetic} (arrays : ℕ → ℕ → HnswKernel.Arrays)
    (hfits : Fits index rows columns) (haccepts : Accepts rows k efSearch)
    (hcapacity : validateQueryCapacity capacity = .ok ()) {query graph output : List (List Word)}
    {queries : ℕ → List Word}
    {outcomes : ℕ → List (SearchEntry Distance) × HnswIndex.SearchStats}
    (hgraph : graph = (List.range capacity).map fun row =>
      if startsInvocation capacity row then graphChunk index rows columns else zeroChunk)
    (hlengthQuery : query.length = capacity)
    (hquery : ∀ row chunk, query[row]? = some chunk → (queries row).length = columns ∧
      (∀ value ∈ queries row, Binary32.isFinite value = true) ∧
        HoldsQuery index columns capacity efSearch.toNat k.toNat row (queries row) chunk)
    (houtcomes : ∀ row < capacity,
      index.searchIndex (searchDistance math) (queries row) k efSearch = .ok (outcomes row))
    (hlengthOutput : output.length = capacity)
    (houtput : ∀ chunk ∈ output, chunk.length = chunkElements) :
    runInvocations math arrays query graph output =
      .ok ((List.range capacity).map fun row =>
        chunkAfter index rows columns k efSearch (outcomes row) (output.getD row [])) := by
  obtain ⟨size, rfl, hpos, hsize⟩ := validateQueryCapacity_eq_ok_iff.1 hcapacity
  have hlengthGraph : graph.length = replicas * size := by
    rw [hgraph, List.length_map, List.length_range]
  have hinvocations : (List.range replicas).mapM (fun invocation =>
      controlledAct math (arrays invocation) (chunkElements * (query.length / replicas))
        (invocationOf query invocation) (invocationOf graph invocation)
          (invocationOf output invocation)) =
      .ok ((List.range replicas).map fun invocation => (List.range size).map fun chunk =>
        chunkAfter index rows columns k efSearch (outcomes (invocation * size + chunk))
          (output.getD (invocation * size + chunk) [])) := by
    refine mapM_eq_ok_iff.2 (List.forall₂_map_right_iff.2
      (List.forall₂_same.2 fun invocation hinvocation => ?_))
    have hinvocation := List.mem_range.1 hinvocation
    have hrow {chunk : ℕ} (hchunk : chunk < size) :
        invocation * size + chunk < replicas * size := by
      have hle : (invocation + 1) * size ≤ replicas * size := Nat.mul_le_mul_right _ hinvocation
      rw [Nat.succ_mul] at hle
      omega
    have hlength := length_invocationOf hlengthOutput hinvocation
    have hgraphFirst : (invocationOf graph invocation)[0]? =
        some (graphChunk index rows columns) := by
      rw [getElem?_invocationOf hlengthGraph hpos, Nat.add_zero, hgraph, List.getElem?_map,
        List.getElem?_range (by simpa using hrow hpos), Option.map_some,
        if_pos (startsInvocation_first hinvocation)]
    have hpayload {chunk : ℕ} (hchunk : chunk < size) : ∃ payload,
        (invocationOf query invocation)[chunk]? = some payload ∧
          query[invocation * size + chunk]? = some payload := by
      have hlt : invocation * size + chunk < query.length := by
        rw [hlengthQuery]
        exact hrow hchunk
      exact ⟨_, (getElem?_invocationOf hlengthQuery hchunk).trans (List.getElem?_eq_getElem hlt),
        List.getElem?_eq_getElem hlt⟩
    obtain ⟨first, hfirst, hfirstQuery⟩ := hpayload hpos
    have hheader : first.take queryHeader = queryHeaderWords index efSearch.toNat k.toNat :=
      (hquery _ _ hfirstQuery).2.2.header (startsInvocation_first hinvocation)
    have hact := @controlledAct_eq _ _ _ _ _ math (arrays invocation) hfits haccepts
      (invocationOf query invocation) (invocationOf graph invocation)
      (invocationOf output invocation) (fun chunk => queries (invocation * size + chunk))
      (fun chunk => outcomes (invocation * size + chunk)) first (by rwa [hlength])
      (by rwa [hlength]) hgraphFirst hfirst hheader
      (fun chunk hchunk => by
        rw [hlength] at hchunk
        obtain ⟨payload, hpayload, hpayloadQuery⟩ := hpayload hchunk
        obtain ⟨hwidth, hfinite, hholds⟩ := hquery _ _ hpayloadQuery
        exact ⟨payload, hpayload, hholds.vectors, hholds.queryAt, hwidth, hfinite⟩)
      (fun chunk hchunk => houtcomes _ (hrow (by rwa [hlength] at hchunk)))
      (fun chunk hchunk => houtput chunk (List.mem_of_mem_drop (List.mem_of_mem_take hchunk)))
    rw [hlength] at hact
    rw [hlengthQuery, Nat.mul_div_cancel_left _ (by decide), hact]
    refine congrArg Except.ok (List.map_congr_left fun chunk hchunk => ?_)
    rw [List.getD_eq_getElem?_getD,
      getElem?_invocationOf hlengthOutput (List.mem_range.1 hchunk), List.getD_eq_getElem?_getD]
  rw [runInvocations, hinvocations, ok_bind, flatten_rows fun row =>
    chunkAfter index rows columns k efSearch (outcomes row) (output.getD row [])]

end Invocations

/-! ## The counts of a search -/

section Counts

variable {E : Type} [LinearOrder E] {index : HnswIndex} {rows columns layer : ℕ}
  {distance : ℕ → E}

open HnswIndex (Descent nodesBefore)

/-- The counts after a round of the descent. -/
theorem descentRound_counts (hvalid : index.toHnswFields.Valid rows) {descent : Descent E}
    {next : Descent E ⊕ Descent E} (hat : index.IsAt distance layer descent)
    (h : index.descentRound distance layer descent = .ok next) :
    (∀ after, next = .inl after → after.upperHops = descent.upperHops + 1 ∧
      after.distanceCount ≤ descent.distanceCount + index.m.toNat) ∧
    ∀ after, next = .inr after → after.upperHops = descent.upperHops ∧
      after.distanceCount ≤ descent.distanceCount + index.m.toNat := by
  obtain ⟨-, v, hcurrent, hlayer⟩ := hat
  have hnode : descent.current.node = v := by
    rw [hcurrent]
    rfl
  have hlength := (layerLinks_facts hvalid (hlayer.lt hvalid) layer).1
  rw [HnswIndex.descentRound, hnode, (HnswIndex.neighborsOf_eq hlayer).1, ok_bind] at h
  dsimp only at h
  split_ifs at h
  · obtain rfl := Except.ok.inj h
    refine ⟨by rintro after ⟨⟩, ?_⟩
    rintro after ⟨⟩
    exact ⟨rfl, by dsimp only; omega⟩
  · obtain rfl := Except.ok.inj h
    refine ⟨?_, by rintro after ⟨⟩⟩
    rintro after ⟨⟩
    exact ⟨rfl, by dsimp only; omega⟩

/-- The counts of a descent that has gone through `done` layers. -/
def DescentCounted (index : HnswIndex) (rows done : ℕ) (descent : Descent E) : Prop :=
  descent.upperHops ≤ rows * done ∧
    descent.distanceCount ≤ 1 + index.m.toNat * (descent.upperHops + done)

theorem returns_layer (hvalid : index.toHnswFields.Valid rows) {done : ℕ} {descent : Descent E}
    (hat : index.IsAt distance layer descent) (hcounted : DescentCounted index rows done descent) :
    Returns (whileLoop "greedy descent exceeded its node bound"
        (index.descentRound distance layer) index.levels.length descent) fun after =>
      index.IsAt distance layer after ∧ DescentCounted index rows (done + 1) after := by
  -- a hop leads to a nearer node, so a layer has fewer hops than there are nodes
  have hbefore : (nodesBefore rows distance descent.current).card < rows := by
    obtain ⟨-, v, hcurrent, hlayer⟩ := hat
    rw [hcurrent]
    exact HnswIndex.card_nodesBefore_lt_rows distance (hlayer.lt hvalid)
  refine Meets.whileLoop (fun current : Descent E => index.IsAt distance layer current ∧
      current.upperHops + (nodesBefore rows distance current.current).card ≤
        rows * done + (nodesBefore rows distance descent.current).card ∧
      current.distanceCount ≤ 1 + index.m.toNat * (current.upperHops + done))
    (fun current => (nodesBefore rows distance current.current).card) ?_
      ⟨hat, Nat.add_le_add_right hcounted.1 _, hcounted.2⟩ (by rwa [hvalid.length_levels])
  rintro current ⟨hat, hhops, hdistances⟩
  obtain ⟨next, hnext, hprogress⟩ := (HnswIndex.descentRound_progress hvalid hat).exists_ok
  obtain ⟨hgoes, hends⟩ := descentRound_counts hvalid hat hnext
  refine Returns.of_eq hnext ?_
  cases next with
  | inl after =>
    obtain ⟨hafter, hless⟩ := hprogress
    obtain ⟨hhop, hcount⟩ := hgoes after rfl
    dsimp only at hless
    refine ⟨⟨hafter, by omega, ?_⟩, hless⟩
    rw [hhop, show current.upperHops + 1 + done = current.upperHops + done + 1 by omega,
      Nat.mul_succ]
    omega
  | inr after =>
    obtain ⟨hhop, hcount⟩ := hends after rfl
    refine ⟨hprogress, ?_, ?_⟩
    · rw [hhop, Nat.mul_succ]
      omega
    · rw [hhop, ← Nat.add_assoc, Nat.mul_succ]
      omega

/-- The counts of the whole descent. -/
theorem descend_counted (hvalid : index.toHnswFields.Valid rows) {descent : Descent E}
    (h : index.descend distance = .ok descent) :
    DescentCounted index rows index.maxLevel.toNat descent := by
  have hlayers (bound : ℕ) : ∀ (done : ℕ) (first : Descent E), index.IsAt distance bound first →
      DescentCounted index rows done first →
        Returns (((List.range bound).reverse.map (· + 1)).foldlM (fun descent layer =>
          whileLoop "greedy descent exceeded its node bound"
            (index.descentRound distance layer) index.levels.length descent) first)
          (DescentCounted index rows (done + bound)) := by
    induction bound with
    | zero => exact fun done first _ hcounted => Meets.ok hcounted
    | succ bound ih =>
      intro done first hat hcounted
      rw [List.range_succ, List.reverse_append, List.reverse_singleton, List.singleton_append,
        List.map_cons, List.foldlM_cons]
      refine (returns_layer hvalid hat hcounted).bind fun after hafter => ?_
      obtain ⟨⟨hpos, v, hcurrent, hlayer⟩, hcounted'⟩ := hafter
      have hrest := ih (done + 1) after ⟨hpos, v, hcurrent, hlayer.mono (Nat.le_succ bound)⟩
        hcounted'
      rwa [show done + 1 + bound = done + (bound + 1) by omega] at hrest
  have hrun := hlayers index.maxLevel.toNat 0
    { current := entryOf distance index.entryPoint.toNat, distanceCount := 1, upperHops := 0 }
    ⟨Nat.one_pos, _, rfl, index.maxLevel, hvalid.entryLevel,
      (Int.toNat_of_nonneg index.maxLevel_nonneg).le⟩ ⟨Nat.zero_le _, Nat.le_add_right ..⟩
  have hcounted := hrun.value descent h
  rwa [Nat.zero_add] at hcounted

/-- The counts of `search_index` lie within the bounds that the host expects. -/
theorem counters_between (hfits : Fits index rows columns) {limit k : ℕ} {hlimit : 0 < limit}
    {descent : Descent E} {outcome : List (SearchEntry E) × HnswIndex.SearchStats}
    (hdescent : index.descend distance = .ok descent)
    (h : index.Found distance hlimit k descent outcome) :
    Between counterLowerBounds (counterUpperBounds index limit) (statsCounters outcome.2) := by
  obtain ⟨⟨hpos, v, hcurrent, hlayer⟩, frontier, top, hsearch, -, -, hstats⟩ := h
  have hnode : descent.current.node = v := by
    rw [hcurrent]
    rfl
  obtain ⟨hmem, hreaches, hexpansions, hcandidate, htop⟩ :=
    hsearch.counted (.start _) (.start _)
  have hvisited : frontier.visited.card ≤ rows := by
    rw [← Finset.card_range rows]
    refine Finset.card_le_card fun w hw => Finset.mem_range.2 ?_
    exact (HnswIndex.hasLayer_of_reaches hlimit hlayer (hnode ▸ hreaches w hw)).lt hfits.valid
  have hvisitedPos : 0 < frontier.visited.card := Finset.card_pos.2 ⟨_, hmem⟩
  obtain ⟨hhops, hdistances⟩ := descend_counted hfits.valid hdescent
  have hrows := hfits.rows_le
  have hm := hfits.m_le
  have hmaxLevel := hfits.maxLevel_lt
  have hmaxM : maxM = 4 := rfl
  have hmaxLevels : maxLevels = 4 := rfl
  have hmaxNodes : maxNodes = 48 := rfl
  have htotal : descent.distanceCount + frontier.visited.card - 1 ≤
      maxNodes * (maxLevels * maxM + 1) := by
    have hproduct : rows * index.maxLevel.toNat ≤ 48 * 3 :=
      Nat.mul_le_mul (by omega) (by omega)
    have hlinks : index.m.toNat * (descent.upperHops + index.maxLevel.toNat) ≤ 4 * (144 + 3) :=
      Nat.mul_le_mul (by omega) (by omega)
    rw [hmaxNodes, hmaxLevels, hmaxM]
    omega
  have hflag := Bool.toNat_le outcome.2.terminatedByBound
  have hlimitEq : (index.baseSearch distance hlimit).limit = limit := rfl
  rw [hlimitEq] at htop
  unfold Between counterLowerBounds counterUpperBounds statsCounters
  rw [hstats, hfits.shape]
  simp only [List.forall₂_cons, List.Forall₂.nil, and_true]
  omega

end Counts

/-! ## Reading the results -/

section Results

variable {index : HnswIndex} {rows columns : ℕ} {k efSearch : ℕ}
  {outcome : List (SearchEntry Distance) × HnswIndex.SearchStats} {before : List Word}

theorem length_outputWords {header : Header} {counters : List ℕ} (hcounters : counters.length = 7)
    {results : List (SearchEntry Distance)} (hlength : results.length = k) (hk : k ≤ maxK) :
    (outputWords header efSearch k counters results).length = outputElements := by
  have hmaxK : maxK = 16 := rfl
  have helements : outputElements = 48 := rfl
  simp only [outputWords, List.length_append, List.length_map, List.length_cons, List.length_nil,
    length_flatMap_resultWords, List.length_replicate]
  omega

theorem length_chunkWords {header : Header} (hlength : outcome.1.length ≤ k) (hk : k ≤ maxK) :
    (chunkWords header efSearch k outcome).length = outputElements := by
  unfold chunkWords
  split_ifs
  · rfl
  · exact length_outputWords rfl (by omega) hk

/-- The header that the host reads. -/
theorem headerOf_eq (hheader : ∀ n ∈ expectedHeader index efSearch k, n < 2 ^ 32)
    (hcounters : ∀ n ∈ statsCounters outcome.2, n < 2 ^ 32) (hfits : Fits index rows columns)
    (hlength : outcome.1.length = k) (rest : List Word) :
    headerOf (chunkWords (outputHeaderOf index rows columns) efSearch k outcome ++ rest) =
      expectedHeader index efSearch k ++ statsCounters outcome.2 ++ [k] := by
  have hwords : ∀ n ∈ expectedHeader index efSearch k ++ statsCounters outcome.2 ++ [k],
      (UInt32.toNat ∘ UInt32.ofNat) n = n := by
    intro n hn
    refine UInt32.toNat_ofNat_of_lt' ?_
    rcases List.mem_append.1 hn with hn | hn
    · rcases List.mem_append.1 hn with hn | hn
      · exact hheader n hn
      · exact hcounters n hn
    · rw [List.mem_singleton.1 hn]
      exact hheader k (by simp [expectedHeader])
  have hexpected : ([outputMagic, 0, rows, columns, index.entryPoint.toNat, index.maxLevel.toNat,
      efSearch, k] : List ℕ) = expectedHeader index efSearch k := by
    rw [expectedHeader, hfits.shape]
  have hsixteen : ((expectedHeader index efSearch k ++ statsCounters outcome.2 ++ [k]).map
      UInt32.ofNat).length = outputHeader := rfl
  unfold chunkWords
  rw [if_neg (by omega), headerOf, outputWords, outputHeaderOf]
  dsimp only
  rw [hexpected, List.append_assoc, List.append_assoc, List.take_left' hsixteen, List.map_map,
    List.map_congr_left hwords, List.map_id']

/-- A word of a result stands in the chunk. -/
theorem getElem?_chunkWords (header : Header) (efSearch : ℕ) (hlength : outcome.1.length = k)
    (rest : List Word) {row j : ℕ} (hrow : row < k) (hj : j < 2) :
    (chunkWords header efSearch k outcome ++ rest)[outputHeader + 2 * row + j]? =
      (resultWords (outcome.1[row]))[j]? := by
  have hsixteen : (([outputMagic, 0, header.nodeCount, header.dimensions, header.entryPoint,
      header.maxLevel, efSearch, k] ++ statsCounters outcome.2 ++ [k]).map UInt32.ofNat).length =
        outputHeader := rfl
  have hrows : ∀ words ∈ outcome.1.map resultWords, words.length = 2 := by
    intro words hwords
    obtain ⟨entry, -, rfl⟩ := List.mem_map.1 hwords
    rfl
  have hentry := getElem?_flatten_rows (List.replicate ((maxK - k) * 2) 0 ++ rest) hrows
    (i := row) (j := j) (by rw [List.length_map]; omega) hj
  unfold chunkWords
  rw [if_neg (by omega), outputWords, List.append_assoc, List.append_assoc,
    List.getElem?_append_right (by rw [hsixteen]; omega), hsixteen, List.flatMap_def,
    show outputHeader + 2 * row + j - outputHeader = row * 2 + j by omega, hentry]
  rw [List.getElem_map]

/-- A result of `search_index`, as the host reads it. -/
def resultRecord (entry : SearchEntry Distance) : ℤ × Word :=
  ((entry.node : ℤ), (ofLex entry).1.word)

theorem toId_ofNat {node : ℕ} (h : node ≤ maxNodes) : toId (UInt32.ofNat node) = node := by
  have hnodes : ∀ node ≤ maxNodes, toId (UInt32.ofNat node) = node := by decide
  exact hnodes node h

theorem recordsOf_eq (header : Header) (efSearch : ℕ) (hlength : outcome.1.length = k)
    (rest : List Word) (hnodes : ∀ entry ∈ outcome.1, entry.node ≤ maxNodes) :
    recordsOf k (chunkWords header efSearch k outcome ++ rest) =
      outcome.1.map resultRecord := by
  refine List.ext_getElem (by simp [recordsOf, hlength]) fun row hrow hrow' => ?_
  have hrow : row < k := by simpa [recordsOf] using hrow
  have hid := getElem?_chunkWords header efSearch hlength rest hrow (show 0 < 2 by decide)
  have hdistance := getElem?_chunkWords header efSearch hlength rest hrow (show 1 < 2 by decide)
  rw [Nat.add_zero] at hid
  simp only [recordsOf, List.getElem_map, List.getElem_range, List.getD_eq_getElem?_getD, hid,
    hdistance, resultRecord]
  refine Prod.ext ?_ rfl
  exact toId_ofNat (hnodes _ (List.getElem_mem _))

theorem statsOf_header (stats : HnswIndex.SearchStats) (last : List ℕ) :
    statsOf (expectedHeader index efSearch k ++ statsCounters stats ++ last) = stats := by
  cases stats with
  | mk visited distances hops expansions terminated candidates top =>
    cases terminated <;> rfl

/-- What the host reads of a chunk. -/
def packedResult (outcome : List (SearchEntry Distance) × HnswIndex.SearchStats) :
    PackedResult where
  ids := outcome.1.map fun entry => (entry.node : ℤ)
  distances := outcome.1.map fun entry => (ofLex entry).1.word
  stats := outcome.2

theorem isDistance_iff (distance : Distance) :
    isDistance distance.word = Binary32.isFinite distance.word := by
  have hzero : Binary32.lt distance.word 0 = false := by
    have hnot : ¬distance < Distance.zero := by
      rw [Distance.lt_def]
      exact Nat.not_lt_zero _
    rw [← Bool.not_eq_true]
    exact mt (Distance.lt_word_iff (b := Distance.zero)).1 hnot
  simp [isDistance, hzero]

/-- The results stand in the order that the host checks. -/
theorem not_outOfOrder : ∀ {entries : List (SearchEntry Distance)},
    entries.Pairwise (· < ·) →
      ∀ pair ∈ (entries.map resultRecord).zip (entries.map resultRecord).tail,
        ¬OutOfOrder pair.1 pair.2
  | [], _, _, h => absurd h List.not_mem_nil
  | [_], _, _, h => absurd h List.not_mem_nil
  | first :: next :: entries, hsorted, pair, h => by
    rw [List.pairwise_cons] at hsorted
    rw [List.map_cons, List.map_cons, List.tail_cons, List.zip_cons_cons, List.mem_cons] at h
    rcases h with rfl | h
    · have hlt := hsorted.1 next List.mem_cons_self
      rw [Prod.Lex.lt_iff] at hlt
      unfold OutOfOrder resultRecord
      dsimp only
      rw [Distance.lt_word_iff, Distance.eq_word_iff, not_or, not_and]
      rcases hlt with hlt | ⟨heq, hlt⟩
      · exact ⟨hlt.asymm, fun heq => absurd heq hlt.ne'⟩
      · refine ⟨heq.not_gt, fun _ => ?_⟩
        have hnode : first.node < next.node := hlt
        omega
    · exact not_outOfOrder hsorted.2 pair h

theorem eq_of_forall₂_le {values others : List ℕ} (h : List.Forall₂ (· ≤ ·) values others)
    (h' : List.Forall₂ (· ≤ ·) others values) : values = others := by
  induction h with
  | nil => rfl
  | cons hle _ ih =>
    obtain ⟨hge, hrest⟩ := List.forall₂_cons.1 h'
    rw [le_antisymm hle hge, ih hrest]

/-- A header between bounds that begin alike begins so. -/
theorem Between.take_eq {first lower upper header : List ℕ}
    (h : Between (first ++ lower) (first ++ upper) header) : header.take first.length = first := by
  obtain ⟨hlower, hupper⟩ := h
  have hlower := List.forall₂_take first.length hlower
  have hupper := List.forall₂_take first.length hupper
  rw [List.take_left] at hlower hupper
  exact eq_of_forall₂_le hupper hlower

/-- What an outcome of `search_index` satisfies. -/
structure OutcomeFits (index : HnswIndex) (rows k efSearch : ℕ)
    (outcome : List (SearchEntry Distance) × HnswIndex.SearchStats) : Prop where
  length_le : outcome.1.length ≤ k
  sorted : outcome.1.Pairwise (· < ·)
  nodup : (outcome.1.map SearchEntry.node).Nodup
  node_lt : ∀ entry ∈ outcome.1, entry.node < rows
  counters : Between counterLowerBounds (counterUpperBounds index efSearch)
    (statsCounters outcome.2)

/-- The answer that a host gives from outcomes of `search_index`. -/
def answerOf (k : ℕ) (outcomes : List (List (SearchEntry Distance) × HnswIndex.SearchStats)) :
    Except String (List PackedResult) := do
  refuseIf (∃ outcome ∈ outcomes, outcome.1.length < k)
    "kernel output header does not match the requested index and search"
  refuseIf (∃ outcome ∈ outcomes, ∃ entry ∈ outcome.1,
      Binary32.isFinite (ofLex entry).1.word = false)
    "kernel returned an invalid distance"
  .ok (outcomes.map packedResult)

section Unpack

variable (hfits : Fits index rows columns) (haccepts : Accepts rows (k : ℤ) efSearch)

include hfits haccepts

theorem expectedHeader_lt : ∀ n ∈ expectedHeader index efSearch k, n < 2 ^ 32 := by
  have hentry := hfits.valid.entryPoint
  have hrows := hfits.rows_le
  have hcolumns := hfits.columns_le
  have hmaxLevel := hfits.maxLevel_lt
  have hmaxEf := haccepts.efSearch_le_maxEf
  have hmaxK := haccepts.k_le_maxK
  simp only [expectedHeader, hfits.shape, List.forall_mem_cons, outputMagic, maxLevels, maxNodes,
    maxDimensions, maxEf, maxK, List.not_mem_nil, false_imp_iff, implies_true, and_true] at *
  omega

theorem counters_lt (houtcome : OutcomeFits index rows k efSearch outcome) :
    ∀ n ∈ statsCounters outcome.2, n < 2 ^ 32 := by
  intro n hn
  have hupper : ∀ m ∈ counterUpperBounds index efSearch, m < 2 ^ 32 := by
    have hrows := hfits.rows_le
    have hmaxLevel := hfits.maxLevel_lt
    have hmaxEf := haccepts.efSearch_le_maxEf
    have hproduct : rows * index.maxLevel.toNat ≤ 48 * 4 :=
      Nat.mul_le_mul hrows (by simp only [maxLevels] at hmaxLevel; omega)
    simp only [counterUpperBounds, hfits.shape, List.forall_mem_cons, maxNodes, maxLevels, maxM,
      maxEf, List.not_mem_nil, false_imp_iff, implies_true, and_true] at *
    omega
  obtain ⟨i, hi, rfl⟩ := List.getElem_of_mem hn
  obtain ⟨hlength, hle⟩ := List.forall₂_iff_get.1 houtcome.counters.2
  exact (hle i hi (hlength ▸ hi)).trans_lt (hupper _ (List.getElem_mem _))

/-- The header of a chunk is as the host expects, unless there are too few results. -/
theorem header_between (houtcome : OutcomeFits index rows k efSearch outcome)
    (hlength : outcome.1.length = k) (rest : List Word) :
    Between (expectedHeader index efSearch k ++ counterLowerBounds ++ [k])
      (expectedHeader index efSearch k ++ counterUpperBounds index efSearch ++ [k])
      (headerOf (chunkWords (outputHeaderOf index rows columns) efSearch k outcome ++ rest)) := by
  rw [headerOf_eq (expectedHeader_lt hfits haccepts) (counters_lt hfits haccepts houtcome) hfits
    hlength]
  have hrefl (l : List ℕ) : List.Forall₂ (· ≤ ·) l l := List.forall₂_refl l
  exact ⟨List.rel_append (List.rel_append (hrefl _) houtcome.counters.1) (hrefl _),
    List.rel_append (List.rel_append (hrefl _) houtcome.counters.2) (hrefl _)⟩

omit hfits haccepts in
/-- A chunk with too few results says so. -/
theorem header_of_few (index : HnswIndex) (header : Header) (efSearch : ℕ)
    (hlength : outcome.1.length < k) (rest : List Word) :
    (headerOf (chunkWords header efSearch k outcome ++ rest)).take 8 ≠
      expectedHeader index efSearch k := by
  unfold chunkWords
  rw [if_pos hlength]
  intro heq
  have hstatus : 3 = 0 := congrArg (fun header => header.getD 1 0) heq
  exact absurd hstatus (by decide)

omit haccepts in
theorem checkRecords_eq {outcomes : List (List (SearchEntry Distance) × HnswIndex.SearchStats)}
    (houtcomes : ∀ outcome ∈ outcomes, OutcomeFits index rows k efSearch outcome) :
    checkRecords index (outcomes.map fun outcome => outcome.1.map resultRecord) =
      refuseIf (∃ outcome ∈ outcomes, ∃ entry ∈ outcome.1,
        Binary32.isFinite (ofLex entry).1.word = false) "kernel returned an invalid distance" := by
  have hnode : ∀ outcome ∈ outcomes, ∀ entry ∈ outcome.1,
      isNode index (resultRecord entry).1 = true := by
    intro outcome houtcome entry hentry
    have hlt := (houtcomes outcome houtcome).node_lt entry hentry
    rw [isNode, hfits.shape, decide_eq_true_eq, resultRecord]
    dsimp only
    omega
  have hdistance (entry : SearchEntry Distance) :
      isDistance (resultRecord entry).2 = Binary32.isFinite (ofLex entry).1.word :=
    isDistance_iff _
  have hnoBadNode : ¬∃ row ∈ outcomes.map (fun outcome => outcome.1.map resultRecord),
      ∃ record ∈ row, ¬isNode index record.1 = true := by
    simp only [List.mem_map, exists_exists_and_eq_and]
    rintro ⟨outcome, houtcome, entry, hentry, hnot⟩
    exact hnot (hnode outcome houtcome entry hentry)
  have hbadDistance : (∃ row ∈ outcomes.map (fun outcome => outcome.1.map resultRecord),
      ∃ record ∈ row, ¬isDistance record.2 = true) ↔ ∃ outcome ∈ outcomes, ∃ entry ∈ outcome.1,
        Binary32.isFinite (ofLex entry).1.word = false := by
    simp only [List.mem_map, exists_exists_and_eq_and, hdistance, Bool.not_eq_true]
  have hbad : (∃ row ∈ outcomes.map (fun outcome => outcome.1.map resultRecord),
      ∃ record ∈ row, ¬isNode index record.1 = true ∨ ¬isDistance record.2 = true) ↔
        ∃ row ∈ outcomes.map (fun outcome => outcome.1.map resultRecord),
          ∃ record ∈ row, ¬isDistance record.2 = true := by
    constructor
    · rintro ⟨row, hrow, record, hrecord, hnot | hnot⟩
      · exact absurd ⟨row, hrow, record, hrecord, hnot⟩ hnoBadNode
      · exact ⟨row, hrow, record, hrecord, hnot⟩
    · rintro ⟨row, hrow, record, hrecord, hnot⟩
      exact ⟨row, hrow, record, hrecord, .inr hnot⟩
  unfold checkRecords
  by_cases hfinite : ∃ outcome ∈ outcomes, ∃ entry ∈ outcome.1,
      Binary32.isFinite (ofLex entry).1.word = false
  · rw [if_pos (hbad.2 (hbadDistance.2 hfinite)), refuseIf_of_not _ hnoBadNode, ok_bind,
      refuseIf_of _ (hbadDistance.2 hfinite), refuseIf_of _ hfinite]
    rfl
  · rw [if_neg (mt hbad.1 (mt hbadDistance.1 hfinite)), ok_bind, refuseIf_of_not, ok_bind,
      refuseIf_of_not _ hfinite, refuseIf_of_not]
    · simp only [List.mem_map, exists_exists_and_eq_and, not_exists, not_and]
      intro outcome houtcome pair hpair
      exact not_outOfOrder (houtcomes outcome houtcome).sorted pair hpair
    · simp only [List.mem_map, exists_exists_and_eq_and, not_exists, not_and, not_not, List.map_map]
      intro outcome houtcome
      have hnodup := (houtcomes outcome houtcome).nodup.map (f := ((↑) : ℕ → ℤ)) Nat.cast_injective
      rwa [List.map_map] at hnodup

omit hfits haccepts in
/-- A header that is not that of the search is refused. -/
theorem checkHeaders_of_ne {headers : List (List ℕ)} {header : List ℕ} (hmem : header ∈ headers)
    (hne : header.take 8 ≠ expectedHeader index efSearch k) :
    checkHeaders index efSearch k headers =
      .error "kernel output header does not match the requested index and search" := by
  rw [checkHeaders, if_neg, refuseIf_of _ ⟨header, hmem, hne⟩]
  · rfl
  · intro hall
    have hbetween := hall header hmem
    rw [List.append_assoc, List.append_assoc] at hbetween
    exact hne hbetween.take_eq

section Chunk

variable (columns) (houtcome : OutcomeFits index rows k efSearch outcome) {before : List Word}
include houtcome

omit hfits in
theorem chunkAfter_spec (hbefore : before.length = chunkElements) :
    (chunkAfter index rows columns k efSearch outcome before).length = chunkElements ∧
      (chunkAfter index rows columns k efSearch outcome before).take outputElements =
        chunkWords (outputHeaderOf index rows columns) efSearch k outcome := by
  have hwords : (chunkWords (outputHeaderOf index rows columns) efSearch k outcome).length =
      outputElements := length_chunkWords houtcome.length_le (by exact_mod_cast haccepts.k_le_maxK)
  rw [chunkAfter, Int.toNat_natCast, Int.toNat_natCast]
  refine ⟨?_, List.take_left' hwords⟩
  have helements : outputElements ≤ chunkElements := by decide
  rw [List.length_append, hwords, List.length_drop, hbefore]
  omega

omit haccepts in
theorem recordsOf_chunkAfter (hlength : outcome.1.length = k) :
    recordsOf k (chunkAfter index rows columns k efSearch outcome before) =
      outcome.1.map resultRecord :=
  recordsOf_eq _ _ hlength _ fun entry hentry =>
    (houtcome.node_lt entry hentry).le.trans hfits.rows_le

end Chunk

/-- The host reads the results of the searches, or refuses them. -/
theorem unpackResults_eq {capacity queryCount : ℕ}
    (hcapacity : validateQueryCapacity capacity = .ok ()) (hcount : 0 < queryCount)
    (hle : queryCount ≤ capacity)
    {outcomes : ℕ → List (SearchEntry Distance) × HnswIndex.SearchStats} {before : ℕ → List Word}
    (houtcomes : ∀ row < capacity, OutcomeFits index rows k efSearch (outcomes row))
    (hrepeated : ∀ row < capacity, queryCount ≤ row → outcomes row = outcomes 0)
    (hbefore : ∀ row < capacity, (before row).length = chunkElements) :
    unpackResults index k efSearch queryCount ((List.range capacity).map fun row =>
        chunkAfter index rows columns k efSearch (outcomes row) (before row)) =
      answerOf k ((List.range queryCount).map outcomes) := by
  have hspec {row : ℕ} (hrow : row < capacity) :=
    chunkAfter_spec columns haccepts (houtcomes row hrow) (hbefore row hrow)
  have hchunks : ((List.range capacity).map fun row =>
      chunkAfter index rows columns k efSearch (outcomes row) (before row)).take queryCount =
        (List.range queryCount).map fun row =>
          chunkAfter index rows columns k efSearch (outcomes row) (before row) := by
    rw [← List.map_take, List.take_range, min_eq_left hle]
  have hmem {outcome : List (SearchEntry Distance) × HnswIndex.SearchStats}
      (h : outcome ∈ (List.range queryCount).map outcomes) :
      OutcomeFits index rows k efSearch outcome := by
    obtain ⟨row, hrow, rfl⟩ := List.mem_map.1 h
    exact houtcomes row ((List.mem_range.1 hrow).trans_le hle)
  unfold unpackResults
  rw [refuseIf_of_not, ok_bind, List.length_map, List.length_range, hcapacity, ok_bind,
    refuseIf_of_not _ (by omega), ok_bind, refuseIf_of_not, ok_bind]
  · dsimp only
    rw [hchunks, List.map_map, List.map_map, List.map_map]
    by_cases hfew : ∃ outcome ∈ (List.range queryCount).map outcomes, outcome.1.length < k
    · obtain ⟨outcome, houtcome, hless⟩ := hfew
      obtain ⟨row, hrow, rfl⟩ := List.mem_map.1 houtcome
      have hheader := header_of_few index (outputHeaderOf index rows columns) efSearch hless
        ((before row).drop outputElements)
      rw [answerOf, refuseIf_of _ ⟨_, houtcome, hless⟩,
        checkHeaders_of_ne (List.mem_map_of_mem hrow) hheader]
      rfl
    · have hall {outcome : List (SearchEntry Distance) × HnswIndex.SearchStats}
          (h : outcome ∈ (List.range queryCount).map outcomes) : outcome.1.length = k := by
        have hle := (hmem h).length_le
        have hnot : ¬outcome.1.length < k := fun hlt => hfew ⟨outcome, h, hlt⟩
        omega
      have hrecords : (List.range queryCount).map (recordsOf k ∘ fun row =>
          chunkAfter index rows columns k efSearch (outcomes row) (before row)) =
            ((List.range queryCount).map outcomes).map fun outcome =>
              outcome.1.map resultRecord := by
        rw [List.map_map]
        refine List.map_congr_left fun row hrow => ?_
        have houtcome := List.mem_map_of_mem (f := outcomes) hrow
        exact recordsOf_chunkAfter columns hfits (hmem houtcome) (hall houtcome)
      rw [checkHeaders, if_pos, ok_bind, hrecords, checkRecords_eq hfits fun outcome h => hmem h,
        answerOf, refuseIf_of_not _ hfew, ok_bind]
      · refine congrArg _ (funext fun _ => congrArg Except.ok ?_)
        rw [List.map_map]
        refine List.map_congr_left fun row hrow => ?_
        have houtcome := List.mem_map_of_mem (f := outcomes) hrow
        have hrecords : recordsOf k (chunkAfter index rows columns k efSearch _ (before row)) = _ :=
          recordsOf_chunkAfter columns hfits (hmem houtcome) (hall houtcome)
        have hheader := headerOf_eq (expectedHeader_lt hfits haccepts)
          (counters_lt hfits haccepts (hmem houtcome)) hfits (hall houtcome)
            ((before row).drop outputElements)
        rw [Function.comp_apply, Function.comp_apply, hrecords, chunkAfter, Int.toNat_natCast,
          Int.toNat_natCast, hheader, statsOf_header, packedResult, List.map_map,
          List.map_map]
        rfl
      · intro header hheader
        obtain ⟨row, hrow, rfl⟩ := List.mem_map.1 hheader
        have houtcome := List.mem_map_of_mem (f := outcomes) hrow
        exact header_between hfits haccepts (hmem houtcome) (hall houtcome) _
  · rintro ⟨chunk, hchunk, hne⟩
    rw [← List.map_drop] at hchunk
    obtain ⟨row, hrow, rfl⟩ := List.mem_map.1 hchunk
    have hrow' := List.mem_range.1 (List.mem_of_mem_drop hrow)
    have hge : queryCount ≤ row := by
      obtain ⟨i, hi, rfl⟩ := List.getElem_of_mem hrow
      rw [List.getElem_drop, List.getElem_range]
      omega
    have hzero : 0 < capacity := by omega
    rw [(hspec hrow').2, List.getD_eq_getElem?_getD, List.getElem?_map,
      List.getElem?_range hzero, Option.map_some, Option.getD_some, (hspec hzero).2,
      hrepeated row hrow' hge] at hne
    exact hne rfl
  · rintro ⟨chunk, hchunk, hne⟩
    obtain ⟨row, hrow, rfl⟩ := List.mem_map.1 hchunk
    exact hne (hspec (List.mem_range.1 hrow)).1

end Unpack

end Results

/-! ## One search after another -/

section Searches

variable (math : DistanceArithmetic) {index : HnswIndex} {rows columns capacity : ℕ}
  {k efSearch : ℤ}

/-- The answer of a host to a search : `search_index` of each query. -/
def hostAnswer (math : DistanceArithmetic) (index : HnswIndex) (capacity : ℕ)
    (call : SearchCall) : Except String (List PackedResult) := do
  let matrix ← normalizeQueries index call.queries capacity
  validateSearchParameters index call.k call.efSearch
  let outcomes ← matrix.mapM fun query =>
    index.searchIndex (searchDistance math) query call.k call.efSearch
  answerOf call.k.toNat outcomes

theorem exists_outcome (hfits : Fits index rows columns) (haccepts : Accepts rows k efSearch)
    {query : List Word} (hwidth : query.length = columns)
    (hfinite : ∀ value ∈ query, Binary32.isFinite value = true) :
    ∃ outcome, index.searchIndex (searchDistance math) query k efSearch = .ok outcome ∧
      OutcomeFits index rows k.toNat efSearch.toNat outcome := by
  have hshape : query.length = index.vectors.shape.getD 1 0 := by
    rw [hwidth]
    exact (congrArg Prod.snd hfits.shape).symm
  have hkPos := haccepts.k_pos
  have hle := haccepts.k_le_efSearch
  obtain ⟨descent, outcome, hdescent, hsearch, hfound⟩ :=
    HnswIndex.searchIndex_found (searchDistance math) hfits.valid hshape hfinite
      (show 0 < efSearch.toNat by omega) haccepts.efSearch_le_rows (by omega) hle
  obtain ⟨hentries, hsorted, hnodup, -⟩ := hfound.result hfits.valid (by omega)
  refine ⟨outcome, hsearch, ?_, hsorted, hnodup, fun entry h => (hentries entry h).2,
    counters_between hfits hdescent hfound⟩
  obtain ⟨-, frontier, top, -, -, hresults, -⟩ := hfound
  rw [hresults, List.length_take]
  exact min_le_left ..

/-- The queries of a matrix that is accepted. -/
theorem normalizeQueries_spec {queries : QueryArray} {matrix : List (List Word)}
    (hfits : Fits index rows columns)
    (h : normalizeQueries index queries capacity = .ok matrix) :
    matrix ≠ [] ∧ matrix.length ≤ capacity ∧ ∀ query ∈ matrix, query.length = columns ∧
      ∀ value ∈ query, Binary32.isFinite value = true := by
  have hmatrix (count width : ℕ) (hvalues : queries.values.length = count * width)
      (h : (do
        refuseIf (width ≠ (vectorShape index).2)
          s!"queries must have shape (count, {(vectorShape index).2})"
        refuseIf (¬(1 ≤ count ∧ count ≤ capacity)) s!"query count must be in [1, {capacity}]"
        refuseIf (∃ value ∈ queries.values, Binary32.isFinite value = false)
          "queries must contain only finite values"
        .ok ((List.range count).map fun row => (queries.values.drop (row * width)).take width)) =
          Except.ok matrix) :
      matrix ≠ [] ∧ matrix.length ≤ capacity ∧ ∀ query ∈ matrix, query.length = columns ∧
        ∀ value ∈ query, Binary32.isFinite value = true := by
    rw [hfits.shape] at h
    simp only [refuseIf_bind_eq_ok_iff, not_not, Except.ok.injEq] at h
    obtain ⟨rfl, ⟨hpos, hle⟩, hnone, rfl⟩ := h
    have hfinite : ∀ value ∈ queries.values, Binary32.isFinite value = true := by
      intro value hvalue
      by_contra hnot
      exact hnone ⟨value, hvalue, by rwa [Bool.not_eq_true] at hnot⟩
    refine ⟨?_, by rwa [List.length_map, List.length_range], fun query hquery => ?_⟩
    · rw [← List.length_pos_iff, List.length_map, List.length_range]
      exact hpos
    · obtain ⟨row, hrow, rfl⟩ := List.mem_map.1 hquery
      have hle : (row + 1) * width ≤ count * width :=
        Nat.mul_le_mul_right _ (List.mem_range.1 hrow)
      rw [Nat.succ_mul] at hle
      refine ⟨?_, fun value hvalue =>
        hfinite value (List.mem_of_mem_drop (List.mem_of_mem_take hvalue))⟩
      rw [List.length_take, List.length_drop]
      omega
  have hlength := queries.length_values
  obtain ⟨-, -, h⟩ := bind_eq_ok_iff.1 h
  dsimp only at h
  rcases hshape : queries.shape with - | ⟨first, - | ⟨second, - | ⟨third, others⟩⟩⟩
  · rw [hshape] at h
    exact nomatch h
  · rw [hshape] at h hlength
    exact hmatrix 1 first (by simpa using hlength) h
  · rw [hshape] at h hlength
    exact hmatrix first second (by simpa using hlength) h
  · rw [hshape] at h
    exact nomatch h

/-- The buffers are those of an index, whatever was searched. -/
structure Ready (index : HnswIndex) (rows columns capacity : ℕ) (npu : NpuHnsw) : Prop where
  index_eq : npu.index = index
  query : HoldsBuffer index columns capacity npu.queryBuffer
  graph : npu.graphBuffer = (List.range capacity).map fun row =>
    if startsInvocation capacity row then graphChunk index rows columns else zeroChunk
  output : npu.outputBuffer.length = capacity ∧
    ∀ chunk ∈ npu.outputBuffer, chunk.length = chunkElements

/-- A chunk of the output reports no bound of the kernel's loops. -/
def WithinBounds (chunk : List Word) : Prop :=
  chunk[1]? ≠ some (UInt32.ofNat HnswKernel.Status.internalBound.toNat)

instance (chunk : List Word) : Decidable (WithinBounds chunk) :=
  inferInstanceAs (Decidable (_ ≠ _))

/-- A search either succeeds or has too few results. -/
theorem withinBounds_chunkAfter (index : HnswIndex) (rows columns : ℕ) (k efSearch : ℤ)
    (outcome : List (SearchEntry Distance) × HnswIndex.SearchStats) (before : List Word) :
    WithinBounds (chunkAfter index rows columns k efSearch outcome before) := by
  unfold chunkAfter chunkWords
  split_ifs
  · have hstatus : (some 3 : Option Word) ≠ some 4 := by decide
    exact hstatus
  · have hstatus : (some 0 : Option Word) ≠ some 4 := by decide
    exact hstatus

/-- The kernel's run of an accepted search, and what the host reads of it. -/
theorem runInvocations_spec (hfits : Fits index rows columns)
    (hcapacity : validateQueryCapacity capacity = .ok ()) {npu : NpuHnsw}
    (hready : Ready index rows columns capacity npu) {call : SearchCall}
    {matrix : List (List Word)} (haccepts : Accepts rows call.k call.efSearch)
    (hmatrix : matrix ≠ [] ∧ matrix.length ≤ capacity ∧ ∀ query ∈ matrix,
      query.length = columns ∧ ∀ value ∈ query, Binary32.isFinite value = true) :
    ∃ outcomes output,
      matrix.mapM (fun query =>
        index.searchIndex (searchDistance math) query call.k call.efSearch) = .ok outcomes ∧
      runInvocations math call.arrays
        (writeQueries index capacity call.efSearch.toNat call.k.toNat matrix npu.queryBuffer)
          npu.graphBuffer npu.outputBuffer = .ok output ∧
      (∀ chunk ∈ output, WithinBounds chunk) ∧
      (output.length = capacity ∧ ∀ chunk ∈ output, chunk.length = chunkElements) ∧
      unpackResults index call.k.toNat call.efSearch.toNat matrix.length output =
        answerOf call.k.toNat outcomes := by
  obtain ⟨hne, hle, hqueries⟩ := hmatrix
  have hpos : 0 < matrix.length := List.length_pos_iff.2 hne
  have hquery (row : ℕ) := hqueries _ (queryOf_mem hne row)
  have houtcome (row : ℕ) := exists_outcome math hfits haccepts (hquery row).1
    (hquery row).2
  choose outcomes hsearch houtcomeFits using houtcome
  have hpayload : queryHeader + columns ≤ chunkElements := by
    have hpayload := hfits.payload_le
    rw [Nat.mul_succ] at hpayload
    omega
  have hk : ((call.k.toNat : ℕ) : ℤ) = call.k :=
    Int.toNat_of_nonneg (by have := haccepts.k_pos; omega)
  have hef : ((call.efSearch.toNat : ℕ) : ℤ) = call.efSearch :=
    Int.toNat_of_nonneg (by have := haccepts.efSearch_pos; omega)
  have hrun := @runInvocations_eq _ _ _ capacity _ _ math call.arrays hfits haccepts hcapacity
    (writeQueries index capacity call.efSearch.toNat call.k.toNat matrix npu.queryBuffer) _ _
    (queryOf matrix) outcomes hready.graph
    (by rw [writeQueries, List.length_mapIdx, hready.query.1])
    (fun row chunk hchunk => ⟨(hquery row).1, (hquery row).2, writeQueries_holds hready.query
      hpayload hne (fun query h => (hqueries query h).1) hchunk⟩)
    (fun row _ => hsearch row) hready.output.1 hready.output.2
  have hlengthOutput (row : ℕ) (hrow : row < capacity) :
      (npu.outputBuffer.getD row []).length = chunkElements := by
    rw [List.getD_eq_getElem _ _ (by rwa [hready.output.1])]
    exact hready.output.2 _ (List.getElem_mem _)
  have haccepts' : Accepts rows (call.k.toNat : ℤ) (call.efSearch.toNat : ℤ) := by
    rwa [hk, hef]
  have hunpack := @unpackResults_eq _ _ _ _ _ hfits haccepts' _ _ hcapacity hpos hle outcomes
    (fun row => npu.outputBuffer.getD row []) (fun row _ => houtcomeFits row) (fun row _ hrow => by
      have heq : queryOf matrix row = queryOf matrix 0 := by
        rw [queryOf, queryOf, if_neg (by omega), if_pos hpos]
      have hsame := hsearch row
      rw [heq] at hsame
      exact Except.ok.inj (hsame.symm.trans (hsearch 0))) hlengthOutput
  rw [hk, hef] at hunpack
  refine ⟨(List.range matrix.length).map outcomes, _, ?_, hrun, fun chunk hchunk => ?_,
    ⟨by rw [List.length_map, List.length_range], fun chunk hchunk => ?_⟩, hunpack⟩
  · refine mapM_eq_ok_iff.2 (List.forall₂_iff_get.2
      ⟨by rw [List.length_map, List.length_range], fun row hrow hrow' => ?_⟩)
    have hentry : queryOf matrix row = matrix.get ⟨row, hrow⟩ := by
      rw [queryOf, if_pos hrow, List.getD_eq_getElem _ _ hrow]
      rfl
    rw [← hentry, hsearch row]
    simp
  · obtain ⟨row, -, rfl⟩ := List.mem_map.1 hchunk
    exact withinBounds_chunkAfter index rows columns _ _ _ _
  · obtain ⟨row, hrow, rfl⟩ := List.mem_map.1 hchunk
    have hrow := List.mem_range.1 hrow
    have helements : outputElements ≤ chunkElements := by decide
    have hmaxK := haccepts.k_le_maxK
    rw [chunkAfter, List.length_append, length_chunkWords (houtcomeFits row).length_le (by omega),
      List.length_drop, hlengthOutput row hrow]
    omega

theorem verifyResults_eq {matrix : List (List Word)} {call : SearchCall}
    {outcomes : List (List (SearchEntry Distance) × HnswIndex.SearchStats)}
    {results : List PackedResult}
    (houtcomes : matrix.mapM (fun query =>
      index.searchIndex (searchDistance math) query call.k call.efSearch) = .ok outcomes)
    (hresults : answerOf call.k.toNat outcomes = .ok results) :
    verifyResults math index call.k call.efSearch (matrix.zip results) = .ok () := by
  unfold answerOf at hresults
  obtain ⟨-, hresults⟩ := refuseIf_bind_eq_ok_iff.1 hresults
  obtain ⟨-, hresults⟩ := refuseIf_bind_eq_ok_iff.1 hresults
  obtain rfl := Except.ok.inj hresults
  have hsearches := mapM_eq_ok_iff.1 houtcomes
  unfold verifyResults
  refine forM_eq_ok_iff.2 fun pair hpair => ?_
  obtain ⟨row, hrow, rfl⟩ := List.getElem_of_mem hpair
  rw [List.length_zip, List.length_map] at hrow
  rw [List.getElem_zip, List.getElem_map]
  have hsearch := (List.forall₂_iff_get.1 hsearches).2 row (by omega) (by omega)
  rw [List.get_eq_getElem, List.get_eq_getElem] at hsearch
  dsimp only
  rw [hsearch, ok_bind]
  dsimp only
  rw [refuseIf_of_not, ok_bind, refuseIf_of_not]
  · exact not_not.2 rfl
  · rintro (h | h)
    · exact h rfl
    · exact h rfl

/-- A search answers as the host does, and leaves its buffers ready. -/
theorem searchMany_spec (hfits : Fits index rows columns)
    (hcapacity : validateQueryCapacity capacity = .ok ()) {npu : NpuHnsw}
    (hready : Ready index rows columns capacity npu) (call : SearchCall) :
    Effect.Ensures (NpuHnsw.searchMany math call) npu
      (fun results npu' => hostAnswer math index capacity call = .ok results ∧
        Ready index rows columns capacity npu')
      fun error npu' => hostAnswer math index capacity call = .error error ∧
        Ready index rows columns capacity npu' := by
  have hindex := hready.index_eq
  subst hindex
  unfold NpuHnsw.searchMany
  simp only [Effect.ensures_bind, Effect.ensures_get]
  cases hmatrix : normalizeQueries npu.index call.queries capacity with
  | error error =>
    have hupdate : updateQueryBuffer npu.index call.queries call.k call.efSearch npu.queryBuffer =
        .error error := by
      rw [updateQueryBuffer, hready.query.1, hcapacity, ok_bind, hmatrix]
      rfl
    rw [hupdate]
    have hanswer : hostAnswer math npu.index capacity call = .error error := by
      rw [hostAnswer, hmatrix]
      rfl
    exact ⟨hanswer, hready⟩
  | ok matrix =>
    cases hparameters : validateSearchParameters npu.index call.k call.efSearch with
    | error error =>
      have hupdate : updateQueryBuffer npu.index call.queries call.k call.efSearch
          npu.queryBuffer = .error error := by
        rw [updateQueryBuffer, hready.query.1, hcapacity, ok_bind, hmatrix, ok_bind, hparameters]
        rfl
      rw [hupdate]
      have hanswer : hostAnswer math npu.index capacity call = .error error := by
        rw [hostAnswer, hmatrix, ok_bind, hparameters]
        rfl
      exact ⟨hanswer, hready⟩
    | ok =>
      have hupdate : updateQueryBuffer npu.index call.queries call.k call.efSearch
          npu.queryBuffer = .ok (matrix, writeQueries npu.index capacity call.efSearch.toNat
            call.k.toNat matrix npu.queryBuffer) := by
        rw [updateQueryBuffer, hready.query.1, hcapacity, ok_bind, hmatrix, ok_bind, hparameters,
          ok_bind]
      have haccepts := (validateSearchParameters_eq_ok_iff hfits).1 hparameters
      have hspec := normalizeQueries_spec hfits hmatrix
      obtain ⟨outcomes, output, hsearches, hrun, -, houtput, hunpack⟩ :=
        runInvocations_spec math hfits hcapacity hready haccepts hspec
      have hpayload : queryHeader + columns ≤ chunkElements := by
        have hpayload := hfits.payload_le
        rw [Nat.mul_succ] at hpayload
        omega
      have hreadyAfter : Ready npu.index rows columns capacity
          { npu with
            queryBuffer := writeQueries npu.index capacity call.efSearch.toNat call.k.toNat matrix
              npu.queryBuffer
            outputBuffer := output } :=
        ⟨rfl, writeQueries_holdsBuffer hready.query hpayload hspec.1
          fun query h => (hspec.2.2 query h).1, hready.graph, houtput⟩
      have hanswer : hostAnswer math npu.index capacity call = answerOf call.k.toNat outcomes := by
        rw [hostAnswer, hmatrix, ok_bind, hparameters, ok_bind, hsearches, ok_bind]
      rw [hupdate]
      change Effect.Ensures (Effect.ofExcept (runProgram math call _)) _ _ _
      rw [runProgram, hrun]
      change Effect.Ensures (Effect.ofExcept (unpackResults npu.index _ _ _ output)) _ _ _
      rw [hunpack, hanswer]
      cases hresults : answerOf call.k.toNat outcomes with
      | error error => exact ⟨rfl, hreadyAfter⟩
      | ok results =>
        change Effect.Ensures (if call.verify then _ else _) _ _ _
        split_ifs
        · rw [Effect.ensures_bind, verifyResults_eq math hsearches hresults]
          exact ⟨rfl, hreadyAfter⟩
        · exact ⟨rfl, hreadyAfter⟩

/-- The device after the searches. -/
def NpuHnsw.after (math : DistanceArithmetic) : List SearchCall → NpuHnsw → NpuHnsw
  | [], npu => npu
  | call :: calls, npu => NpuHnsw.after math calls (NpuHnsw.searchMany math call npu).2

/-- If the host accepts the arguments of a search, the kernel stays in its buffers and meets no
bound of its loops. -/
def StaysWithinBounds (math : DistanceArithmetic) (call : SearchCall) (npu : NpuHnsw) : Prop :=
  ∀ matrix queryBuffer, updateQueryBuffer npu.index call.queries call.k call.efSearch
      npu.queryBuffer = .ok (matrix, queryBuffer) →
    ∃ output, runInvocations math call.arrays queryBuffer npu.graphBuffer npu.outputBuffer =
        .ok output ∧ ∀ chunk ∈ output, WithinBounds chunk

theorem staysWithinBounds_of_ready (hfits : Fits index rows columns)
    (hcapacity : validateQueryCapacity capacity = .ok ()) {npu : NpuHnsw}
    (hready : Ready index rows columns capacity npu) (call : SearchCall) :
    StaysWithinBounds math call npu := by
  intro matrix queryBuffer hupdate
  rw [updateQueryBuffer, hready.query.1, hcapacity, ok_bind, hready.index_eq] at hupdate
  obtain ⟨matrix', hmatrix, hupdate⟩ := bind_eq_ok_iff.1 hupdate
  obtain ⟨⟨⟩, hparameters, hupdate⟩ := bind_eq_ok_iff.1 hupdate
  obtain ⟨rfl, rfl⟩ := Prod.ext_iff.1 (Except.ok.inj hupdate)
  have haccepts := (validateSearchParameters_eq_ok_iff hfits).1 hparameters
  obtain ⟨-, output, -, hrun, hbounds, -⟩ := runInvocations_spec math hfits hcapacity hready
    haccepts (normalizeQueries_spec hfits hmatrix)
  exact ⟨output, hrun, hbounds⟩

/-- A run of searches answers as the host does, and leaves the buffers ready. -/
theorem run_spec (hfits : Fits index rows columns)
    (hcapacity : validateQueryCapacity capacity = .ok ()) {npu : NpuHnsw}
    (hready : Ready index rows columns capacity npu) (calls : List SearchCall) :
    NpuHnsw.run math calls npu = calls.map (hostAnswer math index capacity) ∧
      Ready index rows columns capacity (npu.after math calls) := by
  induction calls generalizing npu with
  | nil => exact ⟨rfl, hready⟩
  | cons call calls ih =>
    have hspec := searchMany_spec math hfits hcapacity hready call
    rw [NpuHnsw.run, NpuHnsw.after, List.map_cons]
    unfold Effect.Ensures at hspec
    split at hspec
    · rename_i results npu' hrun
      rw [hrun]
      obtain ⟨hanswers, hready⟩ := ih hspec.2
      exact ⟨congrArg₂ List.cons hspec.1.symm hanswers, hready⟩
    · rename_i error npu' hrun
      rw [hrun]
      obtain ⟨hanswers, hready⟩ := ih hspec.2
      exact ⟨congrArg₂ List.cons hspec.1.symm hanswers, hready⟩

/-- Whatever was searched before, and whatever the kernel's arrays hold, a search on the device
answers as the host does, and the kernel stays within its buffers and its bounds. -/
theorem npu_searches_as_host (math : DistanceArithmetic) {index : HnswIndex} {capacity : ℕ}
    {outputBuffer : List (List Word)} {npu : NpuHnsw} (hlength : outputBuffer.length = capacity)
    (houtput : ∀ chunk ∈ outputBuffer, chunk.length = chunkElements)
    (hcreate : NpuHnsw.create index capacity outputBuffer = .ok npu) (calls : List SearchCall) :
    NpuHnsw.run math calls npu = calls.map (hostAnswer math index capacity) ∧
      ∀ next, StaysWithinBounds math next (npu.after math calls) := by
  unfold NpuHnsw.create at hcreate
  obtain ⟨⟨⟩, hindex, hcreate⟩ := bind_eq_ok_iff.1 hcreate
  obtain ⟨hbatch, hcreate⟩ := refuseIf_bind_eq_ok_iff.1 hcreate
  have hcapacity : validateQueryCapacity capacity = .ok () := refuseIf_of_not _ hbatch
  obtain ⟨rows, columns, hfits⟩ := exists_fits hindex
  obtain ⟨chunks, hchunks, hholds⟩ := makeQueryBuffer_eq hfits hindex hcapacity
  rw [packGraph_eq hfits hindex hcapacity, ok_bind, hchunks, ok_bind, Except.ok.injEq] at hcreate
  subst hcreate
  have hready : Ready index rows columns capacity ⟨index, chunks,
      (List.range capacity).map fun row =>
        if startsInvocation capacity row then graphChunk index rows columns else zeroChunk,
      outputBuffer⟩ := ⟨rfl, hholds, rfl, hlength, houtput⟩
  obtain ⟨hanswers, hready⟩ := run_spec math hfits hcapacity hready calls
  exact ⟨hanswers, staysWithinBounds_of_ready math hfits hcapacity hready⟩

theorem exists_create (hcapacity : validateQueryCapacity capacity = .ok ())
    (hindex : validateCapacity index = .ok ()) (outputBuffer : List (List Word)) :
    ∃ npu, NpuHnsw.create index capacity outputBuffer = .ok npu := by
  obtain ⟨rows, columns, hfits⟩ := exists_fits hindex
  obtain ⟨chunks, hchunks, -⟩ := makeQueryBuffer_eq hfits hindex hcapacity
  have hbatch : ¬(capacity < replicas ∨ maxBatchQueries < capacity ∨ capacity % replicas ≠ 0) :=
    refuseIf_eq_ok_iff.1 hcapacity
  rw [NpuHnsw.create, hindex, ok_bind, refuseIf_of_not _ hbatch, ok_bind,
    packGraph_eq hfits hindex hcapacity, ok_bind, hchunks, ok_bind]
  exact ⟨_, rfl⟩

end Searches

/-! ### Two vectors -/

/-- The vectors 0 and 1, the second one on two levels. -/
def zeroAndOne : HnswIndex where
  vectors := ⟨[2, 1], .float32 [0, Binary32.one], rfl⟩
  levels := [0, 1]
  neighbors := [[[1]], [[0], []]]
  entryPoint := 1
  maxLevel := 1
  m := 2
  valid := by decide +kernel

/-- The arithmetic of the numbers 0 and 1. -/
def smallArithmetic : DistanceArithmetic where
  sub a b := if a = b then 0 else if b = 0 then a else Binary32.minusOne
  square word := if word = 0 then Distance.zero else ⟨Binary32.one, by decide⟩
  add a b := if a = Distance.zero then b else a

/-- The search of both vectors from the first one. -/
def searchBoth : SearchCall where
  queries := ⟨[1], [0], rfl⟩
  k := 2
  efSearch := 2
  verify := true
  arrays _ _ := ⟨List.replicate maxNodes (toLex (Distance.zero, 0)),
    List.replicate maxEf (toLex (Distance.zero, 0)), rfl, rfl⟩

theorem npu_searches_as_host_zeroAndOne : ∃ npu,
    NpuHnsw.create zeroAndOne 4 (List.replicate 4 zeroChunk) = .ok npu ∧
      NpuHnsw.run smallArithmetic [searchBoth, searchBoth] npu =
        List.replicate 2 (.ok [⟨[0, 1], [0, Binary32.one], ⟨2, 2, 0, 2, false, 1, 2⟩⟩]) ∧
      StaysWithinBounds smallArithmetic searchBoth
        (npu.after smallArithmetic [searchBoth, searchBoth]) := by
  obtain ⟨npu, hcreate⟩ := @exists_create zeroAndOne 4 rfl
    (by decide +kernel) (List.replicate 4 zeroChunk)
  have hanswer : hostAnswer smallArithmetic zeroAndOne 4 searchBoth =
      .ok [⟨[0, 1], [0, Binary32.one], ⟨2, 2, 0, 2, false, 1, 2⟩⟩] := by
    decide +kernel
  obtain ⟨hanswers, hstays⟩ := @npu_searches_as_host smallArithmetic zeroAndOne 4 _ _ rfl
    (fun chunk h => by rw [List.eq_of_mem_replicate h]; exact List.length_replicate) hcreate
      [searchBoth, searchBoth]
  refine ⟨npu, hcreate, ?_, hstays searchBoth⟩
  rw [hanswers]
  exact congrArg₂ List.cons hanswer (congrArg₂ List.cons hanswer rfl)

end HnswPacking

end Npunlock
