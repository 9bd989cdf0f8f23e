import Mathlib.Algebra.BigOperators.Group.List.Basic
import Mathlib.Data.List.SplitLengths
import Mathlib.Data.Set.List
import Npunlock.HnswIndex

/-!
# Files of graph indices

A file keeps the links of an index in an array of full width, with the count of each layer : the
array is minus one past the links of a layer, and the counts are zero above the level of a node.
These checks make the form canonical (`index_file_round_trip`).
-/

namespace Npunlock

/-! ## Arrays of a file -/

namespace NpyArray

/-- The arrays that a file is made of. -/
def vector (items : List Int32) : NpyArray where
  shape := [items.length]
  items := .int32 items
  length_items := by simp [NpyItems.length]

def matrix (rows columns : ℕ) (item : ℕ → ℕ → Int32) : NpyArray where
  shape := [rows, columns]
  items := .int32 ((List.range rows).flatMap fun i => (List.range columns).map (item i))
  length_items := by simp [NpyItems.length, List.length_flatMap]

def cube (planes rows columns : ℕ) (item : ℕ → ℕ → ℕ → Int32) : NpyArray where
  shape := [planes, rows, columns]
  items := .int32 ((List.range planes).flatMap fun i =>
    (List.range rows).flatMap fun j => (List.range columns).map (item i j))
  length_items := by simp [NpyItems.length, List.length_flatMap]

def marker (text : String) : NpyArray where
  shape := [1]
  items := .text [text]
  length_items := rfl

def int32s? (array : NpyArray) : Option (List Int32) :=
  match array.items with
  | .int32 items => some items
  | _ => none

/-- The only item of an array of one. -/
def scalar? (array : NpyArray) : Option ℤ :=
  match array.shape, array.items with
  | [1], .int32 [item] => some item.toInt
  | _, _ => none

end NpyArray

/-- The rows of a matrix. -/
def rowsOf {α : Type} (rows columns : ℕ) (items : List α) : List (List α) :=
  (List.replicate rows columns).splitLengths items

/-- The rows of the planes of a cube. -/
def planesOf {α : Type} (planes rows columns : ℕ) (items : List α) : List (List (List α)) :=
  (rowsOf planes (rows * columns) items).map (rowsOf rows columns)

/-- `row[start:]`, with a start that may count from the end. -/
def sliceFrom {α : Type} (start : ℤ) (row : List α) : List α :=
  row.drop (if start < 0 then (row.length + start).toNat else start.toNat)

/-- A conversion to `np.int32`. NumPy 2 raises for a value out of range, and so does NumPy 1 on
Windows. NumPy 1.26 on Linux only warns and wraps the value. -/
def toInt32 (value : ℤ) : Except String Int32 :=
  if -2 ^ 31 ≤ value ∧ value < 2 ^ 31 then .ok (Int32.ofInt value) else .error "OverflowError"

namespace HnswIndex

/-! ## Files -/

def fileFormat : String :=
  "npunlock-hnsw-v1"

def requiredFields : List String :=
  ["format", "vectors", "levels", "adjacency", "counts", "entry_point", "max_level", "m"]

/-- The links of a layer of a node, none above its layers. -/
def linksAt {α : Type} (neighbors : List (List (List α))) (node layer : ℕ) : List α :=
  (neighbors.getD node []).getD layer []

/-- `adjacency` in `save_index`, after its loops. -/
def adjacencyOf (rows : ℕ) (maxLevel m : ℤ) (links : List (List (List Int32))) : NpyArray :=
  .cube rows (maxLevel + 1).toNat m.toNat fun node layer i =>
    (linksAt links node layer).getD i (-1)

/-- `counts` in `save_index`, after its loops. -/
def countsOf (rows : ℕ) (maxLevel : ℤ) (links : List (List (List Int32))) : NpyArray :=
  .matrix rows (maxLevel + 1).toNat fun node layer =>
    Int32.ofInt (linksAt links node layer).length

/-- `save_index`, the arrays of the archive by name. -/
def saveIndex (index : HnswIndex) : Except String (List (String × NpyArray)) := do
  let rows := index.vectors.shape.headD 0
  let links ← index.neighbors.mapM fun layers => layers.mapM fun links => links.mapM toInt32
  let levels ← index.levels.mapM toInt32
  let entryPoint ← toInt32 index.entryPoint
  let maxLevel ← toInt32 index.maxLevel
  let m ← toInt32 index.m
  .ok [("format", .marker fileFormat), ("vectors", index.vectors), ("levels", .vector levels),
    ("adjacency", adjacencyOf rows index.maxLevel index.m links),
    ("counts", countsOf rows index.maxLevel links), ("entry_point", .vector [entryPoint]),
    ("max_level", .vector [maxLevel]), ("m", .vector [m])]

/-- The links of a layer that the file keeps with their count. -/
def loadLinks (m : ℤ) (counts : List Int32) (adjacency : List (List Int32)) (layer : ℕ) :
    Except String (List ℤ) :=
  match counts[layer]?, adjacency[layer]? with
  | some count, some row => do
    refuseIf (¬(0 ≤ count.toInt ∧ count.toInt ≤ m) ∨ ∃ item ∈ row.drop count.toInt.toNat, item ≠ -1)
      "serialized index contains invalid adjacency padding"
    .ok ((row.take count.toInt.toNat).map Int32.toInt)
  | _, _ => .error "IndexError"

/-- The layers of a node. -/
def loadNode (m : ℤ) (node : ℤ × List Int32 × List (List Int32)) :
    Except String (List (List ℤ)) := do
  let start := node.1 + 1
  let layers ← (List.range start.toNat).mapM (loadLinks m node.2.1 node.2.2)
  refuseIf ((∃ count ∈ sliceFrom start node.2.1, count ≠ 0) ∨
    ∃ item ∈ (sliceFrom start node.2.2).flatten, item ≠ -1)
    "serialized index contains links above a node level"
  .ok layers

/-- `archive[name]`. -/
def arrayOf (archive : List (String × NpyArray)) (name : String) : Except String NpyArray :=
  match archive.lookup name with
  | some array => .ok array
  | none => .error "KeyError"

/-- The links of all nodes. -/
def loadNeighbors (rows : ℕ) (maxLevel m : ℤ) (levels : List ℤ) (adjacency counts : NpyArray) :
    Except String (List (List (List ℤ))) :=
  match adjacency.int32s?, counts.int32s? with
  | some links, some sizes => do
    refuseIf (adjacency.shape.map Int.ofNat ≠ [(rows : ℤ), maxLevel + 1, m] ∨
      counts.shape.map Int.ofNat ≠ [(rows : ℤ), maxLevel + 1])
      "serialized index adjacency is malformed"
    let maxLevels := (maxLevel + 1).toNat
    (levels.zip ((rowsOf rows maxLevels sizes).zip
      (planesOf rows maxLevels m.toNat links))).mapM (loadNode m)
  | _, _ => .error "serialized index adjacency is malformed"

/-- `load_index`, after `np.ascontiguousarray(…, dtype=np.float32)` on the vectors. -/
def loadIndex (asFloat32 : NpyArray → Except String NpyArray)
    (archive : List (String × NpyArray)) : Except String HnswIndex := do
  refuseIf (¬((∀ file ∈ archive, file.1 ∈ requiredFields) ∧
    ∀ name ∈ requiredFields, ∃ file ∈ archive, file.1 = name))
    "serialized index has an unexpected field set"
  let format ← arrayOf archive "format"
  refuseIf (format ≠ .marker fileFormat) "serialized index has an unsupported format"
  let vectors ← arrayOf archive "vectors" >>= asFloat32
  let levels ← arrayOf archive "levels"
  let adjacency ← arrayOf archive "adjacency"
  let counts ← arrayOf archive "counts"
  let entryPoint ← arrayOf archive "entry_point"
  let maxLevel ← arrayOf archive "max_level"
  let m ← arrayOf archive "m"
  match entryPoint.scalar?, maxLevel.scalar?, m.scalar? with
  | some entryPoint, some maxLevel, some m =>
    match levels.int32s? with
    | some items => do
      let rows := vectors.shape.headD 0
      refuseIf (levels.shape ≠ [rows]) "serialized index levels are malformed"
      let levels := items.map Int32.toInt
      let neighbors ← loadNeighbors rows maxLevel m levels adjacency counts
      create { vectors, levels, neighbors, entryPoint, maxLevel, m }
    | none => .error "serialized index levels are malformed"
  | _, _, _ => .error "serialized index scalar metadata is malformed"

end HnswIndex

/-! ## Rows and words -/

section Rows

variable {α : Type} {rows columns : ℕ} {items : List α}

theorem length_rowsOf : (rowsOf rows columns items).length = rows := by
  rw [rowsOf, List.length_splitLengths, List.length_replicate]

theorem flatten_rowsOf (h : items.length = rows * columns) :
    (rowsOf rows columns items).flatten = items :=
  List.flatten_splitLengths _ _ (by rw [List.sum_replicate_nat, h])

theorem length_of_mem_rowsOf (h : items.length = rows * columns) {row : List α}
    (hrow : row ∈ rowsOf rows columns items) : row.length = columns := by
  have hlengths : (rowsOf rows columns items).map List.length = List.replicate rows columns :=
    List.map_splitLengths_length _ _ (by rw [List.sum_replicate_nat, h])
  exact List.eq_of_mem_replicate (hlengths ▸ List.mem_map_of_mem hrow)

theorem rowsOf_flatMap {β : Type} {f : β → List α} (hf : ∀ b, (f b).length = columns) :
    ∀ l : List β, rowsOf l.length columns (l.flatMap f) = l.map f
  | [] => rfl
  | b :: l => by
    rw [List.length_cons, rowsOf, List.replicate_succ, List.splitLengths_cons, List.flatMap_cons,
      List.take_left' (hf b), List.drop_left' (hf b), List.map_cons, ← rowsOf_flatMap hf l, rowsOf]

/-- A row is the default from an index on. -/
theorem drop_eq_default_iff {row : List α} {d : α} {n : ℕ} :
    (∀ item ∈ row.drop n, item = d) ↔
      row = (List.range row.length).map ((row.take n).getD · d) := by
  constructor
  · intro h
    refine List.ext_getElem (by simp) fun i hi _ => ?_
    rw [List.getElem_map, List.getElem_range]
    by_cases hn : i < n
    · rw [List.getD_eq_getElem _ _ (by rw [List.length_take]; omega), List.getElem_take]
    · rw [List.getD_eq_default _ _ (by rw [List.length_take]; omega)]
      refine h _ (List.mem_iff_getElem?.2 ⟨i - n, ?_⟩)
      rw [List.getElem?_drop, Nat.add_sub_cancel' (not_lt.1 hn), List.getElem?_eq_getElem hi]
  · intro h item hitem
    obtain ⟨i, hi, rfl⟩ := List.getElem_of_mem hitem
    rw [List.getElem_drop, List.getElem_of_eq h, List.getElem_map, List.getElem_range]
    exact List.getD_eq_default _ _ (by rw [List.length_take]; omega)

end Rows

/-- The cast keeps the value, or fails. -/
theorem toInt32_eq_ok_iff {value : ℤ} {word : Int32} :
    toInt32 value = .ok word ↔ word.toInt = value := by
  unfold toInt32
  split_ifs with h
  · rw [Except.ok.injEq]
    constructor
    · rintro rfl
      exact Int32.toInt_ofInt_of_le h.1 h.2
    · rintro rfl
      exact Int32.ofInt_toInt word
  · refine ⟨fun h => (nomatch h), ?_⟩
    rintro rfl
    exact absurd ⟨word.le_toInt, word.toInt_lt⟩ h

theorem mapM_eq_ok_iff_map {α β : Type} {f : α → Except String β} {g : β → α}
    (h : ∀ {a b}, f a = .ok b ↔ g b = a) {l : List α} {l' : List β} :
    l.mapM f = .ok l' ↔ l'.map g = l := by
  rw [mapM_eq_ok_iff]
  simp only [h]
  constructor
  · intro hlist
    induction hlist with
    | nil => rfl
    | cons hb _ ih => rw [List.map_cons, hb, ih]
  · rintro rfl
    induction l' with
    | nil => exact .nil
    | cons b l' ih => exact .cons rfl ih

/-! ## Layers and nodes of a file -/

namespace HnswIndex

/-- The count and the row of a layer keep its links. -/
structure KeepsLinks (m : ℤ) (links : List Int32) (count : Int32) (row : List Int32) : Prop where
  length_le : (links.length : ℤ) ≤ m
  count_eq : count.toInt = links.length
  row_eq : row = (List.range m.toNat).map (links.getD · (-1))

/-- The counts and the rows of a node keep the links of its layers, and none above them. -/
structure KeepsLayers (m : ℤ) (links : List (List Int32)) (counts : List Int32)
    (rows : List (List Int32)) : Prop where
  length_le : links.length ≤ counts.length
  length_eq : rows.length = counts.length
  layer : ∀ layer count row, counts[layer]? = some count → rows[layer]? = some row →
    KeepsLinks m (links.getD layer []) count row

variable {m : ℤ} {counts : List Int32} {rows : List (List Int32)}

/-- The links of a layer are what its count and its row keep. -/
theorem loadLinks_eq_ok_iff (hrows : ∀ row ∈ rows, (row.length : ℤ) = m) {layer : ℕ}
    {links : List ℤ} :
    loadLinks m counts rows layer = .ok links ↔
      ∃ count row kept, counts[layer]? = some count ∧ rows[layer]? = some row ∧
        KeepsLinks m kept count row ∧ links = kept.map Int32.toInt := by
  unfold loadLinks
  split
  · rename_i count row hcount hrow
    have hlength := hrows row (List.mem_of_getElem? hrow)
    simp only [refuseIf_bind_eq_ok_iff, not_or, not_not, not_exists, not_and, ne_eq,
      Classical.not_imp, Except.ok.injEq, drop_eq_default_iff]
    constructor
    · rintro ⟨⟨⟨hnonneg, hle⟩, hrest⟩, rfl⟩
      have htake : (row.take count.toInt.toNat).length = count.toInt.toNat :=
        List.length_take_of_le (by omega)
      refine ⟨count, row, row.take count.toInt.toNat, hcount, hrow, ⟨?_, ?_, ?_⟩, rfl⟩
      · omega
      · omega
      · rwa [← hlength, Int.toNat_natCast]
    · rintro ⟨count', row', kept, hcount', hrow', hkept, rfl⟩
      obtain rfl := Option.some.inj (hcount.symm.trans hcount')
      obtain rfl := Option.some.inj (hrow.symm.trans hrow')
      have hle := hkept.length_le
      have hcount := hkept.count_eq
      have htake : row.take count.toInt.toNat = kept := by
        refine List.ext_getElem (by rw [List.length_take]; omega) fun i hi hi' => ?_
        rw [List.getElem_take, List.getElem_of_eq hkept.row_eq, List.getElem_map,
          List.getElem_range, List.getD_eq_getElem _ _ hi']
      rw [htake]
      refine ⟨⟨⟨by omega, by omega⟩, ?_⟩, rfl⟩
      rw [← Int.toNat_natCast row.length, hlength]
      exact hkept.row_eq
  · rename_i hnot
    refine ⟨fun h => (nomatch h), ?_⟩
    rintro ⟨count, row, kept, hcount, hrow, -⟩
    exact absurd hrow (hnot count row hcount)

theorem keepsLinks_nil_iff (hm : 0 ≤ m) {count : Int32} {row : List Int32}
    (hrow : (row.length : ℤ) = m) :
    KeepsLinks m [] count row ↔ count = 0 ∧ ∀ item ∈ row, item = -1 := by
  have hdrop := @drop_eq_default_iff _ row (-1) 0
  rw [List.drop_zero, List.take_zero] at hdrop
  rw [hdrop]
  constructor
  · rintro ⟨-, hcount, hrow'⟩
    refine ⟨Int32.toInt_inj.1 hcount, ?_⟩
    rwa [← Int.toNat_natCast row.length, hrow]
  · rintro ⟨rfl, hrow'⟩
    refine ⟨hm, rfl, ?_⟩
    rwa [← Int.toNat_natCast row.length, hrow] at hrow'

/-- The layers of a node are what its counts and rows keep. -/
theorem loadNode_eq_ok_iff (hm : 0 ≤ m) (hlength : rows.length = counts.length)
    (hrows : ∀ row ∈ rows, (row.length : ℤ) = m) {level : ℤ} (hlevel : 0 ≤ level)
    {layers : List (List ℤ)} :
    loadNode m (level, counts, rows) = .ok layers ↔
      ∃ links : List (List Int32), layers = links.map (List.map Int32.toInt) ∧
        (links.length : ℤ) = level + 1 ∧ KeepsLayers m links counts rows := by
  have hstart : ¬level + 1 < 0 := by omega
  unfold loadNode
  simp only [bind_eq_ok_iff, refuseIf_eq_ok_iff, mapM_eq_ok_iff, loadLinks_eq_ok_iff hrows,
    sliceFrom, if_neg hstart, not_or, not_exists, not_and, ne_eq, not_not]
  constructor
  · rintro ⟨layers', hlayers, _, ⟨hcounts, hrest⟩, hlayers'⟩
    obtain rfl := Except.ok.inj hlayers'
    have hlen := hlayers.length_eq
    rw [List.length_range] at hlen
    have hlayer : ∀ layer (hlayer : layer < layers'.length), ∃ count row kept,
        counts[layer]? = some count ∧ rows[layer]? = some row ∧ KeepsLinks m kept count row ∧
          layers'[layer] = kept.map Int32.toInt := by
      intro layer hlayer
      have hget := hlayers.get (by rw [List.length_range]; omega) hlayer
      rwa [List.get_eq_getElem, List.get_eq_getElem, List.getElem_range] at hget
    have hback (kept : List Int32) : (kept.map Int32.toInt).map Int32.ofInt = kept := by
      rw [List.map_map]
      exact (List.map_congr_left fun word _ => word.ofInt_toInt).trans kept.map_id
    refine ⟨layers'.map (List.map Int32.ofInt), ?_, by rw [List.length_map]; omega, ?_, hlength, ?_⟩
    · rw [List.map_map]
      refine List.ext_getElem (by simp) fun layer hlt _ => ?_
      obtain ⟨count, row, kept, -, -, -, heq⟩ := hlayer layer hlt
      rw [List.getElem_map, Function.comp_apply, heq, hback]
    · rw [List.length_map]
      by_contra hlt
      obtain ⟨count, row, kept, hcount, -⟩ := hlayer counts.length (by omega)
      simp at hcount
    · intro layer count row hcount hrow
      by_cases hlt : layer < layers'.length
      · obtain ⟨count', row', kept, hcount', hrow', hkeeps, heq⟩ := hlayer layer hlt
        obtain rfl := Option.some.inj (hcount.symm.trans hcount')
        obtain rfl := Option.some.inj (hrow.symm.trans hrow')
        rw [List.getD_eq_getElem _ _ (by rwa [List.length_map]), List.getElem_map, heq, hback]
        exact hkeeps
      · rw [List.getD_eq_default _ _ (by rw [List.length_map]; omega),
          keepsLinks_nil_iff hm (hrows row (List.mem_of_getElem? hrow))]
        have hdrop : layer = (level + 1).toNat + (layer - (level + 1).toNat) := by omega
        rw [hdrop, ← List.getElem?_drop] at hcount hrow
        exact ⟨hcounts count (List.mem_of_getElem? hcount), fun item hitem =>
          hrest item (List.mem_flatten.2 ⟨row, List.mem_of_getElem? hrow, hitem⟩)⟩
  · rintro ⟨links, rfl, hlinks, hkeeps⟩
    have hle := hkeeps.length_le
    have habove : ∀ layer count row, (level + 1).toNat ≤ layer → counts[layer]? = some count →
        rows[layer]? = some row → count = 0 ∧ ∀ item ∈ row, item = -1 := by
      intro layer count row hlayer hcount hrow
      have hlayer' := hkeeps.layer layer count row hcount hrow
      rw [List.getD_eq_default _ _ (by omega)] at hlayer'
      exact (keepsLinks_nil_iff hm (hrows row (List.mem_of_getElem? hrow))).1 hlayer'
    refine ⟨_, List.forall₂_iff_get.2 ⟨?_, fun layer hlayer hlayer' => ?_⟩, (), ⟨?_, ?_⟩, rfl⟩
    · rw [List.length_range, List.length_map]
      omega
    · rw [List.length_map] at hlayer'
      have hcount : layer < counts.length := by omega
      have hrow : layer < rows.length := by omega
      refine ⟨counts[layer], rows[layer], links[layer], ?_, ?_, ?_, ?_⟩
      · simp [hcount]
      · simp [hrow]
      · have hlayer := hkeeps.layer layer _ _ (List.getElem?_eq_getElem hcount)
          (List.getElem?_eq_getElem hrow)
        rwa [List.getD_eq_getElem _ _ hlayer'] at hlayer
      · simp
    · intro count hcount
      obtain ⟨i, hi⟩ := List.mem_iff_getElem?.1 hcount
      rw [List.getElem?_drop] at hi
      have hlt := (List.getElem?_eq_some_iff.1 hi).1
      exact (habove _ count _ (by omega) hi (List.getElem?_eq_getElem (hlength ▸ hlt))).1
    · intro item hitem
      obtain ⟨row, hrow, hitem⟩ := List.mem_flatten.1 hitem
      obtain ⟨i, hi⟩ := List.mem_iff_getElem?.1 hrow
      rw [List.getElem?_drop] at hi
      have hlt := (List.getElem?_eq_some_iff.1 hi).1
      exact (habove _ _ row (by omega) (List.getElem?_eq_getElem (hlength ▸ hlt)) hi).2 item hitem

end HnswIndex

/-! ## Files of an index -/

section Planes

variable {α : Type} {planes rows columns : ℕ} {items : List α}

theorem length_planesOf : (planesOf planes rows columns items).length = planes := by
  rw [planesOf, List.length_map, length_rowsOf]

theorem flatten_planesOf (h : items.length = planes * (rows * columns)) :
    ((planesOf planes rows columns items).map List.flatten).flatten = items := by
  have hplanes : (planesOf planes rows columns items).map List.flatten =
      rowsOf planes (rows * columns) items := by
    rw [planesOf, List.map_map]
    refine (List.map_congr_left fun plane hplane => ?_).trans (List.map_id _)
    exact flatten_rowsOf (length_of_mem_rowsOf h hplane)
  rw [hplanes, flatten_rowsOf h]

theorem length_of_mem_planesOf (h : items.length = planes * (rows * columns))
    {plane : List (List α)} (hplane : plane ∈ planesOf planes rows columns items) :
    plane.length = rows ∧ ∀ row ∈ plane, row.length = columns := by
  obtain ⟨flat, hflat, rfl⟩ := List.mem_map.1 hplane
  exact ⟨length_rowsOf, fun row => length_of_mem_rowsOf (length_of_mem_rowsOf h hflat)⟩

theorem planesOf_cube (item : ℕ → ℕ → ℕ → α) :
    planesOf planes rows columns ((List.range planes).flatMap fun i =>
        (List.range rows).flatMap fun j => (List.range columns).map (item i j)) =
      (List.range planes).map fun i => (List.range rows).map fun j =>
        (List.range columns).map (item i j) := by
  have hplane (i : ℕ) : ((List.range rows).flatMap fun j =>
      (List.range columns).map (item i j)).length = rows * columns := by
    simp [List.length_flatMap]
  have hrow (i : ℕ) : rowsOf rows columns ((List.range rows).flatMap fun j =>
      (List.range columns).map (item i j)) =
        (List.range rows).map fun j => (List.range columns).map (item i j) := by
    have hcolumns (j : ℕ) : ((List.range columns).map (item i j)).length = columns := by simp
    have h := rowsOf_flatMap hcolumns (List.range rows)
    rwa [List.length_range] at h
  have hplanes := rowsOf_flatMap hplane (List.range planes)
  rw [List.length_range] at hplanes
  rw [planesOf, hplanes, List.map_map]
  exact List.map_congr_left fun i _ => hrow i

theorem rowsOf_matrix (item : ℕ → ℕ → α) :
    rowsOf rows columns ((List.range rows).flatMap fun i => (List.range columns).map (item i)) =
      (List.range rows).map fun i => (List.range columns).map (item i) := by
  have hcolumns (i : ℕ) : ((List.range columns).map (item i)).length = columns := by simp
  have h := rowsOf_flatMap hcolumns (List.range rows)
  rwa [List.length_range] at h

end Planes

theorem forall₂_exists_iff {α β γ : Type} {P : α → γ → Prop} {f : γ → β} {l : List α}
    {l' : List β} :
    List.Forall₂ (fun a b => ∃ c, b = f c ∧ P a c) l l' ↔
      ∃ l'', l' = l''.map f ∧ List.Forall₂ P l l'' := by
  constructor
  · intro h
    induction h with
    | nil => exact ⟨[], rfl, .nil⟩
    | cons hab _ ih =>
      obtain ⟨c, rfl, hac⟩ := hab
      obtain ⟨l'', rfl, hrest⟩ := ih
      exact ⟨c :: l'', rfl, .cons hac hrest⟩
  · rintro ⟨l'', rfl, h⟩
    induction h with
    | nil => exact .nil
    | cons hac _ ih => exact .cons ⟨_, rfl, hac⟩ ih

theorem forall₂_imp_of_mem {α β : Type} {R S : α → β → Prop} {l : List α} {l' : List β}
    (h : List.Forall₂ R l l') (himp : ∀ a ∈ l, ∀ b, R a b → S a b) : List.Forall₂ S l l' := by
  induction h with
  | nil => exact .nil
  | cons hab _ ih =>
    rw [List.forall_mem_cons] at himp
    exact .cons (himp.1 _ hab) (ih himp.2)

theorem NpyArray.eq_iff {array array' : NpyArray} :
    array = array' ↔ array.shape = array'.shape ∧ array.items = array'.items := by
  cases array
  cases array'
  simp

namespace HnswIndex

/-- The links fit a file of this many layers and links. -/
def FitsLayers (maxLevels : ℕ) (m : ℤ) (links : List (List Int32)) : Prop :=
  links.length ≤ maxLevels ∧ ∀ layer ∈ links, (layer.length : ℤ) ≤ m

theorem keepsLayers_iff {m : ℤ} (hm : m < 2 ^ 31) (maxLevels : ℕ) {links : List (List Int32)}
    {counts : List Int32} {rows : List (List Int32)} (hcounts : counts.length = maxLevels)
    (hrows : rows.length = maxLevels) (hnonneg : 0 ≤ m) :
    KeepsLayers m links counts rows ↔ FitsLayers maxLevels m links ∧
      counts = (List.range maxLevels).map (fun layer =>
        Int32.ofInt (links.getD layer []).length) ∧
      rows = (List.range maxLevels).map fun layer =>
        (List.range m.toNat).map ((links.getD layer []).getD · (-1)) := by
  constructor
  · rintro ⟨hlength, -, hlayer⟩
    have hget (layer : ℕ) (h : layer < maxLevels) := hlayer layer _ _
      (List.getElem?_eq_getElem (hcounts ▸ h)) (List.getElem?_eq_getElem (hrows ▸ h))
    refine ⟨⟨hcounts ▸ hlength, fun layer h => ?_⟩, ?_, ?_⟩
    · obtain ⟨i, hi, rfl⟩ := List.getElem_of_mem h
      have hi' := (hget i (by omega)).length_le
      rwa [List.getD_eq_getElem _ _ hi] at hi'
    · refine List.ext_getElem (by simp [hcounts]) fun layer h _ => ?_
      rw [List.getElem_map, List.getElem_range, ← (hget layer (by omega)).count_eq,
        Int32.ofInt_toInt]
    · refine List.ext_getElem (by simp [hrows]) fun layer h _ => ?_
      rw [List.getElem_map, List.getElem_range, ← (hget layer (by omega)).row_eq]
  · rintro ⟨⟨hlength, hlinks⟩, hcounts', hrows'⟩
    refine ⟨hcounts ▸ hlength, hrows.trans hcounts.symm, fun layer count row hcount hrow => ?_⟩
    have hlt : layer < maxLevels := hcounts ▸ (List.getElem?_eq_some_iff.1 hcount).1
    have hle : ((links.getD layer []).length : ℤ) ≤ m := by
      by_cases h : layer < links.length
      · rw [List.getD_eq_getElem _ _ h]
        exact hlinks _ (List.getElem_mem h)
      · rw [List.getD_eq_default _ _ (by omega)]
        exact hnonneg
    rw [hcounts', List.getElem?_map, List.getElem?_range hlt] at hcount
    rw [hrows', List.getElem?_map, List.getElem?_range hlt] at hrow
    obtain rfl := Option.some.inj hcount
    obtain rfl := Option.some.inj hrow
    exact ⟨hle, Int32.toInt_ofInt_of_le (by omega) (by omega), rfl⟩

variable {rows : ℕ} {maxLevel m : ℤ} {levels : List ℤ} {adjacency counts : NpyArray}

theorem int32s?_eq_some_iff {array : NpyArray} {items : List Int32} :
    array.int32s? = some items ↔ array.items = .int32 items := by
  unfold NpyArray.int32s?
  split <;> simp_all

/-- The level, the counts and the rows of a node keep its links. -/
structure KeepsNode (maxLevels : ℕ) (m : ℤ) (node : ℤ × List Int32 × List (List Int32))
    (links : List (List Int32)) : Prop where
  length_eq : (links.length : ℤ) = node.1 + 1
  fits : FitsLayers maxLevels m links
  counts_eq : node.2.1 = (List.range maxLevels).map fun layer =>
    Int32.ofInt (links.getD layer []).length
  rows_eq : node.2.2 = (List.range maxLevels).map fun layer =>
    (List.range m.toNat).map ((links.getD layer []).getD · (-1))

theorem loadNode_eq_ok_iff_keepsNode (hnonneg : 0 ≤ m) (hm : m < 2 ^ 31) {maxLevels : ℕ}
    {node : ℤ × List Int32 × List (List Int32)} (hlevel : 0 ≤ node.1)
    (hcounts : node.2.1.length = maxLevels)
    (hrows : node.2.2.length = maxLevels ∧ ∀ row ∈ node.2.2, row.length = m.toNat)
    {layers : List (List ℤ)} :
    loadNode m node = .ok layers ↔
      ∃ links : List (List Int32), layers = links.map (List.map Int32.toInt) ∧
        KeepsNode maxLevels m node links := by
  obtain ⟨level, counts, rows⟩ := node
  rw [loadNode_eq_ok_iff hnonneg (hrows.1.trans hcounts.symm)
    (fun row h => by rw [hrows.2 row h, Int.toNat_of_nonneg hnonneg]) hlevel]
  simp only [keepsLayers_iff hm maxLevels hcounts hrows.1 hnonneg]
  constructor
  all_goals
    rintro ⟨links, rfl, hlength, hfits, hcounts, hrows⟩
    exact ⟨links, rfl, hlength, hfits, hcounts, hrows⟩

theorem loadNeighbors_eq_ok_iff (hlevels : ∀ level ∈ levels, 0 ≤ level)
    (hlength : levels.length = rows) (hmaxLevel : 0 ≤ maxLevel + 1) (hnonneg : 0 ≤ m)
    (hm : m < 2 ^ 31) {neighbors : List (List (List ℤ))} :
    loadNeighbors rows maxLevel m levels adjacency counts = .ok neighbors ↔
      ∃ links : List (List (List Int32)),
        neighbors = links.map (List.map (List.map Int32.toInt)) ∧
          List.Forall₂ (fun level layers => (layers.length : ℤ) = level + 1 ∧
            FitsLayers (maxLevel + 1).toNat m layers) levels links ∧
            adjacency = adjacencyOf rows maxLevel m links ∧
              counts = countsOf rows maxLevel links := by
  obtain ⟨maxLevels, hmaxLevels⟩ := Int.eq_ofNat_of_zero_le hmaxLevel
  obtain ⟨width, rfl⟩ := Int.eq_ofNat_of_zero_le hnonneg
  unfold adjacencyOf countsOf loadNeighbors
  rw [hmaxLevels, Int.toNat_natCast, Int.toNat_natCast]
  constructor
  · intro h
    split at h
    · rename_i items sizes hitems hsizes
      rw [int32s?_eq_some_iff] at hitems hsizes
      obtain ⟨hshapes, h⟩ := refuseIf_bind_eq_ok_iff.1 h
      rw [not_or, not_not, not_not] at hshapes
      have hshape : adjacency.shape = [rows, maxLevels, width] :=
        List.map_injective_iff.2 Int.ofNat_injective hshapes.1
      have hshape' : counts.shape = [rows, maxLevels] :=
        List.map_injective_iff.2 Int.ofNat_injective hshapes.2
      have hlinks : items.length = rows * (maxLevels * width) := by
        simpa [hitems, hshape, NpyItems.length] using adjacency.length_items
      have hcounts : sizes.length = rows * maxLevels := by
        simpa [hsizes, hshape', NpyItems.length] using counts.length_items
      have hnodes : List.Forall₂ (fun node layers => ∃ links : List (List Int32),
          layers = links.map (List.map Int32.toInt) ∧ KeepsNode maxLevels width node links)
          (levels.zip ((rowsOf rows maxLevels sizes).zip (planesOf rows maxLevels width items)))
          neighbors := by
        refine forall₂_imp_of_mem (mapM_eq_ok_iff.1 h) fun node hnode layers hlayers => ?_
        obtain ⟨hlevel, hpair⟩ := List.of_mem_zip hnode
        obtain ⟨hsize, hplane⟩ := List.of_mem_zip hpair
        exact (loadNode_eq_ok_iff_keepsNode hnonneg hm (hlevels _ hlevel)
          (length_of_mem_rowsOf hcounts hsize) (length_of_mem_planesOf hlinks hplane)).1 hlayers
      obtain ⟨links, rfl, hkept⟩ := forall₂_exists_iff.1 hnodes
      have hlen : links.length = rows := by
        rw [← hkept.length_eq]
        simp [hlength, length_rowsOf, length_planesOf]
      have hnode (i : ℕ) (hi : i < rows) : KeepsNode maxLevels width
          (levels.getD i 0, (rowsOf rows maxLevels sizes).getD i [],
            (planesOf rows maxLevels width items).getD i []) (links.getD i []) := by
        have hget := hkept.get (i := i) (by simp [hlength, length_rowsOf, length_planesOf, hi])
          (by omega)
        simpa [hlength, length_rowsOf, length_planesOf, hi, hlen] using hget
      refine ⟨links, rfl, List.forall₂_iff_get.2 ⟨hlength.trans hlen.symm, fun i hi hi' => ?_⟩,
        NpyArray.eq_iff.2 ⟨hshape, hitems.trans (congrArg NpyItems.int32 ?_)⟩,
        NpyArray.eq_iff.2 ⟨hshape', hsizes.trans (congrArg NpyItems.int32 ?_)⟩⟩
      · have hkeeps := hnode i (by omega)
        simpa [hi, hi'] using And.intro hkeeps.length_eq hkeeps.fits
      · have hplanes : planesOf rows maxLevels width items = (List.range rows).map fun node =>
            (List.range maxLevels).map fun layer =>
              (List.range width).map ((linksAt links node layer).getD · (-1)) := by
          refine List.ext_getElem (by simp [length_planesOf]) fun i hi _ => ?_
          rw [length_planesOf] at hi
          have hkeeps := (hnode i hi).rows_eq
          dsimp only at hkeeps
          rw [Int.toNat_natCast, List.getD_eq_getElem _ _ (by rwa [length_planesOf])] at hkeeps
          rw [hkeeps, List.getElem_map, List.getElem_range]
          rfl
        rw [← flatten_planesOf hlinks, hplanes, List.map_map]
        rfl
      · have hsizes : rowsOf rows maxLevels sizes = (List.range rows).map fun node =>
            (List.range maxLevels).map fun layer =>
              Int32.ofInt (linksAt links node layer).length := by
          refine List.ext_getElem (by simp [length_rowsOf]) fun i hi _ => ?_
          rw [length_rowsOf] at hi
          have hkeeps := (hnode i hi).counts_eq
          dsimp only at hkeeps
          rw [List.getD_eq_getElem _ _ (by rwa [length_rowsOf])] at hkeeps
          rw [hkeeps, List.getElem_map, List.getElem_range]
          rfl
        rw [← flatten_rowsOf hcounts, hsizes]
        rfl
    · cases h
  · rintro ⟨links, rfl, hlinks, rfl, rfl⟩
    have hlen : links.length = rows := hlinks.length_eq.symm.trans hlength
    change (refuseIf _ _ >>= fun _ => _) = _
    rw [refuseIf_bind_eq_ok_iff]
    refine ⟨by simp [NpyArray.cube, NpyArray.matrix], ?_⟩
    dsimp only
    rw [mapM_eq_ok_iff, rowsOf_matrix, planesOf_cube]
    refine List.forall₂_iff_get.2 ⟨by simp [hlength, hlen], fun i hi hi' => ?_⟩
    rw [List.length_map] at hi'
    have hlevel : i < levels.length := by omega
    simp only [List.get_eq_getElem, List.getElem_zip, List.getElem_map, List.getElem_range]
    obtain ⟨hlayers, hfits⟩ := hlinks.get hlevel hi'
    refine (@loadNode_eq_ok_iff_keepsNode width hnonneg hm maxLevels (_, _, _)
      (hlevels _ (List.getElem_mem hlevel)) (by simp) (by simp) _).2
        ⟨links[i], rfl, hlayers, hfits, ?_, ?_⟩
    · simp [linksAt, hi']
    · simp [linksAt, hi']

theorem arrayOf_eq_ok_iff {archive : List (String × NpyArray)} {name : String}
    {array : NpyArray} : arrayOf archive name = .ok array ↔ archive.lookup name = some array := by
  unfold arrayOf
  cases archive.lookup name <;> simp

theorem scalar?_eq_some_iff {array : NpyArray} {value : ℤ} :
    array.scalar? = some value ↔ ∃ word, array = .vector [word] ∧ word.toInt = value := by
  constructor
  · intro h
    unfold NpyArray.scalar? at h
    split at h
    · rename_i word hshape hitems
      exact ⟨word, NpyArray.eq_iff.2 ⟨hshape, hitems⟩, Option.some.inj h⟩
    · cases h
  · rintro ⟨word, rfl, rfl⟩
    rfl

theorem eq_vector_iff {array : NpyArray} {items : List Int32} {rows : ℕ} :
    (array.int32s? = some items ∧ array.shape = [rows]) ↔
      array = .vector items ∧ items.length = rows := by
  rw [int32s?_eq_some_iff]
  constructor
  · rintro ⟨hitems, hshape⟩
    have hlength : items.length = rows := by
      simpa [hitems, hshape, NpyItems.length] using array.length_items
    exact ⟨NpyArray.eq_iff.2 ⟨hshape.trans (congrArg (fun n => [n]) hlength.symm), hitems⟩, hlength⟩
  · rintro ⟨rfl, rfl⟩
    exact ⟨rfl, rfl⟩

/-- The archive is accepted as the index. -/
structure Holds (asFloat32 : NpyArray → Except String NpyArray)
    (archive : List (String × NpyArray)) (index : HnswIndex) : Prop where
  files : (∀ file ∈ archive, file.1 ∈ requiredFields) ∧
    ∀ name ∈ requiredFields, ∃ file ∈ archive, file.1 = name
  format : archive.lookup "format" = some (.marker fileFormat)
  vectors : ∃ stored, archive.lookup "vectors" = some stored ∧ asFloat32 stored = .ok index.vectors
  levels : ∃ items, archive.lookup "levels" = some (.vector items) ∧
    items.length = index.vectors.shape.headD 0 ∧ items.map Int32.toInt = index.levels
  links : ∃ adjacency counts, archive.lookup "adjacency" = some adjacency ∧
    archive.lookup "counts" = some counts ∧
      loadNeighbors (index.vectors.shape.headD 0) index.maxLevel index.m index.levels adjacency
        counts = .ok index.neighbors
  entryPoint : ∃ word, archive.lookup "entry_point" = some (.vector [word]) ∧
    word.toInt = index.entryPoint
  maxLevel : ∃ word, archive.lookup "max_level" = some (.vector [word]) ∧
    word.toInt = index.maxLevel
  m : ∃ word, archive.lookup "m" = some (.vector [word]) ∧ word.toInt = index.m

/-- What `load_index` accepts, and what it makes of it. -/
theorem loadIndex_eq_ok_iff {asFloat32 : NpyArray → Except String NpyArray}
    {archive : List (String × NpyArray)} {index : HnswIndex} :
    loadIndex asFloat32 archive = .ok index ↔ Holds asFloat32 archive index := by
  unfold loadIndex
  simp only [refuseIf_eq_ok_iff, bind_eq_ok_iff, not_not, arrayOf_eq_ok_iff, ne_eq]
  constructor
  · rintro ⟨_, hfiles, _, hformat, _, rfl, vectors, ⟨stored, hstored, hvectors⟩, levels, hlevels,
      adjacency, hadjacency, counts, hcounts, entryPoint, hentry, maxLevel, hmax, m, hm, h⟩
    split at h
    · rename_i entry' max' m' hentry' hmax' hm'
      split at h
      · rename_i items hitems
        obtain ⟨hshape, h⟩ := refuseIf_bind_eq_ok_iff.1 h
        obtain ⟨neighbors, hneighbors, hindex⟩ := bind_eq_ok_iff.1 h
        rw [create_eq_ok_iff] at hindex
        obtain ⟨fields, hvalid⟩ := index
        subst hindex
        obtain ⟨rfl, hlength⟩ := eq_vector_iff.1 ⟨hitems, not_not.1 hshape⟩
        obtain ⟨entry, rfl, rfl⟩ := scalar?_eq_some_iff.1 hentry'
        obtain ⟨max, rfl, rfl⟩ := scalar?_eq_some_iff.1 hmax'
        obtain ⟨width, rfl, rfl⟩ := scalar?_eq_some_iff.1 hm'
        exact ⟨hfiles, hformat, ⟨stored, hstored, hvectors⟩, ⟨items, hlevels, hlength, rfl⟩,
          ⟨adjacency, counts, hadjacency, hcounts, hneighbors⟩, ⟨entry, hentry, rfl⟩,
          ⟨max, hmax, rfl⟩, ⟨width, hm, rfl⟩⟩
      · cases h
    · cases h
  · rintro ⟨hfiles, hformat, ⟨stored, hstored, hvectors⟩, ⟨items, hlevels, hlength, hitems⟩,
      ⟨adjacency, counts, hadjacency, hcounts, hneighbors⟩, ⟨entry, hentry, hentry'⟩,
      ⟨max, hmax, hmax'⟩, ⟨width, hm, hm'⟩⟩
    refine ⟨(), hfiles, _, hformat, (), rfl, _, ⟨stored, hstored, hvectors⟩, _, hlevels, _,
      hadjacency, _, hcounts, _, hentry, _, hmax, _, hm, ?_⟩
    have hscalar {word : Int32} {value : ℤ} (h : word.toInt = value) :
        (NpyArray.vector [word]).scalar? = some value :=
      scalar?_eq_some_iff.2 ⟨word, rfl, h⟩
    obtain ⟨hints, hshape⟩ := eq_vector_iff.2 ⟨rfl, hlength⟩
    rw [hscalar hentry', hscalar hmax', hscalar hm', hints]
    dsimp only
    rw [refuseIf_of_not _ (not_not.2 hshape), hitems, hneighbors]
    exact create_eq_ok_iff.2 rfl

/-- The archive of an index whose numbers are these words. -/
def archiveOf (index : HnswIndex) (links : List (List (List Int32))) (levels : List Int32)
    (entryPoint maxLevel m : Int32) : List (String × NpyArray) :=
  [("format", .marker fileFormat), ("vectors", index.vectors), ("levels", .vector levels),
    ("adjacency", adjacencyOf (index.vectors.shape.headD 0) index.maxLevel index.m links),
    ("counts", countsOf (index.vectors.shape.headD 0) index.maxLevel links),
    ("entry_point", .vector [entryPoint]), ("max_level", .vector [maxLevel]), ("m", .vector [m])]

/-- What `save_index` writes. -/
theorem saveIndex_eq_ok_iff {index : HnswIndex} {archive : List (String × NpyArray)} :
    index.saveIndex = .ok archive ↔ ∃ links levels entryPoint maxLevel m,
      links.map (List.map (List.map Int32.toInt)) = index.neighbors ∧
        levels.map Int32.toInt = index.levels ∧ entryPoint.toInt = index.entryPoint ∧
          maxLevel.toInt = index.maxLevel ∧ m.toInt = index.m ∧
            archive = archiveOf index links levels entryPoint maxLevel m := by
  have hlist {values : List ℤ} {words : List Int32} :
      values.mapM toInt32 = .ok words ↔ words.map Int32.toInt = values :=
    mapM_eq_ok_iff_map toInt32_eq_ok_iff
  unfold saveIndex
  simp only [bind_eq_ok_iff, mapM_eq_ok_iff_map (mapM_eq_ok_iff_map hlist), hlist,
    toInt32_eq_ok_iff, Except.ok.injEq]
  constructor
  · rintro ⟨links, hlinks, levels, hlevels, entry, hentry, max, hmax, m, hm, rfl⟩
    exact ⟨links, levels, entry, max, m, hlinks, hlevels, hentry, hmax, hm, rfl⟩
  · rintro ⟨links, levels, entry, max, m, hlinks, hlevels, hentry, hmax, hm, rfl⟩
    exact ⟨links, hlinks, levels, hlevels, entry, hentry, max, hmax, m, hm, rfl⟩

/-- The numbers of the index are `np.int32`s. -/
structure FitsFile (index : HnswIndex) : Prop where
  entryPoint : index.entryPoint < 2 ^ 31
  maxLevel : index.maxLevel < 2 ^ 31
  m : index.m < 2 ^ 31
  links : ∀ layers ∈ index.neighbors, ∀ links ∈ layers, ∀ neighbor ∈ links, neighbor < 2 ^ 31

theorem exists_toInt_iff {value : ℤ} :
    (∃ word : Int32, word.toInt = value) ↔ -2 ^ 31 ≤ value ∧ value < 2 ^ 31 := by
  constructor
  · rintro ⟨word, rfl⟩
    exact ⟨word.le_toInt, word.toInt_lt⟩
  · rintro ⟨hle, hlt⟩
    exact ⟨Int32.ofInt value, Int32.toInt_ofInt_of_le hle hlt⟩

theorem exists_map_iff {α β : Type} {f : α → β} {l : List β} :
    (∃ l' : List α, l'.map f = l) ↔ ∀ b ∈ l, ∃ a, f a = b := by
  change l ∈ Set.range (List.map f) ↔ _
  rw [Set.range_list_map]
  rfl

theorem headD_shape {index : HnswIndex} {rows : ℕ} (h : index.toHnswFields.Valid rows) :
    index.vectors.shape.headD 0 = rows := by
  obtain ⟨values, columns, -, hshape, -⟩ := h.vectors
  rw [hshape, List.headD_cons]

/-- The indices that can be saved. -/
theorem exists_saveIndex_iff {index : HnswIndex} :
    (∃ archive, index.saveIndex = .ok archive) ↔ index.FitsFile := by
  obtain ⟨rows, hvalid⟩ := index.exists_valid
  have hlinks : (∃ links : List (List (List Int32)),
      links.map (List.map (List.map Int32.toInt)) = index.neighbors) ↔
      ∀ layers ∈ index.neighbors, ∀ links ∈ layers, ∀ neighbor ∈ links, neighbor < 2 ^ 31 := by
    simp only [exists_map_iff, exists_toInt_iff]
    constructor
    · exact fun h layers hlayers links hlinks neighbor hneighbor =>
        (h layers hlayers links hlinks neighbor hneighbor).2
    · intro h layers hlayers links hlinks neighbor hneighbor
      refine ⟨?_, h layers hlayers links hlinks neighbor hneighbor⟩
      obtain ⟨node, hnode, rfl⟩ := List.getElem_of_mem hlayers
      obtain ⟨layer, hlayer, rfl⟩ := List.getElem_of_mem hlinks
      have hlevel : node < index.levels.length := by
        rw [hvalid.length_levels, ← hvalid.length_neighbors]
        exact hnode
      have hnonneg := (((hvalid.node node _ _ (List.getElem?_eq_getElem hlevel)
        (List.getElem?_eq_getElem hnode)).layer layer _
          (List.getElem?_eq_getElem hlayer)).neighbor neighbor hneighbor).2.1.1
      omega
  have hmax := index.maxLevel_nonneg
  constructor
  · rintro ⟨archive, h⟩
    obtain ⟨links, levels, entry, max, m, hneighbors, -, hentry, hmax, hm, -⟩ :=
      saveIndex_eq_ok_iff.1 h
    exact ⟨hentry ▸ entry.toInt_lt, hmax ▸ max.toInt_lt, hm ▸ m.toInt_lt,
      hlinks.1 ⟨links, hneighbors⟩⟩
  · rintro ⟨hentry, hmaxLevel, hm, hneighbors⟩
    obtain ⟨links, hneighbors⟩ := hlinks.2 hneighbors
    obtain ⟨levels, hlevels⟩ : ∃ levels : List Int32, levels.map Int32.toInt = index.levels := by
      refine exists_map_iff.2 fun level hlevel => exists_toInt_iff.2 ?_
      have hnonneg := level_nonneg hlevel
      have hle := hvalid.level_le hlevel
      omega
    have hnonneg := hvalid.entryPoint.1
    have hpos := hvalid.m_pos
    obtain ⟨entry, hentry⟩ := exists_toInt_iff.2 ⟨by omega, hentry⟩
    obtain ⟨max, hmax⟩ := exists_toInt_iff.2 ⟨by omega, hmaxLevel⟩
    obtain ⟨m, hm⟩ := exists_toInt_iff.2 ⟨by omega, hm⟩
    exact ⟨_, saveIndex_eq_ok_iff.2 ⟨links, levels, entry, max, m, hneighbors, hlevels, hentry,
      hmax, hm, rfl⟩⟩

/-- What a file keeps of the links. -/
theorem loadNeighbors_iff {index : HnswIndex} (hm : index.m < 2 ^ 31)
    {adjacency counts : NpyArray} :
    loadNeighbors (index.vectors.shape.headD 0) index.maxLevel index.m index.levels adjacency
        counts = .ok index.neighbors ↔
      ∃ links : List (List (List Int32)),
        links.map (List.map (List.map Int32.toInt)) = index.neighbors ∧
          adjacency = adjacencyOf (index.vectors.shape.headD 0) index.maxLevel index.m links ∧
            counts = countsOf (index.vectors.shape.headD 0) index.maxLevel links := by
  obtain ⟨rows, hvalid⟩ := index.exists_valid
  have hmax := index.maxLevel_nonneg
  rw [headD_shape hvalid, loadNeighbors_eq_ok_iff (fun level => level_nonneg) hvalid.length_levels
    (by omega) hvalid.m_pos.le hm]
  constructor
  · rintro ⟨links, hneighbors, -, hadjacency, hcounts⟩
    exact ⟨links, hneighbors.symm, hadjacency, hcounts⟩
  · rintro ⟨links, hneighbors, hadjacency, hcounts⟩
    refine ⟨links, hneighbors.symm, List.forall₂_iff_get.2 ⟨?_, fun i hi hi' => ?_⟩, hadjacency,
      hcounts⟩
    · rw [hvalid.length_levels, ← hvalid.length_neighbors, ← hneighbors, List.length_map]
    · have hlayers : index.neighbors[i]? = some (links[i].map (List.map Int32.toInt)) := by
        simp [← hneighbors, hi']
      have hnode := hvalid.node i _ _ (List.getElem?_eq_getElem hi) hlayers
      have hlength := hnode.length_eq
      have hle := hvalid.level_le (List.getElem_mem hi)
      rw [List.length_map] at hlength
      change (links[i].length : ℤ) = index.levels[i] + 1 ∧ FitsLayers _ _ links[i]
      refine ⟨hlength, by omega, fun layer hlayer => ?_⟩
      obtain ⟨j, hj, rfl⟩ := List.getElem_of_mem hlayer
      have hlinks := (hnode.layer j (links[i][j].map Int32.toInt) (by simp [hj])).length_le
      rwa [List.length_map] at hlinks

/-- An index whose numbers fit its file is saved and loaded back, and the arrays of a file that
is accepted are those that its index is saved with. -/
theorem index_file_round_trip (asFloat32 : NpyArray → Except String NpyArray)
    (hkept : ∀ array items, array.items = .float32 items → array.shape ≠ [] →
      asFloat32 array = .ok array) :
    (∀ index : HnswIndex, (∃ archive, index.saveIndex = .ok archive) ↔ index.FitsFile) ∧
      (∀ (index : HnswIndex) archive, index.saveIndex = .ok archive →
        loadIndex asFloat32 archive = .ok index) ∧
      ∀ archive index, loadIndex asFloat32 archive = .ok index →
        ∃ saved, index.saveIndex = .ok saved ∧
          ∀ name ∈ ["levels", "adjacency", "counts", "entry_point", "max_level", "m"],
            saved.lookup name = archive.lookup name := by
  refine ⟨fun index => exists_saveIndex_iff, fun index archive h => ?_, fun archive index h => ?_⟩
  · obtain ⟨rows, hvalid⟩ := index.exists_valid
    obtain ⟨links, levels, entry, max, m, hneighbors, hlevels, hentry, hmax, hm, rfl⟩ :=
      saveIndex_eq_ok_iff.1 h
    obtain ⟨values, columns, hitems, hshape, -⟩ := hvalid.vectors
    refine loadIndex_eq_ok_iff.2 ⟨?_, rfl, ⟨_, rfl, hkept _ values hitems (by simp [hshape])⟩,
      ⟨levels, rfl, ?_, hlevels⟩, ⟨_, _, rfl, rfl, ?_⟩, ⟨entry, rfl, hentry⟩, ⟨max, rfl, hmax⟩,
      ⟨m, rfl, hm⟩⟩
    · simp [archiveOf, requiredFields]
    · rw [headD_shape hvalid, ← hvalid.length_levels, ← hlevels, List.length_map]
    · exact (loadNeighbors_iff (hm ▸ m.toInt_lt)).2 ⟨links, hneighbors, rfl, rfl⟩
  · obtain ⟨-, -, -, ⟨levels, hlevels, -, hlevels'⟩, ⟨adjacency, counts, hadjacency, hcounts, h⟩,
      ⟨entry, hentry, hentry'⟩, ⟨max, hmax, hmax'⟩, ⟨m, hm, hm'⟩⟩ := loadIndex_eq_ok_iff.1 h
    obtain ⟨links, hneighbors, rfl, rfl⟩ := (loadNeighbors_iff (hm' ▸ m.toInt_lt)).1 h
    refine ⟨_, saveIndex_eq_ok_iff.2 ⟨links, levels, entry, max, m, hneighbors, hlevels', hentry',
      hmax', hm', rfl⟩, ?_⟩
    simp [archiveOf, hlevels, hadjacency, hcounts, hentry, hmax, hm, List.lookup_cons]

/-- Two linked nodes, the second on two levels. -/
def twoNodes : HnswIndex where
  vectors := ⟨[2, 1], .float32 [0, 0x3f800000], rfl⟩
  levels := [0, 1]
  neighbors := [[[1]], [[0], []]]
  entryPoint := 1
  maxLevel := 1
  m := 2
  valid := by decide +kernel

/-- `np.ascontiguousarray` on arrays of `np.float32`. -/
def keepFloat32 (array : NpyArray) : Except String NpyArray :=
  match array.items with
  | .float32 _ => .ok array
  | _ => .error "TypeError"

theorem index_file_round_trip_twoNodes : ∃ archive,
    twoNodes.saveIndex = .ok archive ∧ loadIndex keepFloat32 archive = .ok twoNodes := by
  have h := index_file_round_trip keepFloat32 fun array items hitems _ => by
    rw [keepFloat32, hitems]
  obtain ⟨archive, hsave⟩ := (h.1 twoNodes).2 ⟨by decide, by decide, by decide, by decide⟩
  exact ⟨archive, hsave, h.2.1 twoNodes archive hsave⟩

/-- A node with room for more links than a file can say. -/
def wideNode : HnswIndex where
  vectors := ⟨[1, 1], .float32 [0], rfl⟩
  levels := [0]
  neighbors := [[[]]]
  entryPoint := 0
  maxLevel := 0
  m := 2 ^ 31
  valid := by decide +kernel

theorem wide_index_not_saved : wideNode.saveIndex = .error "OverflowError" := by
  rfl

end HnswIndex

end Npunlock
