import Npunlock.Binary32
import Npunlock.Counting

/-!
# Graph indices

An index keeps the levels of its nodes and, on each level of a node, the nodes it is linked to.
A value of `HnswIndex` has passed the checks of its construction, so that its nodes, levels and
links are those of a graph (`HnswIndex.exists_valid`).
-/

namespace Npunlock

open Binary32 (isFinite)

/-! ## Arrays -/

/-- The items of an array, in row-major order. -/
inductive NpyItems
  | int32 (items : List Int32)
  | float32 (items : List Word)
  | text (items : List String)
  | other (dtype : String) (items : List (List UInt8))
  deriving DecidableEq

def NpyItems.length : NpyItems → ℕ
  | .int32 items => items.length
  | .float32 items => items.length
  | .text items => items.length
  | .other _ items => items.length

structure NpyArray where
  shape : List ℕ
  items : NpyItems
  length_items : items.length = shape.prod
  deriving DecidableEq

/-! ## Indices -/

/-- The values that an index is made of. -/
structure HnswFields where
  vectors : NpyArray
  levels : List ℤ
  neighbors : List (List (List ℤ))
  entryPoint : ℤ
  maxLevel : ℤ
  m : ℤ
  deriving DecidableEq

namespace HnswFields

variable (fields : HnswFields)

def checkNeighbor (rows node layer : ℕ) (neighbor : ℤ) : Except String Unit := do
  refuseIf (neighbor = node ∨ ¬(0 ≤ neighbor ∧ neighbor < rows))
    s!"node {node} layer {layer} has an invalid neighbor"
  refuseIf (fields.levels.getD neighbor.toNat 0 < layer)
    s!"node {node} layer {layer} links below the neighbor's level"

def checkLinks (rows node : ℕ) (links : List ℤ × ℕ) : Except String Unit := do
  refuseIf (fields.m < links.1.length ∨ ¬links.1.Nodup)
    s!"node {node} layer {links.2} has invalid degree"
  links.1.forM (fields.checkNeighbor rows node links.2)

def checkNode (rows : ℕ) (entry : (ℤ × List (List ℤ)) × ℕ) : Except String Unit := do
  refuseIf (entry.1.1 < 0 ∨ (entry.1.2.length : ℤ) ≠ entry.1.1 + 1)
    s!"node {entry.2} has an invalid level layout"
  entry.1.2.zipIdx.forM (fields.checkLinks rows entry.2)

/-- `HnswIndex.__post_init__`. -/
def postInit : Except String Unit :=
  match fields.vectors.items, fields.vectors.shape with
  | .float32 values, [rows, columns] => do
    refuseIf (rows = 0 ∨ columns = 0) "vectors must be non-empty"
    refuseIf (∃ value ∈ values, isFinite value = false)
      "vectors must contain only finite values"
    refuseIf (fields.levels.length ≠ rows ∨ fields.neighbors.length ≠ rows)
      "levels and neighbors must describe every vector"
    refuseIf (¬(0 ≤ fields.entryPoint ∧ fields.entryPoint < rows)) "entry_point is out of range"
    refuseIf (some fields.maxLevel ≠ fields.levels.max? ∨
      fields.levels[fields.entryPoint.toNat]? ≠ some fields.maxLevel)
      "entry_point must exist at max_level"
    refuseIf (fields.m ≤ 0) "m must be positive"
    (fields.levels.zip fields.neighbors).zipIdx.forM (fields.checkNode rows)
  | _, _ => .error "vectors must be a contiguous float32 matrix"

end HnswFields

/-- `HnswIndex`. -/
structure HnswIndex extends HnswFields where
  valid : toHnswFields.postInit = .ok ()
  deriving DecidableEq

namespace HnswIndex

def create (fields : HnswFields) : Except String HnswIndex :=
  match h : fields.postInit with
  | .ok () => .ok ⟨fields, h⟩
  | .error error => .error error

end HnswIndex

/-! ## What an index satisfies -/

namespace HnswFields

/-- The links of a layer of a node. -/
structure ValidLinks (fields : HnswFields) (rows node layer : ℕ) (links : List ℤ) : Prop where
  length_le : (links.length : ℤ) ≤ fields.m
  nodup : links.Nodup
  neighbor : ∀ neighbor ∈ links, neighbor ≠ node ∧ (0 ≤ neighbor ∧ neighbor < rows) ∧
    (layer : ℤ) ≤ fields.levels.getD neighbor.toNat 0

/-- The layers of a node. -/
structure ValidNode (fields : HnswFields) (rows node : ℕ) (level : ℤ)
    (layers : List (List ℤ)) : Prop where
  level_nonneg : 0 ≤ level
  length_eq : (layers.length : ℤ) = level + 1
  layer : ∀ layer links, layers[layer]? = some links →
    fields.ValidLinks rows node layer links

/-- The values are those of an index of so many nodes. -/
structure Valid (fields : HnswFields) (rows : ℕ) : Prop where
  vectors : ∃ values columns, fields.vectors.items = .float32 values ∧
    fields.vectors.shape = [rows, columns] ∧ columns ≠ 0 ∧
      ∀ value ∈ values, isFinite value = true
  rows_ne_zero : rows ≠ 0
  length_levels : fields.levels.length = rows
  length_neighbors : fields.neighbors.length = rows
  entryPoint : 0 ≤ fields.entryPoint ∧ fields.entryPoint < rows
  maxLevel : fields.levels.max? = some fields.maxLevel
  entryLevel : fields.levels[fields.entryPoint.toNat]? = some fields.maxLevel
  m_pos : 0 < fields.m
  node : ∀ node level layers, fields.levels[node]? = some level →
    fields.neighbors[node]? = some layers → fields.ValidNode rows node level layers

variable {fields : HnswFields} {rows : ℕ}

theorem checkLinks_eq_ok_iff {node : ℕ} {links : List ℤ × ℕ} :
    fields.checkLinks rows node links = .ok () ↔ fields.ValidLinks rows node links.2 links.1 := by
  unfold checkLinks checkNeighbor
  simp only [refuseIf_bind_eq_ok_iff, refuseIf_eq_ok_iff, forM_eq_ok_iff, not_or, not_lt, not_not,
    and_assoc]
  constructor
  · rintro ⟨hlength, hnodup, hneighbor⟩
    exact ⟨hlength, hnodup, fun neighbor h => ⟨(hneighbor neighbor h).1,
      ⟨(hneighbor neighbor h).2.1, (hneighbor neighbor h).2.2.1⟩, (hneighbor neighbor h).2.2.2⟩⟩
  · rintro ⟨hlength, hnodup, hneighbor⟩
    exact ⟨hlength, hnodup, fun neighbor h => ⟨(hneighbor neighbor h).1,
      (hneighbor neighbor h).2.1.1, (hneighbor neighbor h).2.1.2, (hneighbor neighbor h).2.2⟩⟩

theorem checkNode_eq_ok_iff {level : ℤ} {layers : List (List ℤ)} {node : ℕ} :
    fields.checkNode rows ((level, layers), node) = .ok () ↔
      fields.ValidNode rows node level layers := by
  unfold checkNode
  simp only [refuseIf_bind_eq_ok_iff, forM_eq_ok_iff, not_or, not_lt, ne_eq, not_not, and_assoc,
    checkLinks_eq_ok_iff]
  constructor
  · rintro ⟨hlevel, hlength, hlinks⟩
    exact ⟨hlevel, hlength, fun layer links h =>
      hlinks (links, layer) (List.mk_mem_zipIdx_iff_getElem?.2 h)⟩
  · rintro ⟨hlevel, hlength, hlinks⟩
    exact ⟨hlevel, hlength, fun links h =>
      hlinks links.2 links.1 (List.mk_mem_zipIdx_iff_getElem?.1 h)⟩

theorem postInit_eq_ok_iff : fields.postInit = .ok () ↔ ∃ rows, fields.Valid rows := by
  unfold postInit
  split
  · rename_i values rows columns hitems hshape
    simp only [refuseIf_bind_eq_ok_iff, forM_eq_ok_iff, not_or, not_exists, not_and,
      Bool.not_eq_false, ne_eq, Classical.not_imp, not_not, not_le, Prod.forall,
      checkNode_eq_ok_iff, List.mk_mem_zipIdx_iff_getElem?]
    constructor
    · rintro ⟨⟨hrows, hcolumns⟩, hfinite, ⟨hlevels, hneighbors⟩, hentry, ⟨hmax, hlevel⟩, hm, hnode⟩
      refine ⟨rows, ⟨values, columns, hitems, hshape, hcolumns, hfinite⟩, hrows, hlevels,
        hneighbors, hentry, hmax.symm, hlevel, hm, fun node level layers h h' => ?_⟩
      refine hnode level layers node ?_
      exact List.getElem?_zip_eq_some.2 ⟨h, h'⟩
    · rintro ⟨rows', ⟨values', columns', hitems', hshape', hcolumns, hfinite⟩, hrows, hlevels,
        hneighbors, hentry, hmax, hlevel, hm, hnode⟩
      obtain ⟨rfl, rfl⟩ : rows = rows' ∧ columns = columns' := by
        simpa using hshape.symm.trans hshape'
      obtain rfl : values = values' := by
        simpa using hitems.symm.trans hitems'
      refine ⟨⟨hrows, hcolumns⟩, hfinite, ⟨hlevels, hneighbors⟩, hentry, ⟨hmax.symm, hlevel⟩, hm,
        fun level layers node h => ?_⟩
      exact hnode node level layers (List.getElem?_zip_eq_some.1 h).1
        (List.getElem?_zip_eq_some.1 h).2
  · rename_i hnot
    refine ⟨by rintro ⟨⟩, ?_⟩
    rintro ⟨rows, ⟨values, columns, hitems, hshape, -⟩, -⟩
    exact absurd hshape (hnot values rows columns hitems)

theorem Valid.level_le (h : fields.Valid rows) {level : ℤ} (hlevel : level ∈ fields.levels) :
    level ≤ fields.maxLevel :=
  ((List.max?_eq_some_iff).1 h.maxLevel).2 level hlevel

end HnswFields

namespace HnswIndex

theorem exists_valid (index : HnswIndex) : ∃ rows, index.toHnswFields.Valid rows :=
  HnswFields.postInit_eq_ok_iff.1 index.valid

theorem create_eq_ok_iff {fields : HnswFields} {index : HnswIndex} :
    create fields = .ok index ↔ index.toHnswFields = fields := by
  obtain ⟨fields', hvalid⟩ := index
  unfold create
  split
  · rename_i h
    rw [Except.ok.injEq]
    simp [HnswIndex.mk.injEq, eq_comm]
  · rename_i error h
    refine ⟨fun h => (nomatch h), ?_⟩
    rintro rfl
    exact nomatch h.symm.trans hvalid

theorem level_nonneg {index : HnswIndex} {level : ℤ} (h : level ∈ index.levels) : 0 ≤ level := by
  obtain ⟨rows, hvalid⟩ := index.exists_valid
  obtain ⟨node, hnode, rfl⟩ := List.getElem_of_mem h
  have hlayers : node < index.neighbors.length := by
    rw [hvalid.length_neighbors, ← hvalid.length_levels]
    exact hnode
  exact (hvalid.node node _ _ (List.getElem?_eq_getElem hnode)
    (List.getElem?_eq_getElem hlayers)).level_nonneg

theorem maxLevel_nonneg (index : HnswIndex) : 0 ≤ index.maxLevel := by
  obtain ⟨rows, hvalid⟩ := index.exists_valid
  exact level_nonneg (List.max?_mem hvalid.maxLevel)

end HnswIndex

end Npunlock
