import Mathlib.Algebra.Order.BigOperators.Group.List
import Npunlock.DiscoverySpec
import Npunlock.StridedIndices

/-!
# Dense tensors

`validate_memref` accepts the dimensions and strides of a tensor if, in the order of their
strides, they are laid out without a gap. The check takes the unused dimension with the
smallest stride, round by round. It accepts a layout of positive dimensions and strides that
are not negative if and only if the layout is dense and its bits can be counted in 64 bits.
-/

namespace Npunlock

open Polynomial Strided View

/-! ## The greedy check -/

/-- The dimension of an index, as the check reads it. -/
def dimensionAt (dimensions : List ℤ) (index : ℕ) : ℕ :=
  (dimensions.getD index 0).toNat

/-- What is known of a selected dimension. -/
structure IsLeastUnused (dimensions strides : List ℤ) (used : List ℕ) (bound selected : ℕ) :
    Prop where
  lt : selected < bound
  unused : selected ∉ used
  large : 1 < dimensions.getD selected 0
  least : ∀ index < bound, index ∉ used → 1 < dimensions.getD index 0 →
    strides.getD selected 0 ≤ strides.getD index 0

/-- One index of the search. -/
def selectStep (dimensions strides : List ℤ) (used : List ℕ) (selected : Option ℕ) (index : ℕ) :
    Option ℕ :=
  if index ∈ used ∨ dimensions.getD index 0 ≤ 1 then selected
  else
    match selected with
    | none => some index
    | some best =>
      if strides.getD index 0 < strides.getD best 0 then some index else selected

/-- The outcome of a search among the first `bound` indices. -/
def SelectsStrides (dimensions strides : List ℤ) (used : List ℕ) (bound : ℕ) : Option ℕ → Prop
  | none => ∀ index < bound, index ∈ used ∨ dimensions.getD index 0 ≤ 1
  | some selected => IsLeastUnused dimensions strides used bound selected

theorem SelectsStrides.step {dimensions strides : List ℤ} {used : List ℕ} {bound : ℕ}
    {selected : Option ℕ} (h : SelectsStrides dimensions strides used bound selected) :
    SelectsStrides dimensions strides used (bound + 1)
      (selectStep dimensions strides used selected bound) := by
  unfold selectStep
  split_ifs with hskip
  · cases selected with
    | none =>
      intro index hindex
      obtain hlt | rfl := Nat.lt_succ_iff_lt_or_eq.1 hindex
      · exact h index hlt
      · exact hskip
    | some selected =>
      refine ⟨Nat.lt_succ_of_lt h.lt, h.unused, h.large, fun index hindex hun hlarge => ?_⟩
      obtain hlt | rfl := Nat.lt_succ_iff_lt_or_eq.1 hindex
      · exact h.least index hlt hun hlarge
      · rcases hskip with hskip | hskip
        · exact absurd hskip hun
        · omega
  · rw [not_or, Int.not_le] at hskip
    cases selected with
    | none =>
      refine ⟨Nat.lt_succ_self _, hskip.1, hskip.2, fun index hindex hun hlarge => ?_⟩
      obtain hlt | rfl := Nat.lt_succ_iff_lt_or_eq.1 hindex
      · rcases h index hlt with hused | hsmall
        · exact absurd hused hun
        · omega
      · exact le_rfl
    | some best =>
      dsimp only
      split_ifs with hless
      · refine ⟨Nat.lt_succ_self _, hskip.1, hskip.2, fun index hindex hun hlarge => ?_⟩
        obtain hlt | rfl := Nat.lt_succ_iff_lt_or_eq.1 hindex
        · exact hless.le.trans (h.least index hlt hun hlarge)
        · exact le_rfl
      · refine ⟨Nat.lt_succ_of_lt h.lt, h.unused, h.large, fun index hindex hun hlarge => ?_⟩
        obtain hlt | rfl := Nat.lt_succ_iff_lt_or_eq.1 hindex
        · exact h.least index hlt hun hlarge
        · exact Int.not_lt.1 hless

theorem selects_foldl (dimensions strides : List ℤ) (used : List ℕ) : ∀ bound : ℕ,
    SelectsStrides dimensions strides used bound
      ((List.range bound).foldl (selectStep dimensions strides used) none)
  | 0 => fun _ h => absurd h (Nat.not_lt_zero _)
  | bound + 1 => by
    rw [List.range_succ, List.foldl_append]
    exact (selects_foldl dimensions strides used bound).step

theorem selects_selectDimension (dimensions strides : List ℤ) (used : List ℕ) :
    SelectsStrides dimensions strides used dimensions.length
      (selectDimension dimensions strides used) :=
  selects_foldl dimensions strides used dimensions.length

/-- The indices that are not used up. -/
def unusedIndices (rank : ℕ) (used : List ℕ) : Finset ℕ :=
  (Finset.range rank).filter (· ∉ used)

theorem unusedIndices_cons (rank : ℕ) (used : List ℕ) (selected : ℕ) :
    unusedIndices rank (selected :: used) = (unusedIndices rank used).erase selected := by
  ext index
  simp only [unusedIndices, Finset.mem_filter, Finset.mem_erase, List.mem_cons, not_or]
  tauto

theorem checkDense_eq_ok_iff {dimensions strides : List ℤ}
    (hpos : ∀ index < dimensions.length, 0 < dimensions.getD index 0)
    (hstrides : ∀ index, 0 ≤ strides.getD index 0) :
    ∀ (rounds : ℕ) (used : List ℕ) (unit : ℕ),
      (unusedIndices dimensions.length used).card < rounds → 0 < unit → unit ≤ uint64Max →
        (checkDense dimensions strides rounds used unit = .ok () ↔
          ∏ j ∈ unusedIndices dimensions.length used,
              row (dimensionAt dimensions j) (dimensionAt strides j) =
            row (∏ j ∈ unusedIndices dimensions.length used, dimensionAt dimensions j) unit ∧
          unit * ∏ j ∈ unusedIndices dimensions.length used, dimensionAt dimensions j ≤ uint64Max)
  | 0, _, _, h, _, _ => absurd h (Nat.not_lt_zero _)
  | rounds + 1, used, unit, hrounds, hunit, hle => by
    have hposUnused : ∀ j ∈ unusedIndices dimensions.length used, 0 < dimensionAt dimensions j := by
      intro j hj
      have := hpos j (Finset.mem_range.1 (Finset.mem_filter.1 hj).1)
      unfold dimensionAt
      omega
    have hselect := selects_selectDimension dimensions strides used
    rw [checkDense]
    cases hselected : selectDimension dimensions strides used with
    | none =>
      rw [hselected] at hselect
      have hone : ∀ j ∈ unusedIndices dimensions.length used, dimensionAt dimensions j = 1 := by
        intro j hj
        obtain ⟨hrange, hun⟩ := Finset.mem_filter.1 hj
        have hsmall := (hselect j (Finset.mem_range.1 hrange)).resolve_left hun
        have := hpos j (Finset.mem_range.1 hrange)
        unfold dimensionAt
        omega
      simp only [true_iff]
      exact ⟨dense_done hone, by rwa [Finset.prod_eq_one hone, Nat.mul_one]⟩
    | some selected =>
      rw [hselected] at hselect
      have hmem : selected ∈ unusedIndices dimensions.length used :=
        Finset.mem_filter.2 ⟨Finset.mem_range.2 hselect.lt, hselect.unused⟩
      have hlarge : 1 < dimensionAt dimensions selected := by
        have := hselect.large
        unfold dimensionAt
        omega
      have hleast : ∀ j ∈ unusedIndices dimensions.length used, 1 < dimensionAt dimensions j →
          dimensionAt strides selected ≤ dimensionAt strides j := by
        intro j hj hj'
        obtain ⟨hrange, hun⟩ := Finset.mem_filter.1 hj
        have := hselect.least j (Finset.mem_range.1 hrange) hun
          (by unfold dimensionAt at hj'; omega)
        unfold dimensionAt
        omega
      have hrest : 0 < ∏ j ∈ (unusedIndices dimensions.length used).erase selected,
          dimensionAt dimensions j :=
        Finset.prod_pos fun j hj => hposUnused j (Finset.mem_of_mem_erase hj)
      have hcard : (unusedIndices dimensions.length (selected :: used)).card < rounds := by
        rw [unusedIndices_cons, Finset.card_erase_of_mem hmem]
        have := Finset.card_pos.2 ⟨selected, hmem⟩
        omega
      rw [dense_step hunit hposUnused hmem hlarge hleast,
        ← Finset.mul_prod_erase _ (dimensionAt dimensions) hmem, ← Nat.mul_assoc,
        refuseIf_bind_eq_ok_iff]
      have hselectedPos : 0 < dimensionAt dimensions selected := by omega
      constructor
      · rintro ⟨hguard, h⟩
        rw [not_or, not_not] at hguard
        have hunit' := mul_le_of_not_div_lt hselectedPos hguard.2
        have ih := (checkDense_eq_ok_iff hpos hstrides rounds (selected :: used)
          (unit * dimensionAt dimensions selected) hcard (Nat.mul_pos hunit hselectedPos)
          hunit').1 h
        rw [unusedIndices_cons] at ih
        exact ⟨⟨hguard.1, ih.1⟩, ih.2⟩
      · rintro ⟨⟨hstride, hdense⟩, hbound⟩
        have hunit' : unit * dimensionAt dimensions selected ≤ uint64Max :=
          (Nat.le_mul_of_pos_right _ hrest).trans hbound
        refine ⟨?_, (checkDense_eq_ok_iff hpos hstrides rounds (selected :: used)
          (unit * dimensionAt dimensions selected) hcard (Nat.mul_pos hunit hselectedPos)
          hunit').2 ?_⟩
        · rw [not_or, not_not, Nat.not_lt]
          exact ⟨hstride, (Nat.le_div_iff_mul_le hselectedPos).2 hunit'⟩
        · rw [unusedIndices_cons]
          exact ⟨hdense, hbound⟩

/-! ## The dimensions and strides of a record -/

theorem loop_succ {ε σ : Type} (body : ℕ → σ → Except ε σ) : ∀ (n i : ℕ) (s : σ),
    loop body i (n + 1) s = loop body i n s >>= body (i + n)
  | 0, i, s => by
    cases h : body i s <;> simp [loop, h]
  | n + 1, i, s => by
    rw [loop, loop]
    cases body i s with
    | error e => rfl
    | ok t => rw [ok_bind, ok_bind, loop_succ body n (i + 1) t, Nat.add_right_comm, Nat.add_assoc]

/-- The last round of a loop. -/
theorem forRange_succ {ε σ : Type} (body : ℕ → σ → Except ε σ) (n : ℕ) (s : σ) :
    forRange 0 (n + 1) s body = forRange 0 n s body >>= body n := by
  simpa [forRange] using loop_succ body n 0 s

/-- The `index`-th 32-bit integer at `offset`. -/
def dimensionValue (blob : View) (offset index : ℕ) : ℤ :=
  signed 32 (littleEndian blob.data (offset + index * 4) 4)

/-- The `index`-th 64-bit integer at `offset`. -/
def strideValue (blob : View) (offset index : ℕ) : ℤ :=
  signed 64 (littleEndian blob.data (offset + index * 8) 8)

theorem readDimensions_eq_ok_iff {layout : GraphLayout} {dimensionsOffset stridesOffset : ℕ} :
    ∀ {rank : ℕ} {state : List ℤ × List ℤ × ℕ},
      dimensionsOffset + rank * 4 ≤ layout.blob.size →
      stridesOffset + rank * 8 ≤ layout.blob.size →
        (forRange 0 rank ([], [], 1) (readDimension layout dimensionsOffset stridesOffset) =
          .ok state ↔
        (∀ index < rank, 0 < dimensionValue layout.blob dimensionsOffset index ∧
          0 ≤ strideValue layout.blob stridesOffset index) ∧
        ∏ index ∈ Finset.range rank, (dimensionValue layout.blob dimensionsOffset index).toNat ≤
          uint64Max ∧
        state = ((List.range rank).map (dimensionValue layout.blob dimensionsOffset),
          (List.range rank).map (strideValue layout.blob stridesOffset),
          ∏ index ∈ Finset.range rank,
            (dimensionValue layout.blob dimensionsOffset index).toNat))
  | 0, state, _, _ => by
    simp [forRange, loop, uint64Max, eq_comm]
  | rank + 1, state, hdimensions, hstrides => by
    have ih : ∀ state, forRange 0 rank ([], [], 1)
        (readDimension layout dimensionsOffset stridesOffset) = .ok state ↔ _ := fun _ =>
      readDimensions_eq_ok_iff (by omega) (by omega)
    rw [forRange_succ, bind_eq_ok_iff, Finset.prod_range_succ, List.range_succ, List.map_append,
      List.map_append]
    generalize hcount : (∏ index ∈ Finset.range rank,
      (dimensionValue layout.blob dimensionsOffset index).toNat) = count at ih ⊢
    have hbody : ∀ dimensions strides, readDimension layout dimensionsOffset stridesOffset rank
        (dimensions, strides, count) = .ok state ↔
          (0 < dimensionValue layout.blob dimensionsOffset rank ∧
            0 ≤ strideValue layout.blob stridesOffset rank) ∧
          count * (dimensionValue layout.blob dimensionsOffset rank).toNat ≤ uint64Max ∧
          state = (dimensions ++ [dimensionValue layout.blob dimensionsOffset rank],
            strides ++ [strideValue layout.blob stridesOffset rank],
            count * (dimensionValue layout.blob dimensionsOffset rank).toNat) := by
      intro dimensions strides
      unfold readDimension
      dsimp only
      simp (disch := omega) only [readI32, readI64, readU32, readU64, readLE_eq, ok_bind, map_ok]
      rw [← dimensionValue, ← strideValue, refuseIf_bind_eq_ok_iff, not_or, not_or, Int.not_le,
        Int.not_lt, Nat.not_lt]
      constructor
      · rintro ⟨⟨hpos, hstride, hguard⟩, h⟩
        exact ⟨⟨hpos, hstride⟩, (Nat.le_div_iff_mul_le (by omega)).1 hguard,
          (Except.ok.inj h).symm⟩
      · rintro ⟨⟨hpos, hstride⟩, hbound, rfl⟩
        exact ⟨⟨hpos, hstride, (Nat.le_div_iff_mul_le (by omega)).2 hbound⟩, rfl⟩
    constructor
    · rintro ⟨before, hbefore, hstep⟩
      obtain ⟨hall, -, rfl⟩ := (ih before).1 hbefore
      obtain ⟨hlast, hbound, rfl⟩ := (hbody _ _).1 hstep
      refine ⟨fun index hindex => ?_, hbound, rfl⟩
      obtain hlt | rfl := Nat.lt_succ_iff_lt_or_eq.1 hindex
      · exact hall index hlt
      · exact hlast
    · rintro ⟨hall, hbound, rfl⟩
      have hlast := hall rank (Nat.lt_succ_self _)
      have hpos : 0 < (dimensionValue layout.blob dimensionsOffset rank).toNat := by omega
      exact ⟨_, (ih _).2 ⟨fun index hindex => hall index (Nat.lt_succ_of_lt hindex),
        (Nat.le_mul_of_pos_right _ hpos).trans hbound, rfl⟩,
        (hbody _ _).2 ⟨hlast, hbound, rfl⟩⟩

/-! ## Density -/

/-- The bit offset of an element. -/
def bitOffset (strides : List ℤ) (indices : List ℕ) : ℤ :=
  (List.zipWith (fun (index : ℕ) (stride : ℤ) => index * stride) indices strides).sum

/-- The bit offsets of the elements, over all index tuples, are the multiples of the element size
below the element count, each once. -/
def IsDense (dimensions strides : List ℤ) (elementBits : ℕ) : Prop :=
  ((indexTuples (dimensions.map Int.toNat)).map (bitOffset strides)).Perm
    ((List.range (dimensions.map Int.toNat).prod).map fun k => ((k * elementBits : ℕ) : ℤ))

theorem bitOffset_natCast (strides indices : List ℕ) :
    bitOffset (strides.map fun stride : ℕ => (stride : ℤ)) indices = offsetOf strides indices := by
  unfold bitOffset offsetOf
  induction indices generalizing strides with
  | nil => simp
  | cons index indices ih =>
    cases strides with
    | nil => simp
    | cons stride strides =>
      rw [List.map_cons, List.zipWith_cons_cons, List.zipWith_cons_cons, List.sum_cons,
        List.sum_cons, ih]
      push_cast
      rfl

theorem isDense_iff {dimensions strides : List ℕ} (hlength : dimensions.length = strides.length)
    (elementBits : ℕ) :
    IsDense (dimensions.map fun dimension : ℕ => (dimension : ℤ))
        (strides.map fun stride : ℕ => (stride : ℤ)) elementBits ↔
      (List.zipWith row dimensions strides).prod = row dimensions.prod elementBits := by
  have htoNat :
      (dimensions.map fun dimension : ℕ => (dimension : ℤ)).map Int.toNat = dimensions := by
    simp [Function.comp_def]
  have hmap : (indexTuples dimensions).map
      (bitOffset (strides.map fun stride : ℕ => (stride : ℤ))) =
      ((indexTuples dimensions).map (offsetOf strides)).map Nat.cast := by
    rw [List.map_map]
    exact List.map_congr_left fun indices _ => bitOffset_natCast strides indices
  have hrange : ((List.range dimensions.prod).map fun k => ((k * elementBits : ℕ) : ℤ)) =
      ((List.range dimensions.prod).map (· * elementBits)).map Nat.cast := by
    rw [List.map_map]
    rfl
  rw [IsDense, htoNat, hmap, hrange, List.map_perm_map_iff Nat.cast_injective,
    ← generating_eq_iff, generating_offsets hlength, generating_multiples]

theorem prod_map_range {M : Type} [CommMonoid M] (f : ℕ → M) (rank : ℕ) :
    ((List.range rank).map f).prod = ∏ j ∈ Finset.range rank, f j := by
  induction rank with
  | zero => rfl
  | succ rank ih =>
    rw [List.range_succ, List.map_append, List.prod_append, ih, Finset.prod_range_succ]
    simp

theorem zipWith_row_prod (rank : ℕ) (dimensions strides : ℕ → ℕ) :
    (List.zipWith row ((List.range rank).map dimensions) ((List.range rank).map strides)).prod =
      ∏ j ∈ Finset.range rank, row (dimensions j) (strides j) := by
  rw [List.zipWith_map, List.zipWith_self, prod_map_range]

/-! ## The record -/

/-- What `validate_memref` has found of a record, apart from its dimensions and strides. -/
structure MemrefFields (layout : GraphLayout) (recordOffset : ℕ) where
  kind : ℕ
  rank : ℕ
  dimensionsPointer : GraphRelocation
  stridesPointer : GraphRelocation
  data : GraphRelocation
  record_in : recordOffset + 0x28 ≤ layout.params.size
  kind_eq : littleEndian layout.blob.data (layout.params.offset + recordOffset + 0x18) 4 = kind
  static : littleEndian layout.blob.data (layout.params.offset + recordOffset + 8) 4 = 1
  location : littleEndian layout.blob.data (layout.params.offset + recordOffset + 0x24) 4 = 2
  kind_lt : kind < 12
  element : dtypeStrideBits kind ≠ 0
  rank_eq : littleEndian layout.blob.data (layout.params.offset + recordOffset + 0x0c) 4 = rank
  rank_pos : rank ≠ 0
  rank_le : rank ≤ 15
  dimensions_found : findPointerRelocation layout layout.paramsIndex (recordOffset + 0x10)
    (some layout.paramsIndex) false = .ok dimensionsPointer
  strides_found : findPointerRelocation layout layout.paramsIndex (recordOffset + 0x14)
    (some layout.paramsIndex) false = .ok stridesPointer
  data_found : findPointerRelocation layout layout.paramsIndex recordOffset none true = .ok data
  dimensions_nonneg : 0 ≤ dimensionsPointer.addend
  dimensions_in : dimensionsPointer.addend.toNat + rank * 4 ≤ layout.params.size
  strides_nonneg : 0 ≤ stridesPointer.addend
  strides_in : stridesPointer.addend.toNat + rank * 8 ≤ layout.params.size
  data_nonneg : 0 ≤ data.addend

namespace MemrefFields

variable {layout : GraphLayout} {recordOffset : ℕ} (fields : MemrefFields layout recordOffset)

def dimensions : List ℤ :=
  (List.range fields.rank).map
    (dimensionValue layout.blob (layout.params.offset + fields.dimensionsPointer.addend.toNat))

def strides : List ℤ :=
  (List.range fields.rank).map
    (strideValue layout.blob (layout.params.offset + fields.stridesPointer.addend.toNat))

def elementCount : ℕ :=
  (fields.dimensions.map Int.toNat).prod

/-- What the record says of the tensor. -/
def contract : MemrefContract where
  elementCount := fields.elementCount
  spanBytes := fields.elementCount * dtypeSizeBytes fields.kind
  dtypeKind := fields.kind
  dataSymbol := fields.data.symbol
  dataAddend := fields.data.addend
  rank := fields.rank
  dimensions := fields.dimensions
  stridesBits := fields.strides

/-- A dense layout of positive dimensions, whose bits can be counted in 64 bits. -/
structure Admitted : Prop where
  dimensions_pos : ∀ dimension ∈ fields.dimensions, 0 < dimension
  strides_nonneg : ∀ stride ∈ fields.strides, 0 ≤ stride
  bits_le : fields.elementCount * dtypeStrideBits fields.kind ≤ uint64Max
  dense : IsDense fields.dimensions fields.strides (dtypeStrideBits fields.kind)

theorem dimensionAt_map_range {rank index : ℕ} (hindex : index < rank) (value : ℕ → ℤ) :
    dimensionAt ((List.range rank).map value) index = (value index).toNat := by
  simp [dimensionAt, hindex]

theorem map_toNat_range (rank : ℕ) (value : ℕ → ℤ) :
    ((List.range rank).map value).map Int.toNat = (List.range rank).map fun index =>
      (value index).toNat :=
  List.map_map

theorem map_natCast_range {rank : ℕ} {value : ℕ → ℤ} (h : ∀ index < rank, 0 ≤ value index) :
    ((List.range rank).map fun index => (value index).toNat).map (fun n : ℕ => (n : ℤ)) =
      (List.range rank).map value := by
  rw [List.map_map]
  exact List.map_congr_left fun index hindex =>
    Int.toNat_of_nonneg (h index (by simpa using hindex))

/-- The greedy check of a layout as a whole. -/
theorem checkDense_all_iff {rank unit : ℕ} {dimension stride : ℕ → ℤ}
    (hpos : ∀ index < rank, 0 < dimension index) (hnonneg : ∀ index < rank, 0 ≤ stride index)
    (hunit : 0 < unit) (hle : unit ≤ uint64Max) :
    checkDense ((List.range rank).map dimension) ((List.range rank).map stride) (rank + 1) []
        unit = .ok () ↔
      IsDense ((List.range rank).map dimension) ((List.range rank).map stride) unit ∧
        (((List.range rank).map dimension).map Int.toNat).prod * unit ≤ uint64Max := by
  have hunused : unusedIndices rank [] = Finset.range rank := by simp [unusedIndices]
  have hprod : (((List.range rank).map dimension).map Int.toNat).prod =
      ∏ index ∈ Finset.range rank, (dimension index).toNat := by
    rw [map_toNat_range, prod_map_range]
  have hdense : IsDense ((List.range rank).map dimension) ((List.range rank).map stride) unit ↔
      ∏ j ∈ Finset.range rank, row (dimension j).toNat (stride j).toNat =
        row (∏ j ∈ Finset.range rank, (dimension j).toNat) unit := by
    rw [← map_natCast_range fun index hindex => (hpos index hindex).le,
      ← map_natCast_range hnonneg, isDense_iff (by simp), zipWith_row_prod, prod_map_range]
  have hposAt : ∀ index < ((List.range rank).map dimension).length,
      0 < ((List.range rank).map dimension).getD index 0 := by
    intro index hindex
    have hindex' : index < rank := by simpa using hindex
    simpa [hindex'] using hpos index hindex'
  have hnonnegAt : ∀ index, 0 ≤ ((List.range rank).map stride).getD index 0 := by
    intro index
    by_cases hindex : index < rank
    · simpa [hindex] using hnonneg index hindex
    · simp [hindex]
  rw [checkDense_eq_ok_iff hposAt hnonnegAt (rank + 1) [] unit (by simp [hunused]) hunit hle,
    hdense, hprod, List.length_map, List.length_range, hunused, Nat.mul_comm unit,
    Finset.prod_congr rfl fun j hj => dimensionAt_map_range (Finset.mem_range.1 hj) dimension,
    Finset.prod_congr rfl fun j hj => by
      rw [dimensionAt_map_range (Finset.mem_range.1 hj) dimension,
        dimensionAt_map_range (Finset.mem_range.1 hj) stride]]

/-- What is left of `validate_memref` once its fields are known. -/
theorem validateMemref_eq (h : layout.Valid) : validateMemref layout recordOffset = (do
    let state ← forRange 0 fields.rank ([], [], 1) (readDimension layout
      (layout.params.offset + fields.dimensionsPointer.addend.toNat)
      (layout.params.offset + fields.stridesPointer.addend.toNat))
    checkDense state.1 state.2.1 (fields.rank + 1) [] (dtypeStrideBits fields.kind)
    refuseIf (uint64Max / dtypeSizeBytes fields.kind < state.2.2)
      (unsupported "tensor byte span overflows")
    .ok { elementCount := state.2.2, spanBytes := state.2.2 * dtypeSizeBytes fields.kind,
          dtypeKind := fields.kind, dataSymbol := fields.data.symbol,
          dataAddend := fields.data.addend, rank := fields.rank, dimensions := state.1,
          stridesBits := state.2.1 }) := by
  have hin := h.in_file h.located.params.lt (by
    rw [← GraphLayout.params, h.carrier.params_type]
    decide)
  rw [← GraphLayout.params] at hin
  have hsize : layout.params.size ≤ sizeMax := by
    have := layout.blob.size_le
    omega
  have hrecord := fields.record_in
  have hform : ¬(littleEndian layout.blob.data (layout.params.offset + recordOffset + 8) 4 ≠ 1 ∨
      12 ≤ fields.kind ∨ dtypeStrideBits fields.kind = 0 ∨
        littleEndian layout.blob.data (layout.params.offset + recordOffset + 0x24) 4 ≠ 2) := by
    rw [not_or, not_or, not_or, not_not, not_not, Nat.not_le]
    exact ⟨fields.static, fields.kind_lt, fields.element, fields.location⟩
  have hrank : ¬(fields.rank = 0 ∨ 15 < fields.rank) := by
    have := fields.rank_pos
    have := fields.rank_le
    omega
  have hpointers : ¬(fields.dimensionsPointer.addend < 0 ∨ fields.stridesPointer.addend < 0 ∨
      ¬rangeInBounds fields.dimensionsPointer.addend.toNat (fields.rank * 4) layout.params.size ∨
        ¬rangeInBounds fields.stridesPointer.addend.toNat (fields.rank * 8)
          layout.params.size) := by
    rw [rangeInBounds_iff hsize, rangeInBounds_iff hsize, not_or, not_or, not_or, not_not, not_not]
    exact ⟨Int.not_lt.2 fields.dimensions_nonneg, Int.not_lt.2 fields.strides_nonneg,
      fields.dimensions_in, fields.strides_in⟩
  unfold validateMemref
  rw [h.sectionAt_params, ok_bind, refuseIf_of_not _ (not_not.2
    ((rangeInBounds_iff hsize).2 hrecord)), ok_bind]
  simp (disch := omega) only [readU32, readLE_eq, ok_bind]
  rw [fields.kind_eq, fields.rank_eq, refuseIf_of_not _ hform, ok_bind,
    refuseIf_of_not _ hrank, ok_bind, fields.dimensions_found, fields.strides_found,
    fields.data_found]
  simp only [asUnsupported, ok_bind]
  rw [refuseIf_of_not _ hpointers, ok_bind]
  simp only [refuseIf_of_not _ (Int.not_lt.2 fields.data_nonneg), ok_bind]

theorem dtypeSizeBytes_pos : 0 < dtypeSizeBytes fields.kind := by
  have := fields.element
  unfold dtypeStrideBits at this
  omega

theorem dtypeStrideBits_le : dtypeStrideBits fields.kind ≤ uint64Max := by
  unfold dtypeStrideBits dtypeSizeBytes uint64Max
  split_ifs <;> omega

theorem validateMemref_eq_ok_iff (h : layout.Valid) {contract : MemrefContract} :
    validateMemref layout recordOffset = .ok contract ↔
      fields.Admitted ∧ contract = fields.contract := by
  have hin := h.in_file h.located.params.lt (by
    rw [← GraphLayout.params, h.carrier.params_type]
    decide)
  rw [← GraphLayout.params] at hin
  have hdimensionsIn := fields.dimensions_in
  have hstridesIn := fields.strides_in
  have hsizePos := fields.dtypeSizeBytes_pos
  have hunit : 0 < dtypeStrideBits fields.kind := Nat.pos_of_ne_zero fields.element
  have hread : ∀ state, forRange 0 fields.rank ([], [], 1) (readDimension layout
      (layout.params.offset + fields.dimensionsPointer.addend.toNat)
      (layout.params.offset + fields.stridesPointer.addend.toNat)) = .ok state ↔ _ := fun _ =>
    readDimensions_eq_ok_iff (by omega) (by omega)
  have hcount : fields.elementCount = ∏ index ∈ Finset.range fields.rank, (dimensionValue
      layout.blob (layout.params.offset + fields.dimensionsPointer.addend.toNat) index).toNat := by
    rw [elementCount, dimensions, map_toNat_range, prod_map_range]
  rw [fields.validateMemref_eq h, bind_eq_ok_iff]
  constructor
  · rintro ⟨state, hstate, hrest⟩
    obtain ⟨hall, -, rfl⟩ := (hread state).1 hstate
    obtain ⟨_, hdense, hrest⟩ := bind_eq_ok_iff.1 hrest
    obtain ⟨-, hrest⟩ := refuseIf_bind_eq_ok_iff.1 hrest
    obtain ⟨hdense, hbits⟩ := (checkDense_all_iff (fun index hindex => (hall index hindex).1)
      (fun index hindex => (hall index hindex).2) hunit fields.dtypeStrideBits_le).1 hdense
    refine ⟨⟨?_, ?_, hbits, hdense⟩, ?_⟩
    · intro dimension hdimension
      obtain ⟨index, hindex, rfl⟩ := List.mem_map.1 hdimension
      exact (hall index (List.mem_range.1 hindex)).1
    · intro stride hstride
      obtain ⟨index, hindex, rfl⟩ := List.mem_map.1 hstride
      exact (hall index (List.mem_range.1 hindex)).2
    · rw [← Except.ok.inj hrest, MemrefFields.contract, hcount]
      rfl
  · rintro ⟨hadmitted, rfl⟩
    have hall : ∀ index < fields.rank, 0 < dimensionValue layout.blob
          (layout.params.offset + fields.dimensionsPointer.addend.toNat) index ∧
        0 ≤ strideValue layout.blob
          (layout.params.offset + fields.stridesPointer.addend.toNat) index := fun index hindex =>
      ⟨hadmitted.dimensions_pos _ (List.mem_map.2 ⟨index, List.mem_range.2 hindex, rfl⟩),
        hadmitted.strides_nonneg _ (List.mem_map.2 ⟨index, List.mem_range.2 hindex, rfl⟩)⟩
    have hbits := hadmitted.bits_le
    have hspan : fields.elementCount * dtypeSizeBytes fields.kind ≤ uint64Max := by
      rw [dtypeStrideBits, Nat.mul_left_comm] at hbits
      omega
    have hbound : fields.elementCount ≤ uint64Max :=
      (Nat.le_mul_of_pos_right _ hsizePos).trans hspan
    refine ⟨_, (hread _).2 ⟨hall, hcount ▸ hbound, rfl⟩, ?_⟩
    have hdense := (checkDense_all_iff (fun index hindex => (hall index hindex).1)
      (fun index hindex => (hall index hindex).2) hunit fields.dtypeStrideBits_le).2
      ⟨hadmitted.dense, hbits⟩
    dsimp only
    rw [hdense, ok_bind, ← hcount, refuseIf_of_not _ (by
      rw [Nat.not_lt]
      exact (Nat.le_div_iff_mul_le hsizePos).2 hspan), ok_bind]
    rfl

end MemrefFields

theorem asUnsupported_eq_ok_iff {α : Type} {x : Result α} {a : α} :
    asUnsupported x = .ok a ↔ x = .ok a := by
  rcases x with (_ | _ | _) | _ <;> simp [asUnsupported]

/-- A record that is accepted has its fields. -/
theorem exists_memrefFields {layout : GraphLayout} (h : layout.Valid) {recordOffset : ℕ}
    {contract : MemrefContract} (hvalid : validateMemref layout recordOffset = .ok contract) :
    Nonempty (MemrefFields layout recordOffset) := by
  have hin := h.in_file h.located.params.lt (by
    rw [← GraphLayout.params, h.carrier.params_type]
    decide)
  rw [← GraphLayout.params] at hin
  unfold validateMemref at hvalid
  rw [h.sectionAt_params, ok_bind] at hvalid
  obtain ⟨hrecord, hvalid⟩ := refuseIf_bind_eq_ok_iff.1 hvalid
  have hrecord := le_of_rangeInBounds (not_not.1 hrecord)
  simp (disch := omega) only [readU32, readLE_eq, ok_bind] at hvalid
  obtain ⟨hform, hvalid⟩ := refuseIf_bind_eq_ok_iff.1 hvalid
  obtain ⟨hrank, hvalid⟩ := refuseIf_bind_eq_ok_iff.1 hvalid
  obtain ⟨dimensionsPointer, hdimensions, hvalid⟩ := bind_eq_ok_iff.1 hvalid
  obtain ⟨stridesPointer, hstrides, hvalid⟩ := bind_eq_ok_iff.1 hvalid
  obtain ⟨data, hdata, hvalid⟩ := bind_eq_ok_iff.1 hvalid
  obtain ⟨hpointers, hvalid⟩ := refuseIf_bind_eq_ok_iff.1 hvalid
  obtain ⟨state, -, hvalid⟩ := bind_eq_ok_iff.1 hvalid
  obtain ⟨_, -, hvalid⟩ := bind_eq_ok_iff.1 hvalid
  obtain ⟨-, hvalid⟩ := refuseIf_bind_eq_ok_iff.1 hvalid
  obtain ⟨haddend, -⟩ := refuseIf_bind_eq_ok_iff.1 hvalid
  simp only [not_or, not_not, Nat.not_le, Int.not_lt] at hform hpointers
  exact ⟨{ kind := _, rank := _, dimensionsPointer, stridesPointer, data, record_in := hrecord,
           kind_eq := rfl, static := hform.1, location := hform.2.2.2, kind_lt := hform.2.1,
           element := hform.2.2.1, rank_eq := rfl, rank_pos := by omega, rank_le := by omega,
           dimensions_found := asUnsupported_eq_ok_iff.1 hdimensions,
           strides_found := asUnsupported_eq_ok_iff.1 hstrides,
           data_found := asUnsupported_eq_ok_iff.1 hdata, dimensions_nonneg := hpointers.1,
           dimensions_in := le_of_rangeInBounds hpointers.2.2.1,
           strides_nonneg := hpointers.2.1, strides_in := le_of_rangeInBounds hpointers.2.2.2,
           data_nonneg := Int.not_lt.1 haddend }⟩

/-- A record whose fields pass the other checks is accepted if and only if its dimensions are
positive, its strides are not negative, its bits can be counted in 64 bits and the layout is
dense. Then the span is the element count times the element size, and neither the count of some
of the dimensions nor the bits of their extent leave 64 bits. -/
theorem memref_dense_iff (blob : View) (layout : GraphLayout)
    (hparse : parseGraph blob = .ok layout) (recordOffset : ℕ) (contract : MemrefContract) :
    (∀ fields : MemrefFields layout recordOffset,
      validateMemref layout recordOffset = .ok contract ↔
        fields.Admitted ∧ contract = fields.contract) ∧
      (validateMemref layout recordOffset = .ok contract →
        ∃ fields : MemrefFields layout recordOffset, fields.Admitted ∧
          contract.spanBytes = fields.elementCount * dtypeSizeBytes fields.kind ∧
            contract.spanBytes ≤ uint64Max ∧
              ∀ part : List ℕ, part.Sublist (fields.dimensions.map Int.toNat) →
                part.prod * dtypeStrideBits fields.kind ≤ uint64Max) := by
  have hvalid := GraphLayout.Valid.of_parse hparse
  refine ⟨fun fields => fields.validateMemref_eq_ok_iff hvalid, fun hcontract => ?_⟩
  obtain ⟨fields⟩ := exists_memrefFields hvalid hcontract
  obtain ⟨hadmitted, rfl⟩ := (fields.validateMemref_eq_ok_iff hvalid).1 hcontract
  have hbits := hadmitted.bits_le
  refine ⟨fields, hadmitted, rfl, ?_, fun part hpart => ?_⟩
  · rw [dtypeStrideBits, Nat.mul_left_comm] at hbits
    change fields.elementCount * dtypeSizeBytes fields.kind ≤ uint64Max
    omega
  · have hpos : ∀ dimension ∈ fields.dimensions.map Int.toNat, 1 ≤ dimension := by
      intro dimension hdimension
      obtain ⟨value, hvalue, rfl⟩ := List.mem_map.1 hdimension
      have := hadmitted.dimensions_pos value hvalue
      omega
    exact (Nat.mul_le_mul_right _ (hpart.prod_le_prod' hpos)).trans hbits

/-- The first tensor of the example graph is accepted. -/
theorem memref_dense_example : ∃ layout contract,
    parseGraph (ExampleGraph.view {}) = .ok layout ∧ validateMemref layout 0 = .ok contract ∧
      ∃ fields : MemrefFields layout 0, fields.Admitted ∧
        contract.spanBytes = fields.elementCount * dtypeSizeBytes fields.kind := by
  have hsucceeds : succeeds (parseGraph (ExampleGraph.view {}) >>= fun layout =>
      validateMemref layout 0) = true := by
    decide +kernel
  obtain ⟨contract, h⟩ := succeeds_iff.1 hsucceeds
  obtain ⟨layout, hparse, h⟩ := bind_eq_ok_iff.1 h
  obtain ⟨fields, hadmitted, hspan, -⟩ := (memref_dense_iff _ layout hparse 0 contract).2 h
  exact ⟨layout, contract, hparse, h, fields, hadmitted, hspan⟩

/-! ## A dimension of one with a negative stride -/

theorem negativeStrideView_size_le : 2544 ≤ sizeMax := by decide

/-- The example graph with tensors of one element and a stride of -1. -/
def negativeStrideView : View :=
  viewOf 2544 negativeStrideView_size_le
    (imageOf (ExampleGraph.elfHeader ++ ExampleGraph.sectionHeaders {} ++ ExampleGraph.strings ++
      ExampleGraph.records ++ ExampleGraph.carrier { elementCount := 1 } ++
      ExampleGraph.relocations ++ ExampleGraph.code {} ++ [(1728 + 168, 2 ^ 64 - 17)]))

/-- The one element lies at offset zero whatever the stride is, and the record is refused. -/
theorem dense_memref_refused : ∃ (layout : GraphLayout) (fields : MemrefFields layout 0),
    parseGraph negativeStrideView = .ok layout ∧
      fields.dimensions = [1] ∧ fields.strides = [-1] ∧
        IsDense fields.dimensions fields.strides (dtypeStrideBits fields.kind) ∧
          ∀ contract, validateMemref layout 0 ≠ .ok contract := by
  have hsucceeds : succeeds (parseGraph negativeStrideView >>= fun layout =>
      findPointerRelocation layout layout.paramsIndex 0x10 (some layout.paramsIndex) false >>=
        fun dimensions =>
      findPointerRelocation layout layout.paramsIndex 0x14 (some layout.paramsIndex) false >>=
        fun strides =>
      findPointerRelocation layout layout.paramsIndex 0 none true >>= fun data =>
      refuseIf (layout.params.size < 0x28 ∨
        littleEndian layout.blob.data (layout.params.offset + 0 + 0x18) 4 ≠ 2 ∨
        littleEndian layout.blob.data (layout.params.offset + 0 + 8) 4 ≠ 1 ∨
        littleEndian layout.blob.data (layout.params.offset + 0 + 0x24) 4 ≠ 2 ∨
        littleEndian layout.blob.data (layout.params.offset + 0 + 0x0c) 4 ≠ 1 ∨
        dimensions.addend ≠ 160 ∨ strides.addend ≠ 168 ∨ data.addend ≠ 0 ∨
        layout.params.size ≠ 176 ∨ dimensionValue layout.blob (layout.params.offset + 160) 0 ≠ 1 ∨
        strideValue layout.blob (layout.params.offset + 168) 0 ≠ -1) Failure.wrapped) = true := by
    decide +kernel
  obtain ⟨_, h⟩ := succeeds_iff.1 hsucceeds
  obtain ⟨layout, hparse, h⟩ := bind_eq_ok_iff.1 h
  obtain ⟨dimensions, hdimensions, h⟩ := bind_eq_ok_iff.1 h
  obtain ⟨strides, hstrides, h⟩ := bind_eq_ok_iff.1 h
  obtain ⟨data, hdata, h⟩ := bind_eq_ok_iff.1 h
  simp only [refuseIf_eq_ok_iff, not_or, not_not, Nat.not_lt] at h
  obtain ⟨hrecord, hkind, hstatic, hlocation, hrank, hdimensionsAt, hstridesAt, hdataAt, hsize,
    hdimension, hstride⟩ := h
  let fields : MemrefFields layout 0 :=
    { kind := 2, rank := 1, dimensionsPointer := dimensions, stridesPointer := strides, data,
      record_in := by omega, kind_eq := hkind, static := hstatic, location := hlocation,
      kind_lt := by decide, element := by decide, rank_eq := hrank, rank_pos := by decide,
      rank_le := by decide, dimensions_found := hdimensions, strides_found := hstrides,
      data_found := hdata, dimensions_nonneg := by omega, dimensions_in := by omega,
      strides_nonneg := by omega, strides_in := by omega, data_nonneg := by omega }
  have hdimensionList : fields.dimensions = [1] := by
    change (List.range 1).map (dimensionValue layout.blob
      (layout.params.offset + dimensions.addend.toNat)) = [1]
    rw [hdimensionsAt]
    simpa using hdimension
  have hstrideList : fields.strides = [-1] := by
    change (List.range 1).map (strideValue layout.blob
      (layout.params.offset + strides.addend.toNat)) = [-1]
    rw [hstridesAt]
    simpa using hstride
  refine ⟨layout, fields, hparse, hdimensionList, hstrideList, ?_, fun contract hcontract => ?_⟩
  · rw [hdimensionList, hstrideList]
    exact List.Perm.refl [0]
  · have hadmitted := (fields.validateMemref_eq_ok_iff (GraphLayout.Valid.of_parse hparse)).1
      hcontract
    have := hadmitted.1.strides_nonneg (-1) (by simp [hstrideList])
    omega

end Npunlock
