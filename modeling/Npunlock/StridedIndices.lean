import Mathlib.Algebra.BigOperators.Intervals
import Mathlib.Algebra.Polynomial.Basic
import Mathlib.Algebra.Polynomial.Coeff
import Mathlib.Algebra.Polynomial.RingDivision

/-!
# Strided index spaces

The elements of a strided layout lie at the offsets `∑ iₖ sₖ` for all index tuples with
`iₖ < dₖ`. The generating polynomial of the offsets is the product of the polynomials
`row dₖ sₖ = 1 + X ^ sₖ + … + X ^ ((dₖ - 1) sₖ)` of the dimensions (`generating_offsets`), and a
list of offsets is determined by it up to order (`generating_eq_iff`). So a layout is dense with
unit `e` if the product is `row n e`.

The product law `row d e * row m (e * d) = row (d * m) e` and cancellation give the step of the
greedy check (`dense_step`) : the smallest stride of a dense layout is the unit, and without
its dimension the layout is dense with the unit times the dimension.
-/

namespace Npunlock

open Polynomial

namespace Strided

/-! ## Offsets -/

/-- All index tuples below the dimensions. -/
def indexTuples : List ℕ → List (List ℕ)
  | [] => [[]]
  | dimension :: dimensions =>
    (List.range dimension).flatMap fun index => (indexTuples dimensions).map (index :: ·)

/-- The offset of an element. -/
def offsetOf (strides indices : List ℕ) : ℕ :=
  (List.zipWith (· * ·) indices strides).sum

/-- The polynomial with a term for each offset. -/
noncomputable def generating (offsets : List ℕ) : ℕ[X] :=
  (offsets.map fun offset => X ^ offset).sum

theorem coeff_generating (offsets : List ℕ) (n : ℕ) :
    (generating offsets).coeff n = offsets.count n := by
  induction offsets with
  | nil => simp [generating]
  | cons offset offsets ih =>
    rw [generating] at ih ⊢
    rw [List.map_cons, List.sum_cons, coeff_add, ih, coeff_X_pow, List.count_cons, Nat.add_comm]
    by_cases h : n = offset
    · simp [h]
    · simp [h, Ne.symm h]

/-- The polynomial determines the offsets up to their order. -/
theorem generating_eq_iff {offsets offsets' : List ℕ} :
    generating offsets = generating offsets' ↔ offsets.Perm offsets' := by
  rw [List.perm_iff_count, Polynomial.ext_iff]
  simp only [coeff_generating]

/-! ## One dimension -/

/-- `1 + X ^ stride + … + X ^ ((dimension - 1) * stride)`. -/
noncomputable def row (dimension stride : ℕ) : ℕ[X] :=
  ∑ index ∈ Finset.range dimension, X ^ (index * stride)

@[simp] theorem row_one (stride : ℕ) : row 1 stride = 1 := by
  simp [row]

theorem row_succ (dimension stride : ℕ) :
    row (dimension + 1) stride = row dimension stride + X ^ (dimension * stride) :=
  Finset.sum_range_succ _ _

theorem generating_append (offsets offsets' : List ℕ) :
    generating (offsets ++ offsets') = generating offsets + generating offsets' := by
  simp [generating]

theorem generating_multiples (dimension stride : ℕ) :
    generating ((List.range dimension).map (· * stride)) = row dimension stride := by
  induction dimension with
  | zero => simp [generating, row]
  | succ dimension ih =>
    rw [List.range_succ, List.map_append, generating_append, ih, row_succ]
    simp [generating]

theorem generating_shift (offsets : List ℕ) (offset : ℕ) :
    generating (offsets.map (offset + ·)) = X ^ offset * generating offsets := by
  rw [generating, generating, List.map_map, ← List.sum_map_mul_left]
  congr 1
  refine List.map_congr_left fun offset' _ => ?_
  simp [pow_add]

/-- The offsets of a layout, as the product over its dimensions. -/
theorem generating_offsets : ∀ {dimensions strides : List ℕ},
    dimensions.length = strides.length →
      generating ((indexTuples dimensions).map (offsetOf strides)) =
        (List.zipWith row dimensions strides).prod
  | [], [], _ => by simp [indexTuples, generating, offsetOf]
  | dimension :: dimensions, stride :: strides, h => by
    have ih := @generating_offsets dimensions strides (by simpa using h)
    have htuples : ∀ index, (((indexTuples dimensions).map (index :: ·)).map
        (offsetOf (stride :: strides))) =
          ((indexTuples dimensions).map (offsetOf strides)).map (index * stride + ·) := by
      intro index
      simp [offsetOf, Function.comp_def]
    rw [List.zipWith_cons_cons, List.prod_cons, ← ih, indexTuples]
    induction dimension with
    | zero => simp [generating, row]
    | succ dimension ihDimension =>
      rw [List.range_succ, List.flatMap_append, List.map_append, generating_append, row_succ,
        add_mul, List.flatMap_singleton, htuples, generating_shift]
      congr 1
      exact ihDimension (by simpa using h)

/-! ## Dense layouts -/

variable {dimension unit : ℕ}

/-- A dimension with the unit as its stride, and further steps of its whole extent. -/
theorem row_mul_row (dimension unit steps : ℕ) :
    row dimension unit * row steps (unit * dimension) = row (dimension * steps) unit := by
  induction steps with
  | zero => simp [row]
  | succ steps ih =>
    rw [row_succ, mul_add, ih, Nat.mul_succ, row, row, row, Finset.sum_range_add, Finset.sum_mul]
    congr 1
    refine Finset.sum_congr rfl fun index _ => ?_
    rw [← pow_add]
    congr 1
    ring

theorem coeff_zero_row (hdimension : 0 < dimension) {stride : ℕ} (hstride : 0 < stride) :
    (row dimension stride).coeff 0 = 1 := by
  rw [row, finsetSum_coeff, Finset.sum_eq_single 0]
  · simp
  · intro index _ hindex
    rw [coeff_X_pow, if_neg (by simp [hindex, hstride.ne'])]
  · simp [hdimension.ne']

theorem row_ne_zero (hdimension : 0 < dimension) (stride : ℕ) : row dimension stride ≠ 0 := by
  intro h
  have heval := congrArg (Polynomial.eval 1) h
  simp [row, eval_finsetSum] at heval
  omega

theorem row_mul_eq_iff (hdimension : 0 < dimension) {steps : ℕ} {p : ℕ[X]} :
    row dimension unit * p = row (dimension * steps) unit ↔ p = row steps (unit * dimension) := by
  rw [← row_mul_row, mul_right_inj' (row_ne_zero hdimension unit)]

/-- Only multiples of the stride below the extent are offsets. -/
theorem coeff_row_ne_zero {stride offset : ℕ} (h : (row dimension stride).coeff offset ≠ 0) :
    ∃ index < dimension, offset = index * stride := by
  rw [row, finsetSum_coeff] at h
  obtain ⟨index, hindex, hcoeff⟩ := Finset.exists_ne_zero_of_sum_ne_zero h
  rw [coeff_X_pow] at hcoeff
  refine ⟨index, Finset.mem_range.1 hindex, ?_⟩
  by_contra hne
  exact hcoeff (if_neg hne)

theorem one_le_coeff_row {stride index : ℕ} (hindex : index < dimension) :
    1 ≤ (row dimension stride).coeff (index * stride) := by
  rw [row, finsetSum_coeff]
  calc 1 = (X ^ (index * stride) : ℕ[X]).coeff (index * stride) := by simp
    _ ≤ _ := Finset.single_le_sum (f := fun i => (X ^ (i * stride) : ℕ[X]).coeff (index * stride))
      (fun _ _ => Nat.zero_le _) (Finset.mem_range.2 hindex)

/-- The term of lowest degree is one, and the next degree is above `bound`. -/
def StartsAbove (bound : ℕ) (p : ℕ[X]) : Prop :=
  p.coeff 0 = 1 ∧ ∀ offset, 0 < offset → offset ≤ bound → p.coeff offset = 0

theorem StartsAbove.mul {bound : ℕ} {p q : ℕ[X]} (hp : StartsAbove bound p)
    (hq : StartsAbove bound q) : StartsAbove bound (p * q) := by
  refine ⟨by rw [mul_coeff_zero, hp.1, hq.1, mul_one], fun offset hpos hle => ?_⟩
  rw [coeff_mul]
  refine Finset.sum_eq_zero fun parts hparts => ?_
  have hsum := Finset.HasAntidiagonal.mem_antidiagonal.1 hparts
  by_cases hfirst : parts.1 = 0
  · rw [hq.2 parts.2 (by omega) (by omega), mul_zero]
  · rw [hp.2 parts.1 (by omega) (by omega), zero_mul]

theorem startsAbove_row (hdimension : 0 < dimension) {stride bound : ℕ}
    (h : 1 < dimension → bound < stride) : StartsAbove bound (row dimension stride) := by
  rcases Nat.lt_or_ge 1 dimension with hlarge | hsmall
  · have hstride := h hlarge
    refine ⟨coeff_zero_row hdimension (by omega), fun offset hpos hle => ?_⟩
    by_contra hcoeff
    obtain ⟨index, -, rfl⟩ := coeff_row_ne_zero hcoeff
    have hindex : 0 < index := Nat.pos_of_mul_pos_right hpos
    have := Nat.le_mul_of_pos_left stride hindex
    omega
  · obtain rfl : dimension = 1 := by omega
    rw [row_one]
    exact ⟨by simp, fun offset hpos _ => by rw [coeff_one, if_neg (by omega)]⟩

section Step

variable {ι : Type} {unused : Finset ι} {dimensions strides : ι → ℕ} {k : ι}

theorem one_le_coeff_zero_prod (hpos : ∀ j ∈ unused, 0 < dimensions j) :
    1 ≤ (∏ j ∈ unused, row (dimensions j) (strides j)).coeff 0 := by
  refine Finset.prod_induction _ (fun p : ℕ[X] => 1 ≤ p.coeff 0) (fun p q hp hq => ?_) (by simp)
    fun j hj => ?_
  · rw [mul_coeff_zero]
    exact Nat.mul_pos hp hq
  · simpa using @one_le_coeff_row _ (strides j) _ (hpos j hj)

/-- A layout whose dimensions are all one has one element. -/
theorem dense_done (hone : ∀ j ∈ unused, dimensions j = 1) :
    ∏ j ∈ unused, row (dimensions j) (strides j) = row (∏ j ∈ unused, dimensions j) unit := by
  rw [Finset.prod_eq_one hone, row_one]
  exact Finset.prod_eq_one fun j hj => by rw [hone j hj, row_one]

variable [DecidableEq ι]

/-- The smallest stride of a dense layout is the unit. -/
theorem least_stride_eq_unit (hunit : 0 < unit) (hpos : ∀ j ∈ unused, 0 < dimensions j)
    (hk : k ∈ unused) (hlarge : 1 < dimensions k)
    (hleast : ∀ j ∈ unused, 1 < dimensions j → strides k ≤ strides j)
    (hdense : ∏ j ∈ unused, row (dimensions j) (strides j) =
      row (∏ j ∈ unused, dimensions j) unit) : strides k = unit := by
  have hcount : 1 < ∏ j ∈ unused, dimensions j := by
    rw [← Finset.mul_prod_erase unused dimensions hk]
    have hrest : 0 < ∏ j ∈ unused.erase k, dimensions j :=
      Finset.prod_pos fun j hj => hpos j (Finset.mem_of_mem_erase hj)
    exact hlarge.trans_le (Nat.le_mul_of_pos_right _ hrest)
  have hfirst : (∏ j ∈ unused, row (dimensions j) (strides j)).coeff 0 = 1 := by
    rw [hdense, coeff_zero_row (by omega) hunit]
  have hrest := @one_le_coeff_zero_prod _ (unused.erase k) dimensions strides
    fun j hj => hpos j (Finset.mem_of_mem_erase hj)
  rw [← Finset.mul_prod_erase unused _ hk] at hfirst
  -- A stride of zero would put two elements at one offset.
  have hstride : 0 < strides k := by
    by_contra hzero
    have hstrideZero : strides k = 0 := by omega
    have hrow : (row (dimensions k) (strides k)).coeff 0 = dimensions k := by
      simp [row, hstrideZero]
    rw [mul_coeff_zero, hrow] at hfirst
    have := Nat.le_mul_of_pos_right (dimensions k) hrest
    omega
  -- The element at index one of the dimension lies at a multiple of the unit.
  have hge : unit ≤ strides k := by
    have hcoeff : (row (∏ j ∈ unused, dimensions j) unit).coeff (strides k) ≠ 0 := by
      rw [← hdense, ← Finset.mul_prod_erase unused _ hk, coeff_mul]
      have hone := @one_le_coeff_row _ (strides k) _ hlarge
      rw [Nat.one_mul] at hone
      have hterm := Nat.mul_pos hone hrest
      have hmem : (strides k, 0) ∈ Finset.HasAntidiagonal.antidiagonal (strides k) := by simp
      have := Finset.single_le_sum (f := fun parts : ℕ × ℕ =>
        (row (dimensions k) (strides k)).coeff parts.1 *
          (∏ j ∈ unused.erase k, row (dimensions j) (strides j)).coeff parts.2)
        (fun _ _ => Nat.zero_le _) hmem
      simp only at this
      omega
    obtain ⟨index, -, heq⟩ := coeff_row_ne_zero hcoeff
    have hindex : 0 < index := Nat.pos_of_mul_pos_right (heq ▸ hstride)
    rw [heq]
    exact Nat.le_mul_of_pos_left unit hindex
  -- The element at the unit needs a stride that is not above it.
  by_contra hne
  have habove : StartsAbove unit (∏ j ∈ unused, row (dimensions j) (strides j)) := by
    refine Finset.prod_induction _ (StartsAbove unit) (fun p q hp hq => hp.mul hq) ?_
      fun j hj => startsAbove_row (hpos j hj) fun hj' => ?_
    · exact ⟨by simp, fun offset hoffset _ => by rw [coeff_one, if_neg (by omega)]⟩
    · have := hleast j hj hj'
      omega
  have hunitCoeff := habove.2 unit hunit le_rfl
  rw [hdense] at hunitCoeff
  have hone := @one_le_coeff_row _ unit _ hcount
  rw [Nat.one_mul] at hone
  omega

/-- A step of the greedy check : the smallest stride must be the unit, and the other dimensions
must be dense with the extent of its dimension as their unit. -/
theorem dense_step (hunit : 0 < unit) (hpos : ∀ j ∈ unused, 0 < dimensions j)
    (hk : k ∈ unused) (hlarge : 1 < dimensions k)
    (hleast : ∀ j ∈ unused, 1 < dimensions j → strides k ≤ strides j) :
    ∏ j ∈ unused, row (dimensions j) (strides j) = row (∏ j ∈ unused, dimensions j) unit ↔
      strides k = unit ∧ ∏ j ∈ unused.erase k, row (dimensions j) (strides j) =
        row (∏ j ∈ unused.erase k, dimensions j) (unit * dimensions k) := by
  have hsplit : strides k = unit →
      (∏ j ∈ unused, row (dimensions j) (strides j) = row (∏ j ∈ unused, dimensions j) unit ↔
        ∏ j ∈ unused.erase k, row (dimensions j) (strides j) =
          row (∏ j ∈ unused.erase k, dimensions j) (unit * dimensions k)) := by
    intro hstride
    rw [← Finset.mul_prod_erase unused _ hk, ← Finset.mul_prod_erase unused dimensions hk, hstride]
    exact row_mul_eq_iff (by omega)
  constructor
  · intro hdense
    have hstride := least_stride_eq_unit hunit hpos hk hlarge hleast hdense
    exact ⟨hstride, (hsplit hstride).1 hdense⟩
  · rintro ⟨hstride, hdense⟩
    exact (hsplit hstride).2 hdense

end Step

end Strided

end Npunlock
