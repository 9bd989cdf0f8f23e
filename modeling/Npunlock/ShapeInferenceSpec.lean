import Mathlib.Data.PNat.Notation
import Npunlock.ShapeInference

/-!
# The laws of shape inference

What holds of the inferred shapes (`shape_inference_laws`) : the parts of a split concatenate
to the input, a reshape keeps the number of elements, squeezing and transposing back give the
input, and a broadcast gives the least shape that both operands broadcast to.
-/

namespace Npunlock

/-! ## Inputs -/

theorem tensorSpec_eq_ok_iff {shape : List ℕ} {dtype : DType} {spec : TensorSpec} :
    tensorSpec shape dtype = .ok spec ↔ spec.shape = shape ∧ spec.dtype = dtype := by
  unfold tensorSpec
  split_ifs with h
  · rw [Except.ok.injEq]
    constructor
    · rintro rfl
      exact ⟨rfl, rfl⟩
    · rintro ⟨rfl, rfl⟩
      rfl
  · simp only [false_iff]
    rintro ⟨rfl, -⟩
    exact h spec.positive

@[simp] theorem tensorSpec_spec (spec : TensorSpec) :
    tensorSpec spec.shape spec.dtype = .ok spec :=
  tensorSpec_eq_ok_iff.2 ⟨rfl, rfl⟩

/-- The constant of an input. -/
def OperatorInput.integers (input : OperatorInput) : List ℤ :=
  match input.value with
  | some array => array.values
  | none => []

/-- The input is an integer constant of some rank. -/
def OperatorInput.IsIntegers (input : OperatorInput) (ndim : ℕ) : Prop :=
  input.producerOp = "Const" ∧ ∃ array, input.value = some array ∧ array.ndim = ndim ∧
    array.isInteger = true

theorem constantArray_eq_ok_iff {input : OperatorInput} {operator role form : String} {ndim : ℕ}
    {values : List ℤ} : constantArray input operator role ndim form = .ok values ↔
      input.IsIntegers ndim ∧ input.integers = values := by
  unfold constantArray OperatorInput.IsIntegers OperatorInput.integers
  rw [refuseIf_bind_eq_ok_iff, not_not]
  cases input.value with
  | none => simp
  | some array => simp [and_assoc]

theorem constantIntegerVector_eq_ok_iff {input : OperatorInput} {operator role : String}
    {values : List ℤ} : constantIntegerVector input operator role = .ok values ↔
      input.IsIntegers 1 ∧ input.integers = values :=
  constantArray_eq_ok_iff

theorem integers_of_constantIntegerScalar {input : OperatorInput} {operator role : String}
    {value : ℤ} (h : constantIntegerScalar input operator role = .ok value) :
    input.integers = [value] := by
  unfold constantIntegerScalar at h
  obtain ⟨values, hvalues, h⟩ := bind_eq_ok_iff.1 h
  rw [(constantArray_eq_ok_iff.1 hvalues).2]
  split at h
  · rw [Except.ok.inj h]
  · cases h

/-! ## Axes -/

theorem axisIndex_eq_ok_iff {rank index : ℕ} {axis : ℤ} {outOfRange : ShapeError} :
    axisIndex rank axis outOfRange = .ok index ↔
      normalizeAxis rank axis = index ∧ index < rank := by
  unfold axisIndex
  rw [refuseIf_bind_eq_ok_iff, Except.ok.injEq]
  omega

theorem axisIndices_eq_ok_iff {operator : String} {rank : ℕ} {axes : List ℤ} {indices : List ℕ} :
    axisIndices operator rank axes = .ok indices ↔
      indices.Nodup ∧ (∀ index ∈ indices, index < rank) ∧
        axes.map (normalizeAxis rank) = indices.map Int.ofNat := by
  unfold axisIndices
  simp only [refuseIf_bind_eq_ok_iff, not_exists, not_and, not_or, not_not, not_lt, not_le,
    Except.ok.injEq]
  constructor
  · rintro ⟨hrange, hnodup, rfl⟩
    have hcast : ((axes.map (normalizeAxis rank)).map Int.toNat).map Int.ofNat =
        axes.map (normalizeAxis rank) := by
      rw [List.map_map]
      refine (List.map_congr_left fun axis haxis => ?_).trans (List.map_id _)
      exact Int.toNat_of_nonneg (hrange axis haxis).1
    refine ⟨?_, ?_, hcast.symm⟩
    · rw [← hcast] at hnodup
      exact hnodup.of_map _
    · intro index hindex
      obtain ⟨axis, haxis, rfl⟩ := List.mem_map.1 hindex
      have := hrange axis haxis
      omega
  · rintro ⟨hnodup, hrange, heq⟩
    rw [heq]
    refine ⟨?_, hnodup.map Int.ofNat_injective, ?_⟩
    · intro axis haxis
      obtain ⟨index, hindex, rfl⟩ := List.mem_map.1 haxis
      have := hrange index hindex
      simp only [Int.ofNat_eq_natCast]
      omega
    · rw [List.map_map]
      exact (List.map_congr_left fun _ _ => Int.toNat_natCast _).trans (List.map_id _)

/-! ## Concatenation -/

theorem getElem?_of_mem_zipIdx_zip {left right : List ℕ} {entry : (ℕ × ℕ) × ℕ}
    (h : entry ∈ (left.zip right).zipIdx) :
    left[entry.2]? = some entry.1.1 ∧ right[entry.2]? = some entry.1.2 := by
  have hget := List.mem_zipIdx_iff_getElem?.1 h
  rw [List.getElem?_zip_eq_some] at hget
  exact hget

/-- Parts of a shape along an axis. -/
structure PartsOf (data : TensorSpec) (axis : ℕ) (parts : List OperatorInput) : Prop where
  dtype : ∀ part ∈ parts, part.dtype = data.dtype
  shape : ∀ part ∈ parts, part.shape = data.shape.set axis (part.shape.getD axis 0)
  size : (parts.map fun part => part.shape.getD axis 0).sum = data.shape.getD axis 0

theorem concatSize_eq {data : TensorSpec} {axis : ℕ} {expected : List ℕ} {size : ℕ}
    (hexpected : expected = data.shape.set axis size) :
    ∀ {parts : List OperatorInput} {total : ℕ},
      (∀ part ∈ parts, part.shape = data.shape.set axis (part.shape.getD axis 0)) →
      parts.foldlM (fun size value => do
        refuseIf (∃ entry ∈ (value.shape.zip expected).zipIdx,
            entry.2 ≠ axis ∧ entry.1.1 ≠ entry.1.2)
          (ShapeError.value "automatic Concat inference requires equal non-axis dimensions")
        .ok (size + value.shape.getD axis 0)) total =
          Except.ok (total + (parts.map fun part => part.shape.getD axis 0).sum)
  | [], total, _ => rfl
  | part :: parts, total, h => by
    have hpart : ¬∃ entry ∈ (part.shape.zip expected).zipIdx,
        entry.2 ≠ axis ∧ entry.1.1 ≠ entry.1.2 := by
      rintro ⟨entry, hentry, haxis, hne⟩
      obtain ⟨hleft, hright⟩ := getElem?_of_mem_zipIdx_zip hentry
      rw [h part List.mem_cons_self, List.getElem?_set_ne haxis.symm] at hleft
      rw [hexpected, List.getElem?_set_ne haxis.symm] at hright
      exact hne (Option.some.inj (hleft.symm.trans hright))
    rw [List.foldlM_cons, refuseIf_of_not _ hpart]
    rw [List.map_cons, List.sum_cons, ← Nat.add_assoc]
    exact concatSize_eq hexpected fun other hother => h other (List.mem_cons_of_mem _ hother)

theorem concat_of_partsOf {data : TensorSpec} {axis : ℤ} {index : ℕ}
    (hnormalize : normalizeAxis data.shape.length axis = index) (hindex : index < data.shape.length)
    {parts : List OperatorInput} (hne : parts ≠ []) (h : PartsOf data index parts) :
    outputSpecs "Concat" parts {} [("axis", .scalar (.integer axis))] = .ok [data] := by
  cases parts with
  | nil => exact absurd rfl hne
  | cons first rest =>
    change concatSpecs first rest [("axis", .scalar (.integer axis))] = _
    have hlength : ∀ part ∈ first :: rest, part.shape.length = data.shape.length := by
      intro part hpart
      rw [h.shape part hpart, List.length_set]
    have hfirst := hlength first List.mem_cons_self
    have haxis : ∀ outOfRange : ShapeError,
        axisIndex first.shape.length axis outOfRange = .ok index := by
      intro outOfRange
      rw [hfirst]
      exact axisIndex_eq_ok_iff.2 ⟨hnormalize, hindex⟩
    have hsame : ¬∃ value ∈ rest, value.dtype ≠ first.dtype ∨
        value.shape.length ≠ first.shape.length := by
      rintro ⟨value, hvalue, hother | hother⟩
      · exact hother ((h.dtype value (List.mem_cons_of_mem _ hvalue)).trans
          (h.dtype first List.mem_cons_self).symm)
      · exact hother ((hlength value (List.mem_cons_of_mem _ hvalue)).trans hfirst.symm)
    have hsize : concatSize index first.shape (first :: rest) = .ok (data.shape.getD index 0) := by
      rw [← h.size, ← Nat.zero_add (List.sum _)]
      exact concatSize_eq (h.shape first List.mem_cons_self) h.shape
    have hshape : first.shape.set index (data.shape.getD index 0) = data.shape := by
      rw [h.shape first List.mem_cons_self, List.set_set, List.getD_eq_getElem _ _ hindex,
        List.set_getElem_self]
    have hdtype : first.dtype = data.dtype := h.dtype first List.mem_cons_self
    unfold concatSpecs
    simp only [List.lookup_cons_self]
    rw [haxis, ok_bind, refuseIf_of_not _ hsame, ok_bind, hsize, ok_bind, hshape, hdtype,
      tensorSpec_spec, ok_bind]

/-! ## Splitting -/

/-- Each part of a split has its dimension at the axis. -/
theorem getD_set_self {shape : List ℕ} {axis size : ℕ} (h : axis < shape.length) :
    (shape.set axis size).getD axis 0 = size := by
  rw [List.getD_eq_getElem _ _ (by simpa using h), List.getElem_set_self]

theorem split_concat {data axisInput : OperatorInput} {attributes : List (String × Attribute)}
    {specs : List TensorSpec}
    (h : outputSpecs "Split" [data, axisInput] {} attributes = .ok specs) :
    ∃ axis, axisInput.integers = [axis] ∧ ∀ parts : List OperatorInput,
      parts.map OperatorInput.spec = specs →
        outputSpecs "Concat" parts {} [("axis", .scalar (.integer axis))] = .ok [data.spec] := by
  change splitSpecs data axisInput attributes = .ok specs at h
  unfold splitSpecs at h
  obtain ⟨axis, haxis, h⟩ := bind_eq_ok_iff.1 h
  refine ⟨axis, integers_of_constantIntegerScalar haxis, fun parts hparts => ?_⟩
  obtain ⟨index, hindex, h⟩ := bind_eq_ok_iff.1 h
  obtain ⟨hnormalize, hlt⟩ := axisIndex_eq_ok_iff.1 hindex
  split at h
  · rename_i numSplits _
    obtain ⟨hpositive, h⟩ := refuseIf_bind_eq_ok_iff.1 h
    obtain ⟨hdivides, h⟩ := refuseIf_bind_eq_ok_iff.1 h
    obtain ⟨spec, hspec, h⟩ := bind_eq_ok_iff.1 h
    obtain ⟨hshape, hdtype⟩ := tensorSpec_eq_ok_iff.1 hspec
    cases h
    have hpart : ∀ part ∈ parts, part.spec = spec := fun part hpart =>
      List.eq_of_mem_replicate (hparts ▸ List.mem_map_of_mem hpart)
    have hlength : parts.length = numSplits.toNat := by
      rw [← List.length_map OperatorInput.spec, hparts, List.length_replicate]
    have hcount : 0 < parts.length := by omega
    have hsize : ∀ part ∈ parts, part.shape.getD index 0 =
        data.shape.getD index 0 / numSplits.toNat := by
      intro part hmem
      rw [OperatorInput.shape, hpart part hmem, hshape, getD_set_self hlt]
    refine concat_of_partsOf hnormalize hlt (List.ne_nil_of_length_pos hcount) ⟨?_, ?_, ?_⟩
    · intro part hmem
      rw [OperatorInput.dtype, hpart part hmem, hdtype]
    · intro part hmem
      rw [hsize part hmem, OperatorInput.shape, hpart part hmem, hshape]
    · rw [List.map_congr_left hsize, List.map_const', List.sum_replicate_nat, hlength,
        Nat.mul_div_cancel' (Nat.dvd_of_mod_eq_zero (not_not.1 hdivides))]
  · cases h

/-- The inferred length is the only one. -/
theorem split_of_inferred {lengths : List ℤ} {value : ℤ} :
    ∀ {start : ℕ}, ((lengths.zipIdx start).filter fun entry => entry.1 = value).length ≤ 1 →
      (((lengths.zipIdx start).filter fun entry => entry.1 = value).map Prod.snd).head? = none ∧
          value ∉ lengths ∨
        ∃ before after, lengths = before ++ value :: after ∧ value ∉ before ∧ value ∉ after ∧
          (((lengths.zipIdx start).filter fun entry => entry.1 = value).map Prod.snd).head? =
            some (start + before.length) := by
  induction lengths with
  | nil => exact fun _ => .inl ⟨rfl, List.not_mem_nil⟩
  | cons length lengths ih =>
    intro start h
    rw [List.zipIdx_cons] at h ⊢
    by_cases hvalue : length = value
    · subst hvalue
      rw [List.filter_cons_of_pos (by simp)] at h ⊢
      have hrest : (lengths.zipIdx (start + 1)).filter (fun entry => entry.1 = length) = [] :=
        List.eq_nil_of_length_eq_zero (by simpa using h)
      refine .inr ⟨[], lengths, rfl, List.not_mem_nil, fun hmem => ?_, rfl⟩
      obtain ⟨index, hindex, rfl⟩ := List.getElem_of_mem hmem
      have hentry := List.filter_eq_nil_iff.1 hrest (lengths[index], start + 1 + index)
        (List.mem_zipIdx_iff_le_and_getElem?_sub.2 ⟨by omega, by simp [hindex]⟩)
      simp at hentry
    · rw [List.filter_cons_of_neg (by simpa using hvalue)] at h ⊢
      rcases ih h with ⟨hnone, hmem⟩ | ⟨before, after, rfl, hbefore, hafter, hhead⟩
      · exact .inl ⟨hnone, by simp [hmem, Ne.symm hvalue]⟩
      · refine .inr ⟨length :: before, after, rfl, by simp [hbefore, Ne.symm hvalue], hafter, ?_⟩
        rw [hhead, List.length_cons]
        congr 1
        omega

theorem splitLengths_spec {axisSize : ℕ} {lengths lengths' : List ℤ} (hne : lengths ≠ [])
    (h : splitLengths axisSize lengths = .ok lengths') :
    lengths' ≠ [] ∧ (∀ length ∈ lengths', 0 < length) ∧ lengths'.sum = axisSize := by
  unfold splitLengths at h
  obtain ⟨hone, h⟩ := refuseIf_bind_eq_ok_iff.1 h
  obtain ⟨hform, h⟩ := refuseIf_bind_eq_ok_iff.1 h
  rw [List.length_map, not_lt] at hone
  simp only [not_exists, not_and, not_or] at hform
  have hpositive : ∀ l : List ℤ, l ⊆ lengths → -1 ∉ l → ∀ length ∈ l, 0 < length := by
    intro l hsubset hmem length hlength
    have hne : length ≠ -1 := fun heq => hmem (heq ▸ hlength)
    have := hform length (hsubset hlength)
    omega
  have hfilter : ∀ l : List ℤ, (∀ length ∈ l, 0 < length) →
      l.filter (fun length => 0 < length) = l :=
    fun l hl => List.filter_eq_self.2 fun length hlength => by simpa using hl length hlength
  rcases split_of_inferred hone with ⟨hnone, hmem⟩ | ⟨before, after, rfl, hbefore, hafter, hsome⟩
  · rw [hnone] at h
    have hall := hpositive lengths (List.Subset.refl _) hmem
    rw [hfilter _ hall] at h
    obtain ⟨hsum, h⟩ := refuseIf_bind_eq_ok_iff.1 h
    cases h
    exact ⟨hne, hall, not_not.1 hsum⟩
  · rw [hsome] at h
    obtain ⟨hremainder, h⟩ := refuseIf_bind_eq_ok_iff.1 h
    cases h
    have hallBefore := hpositive before (List.subset_append_left _ _) hbefore
    have hallAfter := hpositive after
      (List.subset_append_of_subset_right _ (List.subset_cons_self _ _)) hafter
    rw [List.filter_append, List.filter_cons_of_neg (by decide), hfilter _ hallBefore,
      hfilter _ hallAfter, List.sum_append] at hremainder ⊢
    rw [Nat.zero_add, List.set_append_right _ _ le_rfl, Nat.sub_self, List.set_cons_zero]
    refine ⟨by simp, ?_, ?_⟩
    · intro length hlength
      rcases List.mem_append.1 hlength with hmem | hmem
      · exact hallBefore length hmem
      · rcases List.mem_cons.1 hmem with rfl | hmem
        · exact not_le.1 hremainder
        · exact hallAfter length hmem
    · rw [List.sum_append, List.sum_cons]
      omega

theorem sum_map_toNat : ∀ {lengths : List ℤ}, (∀ length ∈ lengths, 0 < length) →
    ((lengths.map Int.toNat).sum : ℤ) = lengths.sum
  | [], _ => rfl
  | length :: lengths, h => by
    have hhead := h length List.mem_cons_self
    have hrest := sum_map_toNat fun other hother => h other (List.mem_cons_of_mem _ hother)
    rw [List.map_cons, List.sum_cons, List.sum_cons, ← hrest]
    push_cast
    omega

theorem variadicSplit_concat {data axisInput lengthsInput : OperatorInput}
    {attributes : List (String × Attribute)} {specs : List TensorSpec}
    (h : outputSpecs "VariadicSplit" [data, axisInput, lengthsInput] {} attributes = .ok specs) :
    ∃ axis, axisInput.integers = [axis] ∧ ∀ parts : List OperatorInput,
      parts.map OperatorInput.spec = specs →
        outputSpecs "Concat" parts {} [("axis", .scalar (.integer axis))] = .ok [data.spec] := by
  change variadicSplitSpecs data axisInput lengthsInput = .ok specs at h
  unfold variadicSplitSpecs at h
  obtain ⟨axis, haxis, h⟩ := bind_eq_ok_iff.1 h
  refine ⟨axis, integers_of_constantIntegerScalar haxis, fun parts hparts => ?_⟩
  obtain ⟨index, hindex, h⟩ := bind_eq_ok_iff.1 h
  obtain ⟨hnormalize, hlt⟩ := axisIndex_eq_ok_iff.1 hindex
  obtain ⟨lengths, -, h⟩ := bind_eq_ok_iff.1 h
  obtain ⟨hne, h⟩ := refuseIf_bind_eq_ok_iff.1 h
  obtain ⟨lengths', hlengths, h⟩ := bind_eq_ok_iff.1 h
  obtain ⟨hne', hpositive, hsum⟩ := splitLengths_spec hne hlengths
  have hspecs := mapM_eq_ok_iff.1 h
  rw [← hparts, List.forall₂_map_right_iff] at hspecs
  have hpart : List.Forall₂ (fun length part => part.shape = data.shape.set index length.toNat ∧
      part.dtype = data.dtype) lengths' parts := by
    refine hspecs.imp fun length part heq => ?_
    obtain ⟨hshape, hdtype⟩ := tensorSpec_eq_ok_iff.1 heq
    rw [List.set_eq_take_append_cons_drop, if_pos hlt]
    exact ⟨hshape, hdtype⟩
  have hsize : ∀ {length : ℤ} {part : OperatorInput},
      part.shape = data.shape.set index length.toNat →
        part.shape.getD index 0 = length.toNat := fun heq => by rw [heq, getD_set_self hlt]
  refine concat_of_partsOf hnormalize hlt ?_ ⟨?_, ?_, ?_⟩
  · rintro rfl
    exact hne' (List.forall₂_nil_right_iff.1 hpart)
  · intro part hmem
    obtain ⟨length, -, hlength⟩ := exists_of_forall₂ hpart.flip hmem
    exact hlength.2
  · intro part hmem
    obtain ⟨length, -, hlength⟩ := exists_of_forall₂ hpart.flip hmem
    rw [hsize hlength.1]
    exact hlength.1
  · have hmap : parts.map (fun part => part.shape.getD index 0) = lengths'.map Int.toNat :=
      map_eq_map_of_forall₂ (fun length part heq => hsize heq.1) hpart
    have hcast := sum_map_toNat hpositive
    rw [hmap]
    exact_mod_cast hcast.trans hsum

/-! ## Reshaping -/

/-- What holds of the variables after some rounds. -/
structure ReshapeInvariant (rounds : ℕ) (state : ReshapeState) : Prop where
  prod : state.outputShape.prod = state.knownElements
  length : state.outputShape.length = rounds
  inferred : ∀ index, state.inferredIndex = some index → state.outputShape[index]? = some 1

theorem reshapeStep_spec {shape : List ℕ} {specialZero : Bool} {state state' : ReshapeState}
    {dimension : ℤ} {rounds : ℕ} (h : ReshapeInvariant rounds state)
    (hstep : reshapeStep shape specialZero state (dimension, rounds) = .ok state') :
    ReshapeInvariant (rounds + 1) state' := by
  have hknown (size : ℕ) : ReshapeInvariant (rounds + 1)
      { state with
        outputShape := state.outputShape ++ [size]
        knownElements := state.knownElements * size } := by
    refine ⟨by simp [h.prod], by simp [h.length], fun index hindex => ?_⟩
    have hget := h.inferred index hindex
    obtain ⟨hlt, -⟩ := List.getElem?_eq_some_iff.1 hget
    rw [List.getElem?_append_left hlt, hget]
  unfold reshapeStep at hstep
  dsimp only at hstep
  split_ifs at hstep
  · obtain ⟨-, hstep⟩ := refuseIf_bind_eq_ok_iff.1 hstep
    cases hstep
    refine ⟨by simp [h.prod], by simp [h.length], fun index hindex => ?_⟩
    obtain rfl := Option.some.inj hindex
    rw [← h.length]
    exact List.getElem?_concat_length
  · obtain ⟨-, hstep⟩ := refuseIf_bind_eq_ok_iff.1 hstep
    split at hstep
    · cases hstep
    · cases hstep
      exact hknown _
  · obtain ⟨-, hstep⟩ := refuseIf_bind_eq_ok_iff.1 hstep
    cases hstep
    exact hknown _

theorem reshapeSteps_spec {shape : List ℕ} {specialZero : Bool} :
    ∀ {pattern : List ℤ} {rounds : ℕ} {state state' : ReshapeState},
      ReshapeInvariant rounds state →
        (pattern.zipIdx rounds).foldlM (reshapeStep shape specialZero) state = .ok state' →
          ReshapeInvariant (rounds + pattern.length) state'
  | [], rounds, state, state', h, hrun => by
    cases hrun
    exact h
  | dimension :: pattern, rounds, state, state', h, hrun => by
    rw [List.zipIdx_cons, List.foldlM_cons] at hrun
    obtain ⟨middle, hstep, hrun⟩ := bind_eq_ok_iff.1 hrun
    have hrest := reshapeSteps_spec (reshapeStep_spec h hstep) hrun
    rwa [List.length_cons, Nat.add_comm pattern.length, ← Nat.add_assoc]

/-- A dimension that was 1 multiplies the element count. -/
theorem prod_set_one {shape : List ℕ} {index size : ℕ} (h : shape[index]? = some 1) :
    (shape.set index size).prod = shape.prod * size := by
  obtain ⟨hlt, hget⟩ := List.getElem?_eq_some_iff.1 h
  have hshape : shape = shape.take index ++ 1 :: shape.drop (index + 1) := by
    conv_lhs => rw [← List.take_append_drop index shape, List.drop_eq_getElem_cons hlt, hget]
  rw [List.set_eq_take_append_cons_drop, if_pos hlt, List.prod_append, List.prod_cons]
  conv_rhs => rw [hshape, List.prod_append, List.prod_cons, Nat.one_mul]
  rw [Nat.mul_assoc, Nat.mul_comm size]

theorem reshape_preserves_count {data pattern : OperatorInput}
    {attributes : List (String × Attribute)} {specs : List TensorSpec}
    (h : outputSpecs "Reshape" [data, pattern] {} attributes = .ok specs) :
    ∃ spec, specs = [spec] ∧ spec.shape.prod = data.shape.prod := by
  change reshapeSpecs data pattern attributes = .ok specs at h
  unfold reshapeSpecs at h
  obtain ⟨dimensions, -, h⟩ := bind_eq_ok_iff.1 h
  obtain ⟨specialZero, -, h⟩ := bind_eq_ok_iff.1 h
  obtain ⟨state, hstate, h⟩ := bind_eq_ok_iff.1 h
  obtain ⟨outputShape, hend, h⟩ := bind_eq_ok_iff.1 h
  obtain ⟨spec, hspec, h⟩ := bind_eq_ok_iff.1 h
  cases h
  refine ⟨spec, rfl, ?_⟩
  rw [(tensorSpec_eq_ok_iff.1 hspec).1]
  have hinvariant := reshapeSteps_spec ⟨rfl, rfl, by simp⟩ hstate
  unfold reshapeEnd at hend
  cases hinferred : state.inferredIndex with
  | none =>
    rw [hinferred] at hend
    obtain ⟨hcount, hend⟩ := refuseIf_bind_eq_ok_iff.1 hend
    cases hend
    rw [hinvariant.prod, not_not.1 hcount]
  | some index =>
    rw [hinferred] at hend
    obtain ⟨hdivides, hend⟩ := refuseIf_bind_eq_ok_iff.1 hend
    cases hend
    rw [prod_set_one (hinvariant.inferred index hinferred), hinvariant.prod]
    have hmod : data.shape.prod % state.knownElements = 0 := by omega
    exact Nat.mul_div_cancel' (Nat.dvd_of_mod_eq_zero hmod)

/-! ## Squeezing -/

/-- The dimensions that are not at inserted axes are the source, the others are 1. -/
theorem unsqueezeShape_spec {inserted : List ℕ} :
    ∀ {count start : ℕ} {source : List ℕ},
      ((List.range' start count).filter (· ∉ inserted)).length = source.length →
        ∃ shape, unsqueezeShape inserted (List.range' start count) source = .ok shape ∧
          shape.length = count ∧
          ((shape.zipIdx start).filter fun entry => entry.2 ∉ inserted).map Prod.fst = source ∧
          ∀ index < count, start + index ∈ inserted → shape[index]? = some 1
  | 0, start, source, h => by
    refine ⟨[], rfl, rfl, ?_, fun index hindex => absurd hindex (Nat.not_lt_zero _)⟩
    exact (List.eq_nil_of_length_eq_zero h.symm).symm
  | count + 1, start, source, h => by
    rw [List.range'_succ] at h ⊢
    by_cases hmem : start ∈ inserted
    · rw [List.filter_cons_of_neg (by simpa using hmem)] at h
      obtain ⟨shape, hshape, hlength, hsource, hone⟩ := unsqueezeShape_spec h
      refine ⟨1 :: shape, ?_, by rw [List.length_cons, hlength], ?_, ?_⟩
      · rw [unsqueezeShape.eq_def]
        dsimp only
        rw [if_pos hmem, hshape]
        rfl
      · rw [List.zipIdx_cons, List.filter_cons_of_neg (by simpa using hmem), hsource]
      · rintro (_ | index) hindex hinserted
        · rfl
        · refine hone index (by omega) ?_
          rwa [Nat.add_assoc, Nat.add_comm 1]
    · rw [List.filter_cons_of_pos (by simpa using hmem), List.length_cons] at h
      obtain ⟨dimension, source, rfl⟩ := List.exists_cons_of_length_eq_add_one h.symm
      obtain ⟨shape, hshape, hlength, hsource, hone⟩ :=
        unsqueezeShape_spec (Nat.succ.inj (h.trans List.length_cons))
      refine ⟨dimension :: shape, ?_, by rw [List.length_cons, hlength], ?_, ?_⟩
      · rw [unsqueezeShape, if_neg hmem, hshape]
        rfl
      · rw [List.zipIdx_cons, List.filter_cons_of_pos (by simpa using hmem), List.map_cons,
          hsource]
      · rintro (_ | index) hindex hinserted
        · exact absurd hinserted hmem
        · refine hone index (by omega) ?_
          rwa [Nat.add_assoc, Nat.add_comm 1]

/-- As many axes remain as are not inserted. -/
theorem length_filter_range {inserted : List ℕ} {rank : ℕ} (hnodup : inserted.Nodup)
    (hlt : ∀ axis ∈ inserted, axis < rank) :
    ((List.range rank).filter (· ∉ inserted)).length + inserted.length = rank := by
  have hperm : ((List.range rank).filter (· ∈ inserted)).Perm inserted := by
    refine (List.perm_ext_iff_of_nodup (List.nodup_range.filter _) hnodup).2 fun axis => ?_
    simpa using hlt axis
  have hsplit := (List.filter_append_perm (fun axis => decide (axis ∈ inserted))
    (List.range rank)).length_eq
  simp only [← decide_not, List.length_append, hperm.length_eq, List.length_range] at hsplit
  omega

theorem squeeze_unsqueeze {data axes expanded : OperatorInput}
    {attributes attributes' : List (String × Attribute)} {specs : List TensorSpec}
    (h : outputSpecs "Unsqueeze" [data, axes] {} attributes = .ok specs)
    (hexpanded : specs = [expanded.spec]) :
    outputSpecs "Squeeze" [expanded, axes] {} attributes' =
      if data.shape = [] then .error squeezesToScalar else .ok [data.spec] := by
  change unsqueezeSpecs data axes = .ok specs at h
  unfold unsqueezeSpecs at h
  obtain ⟨values, hvalues, h⟩ := bind_eq_ok_iff.1 h
  obtain ⟨hne, h⟩ := refuseIf_bind_eq_ok_iff.1 h
  obtain ⟨inserted, hinserted, h⟩ := bind_eq_ok_iff.1 h
  obtain ⟨outputShape, hshape, h⟩ := bind_eq_ok_iff.1 h
  obtain ⟨spec, hspec, h⟩ := bind_eq_ok_iff.1 h
  cases h
  obtain rfl : spec = expanded.spec := List.singleton_injective hexpanded
  obtain ⟨hnodup, hlt, hnormalized⟩ := axisIndices_eq_ok_iff.1 hinserted
  have hlength : inserted.length = values.length := by
    rw [← List.length_map Int.ofNat, ← hnormalized, List.length_map]
  have hremaining := length_filter_range hnodup hlt
  have hrange : ((List.range' 0 (data.shape.length + values.length)).filter
      (· ∉ inserted)).length = data.shape.length := by
    rw [← List.range_eq_range']
    omega
  obtain ⟨shape, hshape', hrank, hsource, hone⟩ := unsqueezeShape_spec hrange
  rw [List.range_eq_range', hshape'] at hshape
  cases hshape
  obtain ⟨hexpandedShape, hdtype⟩ := tensorSpec_eq_ok_iff.1 hspec
  have haxes : constantIntegerVector axes "Squeeze" "axes" = .ok values :=
    constantIntegerVector_eq_ok_iff.2 (constantIntegerVector_eq_ok_iff.1 hvalues)
  have hindices : axisIndices "Squeeze" expanded.shape.length values = .ok inserted := by
    rw [OperatorInput.shape, hexpandedShape, hrank]
    exact axisIndices_eq_ok_iff.2 ⟨hnodup, hlt, hnormalized⟩
  have hones : ¬∃ axis ∈ inserted, expanded.shape.getD axis 0 ≠ 1 := by
    rintro ⟨axis, haxis, hdimension⟩
    have hget := hone axis (hlt axis haxis) (by rwa [Nat.zero_add])
    rw [OperatorInput.shape, hexpandedShape, List.getD_eq_getElem?_getD, hget] at hdimension
    exact hdimension rfl
  change squeezeSpecs expanded axes = _
  unfold squeezeSpecs
  rw [haxes, ok_bind, refuseIf_of_not _ hne, ok_bind, hindices, ok_bind, refuseIf_of_not _ hones,
    ok_bind]
  dsimp only
  rw [OperatorInput.shape, hexpandedShape, hsource, OperatorInput.dtype, hdtype]
  split_ifs with hscalar
  · rw [refuseIf_of _ hscalar]
    rfl
  · rw [refuseIf_of_not _ hscalar, ok_bind, tensorSpec_spec, ok_bind]

/-! ## Transposing -/

/-- The order that undoes another. -/
def inversePermutation (order : List ℤ) : List ℤ :=
  (List.range order.length).map fun axis : ℕ => (order.idxOf (axis : ℤ) : ℤ)

/-- What `Transpose` checks of its order. -/
theorem perm_of_toFinset {order : List ℤ} {rank : ℕ} (hlength : order.length = rank)
    (h : order.toFinset = ((List.range rank).map Int.ofNat).toFinset) :
    order.Nodup ∧ ∀ axis : ℤ, axis ∈ order ↔ ∃ index < rank, (index : ℤ) = axis := by
  have hmem : ∀ axis : ℤ, axis ∈ order ↔ ∃ index < rank, (index : ℤ) = axis := by
    intro axis
    rw [← List.mem_toFinset, h]
    simp
  refine ⟨?_, hmem⟩
  have hrange : ((List.range rank).map Int.ofNat).Nodup :=
    List.nodup_range.map Int.ofNat_injective
  have hcard := List.toFinset_card_of_nodup hrange
  rw [← h, List.card_toFinset, List.length_map, List.length_range, ← hlength] at hcard
  exact List.dedup_eq_self.1 ((List.dedup_sublist order).eq_of_length hcard)

theorem transposeSpecs_eq_ok_iff {data orderInput : OperatorInput} {specs : List TensorSpec} :
    transposeSpecs data orderInput = .ok specs ↔ ∃ spec, specs = [spec] ∧
      orderInput.IsIntegers 1 ∧ orderInput.integers.length = data.shape.length ∧
        orderInput.integers.toFinset =
          ((List.range data.shape.length).map Int.ofNat).toFinset ∧
        spec.shape = orderInput.integers.map (fun axis => data.shape.getD axis.toNat 0) ∧
        spec.dtype = data.dtype := by
  unfold transposeSpecs
  constructor
  · intro h
    obtain ⟨order, horder, h⟩ := bind_eq_ok_iff.1 h
    obtain ⟨hconstant, rfl⟩ := constantIntegerVector_eq_ok_iff.1 horder
    obtain ⟨hform, h⟩ := refuseIf_bind_eq_ok_iff.1 h
    obtain ⟨spec, hspec, h⟩ := bind_eq_ok_iff.1 h
    cases h
    rw [not_or, not_not, not_not] at hform
    exact ⟨spec, rfl, hconstant, hform.1, hform.2, tensorSpec_eq_ok_iff.1 hspec⟩
  · rintro ⟨spec, rfl, hconstant, hlength, hset, hspec⟩
    rw [constantIntegerVector_eq_ok_iff.2 ⟨hconstant, rfl⟩, ok_bind,
      refuseIf_of_not _ (by rw [not_or, not_not, not_not]; exact ⟨hlength, hset⟩), ok_bind,
      tensorSpec_eq_ok_iff.2 hspec, ok_bind]

theorem transpose_inverse {data order transposed inverse : OperatorInput}
    {attributes attributes' : List (String × Attribute)} {specs : List TensorSpec}
    (h : outputSpecs "Transpose" [data, order] {} attributes = .ok specs)
    (htransposed : specs = [transposed.spec]) (hconstant : inverse.IsIntegers 1)
    (hinverse : inverse.integers = inversePermutation order.integers) :
    outputSpecs "Transpose" [transposed, inverse] {} attributes' = .ok [data.spec] := by
  change transposeSpecs data order = .ok specs at h
  change transposeSpecs transposed inverse = .ok [data.spec]
  obtain ⟨spec, rfl, -, hlength, hset, hshape, hdtype⟩ := transposeSpecs_eq_ok_iff.1 h
  obtain rfl : spec = transposed.spec := List.singleton_injective htransposed
  obtain ⟨hnodup, hmem⟩ := perm_of_toFinset hlength hset
  have hrank : transposed.shape.length = data.shape.length := by
    rw [OperatorInput.shape, hshape, List.length_map, hlength]
  have hindex : ∀ axis < data.shape.length,
      order.integers.idxOf (axis : ℤ) < data.shape.length := by
    intro axis haxis
    rw [← hlength]
    exact List.idxOf_lt_length_iff.2 ((hmem axis).2 ⟨axis, haxis, rfl⟩)
  refine transposeSpecs_eq_ok_iff.2 ⟨data.spec, rfl, hconstant, ?_, ?_, ?_, hdtype.symm⟩
  · rw [hinverse, inversePermutation, List.length_map, List.length_range, hlength, hrank]
  · ext axis
    rw [hinverse, inversePermutation, hlength, hrank]
    simp only [List.mem_toFinset, List.mem_map, List.mem_range, Int.ofNat_eq_natCast]
    constructor
    · rintro ⟨other, hother, rfl⟩
      exact ⟨_, hindex other hother, rfl⟩
    · rintro ⟨index, hlt, rfl⟩
      obtain ⟨other, hother, heq⟩ :=
        (hmem order.integers[index]).1 (List.getElem_mem (hlength ▸ hlt))
      exact ⟨other, hother, by rw [heq, hnodup.idxOf_getElem]⟩
  · refine List.ext_getElem ?_ fun axis haxis _ => ?_
    · rw [hinverse, inversePermutation, List.length_map, List.length_map, List.length_range,
        hlength]
    · have hat := hindex axis haxis
      simp [hinverse, inversePermutation, hshape, hat, hlength, haxis]

/-! ## Broadcasting -/

/-- `target` has the dimensions of the shape from the end, or others where these are 1. -/
structure BroadcastsTo (shape target : List ℕ) : Prop where
  length_le : shape.length ≤ target.length
  dimension : ∀ offset, 1 ≤ offset →
    dimensionFromEnd shape offset = 1 ∨
      dimensionFromEnd shape offset = dimensionFromEnd target offset

theorem dimensionFromEnd_of_lt {shape : List ℕ} {offset : ℕ} (h : shape.length < offset) :
    dimensionFromEnd shape offset = 1 :=
  if_neg (not_le.2 h)

theorem dimensionFromEnd_pos {shape : List ℕ} (hpositive : ∀ dimension ∈ shape, 0 < dimension)
    {offset : ℕ} (h : 1 ≤ offset) : 1 ≤ dimensionFromEnd shape offset := by
  unfold dimensionFromEnd
  split_ifs with hle
  · rw [List.getD_eq_getElem _ _ (by omega)]
    exact hpositive _ (List.getElem_mem _)
  · exact le_rfl

theorem dimensionFromEnd_eq {shape : List ℕ} {offset : ℕ} (h : 1 ≤ offset)
    (hle : offset ≤ shape.length) :
    dimensionFromEnd shape offset = shape.reverse.getD (offset - 1) 1 := by
  rw [dimensionFromEnd, if_pos hle, List.getD_eq_getElem _ _ (by omega),
    List.getD_eq_getElem _ _ (by rw [List.length_reverse]; omega), List.getElem_reverse]
  congr 1
  omega

/-- Shapes with the same dimensions from the end. -/
theorem eq_of_dimensionFromEnd {left right : List ℕ} (hlength : left.length = right.length)
    (h : ∀ offset, 1 ≤ offset → offset ≤ left.length →
      dimensionFromEnd left offset = dimensionFromEnd right offset) : left = right := by
  refine List.reverse_injective (List.ext_getElem (by simpa using hlength) fun index hindex _ => ?_)
  rw [List.length_reverse] at hindex
  have hdimension := h (index + 1) (by omega) (by omega)
  rw [dimensionFromEnd_eq (by omega) (by omega), dimensionFromEnd_eq (by omega) (by omega),
    Nat.add_sub_cancel, List.getD_eq_getElem, List.getD_eq_getElem] at hdimension
  exact hdimension

/-- Two dimensions go together. -/
def Compatible (left right : List ℕ) (offset : ℕ) : Prop :=
  dimensionFromEnd left offset = dimensionFromEnd right offset ∨
    dimensionFromEnd left offset = 1 ∨ dimensionFromEnd right offset = 1

theorem Compatible.symm {left right : List ℕ} {offset : ℕ} (h : Compatible left right offset) :
    Compatible right left offset :=
  h.imp Eq.symm Or.symm

/-- The larger dimensions from the end. -/
def broadcastDimensions (left right : List ℕ) : List ℕ :=
  ((List.range' 1 (max left.length right.length)).map fun offset =>
    max (dimensionFromEnd left offset) (dimensionFromEnd right offset)).reverse

@[simp] theorem length_broadcastDimensions (left right : List ℕ) :
    (broadcastDimensions left right).length = max left.length right.length := by
  simp [broadcastDimensions]

theorem broadcastDimensions_comm (left right : List ℕ) :
    broadcastDimensions left right = broadcastDimensions right left := by
  unfold broadcastDimensions
  simp only [max_comm]

theorem dimensionFromEnd_broadcastDimensions {left right : List ℕ} {offset : ℕ} (h : 1 ≤ offset) :
    dimensionFromEnd (broadcastDimensions left right) offset =
      max (dimensionFromEnd left offset) (dimensionFromEnd right offset) := by
  rcases lt_or_ge (max left.length right.length) offset with hlt | hle
  · rw [dimensionFromEnd_of_lt (by simpa using hlt),
      dimensionFromEnd_of_lt ((le_max_left _ _).trans_lt hlt),
      dimensionFromEnd_of_lt ((le_max_right _ _).trans_lt hlt), max_self]
  · rw [dimensionFromEnd_eq h (by simpa using hle), broadcastDimensions, List.reverse_reverse,
      List.getD_eq_getElem _ _ (by simp; omega), List.getElem_map, List.getElem_range']
    rw [Nat.one_mul, Nat.add_sub_cancel' h]

/-- Lists whose items are computed one by one, where all may be. -/
theorem forall₂_and_eq_iff {α β : Type} {P : α → Prop} {f : α → β} :
    ∀ {l : List α} {l' : List β}, List.Forall₂ (fun a b => P a ∧ f a = b) l l' ↔
      (∀ a ∈ l, P a) ∧ l' = l.map f
  | [], l' => by simp
  | a :: l, l' => by
    rw [List.forall₂_cons_left_iff]
    constructor
    · rintro ⟨_, _, ⟨ha, rfl⟩, hrest, rfl⟩
      obtain ⟨hl, rfl⟩ := forall₂_and_eq_iff.1 hrest
      exact ⟨List.forall_mem_cons.2 ⟨ha, hl⟩, rfl⟩
    · rintro ⟨hall, rfl⟩
      obtain ⟨ha, hl⟩ := List.forall_mem_cons.1 hall
      exact ⟨_, _, ⟨ha, rfl⟩, forall₂_and_eq_iff.2 ⟨hl, rfl⟩, rfl⟩

theorem broadcastShape_eq_ok_iff {left right result : List ℕ} :
    broadcastShape left right = .ok result ↔
      (∀ offset, 1 ≤ offset → Compatible left right offset) ∧
        result = broadcastDimensions left right := by
  have hcompatible : ∀ offset, ¬(dimensionFromEnd left offset ≠ dimensionFromEnd right offset ∧
      dimensionFromEnd left offset ≠ 1 ∧ dimensionFromEnd right offset ≠ 1) ↔
        Compatible left right offset := by
    intro offset
    unfold Compatible
    tauto
  have hrange : (∀ offset ∈ List.range' 1 (max left.length right.length),
      Compatible left right offset) ↔ ∀ offset, 1 ≤ offset → Compatible left right offset := by
    refine ⟨fun h offset hoffset => ?_, fun h offset hoffset =>
      h offset (List.mem_range'_1.1 hoffset).1⟩
    rcases lt_or_ge left.length offset with hlt | hle
    · exact .inr (.inl (dimensionFromEnd_of_lt hlt))
    · exact h offset (List.mem_range'_1.2 ⟨hoffset, by omega⟩)
  unfold broadcastShape
  rw [bind_eq_ok_iff]
  simp only [mapM_eq_ok_iff, refuseIf_bind_eq_ok_iff, hcompatible, Except.ok.injEq,
    forall₂_and_eq_iff, hrange]
  constructor
  · rintro ⟨dimensions, ⟨hall, rfl⟩, rfl⟩
    exact ⟨hall, rfl⟩
  · rintro ⟨hall, rfl⟩
    exact ⟨_, ⟨hall, rfl⟩, rfl⟩

theorem broadcast_comm {left right result : List ℕ} :
    broadcastShape left right = .ok result ↔ broadcastShape right left = .ok result := by
  rw [broadcastShape_eq_ok_iff, broadcastShape_eq_ok_iff, broadcastDimensions_comm left right]
  exact and_congr_left fun _ => ⟨fun h offset hoffset => (h offset hoffset).symm,
    fun h offset hoffset => (h offset hoffset).symm⟩

theorem broadcast_self (shape : List ℕ) : broadcastShape shape shape = .ok shape := by
  refine broadcastShape_eq_ok_iff.2 ⟨fun _ _ => .inl rfl, ?_⟩
  refine eq_of_dimensionFromEnd (by simp) fun offset hoffset _ => ?_
  rw [dimensionFromEnd_broadcastDimensions hoffset, max_self]

section Least

variable {left right : TensorSpec}

/-- The larger of two dimensions that go together is one of them, or the other is 1. -/
theorem broadcastsTo_broadcastDimensions
    (h : ∀ offset, 1 ≤ offset → Compatible left.shape right.shape offset) :
    BroadcastsTo left.shape (broadcastDimensions left.shape right.shape) := by
  refine ⟨by simp, fun offset hoffset => ?_⟩
  rw [dimensionFromEnd_broadcastDimensions hoffset]
  have hleft := dimensionFromEnd_pos left.positive hoffset
  have hright := dimensionFromEnd_pos right.positive hoffset
  rcases h offset hoffset with heq | heq | heq
  · rw [heq, max_self]
    exact .inr rfl
  · exact .inl heq
  · rw [heq, max_eq_left hleft]
    exact .inr rfl

theorem compatible_of_broadcastsTo {target : List ℕ} (hleft : BroadcastsTo left.shape target)
    (hright : BroadcastsTo right.shape target) {offset : ℕ} (h : 1 ≤ offset) :
    Compatible left.shape right.shape offset := by
  rcases hleft.dimension offset h with hone | heq
  · exact .inr (.inl hone)
  · rcases hright.dimension offset h with hone | heq'
    · exact .inr (.inr hone)
    · exact .inl (heq.trans heq'.symm)

theorem broadcastDimensions_broadcastsTo {target : List ℕ}
    (hleft : BroadcastsTo left.shape target) (hright : BroadcastsTo right.shape target) :
    BroadcastsTo (broadcastDimensions left.shape right.shape) target := by
  refine ⟨?_, fun offset hoffset => ?_⟩
  · rw [length_broadcastDimensions]
    exact max_le hleft.length_le hright.length_le
  · rw [dimensionFromEnd_broadcastDimensions hoffset]
    have hpositive := dimensionFromEnd_pos left.positive hoffset
    have hpositive' := dimensionFromEnd_pos right.positive hoffset
    rcases hleft.dimension offset hoffset with hone | heq <;>
      rcases hright.dimension offset hoffset with hone' | heq'
    · exact .inl (by rw [hone, hone', max_self])
    · exact .inr (by rw [hone, max_eq_right hpositive', heq'])
    · exact .inr (by rw [hone', max_eq_left hpositive, heq])
    · exact .inr (by rw [heq, heq', max_self])

end Least

/-- The result of a broadcast is the least shape that both operands broadcast to, and there is
one whenever they broadcast to any. -/
theorem broadcast_least (left right : TensorSpec) :
    (∀ target, BroadcastsTo left.shape target → BroadcastsTo right.shape target →
      ∃ result, broadcastShape left.shape right.shape = .ok result) ∧
    ∀ result, broadcastShape left.shape right.shape = .ok result →
      BroadcastsTo left.shape result ∧ BroadcastsTo right.shape result ∧
        ∀ target, BroadcastsTo left.shape target → BroadcastsTo right.shape target →
          BroadcastsTo result target := by
  refine ⟨fun target hleft hright => ⟨_, broadcastShape_eq_ok_iff.2
    ⟨fun offset hoffset => compatible_of_broadcastsTo hleft hright hoffset, rfl⟩⟩, ?_⟩
  intro result hresult
  obtain ⟨hcompatible, rfl⟩ := broadcastShape_eq_ok_iff.1 hresult
  refine ⟨broadcastsTo_broadcastDimensions hcompatible, ?_, fun target hleft hright =>
    broadcastDimensions_broadcastsTo hleft hright⟩
  rw [broadcastDimensions_comm]
  exact broadcastsTo_broadcastDimensions fun offset hoffset => (hcompatible offset hoffset).symm

/-! ## The laws -/

/-- What holds of the inferred shapes. -/
structure ShapeLaws : Prop where
  split : ∀ data axisInput attributes specs,
    outputSpecs "Split" [data, axisInput] {} attributes = .ok specs →
      ∃ axis, axisInput.integers = [axis] ∧ ∀ parts : List OperatorInput,
        parts.map OperatorInput.spec = specs →
          outputSpecs "Concat" parts {} [("axis", .scalar (.integer axis))] = .ok [data.spec]
  variadicSplit : ∀ data axisInput lengths attributes specs,
    outputSpecs "VariadicSplit" [data, axisInput, lengths] {} attributes = .ok specs →
      ∃ axis, axisInput.integers = [axis] ∧ ∀ parts : List OperatorInput,
        parts.map OperatorInput.spec = specs →
          outputSpecs "Concat" parts {} [("axis", .scalar (.integer axis))] = .ok [data.spec]
  reshape : ∀ data pattern attributes specs,
    outputSpecs "Reshape" [data, pattern] {} attributes = .ok specs →
      ∃ spec, specs = [spec] ∧ spec.shape.prod = data.shape.prod
  /-- Squeezing back gives the input, unless it is a scalar. -/
  squeeze : ∀ data axes expanded attributes attributes',
    outputSpecs "Unsqueeze" [data, axes] {} attributes = .ok [expanded.spec] →
      outputSpecs "Squeeze" [expanded, axes] {} attributes' =
        if data.shape = [] then .error squeezesToScalar else .ok [data.spec]
  transpose : ∀ data order transposed inverse attributes attributes',
    outputSpecs "Transpose" [data, order] {} attributes = .ok [transposed.spec] →
      inverse.IsIntegers 1 → inverse.integers = inversePermutation order.integers →
        outputSpecs "Transpose" [transposed, inverse] {} attributes' = .ok [data.spec]
  broadcast_comm : ∀ left right result,
    broadcastShape left right = .ok result ↔ broadcastShape right left = .ok result
  broadcast_self : ∀ shape, broadcastShape shape shape = .ok shape
  broadcast_exists : ∀ (left right : TensorSpec) (target : List ℕ),
    BroadcastsTo left.shape target → BroadcastsTo right.shape target →
      ∃ result, broadcastShape left.shape right.shape = .ok result
  broadcast_least : ∀ (left right : TensorSpec) (result : List ℕ),
    broadcastShape left.shape right.shape = .ok result →
      BroadcastsTo left.shape result ∧ BroadcastsTo right.shape result ∧
        ∀ target, BroadcastsTo left.shape target → BroadcastsTo right.shape target →
          BroadcastsTo result target

/-- The shape inference laws, for all inputs, attributes and shapes. -/
theorem shape_inference_laws : ShapeLaws where
  split _ _ _ _ := split_concat
  variadicSplit _ _ _ _ _ := variadicSplit_concat
  reshape _ _ _ _ := reshape_preserves_count
  squeeze _ _ _ _ _ h := squeeze_unsqueeze h rfl
  transpose _ _ _ _ _ _ h := transpose_inverse h rfl
  broadcast_comm _ _ _ := broadcast_comm
  broadcast_self := broadcast_self
  broadcast_exists left right := (broadcast_least left right).1
  broadcast_least left right := (broadcast_least left right).2

/-- The constant `[0]`. -/
def firstAxis : OperatorInput where
  spec := ⟨[1], .i64, by simp⟩
  producerOp := "Const"
  value := some ⟨1, true, [0]⟩

/-- An input of a shape. -/
def parameterOf (spec : TensorSpec) : OperatorInput where
  spec
  producerOp := "Parameter"
  value := none

theorem positive_val (dimensions : List ℕ+) :
    ∀ dimension ∈ dimensions.map Subtype.val, 0 < dimension := by
  intro dimension hdimension
  obtain ⟨positive, -, rfl⟩ := List.mem_map.1 hdimension
  exact positive.2

/-- An input of positive dimensions. -/
def floatInput (dimensions : List ℕ+) : OperatorInput :=
  parameterOf ⟨dimensions.map Subtype.val, .f32, positive_val dimensions⟩

/-- A constant vector of integers. -/
def integersOf (values : List ℤ) : OperatorInput :=
  { firstAxis with value := some ⟨1, true, values⟩ }

/-- A constant integer. -/
def scalarOf (value : ℤ) : OperatorInput :=
  { firstAxis with value := some ⟨0, true, [value]⟩ }

/-- The laws with a negative axis, an inferred length, two axes, three dimensions and ranks that
differ. -/
theorem shape_inference_laws_floats :
    outputSpecs "Concat" [floatInput [2, 2], floatInput [2, 2], floatInput [2, 2]] {}
      [("axis", .scalar (.integer (-1)))] = .ok [(floatInput [2, 6]).spec] ∧
    outputSpecs "Concat" [floatInput [2, 2], floatInput [2, 4]] {}
      [("axis", .scalar (.integer (-1)))] = .ok [(floatInput [2, 6]).spec] ∧
    outputSpecs "Squeeze" [floatInput [1, 2, 6, 1], integersOf [-1, 0]] {} [] =
      .ok [(floatInput [2, 6]).spec] ∧
    outputSpecs "Transpose" [floatInput [6, 3, 2], integersOf [2, 0, 1]] {} [] =
      .ok [(floatInput [2, 6, 3]).spec] ∧
    broadcastShape [6, 1] [2, 1, 3] = .ok [2, 6, 3] ∧ BroadcastsTo [6, 1] [2, 6, 3] := by
  obtain ⟨axis, haxis, hsplit⟩ := shape_inference_laws.split (floatInput [2, 6]) (scalarOf (-1))
    [("num_splits", .scalar (.integer 3))] (List.replicate 3 (floatInput [2, 2]).spec)
      (by decide +kernel)
  obtain rfl : -1 = axis := (List.cons.inj haxis).1
  obtain ⟨axis, haxis, hvariadic⟩ := shape_inference_laws.variadicSplit (floatInput [2, 6])
    (scalarOf (-1)) (integersOf [2, -1]) [] [(floatInput [2, 2]).spec, (floatInput [2, 4]).spec]
      (by decide +kernel)
  obtain rfl : -1 = axis := (List.cons.inj haxis).1
  have hsqueeze := shape_inference_laws.squeeze (floatInput [2, 6]) (integersOf [-1, 0])
    (floatInput [1, 2, 6, 1]) [] [] (by decide +kernel)
  have htranspose := shape_inference_laws.transpose (floatInput [2, 6, 3]) (integersOf [1, 2, 0])
    (floatInput [6, 3, 2]) (integersOf [2, 0, 1]) [] [] (by decide +kernel) ⟨rfl, _, rfl, rfl, rfl⟩
      (by decide +kernel)
  have hbroadcast := (shape_inference_laws.broadcast_comm [2, 1, 3] [6, 1] [2, 6, 3]).1
    (by decide +kernel)
  exact ⟨hsplit _ rfl, hvariadic _ rfl, hsqueeze.trans (if_neg (by decide)), htranspose, hbroadcast,
    (shape_inference_laws.broadcast_least (floatInput [6, 1]).spec (floatInput [2, 1, 3]).spec _
      hbroadcast).1⟩

/-- A scalar is unsqueezed, but not squeezed back. -/
theorem scalar_not_restored :
    outputSpecs "Unsqueeze" [parameterOf ⟨[], .f32, List.forall_mem_nil _⟩, firstAxis] {} [] =
      .ok [⟨[1], .f32, firstAxis.spec.positive⟩] ∧
    outputSpecs "Squeeze" [parameterOf ⟨[1], .f32, firstAxis.spec.positive⟩, firstAxis] {} [] ≠
      .ok [⟨[], .f32, List.forall_mem_nil _⟩] := by
  decide +kernel

/-- A shape with a known, an inferred and a copied dimension. -/
example : outputSpecs "Reshape" [parameterOf ⟨[2, 6], .f32, by simp⟩,
    { firstAxis with value := some ⟨1, true, [0, -1, 3]⟩ }] {}
      [("special_zero", .scalar (.boolean true))] = .ok [⟨[2, 2, 3], .f32, by simp⟩] := by
  decide +kernel

end Npunlock
