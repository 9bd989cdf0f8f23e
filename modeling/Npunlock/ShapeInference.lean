import Npunlock.Bundle

/-!
# Shape inference

`_output_specs` gives the specs of the outputs of an operator, from the specs of its inputs,
the constants among them and its attributes, and `_broadcast_shape` the shape of a binary
custom operator. Each operator that is inferred has its own definition.
-/

namespace Npunlock

/-! ## Inputs and errors -/

/-- What inference reads of the array of a constant. `isInteger` : the kind of its element type
is `i` or `u`. -/
structure ConstantArray where
  ndim : ℕ
  isInteger : Bool
  values : List ℤ

/-- What inference reads of an input : its spec, and the operator and the array of its
producer. -/
structure OperatorInput where
  spec : TensorSpec
  producerOp : String
  value : Option ConstantArray

abbrev OperatorInput.shape (input : OperatorInput) : List ℕ :=
  input.spec.shape

abbrev OperatorInput.dtype (input : OperatorInput) : DType :=
  input.spec.dtype

/-- Why a spec is not inferred. The errors with other data than a text keep it. -/
inductive ShapeError
  | value (message : String)
  | type (message : String)
  | key (name : String)
  | innerDimensions (left right : ℕ)
  | concatAxis (axis : ℤ) (rank : ℕ)
  | broadcast (left right : List ℕ)
  | dtype (value : Attribute)
  | notInferred (operator : String)
  /-- `next` has no dimension left. -/
  | exhausted
  deriving DecidableEq

abbrev Inferred (α : Type) := Except ShapeError α

/-- `TensorSpec.__init__` of a shape and an element type. -/
def tensorSpec (shape : List ℕ) (dtype : DType) : Inferred TensorSpec :=
  if h : ∀ dimension ∈ shape, 0 < dimension then .ok ⟨shape, dtype, h⟩
  else .error (.value "only static positive dimensions are supported")

/-- The arrays of the constants that are not the data. -/
def constantArray (input : OperatorInput) (operator role : String) (ndim : ℕ) (form : String) :
    Inferred (List ℤ) := do
  refuseIf (input.producerOp ≠ "Const")
    (.value ("automatic " ++ operator ++ " inference requires a constant " ++ role ++ " tensor"))
  match input.value with
  | none => .error (.value (operator ++ " " ++ role ++ " constant has no value"))
  | some array => do
    refuseIf (array.ndim ≠ ndim ∨ ¬array.isInteger)
      (.value (operator ++ " " ++ role ++ " must be a " ++ form ++ " integer constant"))
    .ok array.values

/-- `_constant_integer_vector`. -/
def constantIntegerVector (input : OperatorInput) (operator role : String) : Inferred (List ℤ) :=
  constantArray input operator role 1 "one-dimensional"

/-- `_constant_integer_scalar`. -/
def constantIntegerScalar (input : OperatorInput) (operator role : String) : Inferred ℤ := do
  let values ← constantArray input operator role 0 "scalar"
  match values with
  | [value] => .ok value
  | _ => .error (.value "can only convert an array of size 1 to a Python scalar")

/-- `attributes[name]`. -/
def attributeAt (attributes : List (String × Attribute)) (name : String) : Inferred Attribute :=
  match attributes.lookup name with
  | some value => .ok value
  | none => .error (.key name)

/-- The truth of an attribute that `op` keeps boolean. -/
def Attribute.isTrue (value : Attribute) : Bool :=
  value = .scalar (.boolean true)

/-! ## Axes -/

/-- `axis + rank if axis < 0 else axis`. -/
def normalizeAxis (rank : ℕ) (axis : ℤ) : ℤ :=
  if axis < 0 then axis + rank else axis

/-- One axis of a rank. -/
def axisIndex (rank : ℕ) (axis : ℤ) (outOfRange : ShapeError) : Inferred ℕ := do
  refuseIf (normalizeAxis rank axis < 0 ∨ (rank : ℤ) ≤ normalizeAxis rank axis) outOfRange
  .ok (normalizeAxis rank axis).toNat

/-- Different axes of a rank. -/
def axisIndices (operator : String) (rank : ℕ) (axes : List ℤ) : Inferred (List ℕ) := do
  let normalizedAxes := axes.map (normalizeAxis rank)
  refuseIf (∃ axis ∈ normalizedAxes, axis < 0 ∨ (rank : ℤ) ≤ axis)
    (.value (operator ++ " axis is out of range"))
  refuseIf (¬normalizedAxes.Nodup) (.value (operator ++ " axes must be unique"))
  .ok (normalizedAxes.map Int.toNat)

/-! ## Operators -/

/-- `MatMul`. -/
def matMulSpecs (left right : OperatorInput) (attributes : List (String × Attribute)) :
    Inferred (List TensorSpec) :=
  match left.shape, right.shape with
  | [leftFirst, leftSecond], [rightFirst, rightSecond] => do
    refuseIf (left.dtype ≠ right.dtype)
      (.value "automatic MatMul inference requires matching input dtypes")
    let transposeA ← attributeAt attributes "transpose_a"
    let transposeB ← attributeAt attributes "transpose_b"
    let (leftRows, leftInner) :=
      if transposeA.isTrue then (leftSecond, leftFirst) else (leftFirst, leftSecond)
    let (rightInner, rightColumns) :=
      if transposeB.isTrue then (rightSecond, rightFirst) else (rightFirst, rightSecond)
    refuseIf (leftInner ≠ rightInner) (.innerDimensions leftInner rightInner)
    let spec ← tensorSpec [leftRows, rightColumns] left.dtype
    .ok [spec]
  | _, _ => .error (.value "automatic MatMul inference is limited to two rank-2 tensors")

/-- `Convert`. -/
def convertSpecs (data : OperatorInput) (attributes : List (String × Attribute)) :
    Inferred (List TensorSpec) :=
  match attributes.lookup "destination_type" with
  | none => .error (.value "automatic Convert inference requires destination_type")
  | some (.scalar (.text text)) =>
    match normalizeDtype text with
    | some dtype => do
      let spec ← tensorSpec data.shape dtype
      .ok [spec]
    | none => .error (.dtype (.scalar (.text text)))
  | some value => .error (.dtype value)

/-- The size of a concatenation, whose other dimensions have to be the expected ones. -/
def concatSize (axis : ℕ) (expected : List ℕ) (inputs : List OperatorInput) : Inferred ℕ :=
  inputs.foldlM (fun size value => do
    refuseIf (∃ entry ∈ (value.shape.zip expected).zipIdx, entry.2 ≠ axis ∧ entry.1.1 ≠ entry.1.2)
      (.value "automatic Concat inference requires equal non-axis dimensions")
    .ok (size + value.shape.getD axis 0)) 0

/-- `Concat`. -/
def concatSpecs (first : OperatorInput) (rest : List OperatorInput)
    (attributes : List (String × Attribute)) : Inferred (List TensorSpec) :=
  match attributes.lookup "axis" with
  | some (.scalar (.integer axis)) => do
    let rank := first.shape.length
    let normalizedAxis ← axisIndex rank axis (.concatAxis axis rank)
    refuseIf (∃ value ∈ rest, value.dtype ≠ first.dtype ∨ value.shape.length ≠ rank)
      (.value "automatic Concat inference requires matching input dtypes and ranks")
    let size ← concatSize normalizedAxis first.shape (first :: rest)
    let spec ← tensorSpec (first.shape.set normalizedAxis size) first.dtype
    .ok [spec]
  | _ => .error (.type "automatic Concat inference requires an integer axis")

/-- `Transpose`. -/
def transposeSpecs (data order : OperatorInput) : Inferred (List TensorSpec) := do
  let order ← constantIntegerVector order "Transpose" "order"
  refuseIf (order.length ≠ data.shape.length ∨
      order.toFinset ≠ ((List.range data.shape.length).map Int.ofNat).toFinset)
    (.value "Transpose order must be a permutation of every input axis")
  let spec ← tensorSpec (order.map fun axis => data.shape.getD axis.toNat 0) data.dtype
  .ok [spec]

/-- The variables of the loop of `Reshape`. -/
structure ReshapeState where
  inferredIndex : Option ℕ
  outputShape : List ℕ
  knownElements : ℕ

/-- A round of the loop of `Reshape`. -/
def reshapeStep (shape : List ℕ) (specialZero : Bool) (state : ReshapeState) (entry : ℤ × ℕ) :
    Inferred ReshapeState :=
  let known (dimension : ℕ) : ReshapeState :=
    { state with
      outputShape := state.outputShape ++ [dimension]
      knownElements := state.knownElements * dimension }
  let (dimension, index) := entry
  if dimension = -1 then do
    refuseIf state.inferredIndex.isSome
      (.value "Reshape pattern may contain at most one inferred dimension")
    .ok { state with inferredIndex := some index, outputShape := state.outputShape ++ [1] }
  else if dimension = 0 then do
    refuseIf (¬specialZero) (.value "Reshape zero dimensions require special_zero=True")
    match shape[index]? with
    | none => .error (.value "Reshape special-zero dimension exceeds the input rank")
    | some dimension => .ok (known dimension)
  else do
    refuseIf (dimension < 0) (.value "Reshape pattern dimensions must be positive, zero, or -1")
    .ok (known dimension.toNat)

/-- The shape after the loop of `Reshape`. -/
def reshapeEnd (inputElements : ℕ) (state : ReshapeState) : Inferred (List ℕ) :=
  match state.inferredIndex with
  | some index => do
    refuseIf (state.knownElements = 0 ∨ inputElements % state.knownElements ≠ 0)
      (.value "Reshape inferred dimension does not divide the input element count")
    .ok (state.outputShape.set index (inputElements / state.knownElements))
  | none => do
    refuseIf (state.knownElements ≠ inputElements)
      (.value "Reshape input and output element counts do not match")
    .ok state.outputShape

/-- `Reshape`. -/
def reshapeSpecs (data pattern : OperatorInput) (attributes : List (String × Attribute)) :
    Inferred (List TensorSpec) := do
  let pattern ← constantIntegerVector pattern "Reshape" "pattern"
  let specialZero ← attributeAt attributes "special_zero"
  let state ← pattern.zipIdx.foldlM (reshapeStep data.shape specialZero.isTrue) ⟨none, [], 1⟩
  let outputShape ← reshapeEnd data.shape.prod state
  let spec ← tensorSpec outputShape data.dtype
  .ok [spec]

/-- `Squeeze does not produce scalar tensors`. -/
def squeezesToScalar : ShapeError :=
  .value "automatic Squeeze inference does not produce scalar tensors"

/-- `Squeeze`. -/
def squeezeSpecs (data axes : OperatorInput) : Inferred (List TensorSpec) := do
  let axes ← constantIntegerVector axes "Squeeze" "axes"
  refuseIf (axes = []) (.value "automatic Squeeze inference requires at least one axis")
  let normalizedAxes ← axisIndices "Squeeze" data.shape.length axes
  refuseIf (∃ axis ∈ normalizedAxes, data.shape.getD axis 0 ≠ 1)
    (.value "Squeeze axes must select dimensions of size one")
  let outputShape := (data.shape.zipIdx.filter fun entry => entry.2 ∉ normalizedAxes).map Prod.fst
  refuseIf (outputShape = []) squeezesToScalar
  let spec ← tensorSpec outputShape data.dtype
  .ok [spec]

/-- The dimensions at some axes, where the inserted ones are 1. -/
def unsqueezeShape (inserted : List ℕ) : List ℕ → List ℕ → Inferred (List ℕ)
  | [], _ => .ok []
  | axis :: axes, source =>
    if axis ∈ inserted then do
      let rest ← unsqueezeShape inserted axes source
      .ok (1 :: rest)
    else
      match source with
      | [] => .error .exhausted
      | dimension :: source => do
        let rest ← unsqueezeShape inserted axes source
        .ok (dimension :: rest)

/-- `Unsqueeze`. -/
def unsqueezeSpecs (data axes : OperatorInput) : Inferred (List TensorSpec) := do
  let axes ← constantIntegerVector axes "Unsqueeze" "axes"
  refuseIf (axes = []) (.value "automatic Unsqueeze inference requires at least one axis")
  let outputRank := data.shape.length + axes.length
  let inserted ← axisIndices "Unsqueeze" outputRank axes
  let outputShape ← unsqueezeShape inserted (List.range outputRank) data.shape
  let spec ← tensorSpec outputShape data.dtype
  .ok [spec]

/-- `Split`. -/
def splitSpecs (data axis : OperatorInput) (attributes : List (String × Attribute)) :
    Inferred (List TensorSpec) := do
  let axis ← constantIntegerScalar axis "Split" "axis"
  let axis ← axisIndex data.shape.length axis (.value "Split axis is out of range")
  match attributes.lookup "num_splits" with
  | some (.scalar (.integer numSplits)) => do
    refuseIf (numSplits ≤ 0)
      (.value "automatic Split inference requires a positive integer num_splits")
    let count := numSplits.toNat
    refuseIf (data.shape.getD axis 0 % count ≠ 0)
      (.value "Split axis dimension must be divisible by num_splits")
    let spec ← tensorSpec (data.shape.set axis (data.shape.getD axis 0 / count)) data.dtype
    .ok (List.replicate count spec)
  | _ => .error (.value "automatic Split inference requires a positive integer num_splits")

/-- The lengths of `VariadicSplit` with the inferred one. -/
def splitLengths (axisSize : ℕ) (lengths : List ℤ) : Inferred (List ℤ) := do
  let inferred := (lengths.zipIdx.filter fun entry => entry.1 = -1).map Prod.snd
  refuseIf (1 < inferred.length)
    (.value "VariadicSplit permits at most one inferred split length")
  refuseIf (∃ length ∈ lengths, length = 0 ∨ length < -1)
    (.value "VariadicSplit lengths must be positive or one -1")
  let known := (lengths.filter fun length => 0 < length).sum
  match inferred.head? with
  | some index => do
    let remainder := (axisSize : ℤ) - known
    refuseIf (remainder ≤ 0) (.value "VariadicSplit inferred length must be positive")
    .ok (lengths.set index remainder)
  | none => do
    refuseIf (known ≠ axisSize)
      (.value "VariadicSplit lengths must sum to the selected dimension")
    .ok lengths

/-- `VariadicSplit`. -/
def variadicSplitSpecs (data axis lengths : OperatorInput) : Inferred (List TensorSpec) := do
  let axis ← constantIntegerScalar axis "VariadicSplit" "axis"
  let axis ← axisIndex data.shape.length axis (.value "VariadicSplit axis is out of range")
  let lengths ← constantIntegerVector lengths "VariadicSplit" "split lengths"
  refuseIf (lengths = []) (.value "VariadicSplit requires at least one split length")
  let lengths ← splitLengths (data.shape.getD axis 0) lengths
  lengths.mapM fun length =>
    tensorSpec (data.shape.take axis ++ length.toNat :: data.shape.drop (axis + 1)) data.dtype

/-- `Pad`. -/
def padSpecs (data padsBegin padsEnd padValue : OperatorInput)
    (attributes : List (String × Attribute)) : Inferred (List TensorSpec) := do
  let mode ← attributeAt attributes "mode"
  refuseIf (mode ≠ .scalar (.text "constant"))
    (.value "automatic Pad inference supports only constant mode")
  let padsBegin ← constantIntegerVector padsBegin "Pad" "pads_begin"
  let padsEnd ← constantIntegerVector padsEnd "Pad" "pads_end"
  refuseIf (padsBegin.length ≠ data.shape.length ∨ padsEnd.length ≠ data.shape.length)
    (.value "Pad begin/end vectors must contain one value per data axis")
  refuseIf (∃ value ∈ padsBegin ++ padsEnd, value < 0)
    (.value "automatic Pad inference supports only nonnegative pads")
  refuseIf (padValue.producerOp ≠ "Const" ∨ padValue.shape ≠ [])
    (.value "automatic Pad inference requires a scalar constant pad_value")
  refuseIf (padValue.dtype ≠ data.dtype) (.value "Pad data and pad_value dtypes must match")
  let spec ← tensorSpec (List.zipWith3 (fun dimension first last =>
    dimension + first.toNat + last.toNat) data.shape padsBegin padsEnd) data.dtype
  .ok [spec]

/-- A bound of `slice.indices` with a positive step. -/
def sliceBound (size : ℕ) (bound : ℤ) : ℤ :=
  if bound < 0 then max (bound + size) 0 else min bound size

/-- The number of indices of a slice with a positive step. -/
def sliceLength (size : ℕ) (start stop step : ℤ) : ℕ :=
  let start := sliceBound size start
  let stop := sliceBound size stop
  if start < stop then ((stop - start - 1) / step + 1).toNat else 0

/-- `Slice`. -/
def sliceSpecs (data starts stops steps axes : OperatorInput) : Inferred (List TensorSpec) := do
  let starts ← constantIntegerVector starts "Slice" "starts"
  let stops ← constantIntegerVector stops "Slice" "stops"
  let steps ← constantIntegerVector steps "Slice" "steps"
  let axes ← constantIntegerVector axes "Slice" "axes"
  refuseIf (starts = [] ∨ ¬(starts.length = stops.length ∧ stops.length = steps.length ∧
      steps.length = axes.length))
    (.value "Slice starts, stops, steps, and axes must have the same nonzero length")
  refuseIf (∃ step ∈ steps, step ≤ 0)
    (.value "automatic Slice inference supports only positive steps")
  let normalizedAxes ← axisIndices "Slice" data.shape.length axes
  let outputShape ← ((starts.zip stops).zip (steps.zip normalizedAxes)).foldlM
    (fun outputShape ((start, stop), step, axis) => do
      let dimension := sliceLength (data.shape.getD axis 0) start stop step
      refuseIf (dimension = 0)
        (.value "automatic Slice inference does not produce zero-sized dimensions")
      .ok (outputShape.set axis dimension)) data.shape
  let spec ← tensorSpec outputShape data.dtype
  .ok [spec]

/-- `Gather`. -/
def gatherSpecs (data indices axis : OperatorInput) (attributes : List (String × Attribute)) :
    Inferred (List TensorSpec) := do
  refuseIf (indices.dtype ∉ [DType.i32, DType.i64])
    (.value "automatic Gather inference requires I32 or I64 indices")
  let batchDims ← attributeAt attributes "batch_dims"
  refuseIf (batchDims ≠ .scalar (.integer 0))
    (.value "automatic Gather inference supports only batch_dims=0")
  let axis ← constantIntegerScalar axis "Gather" "axis"
  let axis ← axisIndex data.shape.length axis (.value "Gather axis is out of range")
  let spec ← tensorSpec (data.shape.take axis ++ indices.shape ++ data.shape.drop (axis + 1))
    data.dtype
  .ok [spec]

/-! ## All operators -/

/-- `_SAME_SPEC_UNARY`. -/
def sameSpecUnary : List String :=
  ["Abs", "Exp", "Log", "Relu", "Sigmoid", "Sqrt", "Tanh"]

/-- `_SAME_SPEC_BINARY`. -/
def sameSpecBinary : List String :=
  ["Add", "Divide", "Maximum", "Minimum", "Multiply", "Subtract"]

/-- The specs that the inputs and the attributes give. -/
def inferSpecs (operator : String) (inputs : List OperatorInput)
    (attributes : List (String × Attribute)) : Inferred (List TensorSpec) :=
  match operator, inputs with
  | "MatMul", [left, right] => matMulSpecs left right attributes
  | "Convert", [data] => convertSpecs data attributes
  | "Concat", first :: rest => concatSpecs first rest attributes
  | "Transpose", [data, order] => transposeSpecs data order
  | "Reshape", [data, pattern] => reshapeSpecs data pattern attributes
  | "Reshape", _ =>
    .error (.value "automatic Reshape inference requires data and pattern tensors")
  | "Squeeze", [data, axes] => squeezeSpecs data axes
  | "Squeeze", _ => .error (.value "automatic Squeeze inference requires data and axes tensors")
  | "Unsqueeze", [data, axes] => unsqueezeSpecs data axes
  | "Unsqueeze", _ =>
    .error (.value "automatic Unsqueeze inference requires data and axes tensors")
  | "Split", [data, axis] => splitSpecs data axis attributes
  | "Split", _ => .error (.value "automatic Split inference requires data and axis tensors")
  | "VariadicSplit", [data, axis, lengths] => variadicSplitSpecs data axis lengths
  | "VariadicSplit", _ => .error
    (.value "automatic VariadicSplit inference requires data, axis, and split-length tensors")
  | "Pad", [data, padsBegin, padsEnd, padValue] =>
    padSpecs data padsBegin padsEnd padValue attributes
  | "Pad", _ => .error
    (.value "automatic Pad inference requires data, pads_begin, pads_end, and pad_value tensors")
  | "Slice", [data, starts, stops, steps, axes] => sliceSpecs data starts stops steps axes
  | "Slice", _ => .error
    (.value "automatic Slice inference requires data, starts, stops, steps, and axes tensors")
  | "Gather", [data, indices, axis] => gatherSpecs data indices axis attributes
  | "Gather", _ =>
    .error (.value "automatic Gather inference requires data, indices, and axis tensors")
  | _, [data] =>
    if operator ∈ sameSpecUnary then .ok [data.spec] else .error (.notInferred operator)
  | _, [left, right] =>
    if operator ∈ sameSpecBinary ∧ left.spec = right.spec then .ok [left.spec]
    else .error (.notInferred operator)
  | _, _ => .error (.notInferred operator)

/-- An item of `_outputs`. -/
inductive SpecItem
  | spec (spec : TensorSpec)
  | pair (shape : List ℤ) (dtype : String)
  | other

/-- The specs in the metadata. A missing entry of `_shape` or `_dtype` is not one with `None`. -/
structure SpecOverrides where
  outputs : Option (List SpecItem) := none
  shape : Option (Option (List ℤ)) := none
  dtype : Option (Option String) := none

/-- `TensorSpec.__init__` of any integers and any text. -/
def overrideSpec (shape : List ℤ) (dtype : String) : Inferred TensorSpec := do
  refuseIf (∃ dimension ∈ shape, dimension ≤ 0)
    (.value "only static positive dimensions are supported")
  match normalizeDtype dtype with
  | some dtype => tensorSpec (shape.map Int.toNat) dtype
  | none => .error (.dtype (.scalar (.text dtype)))

/-- `_output_specs`. -/
def outputSpecs (operator : String) (inputs : List OperatorInput) (overrides : SpecOverrides)
    (attributes : List (String × Attribute)) : Inferred (List TensorSpec) :=
  match overrides.outputs with
  | some items => do
    refuseIf ((overrides.shape.bind id).isSome ∨ (overrides.dtype.bind id).isSome)
      (.value "_outputs cannot be combined with _shape or _dtype")
    let specs ← items.mapM fun
      | .spec spec => .ok spec
      | .pair shape dtype => overrideSpec shape dtype
      | .other => .error (.type "_outputs must contain TensorSpec or (shape, dtype) pairs")
    refuseIf (specs = []) (.value "_outputs must not be empty")
    .ok specs
  | none =>
    match overrides.shape, overrides.dtype with
    | none, none => inferSpecs operator inputs attributes
    | some (some shape), some dtype => do
      let spec ← overrideSpec shape (dtype.getD "None")
      .ok [spec]
    | some none, some _ => .error (.type "shape must be an iterable of positive integers")
    | _, _ => .error (.value "ordinary operator overrides require both _shape and _dtype")

/-! ## Broadcasting -/

/-- `shape[-offset] if offset <= len(shape) else 1`. -/
def dimensionFromEnd (shape : List ℕ) (offset : ℕ) : ℕ :=
  if offset ≤ shape.length then shape.getD (shape.length - offset) 1 else 1

/-- `_broadcast_shape`. -/
def broadcastShape (left right : List ℕ) : Inferred (List ℕ) := do
  let result ← (List.range' 1 (max left.length right.length)).mapM fun offset => do
    let leftDimension := dimensionFromEnd left offset
    let rightDimension := dimensionFromEnd right offset
    refuseIf (leftDimension ≠ rightDimension ∧ leftDimension ≠ 1 ∧ rightDimension ≠ 1)
      (.broadcast left right)
    .ok (max leftDimension rightDimension)
  .ok result.reverse

end Npunlock
