import Npunlock.Agreement

/-!
# The projection to version 1 targets

The Python front end discovers version 2 targets, and patches with version 1 targets where
`_legacy_targets_from_v2` can express them. `legacyTarget_spec` : what it returns for a
discovered target is the version 1 description of the same invocation. `abi_agreement`
puts the relations between the two versions together.
-/

namespace Npunlock

open View

variable {layout : GraphLayout} {parameterBases : List ℕ}

/-! ## Records of the front end -/

/-- `PatchTensorContract.role`. -/
inductive TensorRole
  | input
  | output
  deriving DecidableEq

/-- `PatchTensorContract.dtype`. -/
inductive TensorDtype
  | f16
  | f32
  | i32
  | i8
  | i16
  | u8
  | u16
  | u32
  deriving DecidableEq

structure PatchTensorContract where
  role : TensorRole
  index : ℕ
  dtype : TensorDtype
  elementCount : ℕ
  spanBytes : ℕ
  observedFlags : ℕ

structure PatchTargetV2 where
  invocationIndex : ℕ
  rangeIndex : ℕ
  tensors : List PatchTensorContract
  targetFlags : ℕ

def PatchTargetV2.inputCount (target : PatchTargetV2) : ℕ :=
  (target.tensors.filter fun tensor => tensor.role = .input).length

/-- `roles` of `discover_patch_targets_v2`. -/
def roleOf (role : ℕ) : Option TensorRole :=
  if role = 1 then some .input else if role = 2 then some .output else none

/-- `precisions` of `discover_patch_targets_v2`. -/
def precisionOf (precision : ℕ) : Option TensorDtype :=
  if precision = 1 then some .f16 else if precision = 2 then some .f32
  else if precision = 3 then some .i32 else if precision = 4 then some .i8
  else if precision = 5 then some .i16 else if precision = 6 then some .u8
  else if precision = 7 then some .u16 else if precision = 8 then some .u32 else none

/-- A tensor record of the native library, if the front end knows its role and precision. -/
def readTensor (tensor : TensorContractV2) : Option PatchTensorContract := do
  let role ← roleOf tensor.role
  let dtype ← precisionOf tensor.precision
  some { role, index := tensor.tensorIndex, dtype, elementCount := tensor.elementCount,
         spanBytes := tensor.spanBytes, observedFlags := tensor.observedFlags }

/-- A target that `discover_patch_targets_v2` returns. -/
def readTarget (target : PatchblobTargetV2) : Option PatchTargetV2 := do
  let tensors ← target.tensors.mapM readTensor
  some { invocationIndex := target.invocationIndex, rangeIndex := target.rangeIndex, tensors,
         targetFlags := target.targetFlags }

/-- The second of two inputs is a scalar. Nothing if its shape is neither that nor the
shape of the output. -/
def scalarInput (inputs : List PatchTensorContract) (output : PatchTensorContract)
    (elementSize : ℕ) : Option Bool :=
  match inputs with
  | [_, second] =>
    if second.elementCount = 1 ∧ 1 < output.elementCount then
      if second.spanBytes ≠ elementSize then none else some true
    else if second.elementCount ≠ output.elementCount ∨ second.spanBytes ≠ output.spanBytes then
      none
    else some false
  | _ => some false

/-- One round of the loop of `_legacy_targets_from_v2`. A `PatchTarget` has the fields of
the native record, and is written as one. -/
def legacyTarget (target : PatchTargetV2) : Option PatchblobTarget :=
  let inputs := target.tensors.filter fun tensor => tensor.role = .input
  let outputs := target.tensors.filter fun tensor => tensor.role = .output
  if target.targetFlags ≠ 0 ∨ ¬(target.inputCount = 1 ∨ target.inputCount = 2) then none
  else
    match inputs, outputs with
    | first :: _, [output] =>
      if inputs.map (·.index) ≠ List.range target.inputCount ∨ output.index ≠ 0 ∨
          (∃ tensor ∈ inputs, tensor.observedFlags ≠ 0x07) ∨ output.observedFlags ≠ 0x0f then none
      else if ¬(output.dtype = .f16 ∨ output.dtype = .f32) ∨
          ∃ tensor ∈ inputs, tensor.dtype ≠ output.dtype then none
      else
        let elementSize := if output.dtype = .f16 then 2 else 4
        if output.spanBytes ≠ output.elementCount * elementSize ∨
            first.elementCount ≠ output.elementCount ∨ first.spanBytes ≠ output.spanBytes then none
        else
          (scalarInput inputs output elementSize).map fun scalar =>
            { invocationIndex := target.invocationIndex, rangeIndex := target.rangeIndex,
              expectedInputCount := target.inputCount,
              expectedElementCount := output.elementCount, expectedSpanBytes := output.spanBytes,
              requiredContractFlags := 0x1b ||| (if output.dtype = .f16 then 0x04 else 0x20) |||
                (if scalar then 0x40 else 0) }
    | _, _ => none

/-- `_legacy_targets_from_v2`. -/
def legacyTargetsFromV2 (targets : List PatchTargetV2) : Option (List PatchblobTarget) :=
  targets.mapM legacyTarget

/-- The targets of a discovered group. -/
def groupTargets {τ : Type} (records : List (DiscoveredTarget τ)) (groupIndex : ℕ) : List τ :=
  (records.filter fun record => record.groupIndex = groupIndex).map (·.target)

/-- The version 1 targets that the front end uses for a discovered version 2 group. -/
def legacyGroup (records : List (DiscoveredTarget PatchblobTargetV2)) (groupIndex : ℕ) :
    Option (List PatchblobTarget) := do
  let targets ← (groupTargets records groupIndex).mapM readTarget
  legacyTargetsFromV2 targets

/-! ## What a projected target is -/

theorem of_addSize {left right sum : ℕ} (h : addSize left right = .ok sum) :
    left + right = sum ∧ left + right ≤ sizeMax := by
  unfold addSize at h
  split_ifs at h with hwrap
  exact ⟨Except.ok.inj h, Nat.not_lt.1 hwrap⟩

/-- The tensors that version 2 describes an invocation by. -/
theorem of_describeTargetV2 (h : layout.Valid) {index : ℕ} {target : PatchblobTargetV2}
    (hdescribe : describeTargetV2 layout parameterBases index = .ok target) :
    ∃ base inputs output,
      countRecords layout parameterBases index = .ok (List.length inputs + 1, base) ∧
      0 < inputs.length ∧ base + inputs.length * 0x28 ≤ sizeMax ∧
      layout.blob.readU32 (layout.invocations.offset + index * 0x40) = .ok target.rangeIndex ∧
      (∀ i (hi : i < inputs.length), validateMemref layout (base + i * 0x28) = .ok inputs[i]) ∧
      validateMemref layout (base + inputs.length * 0x28) = .ok output ∧
      target.abiVersion = patchblobTargetV2AbiVersion ∧ target.invocationIndex = index ∧
      target.tensors = inputs.mapIdx (describeTensorV2 (inputs.length + 1)) ++
        [describeTensorV2 (inputs.length + 1) inputs.length output] := by
  unfold describeTargetV2 at hdescribe
  obtain ⟨⟨recordCount, base⟩, hcount, hdescribe⟩ := bind_eq_ok_iff.1 hdescribe
  dsimp only at hdescribe
  rw [h.sectionAt_invocations, ok_bind] at hdescribe
  obtain ⟨rangeIndex, hrange, hdescribe⟩ := bind_eq_ok_iff.1 hdescribe
  obtain ⟨contracts, hcontracts, hdescribe⟩ := bind_eq_ok_iff.1 hdescribe
  obtain ⟨-, htwo⟩ := of_countRecords hcount
  cases hdescribe
  obtain ⟨hlen, hcontracts⟩ := mapRange_eq_ok_iff.1 hcontracts
  have hread : ∀ i < recordCount, base + i * 0x28 ≤ sizeMax ∧
      ∃ tensor, validateMemref layout (base + i * 0x28) = .ok tensor ∧
        contracts[i]? = some (describeTensorV2 recordCount i tensor) := by
    intro i hi
    have hstep := hcontracts i (by omega)
    obtain ⟨slot, hslot, hstep⟩ := bind_eq_ok_iff.1 hstep
    obtain ⟨rfl, hle⟩ := of_addSize hslot
    obtain ⟨tensor, htensor, hstep⟩ := bind_eq_ok_iff.1 hstep
    refine ⟨hle, tensor, htensor, ?_⟩
    rw [List.getElem?_eq_getElem (by omega), ← Except.ok.inj hstep]
  obtain ⟨n, rfl⟩ : ∃ n, recordCount = n + 1 := ⟨recordCount - 1, by omega⟩
  obtain ⟨inputs, hinputs⟩ := exists_mapRange
    (f := fun i => validateMemref layout (base + i * 0x28))
    (n := n) fun i hi => (hread i (by omega)).2.imp fun _ h => h.1
  obtain ⟨hlen', hmemref⟩ := mapRange_eq_ok_iff.1 hinputs
  obtain ⟨hle, output, houtput, hlast⟩ := hread n (by omega)
  subst hlen'
  refine ⟨base, inputs, output, hcount, by omega, hle, hrange, hmemref, houtput, rfl, rfl, ?_⟩
  refine List.ext_getElem? fun i => ?_
  dsimp only
  rcases Nat.lt_trichotomy i inputs.length with hi | rfl | hi
  · obtain ⟨-, tensor, htensor, hcontract⟩ := hread i (by omega)
    rw [hmemref i hi, Except.ok.injEq] at htensor
    rw [hcontract, List.getElem?_append_left (by simpa), List.getElem?_mapIdx,
      List.getElem?_eq_getElem hi, htensor]
    rfl
  · rw [hlast, List.getElem?_append_right (by simp)]
    simp
  · rw [List.getElem?_eq_none (by omega), List.getElem?_eq_none (by simp; omega)]

/-- The roles, and with them the inputs and the output. -/
theorem readTensor_describeTensorV2 {recordCount i : ℕ} {actual : MemrefContract}
    {tensor : PatchTensorContract}
    (hread : readTensor (describeTensorV2 recordCount i actual) = some tensor) :
    tensor.role = (if i + 1 = recordCount then .output else .input) ∧
      precisionOf (publicPrecisionV2 actual.dtypeKind) = some tensor.dtype ∧
      tensor.elementCount = actual.elementCount ∧ tensor.spanBytes = actual.spanBytes := by
  unfold readTensor at hread
  obtain ⟨role, hrole, hread⟩ := Option.bind_eq_some_iff.1 hread
  obtain ⟨dtype, hdtype, hread⟩ := Option.bind_eq_some_iff.1 hread
  cases hread
  refine ⟨?_, hdtype, rfl, rfl⟩
  unfold describeTensorV2 at hrole
  dsimp only at hrole
  split_ifs at hrole ⊢
  · exact (Option.some.inj hrole).symm
  · exact (Option.some.inj hrole).symm

theorem precisionOf_publicPrecisionV2 {kind : ℕ} :
    (precisionOf (publicPrecisionV2 kind) = some .f16 → kind = npunlockDtypeF16) ∧
      (precisionOf (publicPrecisionV2 kind) = some .f32 → kind = npunlockDtypeF32) := by
  unfold publicPrecisionV2
  split_ifs <;> constructor <;> intro h <;> first | assumption | exact absurd h (by decide)

/-- The tensors of a target, as the front end reads them. -/
theorem readTarget_eq_some {target : PatchblobTargetV2} {inputs : List MemrefContract}
    {output : MemrefContract} {read : PatchTargetV2}
    (htensors : target.tensors = inputs.mapIdx (describeTensorV2 (inputs.length + 1)) ++
      [describeTensorV2 (inputs.length + 1) inputs.length output])
    (hread : readTarget target = some read) :
    ∃ readInputs readOutput,
      read = ⟨target.invocationIndex, target.rangeIndex, readInputs ++ [readOutput],
        target.targetFlags⟩ ∧ readInputs.length = inputs.length ∧
      (∀ i (hi : i < inputs.length) (hi' : i < readInputs.length),
        readTensor (describeTensorV2 (inputs.length + 1) i inputs[i]) = some readInputs[i]) ∧
      readTensor (describeTensorV2 (inputs.length + 1) inputs.length output) = some readOutput := by
  unfold readTarget at hread
  obtain ⟨tensors, hmap, hread⟩ := Option.bind_eq_some_iff.1 hread
  cases hread
  rw [htensors, mapM_eq_some_iff] at hmap
  obtain ⟨readInputs, readOutput, hinputs, houtput, rfl⟩ := forall₂_concat_left_iff.1 hmap
  obtain ⟨hlen, hinputs⟩ := List.forall₂_iff_get.1 hinputs
  rw [List.length_mapIdx] at hlen
  refine ⟨readInputs, readOutput, rfl, hlen.symm, fun i hi hi' => ?_, houtput⟩
  simpa using hinputs i (by simpa using hi) hi'

/-- The roles separate the inputs from the output. -/
theorem filter_roles {inputs : List PatchTensorContract} {output : PatchTensorContract}
    (hinputs : ∀ tensor ∈ inputs, tensor.role = .input) (houtput : output.role = .output) :
    (inputs ++ [output]).filter (fun tensor => tensor.role = .input) = inputs ∧
      (inputs ++ [output]).filter (fun tensor => tensor.role = .output) = [output] := by
  constructor
  · rw [List.filter_append, List.filter_eq_self.2 fun tensor h => decide_eq_true (hinputs tensor h)]
    simp [houtput]
  · rw [List.filter_append, List.filter_eq_nil_iff.2 fun tensor h => by simp [hinputs tensor h]]
    simp [houtput]

/-- The shapes of the inputs, from the checks on the first and on the second. -/
theorem of_scalarInput {first : PatchTensorContract} {rest : List PatchTensorContract}
    {output : PatchTensorContract} {elementSize : ℕ} {scalar : Bool}
    (hcount : rest.length + 1 = 1 ∨ rest.length + 1 = 2)
    (hfirst : first.elementCount = output.elementCount ∧ first.spanBytes = output.spanBytes)
    (hscalar : scalarInput (first :: rest) output elementSize = some scalar) :
    (scalar = true → rest.length + 1 = 2 ∧ 1 < output.elementCount) ∧
    (scalar = false → ∀ second ∈ rest, ¬(second.elementCount = 1 ∧ 1 < output.elementCount)) ∧
    ∀ i (hi : i < (first :: rest).length),
      (first :: rest)[i].elementCount = (if i = 1 ∧ scalar then 1 else output.elementCount) ∧
      (first :: rest)[i].spanBytes =
        (if i = 1 ∧ scalar then elementSize else output.spanBytes) := by
  match rest with
  | [] =>
    cases hscalar
    refine ⟨by simp, by simp, fun i hi => ?_⟩
    obtain rfl : i = 0 := by simpa using hi
    simpa using hfirst
  | [second] =>
    unfold scalarInput at hscalar
    dsimp only at hscalar
    split_ifs at hscalar with hone hspan hshape
    · cases hscalar
      refine ⟨fun _ => ⟨rfl, hone.2⟩, by simp, fun i hi => ?_⟩
      obtain rfl | rfl : i = 0 ∨ i = 1 := by simp at hi; omega
      · simpa using hfirst
      · simpa using And.intro hone.1 (not_not.1 hspan)
    · cases hscalar
      refine ⟨by simp, by simpa using hone, fun i hi => ?_⟩
      obtain rfl | rfl : i = 0 ∨ i = 1 := by simp at hi; omega
      · simpa using hfirst
      · simpa [not_or] using hshape
  | _ :: _ :: _ => simp at hcount

/-- The version 1 target that the front end writes for a contract. -/
def projectedTarget (target : PatchblobTargetV2) (inputCount : ℕ) (output : PatchTensorContract)
    (scalar : Bool) : PatchblobTarget where
  invocationIndex := target.invocationIndex
  rangeIndex := target.rangeIndex
  expectedInputCount := inputCount
  expectedElementCount := output.elementCount
  expectedSpanBytes := output.spanBytes
  requiredContractFlags := 0x1b ||| (if output.dtype = .f16 then 0x04 else 0x20) |||
    (if scalar then 0x40 else 0)

section ProjectedTarget

variable {target : PatchblobTargetV2} {inputCount : ℕ} {output : PatchTensorContract}
  {scalar : Bool}

theorem projectedTarget_dtype : (projectedTarget target inputCount output scalar).dtype =
    if output.dtype = .f16 then npunlockDtypeF16 else npunlockDtypeF32 := by
  unfold PatchblobTarget.dtype projectedTarget
  dsimp only
  cases scalar <;> split_ifs <;> first | rfl | contradiction

theorem projectedTarget_hasScalar :
    (projectedTarget target inputCount output scalar).HasScalar ↔ scalar = true := by
  unfold PatchblobTarget.HasScalar projectedTarget
  by_cases hdtype : output.dtype = .f16 <;> cases scalar <;> simp only [hdtype] <;> decide

theorem projectedTarget_flags
    (hscalar : scalar = true → inputCount = 2 ∧ 1 < output.elementCount) :
    checkContractFlags (projectedTarget target inputCount output scalar) = .ok () := by
  unfold checkContractFlags projectedTarget
  refine refuseIf_eq_ok_iff.2 ?_
  cases scalar with
  | false =>
    by_cases hdtype : output.dtype = .f16 <;> simp [hdtype, patchblobContractStatic,
      patchblobContractDense, patchblobContractFp16, patchblobContractCmx,
      patchblobContractDisjointOutput, patchblobContractFp32, patchblobContractInput1Scalar]
  | true =>
    obtain ⟨rfl, helements⟩ := hscalar rfl
    by_cases hdtype : output.dtype = .f16 <;> simp [hdtype, patchblobContractStatic,
      patchblobContractDense, patchblobContractFp16, patchblobContractCmx,
      patchblobContractDisjointOutput, patchblobContractFp32, patchblobContractInput1Scalar,
      helements]

end ProjectedTarget

/-- What the front end requires of the targets it projects. -/
theorem of_legacyTarget {target : PatchblobTargetV2} {inputs : List PatchTensorContract}
    {output : PatchTensorContract} {projected : PatchblobTarget}
    (hroles : ∀ tensor ∈ inputs, tensor.role = .input) (hrole : output.role = .output)
    (hproject : legacyTarget ⟨target.invocationIndex, target.rangeIndex, inputs ++ [output],
      target.targetFlags⟩ = some projected) :
    ∃ scalar, projected = projectedTarget target inputs.length output scalar ∧
      target.targetFlags = 0 ∧ (output.dtype = .f16 ∨ output.dtype = .f32) ∧
      (∀ tensor ∈ inputs, tensor.dtype = output.dtype) ∧
      (scalar = true → inputs.length = 2 ∧ 1 < output.elementCount) ∧
      (scalar = false → ∀ second ∈ inputs.tail,
        ¬(second.elementCount = 1 ∧ 1 < output.elementCount)) ∧
      ∀ i (hi : i < inputs.length),
        inputs[i].elementCount = (if i = 1 ∧ scalar then 1 else output.elementCount) ∧
        inputs[i].spanBytes =
          (if i = 1 ∧ scalar then if output.dtype = .f16 then 2 else 4 else output.spanBytes) := by
  obtain ⟨hins, houts⟩ := filter_roles hroles hrole
  unfold legacyTarget PatchTargetV2.inputCount at hproject
  dsimp only at hproject
  rw [hins, houts, Option.ite_none_left_eq_some] at hproject
  obtain ⟨hcount, hproject⟩ := hproject
  obtain ⟨hflags, hcount⟩ := not_or.1 hcount
  match inputs with
  | [] => simp at hcount
  | first :: rest =>
    dsimp only at hproject
    rw [Option.ite_none_left_eq_some, Option.ite_none_left_eq_some,
      Option.ite_none_left_eq_some] at hproject
    obtain ⟨-, hdtype, hspan, hproject⟩ := hproject
    obtain ⟨hprecision, hsame⟩ := not_or.1 hdtype
    obtain ⟨-, hfirst⟩ := not_or.1 hspan
    obtain ⟨scalar, hscalar, rfl⟩ := Option.map_eq_some_iff.1 hproject
    obtain ⟨htwo, hnot, hshape⟩ := of_scalarInput (not_not.1 hcount)
      ⟨not_not.1 (not_or.1 hfirst).1, not_not.1 (not_or.1 hfirst).2⟩ hscalar
    exact ⟨scalar, rfl, not_not.1 hflags, not_not.1 hprecision,
      fun tensor h => not_not.1 fun hne => hsame ⟨tensor, h, hne⟩, htwo, hnot, hshape⟩

/-- The tensors behind a projected contract have the shapes it states. -/
theorem matches_projectedTarget {target : PatchblobTargetV2} {n recordCount i : ℕ}
    {output tensor : PatchTensorContract} {actual : MemrefContract} {scalar : Bool}
    (hprecision : output.dtype = .f16 ∨ output.dtype = .f32)
    (hread : readTensor (describeTensorV2 recordCount i actual) = some tensor)
    (hdtype : tensor.dtype = output.dtype) :
    actual.dtypeKind = (projectedTarget target n output scalar).dtype := by
  obtain ⟨-, hkind, -⟩ := readTensor_describeTensorV2 hread
  rw [hdtype] at hkind
  rw [projectedTarget_dtype]
  rcases hprecision with h | h
  · rw [h] at hkind ⊢
    exact precisionOf_publicPrecisionV2.1 hkind
  · rw [h] at hkind ⊢
    exact precisionOf_publicPrecisionV2.2 hkind

/-- The tensors of an invocation, with a version 1 contract that they match. -/
structure SpelledOut (layout : GraphLayout) (base : ℕ) (inputs : List MemrefContract)
    (output : MemrefContract) (target : PatchblobTarget) : Prop where
  count_eq : target.expectedInputCount = inputs.length
  memref_eq : ∀ i (hi : i < inputs.length),
    validateMemref layout (base + i * 0x28) = .ok inputs[i]
  output_eq : validateMemref layout (base + inputs.length * 0x28) = .ok output
  room : base + inputs.length * 0x28 ≤ sizeMax
  inputs_match : ∀ i (hi : i < inputs.length), (target.inputV2 i).Matches inputs[i]
  output_matches : target.outputV2.Matches output

namespace SpelledOut

variable {base : ℕ} {inputs : List MemrefContract} {output : MemrefContract}
  {target : PatchblobTarget} (s : SpelledOut layout base inputs output target)

include s

/-- Version 2 describes the tensors by the contract. -/
theorem tensors_eq : target.inputsV2 ++ [target.outputV2] =
    inputs.mapIdx (describeTensorV2 (inputs.length + 1)) ++
      [describeTensorV2 (inputs.length + 1) inputs.length output] := by
  have houtput := describeTensorV2_output s.output_matches
  have hinput : ∀ i (hi : i < inputs.length),
      describeTensorV2 (target.expectedInputCount + 1) i inputs[i] = target.inputV2 i :=
    fun i hi => describeTensorV2_input (by rw [s.count_eq]; exact hi) (s.inputs_match i hi)
  rw [s.count_eq] at houtput hinput
  rw [houtput]
  congr 1
  refine List.ext_getElem (by simp [s.count_eq]) fun i hi hi' => ?_
  rw [target.getElem_inputsV2, List.getElem_mapIdx]
  exact (hinput i (by simpa using hi')).symm

/-- A full size input has the element type and the shape of the contract. -/
theorem input_shape {i : ℕ} (hi : i < inputs.length) (hfull : ¬(i = 1 ∧ target.HasScalar)) :
    inputs[i].elementCount = target.expectedElementCount ∧
      inputs[i].spanBytes = target.expectedSpanBytes ∧ inputs[i].dtypeKind = target.dtype := by
  obtain ⟨helements, hspan, hdtype⟩ := s.inputs_match i hi
  rw [PatchblobTarget.inputV2, target.dtypeFromPublicPrecisionV2_dtype] at hdtype
  simp only [PatchblobTarget.inputV2, if_neg hfull] at helements hspan
  exact ⟨helements, hspan, hdtype⟩

/-- The flag that version 1 computes is the one of the contract. -/
theorem scalarInputFlag_eq (hpos : 0 < inputs.length)
    (hscalar : target.HasScalar → inputs.length = 2 ∧ 1 < target.expectedElementCount)
    (hnot : ¬target.HasScalar → ∀ second ∈ inputs.tail,
      ¬(second.elementCount = 1 ∧ 1 < target.expectedElementCount)) :
    scalarInputFlag layout base inputs[0] inputs.length =
      .ok (if target.HasScalar then patchblobContractInput1Scalar else 0) := by
  obtain ⟨hfirst, hfirstSpan, hfirstDtype⟩ := s.input_shape hpos (by simp)
  unfold scalarInputFlag
  by_cases htwo : inputs.length = 2
  · have hroom := s.room
    have hsecond := s.memref_eq 1 (by omega)
    have houtput := s.output_eq
    rw [htwo] at hroom houtput
    rw [Nat.one_mul] at hsecond
    rw [if_pos htwo, addSize_of_le (by omega), ok_bind, hsecond, ok_bind, addSize_of_le hroom,
      ok_bind, houtput, ok_bind]
    obtain ⟨helements, hspan, hdtype⟩ := s.output_matches
    rw [PatchblobTarget.outputV2, target.dtypeFromPublicPrecisionV2_dtype] at hdtype
    simp only [PatchblobTarget.outputV2] at helements hspan
    congr 1
    refine if_congr ?_ rfl rfl
    unfold hasScalarInput
    rw [hfirst, hfirstSpan, hfirstDtype, helements, hspan, hdtype]
    by_cases hflag : target.HasScalar
    · obtain ⟨hone, hspan, hdtype⟩ := s.inputs_match 1 (by omega)
      rw [PatchblobTarget.inputV2, target.dtypeFromPublicPrecisionV2_dtype] at hdtype
      simp only [PatchblobTarget.inputV2, true_and, if_pos hflag] at hone hspan
      simp [hone, hspan, hdtype, hflag, (hscalar hflag).2]
    · have hsecond := hnot hflag inputs[1]
        (List.mem_iff_getElem.2 ⟨0, by rw [List.length_tail]; omega, by simp⟩)
      simp only [hflag, iff_false, Bool.and_eq_true, decide_eq_true_eq, beq_iff_eq]
      exact fun hall => hsecond ⟨hall.1.1.1.1.2, hall.1.1.1.1.1.1⟩
  · rw [if_neg htwo, if_neg fun hflag => htwo (hscalar hflag).1]

end SpelledOut

/-- What the front end projects is what version 1 describes, and its contract spells out to
the one projected. -/
theorem legacyTarget_spec (h : layout.Valid) {index : ℕ} {target : PatchblobTargetV2}
    {read : PatchTargetV2} {projected : PatchblobTarget}
    (hdescribe : describeTargetV2 layout parameterBases index = .ok target)
    (hread : readTarget target = some read) (hproject : legacyTarget read = some projected) :
    describeTarget layout parameterBases index = .ok projected ∧ projected.toV2 = target ∧
      checkContractFlags projected = .ok () ∧ 0 < projected.expectedInputCount := by
  obtain ⟨base, inputs, output, hcount, hpos, hroom, hrange, hmemref, houtput, habi, rfl,
    htensors⟩ :=
    of_describeTargetV2 h hdescribe
  obtain ⟨readInputs, readOutput, rfl, hlen, hreadInputs, hreadOutput⟩ :=
    readTarget_eq_some htensors hread
  have hroles : ∀ tensor ∈ readInputs, tensor.role = .input := by
    intro tensor htensor
    obtain ⟨i, hi, rfl⟩ := List.getElem_of_mem htensor
    rw [(readTensor_describeTensorV2 (hreadInputs i (by omega) hi)).1, if_neg (by omega)]
  have hrole : readOutput.role = .output := by
    rw [(readTensor_describeTensorV2 hreadOutput).1, if_pos rfl]
  obtain ⟨scalar, rfl, hflags, hprecision, hdtypes, htwo, hnot, hshape⟩ :=
    of_legacyTarget hroles hrole hproject
  rw [hlen] at htwo hproject ⊢
  generalize hp : projectedTarget target inputs.length readOutput scalar = p
  have hcheck : checkContractFlags p = .ok () := hp ▸ projectedTarget_flags htwo
  have hscalar : p.HasScalar ↔ scalar = true := hp ▸ projectedTarget_hasScalar
  have hdtype : p.dtype = if readOutput.dtype = .f16 then npunlockDtypeF16 else npunlockDtypeF32 :=
    hp ▸ projectedTarget_dtype
  have hsize : dtypeSizeBytes p.dtype = if readOutput.dtype = .f16 then 2 else 4 := by
    rw [hdtype]
    split_ifs <;> rfl
  have hpelements : p.expectedElementCount = readOutput.elementCount := hp ▸ rfl
  have hpspan : p.expectedSpanBytes = readOutput.spanBytes := hp ▸ rfl
  have hspelled : SpelledOut layout base inputs output p := by
    refine ⟨hp ▸ rfl, hmemref, houtput, hroom, fun i hi => ?_, ?_⟩
    · obtain ⟨-, -, helements, hspan⟩ := readTensor_describeTensorV2 (hreadInputs i hi (by omega))
      obtain ⟨helements', hspan'⟩ := hshape i (by omega)
      refine ⟨?_, ?_, ?_⟩
      · rw [← helements, helements', PatchblobTarget.inputV2, hpelements]
        simp only [hscalar]
      · rw [← hspan, hspan', PatchblobTarget.inputV2, hpspan, hsize]
        simp only [hscalar]
      · rw [PatchblobTarget.inputV2, p.dtypeFromPublicPrecisionV2_dtype, ← hp]
        exact matches_projectedTarget hprecision (hreadInputs i hi (by omega))
          (hdtypes _ (List.getElem_mem _))
    · obtain ⟨-, -, helements, hspan⟩ := readTensor_describeTensorV2 hreadOutput
      refine ⟨by rw [← helements, ← hpelements]; rfl, by rw [← hspan, ← hpspan]; rfl, ?_⟩
      rw [PatchblobTarget.outputV2, p.dtypeFromPublicPrecisionV2_dtype, ← hp]
      exact matches_projectedTarget hprecision hreadOutput rfl
  have htoV2 : p.toV2 = target := by
    obtain ⟨abiVersion, invocationIndex, rangeIndex, targetFlags, tensors⟩ := target
    obtain rfl : abiVersion = patchblobTargetV2AbiVersion := habi
    obtain rfl : targetFlags = 0 := hflags
    obtain rfl : tensors = _ := htensors
    rw [← hspelled.tensors_eq, PatchblobTarget.toV2, ← hp]
    rfl
  have hflag := hspelled.scalarInputFlag_eq hpos
    (fun hset => by rw [hpelements]; exact htwo (hscalar.1 hset)) fun hunset second hsecond => ?_
  · refine ⟨?_, htoV2, hcheck, by rw [hspelled.count_eq]; exact hpos⟩
    have hfirst := hmemref 0 hpos
    rw [Nat.zero_mul, Nat.add_zero] at hfirst
    obtain ⟨hfirstElements, hfirstSpan, hfirstDtype⟩ := hspelled.input_shape hpos (by simp)
    unfold describeTarget
    rw [hcount, ok_bind]
    dsimp only
    rw [hfirst, ok_bind, h.sectionAt_invocations, ok_bind, hrange, ok_bind, Nat.add_sub_cancel,
      hflag, ok_bind, hfirstElements, hfirstSpan, hfirstDtype, hdtype, if_congr hscalar rfl rfl,
      ← hp]
    unfold projectedTarget
    cases scalar <;> by_cases hdtype : readOutput.dtype = .f16 <;> simp [hdtype, npunlockDtypeF16,
      npunlockDtypeF32, patchblobContractStatic, patchblobContractDense, patchblobContractFp16,
      patchblobContractCmx, patchblobContractDisjointOutput, patchblobContractFp32,
      patchblobContractInput1Scalar]
  · obtain ⟨i, hi, rfl⟩ := List.getElem_of_mem hsecond
    rw [List.length_tail] at hi
    rw [List.getElem_tail,
      ← (readTensor_describeTensorV2 (hreadInputs (i + 1) (by omega) (by omega))).2.2.1, hpelements]
    refine hnot (by simpa using hscalar.not.1 hunset) _ ?_
    rw [← List.getElem_tail (by rw [List.length_tail]; omega)]
    exact List.getElem_mem _

/-! ## The two versions -/

/-- The second tensor of a version 2 target is an input of one element. -/
def PatchblobTargetV2.HasUnitInput (target : PatchblobTargetV2) : Prop :=
  ∃ tensor ∈ target.tensors, tensor.role = patchblobTensorRoleInputV2 ∧ tensor.tensorIndex = 1 ∧
    tensor.elementCount = 1

instance (target : PatchblobTargetV2) : Decidable target.HasUnitInput :=
  inferInstanceAs (Decidable (∃ tensor ∈ target.tensors, _))

/-- The scalar flag says that input 1 has one element, next to an output with more. -/
theorem hasScalar_iff {target : PatchblobTarget} (hflags : checkContractFlags target = .ok ()) :
    target.HasScalar ↔ target.toV2.HasUnitInput ∧ 1 < target.expectedElementCount := by
  constructor
  · intro hscalar
    obtain ⟨htwo, helements⟩ := target.of_checkContractFlags hflags hscalar
    refine ⟨⟨target.inputV2 1, ?_, rfl, rfl, if_pos ⟨rfl, hscalar⟩⟩, helements⟩
    refine List.mem_append_left _ (List.mem_map.2 ⟨1, ?_, rfl⟩)
    rw [List.mem_range]
    omega
  · rintro ⟨⟨tensor, htensor, hrole, hindex, hone⟩, helements⟩
    by_contra hscalar
    rcases List.mem_append.1 htensor with hinput | houtput
    · obtain ⟨i, -, rfl⟩ := List.mem_map.1 hinput
      simp only [PatchblobTarget.inputV2, hscalar, and_false, if_false] at hone
      omega
    · rw [List.mem_singleton.1 houtput] at hrole
      exact absurd hrole (show ¬patchblobTensorRoleOutputV2 = _ by decide)

/-- Patches with version 1 targets, and with the same targets spelled out, have one output
or fail both. -/
def PatchesAgree (graphBlob : View) (targets : List PatchblobTarget) : Prop :=
  ∀ image imageAlignment tailPadding, Agree (fun r r' => r.1 = r'.1)
    (patchGraphBlob graphBlob image targets imageAlignment tailPadding)
    (patchGraphBlobV2 graphBlob image (targets.map PatchblobTarget.toV2) imageAlignment tailPadding)

/-- A version 1 target that one of the versions discovered. -/
theorem bothValid_of_version1 (h : layout.Valid) (hbases : BasesOf layout parameterBases)
    {target : PatchblobTarget} {index : ℕ}
    (hdescribe : describeTarget layout parameterBases index = .ok target) {detail : PatchDetail}
    (hvalid : validateTarget layout parameterBases target = .ok detail) :
    BothValid layout parameterBases target :=
  ⟨⟨detail, hvalid⟩, (validate_toV2_iff h hbases ((validateTarget_eq_ok_iff h hbases).1 hvalid).1
    (of_describeTarget h hdescribe).2.2.2).1 ⟨detail, hvalid⟩⟩

/-- The targets that the front end projects are described and accepted by version 1. -/
theorem legacyGroup_spec {graphBlob : View} (hparse : parseGraph graphBlob = .ok layout)
    (hbases : invocationParameterBases layout = .ok parameterBases)
    {targets : List PatchblobTargetV2} {read : List PatchTargetV2}
    {projected : List PatchblobTarget}
    (hdescribed : ∀ target ∈ targets, ∃ index,
      describeTargetV2 layout parameterBases index = .ok target)
    (hvalid : ∀ target ∈ targets, ∃ detail,
      validateTargetV2 layout parameterBases target = .ok detail)
    (hread : targets.mapM readTarget = some read)
    (hproject : legacyTargetsFromV2 read = some projected) :
    projected.map PatchblobTarget.toV2 = targets ∧ PatchesAgree graphBlob projected ∧
      ∀ p ∈ projected, describeTarget layout parameterBases p.invocationIndex = .ok p := by
  have h := GraphLayout.Valid.of_parse hparse
  have hbasesOf := (invocationParameterBases_spec h).value _ hbases
  have hspec : List.Forall₂ (fun target p => p.toV2 = target ∧ BothValid layout parameterBases p ∧
      describeTarget layout parameterBases p.invocationIndex = .ok p) targets projected := by
    obtain ⟨hlen, hread⟩ := List.forall₂_iff_get.1 (mapM_eq_some_iff.1 hread)
    obtain ⟨hlen', hproject⟩ := List.forall₂_iff_get.1 (mapM_eq_some_iff.1 hproject)
    refine List.forall₂_iff_get.2 ⟨hlen.trans hlen', fun i hi hi' => ?_⟩
    obtain ⟨index, hdescribe⟩ := hdescribed _ (List.get_mem targets ⟨i, hi⟩)
    obtain ⟨hdescribe, htoV2, hflags, hcount⟩ := legacyTarget_spec h hdescribe
      (hread i hi (by omega)) (hproject i (by omega) hi')
    have hvalid := hvalid _ (List.get_mem targets ⟨i, hi⟩)
    rw [← htoV2] at hvalid
    refine ⟨htoV2, ⟨(validate_toV2_iff h hbasesOf hflags hcount).2 hvalid, hvalid⟩, ?_⟩
    have hindex := (of_describeTarget h hdescribe).2.2.1
    rw [List.get_eq_getElem] at hindex ⊢
    rw [hindex]
    exact hdescribe
  obtain ⟨hlen, hspec⟩ := List.forall₂_iff_get.1 hspec
  refine ⟨List.ext_getElem (by simp [hlen]) fun i hi hi' => ?_, fun image al pad =>
    patchGraphBlobWith_toV2 hparse hbases (fun p hp => ?_) image al pad, fun p hp => ?_⟩
  · rw [List.getElem_map]
    exact (hspec i hi' (by simpa using hi)).1
  · obtain ⟨i, hi, rfl⟩ := List.getElem_of_mem hp
    exact (hspec i (by omega) hi).2.1
  · obtain ⟨i, hi, rfl⟩ := List.getElem_of_mem hp
    exact (hspec i (by omega) hi).2.2

/-- What describes an invocation is determined by its contract, spelled out. -/
theorem eq_of_toV2 : ∀ {left right : List PatchblobTarget},
    left.map PatchblobTarget.toV2 = right.map PatchblobTarget.toV2 →
    (∀ p ∈ left, describeTarget layout parameterBases p.invocationIndex = .ok p) →
    (∀ p ∈ right, describeTarget layout parameterBases p.invocationIndex = .ok p) → left = right
  | [], [], _, _, _ => rfl
  | p :: left, q :: right, hmap, hleft, hright => by
    obtain ⟨hhead, htail⟩ := List.cons.inj hmap
    obtain ⟨hp, hleft⟩ := List.forall_mem_cons.1 hleft
    obtain ⟨hq, hright⟩ := List.forall_mem_cons.1 hright
    have hindex : p.invocationIndex = q.invocationIndex :=
      congrArg PatchblobTargetV2.invocationIndex hhead
    rw [hindex, hq] at hp
    rw [Except.ok.inj hp, eq_of_toV2 htail hleft hright]

theorem groupTargets_toV2 (records : List (DiscoveredTarget PatchblobTarget)) (groupIndex : ℕ) :
    groupTargets (records.map DiscoveredTarget.toV2) groupIndex =
      (groupTargets records groupIndex).map PatchblobTarget.toV2 := by
  unfold groupTargets
  rw [List.filter_map, List.map_map, List.map_map]
  rfl

/-- Where version 1 discovers the targets of a graph, version 2 discovers the same targets
with their contracts spelled out, and patches of any of them agree. What the front end
projects from a group of version 2 is what version 1 discovers, and patches of it agree. -/
theorem abi_agreement (graphBlob : View) :
    (∀ records groupCount, discoverGraphTargets graphBlob = .ok (records, groupCount) →
      discoverGraphTargetsV2 graphBlob = .ok (records.map DiscoveredTarget.toV2, groupCount) ∧
      (∀ record ∈ records, record.target.HasScalar ↔
        record.target.toV2.HasUnitInput ∧ 1 < record.target.expectedElementCount) ∧
      ∀ targets, (∀ target ∈ targets, ∃ record ∈ records, record.target = target) →
        PatchesAgree graphBlob targets) ∧
    ∀ records groupCount groupIndex projected,
      discoverGraphTargetsV2 graphBlob = .ok (records, groupCount) →
      legacyGroup records groupIndex = some projected →
        projected.map PatchblobTarget.toV2 = groupTargets records groupIndex ∧
        PatchesAgree graphBlob projected ∧
        ∀ records1 groupCount1, discoverGraphTargets graphBlob = .ok (records1, groupCount1) →
          projected = groupTargets records1 groupIndex := by
  refine ⟨fun records groupCount hdiscover => ?_,
    fun records groupCount groupIndex projected hdiscover hlegacy => ?_⟩
  · obtain ⟨layout, parameterBases, hparse, hbases, hbasesOf, -, hrun⟩ :=
      (discoverGraphTargetsWith_spec (Abi.lawful .v1) graphBlob).value _ hdiscover
    have h := GraphLayout.Valid.of_parse hparse
    refine ⟨discoverGraphTargets_toV2 hdiscover, fun record hrecord => ?_,
      fun targets htargets image al pad =>
        patchGraphBlobWith_toV2 hparse hbases (fun target htarget => ?_) image al pad⟩
    · obtain ⟨detail, hvalid⟩ := hrun.validated record hrecord
      exact hasScalar_iff ((validateTarget_eq_ok_iff h hbasesOf).1 hvalid).1
    · obtain ⟨record, hrecord, rfl⟩ := htargets target htarget
      obtain ⟨detail, hvalid⟩ := hrun.validated record hrecord
      exact bothValid_of_version1 h hbasesOf (hrun.described record hrecord) hvalid
  · obtain ⟨layout, parameterBases, hparse, hbases, -, -, hrun⟩ :=
      (discoverGraphTargetsWith_spec (Abi.lawful .v2) graphBlob).value _ hdiscover
    obtain ⟨read, hread, hproject⟩ := Option.bind_eq_some_iff.1 hlegacy
    have hrecords : ∀ target ∈ groupTargets records groupIndex,
        (∃ index, describeTargetV2 layout parameterBases index = .ok target) ∧
          ∃ detail, validateTargetV2 layout parameterBases target = .ok detail := by
      intro target htarget
      obtain ⟨record, hrecord, rfl⟩ := List.mem_map.1 htarget
      have hrecord := List.mem_of_mem_filter hrecord
      exact ⟨⟨_, hrun.described record hrecord⟩, hrun.validated record hrecord⟩
    obtain ⟨htoV2, hpatches, hdescribes⟩ := legacyGroup_spec hparse hbases
      (fun target htarget => (hrecords target htarget).1)
      (fun target htarget => (hrecords target htarget).2) hread hproject
    refine ⟨htoV2, hpatches, fun records1 groupCount1 hdiscover1 => ?_⟩
    obtain ⟨layout1, parameterBases1, hparse1, hbases1, -, -, hrun1⟩ :=
      (discoverGraphTargetsWith_spec (Abi.lawful .v1) graphBlob).value _ hdiscover1
    obtain rfl := Except.ok.inj (hparse.symm.trans hparse1)
    obtain rfl := Except.ok.inj (hbases.symm.trans hbases1)
    have hsame := discoverGraphTargets_toV2 hdiscover1
    obtain ⟨rfl, -⟩ := Prod.mk.inj (Except.ok.inj (hdiscover.symm.trans hsame))
    rw [groupTargets_toV2] at htoV2
    refine eq_of_toV2 htoV2 hdescribes fun p hp => ?_
    obtain ⟨record, hrecord, rfl⟩ := List.mem_map.1 hp
    exact hrun1.described record (List.mem_of_mem_filter hrecord)

/-- Both hypotheses hold of the example graph. -/
theorem abi_agreement_example :
    ∃ records groupCount projected, discoverGraphTargets (ExampleGraph.view {}) =
        .ok (records, groupCount) ∧
      legacyGroup (records.map DiscoveredTarget.toV2) 0 = some projected ∧
      projected = groupTargets records 0 ∧ PatchesAgree (ExampleGraph.view {}) projected := by
  obtain ⟨hversion1, hversion2⟩ := abi_agreement (ExampleGraph.view {})
  obtain ⟨⟨records, groupCount⟩, hdiscover⟩ := succeeds_iff.1 example_discovery
  have hlegacy : (discoverGraphTargetsV2 (ExampleGraph.view {})).map
      (fun state => (legacyGroup state.1 0).isSome) = .ok true := by
    decide +kernel
  obtain ⟨hdiscover2, -⟩ := hversion1 records groupCount hdiscover
  rw [hdiscover2, map_ok, Except.ok.injEq, Option.isSome_iff_exists] at hlegacy
  obtain ⟨projected, hprojected⟩ := hlegacy
  obtain ⟨-, hpatches, hsame⟩ := hversion2 _ _ 0 projected hdiscover2 hprojected
  exact ⟨records, groupCount, projected, hdiscover, hprojected, hsame _ _ hdiscover, hpatches⟩

/-- A graph whose one invocation has three inputs of one element. -/
def unitGraph : ExampleGraph where
  invocationCount := 1
  elementCount := 1

/-- With outputs of one element, input 1 has one element and the flag is not set. -/
theorem abi_agreement_unit_output :
    ¬∀ graphBlob records groupCount, discoverGraphTargets graphBlob = .ok (records, groupCount) →
      ∀ record ∈ records, record.target.HasScalar ↔ record.target.toV2.HasUnitInput := by
  intro h
  have hdiscover : (discoverGraphTargets unitGraph.view).map (fun state => state.1.map fun record =>
      (decide record.target.HasScalar, decide record.target.toV2.HasUnitInput)) =
        .ok [(false, true)] := by
    decide +kernel
  cases hrun : discoverGraphTargets unitGraph.view with
  | error e =>
    rw [hrun] at hdiscover
    cases hdiscover
  | ok state =>
    rw [hrun, map_ok, Except.ok.injEq] at hdiscover
    obtain ⟨record, hrecords, hflags⟩ := List.map_eq_singleton_iff.1 hdiscover
    have hiff := h _ _ _ hrun record (by rw [hrecords]; exact List.mem_singleton_self _)
    simp only [Prod.mk.injEq, decide_eq_false_iff_not, decide_eq_true_eq] at hflags
    exact hflags.1 (hiff.2 hflags.2)

end Npunlock
