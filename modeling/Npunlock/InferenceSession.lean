import Mathlib.Data.List.Sigma
import Npunlock.Counting
import Npunlock.SymbolicGraph

/-!
# Inference sessions

`graphinfer` runs a compiled graph on arguments that are selected by name. `inferCopied`
copies the inputs in and the outputs out; `infer` runs on shared buffers that the caller
binds. A `Session` carries what `query_arguments` accepted; the device is a parameter.
-/

namespace Npunlock

inductive ArgumentType
  | input
  | output
  deriving DecidableEq

/-- An argument of a compiled graph. The name that the driver reports ends at its first
NUL. -/
structure SessionArgument where
  type : ArgumentType
  name : String
  dtype : DType
  shape : List ℕ
  name_nul_free : Char.ofNat 0 ∉ name.toList
  deriving DecidableEq

/-- The size of an element that can be passed to a graph. -/
def DType.executionSize : DType → Option ℕ
  | .u8 | .i8 => some 1
  | .f16 | .u16 | .i16 => some 2
  | .f32 | .u32 | .i32 => some 4
  | .i64 => some 8
  | .boolean | .f64 | .u64 => none

/-- `argument_data_size`. The products that overflow exceed the maximum. -/
def SessionArgument.dataSize (argument : SessionArgument) : Option ℕ :=
  if argument.shape = [] ∨ 5 < argument.shape.length ∨ 0 ∈ argument.shape then none
  else argument.dtype.executionSize.bind fun size =>
    if argument.shape.prod * size = 0 ∨ 0x4000000 < argument.shape.prod * size then none
    else some (argument.shape.prod * size)

inductive SessionError
  | argumentCount
  | unsupportedArgument
  | i64Output
  | noInputOrOutput
  | inputArray
  | inputDescriptor
  | duplicateSelector
  | inputsNotCovered
  | inputAmbiguous
  | inputMismatch
  | bindingsNotCovered
  | invalidBinding
  | bindingAmbiguous
  | bindingNotUnique
  | wrongBuffer
  | notBound
  | driver (code : ℕ)
  deriving DecidableEq

/-- A session on a compiled graph. -/
structure Session where
  id : ℕ
  arguments : List SessionArgument
  length_le : arguments.length ≤ 64
  supported : ∀ argument ∈ arguments, argument.dataSize ≠ none
  no_i64_output : ∀ argument ∈ arguments, argument.dtype = .i64 → argument.type = .input
  has_input : ∃ argument ∈ arguments, argument.type = .input
  has_output : ∃ argument ∈ arguments, argument.type = .output

/-- What a device makes of the inputs : the outputs, or the code of a driver error. -/
abbrev Device := List (List UInt8) → Except ℕ (List (List UInt8))

/-- The contents of shared buffers. -/
abbrev Memory := ℕ → List UInt8

structure InferenceInput where
  name : String
  data : List UInt8
  deriving DecidableEq

/-- `input_is_valid`. -/
def InferenceInput.isValid (input : InferenceInput) : Bool :=
  input.name ≠ "" ∧ Char.ofNat 0 ∉ input.name.toList ∧ input.data ≠ []

/-- A shared buffer of a session. -/
structure SharedBuffer where
  session : ℕ
  allocation : ℕ
  deriving DecidableEq

def SessionArgument.byteSize (argument : SessionArgument) : ℕ :=
  argument.dataSize.getD 0

namespace Session

/-- `query_arguments` on the arguments that the driver reports. -/
def create (id : ℕ) (reported : List SessionArgument) : Except SessionError Session :=
  if hlength : reported = [] ∨ 64 < reported.length then .error .argumentCount
  else if hsize : ∃ argument ∈ reported, argument.dataSize = none then .error .unsupportedArgument
  else if hi64 : ∃ argument ∈ reported, argument.dtype = .i64 ∧ argument.type ≠ .input then
    .error .i64Output
  else if hkinds : (∃ argument ∈ reported, argument.type = .input) ∧
      ∃ argument ∈ reported, argument.type = .output then
    .ok {
      id
      arguments := reported
      length_le := by omega
      supported := by simpa using hsize
      no_i64_output := by simpa using hi64
      has_input := hkinds.1
      has_output := hkinds.2 }
  else .error .noInputOrOutput

variable (session : Session)

/-- The arguments of a type, in their order. -/
def ofType (type : ArgumentType) : List SessionArgument :=
  session.arguments.filter fun argument => argument.type = type

/-- The arguments that a selector matches, with their indices. -/
def selected (accepts : SessionArgument → Bool) : List (SessionArgument × ℕ) :=
  session.arguments.zipIdx.filter fun entry => accepts entry.1

/-- The indices of the arguments of a type. -/
def indices (type : ArgumentType) : List ℕ :=
  (session.selected fun argument => argument.type = type).map Prod.snd

/-- A session has both kinds of arguments. -/
theorem ofType_ne_nil (type : ArgumentType) : session.ofType type ≠ [] := by
  obtain ⟨argument, hargument, htype⟩ : ∃ argument ∈ session.arguments, argument.type = type := by
    cases type with
    | input => exact session.has_input
    | output => exact session.has_output
  exact List.ne_nil_of_mem (List.mem_filter.2 ⟨hargument, by simpa using htype⟩)

theorem length_ofType_le (type : ArgumentType) : (session.ofType type).length ≤ 64 :=
  (List.length_filter_le _ _).trans session.length_le

theorem map_fst_selected (accepts : SessionArgument → Bool) :
    (session.selected accepts).map Prod.fst = session.arguments.filter accepts := by
  have hfst : session.arguments.zipIdx.map Prod.fst = session.arguments :=
    List.zipIdx_map_fst 0 session.arguments
  conv_rhs => rw [← hfst]
  rw [List.filter_map]
  rfl

theorem nodup_zipIdx : session.arguments.zipIdx.Nodup :=
  (List.nodup_zipIdx_map_snd session.arguments).of_map _

theorem nodup_indices (type : ArgumentType) : (session.indices type).Nodup :=
  (List.nodup_zipIdx_map_snd session.arguments).sublist (List.filter_sublist.map Prod.snd)

variable {session}

/-- The size of an argument is that of its elements. -/
theorem exists_executionSize {argument : SessionArgument} (h : argument ∈ session.arguments) :
    ∃ size, argument.dtype.executionSize = some size ∧
      argument.byteSize = argument.shape.prod * size ∧ 0 < argument.byteSize := by
  have hsupported := session.supported argument h
  rw [SessionArgument.byteSize]
  unfold SessionArgument.dataSize at hsupported ⊢
  split_ifs at hsupported ⊢
  · exact absurd rfl hsupported
  · cases hsize : argument.dtype.executionSize with
    | none => simp [hsize] at hsupported
    | some size =>
      simp only [hsize, Option.bind_some] at hsupported ⊢
      split_ifs at hsupported ⊢ with hzero
      · exact absurd rfl hsupported
      · exact ⟨size, rfl, rfl, Nat.pos_of_ne_zero fun h => hzero (Or.inl h)⟩

theorem byteSize_pos {argument : SessionArgument} (h : argument ∈ session.arguments) :
    0 < argument.byteSize := by
  obtain ⟨_, -, -, hpos⟩ := exists_executionSize h
  exact hpos

/-- A selector that only one of the arguments it accepts meets selects that one. -/
theorem selected_eq_singleton {accepts : SessionArgument → Bool}
    {entry : SessionArgument × ℕ} (hmem : entry ∈ session.arguments.zipIdx)
    (hentry : accepts entry.1 = true)
    (honly : ∀ other ∈ session.arguments.zipIdx, accepts other.1 = true → other = entry) :
    session.selected accepts = [entry] :=
  (filter_eq_singleton_iff session.nodup_zipIdx).2 ⟨hmem, hentry, honly⟩

/-! ## Copied tensors -/

/-- One round of `validate_inputs`, after the inputs `earlier`. -/
def validateInput (earlier : List InferenceInput) (input : InferenceInput) :
    Except SessionError (List InferenceInput) := do
  refuseIf (input.isValid = false) .inputDescriptor
  refuseIf (input.name ∈ earlier.map InferenceInput.name) .duplicateSelector
  .ok (earlier ++ [input])

/-- The argument of a copied input, after the arguments `matched`. -/
def matchInput (matched : List ℕ) (input : InferenceInput) : Except SessionError (List ℕ) :=
  match session.selected fun argument => argument.type = .input ∧ argument.name = input.name with
  | [] => .error .inputMismatch
  | [(argument, index)] =>
    if index ∈ matched ∨ input.data.length ≠ argument.byteSize then .error .inputMismatch
    else .ok (matched ++ [index])
  | _ :: _ :: _ => .error .inputAmbiguous

/-- What is copied into an input argument : the first input with its name. -/
def copiedData (inputs : List InferenceInput) (argument : SessionArgument) : List UInt8 :=
  ((inputs.find? fun input => input.name = argument.name).map InferenceInput.data).getD []

/-- `graphinfer_session_infer_copied` : the output arguments with their data. -/
def inferCopied (device : Device) (inputs : List InferenceInput) :
    Except SessionError (List (SessionArgument × List UInt8)) := do
  refuseIf (inputs = [] ∨ 64 < inputs.length) .inputArray
  let _ ← inputs.foldlM validateInput []
  refuseIf (inputs.length ≠ (session.ofType .input).length) .inputsNotCovered
  let _ ← inputs.foldlM session.matchInput []
  let outputs ← (device ((session.ofType .input).map (copiedData inputs))).mapError .driver
  .ok ((session.ofType .output).zip outputs)

/-! ## Shared tensors -/

/-- One round of `collect_bindings` : the argument that a buffer is bound to. -/
def collectBinding (memory : Memory) (type : ArgumentType) (allocations : List (ℕ × ℕ))
    (binding : String × SharedBuffer) : Except SessionError (List (ℕ × ℕ)) := do
  refuseIf (binding.1 = "" ∨ Char.ofNat 0 ∈ binding.1.toList) .invalidBinding
  match session.selected fun argument => argument.name = binding.1 with
  | [] => .error .bindingNotUnique
  | [(argument, index)] => do
    refuseIf (argument.type ≠ type ∨ index ∈ allocations.map Prod.fst) .bindingNotUnique
    refuseIf (binding.2.session ≠ session.id ∨
      (memory binding.2.allocation).length ≠ argument.byteSize) .wrongBuffer
    .ok (allocations ++ [(index, binding.2.allocation)])
  | _ :: _ :: _ => .error .bindingAmbiguous

/-- The device writes the outputs to the buffers of their arguments. -/
def writeOutputs (allocations : List (ℕ × ℕ)) (memory : Memory)
    (outputs : List (ℕ × List UInt8)) : Memory :=
  outputs.foldl (fun memory output =>
    match allocations.lookup output.1 with
    | none => memory
    | some allocation => Function.update memory allocation output.2) memory

/-- `graphinfer_session_infer` : the memory after the run. The device reads the inputs
before it writes the outputs. -/
def infer (device : Device) (memory : Memory) (inputs outputs : List (String × SharedBuffer)) :
    Except SessionError Memory := do
  refuseIf (inputs.length ≠ (session.ofType .input).length ∨
    outputs.length ≠ (session.ofType .output).length) .bindingsNotCovered
  let bound ← inputs.foldlM (session.collectBinding memory .input) []
  let allocations ← outputs.foldlM (session.collectBinding memory .output) bound
  refuseIf (∃ index ∈ List.range session.arguments.length, index ∉ allocations.map Prod.fst)
    .notBound
  let read := (session.indices .input).map fun index =>
    ((allocations.lookup index).map memory).getD []
  let written ← (device read).mapError .driver
  .ok (writeOutputs allocations memory ((session.indices .output).zip written))

/-! ## Copied inputs -/

section Copied

variable {session : Session}

/-- The inputs pass the check if each is valid and their names differ. -/
theorem exists_validateInputs_iff :
    ∀ (inputs earlier : List InferenceInput),
      (∃ all, inputs.foldlM validateInput earlier = .ok all) ↔
        (∀ input ∈ inputs, input.isValid = true) ∧ (inputs.map InferenceInput.name).Nodup ∧
          ∀ input ∈ inputs, input.name ∉ earlier.map InferenceInput.name
  | [], earlier => by simp [pure, Except.pure]
  | input :: inputs, earlier => by
    have hstep : ∀ next, validateInput earlier input = .ok next ↔
        input.isValid = true ∧ input.name ∉ earlier.map InferenceInput.name ∧
          earlier ++ [input] = next := by
      intro next
      rw [validateInput, refuseIf_bind_eq_ok_iff, refuseIf_bind_eq_ok_iff, Bool.not_eq_false,
        Except.ok.injEq]
    simp only [List.foldlM_cons, bind_eq_ok_iff, hstep]
    have ih := exists_validateInputs_iff inputs (earlier ++ [input])
    constructor
    · rintro ⟨all, _, ⟨hvalid, hfresh, rfl⟩, hall⟩
      obtain ⟨hvalids, hnodup, hrest⟩ := ih.1 ⟨all, hall⟩
      refine ⟨List.forall_mem_cons.2 ⟨hvalid, hvalids⟩, List.nodup_cons.2 ⟨fun hmem => ?_, hnodup⟩,
        List.forall_mem_cons.2 ⟨hfresh, fun later hlater hmem => ?_⟩⟩
      · obtain ⟨later, hlater, hname⟩ := List.mem_map.1 hmem
        exact hrest later hlater (by simp [hname])
      · exact hrest later hlater (by simp [hmem])
    · rintro ⟨hvalids, hnodup, hrest⟩
      obtain ⟨hvalid, hvalids⟩ := List.forall_mem_cons.1 hvalids
      obtain ⟨hfresh, hrest⟩ := List.forall_mem_cons.1 hrest
      obtain ⟨hname, hnodup⟩ := List.nodup_cons.1 hnodup
      have hlater : ∀ later ∈ inputs,
          later.name ∉ (earlier ++ [input]).map InferenceInput.name := by
        intro later hlater hmem
        rw [List.map_append, List.mem_append] at hmem
        rcases hmem with hmem | hmem
        · exact hrest later hlater hmem
        · exact hname (List.mem_map.2 ⟨later, hlater, by simpa using hmem⟩)
      obtain ⟨all, hall⟩ := ih.2 ⟨hvalids, hnodup, hlater⟩
      exact ⟨all, _, ⟨hvalid, hfresh, rfl⟩, hall⟩

/-- The input fits the argument. -/
def Carries (argument : SessionArgument) (input : InferenceInput) : Prop :=
  input.name = argument.name ∧ input.name ≠ "" ∧ input.data.length = argument.byteSize

/-- The inputs find their arguments. -/
theorem exists_matchInputs
    (hnames : ((session.ofType .input).map SessionArgument.name).Nodup) :
    ∀ {entries : List (SessionArgument × ℕ)} {inputs : List InferenceInput} (matched : List ℕ),
      List.Forall₂ (fun entry input => Carries entry.1 input) entries inputs →
      (∀ entry ∈ entries, entry ∈ session.arguments.zipIdx ∧ entry.1.type = .input) →
      (entries.map Prod.snd).Nodup → (∀ entry ∈ entries, entry.2 ∉ matched) →
        ∃ all, inputs.foldlM session.matchInput matched = .ok all
  | _, _, matched, .nil, _, _, _ => ⟨matched, rfl⟩
  | entry :: entries, input :: inputs, matched, .cons ⟨hname, _, hlength⟩ hrest, hmem, hnodup,
      hfresh => by
    obtain ⟨⟨hentry, htype⟩, hmem⟩ := List.forall_mem_cons.1 hmem
    obtain ⟨hindex, hfresh⟩ := List.forall_mem_cons.1 hfresh
    obtain ⟨hlater, hnodup⟩ := List.nodup_cons.1 hnodup
    have hselected : (session.selected fun argument =>
        argument.type = .input ∧ argument.name = input.name) = [entry] := by
      refine selected_eq_singleton hentry (by simp [htype, hname]) fun other hother haccepts => ?_
      simp only [Bool.decide_and, Bool.and_eq_true, decide_eq_true_eq] at haccepts
      have hkeys : ((session.selected fun argument => argument.type = .input).map
          fun entry => entry.1.name).Nodup := by
        rw [ofType, ← session.map_fst_selected, List.map_map] at hnames
        exact hnames
      exact List.inj_on_of_nodup_map hkeys
        (List.mem_filter.2 ⟨hother, by simpa using haccepts.1⟩)
        (List.mem_filter.2 ⟨hentry, by simpa using htype⟩) (haccepts.2.trans hname)
    have hstep : session.matchInput matched input = .ok (matched ++ [entry.2]) := by
      rw [matchInput, hselected]
      exact if_neg (by simp [hindex, hlength])
    obtain ⟨all, hall⟩ := exists_matchInputs hnames (matched ++ [entry.2]) hrest hmem
      hnodup fun later hmem' hmatched => by
        rcases List.mem_append.1 hmatched with hmatched | hmatched
        · exact hfresh later hmem' hmatched
        · exact hlater (List.mem_map.2 ⟨later, hmem', List.mem_singleton.1 hmatched⟩)
    refine ⟨all, ?_⟩
    rw [List.foldlM_cons]
    exact bind_eq_ok_iff.2 ⟨_, hstep, hall⟩

end Copied

/-! ## Shared buffers -/

section Shared

variable {session : Session} {memory : Memory}

/-- The buffer fits the argument. -/
def Binds (session : Session) (memory : Memory) (argument : SessionArgument)
    (binding : String × SharedBuffer) : Prop :=
  binding.1 = argument.name ∧ binding.1 ≠ "" ∧ binding.2.session = session.id ∧
    (memory binding.2.allocation).length = argument.byteSize

theorem selected_name (hnames : (session.arguments.map SessionArgument.name).Nodup)
    {entry : SessionArgument × ℕ} (hentry : entry ∈ session.arguments.zipIdx) :
    (session.selected fun argument => argument.name = entry.1.name) = [entry] := by
  have hkeys : (session.arguments.zipIdx.map fun entry => entry.1.name).Nodup := by
    rw [← Function.comp_def SessionArgument.name Prod.fst, ← List.map_map, List.zipIdx_map_fst]
    exact hnames
  refine selected_eq_singleton hentry (by simp) fun other hother hname => ?_
  exact List.inj_on_of_nodup_map hkeys hother hentry (by simpa using hname)

/-- Buffers that fit arguments with names of their own are bound to them. -/
theorem collectBindings_eq (hnames : (session.arguments.map SessionArgument.name).Nodup)
    {type : ArgumentType} :
    ∀ {entries : List (SessionArgument × ℕ)} {bindings : List (String × SharedBuffer)}
      (allocations : List (ℕ × ℕ)),
      List.Forall₂ (fun entry binding => Binds session memory entry.1 binding) entries bindings →
      (∀ entry ∈ entries, entry ∈ session.arguments.zipIdx ∧ entry.1.type = type) →
      (entries.map Prod.snd).Nodup → (∀ entry ∈ entries, entry.2 ∉ allocations.map Prod.fst) →
        bindings.foldlM (session.collectBinding memory type) allocations =
          .ok (allocations ++
            (entries.map Prod.snd).zip (bindings.map fun binding => binding.2.allocation))
  | _, _, allocations, .nil, _, _, _ => by simp [pure, Except.pure]
  | entry :: entries, binding :: bindings, allocations, .cons ⟨hname, hne, howner, hsize⟩ hrest,
      hmem, hnodup, hfresh => by
    obtain ⟨⟨hentry, htype⟩, hmem⟩ := List.forall_mem_cons.1 hmem
    obtain ⟨hindex, hfresh⟩ := List.forall_mem_cons.1 hfresh
    obtain ⟨hlater, hnodup⟩ := List.nodup_cons.1 hnodup
    have hnul : Char.ofNat 0 ∉ binding.1.toList := hname ▸ entry.1.name_nul_free
    have hstep : session.collectBinding memory type allocations binding =
        .ok (allocations ++ [(entry.2, binding.2.allocation)]) := by
      rw [collectBinding, refuseIf_of_not _ (by simp [hne, hnul]), hname,
        selected_name hnames hentry]
      refine bind_eq_ok_iff.2 ⟨(), rfl, ?_⟩
      dsimp only
      rw [refuseIf_of_not _ (by simp [htype, hindex]), refuseIf_of_not _ (by simp [howner, hsize])]
      rfl
    have hrun := collectBindings_eq hnames
      (allocations ++ [(entry.2, binding.2.allocation)]) hrest hmem hnodup
        fun later hmem' hbound => by
          rw [List.map_append, List.mem_append] at hbound
          rcases hbound with hbound | hbound
          · exact hfresh later hmem' hbound
          · exact hlater (List.mem_map.2 ⟨later, hmem', by simpa using hbound⟩)
    rw [List.foldlM_cons]
    refine (bind_eq_ok_iff.2 ⟨_, hstep, hrun⟩).trans ?_
    simp

/-- Writes one buffer after another. -/
def writeAll (memory : Memory) (writes : List (ℕ × List UInt8)) : Memory :=
  writes.foldl (fun memory write => Function.update memory write.1 write.2) memory

theorem writeAll_of_not_mem :
    ∀ {writes : List (ℕ × List UInt8)} {memory : Memory} {allocation : ℕ},
      allocation ∉ writes.map Prod.fst → writeAll memory writes allocation = memory allocation
  | [], _, _, _ => rfl
  | write :: writes, memory, allocation, h => by
    rw [List.map_cons, List.mem_cons, not_or] at h
    rw [writeAll, List.foldl_cons]
    exact (writeAll_of_not_mem h.2).trans (Function.update_of_ne h.1 _ _)

/-- Different buffers hold what was written to them. -/
theorem forall₂_writeAll :
    ∀ {allocations : List ℕ} {written : List (List UInt8)} (memory : Memory),
      allocations.Nodup → allocations.length = written.length →
        List.Forall₂ (fun allocation data =>
          writeAll memory (allocations.zip written) allocation = data) allocations written
  | [], [], _, _, _ => .nil
  | allocation :: allocations, data :: written, memory, hnodup, hlength => by
    obtain ⟨hfresh, hnodup⟩ := List.nodup_cons.1 hnodup
    have hlength := Nat.succ.inj hlength
    refine .cons ?_ (forall₂_writeAll _ hnodup hlength)
    rw [List.zip_cons_cons, writeAll, List.foldl_cons]
    refine (writeAll_of_not_mem ?_).trans (Function.update_self ..)
    rwa [List.map_fst_zip hlength.le]

theorem writeOutputs_eq {allocations : List (ℕ × ℕ)} {indices bound : List ℕ}
    (h : List.Forall₂ (fun index allocation => allocations.lookup index = some allocation)
      indices bound) (written : List (List UInt8)) :
    writeOutputs allocations memory (indices.zip written) =
      writeAll memory (bound.zip written) := by
  induction h generalizing memory written with
  | nil => rfl
  | @cons index allocation _ _ hlookup _ ih =>
    cases written with
    | nil => rfl
    | cons data written =>
      have hrest : writeOutputs allocations (Function.update memory allocation data) _ = _ :=
        ih written
      rw [writeOutputs] at hrest ⊢
      rw [writeAll] at hrest ⊢
      rw [List.zip_cons_cons, List.zip_cons_cons, List.foldl_cons, List.foldl_cons, ← hrest]
      simp only [hlookup]

theorem mem_indices_iff {type : ArgumentType} {index : ℕ} :
    index ∈ session.indices type ↔
      ∃ argument, (argument, index) ∈ session.arguments.zipIdx ∧ argument.type = type := by
  simp [indices, selected]

/-- Every argument is an input or an output, and none is both. -/
theorem nodup_allIndices : (session.indices .input ++ session.indices .output).Nodup := by
  refine List.nodup_append.2 ⟨session.nodup_indices _, session.nodup_indices _, ?_⟩
  rintro index hinput _ houtput rfl
  obtain ⟨argument, hargument, htype⟩ := mem_indices_iff.1 hinput
  obtain ⟨argument', hargument', htype'⟩ := mem_indices_iff.1 houtput
  have heq := List.inj_on_of_nodup_map (List.nodup_zipIdx_map_snd session.arguments) hargument
    hargument' rfl
  obtain rfl := congrArg Prod.fst heq
  exact absurd (htype.symm.trans htype') (by simp)

theorem mem_allIndices {index : ℕ} (h : index < session.arguments.length) :
    index ∈ session.indices .input ++ session.indices .output := by
  have hentry : (session.arguments[index], index) ∈ session.arguments.zipIdx := by
    rw [List.mk_mem_zipIdx_iff_getElem?, List.getElem?_eq_getElem h]
  rw [List.mem_append, mem_indices_iff, mem_indices_iff]
  cases htype : session.arguments[index].type with
  | input => exact .inl ⟨_, hentry, htype⟩
  | output => exact .inr ⟨_, hentry, htype⟩

end Shared

end Session

end Npunlock
