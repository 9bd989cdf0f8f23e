import Mathlib.Data.List.AList
import Npunlock.SessionBindings
import Npunlock.Program

/-!
# Running a program

`run` passes the arrays of a mapping to a session and returns a mapping of the outputs :
new arrays, or the shared arrays of the caller. Mappings are dictionaries, so two boundary
tensors with one name share an entry.

`run_returns_iff` : a run returns every output just when the names of the boundary differ
and shared outputs do not share a buffer.
-/

namespace Npunlock

/-! ## Arrays -/

/-- A NumPy array in C order. `dtype` is `none` for an element type no tensor has. -/
structure NdArray where
  dtype : Option DType
  shape : List ℕ
  data : List UInt8
  length_eq : ∀ element ∈ dtype, ∀ size ∈ element.executionSize, data.length = shape.prod * size

/-- An array over a buffer of a session. `positions` are the bytes of the buffer that it
shows. -/
structure SharedArray where
  session : ℕ
  allocation : ℕ
  dtype : DType
  shape : List ℕ
  positions : List ℕ
  length_eq : ∀ size ∈ dtype.executionSize, positions.length = shape.prod * size

inductive RunValue
  | array (value : NdArray)
  | shared (value : SharedArray)

/-- A dictionary of arrays. -/
abbrev Arrays := AList fun _ : String => RunValue

namespace RunValue

/-- `np.asarray`. -/
def asArray (memory : Memory) : RunValue → NdArray
  | .array value => value
  | .shared value => {
      dtype := some value.dtype
      shape := value.shape
      data := value.positions.map fun position => (memory value.allocation).getD position 0
      length_eq := by
        rintro element ⟨⟩ size hsize
        rw [List.length_map]
        exact value.length_eq size hsize }

/-- The buffer behind an array. -/
def allocation : RunValue → Option ℕ
  | .array _ => none
  | .shared value => some value.allocation

end RunValue

inductive RunError
  | inputNames
  | outputNames
  | closed
  | notShared (name : String)
  | wrongShared (name : String)
  | inputDtype (dtype : DType)
  | inputContract (name : String)
  | emptyInput
  | outputCount
  | outputDtype (name : String)
  | outputContract (name : String)
  | outputSize (name : String)
  | session (error : SessionError)
  deriving DecidableEq

/-! ## The run -/

/-- The names of a mapping are those of the contracts. -/
def SameNames (arrays : Arrays) (names : List String) : Prop :=
  arrays.keys.toFinset = names.toFinset

instance (arrays : Arrays) (names : List String) : Decidable (SameNames arrays names) :=
  inferInstanceAs (Decidable (_ = _))

section Run

variable (memory : Memory) (inputs : Arrays)

/-- An input as it is copied to the session. -/
def copiedInput (contract : TensorContract) : Except RunError InferenceInput := do
  refuseIf (contract.dtype.executionSize = none) (RunError.inputDtype contract.dtype)
  match inputs.lookup contract.name with
  | none => .error .inputNames
  | some value => do
    let array := value.asArray memory
    refuseIf (array.dtype ≠ some contract.dtype ∨ array.shape ≠ contract.shape)
      (RunError.inputContract contract.name)
    refuseIf (array.data = []) RunError.emptyInput
    .ok ⟨contract.name, array.data⟩

/-- An output as it is put into the mapping. -/
def copiedOutput (values : Arrays) (entry : TensorContract × SessionArgument × List UInt8) :
    Except RunError Arrays :=
  let contract := entry.1
  match hsize : contract.dtype.executionSize with
  | none => .error (.outputDtype contract.name)
  | some size =>
    if entry.2.1.dtype ≠ contract.dtype ∨ entry.2.1.shape ≠ contract.shape then
      .error (.outputContract contract.name)
    else if hlength : entry.2.2.length = contract.shape.prod * size then
      .ok (values.insert contract.name (.array {
        dtype := some contract.dtype
        shape := contract.shape
        data := entry.2.2
        length_eq := by
          rintro element ⟨⟩ size' hsize'
          obtain rfl := Option.some.inj (hsize.symm.trans hsize')
          exact hlength }))
    else .error (.outputSize contract.name)

/-- `_validate_shared_array`, with the name that the buffer is bound by. -/
def validateSharedArray (session : Session) (arrays : Arrays) (contract : TensorContract) :
    Except RunError (String × SharedBuffer) :=
  match arrays.lookup contract.name with
  | none => .error .inputNames
  | some (.array _) => .error (.notShared contract.name)
  | some (.shared value) => do
    refuseIf (value.session ≠ session.id ∨ value.shape ≠ contract.shape ∨
      contract.dtype.executionSize = none ∨ value.dtype ≠ contract.dtype ∨
        value.positions ≠ List.range (memory value.allocation).length)
      (RunError.wrongShared contract.name)
    .ok (contract.name, ⟨value.session, value.allocation⟩)

variable (program : Program) (session : Except RunError Session) (device : Device)

/-- A run that copies : a new mapping. -/
def runCopied : Except RunError Arrays := do
  let native ← program.inputs.mapM (copiedInput memory inputs)
  let session ← session
  let inferred ← (session.inferCopied device native).mapError RunError.session
  refuseIf (inferred.length ≠ program.outputs.length) RunError.outputCount
  (program.outputs.zip inferred).foldlM copiedOutput ∅

/-- A run on shared arrays : the memory after it. -/
def runShared (outputs : Arrays) : Except RunError Memory := do
  refuseIf (¬SameNames outputs program.outputNames) RunError.outputNames
  let session ← session
  let sharedInputs ← program.inputs.mapM (validateSharedArray memory session inputs)
  let sharedOutputs ← program.outputs.mapM (validateSharedArray memory session outputs)
  (session.infer device memory sharedInputs sharedOutputs).mapError RunError.session

/-- `Program.run` : the mapping it returns, with the memory after the run. -/
def Program.run (outputs : Option Arrays) : Except RunError (Arrays × Memory) := do
  refuseIf (¬SameNames inputs program.inputNames) RunError.inputNames
  match outputs with
  | none => do
    let values ← runCopied memory inputs program session device
    .ok (values, memory)
  | some arrays => do
    let memory' ← runShared memory inputs program session device arrays
    .ok (arrays, memory')

end Run

/-! ## Runs that return every output -/

/-- An argument of a session that fits a contract. -/
abbrev FitsArgument (argument : SessionArgument) (contract : TensorContract) : Prop :=
  argument.name = contract.name ∧ argument.dtype = contract.dtype ∧
    argument.shape = contract.shape

/-- The session runs the program : the driver reports the arguments of the program's
contracts, the inputs by name. -/
structure Session.Serves (session : Session) (program : Program) : Prop where
  inputs : List.Forall₂ FitsArgument (session.ofType .input) program.inputs
  outputs : List.Forall₂ (fun argument contract => argument.dtype = contract.dtype ∧
    argument.shape = contract.shape) (session.ofType .output) program.outputs

/-- The device gives every output of the session its data. -/
def Device.Fills (device : Device) (session : Session) : Prop :=
  ∀ inputs, ∃ outputs, device inputs = .ok outputs ∧
    outputs.map List.length = (session.ofType .output).map SessionArgument.byteSize

/-- An array that fits a contract. -/
def FitsContract (memory : Memory) (contract : TensorContract) (value : RunValue) : Prop :=
  (value.asArray memory).dtype = some contract.dtype ∧
    (value.asArray memory).shape = contract.shape

/-- An array over a whole buffer of the session that fits a contract. -/
def FitsShared (session : Session) (memory : Memory) (contract : TensorContract)
    (value : RunValue) : Prop :=
  ∃ array, value = .shared array ∧ array.session = session.id ∧ array.dtype = contract.dtype ∧
    array.shape = contract.shape ∧
      array.positions = List.range (memory array.allocation).length

/-- The mapping has a fitting array for each contract, and no other entry. -/
def FitsAll (fits : TensorContract → RunValue → Prop) (contracts : List TensorContract)
    (arrays : Arrays) : Prop :=
  SameNames arrays (contracts.map TensorContract.name) ∧
    ∀ contract ∈ contracts, ∃ value, arrays.lookup contract.name = some value ∧ fits contract value

/-- Arguments of `run` that fit the contracts of the program. For shared outputs the driver
names the outputs as the contracts do. -/
def FitsRun (program : Program) (session : Session) (memory : Memory) (inputs : Arrays) :
    Option Arrays → Prop
  | none => FitsAll (FitsContract memory) program.inputs inputs
  | some outputs =>
    FitsAll (FitsShared session memory) program.inputs inputs ∧
      FitsAll (FitsShared session memory) program.outputs outputs ∧
        (session.ofType .output).map SessionArgument.name = program.outputNames

/-- The data of the array under the name of an input. -/
def namedData (memory : Memory) (inputs : Arrays) (contract : TensorContract) : List UInt8 :=
  ((inputs.lookup contract.name).map fun value => (value.asArray memory).data).getD []

/-- The mapping has one entry for each output, with the data of that output. -/
structure HoldsEveryOutput (program : Program) (written : List (List UInt8)) (values : Arrays)
    (memory : Memory) : Prop where
  length_keys : values.keys.length = program.outputs.length
  holds : List.Forall₂ (fun contract data => ∃ value, values.lookup contract.name = some value ∧
    (value.asArray memory).dtype = some contract.dtype ∧
      (value.asArray memory).shape = contract.shape ∧ (value.asArray memory).data = data)
    program.outputs written

/-- The run returns every output, computed from the inputs by their names. -/
def ReturnsEveryOutput (program : Program) (session : Session) (memory : Memory)
    (inputs : Arrays) (outputs : Option Arrays) (device : Device) : Prop :=
  ∃ values memory' written,
    program.run memory inputs (.ok session) device outputs = .ok (values, memory') ∧
      device (program.inputs.map (namedData memory inputs)) = .ok written ∧
        HoldsEveryOutput program written values memory'

/-- The names of the boundary differ : for a run on shared arrays also between inputs and
outputs, and the buffers of the outputs differ. -/
def KeepsApart (graph : Graph) : Option Arrays → Prop
  | none => (graph.inputs.map Tensor.name).Nodup ∧ graph.outputNames.Nodup
  | some outputs =>
    (graph.inputs.map Tensor.name ++ graph.outputNames.map some).Nodup ∧
      (graph.outputNames.map fun name => (outputs.lookup name).bind RunValue.allocation).Nodup

/-! ## Sizes and names -/

section Serves

variable {session : Session} {program : Program} {memory : Memory}

theorem length_data {argument : SessionArgument} {array : NdArray}
    (h : argument ∈ session.arguments) (hdtype : array.dtype = some argument.dtype)
    (hshape : array.shape = argument.shape) : array.data.length = argument.byteSize := by
  obtain ⟨size, hsize, hbytes, -⟩ := Session.exists_executionSize h
  rw [hbytes, ← hshape]
  exact array.length_eq _ hdtype _ hsize

/-- Different names in a mapping that has no other entry are as many as its entries. -/
theorem SameNames.length_keys {arrays : Arrays} {names : List String}
    (h : SameNames arrays names) (hnodup : names.Nodup) : arrays.keys.length = names.length := by
  rw [← List.toFinset_card_of_nodup arrays.keys_nodup, h, List.toFinset_card_of_nodup hnodup]

/-! ## Copied runs -/

/-- An input that fits its contract is copied with its name. -/
theorem copiedInput_eq {inputs : Arrays} {argument : SessionArgument}
    {contract : TensorContract} {value : RunValue} (hargument : argument ∈ session.arguments)
    (hdtype : argument.dtype = contract.dtype) (hshape : argument.shape = contract.shape)
    (hvalue : inputs.lookup contract.name = some value)
    (hfits : FitsContract memory contract value) :
    copiedInput memory inputs contract = .ok ⟨contract.name, namedData memory inputs contract⟩ := by
  obtain ⟨size, hsize, -, hpos⟩ := Session.exists_executionSize hargument
  have hlength := length_data hargument (hdtype ▸ hfits.1) (hfits.2.trans hshape.symm)
  have hdata : (value.asArray memory).data ≠ [] := List.ne_nil_of_length_pos (hlength ▸ hpos)
  rw [copiedInput, refuseIf_of_not _ (by simp [← hdtype, hsize]), hvalue]
  refine bind_eq_ok_iff.2 ⟨(), rfl, ?_⟩
  dsimp only
  rw [refuseIf_of_not _ (by simp [hfits.1, hfits.2]), refuseIf_of_not _ hdata, namedData, hvalue]
  rfl

/-- A copied input has the name of its contract. -/
theorem name_of_copiedInput {inputs : Arrays} {contract : TensorContract}
    {input : InferenceInput} (h : copiedInput memory inputs contract = .ok input) :
    input.name = contract.name := by
  rw [copiedInput, refuseIf_bind_eq_ok_iff] at h
  obtain ⟨-, h⟩ := h
  split at h
  case h_1 => exact absurd h (by simp)
  case h_2 value _ =>
    rw [refuseIf_bind_eq_ok_iff, refuseIf_bind_eq_ok_iff] at h
    obtain ⟨-, -, h⟩ := h
    rw [← Except.ok.inj h]

/-- The value that an output becomes. -/
theorem exists_copiedOutput {argument : SessionArgument} {contract : TensorContract}
    {data : List UInt8} (hargument : argument ∈ session.arguments)
    (hdtype : argument.dtype = contract.dtype) (hshape : argument.shape = contract.shape)
    (hlength : data.length = argument.byteSize) :
    ∃ value : RunValue, (∀ values, copiedOutput values (contract, argument, data) =
      .ok (values.insert contract.name value)) ∧
        ∀ memory, (value.asArray memory).dtype = some contract.dtype ∧
          (value.asArray memory).shape = contract.shape ∧ (value.asArray memory).data = data := by
  obtain ⟨size, hsize, hbytes, -⟩ := Session.exists_executionSize hargument
  rw [hdtype] at hsize
  rw [hshape] at hbytes
  refine ⟨.array ⟨some contract.dtype, contract.shape, data, ?_⟩, fun values => ?_,
    fun memory => ⟨rfl, rfl, rfl⟩⟩
  · rintro element ⟨⟩ size' hsize'
    obtain rfl := Option.some.inj (hsize.symm.trans hsize')
    exact hlength.trans hbytes
  · unfold copiedOutput
    dsimp only
    split
    case h_1 hnone => exact absurd (hsize.symm.trans hnone) (by simp)
    case h_2 size' hsize' =>
      obtain rfl := Option.some.inj (hsize.symm.trans hsize')
      rw [if_neg (by simp [hdtype, hshape]), dif_pos (hlength.trans hbytes)]

/-- An entry of the loop over the outputs. -/
abbrev OutputEntry := TensorContract × SessionArgument × List UInt8

/-- Outputs with different names are all put into the mapping. -/
theorem exists_copiedOutputs :
    ∀ {entries : List OutputEntry} (values : Arrays),
      (∀ entry ∈ entries, entry.2.1 ∈ session.arguments ∧ entry.2.1.dtype = entry.1.dtype ∧
        entry.2.1.shape = entry.1.shape ∧ entry.2.2.length = entry.2.1.byteSize) →
      (entries.map fun entry => entry.1.name).Nodup →
        ∃ values', entries.foldlM copiedOutput values = .ok values' ∧
          (∀ name, name ∈ values'.keys ↔
            name ∈ values.keys ∨ name ∈ entries.map fun entry => entry.1.name) ∧
          (∀ name ∉ entries.map fun entry => entry.1.name,
            values'.lookup name = values.lookup name) ∧
          ∀ entry ∈ entries, ∃ value, values'.lookup entry.1.name = some value ∧
            ∀ memory, (value.asArray memory).dtype = some entry.1.dtype ∧
              (value.asArray memory).shape = entry.1.shape ∧
                (value.asArray memory).data = entry.2.2
  | [], values, _, _ => ⟨values, rfl, by simp⟩
  | (contract, argument, data) :: entries, values, hentries, hnodup => by
    obtain ⟨⟨hargument, hdtype, hshape, hlength⟩, hentries⟩ := List.forall_mem_cons.1 hentries
    obtain ⟨hname, hnodup⟩ := List.nodup_cons.1 hnodup
    obtain ⟨value, hstep, hvalue⟩ := exists_copiedOutput hargument hdtype hshape hlength
    obtain ⟨values', hrun, hkeys, hother, hheld⟩ :=
      exists_copiedOutputs (values.insert contract.name value) hentries hnodup
    refine ⟨values', ?_, fun name => ?_, fun name hnot => ?_, List.forall_mem_cons.2 ⟨?_, hheld⟩⟩
    · rw [List.foldlM_cons]
      exact bind_eq_ok_iff.2 ⟨_, hstep values, hrun⟩
    · rw [hkeys, ← AList.mem_keys, AList.mem_insert, AList.mem_keys, List.map_cons, List.mem_cons]
      tauto
    · rw [List.map_cons, List.mem_cons, not_or] at hnot
      rw [hother name hnot.2, AList.lookup_insert_ne hnot.1]
    · exact ⟨value, by rw [hother _ hname, AList.lookup_insert], hvalue⟩

/-- The loop puts in no other names. -/
theorem mem_keys_of_copiedOutputs :
    ∀ {entries : List OutputEntry} {values values' : Arrays},
      entries.foldlM copiedOutput values = .ok values' → ∀ name ∈ values'.keys,
        name ∈ values.keys ∨ name ∈ entries.map fun entry => entry.1.name
  | [], values, values', h, name, hname => by
    obtain rfl := Except.ok.inj h
    exact .inl hname
  | entry :: entries, values, values', h, name, hname => by
    rw [List.foldlM_cons, bind_eq_ok_iff] at h
    obtain ⟨next, hstep, hrest⟩ := h
    obtain ⟨value, rfl⟩ : ∃ value, next = values.insert entry.1.name value := by
      unfold copiedOutput at hstep
      dsimp only at hstep
      split at hstep
      case h_1 => exact absurd hstep (by simp)
      case h_2 =>
        split_ifs at hstep
        exact ⟨_, (Except.ok.inj hstep).symm⟩
    rw [List.map_cons, List.mem_cons]
    rcases mem_keys_of_copiedOutputs hrest name hname with h | h
    · rw [← AList.mem_keys, AList.mem_insert, AList.mem_keys] at h
      tauto
    · exact .inr (.inr h)

/-- A device that fills the outputs with data of its own choice. -/
def constantDevice (session : Session) (byte : ℕ → UInt8) : Device :=
  fun _ => .ok ((session.ofType .output).mapIdx fun index argument =>
    List.replicate argument.byteSize (byte index))

theorem fills_constantDevice (byte : ℕ → UInt8) :
    (constantDevice session byte).Fills session :=
  fun _ => ⟨_, rfl, List.ext_getElem (by simp) (by simp)⟩

/-- The inputs that are copied fit the arguments. -/
theorem carries_namedData {inputs : Arrays} (hserves : session.Serves program)
    (hfits : ∀ contract ∈ program.inputs, ∃ value, inputs.lookup contract.name = some value ∧
      FitsContract memory contract value) :
    List.Forall₂ Session.Carries (session.ofType .input) (program.inputs.map fun contract =>
      ⟨contract.name, namedData memory inputs contract⟩) := by
  rw [List.forall₂_map_right_iff]
  refine List.forall₂_iff_get.2 ⟨hserves.inputs.length_eq, fun i hi hi' => ?_⟩
  obtain ⟨hname, hdtype, hshape⟩ := (List.forall₂_iff_get.1 hserves.inputs).2 i hi hi'
  obtain ⟨value, hvalue, hfit⟩ := hfits _ (List.get_mem program.inputs ⟨i, hi'⟩)
  refine ⟨hname.symm, (program.inputs.get ⟨i, hi'⟩).name_ne_empty, ?_⟩
  rw [namedData, hvalue]
  exact length_data (List.mem_of_mem_filter (List.get_mem _ ⟨i, hi⟩))
    (hfit.1.trans (congrArg some hdtype.symm)) (hfit.2.trans hshape.symm)

/-- The entries of the loop over the outputs fit, if the table does by position. -/
theorem fits_entries {written : List (List UInt8)}
    (hfits : List.Forall₂ (fun (argument : SessionArgument) contract =>
      argument.dtype = contract.dtype ∧ argument.shape = contract.shape)
      (session.ofType .output) program.outputs)
    (hsizes : written.map List.length = (session.ofType .output).map SessionArgument.byteSize) :
    ∀ entry ∈ program.outputs.zip ((session.ofType .output).zip written),
      entry.2.1 ∈ session.arguments ∧ entry.2.1.dtype = entry.1.dtype ∧
        entry.2.1.shape = entry.1.shape ∧ entry.2.2.length = entry.2.1.byteSize := by
  intro entry hentry
  obtain ⟨i, hi, rfl⟩ := List.getElem_of_mem hentry
  simp only [List.length_zip] at hi
  have hargument : i < (session.ofType .output).length := by omega
  have hdata : i < written.length := by omega
  obtain ⟨hdtype, hshape⟩ := (List.forall₂_iff_get.1 hfits).2 i hargument (by omega)
  have hsize : (written.map List.length)[i]? =
      ((session.ofType .output).map SessionArgument.byteSize)[i]? := by rw [hsizes]
  simp only [List.getElem?_map, List.getElem?_eq_getElem hdata,
    List.getElem?_eq_getElem hargument, Option.map_some, Option.some.injEq] at hsize
  simp only [List.getElem_zip]
  exact ⟨List.mem_of_mem_filter (List.getElem_mem hargument), hdtype, hshape, hsize⟩

theorem map_name_zip {contracts : List TensorContract}
    {inferred : List (SessionArgument × List UInt8)}
    (hlength : inferred.length = contracts.length) :
    ((contracts.zip inferred).map fun entry => entry.1.name) =
      contracts.map TensorContract.name := by
  rw [← Function.comp_def TensorContract.name Prod.fst, ← List.map_map,
    List.map_fst_zip hlength.ge]

/-- A run that copies and returns every output has distinct names. -/
theorem nodup_of_copied {inputs : Arrays} {device : Device}
    (hreturns : ReturnsEveryOutput program session memory inputs none device) :
    program.inputNames.Nodup ∧ program.outputNames.Nodup := by
  obtain ⟨values, memory', written, hrun, hdevice, hholds⟩ := hreturns
  rw [Program.run, refuseIf_bind_eq_ok_iff, bind_eq_ok_iff] at hrun
  obtain ⟨-, values', hcopied, heq⟩ := hrun
  obtain ⟨rfl, rfl⟩ := Prod.mk.inj (Except.ok.inj heq)
  obtain ⟨native, hnative, hcopied⟩ := bind_eq_ok_iff.1 hcopied
  obtain ⟨_, hsession, hcopied⟩ := bind_eq_ok_iff.1 hcopied
  obtain rfl := Except.ok.inj hsession
  obtain ⟨inferred, hinferred, hcopied⟩ := bind_eq_ok_iff.1 hcopied
  rw [refuseIf_bind_eq_ok_iff, not_not] at hcopied
  obtain ⟨hlength, hloop⟩ := hcopied
  constructor
  · obtain ⟨outputs, houtputs⟩ : ∃ outputs, session.inferCopied device native = .ok outputs := by
      cases hcase : session.inferCopied device native with
      | error error => simp [hcase, Except.mapError] at hinferred
      | ok outputs => exact ⟨outputs, rfl⟩
    have hnodup := Session.nodup_of_inferCopied houtputs
    rwa [map_eq_map_of_forall₂ (fun _ _ hcopied => name_of_copiedInput hcopied)
      (mapM_eq_ok_iff.1 hnative)] at hnodup
  · have hsubset : values'.keys ⊆ program.outputNames := by
      intro name hname
      rcases mem_keys_of_copiedOutputs hloop name hname with h | h
      · exact absurd h (by simp)
      · rwa [map_name_zip hlength] at h
    have hperm := (List.subperm_of_subset values'.keys_nodup hsubset).perm_of_length_le
      (by rw [hholds.length_keys, Program.outputNames, List.length_map])
    exact hperm.nodup_iff.1 values'.keys_nodup

/-- With distinct names a run that copies returns every output. -/
theorem returns_of_nodup {inputs : Arrays} {device : Device} (hserves : session.Serves program)
    (hfits : FitsAll (FitsContract memory) program.inputs inputs)
    (hinputs : program.inputNames.Nodup) (houtputs : program.outputNames.Nodup)
    (hfills : device.Fills session) :
    ReturnsEveryOutput program session memory inputs none device := by
  obtain ⟨written, hdevice, hsizes⟩ := hfills (program.inputs.map (namedData memory inputs))
  have hnative : program.inputs.mapM (copiedInput memory inputs) =
      .ok (program.inputs.map fun contract =>
        ⟨contract.name, namedData memory inputs contract⟩) := by
    refine mapM_eq_ok_iff.2 (List.forall₂_map_right_iff.2 (List.forall₂_same.2 ?_))
    intro contract hcontract
    obtain ⟨argument, hargument, -, hdtype, hshape⟩ :=
      exists_of_forall₂ hserves.inputs.flip hcontract
    obtain ⟨value, hvalue, hfit⟩ := hfits.2 contract hcontract
    exact copiedInput_eq (List.mem_of_mem_filter hargument) hdtype hshape hvalue hfit
  have hnodup : ((program.inputs.map fun contract =>
      (⟨contract.name, namedData memory inputs contract⟩ : InferenceInput)).map
        InferenceInput.name).Nodup := by
    rw [List.map_map]
    exact hinputs
  have hinferred := Session.inferCopied_eq (carries_namedData hserves hfits.2) hnodup
    (by simpa [Function.comp_def] using hdevice)
  have hwritten : written.length = (session.ofType .output).length := by
    simpa using congrArg List.length hsizes
  have houtputsLength := hserves.outputs.length_eq
  have hlength : ((session.ofType .output).zip written).length = program.outputs.length := by
    rw [List.length_zip, hwritten, Nat.min_self, houtputsLength]
  obtain ⟨values, hloop, hkeys, -, hheld⟩ := exists_copiedOutputs ∅
    (fits_entries hserves.outputs hsizes) (by rw [map_name_zip hlength]; exact houtputs)
  refine ⟨values, memory, written, ?_, hdevice, ?_, ?_⟩
  · have hsame : SameNames inputs program.inputNames := hfits.1
    rw [Program.run, refuseIf_of_not _ (not_not.2 hsame)]
    refine bind_eq_ok_iff.2 ⟨(), rfl, bind_eq_ok_iff.2 ⟨values, ?_, rfl⟩⟩
    refine bind_eq_ok_iff.2 ⟨_, hnative, bind_eq_ok_iff.2 ⟨session, rfl, ?_⟩⟩
    rw [hinferred]
    refine bind_eq_ok_iff.2 ⟨_, rfl, ?_⟩
    rw [refuseIf_of_not _ (not_not.2 hlength)]
    exact hloop
  · have hsame : SameNames values program.outputNames := by
      rw [SameNames]
      ext name
      rw [List.mem_toFinset, List.mem_toFinset, hkeys, map_name_zip hlength]
      simp [Program.outputNames]
    rw [hsame.length_keys houtputs, Program.outputNames, List.length_map]
  · refine List.forall₂_iff_get.2 ⟨by omega, fun i hi hi' => ?_⟩
    have hargument : i < (session.ofType .output).length := by omega
    have hentry : (program.outputs[i], (session.ofType .output)[i], written[i]) ∈
        program.outputs.zip ((session.ofType .output).zip written) :=
      List.mem_iff_getElem.2 ⟨i, by simp; omega, by simp⟩
    obtain ⟨value, hvalue, hheld⟩ := hheld _ hentry
    exact ⟨value, hvalue, hheld memory⟩

/-- A run that copies returns every output just when the names differ. -/
theorem copied_iff {inputs : Arrays} (hserves : session.Serves program)
    (hfits : FitsAll (FitsContract memory) program.inputs inputs) :
    (∀ device : Device, device.Fills session →
      ReturnsEveryOutput program session memory inputs none device) ↔
        program.inputNames.Nodup ∧ program.outputNames.Nodup := by
  constructor
  · exact fun hall => nodup_of_copied (hall _ (fills_constantDevice fun _ => 0))
  · rintro ⟨hinputs, houtputs⟩ device hfills
    exact returns_of_nodup hserves hfits hinputs houtputs hfills

/-! ## Shared runs -/

/-- The buffer of an array, as it is bound. -/
def boundBuffer (session : Session) (arrays : Arrays) (contract : TensorContract) :
    String × SharedBuffer :=
  (contract.name, ⟨session.id, ((arrays.lookup contract.name).bind RunValue.allocation).getD 0⟩)

theorem validateSharedArray_eq {arrays : Arrays} {contract : TensorContract} {value : RunValue}
    (hsize : contract.dtype.executionSize ≠ none)
    (hvalue : arrays.lookup contract.name = some value)
    (hfits : FitsShared session memory contract value) :
    validateSharedArray memory session arrays contract =
      .ok (boundBuffer session arrays contract) := by
  obtain ⟨array, rfl, howner, hdtype, hshape, hpositions⟩ := hfits
  rw [validateSharedArray, hvalue]
  dsimp only
  rw [refuseIf_of_not _ (by simp [howner, hshape, hsize, hdtype, hpositions]), boundBuffer, hvalue,
    howner]
  rfl

/-- An array over a whole buffer shows the content of the buffer. -/
theorem FitsShared.data_eq {contract : TensorContract} {value : RunValue} {allocation : ℕ}
    (hfits : FitsShared session memory contract value)
    (hallocation : value.allocation = some allocation)
    {memory' : Memory} (hlength : (memory' allocation).length = (memory allocation).length) :
    (value.asArray memory').data = memory' allocation := by
  obtain ⟨array, rfl, -, -, -, hpositions⟩ := hfits
  obtain rfl := Option.some.inj hallocation
  change array.positions.map (fun position => (memory' array.allocation).getD position 0) = _
  rw [hpositions]
  refine List.ext_getElem (by simp [hlength]) fun i _ hi => ?_
  simp [hi]

/-- The buffers of fitting arrays fit the arguments. -/
theorem binds_boundBuffer {type : ArgumentType} {contracts : List TensorContract} {arrays : Arrays}
    (hserves : List.Forall₂ FitsArgument (session.ofType type) contracts)
    (hfits : ∀ contract ∈ contracts, ∃ value, arrays.lookup contract.name = some value ∧
      FitsShared session memory contract value) :
    List.Forall₂ (Session.Binds session memory) (session.ofType type)
      (contracts.map (boundBuffer session arrays)) := by
  rw [List.forall₂_map_right_iff]
  refine List.forall₂_iff_get.2 ⟨hserves.length_eq, fun i hi hi' => ?_⟩
  obtain ⟨hname, hdtype, hshape⟩ := (List.forall₂_iff_get.1 hserves).2 i hi hi'
  obtain ⟨value, hvalue, hfit⟩ := hfits _ (List.get_mem contracts ⟨i, hi'⟩)
  refine ⟨hname.symm, (contracts.get ⟨i, hi'⟩).name_ne_empty, rfl, ?_⟩
  have hlength : _ → _ → (value.asArray memory).data.length = _ := length_data
    (List.mem_of_mem_filter (List.get_mem _ ⟨i, hi⟩))
  obtain ⟨array, rfl, howner, hdtype', hshape', hpositions⟩ := hfit
  rw [boundBuffer, hvalue]
  rw [← hlength (congrArg some (hdtype'.trans hdtype.symm)) (hshape'.trans hshape.symm)]
  change _ = (array.positions.map _).length
  rw [List.length_map, hpositions, List.length_range]
  rfl

/-- The names of all arguments are those of the program. -/
theorem map_name_arguments_perm (hserves : session.Serves program)
    (hnames : (session.ofType .output).map SessionArgument.name = program.outputNames) :
    (session.arguments.map SessionArgument.name).Perm
      (program.inputNames ++ program.outputNames) := by
  have hinputs : program.inputNames = (session.ofType .input).map SessionArgument.name :=
    map_eq_map_of_forall₂ (fun _ _ h => h.1.symm) hserves.inputs
  have houtputs : session.ofType .output =
      session.arguments.filter fun argument => !decide (argument.type = .input) := by
    refine List.filter_congr fun argument _ => ?_
    cases argument.type <;> rfl
  rw [hinputs, ← hnames, ← List.map_append, houtputs]
  exact (List.filter_append_perm _ session.arguments).symm.map _

/-- A validated array is bound by the name of its contract. -/
theorem fst_of_validateSharedArray {arrays : Arrays} {contract : TensorContract}
    {binding : String × SharedBuffer}
    (h : validateSharedArray memory session arrays contract = .ok binding) :
    binding.1 = contract.name := by
  rw [validateSharedArray] at h
  split at h
  case h_1 => exact absurd h (by simp)
  case h_2 => exact absurd h (by simp)
  case h_3 =>
    rw [refuseIf_bind_eq_ok_iff] at h
    rw [← Except.ok.inj h.2]

/-- A run on shared arrays needs different names. -/
theorem nodup_of_runShared {device : Device} {inputs outputs : Arrays} {memory' : Memory}
    (h : runShared memory inputs program (.ok session) device outputs = .ok memory') :
    (program.inputNames ++ program.outputNames).Nodup := by
  rw [runShared, refuseIf_bind_eq_ok_iff] at h
  obtain ⟨-, h⟩ := h
  obtain ⟨_, hsession, h⟩ := bind_eq_ok_iff.1 h
  obtain rfl := Except.ok.inj hsession
  obtain ⟨sharedInputs, hinputs, h⟩ := bind_eq_ok_iff.1 h
  obtain ⟨sharedOutputs, houtputs, h⟩ := bind_eq_ok_iff.1 h
  have hnames : ∀ {arrays : Arrays} {contracts : List TensorContract} {shared},
      contracts.mapM (validateSharedArray memory session arrays) = .ok shared →
        shared.map Prod.fst = contracts.map TensorContract.name := fun hshared =>
    map_eq_map_of_forall₂ (fun _ _ hvalid => fst_of_validateSharedArray hvalid)
      (mapM_eq_ok_iff.1 hshared)
  cases hinfer : session.infer device memory sharedInputs sharedOutputs with
  | error error => simp [hinfer, Except.mapError] at h
  | ok memory'' =>
    have hnodup := Session.nodup_of_infer hinfer
    rwa [List.map_append, hnames hinputs, hnames houtputs] at hnodup

/-- The buffer behind the array of an output. -/
def outputAllocation (outputs : Arrays) (name : String) : Option ℕ :=
  (outputs.lookup name).bind RunValue.allocation

theorem FitsShared.allocation {contract : TensorContract} {value : RunValue}
    (hfits : FitsShared session memory contract value) :
    ∃ allocation, value.allocation = some allocation := by
  obtain ⟨array, rfl, -⟩ := hfits
  exact ⟨array.allocation, rfl⟩

/-- Two outputs with different data are not in one buffer. -/
theorem outputAllocation_ne {inputs outputs : Arrays} {i j : ℕ}
    (hserves : session.Serves program)
    (hfits : FitsAll (FitsShared session memory) program.outputs outputs)
    (h : ReturnsEveryOutput program session memory inputs (some outputs)
      (constantDevice session fun index => if index = i then 1 else 0))
    (hi : i < program.outputs.length) (hj : j < program.outputs.length) (hne : i ≠ j) :
    outputAllocation outputs program.outputs[i].name ≠
      outputAllocation outputs program.outputs[j].name := by
  intro hsame
  obtain ⟨values, memory', written, hrun, hdevice, hholds⟩ := h
  obtain rfl := Except.ok.inj hdevice
  rw [Program.run, refuseIf_bind_eq_ok_iff, bind_eq_ok_iff] at hrun
  obtain ⟨-, memory'', -, heq⟩ := hrun
  obtain ⟨rfl, rfl⟩ := Prod.mk.inj (Except.ok.inj heq)
  have hlength := hserves.outputs.length_eq
  have hdata : ∀ k (hk : k < program.outputs.length), ∃ array : SharedArray,
      outputAllocation outputs program.outputs[k].name = some array.allocation ∧
        (List.range (memory array.allocation).length).map
          (fun position => (memory'' array.allocation).getD position 0) =
            List.replicate (session.ofType .output)[k].byteSize (if k = i then 1 else 0) := by
    intro k hk
    obtain ⟨value, hvalue, array, rfl, -, -, -, hpositions⟩ :=
      hfits.2 _ (List.getElem_mem hk)
    obtain ⟨value', hvalue', -, -, hdata⟩ :=
      (List.forall₂_iff_get.1 hholds.holds).2 k hk (by simp; omega)
    obtain rfl := Option.some.inj (hvalue.symm.trans hvalue')
    refine ⟨array, by rw [outputAllocation, hvalue]; rfl, ?_⟩
    rw [← hpositions]
    exact hdata.trans (by simp)
  obtain ⟨array, hallocation, hbytes⟩ := hdata i hi
  obtain ⟨array', hallocation', hbytes'⟩ := hdata j hj
  rw [hallocation, hallocation', Option.some.injEq] at hsame
  rw [hsame, hbytes', if_neg hne.symm, if_pos rfl] at hbytes
  have hpos := Session.byteSize_pos (List.mem_of_mem_filter
    (List.getElem_mem (l := session.ofType .output) (n := i) (by omega)))
  have hmem : (1 : UInt8) ∈ List.replicate (session.ofType .output)[i].byteSize 1 :=
    List.mem_replicate.2 ⟨hpos.ne', rfl⟩
  rw [← hbytes] at hmem
  exact absurd (List.eq_of_mem_replicate hmem) (by decide)

/-- Fitting arrays are validated. -/
theorem mapM_validateSharedArray_eq {type : ArgumentType} {contracts : List TensorContract}
    {arrays : Arrays}
    (harguments : List.Forall₂ FitsArgument (session.ofType type) contracts)
    (hfits : FitsAll (FitsShared session memory) contracts arrays) :
    contracts.mapM (validateSharedArray memory session arrays) =
      .ok (contracts.map (boundBuffer session arrays)) := by
  refine mapM_eq_ok_iff.2 (List.forall₂_map_right_iff.2 (List.forall₂_same.2 ?_))
  intro contract hcontract
  obtain ⟨argument, hargument, -, hdtype, -⟩ := exists_of_forall₂ harguments.flip hcontract
  obtain ⟨size, hsize, -⟩ := Session.exists_executionSize (List.mem_of_mem_filter hargument)
  obtain ⟨value, hvalue, hfit⟩ := hfits.2 contract hcontract
  exact validateSharedArray_eq (by rw [← hdtype, hsize]; simp) hvalue hfit

/-- The device reads the inputs by their names. -/
theorem map_memory_boundBuffer {contracts : List TensorContract} {inputs : Arrays}
    (hfits : FitsAll (FitsShared session memory) contracts inputs) :
    (contracts.map (boundBuffer session inputs)).map (fun binding => memory binding.2.allocation) =
      contracts.map (namedData memory inputs) := by
  rw [List.map_map]
  refine List.map_congr_left fun contract hcontract => ?_
  obtain ⟨value, hvalue, hfit⟩ := hfits.2 contract hcontract
  obtain ⟨allocation, hallocation⟩ := hfit.allocation
  rw [Function.comp_apply, boundBuffer, namedData, hvalue, Option.map_some, Option.getD_some,
    hfit.data_eq hallocation rfl, Option.bind_some, hallocation]
  rfl

/-- The memory after the outputs were written to the buffers of their arrays. -/
def memoryAfter (session : Session) (memory : Memory) (program : Program) (outputs : Arrays)
    (written : List (List UInt8)) : Memory :=
  Session.writeAll memory (((program.outputs.map (boundBuffer session outputs)).map
    fun binding => binding.2.allocation).zip written)

/-- Outputs in different buffers hold their data after the run. -/
theorem holds_memoryAfter {outputs : Arrays} {written : List (List UInt8)}
    (hlength : (session.ofType .output).length = program.outputs.length)
    (hfits : FitsAll (FitsShared session memory) program.outputs outputs)
    (hbuffers : (program.outputNames.map (outputAllocation outputs)).Nodup)
    (hbinds : List.Forall₂ (Session.Binds session memory) (session.ofType .output)
      (program.outputs.map (boundBuffer session outputs)))
    (hsizes : written.map List.length = (session.ofType .output).map SessionArgument.byteSize) :
    List.Forall₂ (fun contract data => ∃ value, outputs.lookup contract.name = some value ∧
      (value.asArray (memoryAfter session memory program outputs written)).dtype =
          some contract.dtype ∧
        (value.asArray (memoryAfter session memory program outputs written)).shape =
          contract.shape ∧
          (value.asArray (memoryAfter session memory program outputs written)).data = data)
      program.outputs written := by
  have hwritten : written.length = (session.ofType .output).length := by
    simpa using congrArg List.length hsizes
  have hallocations : program.outputNames.map (outputAllocation outputs) =
      ((program.outputs.map (boundBuffer session outputs)).map
        fun binding => binding.2.allocation).map some := by
    rw [Program.outputNames, List.map_map, List.map_map, List.map_map]
    refine List.map_congr_left fun contract hcontract => ?_
    obtain ⟨value, hvalue, hfit⟩ := hfits.2 contract hcontract
    obtain ⟨allocation, hallocation⟩ := hfit.allocation
    simp [outputAllocation, boundBuffer, hvalue, hallocation]
  rw [hallocations, List.nodup_map_iff (Option.some_injective _)] at hbuffers
  have hcount : ((program.outputs.map (boundBuffer session outputs)).map
      fun binding => binding.2.allocation).length = written.length := by
    simp [hwritten, hlength]
  have hheld := Session.forall₂_writeAll memory hbuffers hcount
  refine List.forall₂_iff_get.2 ⟨by omega, fun i hi hi' => ?_⟩
  obtain ⟨value, hvalue, hfit⟩ := hfits.2 _ (List.get_mem program.outputs ⟨i, hi⟩)
  obtain ⟨allocation, hallocation⟩ := hfit.allocation
  have hdata := (List.forall₂_iff_get.1 hheld).2 i (by simpa using hi) hi'
  have hbound := (List.forall₂_iff_get.1 hbinds).2 i (by omega) (by simpa using hi)
  have hsize : (written.map List.length)[i]? =
      ((session.ofType .output).map SessionArgument.byteSize)[i]? := by rw [hsizes]
  have hbuffer : (boundBuffer session outputs (program.outputs.get ⟨i, hi⟩)).2.allocation =
      allocation := by
    simp only [boundBuffer, hvalue, Option.bind_some, hallocation, Option.getD_some]
  simp only [List.get_eq_getElem, List.getElem_map] at hdata hbound hbuffer
  rw [hbuffer] at hdata
  have hsame : (memoryAfter session memory program outputs written allocation).length =
      (memory allocation).length := by
    have hbytes := hbound.2.2.2
    rw [hbuffer] at hbytes
    rw [memoryAfter, hdata, hbytes]
    simpa [hi', (by omega : i < (session.ofType .output).length)] using hsize
  refine ⟨value, hvalue, ?_⟩
  have hbytes := hfit.data_eq hallocation hsame
  obtain ⟨array, rfl, -, hdtype, hshape, -⟩ := hfit
  exact ⟨congrArg some hdtype, hshape, hbytes.trans hdata⟩

/-- A run on shared arrays returns every output just when all names and the buffers of the
outputs differ. -/
theorem shared_iff {inputs outputs : Arrays} (hserves : session.Serves program)
    (hinputs : FitsAll (FitsShared session memory) program.inputs inputs)
    (houtputs : FitsAll (FitsShared session memory) program.outputs outputs)
    (hnames : (session.ofType .output).map SessionArgument.name = program.outputNames) :
    (∀ device : Device, device.Fills session →
      ReturnsEveryOutput program session memory inputs (some outputs) device) ↔
        (program.inputNames ++ program.outputNames).Nodup ∧
          (program.outputNames.map (outputAllocation outputs)).Nodup := by
  have hlength := hserves.outputs.length_eq
  constructor
  · intro hall
    constructor
    · obtain ⟨values, memory', written, hrun, -, -⟩ := hall _ (fills_constantDevice fun _ => 0)
      rw [Program.run, refuseIf_bind_eq_ok_iff, bind_eq_ok_iff] at hrun
      obtain ⟨-, memory'', hshared, -⟩ := hrun
      exact nodup_of_runShared hshared
    · rw [List.nodup_iff_pairwise_ne, List.pairwise_iff_getElem]
      intro i j hi hj hlt
      simp only [Program.outputNames, List.length_map] at hi hj
      simp only [Program.outputNames, List.getElem_map]
      exact outputAllocation_ne hserves houtputs
        (hall _ (fills_constantDevice fun index => if index = i then 1 else 0)) hi hj hlt.ne
  · rintro ⟨hnodup, hbuffers⟩ device hfills
    obtain ⟨written, hdevice, hsizes⟩ := hfills (program.inputs.map (namedData memory inputs))
    have hwritten : written.length = (session.ofType .output).length := by
      simpa using congrArg List.length hsizes
    have houtputArguments : List.Forall₂ FitsArgument (session.ofType .output) program.outputs := by
      refine List.forall₂_iff_get.2 ⟨hlength, fun i hi hi' => ⟨?_,
        (List.forall₂_iff_get.1 hserves.outputs).2 i hi hi'⟩⟩
      have hname := congrArg (·[i]?) hnames
      simpa [Program.outputNames, hi, hi'] using hname
    have hbinds := binds_boundBuffer hserves.inputs hinputs.2
    have hbinds' := binds_boundBuffer houtputArguments houtputs.2
    have hinfer := Session.infer_eq ((map_name_arguments_perm hserves hnames).nodup_iff.2 hnodup)
      hbinds hbinds' (map_memory_boundBuffer hinputs ▸ hdevice)
    refine ⟨outputs, memoryAfter session memory program outputs written, written, ?_, hdevice, ?_,
      holds_memoryAfter hlength houtputs hbuffers hbinds' hsizes⟩
    · have hsame : SameNames inputs program.inputNames := hinputs.1
      have hsame' : SameNames outputs program.outputNames := houtputs.1
      have hshared : runShared memory inputs program (.ok session) device outputs =
          .ok (memoryAfter session memory program outputs written) := by
        rw [runShared, refuseIf_of_not _ (not_not.2 hsame')]
        refine bind_eq_ok_iff.2 ⟨(), rfl, bind_eq_ok_iff.2 ⟨session, rfl, ?_⟩⟩
        rw [mapM_validateSharedArray_eq hserves.inputs hinputs,
          mapM_validateSharedArray_eq houtputArguments houtputs]
        refine bind_eq_ok_iff.2 ⟨_, rfl, bind_eq_ok_iff.2 ⟨_, rfl, ?_⟩⟩
        rw [hinfer]
        rfl
      rw [Program.run, refuseIf_of_not _ (not_not.2 hsame)]
      exact bind_eq_ok_iff.2 ⟨(), rfl, bind_eq_ok_iff.2 ⟨_, hshared, rfl⟩⟩
    · have hsame : SameNames outputs program.outputNames := houtputs.1
      rw [hsame.length_keys (List.nodup_append.1 hnodup).2.1, Program.outputNames, List.length_map]

end Serves

/-! ## Programs of graphs -/

/-- For every program of a graph and all arguments that fit it : the run returns every
output just when the boundary is kept apart. -/
theorem run_returns_iff {graph : Graph} {graphBlob : List UInt8}
    {irProvenance : Option IrCompileResult} {patchReports : List (List UInt8)} {program : Program}
    {session : Session} {memory : Memory} {inputs : Arrays} {outputs : Option Arrays}
    (hprogram : Program.ofGraph graph graphBlob irProvenance patchReports = .ok program)
    (hserves : session.Serves program)
    (hfits : FitsRun program session memory inputs outputs) :
    (∀ device : Device, device.Fills session →
      ReturnsEveryOutput program session memory inputs outputs device) ↔
        KeepsApart graph outputs := by
  have hinputNames := Program.inputNames_ofGraph hprogram
  have houtputNames := Program.outputNames_ofGraph hprogram
  cases outputs with
  | none =>
    rw [copied_iff hserves hfits, KeepsApart, hinputNames, ← houtputNames,
      List.nodup_map_iff (Option.some_injective _)]
  | some arrays =>
    obtain ⟨hinputs, houtputs, hnames⟩ := hfits
    rw [shared_iff hserves hinputs houtputs hnames, KeepsApart, hinputNames, ← houtputNames,
      ← List.map_append, List.nodup_map_iff (Option.some_injective _)]
    rfl

/-! ## Two small programs -/

/-- An argument of `2,8` elements. -/
def exampleArgument (type : ArgumentType) (name : String) (h : Char.ofNat 0 ∉ name.toList) :
    SessionArgument :=
  ⟨type, name, .f16, [2, 8], h⟩

theorem nul_notMem_x : Char.ofNat 0 ∉ "x".toList := by decide

theorem nul_notMem_y : Char.ofNat 0 ∉ "y".toList := by decide

/-- The mapping with an array of zeros under `x`. -/
def exampleInputs : Arrays :=
  AList.singleton "x" (.array ⟨some .f16, [2, 8], List.replicate 32 0, by
    rintro _ ⟨⟩ _ ⟨⟩
    rfl⟩)

theorem x_ne_empty : "x" ≠ "" := by decide

theorem fits_exampleInputs {program : Program} {session : Session} {memory : Memory}
    (h : program.inputs = [⟨"x", ⟨[2, 8], .f16, exampleShape_positive⟩, x_ne_empty⟩]) :
    FitsRun program session memory exampleInputs none := by
  refine ⟨?_, fun contract hcontract => ?_⟩
  · rw [h]
    rfl
  · rw [h] at hcontract
    obtain rfl := List.mem_singleton.1 hcontract
    exact ⟨_, rfl, rfl, rfl⟩

/-! ### Two outputs -/

def rowProgram : Program :=
  (Program.ofGraph pairGraph [1] none []).toOption.get (by decide)

theorem nul_notMem_z : Char.ofNat 0 ∉ "z".toList := by decide

def rowSession : Session :=
  (Session.create 0 [exampleArgument .input "x" nul_notMem_x,
    exampleArgument .output "y" nul_notMem_y,
      exampleArgument .output "z" nul_notMem_z]).toOption.get (by decide)

/-- Buffers of 32 bytes. -/
def zeroBuffers : Memory :=
  fun _ => List.replicate 32 0

theorem length_zeroBuffer :
    ∀ size ∈ DType.f16.executionSize, (List.range 32).length = [2, 8].prod * size := by
  decide

/-- The array over a whole buffer of the session. -/
def wholeBuffer (allocation : ℕ) : RunValue :=
  .shared ⟨0, allocation, .f16, [2, 8], List.range 32, length_zeroBuffer⟩

def sharedInputs : Arrays :=
  AList.singleton "x" (wholeBuffer 0)

/-- The output `y` in buffer 1 and `z` in another one, or in the same. -/
def sharedOutputs (second : ℕ) : Arrays :=
  (AList.singleton "z" (wholeBuffer second)).insert "y" (wholeBuffer 1)

theorem fits_sharedOutputs (second : ℕ) :
    FitsRun rowProgram rowSession zeroBuffers sharedInputs (some (sharedOutputs second)) := by
  refine ⟨⟨rfl, fun contract hcontract => ?_⟩, ⟨rfl, fun contract hcontract => ?_⟩, by decide⟩
  · obtain rfl := List.mem_singleton.1 hcontract
    exact ⟨_, rfl, _, rfl, rfl, rfl, rfl, rfl⟩
  · rcases List.mem_pair.1 hcontract with rfl | rfl
    · exact ⟨_, rfl, _, rfl, rfl, rfl, rfl, rfl⟩
    · exact ⟨_, rfl, _, rfl, rfl, rfl, rfl, rfl⟩

/-- A run that copies returns both outputs, and so does a run on shared arrays unless they are
in one buffer. -/
theorem run_returns_iff_pairGraph :
    (∀ device : Device, device.Fills rowSession →
      ReturnsEveryOutput rowProgram rowSession zeroBuffers exampleInputs none device) ∧
    (∀ device : Device, device.Fills rowSession → ReturnsEveryOutput rowProgram rowSession
      zeroBuffers sharedInputs (some (sharedOutputs 2)) device) ∧
    ¬∀ device : Device, device.Fills rowSession → ReturnsEveryOutput rowProgram rowSession
      zeroBuffers sharedInputs (some (sharedOutputs 1)) device := by
  have hprogram : Program.ofGraph pairGraph [1] none [] = .ok rowProgram := rfl
  have hserves : rowSession.Serves rowProgram := ⟨by decide, by decide⟩
  refine ⟨?_, ?_, fun h => ?_⟩
  · exact (run_returns_iff hprogram hserves (fits_exampleInputs rfl)).2 ⟨by decide, by decide⟩
  · exact (run_returns_iff hprogram hserves (fits_sharedOutputs 2)).2 ⟨by decide, by decide⟩
  · have hapart := (run_returns_iff hprogram hserves (fits_sharedOutputs 1)).1 h
    exact absurd hapart.2 (by decide)

/-- The graph with the output `y` listed twice. -/
def twinGraph : Graph :=
  (Graph.init customGraph.heap 2 customGraph.inputs
    [customNode.firstOutput 1, customNode.firstOutput 1] "twin"
      (by decide) (by decide)).toOption.get (by decide)

def twinProgram : Program :=
  (Program.ofGraph twinGraph [1] none []).toOption.get (by decide)

def twinSession : Session :=
  (Session.create 0 [exampleArgument .input "x" nul_notMem_x,
    exampleArgument .output "y" nul_notMem_y,
      exampleArgument .output "y" nul_notMem_y]).toOption.get (by decide)

/-- A run of `twinGraph` returns one array for its two outputs. -/
theorem run_loses_output :
    Program.ofGraph twinGraph [1] none [] = .ok twinProgram ∧ twinSession.Serves twinProgram ∧
      FitsRun twinProgram twinSession (fun _ => []) exampleInputs none ∧
        (constantDevice twinSession fun index => .ofNat index).Fills twinSession ∧
          twinGraph.outputs.length = 2 ∧
            ((twinProgram.run (fun _ => []) exampleInputs (.ok twinSession)
              (constantDevice twinSession fun index => .ofNat index) none).toOption.map
                fun result => result.1.keys) = some ["y"] :=
  ⟨rfl, ⟨by decide, by decide⟩, fits_exampleInputs rfl, fills_constantDevice _, by decide,
    by decide +kernel⟩

end Npunlock
