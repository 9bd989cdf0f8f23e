import Npunlock.ProgramRun

/-!
# Copied and shared runs

`run` binds shared arrays by the names of the contracts. Copied inputs are bound by name too,
but copied outputs by their position in the argument table of the session.
`runs_agree_iff` : on a table with the names of the contracts both runs agree just when the
outputs of the table are in the order of the contracts, and on any other table both raise just
when neither the sizes by name nor the outputs by position fit.
-/

namespace Npunlock

/-- The size of a tensor in bytes. -/
def TensorContract.byteSize (contract : TensorContract) : Option ℕ :=
  contract.dtype.executionSize.map (contract.shape.prod * ·)

/-- An argument with the name and the size of a contract. -/
abbrev SizedArgument (argument : SessionArgument) (contract : TensorContract) : Prop :=
  argument.name = contract.name ∧ contract.byteSize = some argument.byteSize

/-- The arguments of a type are, in some order, those of the contracts. -/
def Session.Covers (session : Session) (fits : SessionArgument → TensorContract → Prop)
    (type : ArgumentType) (contracts : List TensorContract) : Prop :=
  ∃ order, order.Perm contracts ∧ List.Forall₂ fits (session.ofType type) order

/-- The table of a session has the names of the contracts, each once, with their shapes and
types. -/
structure NamedTable (session : Session) (program : Program) : Prop where
  names : (session.arguments.map SessionArgument.name).Nodup
  inputs : session.Covers FitsArgument .input program.inputs
  outputs : session.Covers FitsArgument .output program.outputs

/-- What a run on shared arrays checks of the table. -/
structure SharedFits (session : Session) (program : Program) : Prop where
  names : (session.arguments.map SessionArgument.name).Nodup
  inputs : session.Covers SizedArgument .input program.inputs
  outputs : session.Covers SizedArgument .output program.outputs

/-- What a run that copies checks of the table. -/
structure CopiedFits (session : Session) (program : Program) : Prop where
  names : ((session.ofType .input).map SessionArgument.name).Nodup
  inputs : session.Covers SizedArgument .input program.inputs
  outputs : List.Forall₂ (fun argument contract => argument.dtype = contract.dtype ∧
    argument.shape = contract.shape) (session.ofType .output) program.outputs

/-- The outputs of the table are in the order of the contracts. -/
def OutputsInOrder (session : Session) (program : Program) : Prop :=
  (session.ofType .output).map SessionArgument.name = program.outputNames

/-- The data of the array with the name of an argument. -/
def argumentData (memory : Memory) (inputs : Arrays) (argument : SessionArgument) : List UInt8 :=
  ((inputs.lookup argument.name).map fun value => (value.asArray memory).data).getD []

/-- Both runs give every input argument the array with its name, and return the contents of
every output argument under its name. -/
def RunsAgree (program : Program) (session : Session) : Prop :=
  ∀ (memory : Memory) (inputs outputs : Arrays) (device : Device),
    FitsAll (FitsShared session memory) program.inputs inputs →
    FitsAll (FitsShared session memory) program.outputs outputs →
    (program.outputNames.map (outputAllocation outputs)).Nodup → device.Fills session →
      ∃ written values memory',
        device ((session.ofType .input).map (argumentData memory inputs)) = .ok written ∧
        program.run memory inputs (.ok session) device none = .ok (values, memory) ∧
        program.run memory inputs (.ok session) device (some outputs) = .ok (outputs, memory') ∧
        List.Forall₂ (fun (argument : SessionArgument) data => ∃ value value',
          values.lookup argument.name = some value ∧ (value.asArray memory).data = data ∧
          outputs.lookup argument.name = some value' ∧ (value'.asArray memory').data = data)
          (session.ofType .output) written

/-- Neither run returns anything. -/
def BothRaise (program : Program) (session : Session) : Prop :=
  ∀ (memory : Memory) (inputs : Arrays) (device : Device) (outputs : Option Arrays),
    device.Fills session → ∀ result,
      program.run memory inputs (.ok session) device outputs ≠ .ok result

/-- Both runs agree where the table has the names of the contracts, and raise where not. -/
structure SharedAndCopiedAgree (program : Program) (session : Session) : Prop where
  agree : NamedTable session program → RunsAgree program session
  refuse : ¬NamedTable session program → BothRaise program session

/-! ## Validated arrays -/

section Arrays

variable {session : Session} {program : Program} {memory : Memory} {device : Device}
  {arrays : Arrays} {contract : TensorContract}

/-- A contract has an array that fits it. -/
def HasArray (fits : TensorContract → RunValue → Prop) (arrays : Arrays)
    (contract : TensorContract) : Prop :=
  ∃ value, arrays.lookup contract.name = some value ∧ fits contract value

theorem validateSharedArray_eq_ok_iff {binding : String × SharedBuffer} :
    validateSharedArray memory session arrays contract = .ok binding ↔
      contract.dtype.executionSize ≠ none ∧
        HasArray (FitsShared session memory) arrays contract ∧
          binding = boundBuffer session arrays contract := by
  constructor
  · intro h
    have heq := h
    rw [validateSharedArray] at h
    split at h
    case h_1 => cases h
    case h_2 => cases h
    case h_3 array hvalue =>
      rw [refuseIf_bind_eq_ok_iff] at h
      simp only [not_or, not_not] at h
      obtain ⟨⟨howner, hshape, hsize, hdtype, hpositions⟩, -⟩ := h
      have hfits : FitsShared session memory contract (.shared array) :=
        ⟨array, rfl, howner, hdtype, hshape, hpositions⟩
      rw [validateSharedArray_eq hsize hvalue hfits] at heq
      exact ⟨hsize, ⟨_, hvalue, hfits⟩, (Except.ok.inj heq).symm⟩
  · rintro ⟨hsize, ⟨value, hvalue, hfits⟩, rfl⟩
    exact validateSharedArray_eq hsize hvalue hfits

theorem mapM_validateSharedArray_eq_ok_iff {contracts : List TensorContract}
    {bindings : List (String × SharedBuffer)} :
    contracts.mapM (validateSharedArray memory session arrays) = .ok bindings ↔
      (∀ contract ∈ contracts, contract.dtype.executionSize ≠ none ∧
        HasArray (FitsShared session memory) arrays contract) ∧
          bindings = contracts.map (boundBuffer session arrays) := by
  rw [mapM_eq_ok_iff]
  constructor
  · intro h
    refine ⟨fun contract hcontract => ?_, ?_⟩
    · obtain ⟨binding, -, hbinding⟩ := exists_of_forall₂ h hcontract
      obtain ⟨hsize, hfits, -⟩ := validateSharedArray_eq_ok_iff.1 hbinding
      exact ⟨hsize, hfits⟩
    · have hmap := map_eq_map_of_forall₂ (f := boundBuffer session arrays) (g := id)
        (fun _ _ hbinding => (validateSharedArray_eq_ok_iff.1 hbinding).2.2) h
      rwa [List.map_id] at hmap
  · rintro ⟨hall, rfl⟩
    refine List.forall₂_map_right_iff.2 (List.forall₂_same.2 fun contract hcontract => ?_)
    obtain ⟨hsize, hfits⟩ := hall contract hcontract
    exact validateSharedArray_eq_ok_iff.2 ⟨hsize, hfits, rfl⟩

/-- The buffer of a validated array has the size of its contract. -/
theorem byteSize_boundBuffer (h : HasArray (FitsShared session memory) arrays contract)
    (hsize : contract.dtype.executionSize ≠ none) :
    contract.byteSize =
      some (memory (boundBuffer session arrays contract).2.allocation).length := by
  obtain ⟨value, hvalue, array, rfl, -, hdtype, hshape, hpositions⟩ := h
  obtain ⟨size, hsize⟩ := Option.ne_none_iff_exists'.1 hsize
  have hlength := array.length_eq size (by rw [hdtype, hsize]; rfl)
  rw [hpositions, List.length_range, hshape] at hlength
  rw [TensorContract.byteSize, hsize, boundBuffer, hvalue, Option.map_some, ← hlength]
  rfl

theorem binds_boundBuffer_iff {argument : SessionArgument}
    (h : HasArray (FitsShared session memory) arrays contract)
    (hsize : contract.dtype.executionSize ≠ none) :
    Session.Binds session memory argument (boundBuffer session arrays contract) ↔
      SizedArgument argument contract := by
  rw [Session.Binds, SizedArgument, byteSize_boundBuffer h hsize, Option.some.injEq]
  constructor
  · rintro ⟨hname, -, -, hlength⟩
    exact ⟨hname.symm, hlength⟩
  · rintro ⟨hname, hlength⟩
    exact ⟨hname.symm, contract.name_ne_empty, rfl, hlength⟩

/-- A copied input is the array of its contract. -/
theorem copiedInput_eq_ok_iff {input : InferenceInput} :
    copiedInput memory arrays contract = .ok input ↔
      contract.dtype.executionSize ≠ none ∧ HasArray (FitsContract memory) arrays contract ∧
        namedData memory arrays contract ≠ [] ∧
          input = ⟨contract.name, namedData memory arrays contract⟩ := by
  rw [copiedInput, refuseIf_bind_eq_ok_iff, HasArray, namedData]
  refine and_congr_right fun _ => ?_
  cases hvalue : arrays.lookup contract.name with
  | none => simp
  | some value =>
    dsimp only
    rw [refuseIf_bind_eq_ok_iff, refuseIf_bind_eq_ok_iff, not_or, not_not, not_not]
    constructor
    · rintro ⟨hfits, hdata, h⟩
      exact ⟨⟨value, rfl, hfits⟩, hdata, (Except.ok.inj h).symm⟩
    · rintro ⟨⟨_, hvalue, hfits⟩, hdata, rfl⟩
      obtain rfl := Option.some.inj hvalue
      exact ⟨hfits, hdata, rfl⟩

theorem mapM_copiedInput_eq_ok_iff {contracts : List TensorContract}
    {native : List InferenceInput} :
    contracts.mapM (copiedInput memory arrays) = .ok native ↔
      (∀ contract ∈ contracts, contract.dtype.executionSize ≠ none ∧
        HasArray (FitsContract memory) arrays contract ∧
          namedData memory arrays contract ≠ []) ∧
        native = contracts.map fun contract =>
          ⟨contract.name, namedData memory arrays contract⟩ := by
  rw [mapM_eq_ok_iff]
  constructor
  · intro h
    refine ⟨fun contract hcontract => ?_, ?_⟩
    · obtain ⟨input, -, hinput⟩ := exists_of_forall₂ h hcontract
      obtain ⟨hsize, hfits, hdata, -⟩ := copiedInput_eq_ok_iff.1 hinput
      exact ⟨hsize, hfits, hdata⟩
    · have hmap := map_eq_map_of_forall₂ (g := id)
        (f := fun contract => ⟨contract.name, namedData memory arrays contract⟩)
        (fun _ _ hinput => (copiedInput_eq_ok_iff.1 hinput).2.2.2) h
      rwa [List.map_id] at hmap
  · rintro ⟨hall, rfl⟩
    refine List.forall₂_map_right_iff.2 (List.forall₂_same.2 fun contract hcontract => ?_)
    obtain ⟨hsize, hfits, hdata⟩ := hall contract hcontract
    exact copiedInput_eq_ok_iff.2 ⟨hsize, hfits, hdata, rfl⟩

theorem length_namedData (h : HasArray (FitsContract memory) arrays contract)
    (hsize : contract.dtype.executionSize ≠ none) :
    contract.byteSize = some (namedData memory arrays contract).length := by
  obtain ⟨value, hvalue, hdtype, hshape⟩ := h
  obtain ⟨size, hsize⟩ := Option.ne_none_iff_exists'.1 hsize
  have hlength := (value.asArray memory).length_eq _ hdtype size hsize
  rw [hshape] at hlength
  rw [TensorContract.byteSize, hsize, namedData, hvalue, Option.map_some, ← hlength]
  rfl

theorem carries_namedData_iff {argument : SessionArgument}
    (h : HasArray (FitsContract memory) arrays contract)
    (hsize : contract.dtype.executionSize ≠ none) :
    Session.Carries argument ⟨contract.name, namedData memory arrays contract⟩ ↔
      SizedArgument argument contract := by
  rw [Session.Carries, SizedArgument, length_namedData h hsize, Option.some.injEq]
  constructor
  · rintro ⟨hname, -, hlength⟩
    exact ⟨hname.symm, hlength⟩
  · rintro ⟨hname, hlength⟩
    exact ⟨hname.symm, contract.name_ne_empty, hlength⟩

/-- An order of the images is that of an order of the elements. -/
theorem exists_perm_map {α β : Type} {f : α → β} {l : List α} {l' : List β}
    (h : l'.Perm (l.map f)) : ∃ order : List α, order.Perm l ∧ order.map f = l' := by
  have himages : List.Forall₂ (fun b a => b = f a) (l.map f) l :=
    List.forall₂_map_left_iff.2 (List.forall₂_same.2 fun _ _ => rfl)
  obtain ⟨order, horder, hperm⟩ := List.perm_comp_forall₂ h himages
  refine ⟨order, hperm, ?_⟩
  have hmap := map_eq_map_of_forall₂ (f := id) (g := f) (fun _ _ heq => heq.symm) horder
  rwa [List.map_id] at hmap

/-- Contracts in the order of the arguments, from what is bound to the arguments. -/
theorem covers_iff {type : ArgumentType} {contracts : List TensorContract} {β : Type}
    {bind : TensorContract → β} {fits : SessionArgument → β → Prop}
    (hfits : ∀ contract ∈ contracts, ∀ argument,
      fits argument (bind contract) ↔ SizedArgument argument contract) {order : List TensorContract}
    (hperm : order.Perm contracts) :
    List.Forall₂ fits (session.ofType type) (order.map bind) ↔
      List.Forall₂ SizedArgument (session.ofType type) order := by
  rw [List.forall₂_map_right_iff, List.forall₂_iff_get, List.forall₂_iff_get]
  refine and_congr_right fun _ => forall₂_congr fun i _ => forall_congr' fun hi => ?_
  exact hfits _ (hperm.mem_iff.1 (List.get_mem order ⟨i, hi⟩)) _

/-- The memory after a run on shared arrays, with the outputs in the order of the arguments. -/
def memoryAfterOrder (session : Session) (memory : Memory) (outputs : Arrays)
    (order : List TensorContract) (written : List (List UInt8)) : Memory :=
  Session.writeAll memory
    ((order.map fun contract => (boundBuffer session outputs contract).2.allocation).zip written)

/-- When a run on shared arrays succeeds, and what it writes. -/
theorem runShared_eq_ok_iff {inputs outputs : Arrays} {memory' : Memory} :
    runShared memory inputs program (.ok session) device outputs = .ok memory' ↔
      SameNames outputs program.outputNames ∧
      (∀ contract ∈ program.inputs, contract.dtype.executionSize ≠ none ∧
        HasArray (FitsShared session memory) inputs contract) ∧
      (∀ contract ∈ program.outputs, contract.dtype.executionSize ≠ none ∧
        HasArray (FitsShared session memory) outputs contract) ∧
      (session.arguments.map SessionArgument.name).Nodup ∧
      ∃ ins outs, ins.Perm program.inputs ∧ outs.Perm program.outputs ∧
        List.Forall₂ SizedArgument (session.ofType .input) ins ∧
        List.Forall₂ SizedArgument (session.ofType .output) outs ∧
        ∃ written, device (ins.map fun contract =>
            memory (boundBuffer session inputs contract).2.allocation) = .ok written ∧
          memoryAfterOrder session memory outputs outs written = memory' := by
  constructor
  · intro h
    rw [runShared, refuseIf_bind_eq_ok_iff, not_not] at h
    obtain ⟨hnames, h⟩ := h
    obtain ⟨_, ⟨⟩, h⟩ := bind_eq_ok_iff.1 h
    obtain ⟨_, hsharedInputs, h⟩ := bind_eq_ok_iff.1 h
    obtain ⟨_, hsharedOutputs, h⟩ := bind_eq_ok_iff.1 h
    obtain ⟨hinputs, rfl⟩ := mapM_validateSharedArray_eq_ok_iff.1 hsharedInputs
    obtain ⟨houtputs, rfl⟩ := mapM_validateSharedArray_eq_ok_iff.1 hsharedOutputs
    obtain ⟨harguments, _, _, hinsPerm, houtsPerm, hinsBinds, houtsBinds, written, hdevice, rfl⟩ :=
      Session.infer_eq_ok_iff.1 (mapError_eq_ok_iff.1 h)
    obtain ⟨ins, hins, rfl⟩ := exists_perm_map hinsPerm
    obtain ⟨outs, houts, rfl⟩ := exists_perm_map houtsPerm
    rw [List.map_map] at hdevice
    refine ⟨hnames, hinputs, houtputs, harguments, ins, outs, hins, houts, ?_, ?_, written,
      hdevice, ?_⟩
    · exact (covers_iff (fun contract hcontract _ =>
        binds_boundBuffer_iff (hinputs contract hcontract).2 (hinputs contract hcontract).1)
        hins).1 hinsBinds
    · exact (covers_iff (fun contract hcontract _ =>
        binds_boundBuffer_iff (houtputs contract hcontract).2 (houtputs contract hcontract).1)
        houts).1 houtsBinds
    · rw [List.map_map]
      rfl
  · rintro ⟨hnames, hinputs, houtputs, harguments, ins, outs, hins, houts, hinsFits, houtsFits,
      written, hdevice, rfl⟩
    have hinfer : session.infer device memory
        (program.inputs.map (boundBuffer session inputs))
        (program.outputs.map (boundBuffer session outputs)) =
          .ok (memoryAfterOrder session memory outputs outs written) := by
      refine Session.infer_eq_ok_iff.2 ⟨harguments, ins.map (boundBuffer session inputs),
        outs.map (boundBuffer session outputs), hins.map _, houts.map _, ?_, ?_, written, ?_, ?_⟩
      · exact (covers_iff (fun contract hcontract _ =>
          binds_boundBuffer_iff (hinputs contract hcontract).2 (hinputs contract hcontract).1)
          hins).2 hinsFits
      · exact (covers_iff (fun contract hcontract _ =>
          binds_boundBuffer_iff (houtputs contract hcontract).2 (houtputs contract hcontract).1)
          houts).2 houtsFits
      · rw [List.map_map]
        exact hdevice
      · rw [List.map_map]
        rfl
    rw [runShared, refuseIf_of_not _ (not_not.2 hnames)]
    refine bind_eq_ok_iff.2 ⟨(), rfl, bind_eq_ok_iff.2 ⟨session, rfl, ?_⟩⟩
    refine bind_eq_ok_iff.2 ⟨_, mapM_validateSharedArray_eq_ok_iff.2 ⟨hinputs, rfl⟩, ?_⟩
    refine bind_eq_ok_iff.2 ⟨_, mapM_validateSharedArray_eq_ok_iff.2 ⟨houtputs, rfl⟩, ?_⟩
    exact mapError_eq_ok_iff.2 hinfer

/-- When a run that copies succeeds, and what it returns. -/
theorem runCopied_eq_ok_iff {inputs values : Arrays} :
    runCopied memory inputs program (.ok session) device = .ok values ↔
      (∀ contract ∈ program.inputs, contract.dtype.executionSize ≠ none ∧
        HasArray (FitsContract memory) inputs contract ∧
          namedData memory inputs contract ≠ []) ∧
      ∃ ins, ins.Perm program.inputs ∧
        List.Forall₂ SizedArgument (session.ofType .input) ins ∧
        (ins.map TensorContract.name).Nodup ∧
        ∃ written, device (ins.map (namedData memory inputs)) = .ok written ∧
          ((session.ofType .output).zip written).length = program.outputs.length ∧
          (program.outputs.zip ((session.ofType .output).zip written)).foldlM copiedOutput ∅ =
            .ok values := by
  constructor
  · intro h
    obtain ⟨native, hnative, h⟩ := bind_eq_ok_iff.1 h
    obtain ⟨_, ⟨⟩, h⟩ := bind_eq_ok_iff.1 h
    obtain ⟨inferred, hinferred, h⟩ := bind_eq_ok_iff.1 h
    rw [refuseIf_bind_eq_ok_iff, not_not] at h
    obtain ⟨hinputs, rfl⟩ := mapM_copiedInput_eq_ok_iff.1 hnative
    obtain ⟨_, hinsPerm, hcarries, hnames, written, hdevice, rfl⟩ :=
      Session.inferCopied_eq_ok_iff.1 (mapError_eq_ok_iff.1 hinferred)
    obtain ⟨ins, hins, rfl⟩ := exists_perm_map hinsPerm
    rw [List.map_map] at hnames hdevice
    refine ⟨hinputs, ins, hins, ?_, hnames, written, hdevice, h.1, h.2⟩
    exact (covers_iff (fun contract hcontract _ =>
      carries_namedData_iff (hinputs contract hcontract).2.1 (hinputs contract hcontract).1)
      hins).1 hcarries
  · rintro ⟨hinputs, ins, hins, hfits, hnames, written, hdevice, hlength, hloop⟩
    refine bind_eq_ok_iff.2 ⟨_, mapM_copiedInput_eq_ok_iff.2 ⟨hinputs, rfl⟩, ?_⟩
    refine bind_eq_ok_iff.2 ⟨session, rfl, bind_eq_ok_iff.2 ⟨_, mapError_eq_ok_iff.2
      (Session.inferCopied_eq_ok_iff.2 ⟨_, hins.map _, ?_, ?_, written, ?_, rfl⟩), ?_⟩⟩
    · exact (covers_iff (fun contract hcontract _ =>
        carries_namedData_iff (hinputs contract hcontract).2.1 (hinputs contract hcontract).1)
        hins).2 hfits
    · rw [List.map_map]
      exact hnames
    · rw [List.map_map]
      exact hdevice
    · rw [refuseIf_of_not _ (not_not.2 hlength)]
      exact hloop

/-! ## What the runs check -/

theorem run_copied_eq_ok_iff {inputs : Arrays} {result : Arrays × Memory} :
    program.run memory inputs (.ok session) device none = .ok result ↔
      SameNames inputs program.inputNames ∧ ∃ values,
        runCopied memory inputs program (.ok session) device = .ok values ∧
          result = (values, memory) := by
  rw [Program.run, refuseIf_bind_eq_ok_iff, not_not, bind_eq_ok_iff]
  simp [eq_comm]

theorem run_shared_eq_ok_iff {inputs outputs : Arrays} {result : Arrays × Memory} :
    program.run memory inputs (.ok session) device (some outputs) = .ok result ↔
      SameNames inputs program.inputNames ∧ ∃ memory',
        runShared memory inputs program (.ok session) device outputs = .ok memory' ∧
          result = (outputs, memory') := by
  rw [Program.run, refuseIf_bind_eq_ok_iff, not_not, bind_eq_ok_iff]
  simp [eq_comm]

/-- A run on shared arrays that succeeds has found the sizes by name. -/
theorem sharedFits_of_run {inputs outputs : Arrays} {result : Arrays × Memory}
    (h : program.run memory inputs (.ok session) device (some outputs) = .ok result) :
    SharedFits session program := by
  obtain ⟨-, memory', hshared, -⟩ := run_shared_eq_ok_iff.1 h
  obtain ⟨-, -, -, hnames, ins, outs, hins, houts, hinsFits, houtsFits, -⟩ :=
    runShared_eq_ok_iff.1 hshared
  exact ⟨hnames, ⟨ins, hins, hinsFits⟩, outs, houts, houtsFits⟩

/-- The outputs that are put into the mapping fit their contracts. -/
theorem fits_of_copiedOutputs :
    ∀ {entries : List OutputEntry} {values values' : Arrays},
      entries.foldlM copiedOutput values = .ok values' → ∀ entry ∈ entries,
        entry.2.1.dtype = entry.1.dtype ∧ entry.2.1.shape = entry.1.shape
  | [], _, _, _ => by simp
  | entry :: entries, values, values', h => by
    obtain ⟨next, hstep, hrest⟩ := bind_eq_ok_iff.1 h
    refine List.forall_mem_cons.2 ⟨?_, fits_of_copiedOutputs hrest⟩
    unfold copiedOutput at hstep
    dsimp only at hstep
    split at hstep
    case h_1 => cases hstep
    case h_2 =>
      split_ifs at hstep with hfits
      simpa [not_or] using hfits

theorem Device.Fills.length_eq {written : List (List UInt8)} {given : List (List UInt8)}
    (hfills : device.Fills session) (h : device given = .ok written) :
    written.map List.length = (session.ofType .output).map SessionArgument.byteSize ∧
      written.length = (session.ofType .output).length := by
  obtain ⟨written', hwritten, hsizes⟩ := hfills given
  obtain rfl := Except.ok.inj (h.symm.trans hwritten)
  exact ⟨hsizes, by simpa using congrArg List.length hsizes⟩

/-- A run that copies and succeeds has found the inputs by name and the outputs by position. -/
theorem copiedFits_of_run {inputs : Arrays} {result : Arrays × Memory}
    (hfills : device.Fills session)
    (h : program.run memory inputs (.ok session) device none = .ok result) :
    CopiedFits session program := by
  obtain ⟨-, values, hcopied, -⟩ := run_copied_eq_ok_iff.1 h
  obtain ⟨-, ins, hins, hinsFits, hnames, written, hdevice, hlength, hloop⟩ :=
    runCopied_eq_ok_iff.1 hcopied
  have hwritten := (hfills.length_eq hdevice).2
  have hmap : ins.map TensorContract.name = (session.ofType .input).map SessionArgument.name :=
    map_eq_map_of_forall₂ (fun _ _ h => h.1.symm) hinsFits
  refine ⟨hmap ▸ hnames, ⟨ins, hins, hinsFits⟩, ?_⟩
  rw [List.length_zip, hwritten, Nat.min_self] at hlength
  refine List.forall₂_iff_get.2 ⟨hlength, fun i hi hi' => ?_⟩
  have hentry : (program.outputs[i], (session.ofType .output)[i], written[i]) ∈
      program.outputs.zip ((session.ofType .output).zip written) :=
    List.mem_iff_getElem.2 ⟨i, by simp; omega, by simp⟩
  exact fits_of_copiedOutputs hloop _ hentry

/-! ## Runs on zeros -/

/-- A memory with a buffer of zeros for each contract. -/
def zeroMemory (contracts : List TensorContract) : Memory := fun allocation =>
  match contracts[allocation]? with
  | some contract => List.replicate (contract.byteSize.getD 0) 0
  | none => []

/-- The array over the buffer of a contract. -/
def zeroArray (session : Session) (contracts : List TensorContract) (contract : TensorContract) :
    RunValue :=
  .shared {
    session := session.id
    allocation := contracts.idxOf contract
    dtype := contract.dtype
    shape := contract.shape
    positions := List.range (contract.byteSize.getD 0)
    length_eq := by
      intro size hsize
      rw [Option.mem_def] at hsize
      simp [TensorContract.byteSize, hsize] }

/-- The arrays of part of the contracts. -/
def zeroArrays (session : Session) (contracts part : List TensorContract)
    (h : (part.map TensorContract.name).Nodup) : Arrays where
  entries := part.map fun contract => ⟨contract.name, zeroArray session contracts contract⟩
  nodupKeys := by
    rw [List.NodupKeys, List.keys, List.map_map]
    exact h

theorem fits_zeroArrays (session : Session) {contracts part : List TensorContract}
    (hsub : part ⊆ contracts) (h : (part.map TensorContract.name).Nodup) :
    FitsAll (FitsShared session (zeroMemory contracts)) part
      (zeroArrays session contracts part h) := by
  refine ⟨?_, fun contract hcontract => ⟨zeroArray session contracts contract, ?_, ?_⟩⟩
  · rw [SameNames, AList.keys, List.keys, zeroArrays, List.map_map]
    rfl
  · refine AList.mem_lookup_iff.2 ?_
    exact List.mem_map_of_mem hcontract
  · refine ⟨_, rfl, rfl, rfl, rfl, ?_⟩
    rw [zeroMemory, List.getElem?_idxOf (hsub hcontract)]
    simp

theorem FitsShared.fitsContract {value : RunValue} (h : FitsShared session memory contract value) :
    FitsContract memory contract value := by
  obtain ⟨array, rfl, -, hdtype, hshape, -⟩ := h
  exact ⟨congrArg some hdtype, hshape⟩

/-! ## Runs that succeed -/

theorem FitsAll.perm {fits : TensorContract → RunValue → Prop}
    {contracts order : List TensorContract} (h : FitsAll fits contracts arrays)
    (hperm : order.Perm contracts) : FitsAll fits order arrays := by
  refine ⟨?_, fun contract hcontract => h.2 contract (hperm.mem_iff.1 hcontract)⟩
  rw [SameNames, List.toFinset_eq_of_perm _ _ (hperm.map _)]
  exact h.1

theorem SizedArgument.executionSize {argument : SessionArgument}
    (h : SizedArgument argument contract) : contract.dtype.executionSize ≠ none := by
  intro hnone
  have hsize := h.2
  rw [TensorContract.byteSize, hnone] at hsize
  cases hsize

theorem FitsArgument.sized {argument : SessionArgument} (hargument : argument ∈ session.arguments)
    (h : FitsArgument argument contract) : SizedArgument argument contract := by
  obtain ⟨hname, hdtype, hshape⟩ := h
  obtain ⟨size, hsize, hbytes, -⟩ := Session.exists_executionSize hargument
  refine ⟨hname, ?_⟩
  rw [TensorContract.byteSize, ← hdtype, hsize, hbytes, hshape]
  rfl

/-- Every contract of an order of the arguments has a size. -/
theorem executionSize_of_covers {type : ArgumentType} {contracts order : List TensorContract}
    (hperm : order.Perm contracts)
    (hfits : List.Forall₂ SizedArgument (session.ofType type) order) :
    ∀ contract ∈ contracts, contract.dtype.executionSize ≠ none := by
  intro contract hcontract
  obtain ⟨argument, -, hsized⟩ := exists_of_forall₂ hfits.flip (hperm.mem_iff.2 hcontract)
  exact SizedArgument.executionSize hsized

theorem map_argumentData {order : List TensorContract}
    (hfits : List.Forall₂ SizedArgument (session.ofType .input) order) :
    (session.ofType .input).map (argumentData memory arrays) =
      order.map (namedData memory arrays) := by
  refine (map_eq_map_of_forall₂ (fun argument contract h => ?_) hfits).symm
  rw [argumentData, namedData, h.1]

section Orders

variable {inputs outputs : Arrays} {ins outs : List TensorContract} {written : List (List UInt8)}

/-- A run on shared arrays that fit a table that fits. -/
theorem run_shared_eq (hnames : (session.arguments.map SessionArgument.name).Nodup)
    (hins : ins.Perm program.inputs) (houts : outs.Perm program.outputs)
    (hinsFits : List.Forall₂ SizedArgument (session.ofType .input) ins)
    (houtsFits : List.Forall₂ SizedArgument (session.ofType .output) outs)
    (hinputs : FitsAll (FitsShared session memory) program.inputs inputs)
    (houtputs : FitsAll (FitsShared session memory) program.outputs outputs)
    (hdevice : device (ins.map (namedData memory inputs)) = .ok written) :
    program.run memory inputs (.ok session) device (some outputs) =
      .ok (outputs, memoryAfterOrder session memory outputs outs written) := by
  have hread := map_memory_boundBuffer (hinputs.perm hins)
  rw [List.map_map] at hread
  refine run_shared_eq_ok_iff.2 ⟨hinputs.1, _, runShared_eq_ok_iff.2 ⟨houtputs.1, ?_, ?_, hnames,
    ins, outs, hins, houts, hinsFits, houtsFits, written, ?_, rfl⟩, rfl⟩
  · exact fun contract hcontract =>
      ⟨executionSize_of_covers hins hinsFits contract hcontract, hinputs.2 contract hcontract⟩
  · exact fun contract hcontract =>
      ⟨executionSize_of_covers houts houtsFits contract hcontract, houtputs.2 contract hcontract⟩
  · rw [← hdevice, ← hread]
    rfl

/-- A run that copies arrays that fit a table that fits. -/
theorem run_copied_eq (hins : ins.Perm program.inputs)
    (hinsFits : List.Forall₂ SizedArgument (session.ofType .input) ins)
    (hnames : ((session.ofType .input).map SessionArgument.name).Nodup)
    (hinputs : FitsAll (FitsContract memory) program.inputs inputs)
    (hdevice : device (ins.map (namedData memory inputs)) = .ok written)
    (hlength : ((session.ofType .output).zip written).length = program.outputs.length)
    {values : Arrays}
    (hloop : (program.outputs.zip ((session.ofType .output).zip written)).foldlM copiedOutput ∅ =
      .ok values) :
    program.run memory inputs (.ok session) device none = .ok (values, memory) := by
  have hmap : ins.map TensorContract.name = (session.ofType .input).map SessionArgument.name :=
    map_eq_map_of_forall₂ (fun _ _ h => h.1.symm) hinsFits
  refine run_copied_eq_ok_iff.2 ⟨hinputs.1, values, runCopied_eq_ok_iff.2 ⟨?_, ins, hins, hinsFits,
    hmap ▸ hnames, written, hdevice, hlength, hloop⟩, rfl⟩
  intro contract hcontract
  obtain ⟨argument, hargument, hsized⟩ :=
    exists_of_forall₂ hinsFits.flip (hins.mem_iff.2 hcontract)
  have hexecution := SizedArgument.executionSize hsized
  refine ⟨hexecution, hinputs.2 contract hcontract, ?_⟩
  have hsize := length_namedData (hinputs.2 contract hcontract) hexecution
  have hpos := Session.byteSize_pos (List.mem_of_mem_filter hargument)
  rw [hsized.2, Option.some.injEq] at hsize
  exact List.ne_nil_of_length_pos (hsize ▸ hpos)

/-- Outputs that fit are put into the mapping, also where names repeat. -/
theorem exists_foldlM_copiedOutput :
    ∀ {entries : List OutputEntry} (values : Arrays),
      (∀ entry ∈ entries, entry.2.1 ∈ session.arguments ∧ entry.2.1.dtype = entry.1.dtype ∧
        entry.2.1.shape = entry.1.shape ∧ entry.2.2.length = entry.2.1.byteSize) →
        ∃ values', entries.foldlM copiedOutput values = .ok values'
  | [], values, _ => ⟨values, rfl⟩
  | (contract, argument, data) :: entries, values, h => by
    obtain ⟨⟨hargument, hdtype, hshape, hlength⟩, h⟩ := List.forall_mem_cons.1 h
    obtain ⟨value, hstep, -⟩ := exists_copiedOutput hargument hdtype hshape hlength
    obtain ⟨values', hrest⟩ := exists_foldlM_copiedOutput (values.insert contract.name value) h
    exact ⟨values', bind_eq_ok_iff.2 ⟨_, hstep values, hrest⟩⟩

end Orders

/-! ## Tables that do not fit -/

/-- The names of all contracts differ, where they are those of the arguments. -/
theorem SharedFits.nodup_names (h : SharedFits session program) :
    (program.inputs.map TensorContract.name ++ program.outputs.map TensorContract.name).Nodup := by
  obtain ⟨ins, hins, hinsFits⟩ := h.inputs
  obtain ⟨outs, houts, houtsFits⟩ := h.outputs
  have hkeys : ins.map TensorContract.name = (session.ofType .input).map SessionArgument.name :=
    map_eq_map_of_forall₂ (fun _ _ h => h.1.symm) hinsFits
  have hkeys' : outs.map TensorContract.name = (session.ofType .output).map SessionArgument.name :=
    map_eq_map_of_forall₂ (fun _ _ h => h.1.symm) houtsFits
  refine ((hins.map _).append (houts.map _)).nodup_iff.1 ?_
  rw [hkeys, hkeys', ← List.map_append]
  exact (Session.ofType_append_perm.map _).nodup_iff.2 h.names

/-- Where the sizes fit by name, a run on shared arrays succeeds. -/
theorem exists_run_shared (h : SharedFits session program) (hfills : device.Fills session) :
    ∃ memory inputs outputs result,
      program.run memory inputs (.ok session) device (some outputs) = .ok result := by
  have hnodup := h.nodup_names
  obtain ⟨ins, hins, hinsFits⟩ := h.inputs
  obtain ⟨outs, houts, houtsFits⟩ := h.outputs
  have hinputs := fits_zeroArrays session
    (List.subset_append_left program.inputs program.outputs) (List.nodup_append.1 hnodup).1
  have houtputs := fits_zeroArrays session
    (List.subset_append_right program.inputs program.outputs) (List.nodup_append.1 hnodup).2.1
  obtain ⟨written, hdevice, -⟩ := hfills (ins.map (namedData _ (zeroArrays session
    (program.inputs ++ program.outputs) program.inputs (List.nodup_append.1 hnodup).1)))
  exact ⟨_, _, _, _, run_shared_eq h.names hins houts hinsFits houtsFits hinputs houtputs hdevice⟩

/-- Where the inputs fit by name and the outputs by position, a run that copies succeeds. -/
theorem exists_run_copied (h : CopiedFits session program) (hfills : device.Fills session) :
    ∃ memory inputs result,
      program.run memory inputs (.ok session) device none = .ok result := by
  obtain ⟨ins, hins, hinsFits⟩ := h.inputs
  have hkeys : ins.map TensorContract.name = (session.ofType .input).map SessionArgument.name :=
    map_eq_map_of_forall₂ (fun _ _ h => h.1.symm) hinsFits
  have hnodup : (program.inputs.map TensorContract.name).Nodup :=
    (hins.map _).nodup_iff.1 (hkeys ▸ h.names)
  have hinputs := fits_zeroArrays session (List.Subset.refl program.inputs) hnodup
  have hcontract : FitsAll (FitsContract (zeroMemory program.inputs)) program.inputs
      (zeroArrays session program.inputs program.inputs hnodup) :=
    ⟨hinputs.1, fun contract hcontract =>
      (hinputs.2 contract hcontract).imp fun _ h => ⟨h.1, h.2.fitsContract⟩⟩
  obtain ⟨written, hdevice, hsizes⟩ := hfills (ins.map (namedData (zeroMemory program.inputs)
    (zeroArrays session program.inputs program.inputs hnodup)))
  have hwritten := (hfills.length_eq hdevice).2
  have hlength : ((session.ofType .output).zip written).length = program.outputs.length := by
    rw [List.length_zip, hwritten, Nat.min_self, h.outputs.length_eq]
  obtain ⟨values, hloop⟩ := exists_foldlM_copiedOutput ∅ (fits_entries h.outputs hsizes)
  exact ⟨_, _, _, run_copied_eq hins hinsFits h.names hcontract hdevice hlength hloop⟩

/-- Both runs raise just when neither check passes. -/
theorem bothRaise_iff :
    BothRaise program session ↔ ¬SharedFits session program ∧ ¬CopiedFits session program := by
  have hfills : (constantDevice session fun _ => 0).Fills session := fills_constantDevice _
  constructor
  · intro h
    refine ⟨fun hshared => ?_, fun hcopied => ?_⟩
    · obtain ⟨memory, inputs, outputs, result, hrun⟩ := exists_run_shared hshared hfills
      exact h _ _ _ _ hfills _ hrun
    · obtain ⟨memory, inputs, result, hrun⟩ := exists_run_copied hcopied hfills
      exact h _ _ _ _ hfills _ hrun
  · rintro ⟨hshared, hcopied⟩ memory inputs device outputs hfills result hrun
    cases outputs with
    | none => exact hcopied (copiedFits_of_run hfills hrun)
    | some outputs => exact hshared (sharedFits_of_run hrun)

/-! ## Tables with the names of the contracts -/

theorem forall₂_sized {type : ArgumentType} {order : List TensorContract}
    (h : List.Forall₂ FitsArgument (session.ofType type) order) :
    List.Forall₂ SizedArgument (session.ofType type) order :=
  List.forall₂_iff_get.2 ⟨h.length_eq, fun i hi hi' => FitsArgument.sized
    (List.mem_of_mem_filter (List.get_mem _ ⟨i, hi⟩)) ((List.forall₂_iff_get.1 h).2 i hi hi')⟩

theorem NamedTable.sharedFits (h : NamedTable session program) : SharedFits session program := by
  obtain ⟨ins, hins, hinsFits⟩ := h.inputs
  obtain ⟨outs, houts, houtsFits⟩ := h.outputs
  exact ⟨h.names, ⟨ins, hins, forall₂_sized hinsFits⟩, outs, houts, forall₂_sized houtsFits⟩

/-- In the order of the contracts the outputs of the table are the contracts. -/
theorem NamedTable.outputs_in_order (h : NamedTable session program)
    (horder : OutputsInOrder session program) :
    List.Forall₂ FitsArgument (session.ofType .output) program.outputs := by
  obtain ⟨outs, houts, houtsFits⟩ := h.outputs
  have hkeys : outs.map TensorContract.name = (session.ofType .output).map SessionArgument.name :=
    map_eq_map_of_forall₂ (fun _ _ h => h.1.symm) houtsFits
  have heq : outs = program.outputs := by
    refine eq_of_perm_of_map_eq houts (hkeys.trans horder) ?_
    rw [hkeys]
    exact h.names.sublist (List.filter_sublist.map _)
  rwa [← heq]

/-- What a run that copies returns is in the order of the contracts. -/
theorem lookup_of_copiedOutputs {values : Arrays} {written : List (List UInt8)}
    (hnodup : (program.outputs.map TensorContract.name).Nodup)
    (hfits : List.Forall₂ (fun (argument : SessionArgument) contract =>
      argument.dtype = contract.dtype ∧ argument.shape = contract.shape)
      (session.ofType .output) program.outputs)
    (hsizes : written.map List.length = (session.ofType .output).map SessionArgument.byteSize)
    (hloop : (program.outputs.zip ((session.ofType .output).zip written)).foldlM copiedOutput ∅ =
      .ok values) (i : ℕ) (hi : i < program.outputs.length) (hi' : i < written.length) :
    ∃ value, values.lookup program.outputs[i].name = some value ∧
      ∀ memory, (value.asArray memory).data = written[i] := by
  have hwritten : written.length = (session.ofType .output).length := by
    simpa using congrArg List.length hsizes
  have hlength := hfits.length_eq
  have hzip : ((program.outputs.zip ((session.ofType .output).zip written)).map fun entry =>
      entry.1.name) = program.outputs.map TensorContract.name := by
    rw [← Function.comp_def TensorContract.name Prod.fst, ← List.map_map,
      List.map_fst_zip (by rw [List.length_zip]; omega)]
  obtain ⟨values', hloop', -, -, hheld⟩ := exists_copiedOutputs ∅ (fits_entries hfits hsizes)
    (by rw [hzip]; exact hnodup)
  obtain rfl := Except.ok.inj (hloop.symm.trans hloop')
  have hentry : (program.outputs[i], (session.ofType .output)[i], written[i]) ∈
      program.outputs.zip ((session.ofType .output).zip written) :=
    List.mem_iff_getElem.2 ⟨i, by simp; omega, by simp⟩
  obtain ⟨value, hvalue, hheld⟩ := hheld _ hentry
  exact ⟨value, hvalue, fun memory => (hheld memory).2.2⟩

/-- In the order of the contracts both runs agree. -/
theorem runsAgree_of_order (h : NamedTable session program)
    (horder : OutputsInOrder session program) : RunsAgree program session := by
  intro memory inputs outputs device hinputs houtputs hbuffers hfills
  have hshared := h.sharedFits
  have hnodup := (List.nodup_append.1 hshared.nodup_names).2.1
  have houtsFits := h.outputs_in_order horder
  obtain ⟨ins, hins, hinsFits⟩ := hshared.inputs
  obtain ⟨written, hdevice, hsizes⟩ := hfills (ins.map (namedData memory inputs))
  have hwritten := (hfills.length_eq hdevice).2
  have hcontract : FitsAll (FitsContract memory) program.inputs inputs :=
    ⟨hinputs.1, fun contract hcontract =>
      (hinputs.2 contract hcontract).imp fun _ h => ⟨h.1, h.2.fitsContract⟩⟩
  have hlength : ((session.ofType .output).zip written).length = program.outputs.length := by
    rw [List.length_zip, hwritten, Nat.min_self, houtsFits.length_eq]
  have hpositions := houtsFits.imp fun _ _ h => h.2
  obtain ⟨values, hloop⟩ := exists_foldlM_copiedOutput ∅ (fits_entries hpositions hsizes)
  have hnames : ((session.ofType .input).map SessionArgument.name).Nodup :=
    h.names.sublist (List.filter_sublist.map _)
  refine ⟨written, values, memoryAfterOrder session memory outputs program.outputs written,
    (map_argumentData hinsFits).symm ▸ hdevice,
    run_copied_eq hins hinsFits hnames hcontract hdevice hlength hloop,
    run_shared_eq h.names hins (.refl _) hinsFits (forall₂_sized houtsFits) hinputs houtputs
      hdevice, ?_⟩
  have hbinds : List.Forall₂ (Session.Binds session memory) (session.ofType .output)
      (program.outputs.map (boundBuffer session outputs)) :=
    binds_boundBuffer houtsFits houtputs.2
  have hafter := holds_memoryAfter houtsFits.length_eq houtputs hbuffers hbinds hsizes
  refine List.forall₂_iff_get.2 ⟨hwritten.symm, fun i hi hi' => ?_⟩
  have hcontracts : i < program.outputs.length := by
    have := houtsFits.length_eq
    omega
  obtain ⟨hname, -⟩ := (List.forall₂_iff_get.1 houtsFits).2 i hi hcontracts
  obtain ⟨value, hvalue, hdata⟩ :=
    lookup_of_copiedOutputs hnodup hpositions hsizes hloop i hcontracts hi'
  obtain ⟨value', hvalue', -, -, hdata'⟩ := (List.forall₂_iff_get.1 hafter).2 i hcontracts hi'
  rw [List.get_eq_getElem, List.get_eq_getElem] at hname
  rw [memoryAfter, List.map_map] at hdata'
  refine ⟨value, value', ?_, hdata memory, ?_, hdata'⟩
  · rw [List.get_eq_getElem, hname]
    exact hvalue
  · rw [List.get_eq_getElem, hname]
    exact hvalue'

/-- The buffers of the arrays of zeros differ. -/
theorem nodup_outputAllocation {contracts part : List TensorContract} (hsub : part ⊆ contracts)
    (h : (part.map TensorContract.name).Nodup) :
    ((part.map TensorContract.name).map
      (outputAllocation (zeroArrays session contracts part h))).Nodup := by
  rw [List.map_map]
  refine (h.of_map _).map_on fun first hfirst second hsecond heq => ?_
  have hlookup : ∀ contract ∈ part, outputAllocation (zeroArrays session contracts part h)
      contract.name = some (contracts.idxOf contract) := by
    intro contract hcontract
    have hvalue : (zeroArrays session contracts part h).lookup contract.name =
        some (zeroArray session contracts contract) :=
      AList.mem_lookup_iff.2 (List.mem_map_of_mem hcontract)
    rw [outputAllocation, hvalue]
    rfl
  rw [Function.comp_apply, Function.comp_apply, hlookup first hfirst, hlookup second hsecond,
    Option.some.injEq] at heq
  exact (List.idxOf_inj (hsub hfirst)).1 heq

/-- If both runs agree, the outputs are in the order of the contracts. -/
theorem order_of_runsAgree (h : NamedTable session program) (hagree : RunsAgree program session) :
    OutputsInOrder session program := by
  have hshared := h.sharedFits
  have hnodup := List.nodup_append.1 hshared.nodup_names
  have hsubset := List.subset_append_left program.inputs program.outputs
  have hsubset' := List.subset_append_right program.inputs program.outputs
  have hfills : (constantDevice session fun index => UInt8.ofNat index).Fills session :=
    fills_constantDevice _
  obtain ⟨written, values, memory', hdevice, hrun, -, hheld⟩ := hagree _ _ _ _
    (fits_zeroArrays session hsubset hnodup.1) (fits_zeroArrays session hsubset' hnodup.2.1)
    (nodup_outputAllocation hsubset' hnodup.2.1) hfills
  obtain ⟨hsizes, hwritten⟩ := hfills.length_eq hdevice
  have hpositions := (copiedFits_of_run hfills hrun).outputs
  have hlength := hpositions.length_eq
  obtain ⟨-, _, hcopied, hresult⟩ := run_copied_eq_ok_iff.1 hrun
  obtain ⟨rfl, -⟩ := Prod.mk.inj hresult
  obtain ⟨-, ins, -, -, -, written', hdevice', -, hloop⟩ := runCopied_eq_ok_iff.1 hcopied
  obtain rfl : written = written' := Except.ok.inj (hdevice.symm.trans hdevice')
  have hbytes := Except.ok.inj hdevice
  obtain ⟨outs, houts, houtsFits⟩ := h.outputs
  refine List.ext_getElem (by simpa [Program.outputNames] using hlength) fun i hi hi' => ?_
  simp only [Program.outputNames, List.length_map] at hi hi'
  simp only [Program.outputNames, List.getElem_map]
  obtain ⟨argument, hargument, hname, -⟩ :=
    exists_of_forall₂ houtsFits.flip (houts.mem_iff.2 (List.getElem_mem hi'))
  obtain ⟨j, hj, rfl⟩ := List.getElem_of_mem hargument
  obtain ⟨value, hvalue, hdata⟩ :=
    lookup_of_copiedOutputs hnodup.2.1 hpositions hsizes hloop i hi' (by omega)
  obtain ⟨value', -, hvalue', hdata', -⟩ := (List.forall₂_iff_get.1 hheld).2 j hj (by omega)
  rw [List.get_eq_getElem, hname, hvalue, Option.some.injEq] at hvalue'
  subst hvalue'
  have hsame := (hdata _).symm.trans hdata'
  subst hbytes
  have hpos := Session.byteSize_pos (List.mem_of_mem_filter (List.getElem_mem hi))
  have hle := session.length_ofType_le .output
  rw [List.get_eq_getElem, List.getElem_mapIdx, List.getElem_mapIdx] at hsame
  have hmem : UInt8.ofNat i ∈ List.replicate (session.ofType .output)[j].byteSize (UInt8.ofNat j) :=
    hsame ▸ List.mem_replicate.2 ⟨hpos.ne', rfl⟩
  have hindex : i = j := by
    have heq := congrArg UInt8.toNat (List.eq_of_mem_replicate hmem)
    rw [UInt8.toNat_ofNat', UInt8.toNat_ofNat'] at heq
    omega
  subst hindex
  exact hname

/-- On a table with the names of the contracts both runs agree just when its outputs are in the
order of the contracts. On any other table both raise just when neither check passes. -/
theorem runs_agree_iff (program : Program) (session : Session) :
    SharedAndCopiedAgree program session ↔
      NamedTable session program ∧ OutputsInOrder session program ∨
        ¬NamedTable session program ∧ ¬SharedFits session program ∧
          ¬CopiedFits session program := by
  constructor
  · rintro ⟨hagree, hrefuse⟩
    by_cases htable : NamedTable session program
    · exact .inl ⟨htable, order_of_runsAgree htable (hagree htable)⟩
    · exact .inr ⟨htable, bothRaise_iff.1 (hrefuse htable)⟩
  · rintro (⟨htable, horder⟩ | ⟨htable, hfits⟩)
    · exact ⟨fun _ => runsAgree_of_order htable horder, fun hnot => absurd htable hnot⟩
    · exact ⟨fun h => absurd h htable, fun _ => bothRaise_iff.2 hfits⟩

end Arrays

/-! ## Outputs in another order -/

/-- A contract of `2,8` elements. -/
def exampleContract (name : String) (h : name ≠ "") : TensorContract :=
  ⟨name, ⟨[2, 8], .f16, exampleShape_positive⟩, h⟩

/-- A program with the outputs `y` and `z`. -/
def pairProgram : Program where
  graphBlob := [1]
  inputs := [exampleContract "x" (by decide)]
  outputs := [exampleContract "y" (by decide), exampleContract "z" (by decide)]
  irProvenance := none
  patchReports := []
  artifactManifest := none

/-- A session whose driver reports `z` before `y`. -/
def swappedSession : Session :=
  (Session.create 0 [exampleArgument .input "x" nul_notMem_x,
    exampleArgument .output "z" nul_notMem_z,
      exampleArgument .output "y" nul_notMem_y]).toOption.get (by decide)

theorem namedTable_swapped : NamedTable swappedSession pairProgram where
  names := by decide
  inputs := ⟨pairProgram.inputs, .refl _, by decide⟩
  outputs := ⟨pairProgram.outputs.reverse, List.reverse_perm _, by decide⟩

/-- A run that copies returns the contents of `z` under `y`. -/
theorem outputs_swapped :
    NamedTable swappedSession pairProgram ∧ ¬RunsAgree pairProgram swappedSession ∧
      ¬SharedAndCopiedAgree pairProgram swappedSession ∧
        ((pairProgram.run (fun _ => []) exampleInputs (.ok swappedSession)
          (constantDevice swappedSession fun index => .ofNat index) none).toOption.bind
            fun result => (result.1.lookup "y").map fun value =>
              (value.asArray fun _ => []).data.head?) = some (some 0) := by
  have hagree : ¬RunsAgree pairProgram swappedSession := fun hagree =>
    absurd (order_of_runsAgree namedTable_swapped hagree) (by unfold OutputsInOrder; decide)
  exact ⟨namedTable_swapped, hagree, fun h => hagree (h.agree namedTable_swapped),
    by decide +kernel⟩

end Npunlock
