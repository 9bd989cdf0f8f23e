import Mathlib.Algebra.BigOperators.Group.List.Basic
import Npunlock.WorkerProtocol

/-!
# The Movi worker protocol

The stage request that `movi_stage_win32.c` builds and `movi_worker.c` parses with a
cursor, and the response that the worker sends and the parent parses.

The cursor is modelled by the bytes behind its offset, so `cursor_read` is `readExactly`.
`parseRequest_eq_some_iff` says exactly which byte strings the worker accepts : the
messages of the requests within its limits. Pointers and allocations are not modelled.
-/

namespace Npunlock

/-! ## Constants of the protocol -/

def moviRequestMagic : UInt32 := 0x4b57504e

def moviResponseMagic : UInt32 := 0x5257504e

def moviProtocolVersion : UInt32 := 1

def moviRequestHeaderSize : ℕ := 32

def moviResponseHeaderSize : ℕ := 32

def moviMaxMessageSize : ℕ := 64 * 1024 * 1024

def moviMaxResultSize : ℕ := 32 * 1024 * 1024

/-- `npunlock_movi_stage`. -/
inductive MoviStage
  | compile
  | assemble
  | link
  deriving DecidableEq

def MoviStage.code : MoviStage → UInt32
  | .compile => 1
  | .assemble => 2
  | .link => 3

/-- The cast of a code between `NPUNLOCK_MOVI_STAGE_COMPILE` and `NPUNLOCK_MOVI_STAGE_LINK`. -/
def MoviStage.ofCode (code : UInt32) : Option MoviStage :=
  if code = 1 then some .compile
  else if code = 2 then some .assemble
  else if code = 3 then some .link
  else none

/-- `npunlock_movi_worker_status`, in the order of its codes. -/
inductive MoviWorkerStatus
  | ok
  | badRequest
  | outOfMemory
  | loadFailed
  | symbolMissing
  | badResult
  | internalError
  deriving DecidableEq

def MoviWorkerStatus.code : MoviWorkerStatus → UInt32
  | .ok => 0
  | .badRequest => 1
  | .outOfMemory => 2
  | .loadFailed => 3
  | .symbolMissing => 4
  | .badResult => 5
  | .internalError => 6

/-! ## Requests -/

/-- The arguments of `build_request`, and the worker's `worker_request`. -/
structure MoviRequest where
  stage : MoviStage
  dllPath : List UInt8
  arguments : List (List UInt8)
  inputs : List (List UInt8)
  deriving DecidableEq

/-- `add_request_size` with a length field of `lead` bytes. -/
def addRequestSize (total lead payload : ℕ) : Option ℕ := do
  let next ← checkedAddSize total lead
  let total ← checkedAddSize next payload
  if moviMaxMessageSize < total then none else some total

/-- The check of the arguments in `build_request`, with the size that it sums up. -/
def addArguments : List (List UInt8) → ℕ → Except NpunlockStatus ℕ
  | [], total => .ok total
  | argument :: arguments, total => do
    refuseIf (argument.length = 0 ∨ uint32Max < argument.length ∨ 0 ∈ argument) .invalidArgument
    match addRequestSize total 4 argument.length with
    | none => .error .invalidArgument
    | some total => addArguments arguments total

/-- The check of the inputs in `build_request`. -/
def addInputs : List (List UInt8) → ℕ → Except NpunlockStatus ℕ
  | [], total => .ok total
  | input :: inputs, total =>
    match addRequestSize total 8 input.length with
    | none => .error .invalidArgument
    | some total => addInputs inputs total

/-- An argument in a message. -/
def encodeArgument (argument : List UInt8) : List UInt8 :=
  workerStoreU32 (UInt32.ofNat argument.length) ++ argument

/-- An input in a message. -/
def encodeInput (input : List UInt8) : List UInt8 :=
  workerStoreU64 (UInt64.ofNat input.length) ++ input

/-- The parent's `build_request`. -/
def Movi.buildRequest (request : MoviRequest) : Except NpunlockStatus (List UInt8) := do
  let { stage, dllPath, arguments, inputs } := request
  refuseIf (dllPath.length = 0 ∨ uint32Max < dllPath.length ∨ 0 ∈ dllPath ∨
    arguments.length = 0 ∨ uint32Max < arguments.length ∨ inputs.length = 0 ∨
    uint32Max < inputs.length) .invalidArgument
  match addRequestSize moviRequestHeaderSize 0 dllPath.length with
  | none => .error .overflow
  | some total =>
    let total ← addArguments arguments total
    let _ ← addInputs inputs total
    .ok (storeFields moviRequestHeaderSize
      [(0, workerStoreU32 moviRequestMagic),
        (4, workerStoreU32 moviProtocolVersion),
        (8, workerStoreU32 stage.code),
        (12, workerStoreU32 (UInt32.ofNat arguments.length)),
        (16, workerStoreU32 (UInt32.ofNat inputs.length)),
        (20, workerStoreU32 (UInt32.ofNat dllPath.length))] ++
      dllPath ++ arguments.flatMap encodeArgument ++ inputs.flatMap encodeInput)

/-- `cursor_u32`. -/
def cursorU32 (unread : List UInt8) : Option (UInt32 × List UInt8) := do
  let (data, unread) ← readExactly 4 unread
  some (workerLoadU32 data 0, unread)

/-- `cursor_u64`. -/
def cursorU64 (unread : List UInt8) : Option (UInt64 × List UInt8) := do
  let (data, unread) ← readExactly 8 unread
  some (workerLoadU64 data 0, unread)

/-- One turn of the loop over the arguments in `parse_request`. -/
def readArgument (unread : List UInt8) : Option (List UInt8 × List UInt8) := do
  let (length, unread) ← cursorU32 unread
  if length = 0 ∨ 65535 < length then none
  else
    let (bytes, unread) ← readExactly length.toNat unread
    if 0 ∈ bytes then none else some (bytes, unread)

/-- One turn of the loop over the inputs in `parse_request`. -/
def readInput (unread : List UInt8) : Option (List UInt8 × List UInt8) := do
  let (length, unread) ← cursorU64 unread
  let (bytes, unread) ← readExactly length.toNat unread
  if length.toNat = sizeMax then none else some (bytes, unread)

/-- The worker's `parse_request`. -/
def Movi.parseRequest (data : List UInt8) : Option MoviRequest := do
  let (header, unread) ← readExactly moviRequestHeaderSize data
  if workerLoadU32 header 0 ≠ moviRequestMagic ∨
      workerLoadU32 header 4 ≠ moviProtocolVersion ∨ workerLoadU32 header 24 ≠ 0 ∨
      workerLoadU32 header 28 ≠ 0 then none
  else
    let argumentCount := (workerLoadU32 header 12).toNat
    let inputCount := (workerLoadU32 header 16).toNat
    let dllPathSize := (workerLoadU32 header 20).toNat
    let stage ← MoviStage.ofCode (workerLoadU32 header 8)
    if argumentCount = 0 ∨ 128 < argumentCount ∨ inputCount = 0 ∨ 8 < inputCount ∨
        dllPathSize = 0 ∨ 32767 < dllPathSize then none
    else
      let (dllPath, unread) ← readExactly dllPathSize unread
      if 0 ∈ dllPath then none
      else
        let (arguments, unread) ← readTimes readArgument argumentCount unread
        let (inputs, unread) ← readTimes readInput inputCount unread
        if unread.length ≠ 0 ∨ inputCount ≠ (if stage = .link then 2 else 1) then none
        else some ⟨stage, dllPath, arguments, inputs⟩

/-! ## Fields behind the cursor -/

theorem cursorU32_decodes : Decodes cursorU32 workerStoreU32 fun _ => True := by
  intro input value rest
  simp only [cursorU32, Option.bind_eq_bind, Option.bind_eq_some_iff, Prod.exists,
    Option.some.injEq, Prod.mk.injEq, true_and]
  constructor
  · rintro ⟨data, unread, hread, rfl, rfl⟩
    obtain ⟨hlength, rfl⟩ := (readExactly_decodes 4 _ _ _).1 hread
    rw [workerStoreU32_load (by omega), List.drop_zero, ← hlength, List.take_length]
  · rintro rfl
    refine ⟨workerStoreU32 value, rest, ?_, ?_, rfl⟩
    · exact (readExactly_decodes 4).read_encode (length_workerStoreU32 value) rest
    · exact workerLoadU32_store value

theorem cursorU64_decodes : Decodes cursorU64 workerStoreU64 fun _ => True := by
  intro input value rest
  simp only [cursorU64, Option.bind_eq_bind, Option.bind_eq_some_iff, Prod.exists,
    Option.some.injEq, Prod.mk.injEq, true_and]
  constructor
  · rintro ⟨data, unread, hread, rfl, rfl⟩
    obtain ⟨hlength, rfl⟩ := (readExactly_decodes 8 _ _ _).1 hread
    rw [workerStoreU64_load (by omega), List.drop_zero, ← hlength, List.take_length]
  · rintro rfl
    refine ⟨workerStoreU64 value, rest, ?_, ?_, rfl⟩
    · exact (readExactly_decodes 8).read_encode (length_workerStoreU64 value) rest
    · simpa using workerLoadU64_front value []

/-- The arguments that the worker accepts. -/
def ArgumentOk (argument : List UInt8) : Prop :=
  argument.length ≠ 0 ∧ argument.length ≤ 65535 ∧ 0 ∉ argument

instance : DecidablePred ArgumentOk := fun _ => inferInstanceAs (Decidable (_ ∧ _ ∧ _))

theorem readArgument_decodes : Decodes readArgument encodeArgument ArgumentOk := by
  -- The length field is the key : it is a function of the argument behind it.
  have hnext : ∀ length : UInt32, True → Decodes (fun unread =>
      if length = 0 ∨ 65535 < length then none
      else readExactly length.toNat unread >>= fun p =>
        if 0 ∈ p.1 then none else some (p.1, p.2)) (fun argument => argument)
      fun argument : List UInt8 =>
        UInt32.ofNat argument.length = length ∧ ArgumentOk argument := by
    intro length _ input argument rest
    simp only [Option.ite_none_left_eq_some, Option.bind_eq_bind, Option.bind_eq_some_iff,
      Prod.exists, Option.some.injEq, Prod.mk.injEq, not_or, UInt32.not_lt]
    constructor
    · rintro ⟨⟨hne, hle⟩, bytes, unread, hread, hzero, rfl, rfl⟩
      obtain ⟨hlength, rfl⟩ := (readExactly_decodes _ _ _ _).1 hread
      have hle : length.toNat ≤ 65535 := hle
      have hne : length.toNat ≠ 0 := fun h => hne (UInt32.toNat_inj.1 h)
      exact ⟨⟨by rw [hlength, UInt32.ofNat_toNat], by omega, by omega, hzero⟩, rfl⟩
    · rintro ⟨⟨rfl, hne, hle, hzero⟩, rfl⟩
      have hsize : (UInt32.ofNat argument.length).toNat = argument.length :=
        toNat_ofNat_size32 (hle.trans (by decide))
      refine ⟨⟨fun h => hne ?_, ?_⟩, argument, rest, ?_, hzero, rfl, rfl⟩
      · rw [← hsize, h]
        rfl
      · show (UInt32.ofNat argument.length).toNat ≤ 65535
        omega
      · exact (readExactly_decodes _).read_encode hsize.symm rest
  exact (cursorU32_decodes.bind
    (fun argument : List UInt8 => UInt32.ofNat argument.length) hnext).congr
    (fun _ => iff_of_eq (true_and _)) fun _ _ => rfl

/-- The inputs that the worker accepts. -/
def InputOk (input : List UInt8) : Prop :=
  input.length < sizeMax

instance : DecidablePred InputOk := fun _ => inferInstanceAs (Decidable (_ < _))

theorem readInput_decodes : Decodes readInput encodeInput InputOk := by
  have hnext : ∀ length : UInt64, True → Decodes (fun unread =>
      readExactly length.toNat unread >>= fun p =>
        if length.toNat = sizeMax then none else some (p.1, p.2)) (fun input => input)
      fun input : List UInt8 => UInt64.ofNat input.length = length ∧ InputOk input := by
    intro length _ data input rest
    simp only [Option.ite_none_left_eq_some, Option.bind_eq_bind, Option.bind_eq_some_iff,
      Prod.exists, Option.some.injEq, Prod.mk.injEq]
    constructor
    · rintro ⟨bytes, unread, hread, hmax, rfl, rfl⟩
      obtain ⟨hlength, rfl⟩ := (readExactly_decodes _ _ _ _).1 hread
      have hlt : length.toNat < 2 ^ 64 := length.toNat_lt
      refine ⟨⟨by rw [hlength, UInt64.ofNat_toNat], ?_⟩, rfl⟩
      unfold InputOk sizeMax at *
      omega
    · rintro ⟨⟨rfl, hlt⟩, rfl⟩
      have hsize : (UInt64.ofNat input.length).toNat = input.length :=
        toNat_ofNat_size (le_of_lt hlt)
      refine ⟨input, rest, ?_, ?_, rfl, rfl⟩
      · exact (readExactly_decodes _).read_encode hsize.symm rest
      · rw [hsize]
        exact ne_of_lt hlt
  exact (cursorU64_decodes.bind (fun input : List UInt8 => UInt64.ofNat input.length) hnext).congr
    (fun _ => iff_of_eq (true_and _)) fun _ _ => rfl

/-! ## Messages -/

/-- The header of a request, field by field. -/
def Movi.requestHeader (request : MoviRequest) : List UInt8 :=
  workerStoreU32 moviRequestMagic ++ (workerStoreU32 moviProtocolVersion ++
    (workerStoreU32 request.stage.code ++
      (workerStoreU32 (UInt32.ofNat request.arguments.length) ++
        (workerStoreU32 (UInt32.ofNat request.inputs.length) ++
          (workerStoreU32 (UInt32.ofNat request.dllPath.length) ++
            (workerStoreU32 0 ++ workerStoreU32 0))))))

/-- The message of a request. -/
def Movi.requestMessage (request : MoviRequest) : List UInt8 :=
  Movi.requestHeader request ++ (request.dllPath ++
    (request.arguments.flatMap encodeArgument ++ request.inputs.flatMap encodeInput))

theorem Movi.length_requestHeader (request : MoviRequest) :
    (Movi.requestHeader request).length = moviRequestHeaderSize := by
  simp [Movi.requestHeader, moviRequestHeaderSize]

/-- The limits that the worker states. -/
structure MoviRequest.WithinWorkerLimits (request : MoviRequest) : Prop where
  arguments_ne : request.arguments.length ≠ 0
  arguments_le : request.arguments.length ≤ 128
  path_ne : request.dllPath.length ≠ 0
  path_le : request.dllPath.length ≤ 32767
  path_zero : 0 ∉ request.dllPath
  arguments_ok : ∀ argument ∈ request.arguments, ArgumentOk argument
  inputs_ok : ∀ input ∈ request.inputs, InputOk input
  inputs_length : request.inputs.length = if request.stage = .link then 2 else 1

theorem MoviStage.ofCode_eq_some_iff {code : UInt32} {stage : MoviStage} :
    MoviStage.ofCode code = some stage ↔ code = stage.code := by
  unfold MoviStage.ofCode
  constructor
  · intro h
    split_ifs at h with h1 h2 h3
    · obtain rfl := Option.some.inj h
      exact h1
    · obtain rfl := Option.some.inj h
      exact h2
    · obtain rfl := Option.some.inj h
      exact h3
  · rintro rfl
    cases stage <;> rfl

/-- A request header as its eight fields. -/
theorem moviHeader_eq {header : List UInt8} (h : header.length = 32) :
    header = workerStoreU32 (workerLoadU32 header 0) ++ (workerStoreU32 (workerLoadU32 header 4) ++
      (workerStoreU32 (workerLoadU32 header 8) ++ (workerStoreU32 (workerLoadU32 header 12) ++
        (workerStoreU32 (workerLoadU32 header 16) ++ (workerStoreU32 (workerLoadU32 header 20) ++
          (workerStoreU32 (workerLoadU32 header 24) ++
            workerStoreU32 (workerLoadU32 header 28))))))) := by
  have hend : header.drop 32 = [] := List.drop_eq_nil_of_le (by omega)
  have field : ∀ o, o + 4 ≤ 32 →
      header.drop o = workerStoreU32 (workerLoadU32 header o) ++ header.drop (o + 4) :=
    fun o ho => drop_eq_workerStoreU32 (by omega)
  calc header = header.drop 0 := List.drop_zero.symm
    _ = _ := by
      rw [field 0 (by omega), field 4 (by omega), field 8 (by omega), field 12 (by omega),
        field 16 (by omega), field 20 (by omega), field 24 (by omega), field 28 (by omega), hend,
        List.append_nil]

/-- The worker's parser accepts the messages of the requests within its limits, and
nothing else. -/
theorem Movi.parseRequest_eq_some_iff {data : List UInt8} {request : MoviRequest} :
    Movi.parseRequest data = some request ↔
      request.WithinWorkerLimits ∧ data = Movi.requestMessage request := by
  constructor
  · intro h
    simp only [Movi.parseRequest, Option.bind_eq_bind, Option.bind_eq_some_iff, Prod.exists,
      Option.ite_none_left_eq_some, not_or, not_not, not_lt, Option.some.injEq] at h
    obtain ⟨header, payload, hheader, ⟨hmagic, hversion, hzero24, hzero28⟩, stage, hstage,
      ⟨hargs, hargs', hinputs, hinputs', hpath, hpath'⟩, dllPath, counted, hdll, hnul, arguments,
      tail, harguments, inputs, unread, hreadInputs, ⟨hend, hlink⟩, rfl⟩ := h
    obtain ⟨hlength, rfl⟩ := (readExactly_decodes _ _ _ _).1 hheader
    obtain ⟨hdllLength, rfl⟩ := (readExactly_decodes _ _ _ _).1 hdll
    obtain ⟨⟨hargumentsLength, hargumentsOk⟩, rfl⟩ :=
      (readArgument_decodes.times _ _ _ _).1 harguments
    obtain ⟨⟨hinputsLength, hinputsOk⟩, rfl⟩ := (readInput_decodes.times _ _ _ _).1 hreadInputs
    obtain rfl := List.length_eq_zero_iff.1 hend
    refine ⟨⟨?_, ?_, ?_, ?_, hnul, hargumentsOk, hinputsOk, ?_⟩, ?_⟩
    · rw [hargumentsLength]
      exact hargs
    · rw [hargumentsLength]
      exact hargs'
    · rw [hdllLength]
      exact hpath
    · rw [hdllLength]
      exact hpath'
    · rw [hinputsLength]
      exact hlink
    · rw [MoviStage.ofCode_eq_some_iff] at hstage
      conv_lhs => rw [moviHeader_eq hlength]
      simp only [Movi.requestMessage, Movi.requestHeader, hmagic, hversion, hzero24, hzero28,
        hstage, hargumentsLength, hinputsLength, hdllLength, UInt32.ofNat_toNat,
        List.append_assoc, List.append_nil]
  · rintro ⟨h, rfl⟩
    have hinputs := h.inputs_length
    have hpathLe := h.path_le
    have hargumentsLe := h.arguments_le
    have hinputsLe : request.inputs.length ≠ 0 ∧ request.inputs.length ≤ 8 := by
      rw [hinputs]
      split_ifs <;> decide
    have hlarge : 32767 ≤ uint32Max := by decide
    have hargumentCount : (UInt32.ofNat request.arguments.length).toNat =
        request.arguments.length := toNat_ofNat_size32 (by omega)
    have hinputCount : (UInt32.ofNat request.inputs.length).toNat = request.inputs.length :=
      toNat_ofNat_size32 (by omega)
    have hpathSize : (UInt32.ofNat request.dllPath.length).toNat = request.dllPath.length :=
      toNat_ofNat_size32 (by omega)
    have hheader := (readExactly_decodes _).read_encode
      (Movi.length_requestHeader request) (request.dllPath ++
        (request.arguments.flatMap encodeArgument ++ request.inputs.flatMap encodeInput))
    have hpath := (readExactly_decodes _).read_encode (rfl : request.dllPath.length = _)
      (request.arguments.flatMap encodeArgument ++ request.inputs.flatMap encodeInput)
    have harguments := (readArgument_decodes.times request.arguments.length).read_encode
      ⟨rfl, h.arguments_ok⟩ (request.inputs.flatMap encodeInput)
    have hreadInputs := (readInput_decodes.times request.inputs.length).read_encode
      ⟨rfl, h.inputs_ok⟩ []
    rw [List.append_nil] at hreadInputs
    have hmagic : workerLoadU32 (Movi.requestHeader request) 0 = moviRequestMagic := by
      simp [Movi.requestHeader]
    have hversion : workerLoadU32 (Movi.requestHeader request) 4 = moviProtocolVersion := by
      simp [Movi.requestHeader]
    have hstage : workerLoadU32 (Movi.requestHeader request) 8 = request.stage.code := by
      simp [Movi.requestHeader]
    have hzeros : workerLoadU32 (Movi.requestHeader request) 24 = 0 ∧
        workerLoadU32 (Movi.requestHeader request) 28 = 0 := by
      simp [Movi.requestHeader]
    have hcounts :
        (workerLoadU32 (Movi.requestHeader request) 12).toNat = request.arguments.length ∧
          (workerLoadU32 (Movi.requestHeader request) 16).toNat = request.inputs.length ∧
          (workerLoadU32 (Movi.requestHeader request) 20).toNat = request.dllPath.length :=
      ⟨by simpa [Movi.requestHeader] using hargumentCount,
        by simpa [Movi.requestHeader] using hinputCount,
        by simpa [Movi.requestHeader] using hpathSize⟩
    simp only [Movi.parseRequest, Movi.requestMessage, Option.bind_eq_bind,
      Option.bind_eq_some_iff, Prod.exists, Option.ite_none_left_eq_some, not_or, not_not, not_lt,
      Option.some.injEq]
    refine ⟨_, _, hheader, ⟨hmagic, hversion, hzeros⟩, request.stage,
      MoviStage.ofCode_eq_some_iff.2 hstage, ?_⟩
    rw [hcounts.1, hcounts.2.1, hcounts.2.2]
    exact ⟨⟨h.arguments_ne, h.arguments_le, hinputsLe.1, hinputsLe.2, h.path_ne, h.path_le⟩, _, _,
      hpath, h.path_zero, _, _, harguments, _, _, hreadInputs, ⟨rfl, hinputs⟩, rfl⟩

/-! ## What the parent builds -/

theorem addRequestSize_eq_some_iff {total lead payload sum : ℕ} :
    addRequestSize total lead payload = some sum ↔
      total + lead + payload ≤ moviMaxMessageSize ∧ total + lead + payload = sum := by
  have hmax : moviMaxMessageSize ≤ sizeMax := by decide
  simp only [addRequestSize, Option.bind_eq_bind, Option.bind_eq_some_iff,
    checkedAddSize_eq_some_iff, Option.ite_none_left_eq_some, not_lt, Option.some.injEq]
  constructor
  · rintro ⟨next, ⟨_, rfl⟩, total', ⟨_, rfl⟩, hle, rfl⟩
    exact ⟨hle, rfl⟩
  · rintro ⟨hle, rfl⟩
    exact ⟨_, ⟨by omega, rfl⟩, _, ⟨by omega, rfl⟩, hle, rfl⟩

@[simp] theorem length_encodeArgument (argument : List UInt8) :
    (encodeArgument argument).length = 4 + argument.length := by
  simp [encodeArgument]

@[simp] theorem length_encodeInput (input : List UInt8) :
    (encodeInput input).length = 8 + input.length := by
  simp [encodeInput]

/-- The loop over the arguments checks each and sums up their encodings. -/
theorem addArguments_eq_ok_iff :
    ∀ {arguments : List (List UInt8)} {total sum : ℕ}, total ≤ moviMaxMessageSize →
      (addArguments arguments total = .ok sum ↔
        (∀ argument ∈ arguments, argument.length ≠ 0 ∧ 0 ∉ argument) ∧
          sum ≤ moviMaxMessageSize ∧ total + (arguments.flatMap encodeArgument).length = sum)
  | [], total, sum, htotal => by
    simp only [addArguments, Except.ok.injEq, List.flatMap_nil, List.length_nil, Nat.add_zero,
      List.not_mem_nil, false_imp_iff, implies_true, true_and]
    exact ⟨fun h => ⟨h ▸ htotal, h⟩, fun h => h.2⟩
  | argument :: arguments, total, sum, htotal => by
    have hlarge : moviMaxMessageSize ≤ uint32Max := by decide
    simp only [addArguments, refuseIf_bind_eq_ok_iff, not_or, not_lt, List.forall_mem_cons,
      List.flatMap_cons, List.length_append, length_encodeArgument]
    rcases hsize : addRequestSize total 4 argument.length with _ | next
    · have hover : ¬total + 4 + argument.length ≤ moviMaxMessageSize := fun hle => by
        simpa [hsize] using addRequestSize_eq_some_iff.2 ⟨hle, rfl⟩
      simp only [reduceCtorEq, and_false, false_iff, not_and]
      intro _ hsum _
      omega
    · obtain ⟨hle, rfl⟩ := addRequestSize_eq_some_iff.1 hsize
      dsimp only
      rw [addArguments_eq_ok_iff hle]
      constructor
      · rintro ⟨⟨hne, _, hzero⟩, hall, hsum, rfl⟩
        exact ⟨⟨⟨hne, hzero⟩, hall⟩, hsum, by omega⟩
      · rintro ⟨⟨⟨hne, hzero⟩, hall⟩, hsum, rfl⟩
        exact ⟨⟨hne, by omega, hzero⟩, hall, hsum, by omega⟩

/-- The loop over the inputs sums up their encodings. -/
theorem addInputs_eq_ok_iff :
    ∀ {inputs : List (List UInt8)} {total sum : ℕ}, total ≤ moviMaxMessageSize →
      (addInputs inputs total = .ok sum ↔
        sum ≤ moviMaxMessageSize ∧ total + (inputs.flatMap encodeInput).length = sum)
  | [], total, sum, htotal => by
    simp only [addInputs, Except.ok.injEq, List.flatMap_nil, List.length_nil, Nat.add_zero]
    exact ⟨fun h => ⟨h ▸ htotal, h⟩, fun h => h.2⟩
  | input :: inputs, total, sum, htotal => by
    simp only [addInputs, List.flatMap_cons, List.length_append, length_encodeInput]
    rcases hsize : addRequestSize total 8 input.length with _ | next
    · have hover : ¬total + 8 + input.length ≤ moviMaxMessageSize := fun hle => by
        simpa [hsize] using addRequestSize_eq_some_iff.2 ⟨hle, rfl⟩
      simp only [reduceCtorEq, false_iff, not_and]
      intro hsum
      omega
    · obtain ⟨hle, rfl⟩ := addRequestSize_eq_some_iff.1 hsize
      dsimp only
      rw [addInputs_eq_ok_iff hle]
      exact and_congr_right fun _ => by omega

/-- The requests that the parent builds. -/
structure MoviRequest.Sendable (request : MoviRequest) : Prop where
  path_ne : request.dllPath.length ≠ 0
  path_zero : 0 ∉ request.dllPath
  arguments_ne : request.arguments.length ≠ 0
  arguments_ok : ∀ argument ∈ request.arguments, argument.length ≠ 0 ∧ 0 ∉ argument
  inputs_ne : request.inputs.length ≠ 0
  size_le : (Movi.requestMessage request).length ≤ moviMaxMessageSize

theorem Movi.length_requestMessage (request : MoviRequest) :
    (Movi.requestMessage request).length = moviRequestHeaderSize + request.dllPath.length +
      (request.arguments.flatMap encodeArgument).length +
        (request.inputs.flatMap encodeInput).length := by
  rw [Movi.requestMessage, List.length_append, Movi.length_requestHeader, List.length_append,
    List.length_append]
  omega

/-- A message is longer than the number of its arguments or inputs. -/
theorem length_le_flatMap (f : List UInt8 → List UInt8) (hf : ∀ a, 1 ≤ (f a).length)
    (l : List (List UInt8)) : l.length ≤ (l.flatMap f).length := by
  rw [List.length_flatMap]
  have hsum := List.length_le_sum_of_one_le (l.map fun a => (f a).length)
    (by simpa using fun a _ => hf a)
  rwa [List.length_map] at hsum

/-- `build_request` writes the message of the requests it accepts. -/
theorem Movi.buildRequest_eq_ok_iff {request : MoviRequest} {message : List UInt8} :
    Movi.buildRequest request = .ok message ↔
      request.Sendable ∧ message = Movi.requestMessage request := by
  have hmax : moviMaxMessageSize ≤ uint32Max := by decide
  have hlength := Movi.length_requestMessage request
  have hheader : storeFields moviRequestHeaderSize
      [(0, workerStoreU32 moviRequestMagic), (4, workerStoreU32 moviProtocolVersion),
        (8, workerStoreU32 request.stage.code),
        (12, workerStoreU32 (UInt32.ofNat request.arguments.length)),
        (16, workerStoreU32 (UInt32.ofNat request.inputs.length)),
        (20, workerStoreU32 (UInt32.ofNat request.dllPath.length))] =
      Movi.requestHeader request := by
    rw [storeFields_consecutive]
    · simp [Movi.requestHeader, moviRequestHeaderSize, workerStoreU32_zero]
    · simp [Consecutive]
    · simp [moviRequestHeaderSize]
  unfold Movi.buildRequest
  simp only [refuseIf_bind_eq_ok_iff, hheader, not_or, not_lt]
  have hargumentsCount := length_le_flatMap encodeArgument
    (fun a => by rw [length_encodeArgument]; omega) request.arguments
  have hinputsCount := length_le_flatMap encodeInput
    (fun a => by rw [length_encodeInput]; omega) request.inputs
  rcases hpath : addRequestSize moviRequestHeaderSize 0 request.dllPath.length with _ | total
  · have hover : ¬moviRequestHeaderSize + 0 + request.dllPath.length ≤ moviMaxMessageSize :=
      fun hle => by simpa [hpath] using addRequestSize_eq_some_iff.2 ⟨hle, rfl⟩
    simp only [reduceCtorEq, and_false, false_iff, not_and]
    intro h
    have hle := h.size_le
    omega
  · obtain ⟨hle, rfl⟩ := addRequestSize_eq_some_iff.1 hpath
    simp only [bind_eq_ok_iff, addArguments_eq_ok_iff hle]
    constructor
    · rintro ⟨⟨hne, _, hzero, harguments, _, hinputs, _⟩, sum, ⟨hall, hsum, rfl⟩, sum', hsum',
        hmessage⟩
      obtain ⟨hle', rfl⟩ := (addInputs_eq_ok_iff hsum).1 hsum'
      refine ⟨⟨hne, hzero, harguments, hall, hinputs, by omega⟩, ?_⟩
      obtain rfl := Except.ok.inj hmessage
      simp only [Movi.requestMessage, List.append_assoc]
    · rintro ⟨h, rfl⟩
      have hsize := h.size_le
      refine ⟨⟨h.path_ne, by omega, h.path_zero, h.arguments_ne, by omega, h.inputs_ne, by omega⟩,
        _, ⟨h.arguments_ok, ?_, rfl⟩, _, (addInputs_eq_ok_iff ?_).2 ⟨?_, rfl⟩, ?_⟩
      · omega
      · omega
      · omega
      · simp only [Movi.requestMessage, List.append_assoc]

/-! ## Responses -/

/-- The worker's `worker_result`. A buffer that is not set is `none`; the response holds
as much of a buffer as the size next to it says. -/
structure MoviWorkerOutcome where
  status : MoviWorkerStatus
  toolReturn : Int32
  output : Option (List UInt8)
  outputSize : ℕ
  diagnostic : Option (List UInt8)
  diagnosticSize : ℕ
  deriving DecidableEq

/-- What `parse_response` writes of the parent's `npunlock_movi_result`. -/
structure MoviResult where
  output : List UInt8
  diagnostic : List UInt8
  toolReturn : Int32
  workerStatus : UInt32
  deriving DecidableEq

/-- The bytes that are sent for the output. -/
def MoviWorkerOutcome.sentOutput (result : MoviWorkerOutcome) : List UInt8 :=
  (result.output.getD []).take result.outputSize

/-- The bytes that are sent for the diagnostic. -/
def MoviWorkerOutcome.sentDiagnostic (result : MoviWorkerOutcome) : List UInt8 :=
  (result.diagnostic.getD []).take result.diagnosticSize

/-- The worker's `send_response`, the bytes it writes. -/
def Movi.sendResponse (result : MoviWorkerOutcome) : List UInt8 :=
  storeFields moviResponseHeaderSize
    [(0, workerStoreU32 moviResponseMagic),
      (4, workerStoreU32 moviProtocolVersion),
      (8, workerStoreU32 result.status.code),
      (12, workerStoreU32 result.toolReturn.toUInt32),
      (16, workerStoreU64 (UInt64.ofNat result.outputSize)),
      (24, workerStoreU64 (UInt64.ofNat result.diagnosticSize))] ++
    result.sentOutput ++ result.sentDiagnostic

/-- The checked sum of a response's parts. -/
def moviResponseSize (outputSize diagnosticSize : ℕ) : Option ℕ := do
  let expected ← checkedAddSize moviResponseHeaderSize outputSize
  checkedAddSize expected diagnosticSize

/-- The status that the parent returns for a worker status and a return value. -/
def Movi.responseStatus (workerStatus : UInt32) (toolReturn : Int32) : NpunlockStatus :=
  if workerStatus = MoviWorkerStatus.loadFailed.code then .notFound
  else if workerStatus ≠ MoviWorkerStatus.ok.code ∨ toolReturn ≠ 0 then .toolFailed
  else .ok

/-- The parent's `parse_response`. The early return of `NPUNLOCK_STATUS_TOOL_FAILED` is
`.error` with the fields read so far. -/
def Movi.parseResponse (response : List UInt8) :
    Except MoviResult (NpunlockStatus × MoviResult) :=
  if response.length < moviResponseHeaderSize ∨
      workerLoadU32 response 0 ≠ moviResponseMagic ∨
      workerLoadU32 response 4 ≠ moviProtocolVersion then .error ⟨[], [], 0, 0⟩
  else
    let workerStatus := workerLoadU32 response 8
    let toolReturn := (workerLoadU32 response 12).toInt32
    let outputSize := (workerLoadU64 response 16).toNat
    let diagnosticSize := (workerLoadU64 response 24).toNat
    if moviMaxResultSize < outputSize ∨ moviMaxResultSize < diagnosticSize ∨
        moviResponseSize outputSize diagnosticSize ≠ some response.length then
      .error ⟨[], [], toolReturn, workerStatus⟩
    else
      let payload := response.drop moviResponseHeaderSize
      .ok (Movi.responseStatus workerStatus toolReturn,
        { output := payload.take outputSize
          diagnostic := (payload.drop outputSize).take diagnosticSize
          toolReturn := toolReturn
          workerStatus := workerStatus })

/-- The limits that the worker keeps : each size is at most that of its buffer, and the
buffers are at most `NPUNLOCK_MOVI_MAX_RESULT_SIZE` long. -/
structure MoviWorkerOutcome.Bounded (result : MoviWorkerOutcome) : Prop where
  output_le : result.outputSize ≤ (result.output.getD []).length
  diagnostic_le : result.diagnosticSize ≤ (result.diagnostic.getD []).length
  output_max : (result.output.getD []).length ≤ moviMaxResultSize
  diagnostic_max : (result.diagnostic.getD []).length ≤ moviMaxResultSize

theorem moviResponseSize_eq_some_iff {outputSize diagnosticSize expected : ℕ} :
    moviResponseSize outputSize diagnosticSize = some expected ↔
      32 + outputSize + diagnosticSize ≤ sizeMax ∧ 32 + outputSize + diagnosticSize = expected := by
  simp only [moviResponseSize, moviResponseHeaderSize, Option.bind_eq_bind,
    Option.bind_eq_some_iff, checkedAddSize_eq_some_iff]
  constructor
  · rintro ⟨a, ⟨ha, rfl⟩, hb, rfl⟩
    exact ⟨hb, rfl⟩
  · rintro ⟨hle, rfl⟩
    exact ⟨_, ⟨by omega, rfl⟩, hle, rfl⟩

theorem Movi.sendResponse_eq (result : MoviWorkerOutcome) :
    Movi.sendResponse result =
      workerStoreU32 moviResponseMagic ++ (workerStoreU32 moviProtocolVersion ++
        (workerStoreU32 result.status.code ++ (workerStoreU32 result.toolReturn.toUInt32 ++
          (workerStoreU64 (UInt64.ofNat result.outputSize) ++
            (workerStoreU64 (UInt64.ofNat result.diagnosticSize) ++
              (result.sentOutput ++ result.sentDiagnostic)))))) := by
  rw [Movi.sendResponse, List.append_assoc, storeFields_consecutive]
  · simp [moviResponseHeaderSize]
  · simp [Consecutive]
  · simp [moviResponseHeaderSize]

namespace MoviWorkerOutcome.Bounded

variable {result : MoviWorkerOutcome}

theorem length_sentOutput (h : result.Bounded) : result.sentOutput.length = result.outputSize := by
  rw [MoviWorkerOutcome.sentOutput, List.length_take, Nat.min_eq_left h.output_le]

theorem length_sentDiagnostic (h : result.Bounded) :
    result.sentDiagnostic.length = result.diagnosticSize := by
  rw [MoviWorkerOutcome.sentDiagnostic, List.length_take, Nat.min_eq_left h.diagnostic_le]

theorem length_sendResponse (h : result.Bounded) :
    (Movi.sendResponse result).length = 32 + result.outputSize + result.diagnosticSize := by
  simp only [Movi.sendResponse_eq, List.length_append, length_workerStoreU32,
    length_workerStoreU64, h.length_sentOutput, h.length_sentDiagnostic]
  omega

/-- The parent reads the result that the worker sent. -/
theorem parseResponse_sendResponse (h : result.Bounded) :
    Movi.parseResponse (Movi.sendResponse result) =
      .ok (Movi.responseStatus result.status.code result.toolReturn,
        ⟨result.sentOutput, result.sentDiagnostic, result.toolReturn, result.status.code⟩) := by
  have hsizes : moviMaxResultSize + moviMaxResultSize + 32 ≤ sizeMax := by decide
  have houtput := h.output_le.trans h.output_max
  have hdiagnostic := h.diagnostic_le.trans h.diagnostic_max
  have houtputSize : (UInt64.ofNat result.outputSize).toNat = result.outputSize :=
    toNat_ofNat_size (by omega)
  have hdiagnosticSize : (UInt64.ofNat result.diagnosticSize).toNat = result.diagnosticSize :=
    toNat_ofNat_size (by omega)
  have hlength := h.length_sendResponse
  have hsum : moviResponseSize result.outputSize result.diagnosticSize =
      some (Movi.sendResponse result).length :=
    moviResponseSize_eq_some_iff.2 ⟨by omega, hlength.symm⟩
  have hfields : workerLoadU32 (Movi.sendResponse result) 0 = moviResponseMagic ∧
      workerLoadU32 (Movi.sendResponse result) 4 = moviProtocolVersion ∧
      workerLoadU32 (Movi.sendResponse result) 8 = result.status.code ∧
      workerLoadU32 (Movi.sendResponse result) 12 = result.toolReturn.toUInt32 := by
    simp [Movi.sendResponse_eq]
  have hsizeFields : workerLoadU64 (Movi.sendResponse result) 16 =
        UInt64.ofNat result.outputSize ∧
      workerLoadU64 (Movi.sendResponse result) 24 = UInt64.ofNat result.diagnosticSize := by
    simp [Movi.sendResponse_eq]
  have hpayload : (Movi.sendResponse result).drop moviResponseHeaderSize =
      result.sentOutput ++ result.sentDiagnostic := by
    simp [Movi.sendResponse_eq, moviResponseHeaderSize]
  obtain ⟨hmagic, hversion, hstatus, hreturn⟩ := hfields
  unfold Movi.parseResponse
  dsimp only
  rw [hmagic, hversion, hstatus, hreturn, hsizeFields.1, hsizeFields.2, houtputSize,
    hdiagnosticSize, hpayload, hsum, if_neg, if_neg]
  · simp [← h.length_sentOutput, ← h.length_sentDiagnostic]
  · simp only [not_or, not_not, not_lt]
    exact ⟨houtput, hdiagnostic, trivial⟩
  · simp only [not_or, not_not, not_lt]
    exact ⟨by rw [moviResponseHeaderSize]; omega, trivial, trivial⟩

end MoviWorkerOutcome.Bounded

end Npunlock
