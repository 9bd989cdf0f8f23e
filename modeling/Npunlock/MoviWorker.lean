import Npunlock.MoviProtocol

/-!
# The Movi worker

`run_tool` and the `main` of `movi_worker.c`, over the answers of the system and of the
tool DLL. `MoviTools` gives the answer to each call, so a theorem about all its values is
about every DLL.

`movi_worker_round_trip` : the worker recovers every request that the parent builds
within the worker's limits, what it accepts is the message that the parent builds of the
request, and the parent reads every response that the worker sends.
-/

namespace Npunlock

/-! ## Answers of the system and the tool -/

/-- What the entry point of a tool returns. A buffer is its address, `none` for a null
pointer, and its size. -/
structure ToolAnswer where
  returnValue : Int32
  output : Option (ℕ → UInt8)
  outputSize : ℕ
  diagnostic : Option (ℕ → UInt8)
  diagnosticSize : ℕ

/-- The answer to each call of the worker. -/
structure MoviTools where
  utf8ToWide : List UInt8 → Option (List UInt16)
  directoryAllocated : Bool
  searchPathSet : Bool
  directoryAdded : Bool
  library : Bool
  exports : Bool
  entry : MoviRequest → ToolAnswer
  outputAllocated : Bool
  diagnosticAllocated : Bool
  messageAllocated : Bool

/-! ## Results -/

/-- `copy_result`. The outer `none` is a refusal, the inner one a null pointer. -/
def copyResult (source : Option (ℕ → UInt8)) (size : ℕ) (allocated : Bool) :
    Option (Option (List UInt8)) :=
  if moviMaxResultSize < size then none
  else if size = 0 then some none
  else
    match source with
    | none => none
    | some data => if allocated then some (some (slice data 0 size)) else none

/-- `set_internal_diagnostic`, which keeps the first message. -/
def MoviWorkerOutcome.setInternalDiagnostic (tools : MoviTools) (message : String)
    (result : MoviWorkerOutcome) : MoviWorkerOutcome :=
  match result.diagnostic with
  | some _ => result
  | none =>
    let bytes := cString (literal message)
    match copyResult (some fun i => bytes.getD i 0) bytes.length tools.messageAllocated with
    | none => result
    | some diagnostic => { result with diagnostic := diagnostic, diagnosticSize := bytes.length }

/-- The result with a failed status and a message. -/
def MoviWorkerOutcome.fail (tools : MoviTools) (status : MoviWorkerStatus) (message : String)
    (result : MoviWorkerOutcome) : MoviWorkerOutcome :=
  { result with status := status }.setInternalDiagnostic tools message

/-- The result that both `main` and `run_tool` start from, up to its status. -/
def MoviWorkerOutcome.initial (status : MoviWorkerStatus) : MoviWorkerOutcome :=
  ⟨status, -1, none, 0, none, 0⟩

/-- `wcsrchr`, the position of the last occurrence. -/
def wcsrchr (c : UInt16) (text : List UInt16) : Option ℕ :=
  ((List.range text.length).filter fun i => text[i]? = some c).getLast?

/-- The separator in front of the file name of the DLL path. -/
def pathSeparator (path : List UInt16) : Option ℕ :=
  (wcsrchr 0x5c path).or (wcsrchr 0x2f path)

/-- The end of `run_tool`, once the tool has returned. -/
def keepAnswer (tools : MoviTools) (answer : ToolAnswer) (result : MoviWorkerOutcome) :
    MoviWorkerOutcome :=
  let result := { result with toolReturn := answer.returnValue }
  match copyResult answer.output answer.outputSize tools.outputAllocated with
  | none => result.fail tools .badResult "Movi DLL returned an invalid or oversized result"
  | some output =>
    let result := { result with output := output }
    match copyResult answer.diagnostic answer.diagnosticSize tools.diagnosticAllocated with
    | none => result.fail tools .badResult "Movi DLL returned an invalid or oversized result"
    | some diagnostic =>
      { result with
        diagnostic := diagnostic
        outputSize := answer.outputSize
        diagnosticSize := answer.diagnosticSize
        status := .ok }

/-- `run_tool`. The link entry point has no diagnostic. -/
def runTool (tools : MoviTools) (request : MoviRequest) : MoviWorkerOutcome :=
  let result := MoviWorkerOutcome.initial .internalError
  match tools.utf8ToWide request.dllPath with
  | none => result.fail tools .badRequest "Movi DLL path is not valid UTF-8"
  | some path =>
    if ¬tools.directoryAllocated then { result with status := .outOfMemory }
    else if pathSeparator path = none ∨ pathSeparator path = some 0 then
      result.fail tools .badRequest "Movi DLL path must include an absolute directory"
    else if ¬tools.searchPathSet then
      result.fail tools .loadFailed "failed to constrain the DLL search path"
    else if ¬tools.directoryAdded then
      result.fail tools .loadFailed "failed to add the caller-selected Movi DLL directory"
    else if ¬tools.library then
      result.fail tools .loadFailed "failed to load the caller-selected Movi DLL"
    else if ¬tools.exports then
      result.fail tools .symbolMissing "required Movi DLL export is missing"
    else if request.stage = .assemble ∧ uint32Max < (request.inputs.headD []).length then
      result.fail tools .badRequest "assembler input exceeds its confirmed uint32 extent"
    else
      let answer := tools.entry request
      let answer := if request.stage = .link then
        { answer with diagnostic := none, diagnosticSize := 0 } else answer
      keepAnswer tools answer result

/-- The result that the worker's `main` sends, for what arrives on its input. Without an
input handle it sends nothing. -/
def Movi.workerResult (tools : MoviTools) (input : List (Option (List UInt8))) :
    MoviWorkerOutcome :=
  let result := MoviWorkerOutcome.initial .badRequest
  match workerReadAll moviMaxMessageSize input [] with
  | none => result.setInternalDiagnostic tools "failed to read the Movi worker request"
  | some data =>
    match Movi.parseRequest data with
    | none => result.setInternalDiagnostic tools "malformed Movi worker request"
    | some request => runTool tools request

/-! ## Limits of the result -/

variable {tools : MoviTools} {result : MoviWorkerOutcome}

/-- A copied buffer has the length it was copied with. -/
theorem length_of_copyResult {source : Option (ℕ → UInt8)} {size : ℕ} {allocated : Bool}
    {buffer : Option (List UInt8)} (h : copyResult source size allocated = some buffer) :
    (buffer.getD []).length = size ∧ size ≤ moviMaxResultSize := by
  unfold copyResult at h
  rw [Option.ite_none_left_eq_some] at h
  obtain ⟨hmax, h⟩ := h
  have hmax : size ≤ moviMaxResultSize := by omega
  by_cases hzero : size = 0
  · rw [if_pos hzero] at h
    obtain rfl := Option.some.inj h
    exact ⟨hzero.symm, hmax⟩
  · rw [if_neg hzero] at h
    cases source with
    | none => simp at h
    | some data =>
      obtain ⟨_, hbuffer⟩ := Option.ite_none_right_eq_some.1 h
      obtain rfl := Option.some.inj hbuffer
      exact ⟨length_slice data 0 size, hmax⟩

theorem MoviWorkerOutcome.bounded_initial (status : MoviWorkerStatus) :
    (MoviWorkerOutcome.initial status).Bounded :=
  ⟨Nat.zero_le _, Nat.zero_le _, Nat.zero_le _, Nat.zero_le _⟩

namespace MoviWorkerOutcome.Bounded

/-- The status and the return value have no limits. -/
theorem congr (h : result.Bounded) {status : MoviWorkerStatus} {toolReturn : Int32} :
    MoviWorkerOutcome.Bounded { result with status := status, toolReturn := toolReturn } :=
  ⟨h.output_le, h.diagnostic_le, h.output_max, h.diagnostic_max⟩

theorem setInternalDiagnostic (h : result.Bounded) (message : String) :
    (result.setInternalDiagnostic tools message).Bounded := by
  unfold MoviWorkerOutcome.setInternalDiagnostic
  split
  · exact h
  · dsimp only
    split
    · exact h
    · rename_i diagnostic hcopy
      obtain ⟨hlength, hmax⟩ := length_of_copyResult hcopy
      exact ⟨h.output_le, hlength.ge, h.output_max, by rw [hlength]; exact hmax⟩

theorem fail (h : result.Bounded) (status : MoviWorkerStatus) (message : String) :
    (result.fail tools status message).Bounded :=
  h.congr.setInternalDiagnostic message

theorem ite {c : Prop} {_ : Decidable c} {result' : MoviWorkerOutcome} (h : result.Bounded)
    (h' : result'.Bounded) : (if c then result else result').Bounded := by
  split_ifs
  · exact h
  · exact h'

end MoviWorkerOutcome.Bounded

/-- A refused diagnostic leaves the copied output unsent : its size is not set. -/
theorem keepAnswer_bounded (status : MoviWorkerStatus) (answer : ToolAnswer) :
    (keepAnswer tools answer (MoviWorkerOutcome.initial status)).Bounded := by
  have h := MoviWorkerOutcome.bounded_initial status
  unfold keepAnswer
  dsimp only
  split
  · exact h.congr.fail _ _
  · rename_i output houtput
    obtain ⟨houtputLength, houtputMax⟩ := length_of_copyResult houtput
    have hkept : MoviWorkerOutcome.Bounded
        { MoviWorkerOutcome.initial status with
          toolReturn := answer.returnValue
          output := output } :=
      ⟨Nat.zero_le _, Nat.zero_le _, by rw [houtputLength]; exact houtputMax, Nat.zero_le _⟩
    split
    · exact hkept.fail _ _
    · rename_i diagnostic hdiagnostic
      obtain ⟨hlength, hmax⟩ := length_of_copyResult hdiagnostic
      exact ⟨houtputLength.ge, hlength.ge, by rw [houtputLength]; exact houtputMax,
        by rw [hlength]; exact hmax⟩

theorem runTool_bounded (request : MoviRequest) : (runTool tools request).Bounded := by
  have h := MoviWorkerOutcome.bounded_initial .internalError
  unfold runTool
  dsimp only
  split
  · exact h.fail _ _
  · refine .ite h.congr (.ite (h.fail _ _) (.ite (h.fail _ _) (.ite (h.fail _ _) ?_)))
    refine .ite (h.fail _ _) (.ite (h.fail _ _) (.ite (h.fail _ _) ?_))
    exact keepAnswer_bounded _ _

/-- Every result that the worker sends, for any input and any tool. -/
theorem Movi.workerResult_bounded (tools : MoviTools) (input : List (Option (List UInt8))) :
    (Movi.workerResult tools input).Bounded := by
  have h := MoviWorkerOutcome.bounded_initial .badRequest
  unfold Movi.workerResult
  dsimp only
  split
  · exact h.setInternalDiagnostic _
  · split
    · exact h.setInternalDiagnostic _
    · exact runTool_bounded _

/-! ## The round trip -/

/-- Requests and responses of the Movi worker. A request that the parent builds within
the worker's limits is read back, in whatever pieces it arrives. What the worker accepts
is the message of the request it reads, and of no other, and it is what the parent builds
of that request, as the worker reads no more than the parent may send. Every response
fits in what the parent reads and is accepted with the worker's status, return value,
output and diagnostic. -/
theorem movi_worker_round_trip :
    (∀ request message (chunks : List (List UInt8)), Movi.buildRequest request = .ok message →
      request.WithinWorkerLimits → (∀ chunk ∈ chunks, chunk ≠ []) → chunks.flatten = message →
        workerReadAll moviMaxMessageSize (chunks.map some) [] = some message ∧
          Movi.parseRequest message = some request) ∧
    (∀ reads data request, workerReadAll moviMaxMessageSize reads [] = some data →
      Movi.parseRequest data = some request → Movi.buildRequest request = .ok data) ∧
    (∀ data request, Movi.parseRequest data = some request →
      data = Movi.requestMessage request) ∧
    ∀ tools input,
      let result := Movi.workerResult tools input
      let response := Movi.sendResponse result
      response.length ≤ moviResponseHeaderSize + moviMaxResultSize * 2 ∧
        ∃ received, Movi.parseResponse response =
            .ok (Movi.responseStatus result.status.code result.toolReturn, received) ∧
          received.workerStatus = result.status.code ∧
          received.toolReturn = result.toolReturn ∧
          received.output = (result.output.getD []).take result.outputSize ∧
          received.diagnostic = (result.diagnostic.getD []).take result.diagnosticSize := by
  refine ⟨fun request message chunks hbuild hlimits hchunks hflatten => ?_,
    fun reads data request hread hparse => ?_, fun data request hparse => ?_,
    fun tools input => ?_⟩
  · obtain ⟨hsendable, rfl⟩ := Movi.buildRequest_eq_ok_iff.1 hbuild
    refine ⟨?_, Movi.parseRequest_eq_some_iff.2 ⟨hlimits, rfl⟩⟩
    rw [workerReadAll_chunks chunks [] hchunks
      (by rw [hflatten]; simpa using hsendable.size_le), hflatten, List.nil_append]
  · have hlength := length_le_of_workerReadAll hread (Nat.zero_le _)
    obtain ⟨h, rfl⟩ := Movi.parseRequest_eq_some_iff.1 hparse
    have hinputs : request.inputs.length ≠ 0 := by
      rw [h.inputs_length]
      split_ifs <;> decide
    exact Movi.buildRequest_eq_ok_iff.2 ⟨⟨h.path_ne, h.path_zero, h.arguments_ne,
      fun argument hmem => ⟨(h.arguments_ok argument hmem).1, (h.arguments_ok argument hmem).2.2⟩,
      hinputs, hlength⟩, rfl⟩
  · exact (Movi.parseRequest_eq_some_iff.1 hparse).2
  · have h := Movi.workerResult_bounded tools input
    refine ⟨?_, _, h.parseResponse_sendResponse, rfl, rfl, rfl, rfl⟩
    have houtput := h.output_le.trans h.output_max
    have hdiagnostic := h.diagnostic_le.trans h.diagnostic_max
    rw [h.length_sendResponse, moviResponseHeaderSize]
    omega

/-- A link request with one argument and two inputs, of which one is empty. -/
def moviSampleRequest : MoviRequest :=
  ⟨.link, [67, 58, 92, 100], [[45, 111]], [[1, 0, 2], []]⟩

/-- The sample request, delivered in two pieces. -/
theorem movi_worker_round_trip_example :
    Movi.parseRequest (Movi.requestMessage moviSampleRequest) = some moviSampleRequest :=
  (movi_worker_round_trip.1 moviSampleRequest _
    [(Movi.requestMessage moviSampleRequest).take 9,
      (Movi.requestMessage moviSampleRequest).drop 9]
    (by decide) ⟨by decide, by decide, by decide, by decide, by decide, by decide +kernel,
      by decide +kernel, by decide⟩ (by decide) (by simp)).2

end Npunlock
