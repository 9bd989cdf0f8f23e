import Mathlib.Logic.Function.Basic
import Npunlock.BindingResolution
import Npunlock.Effects

/-!
# Submissions

A session keeps one command queue, one command list and one fence. `executeAllocations`
records the list for the arguments of a call and submits it; a later call on the same
arguments submits the recording again. The driver may answer every call with any code : the
calls are logged with their answers, and only the driver reads the log.
-/

namespace Npunlock

/-- The calls of the driver that an inference makes. -/
inductive DriverCall
  | allocateHost (index : ℕ)
  | setArgument (index allocation : ℕ)
  | graphInitialize
  | createQueue
  | createList
  | createFence
  | resetList
  | resetFence
  | appendInitialize
  | appendExecute
  | closeList
  | execute
  | synchronize
  deriving DecidableEq

/-- A call with its result code. -/
abbrev DriverEvent := DriverCall × ℕ

/-- The driver : the result codes, and the addresses of host allocations. Both may depend on
everything that happened before. -/
structure GraphDriver where
  result : List DriverEvent → DriverCall → ℕ
  address : List DriverEvent → ℕ

inductive SubmissionError
  | arguments (error : SessionError)
  | driver (call : DriverCall) (code : ℕ)
  | unusable
  | recordingUnavailable
  | directUnavailable
  | commandListUnavailable
  deriving DecidableEq

/-- `NPUNLOCK_ZE_GRAPH_STAGE_COMMAND_LIST_INITIALIZE` -/
def commandListInitializeStage : ℕ := 0x1

/-- `NPUNLOCK_ZE_GRAPH_STAGE_INITIALIZE` -/
def initializeStage : ℕ := 0x2

/-- A session on a graph, with the stages that initialise the graph and the entry points that
the driver offers for them. -/
structure GraphSession extends Session where
  initStages : ℕ
  hasInitialize : Bool
  hasAppendInitialize : Bool

/-- A buffer that the caller binds to an argument, by its index or by its name. -/
structure SharedTensor where
  argumentIndex : Option ℕ
  argumentName : String
  buffer : Option GraphinferSharedBuffer

/-- An input that is copied to an argument. The name counts where there is no index. -/
structure CopiedInput where
  argumentIndex : Option ℕ
  argumentName : String
  size : ℕ

/-- `copied_input_matches` -/
def CopiedInput.selects (input : CopiedInput) (entry : SessionArgument × ℕ) : Bool :=
  match input.argumentIndex with
  | some index => index = entry.2
  | none => entry.1.name = input.argumentName

/-- `binding_name_matches`, or the index is that of the binding. -/
def SharedTensor.selects (tensor : SharedTensor) (entry : SessionArgument × ℕ) : Bool :=
  tensor.argumentIndex = some entry.2 ∨
    tensor.argumentName ≠ "" ∧ entry.1.name = tensor.argumentName

inductive InferenceCall
  | shared (inputs outputs : List SharedTensor)
  | copied (inputs : List CopiedInput)

/-- The state of a session. -/
structure SessionState where
  initialized : Bool
  copiedAllocations : Option (List ℕ)
  submissionQueue : Bool
  submissionList : Bool
  submissionFence : Bool
  executeAllocations : List ℕ
  submissionListClosed : Bool
  submissionFenceSubmitted : Bool
  executeListRecorded : Bool
  submissionFailed : Bool
  log : List DriverEvent

/-- The state that a session is created in. -/
def SessionState.created : SessionState where
  initialized := false
  copiedAllocations := none
  submissionQueue := false
  submissionList := false
  submissionFence := false
  executeAllocations := []
  submissionListClosed := false
  submissionFenceSubmitted := false
  executeListRecorded := false
  submissionFailed := false
  log := []

def SessionState.logged (state : SessionState) (event : DriverEvent) : SessionState :=
  { state with log := state.log ++ [event] }

abbrev SessionAction := Effect SubmissionError SessionState

namespace GraphSession

open Effect

variable (graph : GraphSession) (driver : GraphDriver)

def argumentCount : ℕ :=
  graph.arguments.length

/-! ## Arguments -/

/-- `collect_bindings`, one round : the arguments with their allocations. -/
def bindTensor (type : ArgumentType) (allocations : List (ℕ × ℕ)) (tensor : SharedTensor) :
    Except SessionError (List (ℕ × ℕ)) :=
  match tensor.buffer with
  | none => .error .invalidBinding
  | some buffer => do
    refuseIf (Char.ofNat 0 ∈ tensor.argumentName.toList) .invalidBinding
    refuseIf (tensor.argumentIndex.isSome ↔ tensor.argumentName ≠ "") .invalidBinding
    match graph.arguments.zipIdx.filter tensor.selects with
    | [] => .error .bindingNotUnique
    | [(argument, index)] => do
      refuseIf (argument.type ≠ type ∨ index ∈ allocations.map Prod.fst) .bindingNotUnique
      match buffer.implementation with
      | none => .error .wrongBuffer
      | some implementation => do
        refuseIf (implementation.session ≠ graph.id ∨
          buffer.data ≠ implementation.allocation ∨ buffer.size ≠ implementation.size ∨
            implementation.size ≠ argument.byteSize) .wrongBuffer
        .ok (allocations ++ [(index, implementation.allocation)])
    | _ :: _ :: _ => .error .bindingAmbiguous

/-- The allocations that a shared call binds, in the order of the arguments. -/
def bindTensors (inputs outputs : List SharedTensor) : Except SessionError (List ℕ) := do
  refuseIf (inputs.length ≠ (graph.ofType .input).length ∨
    outputs.length ≠ (graph.ofType .output).length) .bindingsNotCovered
  let bound ← inputs.foldlM (graph.bindTensor .input) []
  let allocations ← outputs.foldlM (graph.bindTensor .output) bound
  refuseIf (∃ index ∈ List.range graph.argumentCount, index ∉ allocations.map Prod.fst) .notBound
  .ok ((List.range graph.argumentCount).map fun index => (allocations.lookup index).getD 0)

/-- One round of the checks on copied inputs, after the arguments `matched`. -/
def matchCopied (matched : List ℕ) (input : CopiedInput) : Except SessionError (List ℕ) :=
  match graph.arguments.zipIdx.filter fun entry =>
    entry.1.type = .input ∧ input.selects entry with
  | [] => .error .inputMismatch
  | [(argument, index)] =>
    if index ∈ matched ∨ input.size ≠ argument.byteSize then .error .inputMismatch
    else .ok (matched ++ [index])
  | _ :: _ :: _ => .error .inputAmbiguous

def matchCopiedInputs (inputs : List CopiedInput) : Except SessionError (List ℕ) := do
  refuseIf (inputs.length ≠ (graph.ofType .input).length) .inputsNotCovered
  inputs.foldlM graph.matchCopied []

/-! ## Submission -/

variable {graph}

/-- A call of the driver. -/
def ask (call : DriverCall) : SessionAction ℕ := do
  let state ← get
  modify fun state => state.logged (call, driver.result state.log call)
  pure (driver.result state.log call)

/-- A call whose failure ends the inference. -/
def perform (call : DriverCall) : SessionAction Unit := do
  let code ← ask driver call
  refuse (code ≠ 0) (.driver call code)

/-- A call whose failure leaves the session unusable. -/
def performOrPoison (call : DriverCall) : SessionAction Unit := do
  let code ← ask driver call
  if code ≠ 0 then modify fun state => { state with submissionFailed := true }
  refuse (code ≠ 0) (.driver call code)

/-! The queue, the list and the fence are created once. -/

def createQueue : SessionAction Unit := do
  if !(← get).submissionQueue then do
    perform driver .createQueue
    modify fun state => { state with submissionQueue := true }

def createList : SessionAction Unit := do
  if !(← get).submissionList then do
    perform driver .createList
    modify fun state => { state with submissionList := true }

def createFence : SessionAction Unit := do
  if !(← get).submissionFence then do
    perform driver .createFence
    modify fun state => { state with submissionFence := true }

/-- The list is reset unless it is used again. -/
def resetList (reuseRecording : Bool) : SessionAction Unit := do
  if !reuseRecording && (← get).submissionListClosed then do
    performOrPoison driver .resetList
    modify fun state => { state with submissionListClosed := false }

def resetFence : SessionAction Unit := do
  if (← get).submissionFenceSubmitted then do
    performOrPoison driver .resetFence
    modify fun state => { state with submissionFenceSubmitted := false }

def appendCall (initializing : Bool) : DriverCall :=
  if initializing then .appendInitialize else .appendExecute

def recordList (initializing : Bool) : SessionAction Unit := do
  performOrPoison driver (appendCall initializing)
  performOrPoison driver .closeList
  modify fun state => { state with submissionListClosed := true }

def runList : SessionAction Unit := do
  performOrPoison driver .execute
  modify fun state => { state with submissionFenceSubmitted := true }
  performOrPoison driver .synchronize

def submit (initializing reuseRecording : Bool) : SessionAction Unit := do
  refuse ((← get).submissionFailed = true) .unusable
  createQueue driver
  createList driver
  createFence driver
  let state ← get
  refuse (reuseRecording = true ∧
    (initializing = true ∨ state.executeListRecorded = false ∨ state.submissionListClosed = false))
    .recordingUnavailable
  resetList driver reuseRecording
  resetFence driver
  if !reuseRecording then recordList driver initializing
  runList driver

/-! ## Execution -/

def setArguments (allocations : List ℕ) : SessionAction Unit :=
  allocations.zipIdx.foldlM (fun _ entry => perform driver (.setArgument entry.2 entry.1)) ()

/-- The second half of `execute_allocations_locked`. -/
def executePrepared (allocations : List ℕ) (reuseRecording : Bool) : SessionAction Unit := do
  if !reuseRecording then do
    modify fun state => { state with executeListRecorded := false }
    setArguments driver allocations
  submit driver false reuseRecording
  if !reuseRecording then
    modify fun state =>
      { state with executeAllocations := allocations, executeListRecorded := true }

variable (graph)

/-- The stage is one of those that the graph requires. -/
def Requires (stage : ℕ) : Prop :=
  graph.initStages &&& stage ≠ 0

instance (stage : ℕ) : Decidable (graph.Requires stage) :=
  inferInstanceAs (Decidable (_ ≠ _))

def initializeDirectly : SessionAction Unit := do
  if graph.Requires initializeStage then do
    refuse (graph.hasInitialize = false) .directUnavailable
    perform driver .graphInitialize

def initializeOnList : SessionAction Unit := do
  if graph.Requires commandListInitializeStage then do
    refuse (graph.hasAppendInitialize = false) .commandListUnavailable
    modify fun state => { state with executeListRecorded := false }
    submit driver true false

/-- The first half of `execute_allocations_locked`. -/
def initializeGraph (allocations : List ℕ) : SessionAction Unit := do
  setArguments driver allocations
  graph.initializeDirectly driver
  graph.initializeOnList driver
  modify fun state => { state with initialized := true }

/-- `execute_allocations_locked` -/
def executeAllocations (allocations : List ℕ) : SessionAction Unit := do
  let state ← get
  if !state.initialized then graph.initializeGraph driver allocations
  executePrepared driver allocations (state.initialized ∧ state.executeListRecorded ∧
    state.executeAllocations = allocations)

/-- `ensure_copied_allocations`. Where an allocation fails, those made before it are
released. -/
def ensureCopiedAllocations : SessionAction (List ℕ) := do
  match (← get).copiedAllocations with
  | some allocations => pure allocations
  | none => do
    let allocations ← (List.range graph.argumentCount).foldlM (fun allocations index => do
      perform driver (.allocateHost index)
      let state ← get
      pure (allocations ++ [driver.address state.log])) []
    modify fun state => { state with copiedAllocations := some allocations }
    pure allocations

/-- `graphinfer_session_infer` and `npunlock_graphinfer_infer_copied` on an open session. -/
def serve : InferenceCall → SessionAction Unit
  | .shared inputs outputs => do
    let allocations ← ofExcept ((graph.bindTensors inputs outputs).mapError .arguments)
    graph.executeAllocations driver allocations
  | .copied inputs => do
    let _ ← ofExcept ((graph.matchCopiedInputs inputs).mapError .arguments)
    let allocations ← graph.ensureCopiedAllocations driver
    graph.executeAllocations driver allocations

/-- The state of a session after calls. -/
def serveAll (calls : List InferenceCall) : SessionState :=
  calls.foldl (fun state call => (graph.serve driver call state).2) .created

end GraphSession

end Npunlock
