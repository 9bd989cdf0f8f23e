import Npunlock.Effects
import Npunlock.RuntimeSafety

/-!
# The XGBoost runtime

`XGBoostRuntime` selects a backend for a model, a single stage (`RuntimeNpuXGBoost`) or two
connected ones (`ConnectedRuntimeNpuXGBoost`), and replaces model and backend by
`loadModel`. What the files, the compiler, the device and the release of a backend answer
is an argument of each call. A failure keeps the assignments made before it, as an
exception does.
-/

namespace Npunlock

namespace Runtime

/-- What the runtime raises. -/
inductive RuntimeError
  | host (error : ModelError)
  | device (message : String)
  deriving DecidableEq

/-- A logical tensor of the device. -/
abbrev Tensor := { chunks : List (List Word) // IsLogical chunks }

/-- A model file or an ensemble : what `load_ensemble` returns is validated. -/
abbrev Loaded := Except ModelError { ensemble : Ensemble // ensemble.Valid }

/-! ## Backends -/

inductive BackendKind
  | single
  | connected
  deriving DecidableEq

/-- `runtime_backend_kind`. -/
def backendKindOf (ensemble : Ensemble) : Except ModelError BackendKind :=
  if ensemble.nodeCount ≤ maxTotalNodes then .ok .single
  else do
    let _ ← partitionEnsemble ensemble
    .ok .connected

/-- A backend with its recorded ensemble and its shared buffers. -/
inductive Backend
  | single (ensemble : Ensemble) (forest output : List (List Word))
  | connected (ensemble : Ensemble) (forestA forestB output : List (List Word))
  deriving DecidableEq

/-- The packed models of a connected backend. -/
def packPartitions (ensemble : Ensemble) :
    Except ModelError (List (List Word) × List (List Word)) := do
  let partitions ← partitionEnsemble ensemble
  let forestA ← packRuntimeModel partitions.1
  let forestB ← packRuntimeModel partitions.2
  .ok (forestA, forestB)

/-- `_create_backend`. The environment raises, or answers with the contents of the new
output buffer. -/
def createBackend (ensemble : Ensemble) (kind : BackendKind) (creation : Except String Tensor) :
    Except RuntimeError Backend :=
  match kind with
  | .single => do
    let forest ← (packRuntimeModel ensemble).mapError .host
    let output ← creation.mapError .device
    .ok (.single ensemble forest output.1)
  | .connected => do
    let forests ← (packPartitions ensemble).mapError .host
    let output ← creation.mapError .device
    .ok (.connected ensemble forests.1 forests.2 output.1)

namespace Backend

/-- `load_model` of a backend, which packs the model before it writes the shared buffers. -/
def loadModel (ensemble : Ensemble) : Backend → Except ModelError Backend
  | .single _ _ output => do
    let forest ← packRuntimeModel ensemble
    .ok (.single ensemble forest output)
  | .connected _ _ _ output => do
    let forests ← packPartitions ensemble
    .ok (.connected ensemble forests.1 forests.2 output)

/-- The packed features of a run. The single backend computes its capacity between the
checks of the features and of their number. -/
def packFeatures (features : FeatureMatrix) : Backend → Except ModelError (List (List Word))
  | .single ensemble _ _ => do
    checkFeatures features ensemble.featureCount
    let capacity ← invocationCapacity ensemble.featureCount
    packRuntimeFeatures features ensemble.featureCount capacity
  | .connected ensemble _ _ _ =>
    packConnectedFeatures features ensemble.featureCount ensemble.trees.length

/-- The run of a program. `scratch` is what the tensor between two stages held before. -/
def program (math : Arithmetic) (packed scratch : List (List Word)) :
    Backend → Except KernelHalt (List (List Word))
  | .single _ forest output => runSingle math packed forest output
  | .connected _ forestA forestB output => do
    let carried ← runFirst math packed forestA scratch
    runChain math carried forestB output

/-- The predictions in an output buffer. -/
def unpack (after : List (List Word)) (samples : ℕ) : Backend → Except ModelError Predictions
  | .single ensemble _ _ => do
    let capacity ← invocationCapacity ensemble.featureCount
    unpackPredictions after samples ensemble.featureCount ensemble.trees.length capacity
  | .connected ensemble _ _ _ => do
    let capacity ← partitionedInvocationCapacity ensemble.featureCount
    unpackPredictions after samples ensemble.featureCount ensemble.trees.length capacity

/-- The backend after a write to its output buffer. -/
def withOutput (output : List (List Word)) : Backend → Backend
  | .single ensemble forest _ => .single ensemble forest output
  | .connected ensemble forestA forestB _ => .connected ensemble forestA forestB output

end Backend

/-- What a run of the device answers. A run that raises leaves any output. -/
inductive DeviceAnswer
  | completes (scratch : Tensor)
  | raises (message : String) (left : Tensor)

/-- `run` of a backend. -/
def Backend.run (math : Arithmetic) (features : FeatureMatrix) (answer : DeviceAnswer) :
    Effect RuntimeError Backend Predictions := do
  let backend ← Effect.get
  let packed ← Effect.ofExcept ((backend.packFeatures features).mapError .host)
  match answer with
  | .raises message left => do
    Effect.modify (Backend.withOutput left.1)
    Effect.throw (.device message)
  | .completes scratch => do
    let after ← Effect.ofExcept ((backend.program math packed scratch.1).mapError
      fun _ => .device "the kernel accessed memory that is not its own")
    Effect.modify (Backend.withOutput after)
    Effect.ofExcept ((backend.unpack after features.rows.length).mapError .host)

/-! ## The runtime -/

/-- `XGBoostRuntime`. -/
structure XGBoostRuntime where
  backend : Backend
  backendKind : BackendKind
  ensemble : Ensemble
  deriving DecidableEq

/-- A slice of the rows. -/
def slice (features : FeatureMatrix) (start size : ℕ) : FeatureMatrix :=
  ⟨features.width, (features.rows.drop start).take size, fun row hrow =>
    features.rows_width row (List.mem_of_mem_drop (List.mem_of_mem_take hrow))⟩

/-- The predictions of consecutive batches. -/
def concatenate (predictions : List Predictions) : Predictions where
  margins := predictions.flatMap Predictions.margins
  probabilities := predictions.flatMap Predictions.probabilities
  classes := predictions.flatMap Predictions.classes

namespace XGBoostRuntime

/-- The constructor. -/
def create (model : Loaded) (creation : Except String Tensor) :
    Except RuntimeError XGBoostRuntime := do
  let ensemble ← model.mapError .host
  let kind ← (backendKindOf ensemble.1).mapError .host
  let backend ← createBackend ensemble.1 kind creation
  .ok ⟨backend, kind, ensemble.1⟩

/-- `load_model`. `close` is what the release of the old backend answers. -/
def loadModel (model : Loaded) (creation : Except String Tensor) (close : Except String Unit) :
    Effect RuntimeError XGBoostRuntime Unit := do
  let ensemble ← Effect.ofExcept (model.mapError RuntimeError.host)
  let kind ← Effect.ofExcept ((backendKindOf ensemble.1).mapError RuntimeError.host)
  let runtime ← Effect.get
  if kind = runtime.backendKind then do
    let backend ← Effect.ofExcept ((runtime.backend.loadModel ensemble.1).mapError
      RuntimeError.host)
    Effect.modify fun runtime => { runtime with backend }
    Effect.modify fun runtime => { runtime with ensemble := ensemble.1 }
  else do
    let replacement ← Effect.ofExcept (createBackend ensemble.1 kind creation)
    Effect.modify fun runtime => { runtime with backend := replacement, backendKind := kind }
    Effect.ofExcept (close.mapError RuntimeError.device)
    Effect.modify fun runtime => { runtime with ensemble := ensemble.1 }

/-- `batch_capacity`. -/
def capacity (runtime : XGBoostRuntime) : Except ModelError ℕ :=
  match runtime.backendKind with
  | .single => batchCapacity runtime.ensemble.featureCount
  | .connected => partitionedBatchCapacity runtime.ensemble.featureCount

/-- An action on the backend of a runtime. -/
def onBackend {α : Type} (action : Effect RuntimeError Backend α) :
    Effect RuntimeError XGBoostRuntime α :=
  fun runtime =>
    ((action runtime.backend).1, { runtime with backend := (action runtime.backend).2 })

/-- `run`. The batches begin at the multiples of the capacity. -/
def run (math : Arithmetic) (features : FeatureMatrix) (answers : ℕ → DeviceAnswer) :
    Effect RuntimeError XGBoostRuntime Predictions := do
  let runtime ← Effect.get
  Effect.ofExcept ((checkFeatures features runtime.ensemble.featureCount).mapError
    RuntimeError.host)
  if features.rows.length = 0 then pure ⟨[], [], []⟩
  else do
    let capacity ← Effect.ofExcept (runtime.capacity.mapError RuntimeError.host)
    let batches := List.range ((features.rows.length + capacity - 1) / capacity)
    let predictions ← batches.foldlM (fun predictions index => do
      let batch ← onBackend
        (Backend.run math (slice features (index * capacity) capacity) (answers index))
      pure (predictions ++ [batch])) []
    pure (concatenate predictions)

end XGBoostRuntime

end Runtime

end Npunlock
