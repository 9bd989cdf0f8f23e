import Npunlock.IrProtocol

/-!
# The IR worker

`compile_ir` and the `main` of `ir_worker.c`, over the answers of the Level Zero loader
and the NPU driver. A value of `LevelZero` gives, for every call that the worker makes,
the result code and what the call returns, so a theorem about all its values is about
every driver. `.error result` is `goto done` : the calls made there change the result
only if its status is OK, which it is on the last exit and in query mode only.

`workerResult_bounded` : whatever arrives on the input and whatever the driver answers,
the result the worker sends keeps within the limits of the protocol. With the round trips
of the two messages this gives `ir_worker_round_trip`.
-/

namespace Npunlock

/-! ## Answers of the loader and the driver -/

/-- `IR2BLOB_AUTO_INDEX`. -/
def ir2blobAutoIndex : UInt32 := 0xffffffff

/-- The fields of `npunlock_ze_device_properties` that are read. -/
structure ZeDeviceProperties where
  type : UInt32
  vendorId : UInt32
  deviceId : UInt32

/-- The fields of the two device graph properties that are read. The first structure
has no version fields. -/
structure ZeGraphProperties where
  compilerMajor : UInt16
  compilerMinor : UInt16
  graphFormats : UInt32
  maxOpset : UInt32

/-- The answer to each call of the worker. A code of 0 is success, and a function that
the driver does not provide is `none`. -/
structure LevelZero where
  loader : Bool
  exports : Bool
  initDriversCount : UInt32 × UInt32
  driversAllocated : Bool
  initDriversList : UInt32 × UInt32
  deviceGetCount : ℕ → UInt32 × UInt32
  devicesAllocated : ℕ → Bool
  deviceGetList : ℕ → UInt32 × UInt32
  deviceProperties : ℕ → ℕ → UInt32 × ZeDeviceProperties
  driverProperties : ℕ → UInt32 × UInt32
  extensionsCount : UInt32
  extensionsAllocated : Bool
  extensionsList : UInt32 × List (List UInt8 × UInt32)
  extensionAddress : UInt32 × Bool
  getExtension : Option (UInt32 × Bool)
  getProperties2 : Option (UInt32 × ZeGraphProperties × ZeGraphVersion × ZeGraphVersion)
  getProperties : Option (UInt32 × ZeGraphProperties)
  inputsAllocated : Bool
  contextCreate : UInt32
  create2 : Option (List UInt8 → List UInt8 → UInt32 × Bool)
  destroy : Option UInt32
  getNative2 : Option (UInt32 × Option (List UInt8))
  getNativeSize : Option (UInt32 × ℕ)
  getNativeData : UInt32 × ℕ × (ℕ → UInt8)
  blobAllocated : Bool
  reload : List UInt8 → UInt32 × Bool
  destroyReloaded : UInt32
  contextDestroy : UInt32

/-! ## Diagnostics -/

/-- `set_diagnostic`, which keeps the first message. -/
def IrResult.setDiagnostic (result : IrResult) (message : List UInt8) : IrResult :=
  match result.diagnostic with
  | some _ => result
  | none =>
    { result with diagnostic := some ((cString message).take irMaxDiagnosticSize) }

/-- The digits that `%08x` prints. -/
def hex8 (code : UInt32) : List UInt8 :=
  let digits := (Nat.toDigits 16 code.toNat).map fun c => UInt8.ofNat c.toNat
  List.replicate (8 - digits.length) 48 ++ digits

/-- `set_driver_error`. The message buffer holds 192 bytes with the zero. -/
def IrResult.setDriverError (result : IrResult) (code : UInt32) (stage : String) : IrResult :=
  { result with driverResult := code, status := .driverFailed }.setDiagnostic
    ((literal stage ++ literal " returned Level Zero result 0x" ++ hex8 code).take 191)

/-- The result with a failed status and a message. -/
def IrResult.fail (result : IrResult) (status : IrWorkerStatus) (message : String) : IrResult :=
  { result with status := status }.setDiagnostic (literal message)

/-- The result after `memset(result, 0, sizeof(*result))`. -/
def IrResult.zero : IrResult :=
  ⟨.ok, 0, 0, 0, 0, 0, 0, 0, 0, 0, 0, ⟨0, 0, 0⟩, ⟨0, 0, 0⟩, [], none⟩

/-! ## Steps of `compile_ir` -/

/-- The first device of a driver that is requested and is a VPU. -/
def findVpu (ze : LevelZero) (request : IrRequest) (driver : ℕ) (deviceCount : ℕ) : Option ℕ :=
  (List.range deviceCount).find? fun device =>
    (request.deviceIndex = ir2blobAutoIndex ∨ request.deviceIndex.toNat = device) ∧
      (ze.deviceProperties driver device).1 = 0 ∧ (ze.deviceProperties driver device).2.type = 5

/-- The loop of `select_npu` over the drivers, the driver and the device that it selects. -/
def selectDevice (ze : LevelZero) (request : IrRequest) (result : IrResult) :
    List ℕ → Except IrResult (Option (ℕ × ℕ))
  | [] => .ok none
  | driver :: drivers =>
    if request.driverIndex ≠ ir2blobAutoIndex ∧ request.driverIndex.toNat ≠ driver then
      selectDevice ze request result drivers
    else if (ze.deviceGetCount driver).1 ≠ 0 ∨ (ze.deviceGetCount driver).2 = 0 ∨
        request.deviceIndex ≠ ir2blobAutoIndex ∧
          (ze.deviceGetCount driver).2 ≤ request.deviceIndex then
      selectDevice ze request result drivers
    else if ¬ze.devicesAllocated driver then .error { result with status := .outOfMemory }
    else if (ze.deviceGetList driver).1 ≠ 0 then selectDevice ze request result drivers
    else
      match findVpu ze request driver (ze.deviceGetList driver).2.toNat with
      | some device => .ok (some (driver, device))
      | none => selectDevice ze request result drivers

/-- `select_npu`, with the index of the selected driver. -/
def selectNpu (ze : LevelZero) (request : IrRequest) (result : IrResult) :
    Except IrResult (ℕ × IrResult) := do
  refuseIf (ze.initDriversCount.1 ≠ 0)
    (result.setDriverError ze.initDriversCount.1 "zeInitDrivers(count)")
  refuseIf (ze.initDriversCount.2 = 0 ∨ request.driverIndex ≠ ir2blobAutoIndex ∧
      ze.initDriversCount.2 ≤ request.driverIndex)
    (result.fail .npuNotFound "requested NPU Level Zero driver was not found")
  refuseIf (¬ze.driversAllocated) { result with status := .outOfMemory }
  refuseIf (ze.initDriversList.1 ≠ 0)
    (result.setDriverError ze.initDriversList.1 "zeInitDrivers(list)")
  match ← selectDevice ze request result (List.range ze.initDriversList.2.toNat) with
  | some (driver, device) =>
    .ok (driver,
      { result with
        driverIndex := UInt32.ofNat driver
        deviceIndex := UInt32.ofNat device
        vendorId := (ze.deviceProperties driver device).2.vendorId
        deviceId := (ze.deviceProperties driver device).2.deviceId })
  | none => .error (result.fail .npuNotFound "requested Level Zero VPU device was not found")

/-- `find_graph_version`. -/
def findGraphVersion (ze : LevelZero) (result : IrResult) : Except IrResult UInt32 := do
  refuseIf (ze.extensionsCount ≠ 0)
    (result.setDriverError ze.extensionsCount "zeDriverGetExtensionProperties(count)")
  refuseIf (¬ze.extensionsAllocated) { result with status := .outOfMemory }
  refuseIf (ze.extensionsList.1 ≠ 0)
    (result.setDriverError ze.extensionsList.1 "zeDriverGetExtensionProperties(list)")
  let extension := ze.extensionsList.2.find? fun extension =>
    0 ∈ extension.1 ∧ cString extension.1 = literal "ZE_extension_graph"
  let version : UInt32 := (extension.map Prod.snd).getD 0
  refuseIf (version = 0) (result.fail .graphExtensionMissing
    "selected NPU driver does not advertise ZE_extension_graph")
  .ok version

/-- `get_graph_ddi`. -/
def getGraphDdi (ze : LevelZero) (result : IrResult) : Except IrResult Unit := do
  refuseIf (ze.extensionAddress.1 ≠ 0 ∨ ¬ze.extensionAddress.2)
    (result.setDriverError ze.extensionAddress.1 "zeDriverGetExtensionFunctionAddress")
  match ze.getExtension with
  | none => .error (result.fail .symbolMissing "NPU driver extension table is invalid")
  | some (code, ddi) =>
    refuseIf (code ≠ 0 ∨ ¬ddi)
      (result.setDriverError code "ZE_extension_driver_npu::pfnGetExtension")

/-- The fields that both versions of the properties fill, and the check of the formats. -/
def keepGraphProperties (properties : ZeGraphProperties) (result : IrResult) :
    Except IrResult IrResult := do
  let result :=
    { result with
      compilerMajor := properties.compilerMajor
      compilerMinor := properties.compilerMinor
      maxOpset := properties.maxOpset }
  refuseIf (properties.graphFormats &&& 2 = 0)
    (result.fail .unsupported "selected NPU does not advertise NGRAPH_LITE input")
  .ok result

/-- `query_graph_contract`. -/
def queryGraphContract (ze : LevelZero) (result : IrResult) : Except IrResult IrResult :=
  match ze.getProperties2 with
  | some (code, properties, elfVersion, runtimeVersion) => do
    refuseIf (code ≠ 0) (result.setDriverError code "pfnDeviceGetGraphProperties2")
    keepGraphProperties properties
      { result with elfVersion := elfVersion, runtimeVersion := runtimeVersion }
  | none =>
    match ze.getProperties with
    | some (code, properties) => do
      refuseIf (code ≠ 0) (result.setDriverError code "pfnDeviceGetGraphProperties")
      keepGraphProperties properties result
    | none => .error (result.fail .unsupported "graph device-property query is unavailable")

/-- The bytes of `package_ir`. Its sizes cannot overflow, as the request held both parts. -/
def packageIr (request : IrRequest) (result : IrResult) : List UInt8 :=
  fieldBytes 2 result.compilerMajor.toNat ++ fieldBytes 2 result.compilerMinor.toNat ++
    workerStoreU32 2 ++ workerStoreU64 (UInt64.ofNat request.xml.length) ++ request.xml ++
    workerStoreU64 (UInt64.ofNat request.weights.length) ++ request.weights

/-- The compiled graph that the driver returns, by one of two calls. -/
def nativeBinary (ze : LevelZero) (result : IrResult) : Except IrResult (List UInt8) :=
  match ze.getNative2 with
  | some (code, view) =>
    match view with
    | none => .error (result.setDriverError code "pfnGetNativeBinary2")
    | some blob => do
      refuseIf (code ≠ 0 ∨ blob.length = 0 ∨ irMaxResultSize < blob.length)
        (result.setDriverError code "pfnGetNativeBinary2")
      refuseIf (¬ze.blobAllocated) { result with status := .outOfMemory }
      .ok blob
  | none =>
    match ze.getNativeSize with
    | none => .error (result.fail .unsupported
        "required graph Create2/export entry point is unavailable")
    | some (code, size) => do
      refuseIf (code ≠ 0 ∨ size = 0 ∨ irMaxResultSize < size)
        (result.setDriverError code "pfnGetNativeBinary(size)")
      refuseIf (¬ze.blobAllocated) { result with status := .outOfMemory }
      let (code, written, data) := ze.getNativeData
      refuseIf (code ≠ 0 ∨ size < written)
        (result.setDriverError code "pfnGetNativeBinary(data)")
      .ok (slice data 0 written)

/-- The last part of `compile_ir` : the graph is compiled, exported and loaded again. The
two calls of the clean-up follow, whose failures replace an OK status and drop the blob. -/
def compileGraph (ze : LevelZero) (request : IrRequest) (result : IrResult) :
    Except IrResult IrResult := do
  refuseIf (¬ze.inputsAllocated) { result with status := .outOfMemory }
  refuseIf (ze.contextCreate ≠ 0) (result.setDriverError ze.contextCreate "zeContextCreate")
  match ze.create2, ze.destroy with
  | some create2, some destroy => do
    refuseIf (ze.getNative2.isNone ∧ ze.getNativeSize.isNone) (result.fail .unsupported
      "required graph Create2/export entry point is unavailable")
    let (code, graph) := create2 (packageIr request result) request.buildFlags
    refuseIf (code ≠ 0 ∨ ¬graph) (result.setDriverError code "pfnCreate2(NGRAPH_LITE)")
    let blob ← nativeBinary ze result
    refuseIf (blob.length < 4 ∨ blob.take 4 ≠ [0x7f, 0x45, 0x4c, 0x46])
      (result.fail .badResult "compiled native graph is not an ELF container")
    refuseIf (destroy ≠ 0) (result.setDriverError destroy "pfnDestroy(compiled graph)")
    let (code, graph) := ze.reload blob
    refuseIf (code ≠ 0 ∨ ¬graph) (result.setDriverError code "pfnCreate2(native reload)")
    let result := { result with status := .ok, driverResult := 0 }
    refuseIf (ze.destroyReloaded ≠ 0)
      (result.setDriverError ze.destroyReloaded "pfnDestroy(graph)")
    refuseIf (ze.contextDestroy ≠ 0) (result.setDriverError ze.contextDestroy "zeContextDestroy")
    .ok { result with blob := blob }
  | _, _ => .error (result.fail .unsupported
      "required graph Create2/export entry point is unavailable")

/-- `compile_ir` up to its last label. -/
def compileIr (ze : LevelZero) (request : IrRequest) : Except IrResult IrResult := do
  let result := { IrResult.zero with status := .driverFailed }
  refuseIf (¬ze.loader) (result.fail .loaderNotFound
    "Level Zero loader ze_loader.dll was not found in System32")
  refuseIf (¬ze.exports) (result.fail .symbolMissing
    "Level Zero loader is missing a required export")
  let (driver, result) ← selectNpu ze request result
  let (code, driverVersion) := ze.driverProperties driver
  refuseIf (code ≠ 0) (result.setDriverError code "zeDriverGetProperties")
  let result := { result with driverVersion := driverVersion }
  let graphVersion ← findGraphVersion ze result
  let result := { result with graphVersion := graphVersion }
  getGraphDdi ze result
  let result ← queryGraphContract ze result
  if request.mode = irModeQuery then .ok { result with status := .ok, driverResult := 0 }
  else compileGraph ze request result

/-- The result that the worker's `main` sends, for what arrives on its input. -/
def Ir.workerResult (ze : LevelZero) (input : Option (List (Option (List UInt8)))) : IrResult :=
  let result := { IrResult.zero with status := .badRequest }
  match input.bind fun reads => workerReadAll irMaxMessageSize reads [] with
  | none => result.setDiagnostic (literal "failed to read the IR worker request")
  | some data =>
    match Ir.parseRequest data with
    | none => result.setDiagnostic (literal "malformed IR worker request")
    | some request =>
      match compileIr ze request with
      | .ok result => result
      | .error result => result

/-! ## Limits of the result -/

/-- The limits that the worker keeps : the size of the blob, and a diagnostic without
zeros of at most `NPUNLOCK_IR_MAX_DIAGNOSTIC_SIZE` bytes. -/
structure IrResult.Bounded (result : IrResult) : Prop where
  blob_le : result.blob.length ≤ irMaxResultSize
  diagnostic_le : ∀ diagnostic ∈ result.diagnostic,
    diagnostic.length ≤ irMaxDiagnosticSize ∧ 0 ∉ diagnostic

namespace IrResult.Bounded

variable {result : IrResult}

theorem setDiagnostic (h : result.Bounded) (message : List UInt8) :
    (result.setDiagnostic message).Bounded := by
  unfold IrResult.setDiagnostic
  split
  · exact h
  · refine ⟨h.blob_le, fun diagnostic hd => ?_⟩
    obtain rfl : (cString message).take irMaxDiagnosticSize = diagnostic := by simpa using hd
    exact ⟨List.length_take_le _ _,
      fun hmem => zero_notMem_cString message (List.mem_of_mem_take hmem)⟩

/-- The other fields of a result have no limits. -/
theorem congr {result' : IrResult} (h : result.Bounded) (hblob : result'.blob = result.blob)
    (hdiagnostic : result'.diagnostic = result.diagnostic) : result'.Bounded :=
  ⟨hblob ▸ h.blob_le, hdiagnostic ▸ h.diagnostic_le⟩

theorem setDriverError (h : result.Bounded) (code : UInt32) (stage : String) :
    (result.setDriverError code stage).Bounded := by
  have hset : IrResult.Bounded { result with driverResult := code, status := .driverFailed } :=
    h.congr rfl rfl
  exact hset.setDiagnostic _

theorem fail (h : result.Bounded) (status : IrWorkerStatus) (message : String) :
    (result.fail status message).Bounded := by
  have hset : IrResult.Bounded { result with status := status } := h.congr rfl rfl
  exact hset.setDiagnostic _

theorem outOfMemory (h : result.Bounded) :
    IrResult.Bounded { result with status := .outOfMemory } :=
  h.congr rfl rfl

theorem diagnosticBytes_le (h : result.Bounded) :
    result.diagnosticBytes.length ≤ irMaxDiagnosticSize := by
  unfold IrResult.diagnosticBytes
  split
  · exact Nat.zero_le _
  · rename_i diagnostic heq
    exact (List.takeWhile_sublist _).length_le.trans (h.diagnostic_le diagnostic heq).1

/-- The parent receives the whole diagnostic, as it holds no zero. -/
theorem diagnosticBytes_eq (h : result.Bounded) :
    result.diagnosticBytes = result.diagnostic.getD [] := by
  unfold IrResult.diagnosticBytes
  split
  · rename_i heq
    rw [heq, Option.getD_none]
  · rename_i diagnostic heq
    rw [heq, Option.getD_some, cString, List.takeWhile_eq_self_iff]
    intro byte hbyte
    have hzero := (h.diagnostic_le diagnostic heq).2
    simpa using fun hb : byte = 0 => hzero (hb ▸ hbyte)

end IrResult.Bounded

/-- A computation that stops with a bounded result and goes on with a value of `P`. -/
abbrev StopsBounded {α : Type} (x : Except IrResult α) (P : α → Prop) : Prop :=
  Meets (fun result => ¬result.Bounded) x P

variable {ze : LevelZero} {request : IrRequest} {result : IrResult}

theorem stopsBounded_refuseIf {c : Prop} {_ : Decidable c} (h : result.Bounded) :
    StopsBounded (refuseIf c result) fun _ => ¬c :=
  Meets.refuseIf (by simpa using h)

theorem selectDevice_bounded (h : result.Bounded) :
    ∀ drivers, StopsBounded (selectDevice ze request result drivers) fun _ => True
  | [] => .ok trivial
  | driver :: drivers => by
    have ih := selectDevice_bounded h drivers
    rw [selectDevice]
    refine Meets.ite (fun _ => ih) fun _ => Meets.ite (fun _ => ih) fun _ => ?_
    refine Meets.ite (fun _ => .error (not_not.2 h.outOfMemory)) fun _ => ?_
    refine Meets.ite (fun _ => ih) fun _ => ?_
    split
    · exact .ok trivial
    · exact ih

theorem selectNpu_bounded (h : result.Bounded) :
    StopsBounded (selectNpu ze request result) fun p => p.2.Bounded := by
  refine (stopsBounded_refuseIf (h.setDriverError _ _)).bind fun _ _ => ?_
  refine (stopsBounded_refuseIf (h.fail _ _)).bind fun _ _ => ?_
  refine (stopsBounded_refuseIf h.outOfMemory).bind fun _ _ => ?_
  refine (stopsBounded_refuseIf (h.setDriverError _ _)).bind fun _ _ => ?_
  refine (selectDevice_bounded h _).bind fun selected _ => ?_
  split
  · exact .ok (h.congr rfl rfl)
  · exact .error (not_not.2 (h.fail _ _))

theorem findGraphVersion_bounded (h : result.Bounded) :
    StopsBounded (findGraphVersion ze result) fun _ => True := by
  unfold findGraphVersion
  refine (stopsBounded_refuseIf (h.setDriverError _ _)).bind fun _ _ => ?_
  refine (stopsBounded_refuseIf h.outOfMemory).bind fun _ _ => ?_
  refine (stopsBounded_refuseIf (h.setDriverError _ _)).bind fun _ _ => ?_
  exact (stopsBounded_refuseIf (h.fail _ _)).bind fun _ _ => .ok trivial

theorem getGraphDdi_bounded (h : result.Bounded) :
    StopsBounded (getGraphDdi ze result) fun _ => True := by
  refine (stopsBounded_refuseIf (h.setDriverError _ _)).bind fun _ _ => ?_
  split
  · exact .error (not_not.2 (h.fail _ _))
  · exact (stopsBounded_refuseIf (h.setDriverError _ _)).mono fun _ _ => trivial

theorem keepGraphProperties_bounded (h : result.Bounded) (properties : ZeGraphProperties) :
    StopsBounded (keepGraphProperties properties result) fun result => result.Bounded := by
  have hkept : IrResult.Bounded
      { result with
        compilerMajor := properties.compilerMajor
        compilerMinor := properties.compilerMinor
        maxOpset := properties.maxOpset } := h.congr rfl rfl
  exact (stopsBounded_refuseIf (hkept.fail _ _)).bind fun _ _ => .ok hkept

theorem queryGraphContract_bounded (h : result.Bounded) :
    StopsBounded (queryGraphContract ze result) fun result => result.Bounded := by
  unfold queryGraphContract
  split
  · rename_i code properties elfVersion runtimeVersion _
    have hversions : IrResult.Bounded
        { result with elfVersion := elfVersion, runtimeVersion := runtimeVersion } :=
      h.congr rfl rfl
    exact (stopsBounded_refuseIf (h.setDriverError _ _)).bind fun _ _ =>
      keepGraphProperties_bounded hversions _
  · split
    · exact (stopsBounded_refuseIf (h.setDriverError _ _)).bind fun _ _ =>
        keepGraphProperties_bounded h _
    · exact .error (not_not.2 (h.fail _ _))

/-- The native graph is no larger than a response may hold. -/
theorem nativeBinary_bounded (h : result.Bounded) :
    StopsBounded (nativeBinary ze result) fun blob => blob.length ≤ irMaxResultSize := by
  unfold nativeBinary
  split
  · split
    · exact .error (not_not.2 (h.setDriverError _ _))
    · refine (stopsBounded_refuseIf (h.setDriverError _ _)).bind fun _ hsize => ?_
      refine (stopsBounded_refuseIf h.outOfMemory).bind fun _ _ => .ok ?_
      omega
  · split
    · exact .error (not_not.2 (h.fail _ _))
    · refine (stopsBounded_refuseIf (h.setDriverError _ _)).bind fun _ hsize => ?_
      refine (stopsBounded_refuseIf h.outOfMemory).bind fun _ _ => ?_
      refine (stopsBounded_refuseIf (h.setDriverError _ _)).bind fun _ hwritten => .ok ?_
      rw [length_slice]
      omega

theorem compileGraph_bounded (h : result.Bounded) :
    StopsBounded (compileGraph ze request result) fun result => result.Bounded := by
  have hok : IrResult.Bounded { result with status := .ok, driverResult := 0 } :=
    h.congr rfl rfl
  refine (stopsBounded_refuseIf h.outOfMemory).bind fun _ _ => ?_
  refine (stopsBounded_refuseIf (h.setDriverError _ _)).bind fun _ _ => ?_
  split
  · refine (stopsBounded_refuseIf (h.fail _ _)).bind fun _ _ => ?_
    refine (stopsBounded_refuseIf (h.setDriverError _ _)).bind fun _ _ => ?_
    refine (nativeBinary_bounded h).bind fun blob hblob => ?_
    refine (stopsBounded_refuseIf (h.fail _ _)).bind fun _ _ => ?_
    refine (stopsBounded_refuseIf (h.setDriverError _ _)).bind fun _ _ => ?_
    refine (stopsBounded_refuseIf (h.setDriverError _ _)).bind fun _ _ => ?_
    refine (stopsBounded_refuseIf (hok.setDriverError _ _)).bind fun _ _ => ?_
    exact (stopsBounded_refuseIf (hok.setDriverError _ _)).bind fun _ _ =>
      .ok ⟨hblob, h.diagnostic_le⟩
  · exact .error (not_not.2 (h.fail _ _))

theorem compileIr_bounded (ze : LevelZero) (request : IrRequest) :
    StopsBounded (compileIr ze request) fun result => result.Bounded := by
  have h : IrResult.Bounded { IrResult.zero with status := .driverFailed } :=
    ⟨Nat.zero_le _, by simp [IrResult.zero]⟩
  refine (stopsBounded_refuseIf (h.fail _ _)).bind fun _ _ => ?_
  refine (stopsBounded_refuseIf (h.fail _ _)).bind fun _ _ => ?_
  refine (selectNpu_bounded h).bind fun (driver, result) hresult => ?_
  refine (stopsBounded_refuseIf (hresult.setDriverError _ _)).bind fun _ _ => ?_
  have hdriver : IrResult.Bounded
      { result with driverVersion := (ze.driverProperties driver).2 } := hresult.congr rfl rfl
  refine (findGraphVersion_bounded hdriver).bind fun version _ => ?_
  have hversion : IrResult.Bounded
      { result with
        driverVersion := (ze.driverProperties driver).2
        graphVersion := version } := hresult.congr rfl rfl
  refine (getGraphDdi_bounded hversion).bind fun _ _ => ?_
  refine (queryGraphContract_bounded hversion).bind fun result hresult => ?_
  exact Meets.ite (fun _ => .ok (hresult.congr rfl rfl)) fun _ => compileGraph_bounded hresult

/-- Every result that the worker sends, for any input and any driver. -/
theorem Ir.workerResult_bounded (ze : LevelZero)
    (input : Option (List (Option (List UInt8)))) : (Ir.workerResult ze input).Bounded := by
  have h : IrResult.Bounded { IrResult.zero with status := .badRequest } :=
    ⟨Nat.zero_le _, by simp [IrResult.zero]⟩
  unfold Ir.workerResult
  dsimp only
  split
  · exact h.setDiagnostic _
  · split
    · exact h.setDiagnostic _
    · rename_i request _
      split
      · rename_i result hok
        exact (compileIr_bounded ze request).value result hok
      · rename_i result herror
        exact not_not.1 ((compileIr_bounded ze request).not_bad result herror)

/-! ## The round trip -/

theorem Ir.responseStatus_eq_ok_iff (status : IrWorkerStatus) :
    Ir.responseStatus status.code = .ok ↔ status = .ok := by
  cases status <;> decide

/-- Requests and responses of the IR worker. A request that the parent builds arrives, in
whatever pieces, as the same fields. The response to any input under any driver fits in
what the parent reads, and the parent's parser accepts it with the worker's status, blob
and diagnostic. Neither parser accepts a proper prefix or an extension of a message that
it accepts. -/
theorem ir_worker_round_trip :
    (∀ request message (chunks : List (List UInt8)), Ir.buildRequest request = .ok message →
      (∀ chunk ∈ chunks, chunk ≠ []) → chunks.flatten = message →
        workerReadAll irMaxMessageSize (chunks.map some) [] = some message ∧
          Ir.parseRequest message = some request) ∧
    (∀ ze input,
      let result := Ir.workerResult ze input
      let response := Ir.sendResponse result
      response.length ≤ irResponseHeaderSize + irMaxResultSize + irMaxDiagnosticSize ∧
        ∃ received, Ir.parseResponse response =
            .ok (Ir.responseStatus result.status.code, received) ∧
          (Ir.responseStatus result.status.code = .ok ↔ result.status = .ok) ∧
          received.workerStatus = result.status.code ∧ received.graphBlob = result.blob ∧
          received.diagnostic = result.diagnostic.getD []) ∧
    (∀ m m', (Ir.parseRequest m).isSome → List.IsPrefix m m' ∨ List.IsPrefix m' m → m ≠ m' →
      Ir.parseRequest m' = none) ∧
    ∀ m m', succeeds (Ir.parseResponse m) → List.IsPrefix m m' ∨ List.IsPrefix m' m → m ≠ m' →
      ¬succeeds (Ir.parseResponse m') := by
  refine ⟨fun request message chunks hbuild hchunks hflatten => ?_, fun ze input => ?_, ?_, ?_⟩
  · obtain ⟨hsendable, rfl⟩ := Ir.buildRequest_eq_ok_iff.1 hbuild
    have hlength : (Ir.requestMessage request).length ≤ irMaxMessageSize := by
      rw [Ir.length_requestMessage]
      exact hsendable.size_le
    refine ⟨?_, Ir.parseRequest_requestMessage hsendable⟩
    rw [workerReadAll_chunks chunks [] hchunks (by rw [hflatten]; simpa using hlength), hflatten,
      List.nil_append]
  · have h := Ir.workerResult_bounded ze input
    refine ⟨?_, _, Ir.parseResponse_sendResponse h.blob_le h.diagnosticBytes_le,
      Ir.responseStatus_eq_ok_iff _, rfl, rfl, h.diagnosticBytes_eq⟩
    have hblob := h.blob_le
    have hdiagnostic := h.diagnosticBytes_le
    rw [Ir.length_sendResponse, irResponseHeaderSize]
    omega
  · intro m m' hm hbegins hne
    by_contra hm'
    have hm' : (Ir.parseRequest m').isSome := Option.isSome_iff_ne_none.2 hm'
    rcases hbegins with hbegins | hbegins
    · exact hne (Ir.announced_parseRequest.eq_of_prefix hm hm' hbegins)
    · exact hne (Ir.announced_parseRequest.eq_of_prefix hm' hm hbegins).symm
  · intro m m' hm hbegins hne hm'
    rcases hbegins with hbegins | hbegins
    · exact hne (Ir.announced_parseResponse.eq_of_prefix hm hm' hbegins)
    · exact hne (Ir.announced_parseResponse.eq_of_prefix hm' hm hbegins).symm

/-- A compile request of three parts. -/
def irSampleRequest : IrRequest :=
  ⟨0, 1, 0xffffffff, [60, 97, 47, 62], [1, 0, 2], [45, 45, 97]⟩

/-- The sample request, delivered in two pieces. -/
theorem ir_worker_round_trip_example :
    Ir.parseRequest (Ir.requestMessage irSampleRequest) = some irSampleRequest :=
  (ir_worker_round_trip.1 irSampleRequest _
    [(Ir.requestMessage irSampleRequest).take 20, (Ir.requestMessage irSampleRequest).drop 20]
    (by decide) (by decide) (by simp)).2

end Npunlock
