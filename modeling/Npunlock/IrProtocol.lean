import Npunlock.WorkerProtocol

/-!
# The IR worker protocol

The request that `ir_worker_win32.c` builds and `ir_worker.c` parses, and the response
that the worker sends and the parent parses, each side with its own checks.

`parseResponse` tells the early `return NPUNLOCK_STATUS_DRIVER_FAILED` of a response it
cannot read, `.error` with the fields read so far, from the status of a response it has
read. The two functions check pointers and allocations too; these are not modelled.
-/

namespace Npunlock

/-! ## Constants of the protocol -/

def irRequestMagic : UInt32 := 0x4957504e

def irResponseMagic : UInt32 := 0x4f57504e

def irProtocolVersion : UInt32 := 1

def irRequestHeaderSize : ℕ := 48

def irResponseHeaderSize : ℕ := 88

def irMaxMessageSize : ℕ := 256 * 1024 * 1024

def irMaxResultSize : ℕ := 512 * 1024 * 1024

def irMaxDiagnosticSize : ℕ := 64 * 1024

/-- `NPUNLOCK_IR_WORKER_COMPILE`. -/
def irModeCompile : UInt32 := 0

/-- `NPUNLOCK_IR_WORKER_QUERY`. -/
def irModeQuery : UInt32 := 1

/-- `npunlock_ir_worker_status`, in the order of its codes. -/
inductive IrWorkerStatus
  | ok
  | badRequest
  | outOfMemory
  | loaderNotFound
  | symbolMissing
  | npuNotFound
  | graphExtensionMissing
  | unsupported
  | driverFailed
  | badResult
  deriving DecidableEq

/-- The code of a status in a response. -/
def IrWorkerStatus.code : IrWorkerStatus → UInt32
  | .ok => 0
  | .badRequest => 1
  | .outOfMemory => 2
  | .loaderNotFound => 3
  | .symbolMissing => 4
  | .npuNotFound => 5
  | .graphExtensionMissing => 6
  | .unsupported => 7
  | .driverFailed => 8
  | .badResult => 9

/-! ## Requests -/

/-- `ir_request`, and the arguments of `build_request`. -/
structure IrRequest where
  mode : UInt32
  driverIndex : UInt32
  deviceIndex : UInt32
  xml : List UInt8
  weights : List UInt8
  buildFlags : List UInt8
  deriving DecidableEq

/-- The checked sum of a request's parts. -/
def irRequestSize (xmlSize weightsSize flagsSize : ℕ) : Option ℕ := do
  let total ← checkedAddSize irRequestHeaderSize xmlSize
  let total ← checkedAddSize total weightsSize
  checkedAddSize total flagsSize

/-- The parent's `build_request`. -/
def Ir.buildRequest (request : IrRequest) : Except NpunlockStatus (List UInt8) := do
  let { mode, driverIndex, deviceIndex, xml, weights, buildFlags } := request
  refuseIf (irModeQuery < mode ∨ mode = irModeCompile ∧ xml.length = 0 ∨
    mode = irModeQuery ∧ (xml.length ≠ 0 ∨ weights.length ≠ 0 ∨ buildFlags.length ≠ 0) ∨
    uint32Max < buildFlags.length ∨ 0 ∈ buildFlags) .invalidArgument
  match irRequestSize xml.length weights.length buildFlags.length with
  | none => .error .invalidArgument
  | some total =>
    refuseIf (irMaxMessageSize < total) .invalidArgument
    .ok (storeFields irRequestHeaderSize
      [(0, workerStoreU32 irRequestMagic),
        (4, workerStoreU32 irProtocolVersion),
        (8, workerStoreU32 driverIndex),
        (12, workerStoreU32 deviceIndex),
        (16, workerStoreU64 (UInt64.ofNat xml.length)),
        (24, workerStoreU64 (UInt64.ofNat weights.length)),
        (32, workerStoreU32 (UInt32.ofNat buildFlags.length)),
        (36, workerStoreU32 mode)] ++ xml ++ weights ++ buildFlags)

/-- The worker's `parse_request`. -/
def Ir.parseRequest (data : List UInt8) : Option IrRequest :=
  if data.length < irRequestHeaderSize ∨ workerLoadU32 data 0 ≠ irRequestMagic ∨
      workerLoadU32 data 4 ≠ irProtocolVersion ∨ irModeQuery < workerLoadU32 data 36 ∨
      workerLoadU64 data 40 ≠ 0 then none
  else
    let xmlSize := (workerLoadU64 data 16).toNat
    let weightsSize := (workerLoadU64 data 24).toNat
    let flagsSize := (workerLoadU32 data 32).toNat
    let mode := workerLoadU32 data 36
    if mode = irModeCompile ∧ xmlSize = 0 ∨
        mode = irModeQuery ∧ (xmlSize ≠ 0 ∨ weightsSize ≠ 0 ∨ flagsSize ≠ 0) ∨
        irRequestSize xmlSize weightsSize flagsSize ≠ some data.length then none
    else
      let payload := data.drop irRequestHeaderSize
      let buildFlags := (payload.drop (xmlSize + weightsSize)).take flagsSize
      if 0 ∈ buildFlags then none
      else some
        { mode := mode
          driverIndex := workerLoadU32 data 8
          deviceIndex := workerLoadU32 data 12
          xml := payload.take xmlSize
          weights := (payload.drop xmlSize).take weightsSize
          buildFlags := buildFlags }

theorem irRequestSize_eq_some_iff {xmlSize weightsSize flagsSize total : ℕ} :
    irRequestSize xmlSize weightsSize flagsSize = some total ↔
      48 + xmlSize + weightsSize + flagsSize ≤ sizeMax ∧
        48 + xmlSize + weightsSize + flagsSize = total := by
  simp only [irRequestSize, irRequestHeaderSize, Option.bind_eq_bind, Option.bind_eq_some_iff,
    checkedAddSize_eq_some_iff]
  constructor
  · rintro ⟨a, ⟨ha, rfl⟩, b, ⟨hb, rfl⟩, hc, rfl⟩
    exact ⟨hc, rfl⟩
  · rintro ⟨hle, rfl⟩
    exact ⟨_, ⟨by omega, rfl⟩, _, ⟨by omega, rfl⟩, hle, rfl⟩

/-- The header as its fields in order, the reserved bytes last. -/
theorem irRequestHeader_eq (driverIndex deviceIndex flags mode : UInt32) (xml weights : UInt64) :
    storeFields irRequestHeaderSize
      [(0, workerStoreU32 irRequestMagic), (4, workerStoreU32 irProtocolVersion),
        (8, workerStoreU32 driverIndex), (12, workerStoreU32 deviceIndex),
        (16, workerStoreU64 xml), (24, workerStoreU64 weights), (32, workerStoreU32 flags),
        (36, workerStoreU32 mode)] =
      workerStoreU32 irRequestMagic ++ (workerStoreU32 irProtocolVersion ++
        (workerStoreU32 driverIndex ++ (workerStoreU32 deviceIndex ++ (workerStoreU64 xml ++
          (workerStoreU64 weights ++ (workerStoreU32 flags ++ (workerStoreU32 mode ++
            workerStoreU64 0))))))) := by
  rw [storeFields_consecutive]
  · simp [irRequestHeaderSize, workerStoreU64_zero]
  · simp [Consecutive]
  · simp [irRequestHeaderSize]

/-- The message of a request, field by field. -/
def Ir.requestMessage (request : IrRequest) : List UInt8 :=
  workerStoreU32 irRequestMagic ++ (workerStoreU32 irProtocolVersion ++
    (workerStoreU32 request.driverIndex ++ (workerStoreU32 request.deviceIndex ++
      (workerStoreU64 (UInt64.ofNat request.xml.length) ++
        (workerStoreU64 (UInt64.ofNat request.weights.length) ++
          (workerStoreU32 (UInt32.ofNat request.buildFlags.length) ++
            (workerStoreU32 request.mode ++ (workerStoreU64 0 ++
              (request.xml ++ (request.weights ++ request.buildFlags))))))))))

/-- The requests that the parent sends. -/
structure IrRequest.Sendable (request : IrRequest) : Prop where
  mode_le : request.mode ≤ irModeQuery
  compile : request.mode = irModeCompile → request.xml.length ≠ 0
  query : request.mode = irModeQuery →
    request.xml.length = 0 ∧ request.weights.length = 0 ∧ request.buildFlags.length = 0
  flags : 0 ∉ request.buildFlags
  size_le : 48 + request.xml.length + request.weights.length + request.buildFlags.length ≤
    irMaxMessageSize

theorem Ir.length_requestMessage (request : IrRequest) :
    (Ir.requestMessage request).length =
      48 + request.xml.length + request.weights.length + request.buildFlags.length := by
  simp only [Ir.requestMessage, List.length_append, length_workerStoreU32, length_workerStoreU64]
  omega

/-- `build_request` writes the message of the requests it accepts. -/
theorem Ir.buildRequest_eq_ok_iff {request : IrRequest} {message : List UInt8} :
    Ir.buildRequest request = .ok message ↔
      request.Sendable ∧ message = Ir.requestMessage request := by
  have hmax : irMaxMessageSize ≤ uint32Max := by decide
  have hsize : uint32Max ≤ sizeMax := by decide
  unfold Ir.buildRequest
  simp only [refuseIf_bind_eq_ok_iff, irRequestHeader_eq, List.append_assoc]
  rcases htotal : irRequestSize request.xml.length request.weights.length
    request.buildFlags.length with _ | total
  · have hlarge : ¬48 + request.xml.length + request.weights.length +
        request.buildFlags.length ≤ sizeMax := fun hle =>
      by simpa [htotal] using irRequestSize_eq_some_iff.2 ⟨hle, rfl⟩
    simp only [reduceCtorEq, and_false, false_iff, not_and]
    exact fun h => absurd (h.size_le.trans (hmax.trans hsize)) hlarge
  · obtain ⟨hle, rfl⟩ := irRequestSize_eq_some_iff.1 htotal
    simp only [refuseIf_bind_eq_ok_iff, Except.ok.injEq, not_or, not_and, not_lt,
      UInt32.not_lt]
    constructor
    · rintro ⟨⟨hmode, hcompile, hquery, _, hflags⟩, htotal, rfl⟩
      exact ⟨⟨hmode, hcompile, fun h => by simpa using hquery h, hflags, htotal⟩, rfl⟩
    · rintro ⟨h, rfl⟩
      exact ⟨⟨h.mode_le, h.compile, fun hq => by simpa using h.query hq,
        by have := h.size_le; omega, h.flags⟩, h.size_le, rfl⟩

/-- The header fields of a request's message. -/
theorem Ir.requestMessage_fields (request : IrRequest) :
    let data := Ir.requestMessage request
    (workerLoadU32 data 0 = irRequestMagic ∧ workerLoadU32 data 4 = irProtocolVersion ∧
      workerLoadU32 data 8 = request.driverIndex ∧ workerLoadU32 data 12 = request.deviceIndex) ∧
    workerLoadU64 data 16 = UInt64.ofNat request.xml.length ∧
    workerLoadU64 data 24 = UInt64.ofNat request.weights.length ∧
    workerLoadU32 data 32 = UInt32.ofNat request.buildFlags.length ∧
    workerLoadU32 data 36 = request.mode ∧ workerLoadU64 data 40 = 0 ∧
    data.drop irRequestHeaderSize = request.xml ++ (request.weights ++ request.buildFlags) := by
  simp [Ir.requestMessage, irRequestHeaderSize]

/-- The worker recovers the request. -/
theorem Ir.parseRequest_requestMessage {request : IrRequest} (h : request.Sendable) :
    Ir.parseRequest (Ir.requestMessage request) = some request := by
  have hmax : irMaxMessageSize ≤ uint32Max := by decide
  have hsize : uint32Max ≤ sizeMax := by decide
  have hle := h.size_le
  have hlength := Ir.length_requestMessage request
  have hxml : (UInt64.ofNat request.xml.length).toNat = request.xml.length :=
    toNat_ofNat_size (by omega)
  have hweights : (UInt64.ofNat request.weights.length).toNat = request.weights.length :=
    toNat_ofNat_size (by omega)
  have hflags : (UInt32.ofNat request.buildFlags.length).toNat = request.buildFlags.length :=
    toNat_ofNat_size32 (by omega)
  obtain ⟨⟨hmagic, hversion, hdriver, hdevice⟩, hxmlField, hweightsField, hflagsField, hmode,
    hreserved, hpayload⟩ := Ir.requestMessage_fields request
  have hsum : irRequestSize request.xml.length request.weights.length
      request.buildFlags.length = some (Ir.requestMessage request).length :=
    irRequestSize_eq_some_iff.2 ⟨by omega, hlength.symm⟩
  unfold Ir.parseRequest
  rw [hmagic, hversion, hdriver, hdevice, hxmlField, hweightsField, hflagsField, hmode,
    hreserved, hpayload, hxml, hweights, hflags]
  rw [if_neg, if_neg]
  · simp [← List.drop_drop, h.flags]
  · simp only [not_or, not_and, not_not]
    exact ⟨h.compile, h.query, hsum⟩
  · simp only [not_or, not_not, not_lt, UInt32.not_lt]
    exact ⟨by rw [irRequestHeaderSize]; omega, trivial, trivial, h.mode_le, trivial⟩

/-- The length that a request's header announces. -/
def Ir.announcedRequest (header : List UInt8) : ℕ :=
  irRequestHeaderSize + (workerLoadU64 header 16).toNat + (workerLoadU64 header 24).toNat +
    (workerLoadU32 header 32).toNat

theorem Ir.announced_parseRequest :
    Announced (fun m => (Ir.parseRequest m).isSome) irRequestHeaderSize Ir.announcedRequest where
  header_le m hm := by
    by_contra hlt
    have hnone : Ir.parseRequest m = none := if_pos (Or.inl (by omega))
    simp [hnone] at hm
  length_eq m hm := by
    unfold Ir.parseRequest at hm
    dsimp only at hm
    split_ifs at hm with hheader hsizes hflags
    · simp at hm
    · simp at hm
    · simp at hm
    simp only [not_or, not_not] at hsizes
    obtain ⟨-, hlength⟩ := irRequestSize_eq_some_iff.1 hsizes.2.2
    unfold Ir.announcedRequest
    rw [workerLoadU64_take (by decide), workerLoadU64_take (by decide),
      workerLoadU32_take (by decide)]
    exact hlength.symm

/-! ## Responses -/

/-- `npunlock_ze_graph_version`. -/
structure ZeGraphVersion where
  major : UInt32
  minor : UInt32
  patch : UInt32
  deriving DecidableEq

/-- The worker's `ir_result`. The diagnostic is a C string, if one is set. -/
structure IrResult where
  status : IrWorkerStatus
  driverResult : UInt32
  driverIndex : UInt32
  deviceIndex : UInt32
  graphVersion : UInt32
  compilerMajor : UInt16
  compilerMinor : UInt16
  maxOpset : UInt32
  driverVersion : UInt32
  vendorId : UInt32
  deviceId : UInt32
  elfVersion : ZeGraphVersion
  runtimeVersion : ZeGraphVersion
  blob : List UInt8
  diagnostic : Option (List UInt8)
  deriving DecidableEq

/-- What `parse_response` writes of the parent's `npunlock_ir_worker_result`. -/
structure IrWorkerResult where
  graphBlob : List UInt8
  diagnostic : List UInt8
  workerStatus : UInt32
  driverResult : UInt32
  selectedDriverIndex : UInt32
  selectedDeviceIndex : UInt32
  graphExtensionVersion : UInt32
  compilerVersionMajor : UInt16
  compilerVersionMinor : UInt16
  maxOpsetVersion : UInt32
  driverVersion : UInt32
  deviceVendorId : UInt32
  deviceId : UInt32
  elfVersion : ZeGraphVersion
  runtimeVersion : ZeGraphVersion
  deriving DecidableEq

/-- The record after `memset(result, 0, sizeof(*result))`. -/
def IrWorkerResult.zero : IrWorkerResult :=
  ⟨[], [], 0, 0, 0, 0, 0, 0, 0, 0, 0, 0, 0, ⟨0, 0, 0⟩, ⟨0, 0, 0⟩⟩

/-- The bytes that `send_response` sends for a diagnostic, up to its zero. -/
def IrResult.diagnosticBytes (result : IrResult) : List UInt8 :=
  match result.diagnostic with
  | none => []
  | some diagnostic => cString diagnostic

/-- The worker's `send_response`, the bytes it writes. -/
def Ir.sendResponse (result : IrResult) : List UInt8 :=
  storeFields irResponseHeaderSize
    [(0, workerStoreU32 irResponseMagic),
      (4, workerStoreU32 irProtocolVersion),
      (8, workerStoreU32 result.status.code),
      (12, workerStoreU32 result.driverResult),
      (16, workerStoreU32 result.driverIndex),
      (20, workerStoreU32 result.deviceIndex),
      (24, workerStoreU32 result.graphVersion),
      (28, workerStoreU32
        (result.compilerMajor.toUInt32 ||| result.compilerMinor.toUInt32 <<< 16)),
      (32, workerStoreU32 result.maxOpset),
      (36, workerStoreU32 result.driverVersion),
      (40, workerStoreU32 result.vendorId),
      (44, workerStoreU32 result.deviceId),
      (48, workerStoreU32 result.elfVersion.major),
      (52, workerStoreU32 result.elfVersion.minor),
      (56, workerStoreU32 result.elfVersion.patch),
      (60, workerStoreU32 result.runtimeVersion.major),
      (64, workerStoreU32 result.runtimeVersion.minor),
      (68, workerStoreU32 result.runtimeVersion.patch),
      (72, workerStoreU64 (UInt64.ofNat result.blob.length)),
      (80, workerStoreU64 (UInt64.ofNat result.diagnosticBytes.length))] ++
    result.blob ++ result.diagnosticBytes

/-- The checked sum of a response's parts. -/
def irResponseSize (blobSize diagnosticSize : ℕ) : Option ℕ := do
  let expected ← checkedAddSize irResponseHeaderSize blobSize
  checkedAddSize expected diagnosticSize

/-- The status that the parent returns for a worker status. -/
def Ir.responseStatus (workerStatus : UInt32) : NpunlockStatus :=
  if workerStatus = IrWorkerStatus.ok.code then .ok
  else if workerStatus = IrWorkerStatus.outOfMemory.code then .outOfMemory
  else if workerStatus = IrWorkerStatus.loaderNotFound.code ∨
    workerStatus = IrWorkerStatus.npuNotFound.code then .notFound
  else if workerStatus = IrWorkerStatus.graphExtensionMissing.code ∨
    workerStatus = IrWorkerStatus.unsupported.code then .unsupported
  else if workerStatus = IrWorkerStatus.badRequest.code then .invalidArgument
  else .driverFailed

/-- The parent's `parse_response`. -/
def Ir.parseResponse (response : List UInt8) :
    Except IrWorkerResult (NpunlockStatus × IrWorkerResult) :=
  if response.length < irResponseHeaderSize ∨ workerLoadU32 response 0 ≠ irResponseMagic ∨
      workerLoadU32 response 4 ≠ irProtocolVersion then .error IrWorkerResult.zero
  else
    let result : IrWorkerResult :=
      { IrWorkerResult.zero with
        workerStatus := workerLoadU32 response 8
        driverResult := workerLoadU32 response 12
        selectedDriverIndex := workerLoadU32 response 16
        selectedDeviceIndex := workerLoadU32 response 20
        graphExtensionVersion := workerLoadU32 response 24
        compilerVersionMajor := (workerLoadU32 response 28).toUInt16
        compilerVersionMinor := (workerLoadU32 response 28 >>> 16).toUInt16
        maxOpsetVersion := workerLoadU32 response 32
        driverVersion := workerLoadU32 response 36
        deviceVendorId := workerLoadU32 response 40
        deviceId := workerLoadU32 response 44
        elfVersion :=
          ⟨workerLoadU32 response 48, workerLoadU32 response 52, workerLoadU32 response 56⟩
        runtimeVersion :=
          ⟨workerLoadU32 response 60, workerLoadU32 response 64, workerLoadU32 response 68⟩ }
    let blobSize := (workerLoadU64 response 72).toNat
    let diagnosticSize := (workerLoadU64 response 80).toNat
    if irMaxResultSize < blobSize ∨ irMaxDiagnosticSize < diagnosticSize ∨
        irResponseSize blobSize diagnosticSize ≠ some response.length then .error result
    else
      let payload := response.drop irResponseHeaderSize
      .ok (Ir.responseStatus result.workerStatus,
        { result with
          graphBlob := payload.take blobSize
          diagnostic := (payload.drop blobSize).take diagnosticSize })

/-- The record that the parent keeps of a result. -/
def IrResult.received (result : IrResult) : IrWorkerResult :=
  { graphBlob := result.blob
    diagnostic := result.diagnosticBytes
    workerStatus := result.status.code
    driverResult := result.driverResult
    selectedDriverIndex := result.driverIndex
    selectedDeviceIndex := result.deviceIndex
    graphExtensionVersion := result.graphVersion
    compilerVersionMajor := result.compilerMajor
    compilerVersionMinor := result.compilerMinor
    maxOpsetVersion := result.maxOpset
    driverVersion := result.driverVersion
    deviceVendorId := result.vendorId
    deviceId := result.deviceId
    elfVersion := result.elfVersion
    runtimeVersion := result.runtimeVersion }

theorem irResponseSize_eq_some_iff {blobSize diagnosticSize expected : ℕ} :
    irResponseSize blobSize diagnosticSize = some expected ↔
      88 + blobSize + diagnosticSize ≤ sizeMax ∧ 88 + blobSize + diagnosticSize = expected := by
  simp only [irResponseSize, irResponseHeaderSize, Option.bind_eq_bind, Option.bind_eq_some_iff,
    checkedAddSize_eq_some_iff]
  constructor
  · rintro ⟨a, ⟨ha, rfl⟩, hb, rfl⟩
    exact ⟨hb, rfl⟩
  · rintro ⟨hle, rfl⟩
    exact ⟨_, ⟨by omega, rfl⟩, hle, rfl⟩

/-- Two 16-bit halves of a field. -/
theorem toUInt16_halves (low high : UInt16) :
    (low.toUInt32 ||| high.toUInt32 <<< 16).toUInt16 = low ∧
      ((low.toUInt32 ||| high.toUInt32 <<< 16) >>> 16).toUInt16 = high := by
  have hlow : low.toNat < 2 ^ 16 := low.toNat_lt
  have hhigh : high.toNat < 2 ^ 16 := high.toNat_lt
  have hsum : (low.toUInt32 ||| high.toUInt32 <<< 16).toNat =
      high.toNat * 2 ^ 16 + low.toNat := by
    have hshift : high.toNat <<< 16 % 2 ^ 32 = high.toNat <<< 16 := by
      rw [Nat.shiftLeft_eq]
      omega
    simp only [UInt32.toNat_or, UInt32.toNat_shiftLeft, UInt16.toNat_toUInt32,
      UInt32.reduceToNat, Nat.reduceMod]
    rw [hshift, Nat.or_comm, ← Nat.shiftLeft_add_eq_or_of_lt hlow, Nat.shiftLeft_eq]
  constructor
  · apply UInt16.toNat_inj.1
    rw [UInt32.toNat_toUInt16, hsum]
    omega
  · apply UInt16.toNat_inj.1
    rw [UInt32.toNat_toUInt16, UInt32.toNat_shiftRight, hsum]
    simp only [UInt32.reduceToNat, Nat.reduceMod, Nat.shiftRight_eq_div_pow]
    omega

/-- The header of a response, field by field. -/
theorem Ir.sendResponse_eq (result : IrResult) :
    Ir.sendResponse result =
      workerStoreU32 irResponseMagic ++ (workerStoreU32 irProtocolVersion ++
      (workerStoreU32 result.status.code ++ (workerStoreU32 result.driverResult ++
      (workerStoreU32 result.driverIndex ++ (workerStoreU32 result.deviceIndex ++
      (workerStoreU32 result.graphVersion ++ (workerStoreU32
        (result.compilerMajor.toUInt32 ||| result.compilerMinor.toUInt32 <<< 16) ++
      (workerStoreU32 result.maxOpset ++ (workerStoreU32 result.driverVersion ++
      (workerStoreU32 result.vendorId ++ (workerStoreU32 result.deviceId ++
      (workerStoreU32 result.elfVersion.major ++ (workerStoreU32 result.elfVersion.minor ++
      (workerStoreU32 result.elfVersion.patch ++ (workerStoreU32 result.runtimeVersion.major ++
      (workerStoreU32 result.runtimeVersion.minor ++ (workerStoreU32 result.runtimeVersion.patch ++
      (workerStoreU64 (UInt64.ofNat result.blob.length) ++
      (workerStoreU64 (UInt64.ofNat result.diagnosticBytes.length) ++
        (result.blob ++ result.diagnosticBytes)))))))))))))))))))) := by
  rw [Ir.sendResponse, List.append_assoc, storeFields_consecutive]
  · simp [irResponseHeaderSize]
  · simp [Consecutive]
  · simp [irResponseHeaderSize]

theorem Ir.length_sendResponse (result : IrResult) :
    (Ir.sendResponse result).length =
      88 + result.blob.length + result.diagnosticBytes.length := by
  simp only [Ir.sendResponse_eq, List.length_append, length_workerStoreU32,
    length_workerStoreU64]
  omega

/-- The parent reads the result that the worker sent. -/
theorem Ir.parseResponse_sendResponse {result : IrResult}
    (hblob : result.blob.length ≤ irMaxResultSize)
    (hdiagnostic : result.diagnosticBytes.length ≤ irMaxDiagnosticSize) :
    Ir.parseResponse (Ir.sendResponse result) =
      .ok (Ir.responseStatus result.status.code, result.received) := by
  have hsizes : irMaxResultSize + irMaxDiagnosticSize + 88 ≤ sizeMax := by decide
  have hblobSize : (UInt64.ofNat result.blob.length).toNat = result.blob.length :=
    toNat_ofNat_size (by omega)
  have hdiagnosticSize : (UInt64.ofNat result.diagnosticBytes.length).toNat =
      result.diagnosticBytes.length := toNat_ofNat_size (by omega)
  have hlength := Ir.length_sendResponse result
  have hsum : irResponseSize result.blob.length result.diagnosticBytes.length =
      some (Ir.sendResponse result).length :=
    irResponseSize_eq_some_iff.2 ⟨by omega, hlength.symm⟩
  have hpayload : (Ir.sendResponse result).drop irResponseHeaderSize =
      result.blob ++ result.diagnosticBytes := by
    simp [Ir.sendResponse_eq, irResponseHeaderSize]
  have hblobField : workerLoadU64 (Ir.sendResponse result) 72 =
      UInt64.ofNat result.blob.length := by
    simp [Ir.sendResponse_eq]
  have hdiagnosticField : workerLoadU64 (Ir.sendResponse result) 80 =
      UInt64.ofNat result.diagnosticBytes.length := by
    simp [Ir.sendResponse_eq]
  have hmagic : workerLoadU32 (Ir.sendResponse result) 0 = irResponseMagic := by
    simp [Ir.sendResponse_eq]
  have hversion : workerLoadU32 (Ir.sendResponse result) 4 = irProtocolVersion := by
    simp [Ir.sendResponse_eq]
  have hcompiler : workerLoadU32 (Ir.sendResponse result) 28 =
      (result.compilerMajor.toUInt32 ||| result.compilerMinor.toUInt32 <<< 16) := by
    simp [Ir.sendResponse_eq]
  unfold Ir.parseResponse
  dsimp only
  rw [if_neg]
  · rw [hblobField, hdiagnosticField, hblobSize, hdiagnosticSize, hpayload, hsum, hcompiler,
      (toUInt16_halves _ _).1, (toUInt16_halves _ _).2]
    rw [if_neg]
    · simp [IrResult.received, Ir.sendResponse_eq]
    · simp only [not_or, not_not, not_lt]
      exact ⟨hblob, hdiagnostic, trivial⟩
  · simp only [not_or, not_not, not_lt]
    exact ⟨by rw [irResponseHeaderSize]; omega, hmagic, hversion⟩

/-- The length that a response's header announces. -/
def Ir.announcedResponse (header : List UInt8) : ℕ :=
  irResponseHeaderSize + (workerLoadU64 header 72).toNat + (workerLoadU64 header 80).toNat

theorem Ir.announced_parseResponse :
    Announced (fun m => succeeds (Ir.parseResponse m)) irResponseHeaderSize
      Ir.announcedResponse where
  header_le m hm := by
    by_contra hlt
    have herror : Ir.parseResponse m = .error IrWorkerResult.zero := if_pos (Or.inl (by omega))
    simp [herror, succeeds] at hm
  length_eq m hm := by
    obtain ⟨value, hm⟩ := succeeds_iff.1 hm
    unfold Ir.parseResponse at hm
    dsimp only at hm
    split_ifs at hm with hheader hsizes
    simp only [not_or, not_not] at hsizes
    obtain ⟨-, hlength⟩ := irResponseSize_eq_some_iff.1 hsizes.2.2
    unfold Ir.announcedResponse
    rw [workerLoadU64_take (by decide), workerLoadU64_take (by decide)]
    exact hlength.symm

end Npunlock
