import Npunlock.Json
import Npunlock.Program
import Npunlock.Sha256

/-!
# Artifacts

The identity of the bytes of an artifact : their size and their SHA-256 in hexadecimal
digits (`hexdigest`). `NpuProvenance` is the driver and compiler an artifact comes from.
-/

namespace Npunlock

/-! ## Digests -/

/-- The two hexadecimal digits of a byte. -/
def hexByte (byte : UInt8) : List Char :=
  [Nat.digitChar (byte.toNat / 16), Nat.digitChar (byte.toNat % 16)]

/-- `hashlib.sha256(data).hexdigest()`. -/
def hexdigest (data : List UInt8) : String :=
  String.ofList ((sha256 data).flatMap hexByte)

/-- `_sha256` : a digest in lowercase. -/
def IsSha256 (text : String) : Prop :=
  text.length = 64 ∧ ∀ character ∈ text.toList, character ∈ "0123456789abcdef".toList

instance (text : String) : Decidable (IsSha256 text) :=
  inferInstanceAs (Decidable (_ ∧ _))

theorem length_sha256 (data : List UInt8) : (sha256 data).length = 32 := by
  simp [sha256, storeBe32]

theorem digitChar_mem {digit : ℕ} (h : digit < 16) :
    Nat.digitChar digit ∈ "0123456789abcdef".toList := by
  have hall : ∀ digit < 16, Nat.digitChar digit ∈ "0123456789abcdef".toList := by decide
  exact hall digit h

theorem isSha256_hexdigest (data : List UInt8) : IsSha256 (hexdigest data) := by
  constructor
  · have hlength : ∀ bytes : List UInt8, (bytes.flatMap hexByte).length = 2 * bytes.length := by
      intro bytes
      induction bytes with
      | nil => rfl
      | cons byte bytes ih =>
        rw [List.flatMap_cons, List.length_append, ih, hexByte, List.length_cons]
        simp only [List.length_cons, List.length_nil]
        omega
    rw [hexdigest, String.length_ofList, hlength, length_sha256]
  · intro character hcharacter
    rw [hexdigest, String.toList_ofList] at hcharacter
    obtain ⟨byte, -, hbyte⟩ := List.mem_flatMap.1 hcharacter
    have hlt := byte.toNat_lt
    simp only [hexByte, List.mem_cons, List.not_mem_nil, or_false] at hbyte
    rcases hbyte with rfl | rfl
    · exact digitChar_mem (by omega)
    · exact digitChar_mem (by omega)

/-! ## Provenance -/

/-- Why a bundle is not written or not read : one case for each text of a `ValueError`. The
comment of a case is its text, after `program bundle` where it names no other subject. -/
inductive BundleError
  /-- `provenance must be an object` -/
  | provenanceObject
  /-- `provenance fields are invalid` -/
  | provenanceFields
  /-- `compiler_version must contain two integers` -/
  | compilerVersion
  /-- `{label} must be an unsigned integer` -/
  | unsigned (label : String)
  /-- `contains duplicate member names` -/
  | duplicateMembers
  /-- `is missing {name}` -/
  | missingMember (name : String)
  /-- `member {name} exceeds the supported size` -/
  | largeMember (name : String)
  /-- `manifest is not valid UTF-8 JSON` -/
  | manifestText
  /-- `schema is unsupported` -/
  | schema
  /-- `manifest fields are invalid` -/
  | manifestFields
  /-- `provenance is invalid` -/
  | provenanceValue
  /-- `{label} entry is invalid` -/
  | entry (label : String)
  /-- `{label} path is invalid` -/
  | entryPath (label : String)
  /-- `{label} size is invalid` -/
  | entrySize (label : String)
  /-- `{label} hash is invalid` -/
  | entryHash (label : String)
  /-- `graph size or SHA-256 does not match its manifest`, `{label} does not match its manifest` -/
  | mismatch (label : String)
  /-- `{label} must be a non-empty list` -/
  | notAList (label : String)
  /-- `{label} contains an invalid tensor contract` -/
  | contractFields (label : String)
  /-- `{label} contains an empty or duplicate tensor name` -/
  | contractName (label : String)
  /-- `tensor contract name must be a non-empty string` -/
  | emptyContractName
  /-- `shape must be an iterable of positive integers`, a `TypeError` -/
  | shapeForm
  /-- `only static positive dimensions are supported` -/
  | shapeDimensions
  /-- `unsupported IR element type: {dtype}` -/
  | elementType (dtype : Json)
  /-- `tensor {name} is outside the graphinfer contract` -/
  | outsideContract (name : String)
  /-- `patch_reports is invalid` -/
  | patchReports
  /-- `patch reports exceed the supported total size` -/
  | totalSize
  /-- `contains undeclared members` -/
  | undeclaredMembers

/-- `NpuProvenance`, with the ranges that its constructor checks. -/
structure NpuProvenance where
  driverIndex : ℕ
  deviceIndex : ℕ
  driverVersion : ℕ
  vendorId : ℕ
  deviceId : ℕ
  graphExtensionVersion : ℕ
  compilerVersion : ℕ × ℕ
  uints : ∀ value ∈ [driverIndex, deviceIndex, driverVersion, vendorId, deviceId,
    graphExtensionVersion], value ≤ 0xFFFFFFFF
  version : compilerVersion.1 ≤ 0xFFFF ∧ compilerVersion.2 ≤ 0xFFFF
  deriving DecidableEq

namespace NpuProvenance

/-- The constructor. -/
def make (driverIndex deviceIndex driverVersion vendorId deviceId graphExtensionVersion : ℕ)
    (compilerVersion : ℕ × ℕ) : Except BundleError NpuProvenance :=
  if uints : ∀ value ∈ [driverIndex, deviceIndex, driverVersion, vendorId, deviceId,
      graphExtensionVersion], value ≤ 0xFFFFFFFF then
    if version : compilerVersion.1 ≤ 0xFFFF ∧ compilerVersion.2 ≤ 0xFFFF then
      .ok { driverIndex, deviceIndex, driverVersion, vendorId, deviceId, graphExtensionVersion,
            compilerVersion, uints, version }
    else .error (.unsigned "compiler_version")
  else
    -- the first of the fields that is too large
    let fields := [("driver_index", driverIndex), ("device_index", deviceIndex),
      ("driver_version", driverVersion), ("vendor_id", vendorId), ("device_id", deviceId)]
    let large := fields.find? fun field => 0xFFFFFFFF < field.2
    .error (.unsigned ((large.map Prod.fst).getD "graph_extension_version"))

/-- `from_ir_result`. -/
def fromIrResult (value : IrCompileResult) : Except BundleError NpuProvenance :=
  make value.driverIndex value.deviceIndex value.driverVersion value.vendorId value.deviceId
    value.graphExtensionVersion value.compilerVersion

def toJson (provenance : NpuProvenance) : Json :=
  .object [("compiler_version", .array [.number provenance.compilerVersion.1,
      .number provenance.compilerVersion.2]),
    ("device_id", .number provenance.deviceId), ("device_index", .number provenance.deviceIndex),
    ("driver_index", .number provenance.driverIndex),
    ("driver_version", .number provenance.driverVersion),
    ("graph_extension_version", .number provenance.graphExtensionVersion),
    ("vendor_id", .number provenance.vendorId)]

/-- `_uint` of a JSON value. -/
def uintOf (value : Json) (label : String) (maximum : ℕ) : Except BundleError ℕ :=
  match value.natural? with
  | some number => if number ≤ maximum then .ok number else .error (.unsigned label)
  | none => .error (.unsigned label)

/-- An unsigned integer in a field of the provenance. -/
def uintField (value : Json) (field : String) : Except BundleError ℕ :=
  uintOf ((value.get? field).getD .null) field 0xFFFFFFFF

/-- `from_json`. -/
def fromJson (value : Json) : Except BundleError NpuProvenance := do
  refuseIf (value.isObject = false) BundleError.provenanceObject
  refuseIf (¬value.HasKeys ["compiler_version", "device_id", "device_index", "driver_index",
    "driver_version", "graph_extension_version", "vendor_id"]) BundleError.provenanceFields
  match (value.get? "compiler_version").bind Json.array? with
  | some [first, second] => do
    let driverIndex ← uintField value "driver_index"
    let deviceIndex ← uintField value "device_index"
    let driverVersion ← uintField value "driver_version"
    let vendorId ← uintField value "vendor_id"
    let deviceId ← uintField value "device_id"
    let graphExtensionVersion ← uintField value "graph_extension_version"
    let major ← uintOf first "compiler_version" 0xFFFF
    let minor ← uintOf second "compiler_version" 0xFFFF
    make driverIndex deviceIndex driverVersion vendorId deviceId graphExtensionVersion
      (major, minor)
  | _ => .error .compilerVersion

theorem uintOf_number {label : String} {number maximum : ℕ} (h : number ≤ maximum) :
    uintOf (.number number) label maximum = .ok number := by
  rw [uintOf, Json.natural?_number]
  exact if_pos h

theorem uintField_eq {value : Json} {field : String} {number : ℕ}
    (h : value.get? field = some (.number number)) (hle : number ≤ 0xFFFFFFFF) :
    uintField value field = .ok number := by
  rw [uintField, h]
  exact uintOf_number hle

theorem make_self (provenance : NpuProvenance) :
    make provenance.driverIndex provenance.deviceIndex provenance.driverVersion
      provenance.vendorId provenance.deviceId provenance.graphExtensionVersion
        provenance.compilerVersion = .ok provenance := by
  rw [make, dif_pos provenance.uints, dif_pos provenance.version]

/-- A provenance is read back from what it is written as. -/
theorem fromJson_toJson (provenance : NpuProvenance) :
    fromJson provenance.toJson = .ok provenance := by
  have hversion : provenance.toJson.get? "compiler_version" =
      some (.array [.number provenance.compilerVersion.1,
        .number provenance.compilerVersion.2]) := rfl
  have hobject : ¬provenance.toJson.isObject = false := by simp [toJson, Json.isObject]
  have hkeys : provenance.toJson.HasKeys ["compiler_version", "device_id", "device_index",
      "driver_index", "driver_version", "graph_extension_version", "vendor_id"] := rfl
  have huint : ∀ {field : String} {number : ℕ},
      provenance.toJson.get? field = some (.number number) →
        number ∈ [provenance.driverIndex, provenance.deviceIndex, provenance.driverVersion,
          provenance.vendorId, provenance.deviceId, provenance.graphExtensionVersion] →
          uintField provenance.toJson field = .ok number :=
    fun hget hmem => uintField_eq hget (provenance.uints _ hmem)
  rw [fromJson, refuseIf_of_not _ hobject, refuseIf_of_not _ (not_not.2 hkeys), hversion]
  refine bind_eq_ok_iff.2 ⟨(), rfl, bind_eq_ok_iff.2 ⟨(), rfl, ?_⟩⟩
  rw [Option.bind_some, Json.array?_array]
  dsimp only
  exact bind_eq_ok_iff.2 ⟨_, huint rfl (by simp), bind_eq_ok_iff.2 ⟨_, huint rfl (by simp),
    bind_eq_ok_iff.2 ⟨_, huint rfl (by simp), bind_eq_ok_iff.2 ⟨_, huint rfl (by simp),
      bind_eq_ok_iff.2 ⟨_, huint rfl (by simp), bind_eq_ok_iff.2 ⟨_, huint rfl (by simp),
        bind_eq_ok_iff.2 ⟨_, uintOf_number provenance.version.1, bind_eq_ok_iff.2
          ⟨_, uintOf_number provenance.version.2, provenance.make_self⟩⟩⟩⟩⟩⟩⟩⟩

end NpuProvenance

end Npunlock
