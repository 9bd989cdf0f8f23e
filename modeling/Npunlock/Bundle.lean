import Npunlock.Artifacts

/-!
# Program bundles

`export` writes a program as an archive with a manifest; `load` reads one back and checks
it against the manifest. A `Bundle` is the archive, as its members in their order.
-/

namespace Npunlock

abbrev Bundle := List (String × List UInt8)

/-! ## Writing -/

/-- `f"{index:03d}"`. -/
def padIndex (index : ℕ) : String :=
  String.ofList (List.replicate (3 - (Nat.toDigits 10 index).length) '0' ++ Nat.toDigits 10 index)

def reportPath (index : ℕ) : String :=
  "patch-reports/" ++ padIndex index ++ ".json"

/-- The entry of a member. A `bytes` object is never too long for `ArtifactIdentity`. -/
def entryJson (path : String) (data : List UInt8) : Json :=
  .object [("path", .string path), ("sha256", .string (hexdigest data)),
    ("size", .number data.length)]

/-- `_contract_json`. -/
def contractJson (contract : TensorContract) : Json :=
  .object [("dtype", .string contract.dtype.name), ("name", .string contract.name),
    ("shape", .array (contract.shape.map fun dimension : ℕ => .number dimension))]

namespace Program

variable (codec : JsonCodec) (program : Program)

/-- The property `provenance`. -/
def provenance : Except BundleError (Option NpuProvenance) :=
  match program.irProvenance, program.artifactManifest with
  | some value, _ => (NpuProvenance.fromIrResult value).map some
  | none, none => .ok none
  | none, some bytes =>
    match (codec.loads bytes).bind (Json.get? · "provenance") with
    | none | some .null => .ok none
    | some value => (NpuProvenance.fromJson value).map some

/-- The property `manifest`. -/
def manifest : Except BundleError Json := do
  let provenance ← program.provenance codec
  .ok (.object [("graph", entryJson "graph.blob" program.graphBlob),
    ("inputs", .array (program.inputs.map contractJson)),
    ("outputs", .array (program.outputs.map contractJson)),
    ("patch_reports", .array (program.patchReports.mapIdx fun index report =>
      entryJson (reportPath index) report)),
    ("provenance", (provenance.map NpuProvenance.toJson).getD .null),
    ("schema", .string "npunlock.program.v1")])

/-- `Program.export`. -/
def exportBundle : Except BundleError Bundle := do
  let manifest ← program.manifest codec
  .ok (("manifest.json", codec.dumps manifest) :: ("graph.blob", program.graphBlob) ::
    program.patchReports.mapIdx fun index report => (reportPath index, report))

end Program

/-! ## Reading -/

section Load

/-- `_bundle_member`. -/
def bundleMember (archive : Bundle) (name : String) (maximumSize : ℕ) :
    Except BundleError (List UInt8) :=
  match archive.lookup name with
  | none => .error (.missingMember name)
  | some data => if maximumSize < data.length then .error (.largeMember name) else .ok data

/-- `Path(path).parts`, without a drive. -/
def pathParts (path : String) : List (List Char) :=
  let names := match path.toList with
    | _ :: ':' :: rest => rest
    | characters => characters
  names.splitOnP fun character => character = '/' ∨ character = '\\'

/-- A path that stays in the bundle. -/
def IsMemberPath (path : String) : Prop :=
  path ≠ "" ∧ path.toList.head? ≠ some '/' ∧ path.toList.head? ≠ some '\\' ∧
    ['.', '.'] ∉ pathParts path

instance (path : String) : Decidable (IsMemberPath path) :=
  inferInstanceAs (Decidable (_ ∧ _))

/-- `_manifest_blob_entry` : the path, the size and the digest of the entry. -/
def manifestBlobEntry (label : String) (value : Json) :
    Except BundleError (String × ℕ × String) := do
  refuseIf (¬value.HasKeys ["path", "sha256", "size"]) (BundleError.entry label)
  match (value.get? "path").bind Json.string? with
  | none => .error (.entryPath label)
  | some path => do
    refuseIf (¬IsMemberPath path) (BundleError.entryPath label)
    match (value.get? "size").bind Json.natural?, (value.get? "sha256").bind Json.string? with
    | none, _ => .error (.entrySize label)
    | some _, none => .error (.entryHash label)
    | some size, some digest => do
      refuseIf (¬IsSha256 digest) (BundleError.entryHash label)
      .ok (path, size, digest)

/-- `normalize_dtype`. No other letter has one of the letters of a name as its lowercase. -/
def normalizeDtype (text : String) : Option DType :=
  match String.ofList (text.toList.map Char.toLower) with
  | "boolean" | "bool" => some .boolean
  | "f16" | "float16" => some .f16
  | "f32" | "float32" => some .f32
  | "f64" | "float64" => some .f64
  | "i8" => some .i8
  | "i16" => some .i16
  | "i32" => some .i32
  | "i64" => some .i64
  | "u8" => some .u8
  | "u16" => some .u16
  | "u32" => some .u32
  | "u64" => some .u64
  | _ => none

/-- `normalize_shape` of a JSON value. -/
def normalizeShape : Json → Except BundleError (List ℕ)
  | .array items => items.mapM fun item =>
    match item with
    | .number value => if 0 < value then .ok value.toNat else .error .shapeDimensions
    | _ => .error .shapeDimensions
  | .object [] => .ok []
  | .object _ => .error .shapeDimensions
  | _ => .error .shapeForm

/-- `TensorSpec` of JSON values. The text of no other value names an element type. -/
def readSpec (shape dtype : Json) : Except BundleError TensorSpec := do
  let shape ← normalizeShape shape
  match dtype.string?.bind normalizeDtype with
  | none => .error (.elementType dtype)
  | some dtype =>
    if h : ∀ dimension ∈ shape, 0 < dimension then .ok ⟨shape, dtype, h⟩
    else .error .shapeDimensions

/-- The element types that a program can be run with. -/
def graphinferDtypes : List DType :=
  [.f16, .f32, .u8, .i8, .u16, .i16, .u32, .i32, .i64]

/-- One round of `_manifest_contracts`. -/
def readContract (label : String) (contracts : List TensorContract) (entry : Json) :
    Except BundleError (List TensorContract) := do
  refuseIf (¬entry.HasKeys ["dtype", "name", "shape"]) (BundleError.contractFields label)
  match (entry.get? "name").bind Json.string?, entry.get? "shape", entry.get? "dtype" with
  | some name, some shape, some dtype => do
    refuseIf (name ∈ contracts.map TensorContract.name) (BundleError.contractName label)
    refuseIf (name = "") BundleError.emptyContractName
    let spec ← readSpec shape dtype
    let contract ← (TensorContract.make name spec).mapError fun _ => BundleError.emptyContractName
    refuseIf (contract.dtype ∉ graphinferDtypes ∨ 5 < contract.shape.length)
      (BundleError.outsideContract name)
    .ok (contracts ++ [contract])
  | _, _, _ => .error (.contractName label)

/-- `_manifest_contracts`. -/
def manifestContracts (label : String) (value : Json) : Except BundleError (List TensorContract) :=
  match value.array? with
  | none | some [] => .error (.notAList label)
  | some entries => entries.foldlM (readContract label) []

/-- One round of the loop over the patch reports : the total size and the reports. -/
def loadReport (archive : Bundle) (read : ℕ × List (List UInt8)) (entry : Json × ℕ) :
    Except BundleError (ℕ × List (List UInt8)) := do
  let label := "patch report " ++ toString entry.2
  let (path, size, digest) ← manifestBlobEntry label entry.1
  refuseIf (path ≠ reportPath entry.2 ∨ 0x1000000 < size) (BundleError.entry label)
  refuseIf (0x4000000 < read.1 + size) BundleError.totalSize
  let report ← bundleMember archive path 0x1000000
  refuseIf (report.length ≠ size ∨ hexdigest report ≠ digest) (BundleError.mismatch label)
  .ok (read.1 + size, read.2 ++ [report])

variable (codec : JsonCodec) (archive : Bundle)

/-- What `load` makes of the manifest. -/
def loadManifest (manifestBytes : List UInt8) (manifest : Json) : Except BundleError Program := do
  let field := fun key => (manifest.get? key).getD .null
  refuseIf ((field "schema").string? ≠ some "npunlock.program.v1") BundleError.schema
  refuseIf (¬manifest.HasKeys ["graph", "inputs", "outputs", "patch_reports",
    "provenance", "schema"]) BundleError.manifestFields
  refuseIf ((field "provenance").isNull = false ∧ (field "provenance").isObject = false)
    BundleError.provenanceValue
  let (graphPath, graphSize, graphHash) ← manifestBlobEntry "graph" (field "graph")
  refuseIf (graphPath ≠ "graph.blob" ∨ graphSize = 0) (BundleError.entry "graph")
  let graphBlob ← bundleMember archive graphPath 0x80000000
  refuseIf (graphBlob.length ≠ graphSize ∨ hexdigest graphBlob ≠ graphHash)
    (BundleError.mismatch "graph")
  let inputs ← manifestContracts "inputs" (field "inputs")
  let outputs ← manifestContracts "outputs" (field "outputs")
  match (field "patch_reports").array? with
  | none => .error .patchReports
  | some entries => do
    refuseIf (1024 < entries.length) BundleError.patchReports
    let (_, patchReports) ← entries.zipIdx.foldlM (loadReport archive) (0, [])
    refuseIf ((archive.map Prod.fst).toFinset ≠ ("manifest.json" :: graphPath ::
      (List.range entries.length).map reportPath).toFinset) BundleError.undeclaredMembers
    .ok {
      graphBlob, inputs, outputs, patchReports
      irProvenance := none
      artifactManifest := some manifestBytes }

/-- `load`. -/
def load : Except BundleError Program := do
  refuseIf (¬(archive.map Prod.fst).Nodup) BundleError.duplicateMembers
  let manifestBytes ← bundleMember archive "manifest.json" 0x100000
  match codec.loads manifestBytes with
  | none => .error .manifestText
  | some manifest => loadManifest archive manifestBytes manifest

end Load

end Npunlock
