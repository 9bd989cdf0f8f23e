import Npunlock.Artifacts
import Npunlock.JsonText
import Npunlock.Patch

/-!
# The patch report

`build_report` renders the summary of a patch into a buffer that it allocates once, with
2048 bytes for the beginning and the end and as many for each target. The format strings of
the source are written here as the fields they hold. The text consists of ASCII characters,
so its bytes are its characters.
-/

namespace Npunlock

open Json (quoted joined integerText)

/-! ## The writer -/

/-- `report_writer`. -/
structure ReportWriter where
  data : List Char
  capacity : ℕ

/-- `report_append`, of a rendered format. A value takes one byte behind it. -/
def reportAppend (writer : ReportWriter) (rendered : List Char) : Option ReportWriter :=
  if writer.capacity ≤ writer.data.length then none
  else if writer.capacity - writer.data.length ≤ rendered.length then none
  else some { writer with data := writer.data ++ rendered }

/-- `patch report buffer was too small`. -/
def reportTooSmall : Failure :=
  setDiagnostic .internalError "patchblob.report" "patch report buffer was too small"

/-- `patch report size overflows`. -/
def reportOverflows : Failure :=
  setDiagnostic .overflow "patchblob.report" "patch report size overflows"

/-- An append whose failure ends the report. -/
def appendReport (writer : ReportWriter) (rendered : List Char) : Result ReportWriter :=
  match reportAppend writer rendered with
  | some writer => .ok writer
  | none => .error reportTooSmall

/-! ## Formats -/

/-- A conversion of an unsigned number. -/
def decimal (n : ℕ) : List Char :=
  Nat.toDigits 10 n

/-- A field of an object in a format. -/
def fieldText (name : String) (value : List Char) : List Char :=
  quoted name ++ ':' :: value

/-- An object in a format. -/
def objectText (fields : List (List Char)) : List Char :=
  '\x7b' :: joined fields ++ ['\x7d']

/-- An object in a format, up to the items of its last field. -/
def openText (fields : List (List Char)) (name : String) : List Char :=
  '\x7b' :: joined (fields ++ [fieldText name ['[']])

/-- `index == 0 ? "" : ","`. -/
def separator (index : ℕ) : List Char :=
  if index = 0 then [] else [',']

/-- `digest_hex`. -/
def digestHex (digest : List UInt8) : String :=
  String.ofList (digest.flatMap hexByte)

/-- `tensor_precision_name_v2`. -/
def tensorPrecisionNameV2 (precision : ℕ) : String :=
  if precision = patchblobTensorPrecisionFp16V2 then "fp16"
  else if precision = patchblobTensorPrecisionFp32V2 then "fp32"
  else if precision = patchblobTensorPrecisionI32V2 then "i32"
  else if precision = patchblobTensorPrecisionI16V2 then "i16"
  else if precision = patchblobTensorPrecisionI8V2 then "i8"
  else if precision = patchblobTensorPrecisionU8V2 then "u8"
  else if precision = patchblobTensorPrecisionU16V2 then "u16"
  else if precision = patchblobTensorPrecisionU32V2 then "u32"
  else "unknown"

/-- The name of a role. -/
def tensorRoleNameV2 (role : ℕ) : String :=
  if role = patchblobTensorRoleInputV2 then "input" else "output"

/-! ## The records of the targets -/

/-- The record of a tensor. -/
def tensorText (tensor : TensorContractV2) : List Char :=
  objectText [
    fieldText "role" (quoted (tensorRoleNameV2 tensor.role)),
    fieldText "tensor_index" (decimal tensor.tensorIndex),
    fieldText "precision" (quoted (tensorPrecisionNameV2 tensor.precision)),
    fieldText "element_count" (decimal tensor.elementCount),
    fieldText "span_bytes" (decimal tensor.spanBytes),
    fieldText "observed_flags" (decimal tensor.observedFlags)]

/-- The field for the extent of a range. -/
def extentText (detail : PatchDetail) : List Char :=
  fieldText "extent" (objectText [
    fieldText "file_offset" (decimal detail.extentFileOffset),
    fieldText "old" (decimal detail.oldExtent),
    fieldText "new" (decimal detail.newExtent)])

/-- The field for the code pointer of a range. -/
def addendText (detail : PatchDetail) : List Char :=
  fieldText "code_relocation_addend" (objectText [
    fieldText "file_offset" (decimal detail.addendFileOffset),
    fieldText "old" (integerText detail.oldAddend),
    fieldText "new" (integerText detail.newAddend)])

/-- The beginning of a version 2 record, up to its tensors. -/
def targetHeadV2 (detail : PatchDetail) : List Char :=
  openText [
    fieldText "invocation_index" (decimal detail.invocationIndex),
    fieldText "range_index" (decimal detail.rangeIndex),
    fieldText "input_count" (decimal detail.inputCount),
    fieldText "parameter_base" (decimal detail.parameterBase),
    fieldText "contract_version" (decimal 2),
    fieldText "target_flags" (decimal detail.targetFlagsV2),
    extentText detail,
    addendText detail] "tensors"

/-- A version 1 record. -/
def targetText (detail : PatchDetail) : List Char :=
  let precision := if detail.contractFlags &&& patchblobContractFp16 ≠ 0 then "fp16" else "fp32"
  let scalarContract := if detail.contractFlags &&& patchblobContractInput1Scalar ≠ 0
    then ',' :: quoted "input_1_scalar" else []
  objectText [
    fieldText "invocation_index" (decimal detail.invocationIndex),
    fieldText "range_index" (decimal detail.rangeIndex),
    fieldText "input_count" (decimal detail.inputCount),
    fieldText "parameter_base" (decimal detail.parameterBase),
    fieldText "element_count" (decimal detail.elementCount),
    fieldText "span_bytes" (decimal detail.spanBytes),
    extentText detail,
    addendText detail,
    fieldText "contract_flags" (decimal detail.contractFlags),
    fieldText "contract" ('[' :: joined [quoted "static", quoted "dense", quoted precision,
      quoted "cmx", quoted "disjoint_output"] ++ scalarContract ++ [']'])]

/-- A round of the loop over the tensors. -/
def appendTensor (writer : ReportWriter) (entry : TensorContractV2 × ℕ) : Result ReportWriter :=
  appendReport writer (separator entry.2 ++ tensorText entry.1)

/-- A round of the loop over the details. -/
def appendDetail (writer : ReportWriter) (entry : PatchDetail × ℕ) : Result ReportWriter :=
  let (detail, index) := entry
  if detail.tensorsV2.length ≠ 0 then do
    let writer ← appendReport writer (separator index ++ targetHeadV2 detail)
    let writer ← detail.tensorsV2.zipIdx.foldlM appendTensor writer
    appendReport writer [']', '\x7d']
  else appendReport writer (separator index ++ targetText detail)

/-! ## The report -/

/-- The schema of a report. -/
def PatchSummary.schema (summary : PatchSummary) : String :=
  match summary.details with
  | [] => "npunlock.patchblob.v1"
  | detail :: _ =>
    if detail.tensorsV2.length ≠ 0 then "npunlock.patchblob.v2" else "npunlock.patchblob.v1"

/-- The beginning of the report, up to its targets. -/
def reportHead (graphHash elfHash outputHash : String) (summary : PatchSummary) : List Char :=
  openText [
    fieldText "schema" (quoted summary.schema),
    fieldText "input_graph_sha256" (quoted graphHash),
    fieldText "shave_elf_sha256" (quoted elfHash),
    fieldText "output_graph_sha256" (quoted outputHash),
    fieldText "graph_contract" (objectText [
      fieldText "compiler" (quoted "8.3"),
      fieldText "npu" (quoted "3720"),
      fieldText "tiles" (decimal summary.tileCount),
      fieldText "loader_elf" (quoted "1.2.0"),
      fieldText "mapped_inference" (quoted "7.0.4")]),
    fieldText "append" (objectText [
      fieldText "file_offset" (decimal summary.insertionFileOffset),
      fieldText "inserted_size" (decimal summary.insertedSize),
      fieldText "image_base" (decimal summary.imageBase),
      fieldText "image_size" (decimal summary.imageSize)]),
    fieldText "section_table" (objectText [
      fieldText "old_offset" (decimal summary.oldSectionTableOffset),
      fieldText "new_offset" (decimal summary.newSectionTableOffset)]),
    fieldText "validation" (objectText [
      fieldText "section_contents_preserved" ['t', 'r', 'u', 'e'],
      fieldText "mutation_set_preserved" ['t', 'r', 'u', 'e']])] "targets"

/-- The bytes that `build_report` allocates. -/
def reportCapacity (detailCount : ℕ) : Option ℕ := do
  let targetSpace ← checkedMulSize detailCount 2048
  checkedAddSize 2048 targetSpace

/-- The text of the SHA-256 of a view. -/
def viewHash (view : View) : String :=
  digestHex (sha256 (slice view.data 0 view.size))

/-- `build_report`. -/
def buildReport (graphBlob shaveElf outputBlob : View) (summary : PatchSummary) :
    Result (List Char) :=
  match reportCapacity summary.details.length with
  | none => .error reportOverflows
  | some capacity => do
    let writer ← appendReport ⟨[], capacity⟩
      (reportHead (viewHash graphBlob) (viewHash shaveElf) (viewHash outputBlob) summary)
    let writer ← summary.details.zipIdx.foldlM appendDetail writer
    let writer ← appendReport writer [']', '\x7d', '\n']
    .ok writer.data

end Npunlock
