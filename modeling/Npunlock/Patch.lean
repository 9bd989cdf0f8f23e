import Npunlock.Discovery

/-!
# Patching a graph

`patchGraphBlobWith` validates its targets, plans a gap at the end of `KernelText`,
writes the output with the gap and the replacement image in it, parses the output again
and compares it with the input. The source has one function for both target versions.
Here it takes the version as a parameter, and its blocks are definitions of their own :
`planTargets`, `planPatch`, `writePatch` and `verifyPreservation`.
-/

namespace Npunlock

/-! ## Targets -/

section Targets

variable {τ : Type} (version : TargetVersion τ) (layout : GraphLayout) (parameterBases : List ℕ)

/-- The detail of one target, with the file offset of the code pointer of its range. -/
def planTarget (earlier : List τ) (target : τ) : Result PatchDetail := do
  refuseIf (∃ other ∈ earlier,
      version.invocationIndex other = version.invocationIndex target ∨
        version.rangeIndex other = version.rangeIndex target)
    (unsupported "target invocation and range selections must be unique")
  let detail ← version.validate layout parameterBases target
  let relocation ← findRangeRelocation layout (version.rangeIndex target)
  .ok { detail with addendFileOffset := relocation.fileOffset + 16, oldAddend := relocation.addend }

/-- The details of all targets. -/
def planTargets (targets : List τ) : Result (List PatchDetail) := do
  let details ← mapRange targets.length fun index =>
    match targets[index]? with
    | some target => planTarget version layout parameterBases (targets.take index) target
    | none => .error .outOfBounds
  version.checkReplicaGroups layout parameterBases.length targets
  .ok details

end Targets

/-! ## The gap -/

/-- The section does not cross the insertion point. Returns the larger alignment of
`shiftAlignment` and a section that moves. -/
def checkInsertion (layout : GraphLayout) (insertion index shiftAlignment : ℕ) : Result ℕ := do
  let sec ← sectionAt layout.sections index
  if index = layout.kernelTextIndex ∨ sec.type = shtNobits ∨ sec.size = 0 then
    .ok shiftAlignment
  else do
    let crosses := malformed "KernelText insertion point crosses another graph section"
    match checkedAddSize sec.offset sec.size with
    | none => .error crosses
    | some sectionEnd => do
      refuseIf (sec.offset < insertion ∧ insertion < sectionEnd) crosses
      .ok (if insertion ≤ sec.offset ∧ sec.offset ≠ 0 ∧ shiftAlignment < sec.alignment then
          sec.alignment
        else shiftAlignment)

/-- The section table does not cross the insertion point. -/
def checkTableInsertion (layout : GraphLayout) (insertion shiftAlignment : ℕ) : Result ℕ := do
  let crosses := malformed "KernelText insertion point crosses the section table"
  match (checkedMulSize layout.sectionCount 64).bind (checkedAddSize layout.sectionTableOffset) with
  | none => .error crosses
  | some tableEnd => do
    refuseIf (layout.sectionTableOffset < insertion ∧ insertion < tableEnd) crosses
    .ok (if insertion ≤ layout.sectionTableOffset ∧ shiftAlignment < 8 then 8 else shiftAlignment)

/-- Where the image goes and how much the output grows. -/
structure PatchPlan where
  insertionFileOffset : ℕ
  insertedSize : ℕ
  imageBase : ℕ
  newTextSize : ℕ
  outputSize : ℕ
  outputSize_le : outputSize ≤ sizeMax

/-- A size computation of the planner that may overflow. -/
def orOverflow (size : Option ℕ) (message : String) : Result ℕ :=
  match size with
  | some size => .ok size
  | none => .error (setDiagnostic .overflow "patchblob.patch" message)

/-- The planner of `patch_graph_blob_impl`. -/
def planPatch (layout : GraphLayout) (image : View) (imageAlignment tailPadding : ℕ) :
    Result PatchPlan := do
  let text ← sectionAt layout.sections layout.kernelTextIndex
  let insertion := text.offset + text.size
  let sectionAlignment ← forRange 0 layout.sectionCount 1 (checkInsertion layout insertion)
  let shiftAlignment ← checkTableInsertion layout insertion sectionAlignment
  let imageOverflow := "appended code image size overflows"
  let imageBase ← orOverflow (alignUp text.size imageAlignment) imageOverflow
  let imageEnd ← orOverflow (checkedAddSize imageBase image.size) imageOverflow
  let minimumTextSize ← orOverflow (checkedAddSize imageEnd tailPadding) imageOverflow
  refuseIf (minimumTextSize < text.size)
    (setDiagnostic .overflow "patchblob.patch" imageOverflow)
  let insertedSize ← orOverflow (alignUp (minimumTextSize - text.size) shiftAlignment) imageOverflow
  let newTextSize ← orOverflow (checkedAddSize text.size insertedSize) imageOverflow
  match h : checkedAddSize layout.blob.size insertedSize with
  | none => .error (setDiagnostic .overflow "patchblob.patch" "patched graph size overflows")
  | some outputSize =>
    .ok { insertionFileOffset := insertion, insertedSize, imageBase, newTextSize, outputSize,
          outputSize_le := le_sizeMax_of_checkedAddSize h }

/-! ## The output -/

namespace PatchPlan

variable (plan : PatchPlan)

/-- Where a byte of the input goes in the output. -/
def shift (offset : ℕ) : ℕ :=
  if plan.insertionFileOffset ≤ offset then offset + plan.insertedSize else offset

/-- The new file offset of a section. The sum is a `size_t` that nothing checks. -/
def newOffset (sec : GraphSection) : ℕ :=
  if plan.insertionFileOffset ≤ sec.offset ∧ sec.offset ≠ 0 then
    (sec.offset + plan.insertedSize) % 2 ^ 64
  else sec.offset

/-- The output before the headers are written : the input with the gap, and the image. -/
def gapped (layout : GraphLayout) (textOffset : ℕ) (image : View) : ℕ → UInt8 :=
  let front := overlay (fun _ => 0) 0 plan.insertionFileOffset layout.blob.data
  let both := overlay front (plan.insertionFileOffset + plan.insertedSize)
    (layout.blob.size - plan.insertionFileOffset)
    fun k => layout.blob.data (plan.insertionFileOffset + k)
  overlay both (textOffset + plan.imageBase) image.size image.data

/-- Writes the new header fields of section `index`. -/
def writeHeader (kernelTextIndex tableOffset index : ℕ) (sec : GraphSection) (m : ℕ → UInt8) :
    ℕ → UInt8 :=
  let header := tableOffset + index * 64
  let moved := store m (header + 0x18) 8 (plan.newOffset sec)
  if index = kernelTextIndex then store moved (header + 0x20) 8 plan.newTextSize else moved

/-- Writes the new header fields of all sections, from section `index` on. -/
def writeHeaders (kernelTextIndex tableOffset : ℕ) :
    ℕ → List GraphSection → (ℕ → UInt8) → ℕ → UInt8
  | _, [], m => m
  | index, sec :: rest, m =>
    writeHeaders kernelTextIndex tableOffset (index + 1) rest
      (plan.writeHeader kernelTextIndex tableOffset index sec m)

/-- Writes the extent and the addend of one target. -/
def writeTarget (imageSize : ℕ) (detail : PatchDetail) (m : ℕ → UInt8) : ℕ → UInt8 :=
  store (store m (plan.shift detail.extentFileOffset) 4 imageSize)
    (plan.shift detail.addendFileOffset) 8 plan.imageBase

/-- The detail of a target after its fields were written. -/
def patchedDetail (imageSize : ℕ) (detail : PatchDetail) : PatchDetail :=
  { detail with
    extentFileOffset := plan.shift detail.extentFileOffset
    addendFileOffset := plan.shift detail.addendFileOffset
    newExtent := imageSize
    newAddend := plan.imageBase }

/-- Writes the fields of all targets. -/
def writeTargets (imageSize : ℕ) : List PatchDetail → (ℕ → UInt8) → Result (ℕ → UInt8)
  | [], m => .ok m
  | detail :: rest, m => do
    refuseIf (uint32Max < imageSize ∨ int64Max < plan.imageBase)
      (unsupported "appended code image does not fit the observed range fields")
    writeTargets imageSize rest (plan.writeTarget imageSize detail m)

end PatchPlan

/-- The patched bytes. -/
def writePatch (layout : GraphLayout) (plan : PatchPlan) (image : View)
    (details : List PatchDetail) : Result View := do
  let text ← sectionAt layout.sections layout.kernelTextIndex
  let newTableOffset := plan.shift layout.sectionTableOffset
  let gapped := plan.gapped layout text.offset image
  let headed := plan.writeHeaders layout.kernelTextIndex newTableOffset 0 layout.sections
    (store gapped 0x28 8 newTableOffset)
  let data ← plan.writeTargets image.size details headed
  .ok { data, size := plan.outputSize, size_le := plan.outputSize_le }

/-! ## The comparison of output and input -/

/-- `old_byte_may_change`. The details carry the offsets in the output. -/
def oldByteMayChange (layout : GraphLayout) (plan : PatchPlan) (details : List PatchDetail)
    (offset : ℕ) : Bool :=
  let unshift (position : ℕ) :=
    if plan.insertionFileOffset + plan.insertedSize ≤ position then
      position - plan.insertedSize
    else position
  (0x28 ≤ offset && offset < 0x30) ||
    (layout.sections.zipIdx.any fun (sec, index) =>
      (sec.headerOffset + 0x18 ≤ offset && offset < sec.headerOffset + 0x20) ||
        (index == layout.kernelTextIndex && sec.headerOffset + 0x20 ≤ offset &&
          offset < sec.headerOffset + 0x28)) ||
    details.any fun detail =>
      let extent := unshift detail.extentFileOffset
      let addend := unshift detail.addendFileOffset
      (extent ≤ offset && offset < extent + 4) || (addend ≤ offset && offset < addend + 8)

def verifyFailure (message : String) : Failure :=
  setDiagnostic .internalError "patchblob.verify" message

/-- The metadata and the content of one section. -/
def verifySection (oldLayout newLayout : GraphLayout) (plan : PatchPlan) (index : ℕ) :
    Result Unit := do
  let oldSection ← sectionAt oldLayout.sections index
  let newSection ← sectionAt newLayout.sections index
  refuseIf (oldSection.type ≠ newSection.type ∨ oldSection.flags ≠ newSection.flags ∨
      oldSection.address ≠ newSection.address ∨ oldSection.link ≠ newSection.link ∨
      oldSection.info ≠ newSection.info ∨ oldSection.alignment ≠ newSection.alignment ∨
      oldSection.entrySize ≠ newSection.entrySize ∨
      newSection.offset ≠ plan.newOffset oldSection ∨
      (index ≠ oldLayout.kernelTextIndex ∧ oldSection.size ≠ newSection.size))
    (verifyFailure "graph section metadata changed unexpectedly")
  if index = oldLayout.kernelTextIndex ∨ index = oldLayout.rangesIndex ∨
      index = oldLayout.rangeRelocationsIndex ∨ oldSection.type = shtNobits then
    .ok ()
  else do
    let changed := verifyFailure "an unmodified graph section changed unexpectedly"
    refuseIf (oldSection.size ≠ newSection.size) changed
    let oldBytes ← oldLayout.blob.readBytes oldSection.offset oldSection.size
    let newBytes ← newLayout.blob.readBytes newSection.offset oldSection.size
    refuseIf (oldBytes ≠ newBytes) changed

/-- One byte of the input that the patch leaves alone. -/
def verifyByte (oldLayout newLayout : GraphLayout) (plan : PatchPlan)
    (details : List PatchDetail) (index : ℕ) : Result Unit :=
  if oldByteMayChange oldLayout plan details index then .ok ()
  else do
    let oldByte ← oldLayout.blob.readU8 index
    let newByte ← newLayout.blob.readU8 (plan.shift index)
    refuseIf (oldByte ≠ newByte) (verifyFailure "a byte outside the mutation set changed")

/-- `verify_preservation`. -/
def verifyPreservation (oldLayout newLayout : GraphLayout) (plan : PatchPlan) (image : View)
    (details : List PatchDetail) : Result Unit := do
  let oldText ← sectionAt oldLayout.sections oldLayout.kernelTextIndex
  let newText ← sectionAt newLayout.sections newLayout.kernelTextIndex
  let textChanged := verifyFailure "KernelText preservation check failed"
  refuseIf (newLayout.sectionCount ≠ oldLayout.sectionCount ∨
    newText.size ≠ oldText.size + plan.insertedSize) textChanged
  let oldCode ← oldLayout.blob.readBytes oldText.offset oldText.size
  let newCode ← newLayout.blob.readBytes newText.offset oldText.size
  refuseIf (oldCode ≠ newCode) textChanged
  checkRange 0 oldLayout.sectionCount (verifySection oldLayout newLayout plan)
  let newImage ← newLayout.blob.readBytes (newText.offset + plan.imageBase) image.size
  refuseIf (newImage ≠ slice image.data 0 image.size)
    (verifyFailure "appended code image does not match the ELF")
  checkRange oldText.size newText.size fun index =>
    if plan.imageBase ≤ index ∧ index < plan.imageBase + image.size then .ok ()
    else do
      let byte ← newLayout.blob.readU8 (newText.offset + index)
      refuseIf (byte ≠ 0) (verifyFailure "appended alignment or tail padding is nonzero")
  checkRange 0 oldLayout.blob.size (verifyByte oldLayout newLayout plan details)

/-! ## The whole patch -/

/-- `npunlock_patch_summary`. A summary exists only after the comparison succeeded, so
its two `preserved` flags are true and left out. -/
structure PatchSummary where
  insertionFileOffset : ℕ
  insertedSize : ℕ
  imageBase : ℕ
  imageSize : ℕ
  oldSectionTableOffset : ℕ
  newSectionTableOffset : ℕ
  tileCount : ℕ
  details : List PatchDetail

/-- The request part of `patch_graph_blob_impl` : everything before the output exists. -/
def planRequest {τ : Type} (version : TargetVersion τ) (graphBlob image : View)
    (targets : List τ) (imageAlignment tailPadding : ℕ) :
    Result (GraphLayout × List PatchDetail × PatchPlan) := do
  let layout ← parseGraph graphBlob
  let parameterBases ← invocationParameterBases layout
  let details ← planTargets version layout parameterBases targets
  let plan ← planPatch layout image imageAlignment tailPadding
  .ok (layout, details, plan)

/-- The self-checks of `patch_graph_blob_impl` on its output. -/
def checkOutput (layout : GraphLayout) (plan : PatchPlan) (image : View)
    (details : List PatchDetail) (patched : View) : Result Unit := do
  let patchedLayout ← parseGraph patched
  verifyPreservation layout patchedLayout plan image details

/-- `patch_graph_blob_impl`. -/
def patchGraphBlobWith {τ : Type} (version : TargetVersion τ) (graphBlob image : View)
    (targets : List τ) (imageAlignment tailPadding : ℕ) : Result (View × PatchSummary) := do
  let (layout, details, plan) ←
    planRequest version graphBlob image targets imageAlignment tailPadding
  let patched ← writePatch layout plan image details
  let patchedDetails := details.map (plan.patchedDetail image.size)
  checkOutput layout plan image patchedDetails patched
  .ok (patched,
    { insertionFileOffset := plan.insertionFileOffset, insertedSize := plan.insertedSize,
      imageBase := plan.imageBase, imageSize := image.size,
      oldSectionTableOffset := layout.sectionTableOffset,
      newSectionTableOffset := plan.shift layout.sectionTableOffset,
      tileCount := layout.tileCount, details := patchedDetails })

/-- `npunlock_patch_graph_blob`. -/
def patchGraphBlob (graphBlob image : View) (targets : List PatchblobTarget)
    (imageAlignment tailPadding : ℕ) : Result (View × PatchSummary) :=
  patchGraphBlobWith targetVersion1 graphBlob image targets imageAlignment tailPadding

/-- `npunlock_patch_graph_blob_v2`. -/
def patchGraphBlobV2 (graphBlob image : View) (targets : List PatchblobTargetV2)
    (imageAlignment tailPadding : ℕ) : Result (View × PatchSummary) :=
  patchGraphBlobWith targetVersion2 graphBlob image targets imageAlignment tailPadding

end Npunlock
