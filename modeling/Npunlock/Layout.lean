import Npunlock.Common

/-!
# The graph parser

`parseGraph` reads an ELF64 graph blob : the ELF header, the section headers, the
placement of the sections, their names, and the sections an ACT graph must carry with
their compatibility records. The source keeps it in one function with a local
`MATCH_REQUIRED` macro. Here each of its blocks is a definition, in the source's order.

Record sizes are written as the numbers behind the source's macros : 64 for
`ELF64_HEADER_SIZE` and `ELF64_SECTION_SIZE`, `0x18` for `ACT_RANGE_SIZE`,
`ELF64_SYMBOL_SIZE` and `ELF64_RELA_SIZE`, `0x40` for `ACT_INVOCATION_SIZE`.
-/

namespace Npunlock

/-! ## Sections -/

def shtNull : ℕ := 0
def shtProgbits : ℕ := 1
def shtSymtab : ℕ := 2
def shtStrtab : ℕ := 3
def shtRela : ℕ := 4
def shtNote : ℕ := 7
def shtNobits : ℕ := 8
def shtVpuPlatformInfo : ℕ := 0x8aaaaaaf
def shtVpuCompatibility : ℕ := 0x8aaaaab2

/-- `graph_section`. The name is empty until the name table was read. -/
structure GraphSection where
  type : ℕ
  flags : ℕ
  address : ℕ
  offset : ℕ
  size : ℕ
  link : ℕ
  info : ℕ
  alignment : ℕ
  entrySize : ℕ
  headerOffset : ℕ
  name : List UInt8 := []
  deriving DecidableEq, Inhabited

/-- `graph_layout` of a parsed blob. The index of each required section is a position
in `sections`, as `parseGraph` returns OK only if it has found all of them. -/
structure GraphLayout where
  blob : View
  sectionTableOffset : ℕ
  sectionNameIndex : ℕ
  sections : List GraphSection
  kernelTextIndex : ℕ
  paramsIndex : ℕ
  invocationsIndex : ℕ
  rangesIndex : ℕ
  rangeRelocationsIndex : ℕ
  compatibilityIndex : ℕ
  loaderAbiVersionIndex : ℕ
  mappedInferenceVersionIndex : ℕ
  platformInfoIndex : ℕ
  tileCount : ℕ

def GraphLayout.sectionCount (layout : GraphLayout) : ℕ :=
  layout.sections.length

/-- `sections[index]`. -/
def sectionAt (sections : List GraphSection) (index : ℕ) : Result GraphSection :=
  match sections[index]? with
  | some sec => .ok sec
  | none => .error .outOfBounds

/-- The sections of a name, with their positions. -/
def sectionsNamed (layout : GraphLayout) (name : String) : List (GraphSection × ℕ) :=
  layout.sections.zipIdx.filter fun entry => entry.1.name == ascii name

/-- `ranges_overlap`. -/
def rangesOverlap (leftOffset leftSize rightOffset rightSize : ℕ) : Bool :=
  match checkedAddSize leftOffset leftSize, checkedAddSize rightOffset rightSize with
  | some leftEnd, some rightEnd =>
    leftSize != 0 && rightSize != 0 && leftOffset < rightEnd && rightOffset < leftEnd
  | _, _ => false

/-! ## The ELF header and the section headers -/

/-- The checks on the ELF header. Returns the section count and the index of the name
table. The section table starts at 64, right after the header. -/
def readHeader (blob : View) : Result (ℕ × ℕ) := do
  let notElf := malformed "graph blob is not a supported ELF64 little-endian image"
  refuseIf (blob.size < 64) notElf
  let magic ← blob.readBytes 0 4
  let elfClass ← blob.readU8 4
  let encoding ← blob.readU8 5
  refuseIf (magic ≠ [0x7f, 0x45, 0x4c, 0x46] ∨ elfClass ≠ 2 ∨ encoding ≠ 1) notElf
  let version ← blob.readU8 6
  let osAbi ← blob.readU8 7
  let abiVersion ← blob.readU8 8
  let type ← blob.readU16 0x10
  let machine ← blob.readU16 0x12
  let fileVersion ← blob.readU32 0x14
  let entry ← blob.readU64 0x18
  let flags ← blob.readU32 0x30
  refuseIf (version ≠ 0 ∨ osAbi ≠ 0 ∨ abiVersion ≠ 0 ∨ type ≠ 1 ∨ machine ≠ 0 ∨ fileVersion ≠ 0 ∨
      entry ≠ 0 ∨ flags ≠ 0)
    (unsupported "graph ELF identity is not the supported NPU native contract")
  let programTableOffset ← blob.readU64 0x20
  let headerSize ← blob.readU16 0x34
  let programEntrySize ← blob.readU16 0x36
  let programCount ← blob.readU16 0x38
  let sectionEntrySize ← blob.readU16 0x3a
  refuseIf (programTableOffset ≠ 0 ∨ headerSize ≠ 64 ∨ programEntrySize ≠ 0 ∨ programCount ≠ 0 ∨
      sectionEntrySize ≠ 64)
    (unsupported "graph ELF header layout is not the supported section-only contract")
  let sectionTableOffset ← blob.readU64 0x28
  let sectionCount ← blob.readU16 0x3c
  let sectionNameIndex ← blob.readU16 0x3e
  refuseIf (sectionTableOffset ≠ 64 ∨ sectionCount = 0 ∨ sectionCount ≤ sectionNameIndex ∨
      ¬rangeInBounds sectionTableOffset (sectionCount * 64) blob.size)
    (malformed "graph section table is outside the input blob")
  .ok (sectionCount, sectionNameIndex)

/-- One section header, without its name. -/
def readSectionHeader (blob : View) (index : ℕ) : Result GraphSection := do
  let header := 64 + index * 64
  let type ← blob.readU32 (header + 4)
  let flags ← blob.readU64 (header + 8)
  let address ← blob.readU64 (header + 0x10)
  let link ← blob.readU32 (header + 0x28)
  let info ← blob.readU32 (header + 0x2c)
  let offset ← blob.readU64 (header + 0x18)
  let size ← blob.readU64 (header + 0x20)
  let alignment ← blob.readU64 (header + 0x30)
  let entrySize ← blob.readU64 (header + 0x38)
  refuseIf ((alignment ≠ 0 ∧ ¬isPowerOfTwo alignment) ∨
      (1 < alignment ∧ offset % alignment ≠ 0) ∨
      (type ≠ shtNobits ∧ ¬rangeInBounds offset size blob.size))
    (malformed "graph section extent or alignment is malformed")
  .ok { type, flags, address, offset, size, link, info, alignment, entrySize,
        headerOffset := header }

/-! ## Placement -/

def checkNullSection (blob : View) (sections : List GraphSection) : Result Unit := do
  let null ← sectionAt sections 0
  let name ← blob.readU32 null.headerOffset
  refuseIf (name ≠ 0 ∨ null.type ≠ shtNull ∨ null.flags ≠ 0 ∨ null.address ≠ 0 ∨
      null.offset ≠ 0 ∨ null.size ≠ 0 ∨ null.link ≠ 0 ∨ null.info ≠ 0 ∨ null.alignment ≠ 4 ∨
      null.entrySize ≠ 0)
    (unsupported "graph null section is not the supported native form")

/-- A file-backed section overlaps neither the section table nor a later section. -/
def checkPlacementOf (sections : List GraphSection) (left : ℕ) : Result Unit := do
  let leftSection ← sectionAt sections left
  if leftSection.type = shtNobits ∨ leftSection.size = 0 then
    .ok ()
  else do
    refuseIf (rangesOverlap 64 (sections.length * 64) leftSection.offset leftSection.size = true)
      (malformed "graph section overlaps the section table")
    checkRange (left + 1) sections.length fun right => do
      let rightSection ← sectionAt sections right
      refuseIf (rightSection.type ≠ shtNobits ∧
          rangesOverlap leftSection.offset leftSection.size rightSection.offset
            rightSection.size = true)
        (malformed "graph file-backed sections overlap")

def checkPlacement (sections : List GraphSection) : Result Unit :=
  checkRange 1 sections.length (checkPlacementOf sections)

/-! ## Section names and required sections -/

/-- The checks on the section-name string table. Returns it. -/
def readNameTable (blob : View) (sections : List GraphSection) (sectionNameIndex : ℕ) :
    Result GraphSection := do
  let strings ← sectionAt sections sectionNameIndex
  let badTable := malformed "graph section-name string table is malformed"
  refuseIf (sectionNameIndex ≠ 1 ∨ strings.type ≠ shtStrtab ∨ strings.flags ≠ 0 ∨
    strings.address ≠ 0 ∨ strings.link ≠ 0 ∨ strings.info ≠ 0 ∨ strings.alignment ≠ 4 ∨
    strings.entrySize ≠ 0 ∨ strings.size = 0) badTable
  let first ← blob.readU8 strings.offset
  refuseIf (first ≠ 0) badTable
  .ok strings

/-- The positions of the required sections found so far. -/
structure RequiredSections where
  kernelText : Option ℕ := none
  params : Option ℕ := none
  invocations : Option ℕ := none
  ranges : Option ℕ := none
  rangeRelocations : Option ℕ := none
  compatibility : Option ℕ := none
  loaderAbiVersion : Option ℕ := none
  mappedInferenceVersion : Option ℕ := none
  platformInfo : Option ℕ := none

/-- `MATCH_REQUIRED(field, literal)`. -/
def matchRequired (name : List UInt8) (index : ℕ) (literal : String) (field : Option ℕ) :
    Result (Option ℕ) :=
  if name = ascii literal then do
    refuseIf (field.isSome = true) (malformed "graph contains a duplicate required section")
    .ok (some index)
  else .ok field

def matchName (name : List UInt8) (index : ℕ) (found : RequiredSections) :
    Result RequiredSections := do
  let kernelText ← matchRequired name index ".text.KernelText" found.kernelText
  let params ← matchRequired name index ".text.KernelParams" found.params
  let invocations ← matchRequired name index ".text.ActKernelInvocations" found.invocations
  let ranges ← matchRequired name index ".text.ActKernelRanges" found.ranges
  let rangeRelocations ←
    matchRequired name index ".rlt.text.ActKernelRanges" found.rangeRelocations
  let compatibility ← matchRequired name index "compatibility_string" found.compatibility
  let loaderAbiVersion ←
    matchRequired name index ".note.LoaderABIVersion" found.loaderAbiVersion
  let mappedInferenceVersion ←
    matchRequired name index ".note.MappedInferenceVersion" found.mappedInferenceVersion
  let platformInfo ← matchRequired name index ".meta.PlatformInfo" found.platformInfo
  .ok { kernelText, params, invocations, ranges, rangeRelocations, compatibility,
        loaderAbiVersion, mappedInferenceVersion, platformInfo }

/-- The name of the section with header `header`. -/
def readName (blob : View) (strings : GraphSection) (header : ℕ) : Result (List UInt8) := do
  let nameOffset ← blob.readU32 header
  refuseIf (strings.size ≤ nameOffset)
    (malformed "graph section name is outside the string table")
  let name ← blob.readString (strings.offset + nameOffset) (strings.size - nameOffset)
  match name with
  | some name => .ok name
  | none => .error (malformed "graph section name is not terminated")

def nameSections (blob : View) (strings : GraphSection) (sections : List GraphSection) :
    Result (List GraphSection × RequiredSections) :=
  forRange 0 sections.length ([], {}) fun index state => do
    let sec ← sectionAt sections index
    let name ← readName blob strings sec.headerOffset
    let found ← matchName name index state.2
    .ok (state.1 ++ [{ sec with name }], found)

/-- All required sections were found. -/
def requireSections (blob : View) (sectionNameIndex : ℕ) (sections : List GraphSection)
    (found : RequiredSections) : Result GraphLayout := do
  let strings ← sectionAt sections sectionNameIndex
  refuseIf (strings.name ≠ ascii ".strtab")
    (unsupported "graph section-name table is not the supported native form")
  match found with
  | ⟨some kernelText, some params, some invocations, some ranges, some rangeRelocations,
      compatibility, loaderAbiVersion, mappedInferenceVersion, platformInfo⟩ =>
    match compatibility, loaderAbiVersion, mappedInferenceVersion, platformInfo with
    | none, _, _, _ =>
      .error (unsupported "graph does not contain a compatibility_string section")
    | some _, none, _, _ | some _, some _, none, _ =>
      .error (unsupported "graph does not contain the required version-note sections")
    | some _, some _, some _, none =>
      .error (unsupported "graph does not contain a platform-info section")
    | some compatibility, some loaderAbiVersion, some mappedInferenceVersion,
        some platformInfo =>
      .ok { blob, sectionTableOffset := 64, sectionNameIndex, sections,
            kernelTextIndex := kernelText, paramsIndex := params,
            invocationsIndex := invocations, rangesIndex := ranges,
            rangeRelocationsIndex := rangeRelocations, compatibilityIndex := compatibility,
            loaderAbiVersionIndex := loaderAbiVersion,
            mappedInferenceVersionIndex := mappedInferenceVersion,
            platformInfoIndex := platformInfo, tileCount := 0 }
  | _ => .error (unsupported "graph does not contain the required ACT carrier sections")

/-! ## The ACT carrier -/

/-- The metadata of an ACT carrier section : its flags and alignment, nothing else. -/
def hasCarrierForm (sec : GraphSection) (flags alignment : ℕ) : Bool :=
  sec.flags == flags && sec.address == 0 && sec.link == 0 && sec.info == 0 &&
    sec.alignment == alignment && sec.entrySize == 1

def checkCarrier (layout : GraphLayout) : Result Unit := do
  let kernelText ← sectionAt layout.sections layout.kernelTextIndex
  let params ← sectionAt layout.sections layout.paramsIndex
  let invocations ← sectionAt layout.sections layout.invocationsIndex
  let ranges ← sectionAt layout.sections layout.rangesIndex
  let rangeRelocations ← sectionAt layout.sections layout.rangeRelocationsIndex
  refuseIf (kernelText.type ≠ shtProgbits ∨ params.type ≠ shtProgbits ∨
      invocations.type ≠ shtProgbits ∨ ranges.type ≠ shtProgbits ∨
      rangeRelocations.type ≠ shtRela)
    (unsupported "required ACT carrier sections have unsupported types")
  refuseIf (¬hasCarrierForm kernelText 0x40000000 1024 ∨ ¬hasCarrierForm params 0x40000000 64 ∨
      ¬hasCarrierForm invocations 0x20000004 64 ∨ ¬hasCarrierForm ranges 0x20000004 64 ∨
      rangeRelocations.flags ≠ 0x40 ∨ rangeRelocations.address ≠ 0 ∨
      rangeRelocations.alignment ≠ 8)
    (unsupported "required ACT carrier sections have unsupported metadata")
  refuseIf (invocations.size % 0x40 ≠ 0 ∨ ranges.size % 0x18 ≠ 0 ∨
      rangeRelocations.entrySize ≠ 0x18 ∨ rangeRelocations.size % 0x18 ≠ 0)
    (malformed "ACT carrier section sizes are malformed")

/-! ## Compatibility records -/

/-- `token_starts_with`. -/
def tokenStartsWith (token : List UInt8) (literal : String) : Bool :=
  (ascii literal).isPrefixOf token

/-- `token_equals`. -/
def tokenEquals (token : List UInt8) (literal : String) : Bool :=
  token == ascii literal

/-- What `validate_graph_compatibility` has read of the compatibility string. -/
structure Compatibility where
  compilerFound : Bool := false
  npuFound : Bool := false
  tilesFound : Bool := false
  loaderElfFound : Bool := false
  mappedInferenceFound : Bool := false
  tileCount : ℕ := 0

/-- One field of the compatibility string. -/
def readCompatibilityField (token : List UInt8) (fields : Compatibility) :
    Result Compatibility := do
  if tokenStartsWith token "compiler=" then
    refuseIf (fields.compilerFound = true)
      (malformed "graph compatibility_string contains duplicate compiler fields")
    refuseIf (¬tokenEquals token "compiler=8.3")
      (unsupported "graph compiler version is not the supported 8.3 contract")
    .ok { fields with compilerFound := true }
  else if tokenStartsWith token "npu=" then
    refuseIf (fields.npuFound = true)
      (malformed "graph compatibility_string contains duplicate npu fields")
    refuseIf (¬tokenEquals token "npu=3720")
      (unsupported "graph target is not the supported NPU3720 contract")
    .ok { fields with npuFound := true }
  else if tokenStartsWith token "t=" then
    refuseIf (fields.tilesFound = true)
      (malformed "graph compatibility_string contains duplicate t fields")
    if tokenEquals token "t=1" then
      .ok { fields with tilesFound := true, tileCount := 1 }
    else if tokenEquals token "t=2" then
      .ok { fields with tilesFound := true, tileCount := 2 }
    else
      .error (unsupported
        "graph tile count is outside the supported one- or two-tile contract")
  else if tokenStartsWith token "elf=" then
    refuseIf (fields.loaderElfFound = true)
      (malformed "graph compatibility_string contains duplicate elf fields")
    refuseIf (¬tokenEquals token "elf=1.2.0")
      (unsupported "graph loader ELF version is not the supported 1.2.0")
    .ok { fields with loaderElfFound := true }
  else if tokenStartsWith token "mi=" then
    refuseIf (fields.mappedInferenceFound = true)
      (malformed "graph compatibility_string contains duplicate mi fields")
    refuseIf (¬tokenEquals token "mi=7.0.4")
      (unsupported "graph mapped-inference version is not the supported 7.0.4")
    .ok { fields with mappedInferenceFound := true }
  else
    .ok fields

/-- The `while` loop over the `;`-separated fields. A field takes a byte at least, so
`data.length` rounds are enough. -/
def readCompatibilityFields : ℕ → List UInt8 → Compatibility → Result Compatibility
  | 0, _, fields => .ok fields
  | rounds + 1, data, fields =>
    if data = [] then .ok fields
    else do
      let token := data.takeWhile (· != 0x3b)
      refuseIf (token = [] ∨ 0 ∈ token)
        (malformed "graph compatibility_string contains a malformed field")
      let fields ← readCompatibilityField token fields
      readCompatibilityFields rounds (data.drop (token.length + 1)) fields

/-- The compatibility string without a trailing zero, read to its end. -/
def readCompatibility (data : List UInt8) : Result Compatibility := do
  let data := if data.getLast? = some 0 then data.dropLast else data
  refuseIf (data = []) (malformed "graph compatibility_string is empty")
  let fields ← readCompatibilityFields data.length data {}
  refuseIf (¬(fields.compilerFound && fields.npuFound && fields.tilesFound &&
      fields.loaderElfFound && fields.mappedInferenceFound))
    (unsupported "graph compatibility_string lacks a required compatibility field")
  .ok fields

/-- `validate_graph_compatibility`. Returns the tile count. -/
def validateGraphCompatibility (layout : GraphLayout) : Result ℕ := do
  let sec ← sectionAt layout.sections layout.compatibilityIndex
  refuseIf (sec.type ≠ shtVpuCompatibility ∨ sec.flags ≠ 0 ∨ sec.address ≠ 0 ∨ sec.link ≠ 0 ∨
      sec.info ≠ 0 ∨ sec.alignment ≠ 1 ∨ sec.entrySize ≠ 1 ∨ sec.size = 0)
    (unsupported "graph compatibility_string section has an unsupported form")
  let data ← layout.blob.readBytes sec.offset sec.size
  let fields ← readCompatibility data
  .ok fields.tileCount

/-- `validate_version_note`. -/
def validateVersionNote (layout : GraphLayout) (sectionIndex : ℕ) (owner : List UInt8)
    (noteType : ℕ) (expected : List ℕ) (message : String) : Result Unit := do
  let sec ← sectionAt layout.sections sectionIndex
  refuseIf (sec.type ≠ shtNote ∨ sec.flags ≠ 0 ∨ sec.address ≠ 0 ∨ sec.link ≠ 0 ∨
    sec.info ≠ 0 ∨ sec.alignment ≠ 4 ∨ sec.entrySize ≠ 1 ∨ sec.size ≠ 0x20) (unsupported message)
  let nameSize ← layout.blob.readU32 sec.offset
  let descSize ← layout.blob.readU32 (sec.offset + 4)
  let type ← layout.blob.readU32 (sec.offset + 8)
  let name ← layout.blob.readBytes (sec.offset + 12) 4
  refuseIf (nameSize ≠ 4 ∨ descSize ≠ 16 ∨ type ≠ noteType ∨ name ≠ owner) (unsupported message)
  checkRange 0 4 fun index => do
    let word ← layout.blob.readU32 (sec.offset + 16 + index * 4)
    refuseIf (expected[index]? ≠ some word) (unsupported message)

/-- `validate_act_tile_indices`. -/
def validateActTileIndices (layout : GraphLayout) : Result Unit := do
  let invocations ← sectionAt layout.sections layout.invocationsIndex
  checkRange 0 (invocations.size / 0x40) fun index => do
    let tile ← layout.blob.readU32 (invocations.offset + index * 0x40 + 0x34)
    refuseIf (layout.tileCount ≤ tile)
      (unsupported "ACT invocation tile index exceeds the graph compatibility contract")

/-- `validate_platform_info`. -/
def validatePlatformInfo (layout : GraphLayout) : Result Unit := do
  let sec ← sectionAt layout.sections layout.platformInfoIndex
  refuseIf (sec.type ≠ shtVpuPlatformInfo ∨ sec.flags ≠ 0 ∨ sec.address ≠ 0 ∨ sec.link ≠ 0 ∨
      sec.info ≠ 0 ∨ sec.size ≠ 0x28 ∨ sec.alignment ≠ 8 ∨ sec.entrySize ≠ 1)
    (unsupported "graph platform-info section has an unsupported form")
  let word0 ← layout.blob.readU64 sec.offset
  let word1 ← layout.blob.readU64 (sec.offset + 8)
  let word2 ← layout.blob.readU64 (sec.offset + 16)
  let word3 ← layout.blob.readU64 (sec.offset + 24)
  let word4 ← layout.blob.readU64 (sec.offset + 32)
  refuseIf (word0 ≠ 0x20 ∨ word1 ≠ 0 ∨ word2 ≠ 1 ∨ word3 ≠ 8 ∨ word4 ≠ 3)
    (unsupported "graph platform-info record is not the supported NPU3720 contract")

/-- The records that fix the compiler, loader and platform of the graph. -/
def checkRecords (layout : GraphLayout) : Result GraphLayout := do
  let tileCount ← validateGraphCompatibility layout
  let layout := { layout with tileCount }
  validateVersionNote layout layout.loaderAbiVersionIndex [0x47, 0x4e, 0x55, 0] 1 [0, 1, 2, 0]
    "graph loader ABI note is not the supported 1.2.0 contract"
  validateVersionNote layout layout.mappedInferenceVersionIndex [0x4d, 0x49, 0x56, 0] 0xa000
    [0, 7, 0, 4] "graph mapped-inference note is not the supported 7.0.4 contract"
  validateActTileIndices layout
  validatePlatformInfo layout
  .ok layout

/-- `parse_graph`. -/
def parseGraph (blob : View) : Result GraphLayout := do
  let (sectionCount, sectionNameIndex) ← readHeader blob
  let headers ← mapRange sectionCount (readSectionHeader blob)
  checkNullSection blob headers
  checkPlacement headers
  let strings ← readNameTable blob headers sectionNameIndex
  let (sections, found) ← nameSections blob strings headers
  let layout ← requireSections blob sectionNameIndex sections found
  checkCarrier layout
  checkRecords layout

end Npunlock
