import Npunlock.Layout

/-!
# Relocations, parameter bases and tensor records

`resolveRelocation` checks one RELA entry down to the name of the symbol it reads.
`findPointerRelocation` looks for the one entry that writes a given pointer field, and
`validateMemref` follows three of them from a `MemRefData` record to the dimensions,
strides and data address of a tensor.

The loops of `find_pointer_relocation`, `count_data_pointer_relocations` and
`find_range_relocation` differ in the entries they want. Here they share
`collectEntries`, which keeps the wanted entries in order : `*found` and `match_count`
are the last of them and their number.
-/

namespace Npunlock

def rVpu64 : ℕ := 0
def rVpu64Or : ℕ := 1
def rVpu64Lshift : ℕ := 3
def rVpu32 : ℕ := 4
def rVpu32Rtm : ℕ := 5
def rVpu32MulticastBase : ℕ := 7

/-- `VPU_RT_SYMTAB`. -/
def vpuRtSymtab : ℕ := 0xff20

/-- `VPU_NNRD_SYM_NNCXM_SLICE_BASE_ADDR`. -/
def vpuNnrdSymNncxmSliceBaseAddr : ℕ := 0

/-- `VPU_NNRD_SYM_LAST`. -/
def vpuNnrdSymLast : ℕ := 7

/-! ## One relocation entry -/

/-- `graph_relocation`. A runtime symbol has no source section. -/
structure GraphRelocation where
  fileOffset : ℕ
  targetOffset : ℕ
  type : ℕ
  symbol : ℕ
  addend : ℤ
  specialSource : Bool
  sourceSectionIndex : Option ℕ
  deriving DecidableEq

def expectedRelocationName (target : List UInt8) : Option (List UInt8) :=
  if target = ascii ".text.KernelParams" then some (ascii ".rlt.text.KernelParams")
  else if target = ascii ".text.ActKernelInvocations" then
    some (ascii ".rlt.text.ActKernelInvocations")
  else if target = ascii ".text.ActKernelRanges" then some (ascii ".rlt.text.ActKernelRanges")
  else none

def expectedSymbolName (source : List UInt8) : Option (List UInt8) :=
  if source = ascii ".text.KernelText" then some (ascii "sym_kernelTextSection")
  else if source = ascii ".text.KernelData" then some (ascii "sym_kernelDataSection")
  else if source = ascii ".text.KernelParams" then some (ascii "sym_kernelParamsSection")
  else none

/-- The bytes an ACT relocation of this type writes. -/
def relocationWriteSize (type : ℕ) : Option ℕ :=
  if type = rVpu64Lshift then some 8
  else if type = rVpu32 ∨ type = rVpu32Rtm then some 4
  else none

/-- The first half of `resolve_relocation` : the entry and the field it writes. -/
def readRelocation (layout : GraphLayout) (relocationIndex entryIndex : ℕ) :
    Result (GraphSection × GraphRelocation) := do
  refuseIf (layout.sectionCount ≤ relocationIndex)
    (malformed "relocation section index is invalid")
  let relocations ← sectionAt layout.sections relocationIndex
  refuseIf (relocations.type ≠ shtRela ∨ relocations.entrySize ≠ 0x18 ∨
      relocations.size % 0x18 ≠ 0 ∨ relocations.size / 0x18 ≤ entryIndex)
    (malformed "relocation entry is malformed")
  refuseIf (relocations.flags ≠ 0x40 ∨ relocations.address ≠ 0 ∨ relocations.alignment ≠ 8 ∨
      layout.sectionCount ≤ relocations.info)
    (unsupported "relocation section has unsupported metadata")
  let target ← sectionAt layout.sections relocations.info
  match expectedRelocationName target.name with
  | none => .error (unsupported "relocation targets an unsupported native section")
  | some expectedName => do
    refuseIf (relocations.name ≠ expectedName)
      (unsupported "relocation section name does not match its target")
    let fileOffset := relocations.offset + entryIndex * 0x18
    let targetOffset ← layout.blob.readU64 fileOffset
    let info ← layout.blob.readU64 (fileOffset + 8)
    let addend ← layout.blob.readI64 (fileOffset + 16)
    let type := info % 2 ^ 32
    match relocationWriteSize type with
    | none => .error (unsupported "ACT relocation uses an unsupported relocation type")
    | some writeSize => do
      refuseIf (targetOffset % writeSize ≠ 0 ∨ ¬rangeInBounds targetOffset writeSize target.size)
        (malformed "ACT relocation write is outside or misaligned in its target")
      .ok (relocations,
        { fileOffset, targetOffset, type, symbol := info / 2 ^ 32, addend,
          specialSource := false, sourceSectionIndex := none })

/-- The symbol table and string table behind a relocation section. -/
def relocationSymbolTables (layout : GraphLayout) (link : ℕ) :
    Result (GraphSection × GraphSection) := do
  let symbols ← sectionAt layout.sections link
  refuseIf (symbols.name ≠ ascii ".symtab.tasks" ∨ symbols.type ≠ shtSymtab ∨
      symbols.flags ≠ 0 ∨ symbols.address ≠ 0 ∨ symbols.info ≠ 0 ∨ symbols.alignment ≠ 8 ∨
      symbols.entrySize ≠ 0x18 ∨ symbols.size % 0x18 ≠ 0 ∨ layout.sectionCount ≤ symbols.link)
    (unsupported "relocation symbol table is not the supported native form")
  let strings ← sectionAt layout.sections symbols.link
  let badStrings := unsupported "relocation string table is not the supported native form"
  refuseIf (strings.name ≠ ascii ".symstrtab" ∨ strings.type ≠ shtStrtab ∨ strings.flags ≠ 0 ∨
    strings.address ≠ 0 ∨ strings.link ≠ 0 ∨ strings.info ≠ 0 ∨ strings.alignment ≠ 4 ∨
    strings.entrySize ≠ 0 ∨ strings.size = 0) badStrings
  let first ← layout.blob.readU8 strings.offset
  refuseIf (first ≠ 0) badStrings
  .ok (symbols, strings)

/-- `relocation->symbol * ELF64_SYMBOL_SIZE`. Both factors are 32 bits wide, so the
product is too. -/
def symbolOffset (symbol : ℕ) : ℕ :=
  symbol * 0x18 % 2 ^ 32

/-- The second half of `resolve_relocation` : the section the symbol stands for. -/
def readSourceSymbol (layout : GraphLayout) (symbols strings : GraphSection)
    (relocation : GraphRelocation) : Result GraphRelocation := do
  refuseIf (symbols.size / 0x18 ≤ relocation.symbol)
    (malformed "relocation symbol index is outside the symbol table")
  let symbol := symbols.offset + symbolOffset relocation.symbol
  let nameOffset ← layout.blob.readU32 symbol
  let info ← layout.blob.readU8 (symbol + 4)
  let other ← layout.blob.readU8 (symbol + 5)
  let sourceIndex ← layout.blob.readU16 (symbol + 6)
  let value ← layout.blob.readU64 (symbol + 8)
  let size ← layout.blob.readU64 (symbol + 16)
  refuseIf (info ≠ 0 ∨ other ≠ 0 ∨ value ≠ 0 ∨ size ≠ 0 ∨ layout.sectionCount ≤ sourceIndex)
    (unsupported "relocation uses an unsupported source symbol")
  let source ← sectionAt layout.sections sourceIndex
  match expectedSymbolName source.name with
  | none => .error (unsupported "relocation references an unsupported source section")
  | some expectedName => do
    refuseIf (strings.size ≤ nameOffset)
      (malformed "relocation symbol name is outside the string table")
    let name ← layout.blob.readString (strings.offset + nameOffset) (strings.size - nameOffset)
    match name with
    | none => .error (malformed "relocation symbol name is not terminated")
    | some name => do
      refuseIf (name ≠ expectedName)
        (unsupported "relocation symbol name does not match its source section")
      .ok { relocation with sourceSectionIndex := some sourceIndex }

/-- `resolve_relocation`. -/
def resolveRelocation (layout : GraphLayout) (relocationIndex entryIndex : ℕ) :
    Result GraphRelocation := do
  let (relocations, relocation) ← readRelocation layout relocationIndex entryIndex
  if layout.sectionCount ≤ relocations.link then do
    refuseIf (relocations.link ≠ vpuRtSymtab ∨ vpuNnrdSymLast < relocation.symbol)
      (unsupported "relocation uses an unsupported VPU runtime symbol")
    .ok { relocation with specialSource := true }
  else do
    let (symbols, strings) ← relocationSymbolTables layout relocations.link
    readSourceSymbol layout symbols strings relocation

/-! ## Looking for relocations -/

/-- Appends the entries of one relocation section that are wanted. -/
def collectEntries (layout : GraphLayout) (sectionIndex entryCount : ℕ)
    (wanted : GraphRelocation → Bool) (found : List GraphRelocation) :
    Result (List GraphRelocation) :=
  forRange 0 entryCount found fun entryIndex found => do
    let candidate ← resolveRelocation layout sectionIndex entryIndex
    .ok (if wanted candidate then found ++ [candidate] else found)

def isRelocationSectionOf (sec : GraphSection) (targetIndex : ℕ) : Bool :=
  sec.type == shtRela && sec.info == targetIndex && sec.entrySize == 0x18 &&
    sec.size % 0x18 == 0

/-- The wanted entries of all relocation sections of a target section. -/
def collectRelocations (layout : GraphLayout) (targetIndex : ℕ)
    (wanted : GraphRelocation → Bool) : Result (List GraphRelocation) :=
  forRange 0 layout.sectionCount [] fun sectionIndex found => do
    let sec ← sectionAt layout.sections sectionIndex
    if isRelocationSectionOf sec targetIndex then
      collectEntries layout sectionIndex (sec.size / 0x18) wanted found
    else .ok found

/-- The entry writes the pointer field at `targetOffset`, from a CMX base or from a
given section. -/
def isPointerRelocation (targetOffset : ℕ) (sourceIndex : Option ℕ) (requireSpecial : Bool)
    (candidate : GraphRelocation) : Bool :=
  candidate.targetOffset == targetOffset && candidate.type == rVpu32 &&
    ((requireSpecial && candidate.specialSource &&
        candidate.symbol == vpuNnrdSymNncxmSliceBaseAddr) ||
      (!requireSpecial && !candidate.specialSource &&
        candidate.sourceSectionIndex == sourceIndex))

/-- `find_pointer_relocation`. -/
def findPointerRelocation (layout : GraphLayout) (targetIndex targetOffset : ℕ)
    (sourceIndex : Option ℕ) (requireSpecial : Bool) : Result GraphRelocation := do
  let found ← collectRelocations layout targetIndex
    (isPointerRelocation targetOffset sourceIndex requireSpecial)
  match found with
  | [relocation] => .ok relocation
  | _ => .error (unsupported "required pointer relocation is missing or ambiguous")

/-- The relocation of the parameter pointer of an invocation. -/
def parameterBase (layout : GraphLayout) (params : GraphSection) (index : ℕ) : Result ℕ := do
  let relocation ← findPointerRelocation layout layout.invocationsIndex (index * 0x40 + 4)
    (some layout.paramsIndex) false
  refuseIf (relocation.addend < 0 ∨ (params.size : ℤ) ≤ relocation.addend)
    (unsupported "invocation parameter base is outside KernelParams")
  .ok relocation.addend.toNat

/-- `invocation_parameter_bases`. -/
def invocationParameterBases (layout : GraphLayout) : Result (List ℕ) := do
  let invocations ← sectionAt layout.sections layout.invocationsIndex
  let params ← sectionAt layout.sections layout.paramsIndex
  mapRange (invocations.size / 0x40) (parameterBase layout params)

/-- `invocation_parameter_limit`. -/
def invocationParameterLimit (parameterBases : List ℕ) (base parameterSize : ℕ) : ℕ :=
  parameterBases.foldl (fun limit other => if base < other ∧ other < limit then other else limit)
    parameterSize

/-- A CMX data pointer in `[base, limit)` of `KernelParams`. -/
def isDataPointer (base limit : ℕ) (candidate : GraphRelocation) : Bool :=
  candidate.specialSource && candidate.symbol == vpuNnrdSymNncxmSliceBaseAddr &&
    candidate.type == rVpu32 && base ≤ candidate.targetOffset && candidate.targetOffset < limit

/-- `count_data_pointer_relocations`. -/
def countDataPointerRelocations (layout : GraphLayout) (base limit : ℕ) : Result ℕ := do
  let found ← collectRelocations layout layout.paramsIndex (isDataPointer base limit)
  .ok found.length

/-! ## Tensor records -/

def npunlockDtypeF32 : ℕ := 1
def npunlockDtypeF16 : ℕ := 2
def npunlockDtypeU32 : ℕ := 5
def npunlockDtypeU16 : ℕ := 6
def npunlockDtypeU8 : ℕ := 7
def npunlockDtypeI32 : ℕ := 9
def npunlockDtypeI16 : ℕ := 10
def npunlockDtypeI8 : ℕ := 11

/-- `dtype_table[kind].size_bytes`, zero for a kind without an entry. -/
def dtypeSizeBytes (kind : ℕ) : ℕ :=
  if kind = npunlockDtypeF32 ∨ kind = npunlockDtypeU32 ∨ kind = npunlockDtypeI32 then 4
  else if kind = npunlockDtypeF16 ∨ kind = npunlockDtypeU16 ∨ kind = npunlockDtypeI16 then 2
  else if kind = npunlockDtypeU8 ∨ kind = npunlockDtypeI8 then 1
  else 0

/-- `dtype_table[kind].stride_bits`. -/
def dtypeStrideBits (kind : ℕ) : ℕ :=
  8 * dtypeSizeBytes kind

/-- `memref_contract`. -/
structure MemrefContract where
  elementCount : ℕ
  spanBytes : ℕ
  dtypeKind : ℕ
  dataSymbol : ℕ
  dataAddend : ℤ
  rank : ℕ
  dimensions : List ℤ
  stridesBits : List ℤ
  deriving DecidableEq

/-- The unused dimension above 1 with the smallest stride, the first of equals. -/
def selectDimension (dimensions strides : List ℤ) (used : List ℕ) : Option ℕ :=
  (List.range dimensions.length).foldl (fun selected index =>
    if index ∈ used ∨ dimensions.getD index 0 ≤ 1 then selected
    else
      match selected with
      | none => some index
      | some best =>
        if strides.getD index 0 < strides.getD best 0 then some index else selected) none

/-- The `for (;;)` loop of `validate_memref` : in the order of their strides, the
dimensions are laid out without a gap. A round uses up a dimension, so the rounds do
not run out before the dimensions do. -/
def checkDense (dimensions strides : List ℤ) : ℕ → List ℕ → ℕ → Result Unit
  | 0, _, _ => .ok ()
  | rounds + 1, used, expectedStride =>
    match selectDimension dimensions strides used with
    | none => .ok ()
    | some selected => do
      let dimension := (dimensions.getD selected 0).toNat
      refuseIf ((strides.getD selected 0).toNat ≠ expectedStride ∨
          uint64Max / dimension < expectedStride)
        (unsupported "selected invocation uses a non-dense tensor layout")
      checkDense dimensions strides rounds (selected :: used) (expectedStride * dimension)

/-- The `index`-th dimension and stride, with the element count up to it. -/
def readDimension (layout : GraphLayout) (dimensionsAt stridesAt index : ℕ)
    (state : List ℤ × List ℤ × ℕ) : Result (List ℤ × List ℤ × ℕ) := do
  let (dimensions, strides, count) := state
  let dimension ← layout.blob.readI32 (dimensionsAt + index * 4)
  let stride ← layout.blob.readI64 (stridesAt + index * 8)
  refuseIf (dimension ≤ 0 ∨ stride < 0 ∨ uint64Max / dimension.toNat < count)
    (unsupported "MemRefData dimensions or strides are unsupported")
  .ok (dimensions ++ [dimension], strides ++ [stride], count * dimension.toNat)

/-- A failed look-up keeps its diagnostic, but `validate_memref` returns UNSUPPORTED. -/
def asUnsupported {α : Type} : Result α → Result α
  | .error (.error _ diagnostic) => .error (.error .unsupported diagnostic)
  | x => x

/-- `validate_memref`. -/
def validateMemref (layout : GraphLayout) (recordOffset : ℕ) : Result MemrefContract := do
  let params ← sectionAt layout.sections layout.paramsIndex
  refuseIf (¬rangeInBounds recordOffset 0x28 params.size)
    (unsupported "MemRefData record is outside KernelParams")
  let record := params.offset + recordOffset
  let kind ← layout.blob.readU32 (record + 0x18)
  let isStatic ← layout.blob.readU32 (record + 8)
  let location ← layout.blob.readU32 (record + 0x24)
  refuseIf (isStatic ≠ 1 ∨ 12 ≤ kind ∨ dtypeStrideBits kind = 0 ∨ location ≠ 2)
    (unsupported "selected invocation is not static FP16/FP32/U8/U16/U32/I32/I16/I8 CMX")
  let rank ← layout.blob.readU32 (record + 0x0c)
  refuseIf (rank = 0 ∨ 15 < rank)
    (unsupported "selected invocation uses an unsupported tensor rank")
  let dimensions ← asUnsupported (findPointerRelocation layout layout.paramsIndex
    (recordOffset + 0x10) (some layout.paramsIndex) false)
  let strides ← asUnsupported (findPointerRelocation layout layout.paramsIndex
    (recordOffset + 0x14) (some layout.paramsIndex) false)
  let data ← asUnsupported (findPointerRelocation layout layout.paramsIndex recordOffset
    none true)
  refuseIf (dimensions.addend < 0 ∨ strides.addend < 0 ∨
      ¬rangeInBounds dimensions.addend.toNat (rank * 4) params.size ∨
      ¬rangeInBounds strides.addend.toNat (rank * 8) params.size)
    (unsupported "MemRefData dimensions or strides are outside KernelParams")
  let (dimensionValues, strideValues, count) ← forRange 0 rank ([], [], 1)
    (readDimension layout (params.offset + dimensions.addend.toNat)
      (params.offset + strides.addend.toNat))
  checkDense dimensionValues strideValues (rank + 1) [] (dtypeStrideBits kind)
  refuseIf (uint64Max / dtypeSizeBytes kind < count) (unsupported "tensor byte span overflows")
  refuseIf (data.addend < 0) (unsupported "tensor data address is negative")
  .ok { elementCount := count, spanBytes := count * dtypeSizeBytes kind, dtypeKind := kind,
        dataSymbol := data.symbol, dataAddend := data.addend, rank,
        dimensions := dimensionValues, stridesBits := strideValues }

/-- `spans_overlap`. An interval that leaves 64 bits overlaps everything. -/
def spansOverlap (left leftSize right rightSize : ℕ) : Bool :=
  if uint64Max - leftSize < left ∨ uint64Max - rightSize < right then true
  else left < right + rightSize && right < left + leftSize

end Npunlock
