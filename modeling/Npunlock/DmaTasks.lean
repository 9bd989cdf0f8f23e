import Npunlock.Observations
import Npunlock.Relocation

/-!
# DMA tasks

`inspect_dma_tasks` reads the DMA task sections of a graph. A task has one relocation for
its source and one for its destination, and the symbol table behind a relocation tells the
memory of the endpoint.

The two passes of the source are `countDmaTasks` and the loop of `inspectDmaTasks` over
`dmaTasksOf`. The endpoint that a relocation entry writes is appended to a list, whose
length and last entry are the counter and the record of the source.
-/

namespace Npunlock

/-! ## Names with a number -/

/-- `name_has_decimal_suffix`. -/
def nameHasDecimalSuffix (name : List UInt8) (stem : String) : Bool :=
  let suffix := name.drop (ascii stem).length
  (ascii stem).isPrefixOf name && suffix != [] && suffix.all fun byte => 0x30 ≤ byte && byte ≤ 0x39

/-- `name_matches_suffix`. -/
def nameMatchesSuffix (name : List UInt8) (stem : String) (suffix : List UInt8) : Bool :=
  name == ascii stem ++ suffix

/-- `parse_decimal_suffix_u32`. -/
def parseDecimalSuffixU32 (name : List UInt8) (stem : String) : Option ℕ :=
  if nameHasDecimalSuffix name stem then
    (name.drop (ascii stem).length).foldlM (fun result byte =>
      let digit := byte.toNat - 0x30
      if (uint32Max - digit) / 10 < result then none else some (result * 10 + digit)) 0
  else none

/-! ## Endpoints -/

/-- `graph_symbol_name_equals`. -/
def graphSymbolNameEquals (layout : GraphLayout) (symbols : GraphSection) (symbolIndex : ℕ)
    (expected : String) : Result Bool := do
  let expectedSize := (ascii expected).length
  if symbols.type ≠ shtSymtab ∨ symbols.entrySize ≠ 0x18 ∨ symbols.size % 0x18 ≠ 0 ∨
      symbols.size / 0x18 ≤ symbolIndex ∨ layout.sectionCount ≤ symbols.link then
    .ok false
  else do
    let strings ← sectionAt layout.sections symbols.link
    if strings.type ≠ shtStrtab ∨ strings.size = 0 then .ok false
    else do
      let nameOffset ← layout.blob.readU32 (symbols.offset + symbolIndex * 0x18)
      if strings.size < nameOffset ∨ strings.size - nameOffset ≤ expectedSize then .ok false
      else do
        let name ← layout.blob.readBytes (strings.offset + nameOffset) expectedSize
        if name ≠ ascii expected then .ok false
        else do
          let terminator ← layout.blob.readU8 (strings.offset + nameOffset + expectedSize)
          .ok (terminator == 0)

/-- `classify_dma_endpoint`. -/
def classifyDmaEndpoint (layout : GraphLayout) (relocations : GraphSection) (symbolIndex : ℕ) :
    Result DmaEndpoint :=
  if relocations.link = vpuRtSymtab then
    .ok (if symbolIndex = vpuNnrdSymNncxmSliceBaseAddr then .cmx else .runtime)
  else do
    refuseIf (layout.sectionCount ≤ relocations.link)
      (unsupported "DMA endpoint symbol table is unsupported")
    let symbols ← sectionAt layout.sections relocations.link
    refuseIf (symbols.type ≠ shtSymtab ∨ symbols.entrySize ≠ 0x18 ∨ symbols.size % 0x18 ≠ 0 ∨
        symbols.size / 0x18 ≤ symbolIndex)
      (malformed "DMA endpoint symbol index is outside its symbol table")
    if symbols.name = ascii ".symtab.input" then .ok .networkInput
    else if symbols.name = ascii ".symtab.output" then .ok .networkOutput
    else if symbols.name = ascii ".symtab.buffers" then do
      let isBuffer ← graphSymbolNameEquals layout symbols symbolIndex "sym_bufferSection"
      if isBuffer then .ok .ddrBuffer
      else do
        let isConstant ← graphSymbolNameEquals layout symbols symbolIndex "sym_constSection"
        .ok (if isConstant then .constant else .unknown)
    else .ok .unknown

/-- The endpoints of a task found so far. -/
structure DmaEndpoints where
  sources : List DmaEndpointObservation := []
  destinations : List DmaEndpointObservation := []

/-- One entry of a relocation section of a task section. -/
def readDmaEntry (layout : GraphLayout) (relocationIndex : ℕ) (relocations : GraphSection)
    (taskIndex entryIndex : ℕ) (found : DmaEndpoints) : Result DmaEndpoints := do
  let entry := relocations.offset + entryIndex * 0x18
  let targetOffset ← layout.blob.readU64 entry
  let info ← layout.blob.readU64 (entry + 8)
  let expectedSource := taskIndex * 0x80 + 0x10
  let expectedDestination := taskIndex * 0x80 + 0x18
  if targetOffset ≠ expectedSource ∧ targetOffset ≠ expectedDestination then .ok found
  else do
    let relocationType := info % 2 ^ 32
    let symbolRaw := info / 2 ^ 32
    refuseIf (relocationType ≠ rVpu64 ∧ relocationType ≠ rVpu64Or)
      (unsupported "DMA endpoint relocation type is unsupported")
    let addendRaw ← layout.blob.readI64 (entry + 16)
    let memoryKind ← classifyDmaEndpoint layout relocations symbolRaw
    let endpoint : DmaEndpointObservation :=
      { memoryKind, relocationSectionIndex := relocationIndex,
        symbolTableIndex := relocations.link, symbolRaw, relocationType, addendRaw }
    .ok (if targetOffset = expectedSource then
        { found with sources := found.sources ++ [endpoint] }
      else { found with destinations := found.destinations ++ [endpoint] })

/-- The endpoints of a task in all relocation sections of its section. -/
def collectDmaEndpoints (layout : GraphLayout) (sectionIndex taskIndex : ℕ) :
    Result DmaEndpoints :=
  forRange 0 layout.sectionCount {} fun relocationIndex found => do
    let relocations ← sectionAt layout.sections relocationIndex
    if relocations.type ≠ shtRela ∨ relocations.info ≠ sectionIndex then .ok found
    else do
      refuseIf (relocations.address ≠ 0 ∨ relocations.alignment ≠ 8 ∨
          relocations.entrySize ≠ 0x18 ∨ relocations.size % 0x18 ≠ 0)
        (unsupported "DMA relocation section is unsupported")
      forRange 0 (relocations.size / 0x18) found
        (readDmaEntry layout relocationIndex relocations taskIndex)

/-! ## Tasks -/

/-- The fields of a task that depend on its transfer type. -/
structure DmaTransfer where
  sourceWidth : ℕ := 0
  sourceStride : ℤ := 0
  destinationWidth : ℕ := 0
  destinationStride : ℤ := 0
  postMask : ℕ
  waitMask : ℕ

def readDmaTransfer (blob : View) (record transferType : ℕ) : Result DmaTransfer :=
  if transferType = 0 then do
    let postMask ← blob.readU64 (record + 0x30)
    let waitMask ← blob.readU64 (record + 0x38)
    .ok { postMask, waitMask }
  else if transferType = 1 then do
    let sourceWidth ← blob.readU32 (record + 0x30)
    let sourceStride ← blob.readI32 (record + 0x34)
    let destinationWidth ← blob.readU32 (record + 0x38)
    let destinationStride ← blob.readI32 (record + 0x3c)
    let postMask ← blob.readU64 (record + 0x40)
    let waitMask ← blob.readU64 (record + 0x48)
    .ok { sourceWidth, sourceStride, destinationWidth, destinationStride, postMask, waitMask }
  else .error (unsupported "DMA transfer type is unsupported")

/-- Task `taskIndex` of a DMA task section. -/
def readDmaTask (layout : GraphLayout) (sec : GraphSection) (sectionIndex engineIndex : ℕ)
    (taskIndex : ℕ) : Result DmaTaskObservation := do
  let record := sec.offset + taskIndex * 0x80
  let config ← layout.blob.readU64 (record + 0x08)
  let planesAndId ← layout.blob.readU32 (record + 0x24)
  let length ← layout.blob.readU32 (record + 0x20)
  let sourcePlaneStride ← layout.blob.readI32 (record + 0x28)
  let destinationPlaneStride ← layout.blob.readI32 (record + 0x2c)
  let sourceValue ← layout.blob.readU64 (record + 0x10)
  let destinationValue ← layout.blob.readU64 (record + 0x18)
  let startAfter ← layout.blob.readU32 (record + 0x50)
  let cleanAfter ← layout.blob.readU32 (record + 0x54)
  let transferType := config &&& 3
  let transfer ← readDmaTransfer layout.blob record transferType
  refuseIf (length = 0) (unsupported "DMA task has an empty transfer")
  let endpoints ← collectDmaEndpoints layout sectionIndex taskIndex
  match endpoints.sources, endpoints.destinations with
  | [source], [destination] =>
    .ok { sectionIndex, taskIndex, engineIndex, transferTypeRaw := transferType,
          lengthBytes := length, numPlanesRaw := planesAndId &&& 0xff,
          taskIdRaw := planesAndId >>> 8, sourcePlaneStrideRaw := sourcePlaneStride,
          destinationPlaneStrideRaw := destinationPlaneStride,
          sourceWidthRaw := transfer.sourceWidth, sourceStrideRaw := transfer.sourceStride,
          destinationWidthRaw := transfer.destinationWidth,
          destinationStrideRaw := transfer.destinationStride, waitMaskRaw := transfer.waitMask,
          postMaskRaw := transfer.postMask, startAfterRaw := startAfter,
          cleanAfterRaw := cleanAfter, sourceValueRaw := sourceValue,
          destinationValueRaw := destinationValue, source, destination }
  | _, _ => .error (unsupported "DMA task endpoints are missing or ambiguous")

/-- The engine of a DMA task section. -/
def dmaEngineIndex (sec : GraphSection) : Option ℕ :=
  parseDecimalSuffixU32 sec.name ".text.dmaTasks"

/-- The first pass : the number of tasks in the first `index + 1` sections. -/
def countDmaTasksOf (layout : GraphLayout) (index count : ℕ) : Result ℕ := do
  let sec ← sectionAt layout.sections index
  if dmaEngineIndex sec = none then .ok count
  else do
    refuseIf (sec.type ≠ shtProgbits ∨ sec.address ≠ 0 ∨ sec.alignment ≠ 64 ∨
        sec.entrySize ≠ 1 ∨ sec.size = 0 ∨ sec.size % 0x80 ≠ 0)
      (unsupported "DMA task section has an unsupported NPU3720 form")
    refuseIf (uint32Max < sec.size / 0x80)
      (unsupported "DMA task count exceeds the supported range")
    match checkedAddSize count (sec.size / 0x80) with
    | some count => .ok count
    | none => .error (malformed "DMA task observation count overflows")

def countDmaTasks (layout : GraphLayout) : Result ℕ :=
  forRange 0 layout.sectionCount 0 (countDmaTasksOf layout)

/-- The second pass over one section. -/
def dmaTasksOf (layout : GraphLayout) (index : ℕ) : Result (List DmaTaskObservation) := do
  let sec ← sectionAt layout.sections index
  match dmaEngineIndex sec with
  | none => .ok []
  | some engineIndex => mapRange (sec.size / 0x80) (readDmaTask layout sec index engineIndex)

/-- `inspect_dma_tasks`. -/
def inspectDmaTasks (layout : GraphLayout) : Result (List DmaTaskObservation) := do
  let count ← countDmaTasks layout
  refuseIf (count = 0) (unsupported "graph has no inspectable DMA tasks")
  let tasks ← mapRange layout.sectionCount (dmaTasksOf layout)
  let tasks ← writeWithin count tasks.flatten
  refuseIf (tasks.length ≠ count)
    (malformed "DMA task observation count changed during inspection")
  .ok tasks

end Npunlock
