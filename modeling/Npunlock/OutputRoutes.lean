import Npunlock.DmaTasks

/-!
# Network-output routes

`inspect_network_output_routes` reads the relocation sections that connect DMA tasks with
the network outputs. An entry names the task it writes the destination of and the output
symbol, and the runtime relocations of the same task section name the CMX address that the
task reads.
-/

namespace Npunlock

/-! ## The sections behind a route -/

/-- The suffix of the name of a `.rlt.DMA_NetOutput` section. -/
def routeSuffix (sec : GraphSection) : List UInt8 :=
  sec.name.drop (ascii ".rlt.DMA_NetOutput").length

def isRouteSection (sec : GraphSection) : Bool :=
  nameHasDecimalSuffix sec.name ".rlt.DMA_NetOutput"

/-- The first pass : the number of routes in the first `index + 1` sections. -/
def countRoutesOf (layout : GraphLayout) (index count : ℕ) : Result ℕ := do
  let sec ← sectionAt layout.sections index
  if ¬isRouteSection sec then .ok count
  else do
    refuseIf (sec.type ≠ shtRela ∨ sec.flags ≠ 0x500040 ∨ sec.address ≠ 0 ∨ sec.alignment ≠ 8 ∨
        sec.entrySize ≠ 0x18 ∨ sec.size % 0x18 ≠ 0 ∨ layout.sectionCount ≤ sec.info ∨
        layout.sectionCount ≤ sec.link)
      (unsupported "network-output relocation section is unsupported")
    refuseIf (sec.size / 0x18 = 0) (unsupported "network-output relocation section is empty")
    match checkedAddSize count (sec.size / 0x18) with
    | some count => .ok count
    | none => .error (malformed "network-output route count overflows")

def countRoutes (layout : GraphLayout) : Result ℕ :=
  forRange 0 layout.sectionCount 0 (countRoutesOf layout)

/-- The sections that the entries of a route section refer to. -/
structure RouteTables where
  target : GraphSection
  symbols : GraphSection
  strings : GraphSection
  runtimeRelocations : GraphSection

/-- The CMX relocations of the task section of a route section. -/
def runtimeRelocationSections (layout : GraphLayout) (sec : GraphSection) : List GraphSection :=
  layout.sections.filter fun candidate =>
    nameMatchesSuffix candidate.name ".rlt.text.dmaTasks" (routeSuffix sec) &&
      candidate.info == sec.info && candidate.link == vpuRtSymtab

def routeTables (layout : GraphLayout) (sec : GraphSection) : Result RouteTables := do
  let target ← sectionAt layout.sections sec.info
  let symbols ← sectionAt layout.sections sec.link
  refuseIf (¬nameMatchesSuffix target.name ".text.dmaTasks" (routeSuffix sec) ∨
      target.type ≠ shtProgbits ∨ target.alignment ≠ 64 ∨ target.entrySize ≠ 1 ∨
      target.size = 0 ∨ target.size % 0x80 ≠ 0 ∨ uint32Max < target.size / 0x80)
    (unsupported "network-output relocation targets an unsupported DMA section")
  refuseIf (symbols.name ≠ ascii ".symtab.output" ∨ symbols.type ≠ shtSymtab ∨
      symbols.flags ≠ 0x400000 ∨ symbols.address ≠ 0 ∨ symbols.info ≠ 0 ∨
      symbols.alignment ≠ 8 ∨ symbols.entrySize ≠ 0x18 ∨ symbols.size % 0x18 ≠ 0 ∨
      layout.sectionCount ≤ symbols.link)
    (unsupported "network-output relocation symbol table is unsupported")
  let strings ← sectionAt layout.sections symbols.link
  let badStrings := unsupported "network-output symbol strings are unsupported"
  refuseIf (strings.name ≠ ascii ".symstrtab" ∨ strings.type ≠ shtStrtab ∨ strings.flags ≠ 0 ∨
    strings.address ≠ 0 ∨ strings.link ≠ 0 ∨ strings.info ≠ 0 ∨ strings.alignment ≠ 4 ∨
    strings.entrySize ≠ 0 ∨ strings.size = 0) badStrings
  let first ← layout.blob.readU8 strings.offset
  refuseIf (first ≠ 0) badStrings
  let badRuntime := unsupported "network-output DMA runtime relocations are unsupported"
  match runtimeRelocationSections layout sec with
  | [runtimeRelocations] => do
    refuseIf (runtimeRelocations.type ≠ shtRela ∨ runtimeRelocations.flags ≠ 0x40 ∨
      runtimeRelocations.address ≠ 0 ∨ runtimeRelocations.alignment ≠ 8 ∨
      runtimeRelocations.entrySize ≠ 0x18 ∨ runtimeRelocations.size % 0x18 ≠ 0) badRuntime
    .ok { target, symbols, strings, runtimeRelocations }
  | _ => .error badRuntime

/-! ## One route -/

/-- The addend of a runtime relocation, appended if the relocation writes the source of the
task whose destination is at `targetOffset`. -/
def readRouteSource (layout : GraphLayout) (runtimeRelocations : GraphSection)
    (targetOffset entryIndex : ℕ) (found : List ℤ) : Result (List ℤ) := do
  let entry := runtimeRelocations.offset + entryIndex * 0x18
  let sourceOffset ← layout.blob.readU64 entry
  let sourceInfo ← layout.blob.readU64 (entry + 8)
  if sourceOffset = targetOffset - 8 ∧ sourceInfo % 2 ^ 32 = rVpu64 ∧
      sourceInfo / 2 ^ 32 = vpuNnrdSymNncxmSliceBaseAddr then do
    let addend ← layout.blob.readI64 (entry + 16)
    .ok (found ++ [addend])
  else .ok found

/-- The checks on the output symbol of a route. Returns the size of the output. -/
def readOutputSymbol (layout : GraphLayout) (symbols strings : GraphSection)
    (symbolIndex : ℕ) : Result ℕ := do
  let symbol := symbols.offset + symbolIndex * 0x18
  let nameOffset ← layout.blob.readU32 symbol
  let outputSize ← layout.blob.readU64 (symbol + 16)
  let info ← layout.blob.readU8 (symbol + 4)
  let other ← layout.blob.readU8 (symbol + 5)
  let sectionIndex ← layout.blob.readU16 (symbol + 6)
  let value ← layout.blob.readU64 (symbol + 8)
  let badSymbol := unsupported "network-output symbol is unsupported"
  refuseIf (info ≠ 0 ∨ other ≠ 0 ∨ sectionIndex ≠ 0 ∨ value ≠ 0 ∨ outputSize = 0 ∨
    strings.size ≤ nameOffset) badSymbol
  let name ← layout.blob.readString (strings.offset + nameOffset) (strings.size - nameOffset)
  refuseIf (name = none) badSymbol
  .ok outputSize

/-- Entry `entryIndex` of a route section. -/
def readRoute (layout : GraphLayout) (sec : GraphSection) (tables : RouteTables)
    (entryIndex : ℕ) : Result NetworkOutputRouteObservation := do
  let entry := sec.offset + entryIndex * 0x18
  let targetOffset ← layout.blob.readU64 entry
  let info ← layout.blob.readU64 (entry + 8)
  let outputAddend ← layout.blob.readI64 (entry + 16)
  let symbolIndex := info / 2 ^ 32
  refuseIf (info % 2 ^ 32 ≠ rVpu64 ∨ symbolIndex = 0 ∨
      tables.symbols.size / 0x18 ≤ symbolIndex ∨ outputAddend < 0 ∨
      targetOffset % 0x80 ≠ 0x18 ∨ ¬rangeInBounds targetOffset 8 tables.target.size)
    (unsupported "network-output DMA destination relocation is unsupported")
  let outputSize ← readOutputSymbol layout tables.symbols tables.strings symbolIndex
  let taskBase := targetOffset - 0x18
  let length ← layout.blob.readU32 (tables.target.offset + taskBase + 0x20)
  refuseIf (length = 0 ∨ outputSize < outputAddend.toNat ∨
      outputSize - outputAddend.toNat < length)
    (unsupported "network-output DMA length exceeds its output tensor")
  let sources ← forRange 0 (tables.runtimeRelocations.size / 0x18) []
    (readRouteSource layout tables.runtimeRelocations targetOffset)
  let badSource := unsupported "network-output DMA CMX source is missing or unsupported"
  match sources with
  | [cmxAddend] => do
    refuseIf (cmxAddend < 0 ∨ uint64Max - length < cmxAddend.toNat) badSource
    .ok { dmaSectionIndex := sec.info, dmaTaskIndex := taskBase / 0x80,
          cmxSourceSymbolRaw := vpuNnrdSymNncxmSliceBaseAddr, cmxSourceAddendRaw := cmxAddend,
          outputSymbolRaw := symbolIndex, outputAddendRaw := outputAddend,
          lengthBytes := length }
  | _ => .error badSource

/-! ## All routes -/

/-- The second pass over one section. -/
def routesOf (layout : GraphLayout) (index : ℕ) :
    Result (List NetworkOutputRouteObservation) := do
  let sec ← sectionAt layout.sections index
  if ¬isRouteSection sec then .ok []
  else do
    let tables ← routeTables layout sec
    mapRange (sec.size / 0x18) (readRoute layout sec tables)

/-- `inspect_network_output_routes`. -/
def inspectNetworkOutputRoutes (layout : GraphLayout) :
    Result (List NetworkOutputRouteObservation) := do
  let count ← countRoutes layout
  refuseIf (count = 0) (unsupported "graph has no inspectable network-output DMA route")
  let routes ← mapRange layout.sectionCount (routesOf layout)
  let routes ← writeWithin count routes.flatten
  refuseIf (routes.length ≠ count)
    (malformed "network-output route count changed during inspection")
  .ok routes

end Npunlock
