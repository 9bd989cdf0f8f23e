import Npunlock.Observations

/-!
# Input and output symbols

`npunlock_inspect_graph_io_symbols` lists the symbols of the two symbol tables for the
network inputs and outputs. A first pass checks the symbols and adds up the lengths of
their names. A second pass fills the records and copies the names, each read with `strlen`,
behind them.
-/

namespace Npunlock

/-! ## UTF-8 -/

/-- `graph_symbol_name_is_utf8`. -/
def graphSymbolNameIsUtf8 : List UInt8 → Bool
  | [] => true
  | first :: rest =>
    if first < 0x80 then first != 0 && graphSymbolNameIsUtf8 rest
    else if 0xc2 ≤ first ∧ first ≤ 0xdf then
      match rest with
      | second :: rest => 0x80 ≤ second && second ≤ 0xbf && graphSymbolNameIsUtf8 rest
      | _ => false
    else if 0xe0 ≤ first ∧ first ≤ 0xef then
      match rest with
      | second :: third :: rest =>
        let low := if first = 0xe0 then 0xa0 else 0x80
        let high := if first = 0xed then 0x9f else 0xbf
        low ≤ second && second ≤ high && 0x80 ≤ third && third ≤ 0xbf &&
          graphSymbolNameIsUtf8 rest
      | _ => false
    else if 0xf0 ≤ first ∧ first ≤ 0xf4 then
      match rest with
      | second :: third :: fourth :: rest =>
        let low := if first = 0xf0 then 0x90 else 0x80
        let high := if first = 0xf4 then 0x8f else 0xbf
        low ≤ second && second ≤ high && 0x80 ≤ third && third ≤ 0xbf && 0x80 ≤ fourth &&
          fourth ≤ 0xbf && graphSymbolNameIsUtf8 rest
      | _ => false
    else false

/-! ## Symbol tables -/

/-- `patchblob_graph_io_kind`. -/
inductive GraphIoKind
  | input
  | output
  deriving DecidableEq

/-- `patchblob_graph_io_symbol`. -/
structure GraphIoSymbol where
  kind : GraphIoKind
  symbolTableIndex : ℕ
  symbolIndex : ℕ
  sizeBytes : ℕ
  nameUtf8 : List UInt8
  deriving DecidableEq

/-- `table_names`. -/
def GraphIoKind.tableName : GraphIoKind → String
  | .input => ".symtab.input"
  | .output => ".symtab.output"

/-- `table_flags` : `SHF_VPU_NETWORK_INPUT` and `SHF_VPU_NETWORK_OUTPUT`. -/
def GraphIoKind.tableFlags : GraphIoKind → ℕ
  | .input => 0x200000
  | .output => 0x400000

/-- The checks on one symbol table. Returns its string table. -/
def checkIoTable (layout : GraphLayout) (kind : GraphIoKind) (symbols : GraphSection) :
    Result GraphSection := do
  refuseIf (symbols.type ≠ shtSymtab ∨ symbols.flags ≠ kind.tableFlags ∨ symbols.address ≠ 0 ∨
      symbols.info ≠ 0 ∨ symbols.alignment ≠ 8 ∨ symbols.entrySize ≠ 0x18 ∨
      symbols.size % 0x18 ≠ 0 ∨ layout.sectionCount ≤ symbols.link)
    (unsupported "graph I/O symbol table layout is unsupported")
  let strings ← sectionAt layout.sections symbols.link
  let badStrings := unsupported "graph I/O symbol string table layout is unsupported"
  refuseIf (strings.name ≠ ascii ".symstrtab" ∨ strings.type ≠ shtStrtab ∨ strings.flags ≠ 0 ∨
    strings.address ≠ 0 ∨ strings.link ≠ 0 ∨ strings.info ≠ 0 ∨ strings.alignment ≠ 4 ∨
    strings.entrySize ≠ 0 ∨ strings.size = 0) badStrings
  let first ← layout.blob.readU8 strings.offset
  refuseIf (first ≠ 0) badStrings
  let noNull := malformed "graph I/O symbol table has no null symbol"
  refuseIf (symbols.size / 0x18 = 0 ∨ uint32Max < symbols.size / 0x18 - 1) noNull
  let null ← layout.blob.readBytes symbols.offset 0x18
  refuseIf (null ≠ List.replicate 0x18 0) noNull
  .ok strings

/-- The first pass over a symbol : the number of symbols and the length of their names. -/
def countIoSymbol (layout : GraphLayout) (symbols strings : GraphSection) (symbolIndex : ℕ)
    (counts : ℕ × ℕ) : Result (ℕ × ℕ) := do
  let symbol := symbols.offset + symbolIndex * 0x18
  let nameOffset ← layout.blob.readU32 symbol
  let info ← layout.blob.readU8 (symbol + 4)
  let other ← layout.blob.readU8 (symbol + 5)
  let sectionIndex ← layout.blob.readU16 (symbol + 6)
  let value ← layout.blob.readU64 (symbol + 8)
  let size ← layout.blob.readU64 (symbol + 16)
  refuseIf (info ≠ 0 ∨ other ≠ 0 ∨ sectionIndex ≠ 0 ∨ value ≠ 0 ∨ size = 0)
    (unsupported "graph I/O symbol record layout is unsupported")
  refuseIf (nameOffset = 0 ∨ strings.size ≤ nameOffset)
    (malformed "graph I/O symbol name is outside its string table")
  let name ← layout.blob.readString (strings.offset + nameOffset) (strings.size - nameOffset)
  let badName := malformed "graph I/O symbol name is empty or unterminated"
  match name with
  | none => .error badName
  | some name => do
    refuseIf (name = []) badName
    let unsupportedName := unsupported "graph I/O symbol name or count is unsupported"
    refuseIf (¬graphSymbolNameIsUtf8 name) unsupportedName
    match checkedAddSize counts.1 1, checkedAddSize counts.2 name.length with
    | some symbolCount, some namesSize => .ok (symbolCount, namesSize)
    | _, _ => .error unsupportedName

/-- `strlen`, with the bytes before the terminator. -/
def readCString (blob : View) (offset : ℕ) : Result (List UInt8) := do
  let name ← blob.readString offset (blob.size - offset)
  match name with
  | some name => .ok name
  | none => .error .outOfBounds

/-- The second pass over a symbol. -/
def readIoSymbol (layout : GraphLayout) (kind : GraphIoKind) (tableIndex : ℕ)
    (symbols strings : GraphSection) (symbolIndex : ℕ) : Result GraphIoSymbol := do
  let symbol := symbols.offset + symbolIndex * 0x18
  let nameOffset ← layout.blob.readU32 symbol
  let name ← readCString layout.blob (strings.offset + nameOffset)
  let sizeBytes ← layout.blob.readU64 (symbol + 16)
  .ok { kind, symbolTableIndex := tableIndex, symbolIndex, sizeBytes, nameUtf8 := name }

/-- The first pass over the table of one kind. -/
def countIoTable (layout : GraphLayout) (kind : GraphIoKind) (symbols : GraphSection)
    (counts : ℕ × ℕ) : Result (ℕ × ℕ) := do
  let strings ← checkIoTable layout kind symbols
  forRange 1 (symbols.size / 0x18) counts (countIoSymbol layout symbols strings)

/-- The second pass over the table of one kind. -/
def readIoTable (layout : GraphLayout) (kind : GraphIoKind) (symbols : GraphSection)
    (tableIndex : ℕ) : Result (List GraphIoSymbol) := do
  let strings ← sectionAt layout.sections symbols.link
  mapRange (symbols.size / 0x18 - 1) fun index =>
    readIoSymbol layout kind tableIndex symbols strings (index + 1)

/-- The symbols of a parsed graph. -/
def readIoSymbols (layout : GraphLayout) : Result (List GraphIoSymbol) := do
  let inputs := sectionsNamed layout GraphIoKind.input.tableName
  let outputs := sectionsNamed layout GraphIoKind.output.tableName
  refuseIf (1 < inputs.length ∨ 1 < outputs.length)
    (malformed "graph contains a duplicate I/O symbol table")
  match inputs, outputs with
  | (input, inputIndex) :: _, (output, outputIndex) :: _ => do
    let counts ← countIoTable layout .input input (0, 0)
    let (symbolCount, namesSize) ← countIoTable layout .output output counts
    refuseIf (symbolCount = 0)
      (unsupported "graph I/O symbol tables contain no tensor symbols")
    let inputSymbols ← readIoTable layout .input input inputIndex
    let outputSymbols ← readIoTable layout .output output outputIndex
    let symbols ← writeWithin symbolCount (inputSymbols ++ outputSymbols)
    let _ ← writeWithin namesSize (symbols.flatMap GraphIoSymbol.nameUtf8)
    .ok symbols
  | _, _ =>
    .error (unsupported "graph does not contain dedicated input/output symbol tables")

/-- `npunlock_inspect_graph_io_symbols`. -/
def inspectGraphIoSymbols (blob : View) : Result (List GraphIoSymbol) := do
  let layout ← parseGraph blob
  readIoSymbols layout

end Npunlock
