import Npunlock.Common

/-!
# SHAVE ELF images

`npunlock_parse_shave_elf` accepts an ELF32 executable with one `.text` section at the ACT
address and an empty `.arg.data` section. It refuses relocations and undefined symbols and
looks for a load segment around `.text`, which it compares in the file and in memory.

Record sizes are written as the numbers behind the source's constants : 52 for
`ELF32_HEADER_SIZE`, 40 for `ELF32_SECTION_SIZE`, 32 for `ELF32_PROGRAM_SIZE`, 16 for
`ELF32_SYMBOL_SIZE`.
-/

namespace Npunlock.Elf32

def elfTypeExec : ℕ := 2
def elfMachineSparc : ℕ := 2
def elfSectionProgbits : ℕ := 1
def elfSectionSymtab : ℕ := 2
def elfSectionStrtab : ℕ := 3
def elfSectionRela : ℕ := 4
def elfSectionNobits : ℕ := 8
def elfSectionRel : ℕ := 9
def elfProgramLoad : ℕ := 1
def elfShnUndef : ℕ := 0
def shaveTextAddress : ℕ := 0x1d000000
def shaveArgAddress : ℕ := 0x1e000000

/-- `fail`. -/
def fail (status : Status) (message : String) : Failure :=
  setDiagnostic status "elf32.validate" message

/-- `range_is_valid`. -/
def rangeIsValid (total offset size : ℕ) : Bool :=
  offset ≤ total && size ≤ total - offset

/-! ## Sections and names -/

/-- `elf32_section`. -/
structure Elf32Section where
  name : ℕ
  type : ℕ
  flags : ℕ
  address : ℕ
  offset : ℕ
  size : ℕ
  link : ℕ
  entrySize : ℕ

/-- The position of record `index` of a table, if it is in the file. -/
def recordOffset (elf : View) (tableOffset entrySize index recordSize : ℕ) : Option ℕ :=
  match checkedMulSize index entrySize with
  | none => none
  | some relative =>
    match checkedAddSize tableOffset relative with
    | none => none
    | some offset => if rangeIsValid elf.size offset recordSize then some offset else none

/-- The value of an option, or a failure. -/
def orFail {α : Type} (value : Option α) (failure : Failure) : Result α :=
  match value with
  | some value => .ok value
  | none => .error failure

/-- `read_section`, with the failure of its caller. -/
def readSection (elf : View) (tableOffset entrySize index : ℕ) (failure : Failure) :
    Result Elf32Section := do
  let data ← orFail (recordOffset elf tableOffset entrySize index 40) failure
  let name ← elf.readU32 data
  let type ← elf.readU32 (data + 4)
  let flags ← elf.readU32 (data + 8)
  let address ← elf.readU32 (data + 12)
  let offset ← elf.readU32 (data + 16)
  let size ← elf.readU32 (data + 20)
  let link ← elf.readU32 (data + 24)
  let entrySize ← elf.readU32 (data + 36)
  .ok { name, type, flags, address, offset, size, link, entrySize }

/-- `string_at`, with the failure of its caller. -/
def stringAt (elf : View) (strings : Elf32Section) (offset : ℕ) (failure : Failure) :
    Result (List UInt8) := do
  refuseIf (strings.size ≤ offset ∨ ¬rangeIsValid elf.size strings.offset strings.size) failure
  let value ← elf.readString (strings.offset + offset) (strings.size - offset)
  orFail value failure

/-! ## Symbols -/

/-- One symbol of `validate_symbols`. -/
def validateSymbol (elf : View) (symbols strings : Elf32Section) (index : ℕ) : Result Unit := do
  let symbol ← orFail (recordOffset elf symbols.offset 16 index 16)
    (fail .malformedInput "ELF32 symbol lies outside the file")
  let name ← elf.readU32 symbol
  let sectionIndex ← elf.readU16 (symbol + 14)
  if name = 0 then .ok ()
  else do
    let _ ← stringAt elf strings name (fail .malformedInput "ELF32 symbol name is invalid")
    refuseIf (sectionIndex = elfShnUndef)
      (fail .unsupported "SHAVE ELF contains an undefined symbol")

/-- `validate_symbols`. -/
def validateSymbols (elf : View) (sectionTable sectionEntrySize sectionCount : ℕ)
    (symbols : Elf32Section) : Result Unit := do
  let badTable := fail .malformedInput "invalid ELF32 symbol table metadata"
  refuseIf (symbols.entrySize ≠ 16 ∨ symbols.size % 16 ≠ 0 ∨ sectionCount ≤ symbols.link) badTable
  let strings ← readSection elf sectionTable sectionEntrySize symbols.link badTable
  refuseIf (strings.type ≠ elfSectionStrtab) badTable
  checkRange 1 (symbols.size / 16) (validateSymbol elf symbols strings)

/-! ## The header -/

/-- The fields of the ELF header that the parser uses. -/
structure Elf32Header where
  entry : ℕ
  programTable : ℕ
  sectionTable : ℕ
  programEntrySize : ℕ
  programCount : ℕ
  sectionEntrySize : ℕ
  sectionCount : ℕ
  stringIndex : ℕ

/-- A table of `count` records lies in the file. -/
def tableIsValid (elf : View) (table entrySize count : ℕ) : Bool :=
  match checkedMulSize entrySize count with
  | some tableSize => rangeIsValid elf.size table tableSize
  | none => false

/-- The checks on the ELF header and the extents of the two tables. -/
def readHeader (elf : View) : Result Elf32Header := do
  let notElf := fail .malformedInput "expected ELF32 little-endian version 1"
  refuseIf (elf.size < 52) notElf
  let magic ← elf.readBytes 0 4
  let elfClass ← elf.readU8 4
  let encoding ← elf.readU8 5
  let version ← elf.readU8 6
  refuseIf (magic ≠ [0x7f, 0x45, 0x4c, 0x46] ∨ elfClass ≠ 1 ∨ encoding ≠ 1 ∨ version ≠ 1) notElf
  let type ← elf.readU16 16
  let machine ← elf.readU16 18
  let fileVersion ← elf.readU32 20
  refuseIf (type ≠ elfTypeExec ∨ machine ≠ elfMachineSparc ∨ fileVersion ≠ 1)
    (fail .unsupported "expected an executable SPARC/SHAVE ELF")
  let entry ← elf.readU32 24
  let programTable ← elf.readU32 28
  let sectionTable ← elf.readU32 32
  let headerSize ← elf.readU16 40
  let programEntrySize ← elf.readU16 42
  let programCount ← elf.readU16 44
  let sectionEntrySize ← elf.readU16 46
  let sectionCount ← elf.readU16 48
  let stringIndex ← elf.readU16 50
  refuseIf (headerSize < 52 ∨ (programCount ≠ 0 ∧ programEntrySize < 32) ∨ sectionEntrySize < 40 ∨
      sectionCount = 0 ∨ sectionCount ≤ stringIndex ∨
      ¬tableIsValid elf sectionTable sectionEntrySize sectionCount)
    (fail .malformedInput "invalid ELF32 header or section table")
  refuseIf (programCount ≠ 0 ∧ ¬tableIsValid elf programTable programEntrySize programCount)
    (fail .malformedInput "invalid ELF32 program table")
  .ok { entry, programTable, sectionTable, programEntrySize, programCount, sectionEntrySize,
        sectionCount, stringIndex }

/-! ## The sections of an image -/

/-- The sections found so far. -/
structure FoundSections where
  text : Option Elf32Section := none
  argData : Option Elf32Section := none

/-- Keeps the sections with the two names. -/
def matchSection (name : List UInt8) (sec : Elf32Section) (found : FoundSections) :
    Result FoundSections := do
  if name = ascii ".text" then
    refuseIf (found.text.isSome = true)
      (fail .malformedInput "SHAVE ELF has multiple .text sections")
    .ok { found with text := some sec }
  else if name = ascii ".arg.data" then
    refuseIf (found.argData.isSome = true)
      (fail .malformedInput "SHAVE ELF has multiple .arg.data sections")
    .ok { found with argData := some sec }
  else .ok found

/-- The loop over the sections, at one of them. -/
def checkSection (elf : View) (header : Elf32Header) (strings : Elf32Section) (index : ℕ)
    (found : FoundSections) : Result FoundSections := do
  let badSection := fail .malformedInput "ELF32 section is malformed or out of bounds"
  let sec ← readSection elf header.sectionTable header.sectionEntrySize index badSection
  refuseIf (sec.type ≠ elfSectionNobits ∧ ¬rangeIsValid elf.size sec.offset sec.size) badSection
  let name ← stringAt elf strings sec.name badSection
  refuseIf ((sec.type = elfSectionRel ∨ sec.type = elfSectionRela) ∧ sec.size ≠ 0)
    (fail .unsupported "SHAVE ELF contains unresolved relocations")
  if sec.type = elfSectionSymtab then
    validateSymbols elf header.sectionTable header.sectionEntrySize header.sectionCount sec
  matchSection name sec found

/-! ## The segments -/

/-- A program header. -/
structure Elf32Program where
  type : ℕ
  fileOffset : ℕ
  virtualAddress : ℕ
  fileSize : ℕ
  memorySize : ℕ
  flags : ℕ

/-- Reads a program header and checks its extent. -/
def readProgram (elf : View) (header : Elf32Header) (index : ℕ) : Result Elf32Program := do
  let program ← orFail
    (recordOffset elf header.programTable header.programEntrySize index 32)
    (fail .malformedInput "ELF32 program header is out of bounds")
  let fileOffset ← elf.readU32 (program + 4)
  let virtualAddress ← elf.readU32 (program + 8)
  let fileSize ← elf.readU32 (program + 16)
  let memorySize ← elf.readU32 (program + 20)
  let flags ← elf.readU32 (program + 24)
  refuseIf (memorySize < fileSize ∨ ¬rangeIsValid elf.size fileOffset fileSize)
    (fail .malformedInput "ELF32 program extent is invalid")
  let type ← elf.readU32 program
  .ok { type, fileOffset, virtualAddress, fileSize, memorySize, flags }

/-- The tests on a segment : it is readable and executable, and `.text` lies in its part of the
file and in its part of memory. -/
def coversText (program : Elf32Program) (text : Elf32Section) : Bool :=
  program.type == elfProgramLoad && program.flags &&& 5 == 5 &&
    program.fileOffset ≤ text.offset && program.virtualAddress ≤ text.address &&
    rangeIsValid program.fileSize (text.offset - program.fileOffset) text.size &&
    rangeIsValid program.memorySize (text.address - program.virtualAddress) text.size

/-- The loop over the program headers, at one of them. -/
def checkProgram (elf : View) (header : Elf32Header) (text : Elf32Section) (index : ℕ)
    (textIsLoadable : Bool) : Result Bool := do
  let program ← readProgram elf header index
  .ok (textIsLoadable || coversText program text)

/-! ## The parser -/

/-- `npunlock_shave_image`. -/
structure ShaveImage where
  fileOffset : ℕ
  size : ℕ
  address : ℕ
  entry : ℕ
  deriving DecidableEq

/-- `.text` matches the ACT contract. -/
def requireText (header : Elf32Header) (found : FoundSections) : Result Elf32Section := do
  let badText := fail .unsupported "SHAVE .text or entry does not match the 3720xx ACT contract"
  let text ← orFail found.text badText
  refuseIf (text.type ≠ elfSectionProgbits ∨ text.size = 0 ∨ text.flags &&& 6 ≠ 6 ∨
    text.address ≠ shaveTextAddress ∨ header.entry ≠ text.address) badText
  .ok text

/-- `.arg.data` is empty at its address. -/
def requireArgData (found : FoundSections) : Result Unit := do
  let badArgData := fail .unsupported "SHAVE .arg.data must be empty at 0x1e000000"
  let argData ← orFail found.argData badArgData
  refuseIf (argData.address ≠ shaveArgAddress ∨ argData.size ≠ 0) badArgData

/-- `npunlock_parse_shave_elf`. -/
def parseShaveElf (elf : View) : Result ShaveImage := do
  let header ← readHeader elf
  let badStrings := fail .malformedInput "invalid ELF32 section-name table"
  let strings ← readSection elf header.sectionTable header.sectionEntrySize header.stringIndex
    badStrings
  refuseIf (strings.type ≠ elfSectionStrtab ∨
    ¬rangeIsValid elf.size strings.offset strings.size) badStrings
  let found ← forRange 0 header.sectionCount {} (checkSection elf header strings)
  let text ← requireText header found
  requireArgData found
  let textIsLoadable ← forRange 0 header.programCount false (checkProgram elf header text)
  refuseIf (¬textIsLoadable)
    (fail .unsupported "SHAVE .text is not covered by an executable load segment")
  .ok { fileOffset := text.offset, size := text.size, address := text.address,
        entry := header.entry }

end Npunlock.Elf32
