import Npunlock.DiscoverySpec
import Npunlock.ShaveElf

/-!
# What an accepted SHAVE ELF is

The parser reads inside the file, and what it accepts has its `.text` in the file, no
relocations and no undefined symbols. A segment was found whose part of the file and whose
part of memory both contain `.text`. The bytes of `.text` are what the segment maps to the
address of `.text` if the two distances are equal, which the parser does not check.
-/

namespace Npunlock.Elf32

open View

variable {elf : View} {header : Elf32Header}

/-! ## Records of the file -/

theorem rangeIsValid_iff {total offset size : ℕ} :
    rangeIsValid total offset size = true ↔ offset + size ≤ total := by
  simp only [rangeIsValid, Bool.and_eq_true, decide_eq_true_eq]
  omega

theorem recordOffset_eq_some {tableOffset entrySize index recordSize offset : ℕ}
    (h : recordOffset elf tableOffset entrySize index recordSize = some offset) :
    offset = tableOffset + index * entrySize ∧ offset + recordSize ≤ elf.size := by
  unfold recordOffset at h
  split at h
  · cases h
  · next relative hmul =>
    obtain ⟨-, rfl⟩ := checkedMulSize_eq_some_iff.1 hmul
    split at h
    · cases h
    · next sum hadd =>
      obtain ⟨-, rfl⟩ := checkedAddSize_eq_some_iff.1 hadd
      split_ifs at h with hrange
      obtain rfl := Option.some.inj h
      exact ⟨rfl, rangeIsValid_iff.1 hrange⟩

theorem orFail_spec {α : Type} {value : Option α} {failure : Failure} (h : ¬failure.IsFault) :
    Safe (orFail value failure) fun a => value = some a := by
  cases value with
  | none => exact Meets.error h
  | some a => exact Meets.ok rfl

@[simp] theorem not_isFault_fail (status : Status) (message : String) :
    ¬(fail status message).IsFault :=
  not_false

/-- The section header at `data`. -/
def sectionAt (elf : View) (data : ℕ) : Elf32Section where
  name := littleEndian elf.data data 4
  type := littleEndian elf.data (data + 4) 4
  flags := littleEndian elf.data (data + 8) 4
  address := littleEndian elf.data (data + 12) 4
  offset := littleEndian elf.data (data + 16) 4
  size := littleEndian elf.data (data + 20) 4
  link := littleEndian elf.data (data + 24) 4
  entrySize := littleEndian elf.data (data + 36) 4

/-- Section `index` of the file. -/
def sectionOf (elf : View) (header : Elf32Header) (index : ℕ) : Elf32Section :=
  sectionAt elf (header.sectionTable + index * header.sectionEntrySize)

/-- The program header at `data`. -/
def programAt (elf : View) (data : ℕ) : Elf32Program where
  type := littleEndian elf.data data 4
  fileOffset := littleEndian elf.data (data + 4) 4
  virtualAddress := littleEndian elf.data (data + 8) 4
  fileSize := littleEndian elf.data (data + 16) 4
  memorySize := littleEndian elf.data (data + 20) 4
  flags := littleEndian elf.data (data + 24) 4

/-- Segment `index` of the file. -/
def programOf (elf : View) (header : Elf32Header) (index : ℕ) : Elf32Program :=
  programAt elf (header.programTable + index * header.programEntrySize)

theorem readSection_spec {tableOffset entrySize index : ℕ} {failure : Failure}
    (h : ¬failure.IsFault) : Safe (readSection elf tableOffset entrySize index failure) fun sec =>
      sec = sectionAt elf (tableOffset + index * entrySize) := by
  unfold readSection
  refine (orFail_spec h).bind fun data hdata => ?_
  obtain ⟨rfl, hin⟩ := recordOffset_eq_some hdata
  simp (disch := omega) only [readU32, readLE_eq, ok_bind]
  exact Meets.ok rfl

theorem stringAt_spec {strings : Elf32Section} {offset : ℕ} {failure : Failure}
    (h : ¬failure.IsFault) : Safe (stringAt elf strings offset failure) fun value =>
      terminated elf.data (strings.offset + offset) (strings.size - offset) = some value := by
  unfold stringAt
  refine Meets.refuseIf_bind h fun hguard => ?_
  rw [not_or, not_not, rangeIsValid_iff] at hguard
  rw [readString_eq (by omega), ok_bind]
  exact orFail_spec h

/-! ## Symbols -/

/-- The named symbols of the table are defined. The entry at index zero is reserved. -/
def SymbolsDefined (elf : View) (symbols : Elf32Section) : Prop :=
  ∀ index, 1 ≤ index → index < symbols.size / 16 →
    littleEndian elf.data (symbols.offset + index * 16) 4 ≠ 0 →
      littleEndian elf.data (symbols.offset + index * 16 + 14) 2 ≠ elfShnUndef

theorem validateSymbol_spec (symbols strings : Elf32Section) (index : ℕ) :
    Safe (validateSymbol elf symbols strings index) fun _ =>
      littleEndian elf.data (symbols.offset + index * 16) 4 ≠ 0 →
        littleEndian elf.data (symbols.offset + index * 16 + 14) 2 ≠ elfShnUndef := by
  unfold validateSymbol
  refine (orFail_spec (by simp)).bind fun symbol hsymbol => ?_
  obtain ⟨rfl, hin⟩ := recordOffset_eq_some hsymbol
  simp (disch := omega) only [readU16, readU32, readLE_eq, ok_bind]
  refine Meets.ite (fun hname => Meets.ok fun hne => absurd hname hne) fun _ => ?_
  refine (stringAt_spec (by simp)).bind fun _ _ => ?_
  exact (Meets.refuseIf (by simp)).mono fun _ hdefined _ => hdefined

theorem validateSymbols_spec (sectionTable sectionEntrySize sectionCount : ℕ)
    (symbols : Elf32Section) :
    Safe (validateSymbols elf sectionTable sectionEntrySize sectionCount symbols) fun _ =>
      SymbolsDefined elf symbols := by
  unfold validateSymbols
  refine Meets.refuseIf_bind (by simp) fun _ => ?_
  refine (readSection_spec (by simp)).bind fun strings _ => ?_
  refine Meets.refuseIf_bind (by simp) fun _ => ?_
  exact Meets.checkRange fun index _ _ => validateSymbol_spec symbols strings index

/-! ## The header -/

theorem readHeader_spec (elf : View) : Safe (readHeader elf) fun _ => True := by
  unfold readHeader
  refine Meets.refuseIf_bind (by simp) fun hsize => ?_
  rw [readBytes_eq (by omega), ok_bind]
  simp (disch := omega) only [readU8, readU16, readU32, readLE_eq, ok_bind]
  refine Meets.refuseIf_bind (by simp) fun _ => ?_
  refine Meets.refuseIf_bind (by simp) fun _ => ?_
  refine Meets.refuseIf_bind (by simp) fun _ => ?_
  exact Meets.refuseIf_bind (by simp) fun _ => Meets.ok trivial

/-! ## Sections -/

/-- What the loop has checked of a section. -/
structure SectionChecked (elf : View) (sec : Elf32Section) : Prop where
  in_file : sec.type ≠ elfSectionNobits → sec.offset + sec.size ≤ elf.size
  no_relocations : sec.type = elfSectionRel ∨ sec.type = elfSectionRela → sec.size = 0
  defined : sec.type = elfSectionSymtab → SymbolsDefined elf sec

/-- The section kept under a name is one of those before `bound` that have the name. -/
def IsKept (elf : View) (header : Elf32Header) (strings : Elf32Section) (bound : ℕ)
    (name : String) (kept : Option Elf32Section) : Prop :=
  ∀ sec, kept = some sec → ∃ index < bound, sec = sectionOf elf header index ∧
    terminated elf.data (strings.offset + sec.name) (strings.size - sec.name) = some (ascii name)

theorem IsKept.mono {strings : Elf32Section} {bound : ℕ} {name : String}
    {kept : Option Elf32Section} (h : IsKept elf header strings bound name kept) :
    IsKept elf header strings (bound + 1) name kept := by
  intro sec hsec
  obtain ⟨index, hindex, hrest⟩ := h sec hsec
  exact ⟨index, Nat.lt_succ_of_lt hindex, hrest⟩

/-- The state of the loop over the sections. -/
structure SectionsChecked (elf : View) (header : Elf32Header) (strings : Elf32Section)
    (bound : ℕ) (found : FoundSections) : Prop where
  checked : ∀ index < bound, SectionChecked elf (sectionOf elf header index)
  text : IsKept elf header strings bound ".text" found.text
  argData : IsKept elf header strings bound ".arg.data" found.argData

theorem matchSection_spec {strings : Elf32Section} {index : ℕ} {name : List UInt8}
    {found : FoundSections} (h : SectionsChecked elf header strings index found)
    (hchecked : SectionChecked elf (sectionOf elf header index))
    (hname : terminated elf.data (strings.offset + (sectionOf elf header index).name)
      (strings.size - (sectionOf elf header index).name) = some name) :
    Safe (matchSection name (sectionOf elf header index) found)
      (SectionsChecked elf header strings (index + 1)) := by
  have hall : ∀ j < index + 1, SectionChecked elf (sectionOf elf header j) := by
    intro j hj
    obtain hlt | rfl := Nat.lt_succ_iff_lt_or_eq.1 hj
    · exact h.checked j hlt
    · exact hchecked
  have hkept : ∀ {literal : String}, name = ascii literal →
      IsKept elf header strings (index + 1) literal (some (sectionOf elf header index)) := by
    intro literal hliteral sec hsec
    obtain rfl := Option.some.inj hsec
    exact ⟨index, Nat.lt_succ_self _, rfl, hliteral ▸ hname⟩
  unfold matchSection
  refine Meets.ite (fun htext => ?_) fun _ => Meets.ite (fun harg => ?_) fun _ => ?_
  · exact Meets.refuseIf_bind (by simp) fun _ => Meets.ok ⟨hall, hkept htext, h.argData.mono⟩
  · exact Meets.refuseIf_bind (by simp) fun _ => Meets.ok ⟨hall, h.text.mono, hkept harg⟩
  · exact Meets.ok ⟨hall, h.text.mono, h.argData.mono⟩

theorem checkSection_spec {strings : Elf32Section} {index : ℕ} {found : FoundSections}
    (h : SectionsChecked elf header strings index found) :
    Safe (checkSection elf header strings index found)
      (SectionsChecked elf header strings (index + 1)) := by
  unfold checkSection
  refine (readSection_spec (by simp)).bind fun sec hsec => ?_
  rw [← sectionOf] at hsec
  subst hsec
  refine Meets.refuseIf_bind (by simp) fun hextent => ?_
  refine (stringAt_spec (by simp)).bind fun name hname => ?_
  refine Meets.refuseIf_bind (by simp) fun hrelocations => ?_
  have hin : (sectionOf elf header index).type ≠ elfSectionNobits →
      (sectionOf elf header index).offset + (sectionOf elf header index).size ≤ elf.size := by
    intro htype
    rw [not_and, not_not, rangeIsValid_iff] at hextent
    exact hextent htype
  have hnone : (sectionOf elf header index).type = elfSectionRel ∨
      (sectionOf elf header index).type = elfSectionRela →
        (sectionOf elf header index).size = 0 := by
    intro htype
    rw [not_and, not_not] at hrelocations
    exact hrelocations htype
  split_ifs with hsymtab
  · refine (validateSymbols_spec _ _ _ _).bind fun _ hdefined => ?_
    exact matchSection_spec h ⟨hin, hnone, fun _ => hdefined⟩ hname
  · exact matchSection_spec h ⟨hin, hnone, fun htype => absurd htype hsymtab⟩ hname

/-! ## Segments -/

theorem readProgram_spec (index : ℕ) : Safe (readProgram elf header index) fun program =>
    program = programOf elf header index ∧ program.fileSize ≤ program.memorySize ∧
      program.fileOffset + program.fileSize ≤ elf.size := by
  unfold readProgram
  refine (orFail_spec (by simp)).bind fun data hdata => ?_
  obtain ⟨rfl, hin⟩ := recordOffset_eq_some hdata
  simp (disch := omega) only [readU32, readLE_eq, ok_bind]
  refine Meets.refuseIf_bind (by simp) fun hextent => ?_
  rw [not_or, not_not, rangeIsValid_iff, Nat.not_lt] at hextent
  exact Meets.ok ⟨rfl, hextent.1, hextent.2⟩

/-- The state of the loop over the segments. -/
structure SegmentsChecked (elf : View) (header : Elf32Header) (text : Elf32Section) (bound : ℕ)
    (textIsLoadable : Bool) : Prop where
  extent : ∀ index < bound, (programOf elf header index).fileSize ≤
    (programOf elf header index).memorySize
  covered : textIsLoadable = true → ∃ index < bound,
    coversText (programOf elf header index) text = true

theorem checkProgram_spec {text : Elf32Section} {index : ℕ} {textIsLoadable : Bool}
    (h : SegmentsChecked elf header text index textIsLoadable) :
    Safe (checkProgram elf header text index textIsLoadable)
      (SegmentsChecked elf header text (index + 1)) := by
  unfold checkProgram
  refine (readProgram_spec index).bind fun program hprogram => ?_
  obtain ⟨rfl, hextent, -⟩ := hprogram
  refine Meets.ok ⟨fun j hj => ?_, fun hloadable => ?_⟩
  · obtain hlt | rfl := Nat.lt_succ_iff_lt_or_eq.1 hj
    · exact h.extent j hlt
    · exact hextent
  · rcases Bool.or_eq_true_iff.1 hloadable with hbefore | hnow
    · obtain ⟨j, hj, hcovers⟩ := h.covered hbefore
      exact ⟨j, Nat.lt_succ_of_lt hj, hcovers⟩
    · exact ⟨index, Nat.lt_succ_self _, hnow⟩

/-- The segment is loaded, readable and executable. -/
def Elf32Program.IsExecutable (program : Elf32Program) : Prop :=
  program.type = elfProgramLoad ∧ program.flags &&& 5 = 5

/-- The segment maps the `size` bytes of the file at `offset` to `address`. -/
def Elf32Program.Maps (program : Elf32Program) (offset size address : ℕ) : Prop :=
  ∀ k < size, ∃ j < program.fileSize,
    program.fileOffset + j = offset + k ∧ program.virtualAddress + j = address + k

theorem coversText_iff {program : Elf32Program} {text : Elf32Section} :
    coversText program text = true ↔ program.IsExecutable ∧
      (program.fileOffset ≤ text.offset ∧
        text.offset + text.size ≤ program.fileOffset + program.fileSize) ∧
      program.virtualAddress ≤ text.address ∧
        text.address + text.size ≤ program.virtualAddress + program.memorySize := by
  simp only [coversText, Bool.and_eq_true, beq_iff_eq, decide_eq_true_eq, rangeIsValid_iff,
    Elf32Program.IsExecutable]
  omega

/-- A segment maps `.text` to its address if it covers it at one distance. -/
theorem maps_iff {program : Elf32Program} {text : Elf32Section} (hsize : text.size ≠ 0)
    (hextent : program.fileSize ≤ program.memorySize) :
    program.IsExecutable ∧ program.Maps text.offset text.size text.address ↔
      coversText program text = true ∧
        text.offset - program.fileOffset = text.address - program.virtualAddress := by
  rw [coversText_iff]
  constructor
  · rintro ⟨hexecutable, hmaps⟩
    obtain ⟨first, hfirst, hoffset, haddress⟩ := hmaps 0 (by omega)
    obtain ⟨last, hlast, hoffset', -⟩ := hmaps (text.size - 1) (by omega)
    exact ⟨⟨hexecutable, by omega, by omega⟩, by omega⟩
  · rintro ⟨⟨hexecutable, hfile, hmemory⟩, hdistance⟩
    exact ⟨hexecutable, fun k hk =>
      ⟨text.offset - program.fileOffset + k, by omega, by omega, by omega⟩⟩

/-! ## The image -/

/-- What is known of an accepted image. -/
structure IsShaveImage (elf : View) (header : Elf32Header) (text : Elf32Section)
    (image : ShaveImage) : Prop where
  header_eq : readHeader elf = .ok header
  is_text : ∃ index < header.sectionCount, text = sectionOf elf header index
  named : terminated elf.data
    ((sectionOf elf header header.stringIndex).offset + text.name)
    ((sectionOf elf header header.stringIndex).size - text.name) = some (ascii ".text")
  image_eq : image = ⟨text.offset, text.size, text.address, text.address⟩
  in_file : image.fileOffset + image.size ≤ elf.size
  nonempty : image.size ≠ 0
  address_eq : image.address = shaveTextAddress
  no_relocations : ∀ index < header.sectionCount,
    (sectionOf elf header index).type = elfSectionRel ∨
      (sectionOf elf header index).type = elfSectionRela →
        (sectionOf elf header index).size = 0
  no_undefined : ∀ index < header.sectionCount,
    (sectionOf elf header index).type = elfSectionSymtab →
      SymbolsDefined elf (sectionOf elf header index)

theorem requireText_spec {found : FoundSections} :
    Safe (requireText header found) fun text => found.text = some text ∧
      text.type = elfSectionProgbits ∧ text.size ≠ 0 ∧ text.address = shaveTextAddress ∧
        header.entry = text.address := by
  unfold requireText
  refine (orFail_spec (by simp)).bind fun text htext => ?_
  refine Meets.refuseIf_bind (by simp) fun hform => ?_
  simp only [not_or, not_not] at hform
  exact Meets.ok ⟨htext, hform.1, hform.2.1, hform.2.2.2.1, hform.2.2.2.2⟩

theorem requireArgData_spec (found : FoundSections) :
    Safe (requireArgData found) fun _ => True := by
  unfold requireArgData
  refine (orFail_spec (by simp)).bind fun argData _ => ?_
  exact (Meets.refuseIf (by simp)).mono fun _ _ => trivial

/-- For every byte string, the parser reads inside it. If it is accepted, `.text` lies in the
file, there are no relocations and no undefined symbols, and an executable segment maps the bytes
of `.text` to its address if and only if one that covers `.text` in the file and in memory does
so at one distance from its start. -/
theorem shave_elf_maps_iff (elf : View) : Safe (parseShaveElf elf) fun image =>
    ∃ header text, IsShaveImage elf header text image ∧
      ((∃ index < header.programCount, (programOf elf header index).IsExecutable ∧
          (programOf elf header index).Maps image.fileOffset image.size image.address) ↔
        ∃ index < header.programCount, coversText (programOf elf header index) text = true ∧
          text.offset - (programOf elf header index).fileOffset =
            text.address - (programOf elf header index).virtualAddress) := by
  unfold parseShaveElf
  refine (readHeader_spec elf).of_eq.bind fun header ⟨hheader, _⟩ => ?_
  refine (readSection_spec (by simp)).bind fun strings hstrings => ?_
  rw [← sectionOf] at hstrings
  subst hstrings
  refine Meets.refuseIf_bind (by simp) fun _ => ?_
  refine (Meets.forRange (SectionsChecked elf header (sectionOf elf header header.stringIndex))
    (Nat.zero_le _) ⟨by simp, by simp [IsKept], by simp [IsKept]⟩
    fun index found _ _ hfound => checkSection_spec hfound).bind fun found hfound => ?_
  refine requireText_spec.bind fun text ⟨htext, htype, hsize, haddress, hentry⟩ => ?_
  obtain ⟨textIndex, htextIndex, rfl, hname⟩ := hfound.text text htext
  refine (requireArgData_spec found).bind fun _ _ => ?_
  refine (Meets.forRange (SegmentsChecked elf header (sectionOf elf header textIndex))
    (Nat.zero_le _) ⟨by simp, by simp⟩
    fun index textIsLoadable _ _ hsegments => checkProgram_spec hsegments).bind
    fun textIsLoadable hsegments => ?_
  refine Meets.refuseIf_bind (by simp) fun _ => ?_
  have hin := (hfound.checked textIndex htextIndex).in_file (by rw [htype]; decide)
  refine Meets.ok ⟨header, sectionOf elf header textIndex, ⟨hheader, ⟨textIndex, htextIndex, rfl⟩,
    hname, by rw [hentry], hin, hsize, haddress,
    fun index hindex => (hfound.checked index hindex).no_relocations,
    fun index hindex => (hfound.checked index hindex).defined⟩, ?_⟩
  constructor
  · rintro ⟨index, hindex, hmaps⟩
    exact ⟨index, hindex, (maps_iff hsize (hsegments.extent index hindex)).1 hmaps⟩
  · rintro ⟨index, hindex, hcovers⟩
    exact ⟨index, hindex, (maps_iff hsize (hsegments.extent index hindex)).2 hcovers⟩

/-! ## A segment at two distances -/

/-- An image of four bytes of code at offset 128. Its only segment begins at the address of the
code, and in the file four bytes before it. -/
def shiftedSegment : View :=
  viewOf 352 (by decide) (imageOf (
    [(0, 0x464c457f), (4, 1), (5, 1), (6, 1), (16, 2), (18, 2), (20, 1), (24, 0x1d000000), (28, 52),
      (32, 192), (40, 52), (42, 32), (44, 1), (46, 40), (48, 4), (50, 3)] ++
    [(52, 1), (56, 124), (60, 0x1d000000), (64, 0x1d000000), (68, 8), (72, 8), (76, 5), (80, 16)] ++
    [(128, 0x04030201), (133, textImage ".arg.data"), (143, textImage ".text"),
      (149, textImage ".shstrtab")] ++
    [(232, 1), (236, 1), (240, 2), (244, 0x1e000000), (248, 128), (264, 1)] ++
    [(272, 11), (276, 1), (280, 6), (284, 0x1d000000), (288, 128), (292, 4), (304, 16)] ++
    [(312, 17), (316, 3), (328, 132), (332, 28), (344, 1)]))

/-- The image is accepted, and no segment maps its code to the address of the code. -/
theorem shave_elf_not_mapped : ∃ image header, parseShaveElf shiftedSegment = .ok image ∧
    readHeader shiftedSegment = .ok header ∧
      ¬∃ index < header.programCount, (programOf shiftedSegment header index).IsExecutable ∧
        (programOf shiftedSegment header index).Maps image.fileOffset image.size image.address := by
  have hsucceeds : succeeds (parseShaveElf shiftedSegment >>= fun image =>
      readHeader shiftedSegment >>= fun header =>
        refuseIf (header.programCount ≠ 1 ∨ image ≠ ⟨128, 4, 0x1d000000, 0x1d000000⟩ ∨
          (programOf shiftedSegment header 0).fileOffset ≠ 124 ∨
            (programOf shiftedSegment header 0).virtualAddress ≠ 0x1d000000)
          Failure.wrapped) = true := by
    decide +kernel
  obtain ⟨_, h⟩ := succeeds_iff.1 hsucceeds
  obtain ⟨image, himage, h⟩ := bind_eq_ok_iff.1 h
  obtain ⟨header, hheader, h⟩ := bind_eq_ok_iff.1 h
  simp only [refuseIf_eq_ok_iff, not_or, not_not] at h
  obtain ⟨hcount, rfl, hoffset, haddress⟩ := h
  refine ⟨_, header, himage, hheader, ?_⟩
  rintro ⟨index, hindex, -, hmaps⟩
  obtain rfl : index = 0 := by omega
  obtain ⟨j, -, hj, hj'⟩ := hmaps 0 (by decide)
  rw [hoffset] at hj
  rw [haddress] at hj'
  dsimp only at hj hj'
  omega

end Npunlock.Elf32
