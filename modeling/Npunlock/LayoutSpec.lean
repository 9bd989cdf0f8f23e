import Npunlock.Layout

/-!
# What a parsed graph satisfies

`parseGraph_spec` is the specification of the parser : it reads inside the blob only,
and a layout it returns is `Valid`. The stages of the parser each have a specification
of their own. `readSectionHeader_eq` gives the header a stage reads as a value, so that
two blobs can be compared header by header.
-/

namespace Npunlock

open View

/-! ## Sections by position -/

/-- The section at a position, and a default outside the list. -/
def secOf (sections : List GraphSection) (index : ℕ) : GraphSection :=
  sections.getD index default

theorem sectionAt_eq {sections : List GraphSection} {index : ℕ} (h : index < sections.length) :
    sectionAt sections index = .ok (secOf sections index) := by
  simp [sectionAt, secOf, h]

theorem sectionAt_eq_ok_iff {sections : List GraphSection} {index : ℕ} {sec : GraphSection} :
    sectionAt sections index = .ok sec ↔ index < sections.length ∧ secOf sections index = sec := by
  by_cases h : index < sections.length
  · simp [sectionAt_eq h, h]
  · simp [sectionAt, h]

/-- The section has bytes in the file. -/
def GraphSection.FileBacked (sec : GraphSection) : Prop :=
  sec.type ≠ shtNobits ∧ sec.size ≠ 0

/-- No byte of the file is in both sections. -/
def GraphSection.Disjoint (left right : GraphSection) : Prop :=
  left.offset + left.size ≤ right.offset ∨ right.offset + right.size ≤ left.offset

theorem GraphSection.Disjoint.symm {left right : GraphSection} (h : left.Disjoint right) :
    right.Disjoint left :=
  Or.symm h

/-! ## The ELF header -/

/-- The fields of the ELF header that are the same in every graph blob. -/
structure Elf64Header (blob : View) : Prop where
  size_le : 64 ≤ blob.size
  elfClass : littleEndian blob.data 4 1 = 2
  encoding : littleEndian blob.data 5 1 = 1
  version : littleEndian blob.data 6 1 = 0
  abiVersion : littleEndian blob.data 8 1 = 0
  type : littleEndian blob.data 0x10 2 = 1
  entry : littleEndian blob.data 0x18 8 = 0
  programTableOffset : littleEndian blob.data 0x20 8 = 0
  sectionTableOffset : littleEndian blob.data 0x28 8 = 64
  flags : littleEndian blob.data 0x30 4 = 0

/-- An accepted header leaves room for its table of sections. -/
theorem readHeader_spec (blob : View) :
    Safe (readHeader blob) fun r => Elf64Header blob ∧ 0 < r.1 ∧ r.2 < r.1 ∧ r.1 < 2 ^ 16 ∧
      64 + r.1 * 64 ≤ blob.size := by
  unfold readHeader
  refine Meets.refuseIf_bind (by simp) fun hsize => ?_
  simp (disch := omega) only [readU8, readU16, readU32, readU64, readLE_eq, readBytes_eq, ok_bind]
  refine Meets.refuseIf_bind (by simp) fun hmagic => ?_
  refine Meets.refuseIf_bind (by simp) fun hident => ?_
  refine Meets.refuseIf_bind (by simp) fun hlayout => ?_
  refine Meets.refuseIf_bind (by simp) fun htable => ?_
  have hcount := littleEndian_lt blob.data 60 2
  simp only [not_or, not_not] at hmagic hident hlayout htable
  have hin := le_of_rangeInBounds htable.2.2.2
  refine Meets.ok ⟨⟨by omega, hmagic.2.1, hmagic.2.2, hident.1, hident.2.2.1, hident.2.2.2.1,
    hident.2.2.2.2.2.2.1, hlayout.1, htable.1, hident.2.2.2.2.2.2.2⟩, ?_, ?_, ?_, ?_⟩
  · exact Nat.pos_of_ne_zero htable.2.1
  · exact Nat.lt_of_not_le htable.2.2.1
  · exact hcount
  · rw [htable.1] at hin
    exact hin

/-- The header is read in the first 64 bytes. -/
theorem readHeader_congr {blob blob' : View} (h : ∀ i < 64, blob'.data i = blob.data i)
    (hsize : blob.size ≤ blob'.size) {r : ℕ × ℕ} (hr : readHeader blob = .ok r) :
    readHeader blob' = .ok r := by
  have h64 : 64 ≤ blob.size := ((readHeader_spec blob).value r hr).1.size_le
  have hle : ∀ {o n : ℕ}, o + n ≤ 64 →
      littleEndian blob'.data o n = littleEndian blob.data o n := fun hn =>
    littleEndian_congr fun k hk => h _ (by omega)
  have hmagic : slice blob'.data 0 4 = slice blob.data 0 4 :=
    slice_congr fun k hk => h _ (by omega)
  unfold readHeader at hr ⊢
  simp (disch := omega) only [readU8, readU16, readU32, readU64, readLE_eq, readBytes_eq, ok_bind,
    refuseIf_bind_eq_ok_iff, hle, hmagic] at hr ⊢
  obtain ⟨-, hr1, hr2, hr3, hr4, hr5⟩ := hr
  refine ⟨by omega, hr1, hr2, hr3, ?_, hr5⟩
  simp only [not_or, not_not] at hr4 ⊢
  refine ⟨hr4.1, hr4.2.1, hr4.2.2.1, ?_⟩
  have hin := le_of_rangeInBounds hr4.2.2.2
  exact (rangeInBounds_iff blob'.size_le).2 (by omega)

/-! ## Section headers -/

/-- The header of a section as it is in the file, without its name. -/
def headerAt (blob : View) (index : ℕ) : GraphSection :=
  let header := 64 + index * 64
  { type := littleEndian blob.data (header + 4) 4
    flags := littleEndian blob.data (header + 8) 8
    address := littleEndian blob.data (header + 0x10) 8
    offset := littleEndian blob.data (header + 0x18) 8
    size := littleEndian blob.data (header + 0x20) 8
    link := littleEndian blob.data (header + 0x28) 4
    info := littleEndian blob.data (header + 0x2c) 4
    alignment := littleEndian blob.data (header + 0x30) 8
    entrySize := littleEndian blob.data (header + 0x38) 8
    headerOffset := header }

/-- The checks that `readSectionHeader` makes. -/
structure GraphSection.Fits (sec : GraphSection) (fileSize : ℕ) : Prop where
  powerOfTwo : sec.alignment ≠ 0 → isPowerOfTwo sec.alignment = true
  aligned : 1 < sec.alignment → sec.offset % sec.alignment = 0
  inBounds : sec.type ≠ shtNobits → sec.offset + sec.size ≤ fileSize

theorem readSectionHeader_eq_ok_iff {blob : View} {index : ℕ} {sec : GraphSection}
    (h : 64 + (index + 1) * 64 ≤ blob.size) :
    readSectionHeader blob index = .ok sec ↔
      (headerAt blob index).Fits blob.size ∧ headerAt blob index = sec := by
  unfold readSectionHeader
  simp (disch := omega) only [readU32, readU64, readLE_eq, ok_bind, refuseIf_bind_eq_ok_iff,
    Except.ok.injEq]
  refine and_congr ?_ Iff.rfl
  simp only [not_or, not_and, not_not]
  constructor
  · rintro ⟨h1, h2, h3⟩
    exact ⟨h1, h2, fun ht => le_of_rangeInBounds (h3 ht)⟩
  · rintro ⟨h1, h2, h3⟩
    exact ⟨h1, h2, fun ht => (rangeInBounds_iff blob.size_le).2 (h3 ht)⟩

theorem readSectionHeader_spec {blob : View} {index : ℕ}
    (h : 64 + (index + 1) * 64 ≤ blob.size) :
    Safe (readSectionHeader blob index) fun sec =>
      (headerAt blob index).Fits blob.size ∧ headerAt blob index = sec := by
  have hsafe : Safe (readSectionHeader blob index) fun _ => True := by
    unfold readSectionHeader
    simp (disch := omega) only [readU32, readU64, readLE_eq, ok_bind]
    exact Meets.refuseIf_bind (by simp) fun _ => Meets.ok trivial
  exact ⟨hsafe.not_bad, fun sec hsec => (readSectionHeader_eq_ok_iff h).1 hsec⟩

/-- The headers that the parser has read. -/
structure HeadersRead (blob : View) (headers : List GraphSection) : Prop where
  table_le : 64 + headers.length * 64 ≤ blob.size
  eq_headerAt : ∀ i < headers.length, secOf headers i = headerAt blob i
  fits : ∀ i < headers.length, (secOf headers i).Fits blob.size

theorem readHeaders_spec {blob : View} {count : ℕ} (h : 64 + count * 64 ≤ blob.size) :
    Safe (mapRange count (readSectionHeader blob)) fun headers =>
      headers.length = count ∧ HeadersRead blob headers := by
  have hone := Meets.mapRange (n := count) fun j hj =>
    readSectionHeader_spec (show 64 + (j + 1) * 64 ≤ blob.size by omega)
  refine hone.mono fun headers => ?_
  rintro ⟨hlen, hget⟩
  refine ⟨hlen, by omega, fun i hi => ?_, fun i hi => ?_⟩
  · simp [secOf, hi, (hget i hi).2]
  · have := (hget i hi).1
    rw [(hget i hi).2] at this
    simpa [secOf, hi] using this

/-- Numbers that fit their header fields. -/
theorem headerAt_offset_lt (blob : View) (index : ℕ) : (headerAt blob index).offset < 2 ^ 64 :=
  littleEndian_lt _ _ 8

theorem headerAt_alignment_lt (blob : View) (index : ℕ) :
    (headerAt blob index).alignment < 2 ^ 64 :=
  littleEndian_lt _ _ 8

/-! ## Placement -/

/-- The null section in its supported form. -/
structure GraphSection.IsNull (sec : GraphSection) : Prop where
  type : sec.type = shtNull
  flags : sec.flags = 0
  address : sec.address = 0
  offset : sec.offset = 0
  size : sec.size = 0
  link : sec.link = 0
  info : sec.info = 0
  alignment : sec.alignment = 4
  entrySize : sec.entrySize = 0

theorem checkNullSection_eq_ok_iff {blob : View} {sections : List GraphSection}
    (hpos : 0 < sections.length) (hle : (secOf sections 0).headerOffset + 4 ≤ blob.size) :
    checkNullSection blob sections = .ok () ↔
      littleEndian blob.data (secOf sections 0).headerOffset 4 = 0 ∧
        (secOf sections 0).IsNull := by
  simp only [checkNullSection, sectionAt_eq hpos, ok_bind, readU32, readLE_eq hle,
    refuseIf_eq_ok_iff, not_or, not_not]
  constructor
  all_goals
    rintro ⟨h0, h1, h2, h3, h4, h5, h6, h7, h8, h9⟩
    exact ⟨h0, h1, h2, h3, h4, h5, h6, h7, h8, h9⟩

theorem checkNullSection_spec {blob : View} {sections : List GraphSection}
    (hpos : 0 < sections.length) (hle : (secOf sections 0).headerOffset + 4 ≤ blob.size) :
    Safe (checkNullSection blob sections) fun _ => (secOf sections 0).IsNull := by
  refine ⟨fun e he => ?_, fun u hu => ((checkNullSection_eq_ok_iff hpos hle).1 hu).2⟩
  simp only [checkNullSection, sectionAt_eq hpos, ok_bind, readU32, readLE_eq hle] at he
  exact (Meets.refuseIf (not_isFault_unsupported _)).not_bad e he

/-- Sections with bytes in the file overlap neither the section table nor each other. -/
structure Placed (sections : List GraphSection) : Prop where
  table : ∀ i, 1 ≤ i → i < sections.length → (secOf sections i).FileBacked →
    (secOf sections i).offset + (secOf sections i).size ≤ 64 ∨
      64 + sections.length * 64 ≤ (secOf sections i).offset
  disjoint : ∀ i j, 1 ≤ i → i < j → j < sections.length → (secOf sections i).FileBacked →
    (secOf sections j).FileBacked → (secOf sections i).Disjoint (secOf sections j)

theorem rangesOverlap_iff {a n b m : ℕ} (ha : a + n ≤ sizeMax) (hb : b + m ≤ sizeMax) :
    rangesOverlap a n b m = true ↔ n ≠ 0 ∧ m ≠ 0 ∧ a < b + m ∧ b < a + n := by
  have h1 : checkedAddSize a n = some (a + n) := checkedAddSize_eq_some_iff.2 ⟨ha, rfl⟩
  have h2 : checkedAddSize b m = some (b + m) := checkedAddSize_eq_some_iff.2 ⟨hb, rfl⟩
  simp [rangesOverlap, h1, h2, and_assoc]

theorem checkPlacementOf_eq_ok_iff {blob : View} {sections : List GraphSection}
    (hread : HeadersRead blob sections) {i : ℕ} (hi : i < sections.length) :
    checkPlacementOf sections i = .ok () ↔ ((secOf sections i).FileBacked →
      ((secOf sections i).offset + (secOf sections i).size ≤ 64 ∨
        64 + sections.length * 64 ≤ (secOf sections i).offset) ∧
      ∀ j, i < j → j < sections.length → (secOf sections j).FileBacked →
        (secOf sections i).Disjoint (secOf sections j)) := by
  have hsize := blob.size_le
  have htable := hread.table_le
  unfold checkPlacementOf GraphSection.FileBacked
  rw [sectionAt_eq hi, ok_bind]
  by_cases hno : (secOf sections i).type = shtNobits ∨ (secOf sections i).size = 0
  · rw [if_pos hno]
    simp only [true_iff]
    rintro ⟨h1, h2⟩
    exact absurd hno (not_or.2 ⟨h1, h2⟩)
  · rw [if_neg hno]
    obtain ⟨htype, hsize0⟩ := not_or.1 hno
    have hin := (hread.fits i hi).inBounds htype
    have hbody : ∀ j, i + 1 ≤ j → j < sections.length →
        ((do
          let rightSection ← sectionAt sections j
          refuseIf (rightSection.type ≠ shtNobits ∧
              rangesOverlap (secOf sections i).offset (secOf sections i).size
                rightSection.offset rightSection.size = true)
            (malformed "graph file-backed sections overlap") : Result Unit) = .ok () ↔
          ((secOf sections j).type ≠ shtNobits ∧ (secOf sections j).size ≠ 0 →
            (secOf sections i).Disjoint (secOf sections j))) := by
      intro j _ hj
      rw [sectionAt_eq hj, ok_bind, refuseIf_eq_ok_iff]
      by_cases hjtype : (secOf sections j).type = shtNobits
      · simp [hjtype]
      · have hinj := (hread.fits j hj).inBounds hjtype
        rw [rangesOverlap_iff (by omega) (by omega)]
        simp only [hjtype, ne_eq, not_false_eq_true, true_and, GraphSection.Disjoint]
        omega
    simp only [refuseIf_bind_eq_ok_iff, checkRange_eq_ok_iff]
    rw [rangesOverlap_iff (by omega) (by omega)]
    constructor
    · rintro ⟨h1, h2⟩ -
      refine ⟨by omega, fun j hij hj hfile => (hbody j hij hj).1 (h2 j hij hj) hfile⟩
    · intro h
      obtain ⟨h1, h2⟩ := h ⟨htype, hsize0⟩
      exact ⟨by omega, fun j hij hj => (hbody j hij hj).2 (h2 j hij hj)⟩

/-- The check of the placement is exact. -/
theorem checkPlacement_eq_ok_iff {blob : View} {sections : List GraphSection}
    (hread : HeadersRead blob sections) :
    checkPlacement sections = .ok () ↔ Placed sections := by
  rw [checkPlacement, checkRange_eq_ok_iff]
  constructor
  · intro h
    refine ⟨fun i h1 hi hfile => ?_, fun i j h1 hij hj hfile hfile' => ?_⟩
    · exact ((checkPlacementOf_eq_ok_iff hread hi).1 (h i h1 hi) hfile).1
    · have hi : i < sections.length := by omega
      exact ((checkPlacementOf_eq_ok_iff hread hi).1 (h i h1 hi) hfile).2 j hij hj hfile'
  · intro h i h1 hi
    refine (checkPlacementOf_eq_ok_iff hread hi).2 fun hfile => ⟨h.table i h1 hi hfile, ?_⟩
    exact fun j hij hj hfile' => h.disjoint i j h1 hij hj hfile hfile'

theorem checkPlacement_spec {blob : View} {sections : List GraphSection}
    (hread : HeadersRead blob sections) :
    Safe (checkPlacement sections) fun _ => Placed sections := by
  have hone : ∀ i, 1 ≤ i → i < sections.length →
      Safe (checkPlacementOf sections i) fun _ => True := by
    intro i _ hi
    unfold checkPlacementOf
    rw [sectionAt_eq hi, ok_bind]
    split_ifs
    · exact Meets.ok trivial
    · refine Meets.refuseIf_bind (by simp) fun _ => ?_
      refine (Meets.checkRange (P := fun _ => True) fun j _ hj => ?_).mono fun _ _ => trivial
      rw [sectionAt_eq hj, ok_bind]
      exact (Meets.refuseIf (by simp)).mono fun _ _ => trivial
  exact ⟨(Meets.checkRange hone).not_bad, fun _ h => (checkPlacement_eq_ok_iff hread).1 h⟩

/-! ## Section names -/

/-- The section-name string table in its supported form. -/
structure GraphSection.IsNameTable (sec : GraphSection) : Prop where
  type : sec.type = shtStrtab
  flags : sec.flags = 0
  address : sec.address = 0
  link : sec.link = 0
  info : sec.info = 0
  alignment : sec.alignment = 4
  entrySize : sec.entrySize = 0
  size : sec.size ≠ 0

theorem GraphSection.IsNameTable.in_file {blob : View} {sec : GraphSection}
    (h : sec.IsNameTable) (hfits : sec.Fits blob.size) : sec.offset + sec.size ≤ blob.size :=
  hfits.inBounds (by rw [h.type]; decide)

theorem readNameTable_eq_ok_iff {blob : View} {sections : List GraphSection} {index : ℕ}
    {strings : GraphSection} (hindex : index < sections.length)
    (hfits : (secOf sections index).Fits blob.size) :
    readNameTable blob sections index = .ok strings ↔
      index = 1 ∧ (secOf sections index).IsNameTable ∧
        littleEndian blob.data (secOf sections index).offset 1 = 0 ∧
        secOf sections index = strings := by
  simp only [readNameTable, sectionAt_eq hindex, ok_bind, refuseIf_bind_eq_ok_iff, not_or,
    not_not]
  constructor
  · rintro ⟨⟨h0, h1, h2, h3, h4, h5, h6, h7, h8⟩, hread⟩
    have htable : (secOf sections index).IsNameTable := ⟨h1, h2, h3, h4, h5, h6, h7, h8⟩
    have hin := htable.in_file hfits
    have hpos := Nat.pos_of_ne_zero h8
    simp only [readU8, readLE_eq (show (secOf sections index).offset + 1 ≤ blob.size by omega),
      ok_bind, refuseIf_bind_eq_ok_iff, not_not, Except.ok.injEq] at hread
    exact ⟨h0, htable, hread⟩
  · rintro ⟨h0, htable, hread⟩
    have hin := htable.in_file hfits
    have hpos := Nat.pos_of_ne_zero htable.size
    simp only [readU8, readLE_eq (show (secOf sections index).offset + 1 ≤ blob.size by omega),
      ok_bind, refuseIf_bind_eq_ok_iff, not_not, Except.ok.injEq]
    obtain ⟨h1, h2, h3, h4, h5, h6, h7, h8⟩ := htable
    exact ⟨⟨h0, h1, h2, h3, h4, h5, h6, h7, h8⟩, hread⟩

theorem readNameTable_spec {blob : View} {sections : List GraphSection} {index : ℕ}
    (hindex : index < sections.length) (hfits : (secOf sections index).Fits blob.size) :
    Safe (readNameTable blob sections index) fun strings =>
      index = 1 ∧ strings.IsNameTable ∧ secOf sections index = strings := by
  have hsafe : Safe (readNameTable blob sections index) fun _ => True := by
    simp only [readNameTable, sectionAt_eq hindex, ok_bind]
    refine Meets.refuseIf_bind (by simp) fun hform => ?_
    simp only [not_or, not_not] at hform
    have hin := hfits.inBounds (by rw [hform.2.1]; decide)
    have hpos := Nat.pos_of_ne_zero hform.2.2.2.2.2.2.2.2
    simp only [readU8, readLE_eq (show (secOf sections index).offset + 1 ≤ blob.size by omega),
      ok_bind]
    exact Meets.refuseIf_bind (by simp) fun _ => Meets.ok trivial
  refine ⟨hsafe.not_bad, fun strings h => ?_⟩
  obtain ⟨h0, htable, -, rfl⟩ := (readNameTable_eq_ok_iff hindex hfits).1 h
  exact ⟨h0, htable, rfl⟩

theorem readName_spec {blob : View} {strings : GraphSection} {header : ℕ}
    (hstrings : strings.offset + strings.size ≤ blob.size) (hheader : header + 4 ≤ blob.size) :
    Safe (readName blob strings header) fun _ => True := by
  simp only [readName, readU32, readLE_eq hheader, ok_bind]
  refine Meets.refuseIf_bind (by simp) fun hlt => ?_
  rw [readString_eq (by omega), ok_bind]
  split
  · exact Meets.ok trivial
  · exact Meets.error (by simp)

/-- `index` is the position of a section with the name `literal`. -/
structure IsAt (sections : List GraphSection) (index : ℕ) (literal : String) : Prop where
  lt : index < sections.length
  name : (secOf sections index).name = ascii literal

/-- `field` is empty or the position of a section with the name `literal`. -/
def Found (sections : List GraphSection) (field : Option ℕ) (literal : String) : Prop :=
  ∀ i, field = some i → IsAt sections i literal

/-- Every field that is set is the position of a section with its name. -/
structure RequiredSections.FoundIn (found : RequiredSections) (sections : List GraphSection) :
    Prop where
  kernelText : Found sections found.kernelText ".text.KernelText"
  params : Found sections found.params ".text.KernelParams"
  invocations : Found sections found.invocations ".text.ActKernelInvocations"
  ranges : Found sections found.ranges ".text.ActKernelRanges"
  rangeRelocations : Found sections found.rangeRelocations ".rlt.text.ActKernelRanges"
  compatibility : Found sections found.compatibility "compatibility_string"
  loaderAbiVersion : Found sections found.loaderAbiVersion ".note.LoaderABIVersion"
  mappedInferenceVersion :
    Found sections found.mappedInferenceVersion ".note.MappedInferenceVersion"
  platformInfo : Found sections found.platformInfo ".meta.PlatformInfo"

theorem secOf_append_of_lt {sections : List GraphSection} {sec : GraphSection} {i : ℕ}
    (h : i < sections.length) : secOf (sections ++ [sec]) i = secOf sections i := by
  simp [secOf, List.getElem?_append_left h]

theorem secOf_append_length (sections : List GraphSection) (sec : GraphSection) :
    secOf (sections ++ [sec]) sections.length = sec := by
  simp [secOf]

theorem matchRequired_spec {sections : List GraphSection} {field : Option ℕ} {literal : String}
    (sec : GraphSection) (h : Found sections field literal) :
    Safe (matchRequired sec.name sections.length literal field) fun field =>
      Found (sections ++ [sec]) field literal := by
  unfold matchRequired
  split_ifs with hname
  · refine Meets.refuseIf_bind (by simp) fun _ => Meets.ok ?_
    rintro i hi
    cases hi
    exact ⟨by simp, by rw [secOf_append_length, hname]⟩
  · refine Meets.ok fun i hi => ?_
    obtain ⟨hlt, hi⟩ := h i hi
    exact ⟨by simp only [List.length_append]; omega, by rw [secOf_append_of_lt hlt, hi]⟩

theorem matchName_spec {sections : List GraphSection} {found : RequiredSections}
    (sec : GraphSection) (h : found.FoundIn sections) :
    Safe (matchName sec.name sections.length found) fun found =>
      found.FoundIn (sections ++ [sec]) := by
  unfold matchName
  refine (matchRequired_spec sec h.kernelText).bind fun kernelText h1 => ?_
  refine (matchRequired_spec sec h.params).bind fun params h2 => ?_
  refine (matchRequired_spec sec h.invocations).bind fun invocations h3 => ?_
  refine (matchRequired_spec sec h.ranges).bind fun ranges h4 => ?_
  refine (matchRequired_spec sec h.rangeRelocations).bind fun rangeRelocations h5 => ?_
  refine (matchRequired_spec sec h.compatibility).bind fun compatibility h6 => ?_
  refine (matchRequired_spec sec h.loaderAbiVersion).bind fun loaderAbiVersion h7 => ?_
  refine (matchRequired_spec sec h.mappedInferenceVersion).bind fun mappedVersion h8 => ?_
  refine (matchRequired_spec sec h.platformInfo).bind fun platformInfo h9 => ?_
  exact Meets.ok ⟨h1, h2, h3, h4, h5, h6, h7, h8, h9⟩

/-- The sections with their names : the headers, and the required sections among them. -/
structure Named (headers sections : List GraphSection) (found : RequiredSections) : Prop where
  length_eq : sections.length = headers.length
  eq_header : ∀ i < headers.length, ∃ name,
    secOf sections i = { secOf headers i with name }
  found_in : found.FoundIn sections

/-- Naming changes only the names, and finds the required sections. -/
theorem nameSections_spec {blob : View} {strings : GraphSection} {headers : List GraphSection}
    (hread : HeadersRead blob headers) (hstrings : strings.offset + strings.size ≤ blob.size) :
    Safe (nameSections blob strings headers) fun r => Named headers r.1 r.2 := by
  unfold nameSections
  refine (Meets.forRange (fun i state => state.1.length = i ∧
      (∀ k < i, ∃ name, secOf state.1 k = { secOf headers k with name }) ∧
      state.2.FoundIn state.1) (Nat.zero_le _) ?_ ?_).mono fun r ⟨h1, h2, h3⟩ => ⟨h1, h2, h3⟩
  · exact ⟨rfl, by simp, by constructor <;> intro i hi <;> cases hi⟩
  · rintro i ⟨named, found⟩ - hi ⟨rfl, hnamed, hfound⟩
    replace hi : named.length < headers.length := hi
    have hheader : (secOf headers named.length).headerOffset + 4 ≤ blob.size := by
      have := hread.table_le
      rw [hread.eq_headerAt _ hi]
      simp only [headerAt]
      omega
    simp only [sectionAt_eq hi, ok_bind]
    refine (readName_spec hstrings hheader).bind fun name _ => ?_
    refine (matchName_spec { secOf headers named.length with name } hfound).bind
      fun found hfound => ?_
    refine Meets.ok ⟨by simp, fun k hk => ?_, hfound⟩
    obtain hlt | rfl := Nat.lt_or_eq_of_le (Nat.le_of_lt_succ hk)
    · obtain ⟨name', hname'⟩ := hnamed k hlt
      exact ⟨name', by rw [secOf_append_of_lt hlt, hname']⟩
    · exact ⟨name, secOf_append_length _ _⟩

/-! ## Required sections -/

namespace GraphLayout

/-- The section at a position of the layout. -/
def sec (layout : GraphLayout) (index : ℕ) : GraphSection :=
  secOf layout.sections index

def text (layout : GraphLayout) : GraphSection :=
  layout.sec layout.kernelTextIndex

def params (layout : GraphLayout) : GraphSection :=
  layout.sec layout.paramsIndex

def invocations (layout : GraphLayout) : GraphSection :=
  layout.sec layout.invocationsIndex

def ranges (layout : GraphLayout) : GraphSection :=
  layout.sec layout.rangesIndex

def rangeRelocations (layout : GraphLayout) : GraphSection :=
  layout.sec layout.rangeRelocationsIndex

/-- The required sections are where the layout says. -/
structure Located (layout : GraphLayout) : Prop where
  text : IsAt layout.sections layout.kernelTextIndex ".text.KernelText"
  params : IsAt layout.sections layout.paramsIndex ".text.KernelParams"
  invocations : IsAt layout.sections layout.invocationsIndex ".text.ActKernelInvocations"
  ranges : IsAt layout.sections layout.rangesIndex ".text.ActKernelRanges"
  rangeRelocations : IsAt layout.sections layout.rangeRelocationsIndex ".rlt.text.ActKernelRanges"
  compatibility : IsAt layout.sections layout.compatibilityIndex "compatibility_string"
  loaderAbiVersion : IsAt layout.sections layout.loaderAbiVersionIndex ".note.LoaderABIVersion"
  mappedInferenceVersion :
    IsAt layout.sections layout.mappedInferenceVersionIndex ".note.MappedInferenceVersion"
  platformInfo : IsAt layout.sections layout.platformInfoIndex ".meta.PlatformInfo"

end GraphLayout

theorem requireSections_spec {blob : View} {index : ℕ} {sections : List GraphSection}
    {found : RequiredSections} (hindex : index < sections.length)
    (hfound : found.FoundIn sections) :
    Safe (requireSections blob index sections found) fun layout =>
      layout.blob = blob ∧ layout.sections = sections ∧ layout.sectionTableOffset = 64 ∧
        layout.sectionNameIndex = index ∧ layout.Located := by
  unfold requireSections
  rw [sectionAt_eq hindex, ok_bind]
  refine Meets.refuseIf_bind (by simp) fun _ => ?_
  obtain ⟨h1, h2, h3, h4, h5, h6, h7, h8, h9⟩ := hfound
  split
  · split
    · exact Meets.error (by simp)
    · exact Meets.error (by simp)
    · exact Meets.error (by simp)
    · exact Meets.error (by simp)
    · obtain ⟨l1, n1⟩ := h1 _ rfl
      obtain ⟨l2, n2⟩ := h2 _ rfl
      obtain ⟨l3, n3⟩ := h3 _ rfl
      obtain ⟨l4, n4⟩ := h4 _ rfl
      obtain ⟨l5, n5⟩ := h5 _ rfl
      obtain ⟨l6, n6⟩ := h6 _ rfl
      obtain ⟨l7, n7⟩ := h7 _ rfl
      obtain ⟨l8, n8⟩ := h8 _ rfl
      obtain ⟨l9, n9⟩ := h9 _ rfl
      exact Meets.ok ⟨rfl, rfl, rfl, rfl, ⟨l1, n1⟩, ⟨l2, n2⟩, ⟨l3, n3⟩, ⟨l4, n4⟩, ⟨l5, n5⟩,
        ⟨l6, n6⟩, ⟨l7, n7⟩, ⟨l8, n8⟩, ⟨l9, n9⟩⟩
  · exact Meets.error (by simp)

/-! ## The ACT carrier -/

theorem hasCarrierForm_iff {sec : GraphSection} {flags alignment : ℕ} :
    hasCarrierForm sec flags alignment = true ↔ sec.flags = flags ∧ sec.address = 0 ∧
      sec.link = 0 ∧ sec.info = 0 ∧ sec.alignment = alignment ∧ sec.entrySize = 1 := by
  simp [hasCarrierForm, and_assoc]

/-- The ACT carrier sections in their supported form. -/
structure GraphLayout.Carrier (layout : GraphLayout) : Prop where
  text_type : layout.text.type = shtProgbits
  params_type : layout.params.type = shtProgbits
  invocations_type : layout.invocations.type = shtProgbits
  ranges_type : layout.ranges.type = shtProgbits
  rangeRelocations_type : layout.rangeRelocations.type = shtRela
  text_form : hasCarrierForm layout.text 0x40000000 1024 = true
  params_form : hasCarrierForm layout.params 0x40000000 64 = true
  invocations_form : hasCarrierForm layout.invocations 0x20000004 64 = true
  ranges_form : hasCarrierForm layout.ranges 0x20000004 64 = true
  rangeRelocations_flags : layout.rangeRelocations.flags = 0x40
  rangeRelocations_address : layout.rangeRelocations.address = 0
  rangeRelocations_alignment : layout.rangeRelocations.alignment = 8
  invocations_size : layout.invocations.size % 0x40 = 0
  ranges_size : layout.ranges.size % 0x18 = 0
  rangeRelocations_entrySize : layout.rangeRelocations.entrySize = 0x18
  rangeRelocations_size : layout.rangeRelocations.size % 0x18 = 0

/-- The check of the carrier is exact. -/
theorem checkCarrier_eq_ok_iff {layout : GraphLayout} (h : layout.Located) :
    checkCarrier layout = .ok () ↔ layout.Carrier := by
  simp only [checkCarrier, sectionAt_eq h.text.lt, sectionAt_eq h.params.lt,
    sectionAt_eq h.invocations.lt, sectionAt_eq h.ranges.lt, sectionAt_eq h.rangeRelocations.lt,
    ok_bind, refuseIf_bind_eq_ok_iff, refuseIf_eq_ok_iff, not_or, not_not]
  constructor
  · rintro ⟨⟨h1, h2, h3, h4, h5⟩, ⟨h6, h7, h8, h9, h10, h11, h12⟩, h13, h14, h15, h16⟩
    exact ⟨h1, h2, h3, h4, h5, h6, h7, h8, h9, h10, h11, h12, h13, h14, h15, h16⟩
  · rintro ⟨h1, h2, h3, h4, h5, h6, h7, h8, h9, h10, h11, h12, h13, h14, h15, h16⟩
    exact ⟨⟨h1, h2, h3, h4, h5⟩, ⟨h6, h7, h8, h9, h10, h11, h12⟩, h13, h14, h15, h16⟩

theorem checkCarrier_spec {layout : GraphLayout} (h : layout.Located) :
    Safe (checkCarrier layout) fun _ => layout.Carrier := by
  have hsafe : Safe (checkCarrier layout) fun _ => True := by
    simp only [checkCarrier, sectionAt_eq h.text.lt, sectionAt_eq h.params.lt,
      sectionAt_eq h.invocations.lt, sectionAt_eq h.ranges.lt,
      sectionAt_eq h.rangeRelocations.lt, ok_bind]
    refine Meets.refuseIf_bind (by simp) fun _ => ?_
    refine Meets.refuseIf_bind (by simp) fun _ => ?_
    exact (Meets.refuseIf (by simp)).mono fun _ _ => trivial
  exact ⟨hsafe.not_bad, fun _ hok => (checkCarrier_eq_ok_iff h).1 hok⟩

/-! ## Compatibility records -/

theorem readCompatibilityField_spec (token : List UInt8) (fields : Compatibility) :
    Safe (readCompatibilityField token fields) fun _ => True := by
  unfold readCompatibilityField
  split_ifs
  · refine Meets.refuseIf_bind (by simp) fun _ => ?_
    exact Meets.refuseIf_bind (by simp) fun _ => Meets.ok trivial
  · refine Meets.refuseIf_bind (by simp) fun _ => ?_
    exact Meets.refuseIf_bind (by simp) fun _ => Meets.ok trivial
  · exact Meets.refuseIf_bind (by simp) fun _ => Meets.ok trivial
  · exact Meets.refuseIf_bind (by simp) fun _ => Meets.ok trivial
  · exact Meets.refuseIf_bind (by simp) fun _ => Meets.error (by simp)
  · refine Meets.refuseIf_bind (by simp) fun _ => ?_
    exact Meets.refuseIf_bind (by simp) fun _ => Meets.ok trivial
  · refine Meets.refuseIf_bind (by simp) fun _ => ?_
    exact Meets.refuseIf_bind (by simp) fun _ => Meets.ok trivial
  · exact Meets.ok trivial

theorem readCompatibilityFields_spec :
    ∀ (rounds : ℕ) (data : List UInt8) (fields : Compatibility),
      Safe (readCompatibilityFields rounds data fields) fun _ => True
  | 0, _, _ => Meets.ok trivial
  | rounds + 1, data, fields => by
    rw [readCompatibilityFields]
    split_ifs
    · exact Meets.ok trivial
    · refine Meets.refuseIf_bind (by simp) fun _ => ?_
      exact (readCompatibilityField_spec _ _).bind fun fields _ =>
        readCompatibilityFields_spec rounds _ fields

theorem readCompatibility_spec (data : List UInt8) :
    Safe (readCompatibility data) fun _ => True := by
  unfold readCompatibility
  refine Meets.refuseIf_bind (by simp) fun _ => ?_
  refine (readCompatibilityFields_spec _ _ _).bind fun _ _ => ?_
  exact Meets.refuseIf_bind (by simp) fun _ => Meets.ok trivial

namespace GraphLayout

/-- The sections of the layout are the section headers of its blob, with names. -/
structure HasHeaders (layout : GraphLayout) : Prop where
  table_le : 64 + layout.sections.length * 64 ≤ layout.blob.size
  eq_headerAt : ∀ i < layout.sections.length,
    { layout.sec i with name := [] } = headerAt layout.blob i
  fits : ∀ i < layout.sections.length, (layout.sec i).Fits layout.blob.size

variable {layout : GraphLayout}

theorem sectionAt_eq {index : ℕ} (h : index < layout.sections.length) :
    sectionAt layout.sections index = .ok (layout.sec index) :=
  Npunlock.sectionAt_eq h

/-- Bytes of a section that is in the file are bytes of the blob. -/
theorem HasHeaders.in_file (h : layout.HasHeaders) {index : ℕ}
    (hindex : index < layout.sections.length) (htype : (layout.sec index).type ≠ shtNobits) :
    (layout.sec index).offset + (layout.sec index).size ≤ layout.blob.size :=
  (h.fits index hindex).inBounds htype

end GraphLayout

theorem validateGraphCompatibility_spec {layout : GraphLayout} (h : layout.HasHeaders)
    (hindex : layout.compatibilityIndex < layout.sections.length) :
    Safe (validateGraphCompatibility layout) fun _ => True := by
  simp only [validateGraphCompatibility, GraphLayout.sectionAt_eq hindex, ok_bind]
  refine Meets.refuseIf_bind (by simp) fun hform => ?_
  simp only [not_or, not_not] at hform
  have hin := h.in_file hindex (by rw [hform.1]; decide)
  rw [readBytes_eq hin, ok_bind]
  exact (readCompatibility_spec _).bind fun _ _ => Meets.ok trivial

theorem validateVersionNote_spec {layout : GraphLayout} (h : layout.HasHeaders) {index : ℕ}
    (hindex : index < layout.sections.length) (owner : List UInt8) (noteType : ℕ)
    (expected : List ℕ) (message : String) :
    Safe (validateVersionNote layout index owner noteType expected message) fun _ => True := by
  simp only [validateVersionNote, GraphLayout.sectionAt_eq hindex, ok_bind]
  refine Meets.refuseIf_bind (by simp) fun hform => ?_
  simp only [not_or, not_not] at hform
  have hin := h.in_file hindex (by rw [hform.1]; decide)
  have hsize : (layout.sec index).size = 0x20 := hform.2.2.2.2.2.2.2
  simp (disch := omega) only [readU32, readLE_eq, readBytes_eq, ok_bind]
  refine Meets.refuseIf_bind (by simp) fun _ => ?_
  refine (Meets.checkRange (P := fun _ => True) fun i _ hi => ?_).mono fun _ _ => trivial
  rw [readLE_eq (by omega), ok_bind]
  exact (Meets.refuseIf (by simp)).mono fun _ _ => trivial

theorem validateActTileIndices_spec {layout : GraphLayout} (h : layout.HasHeaders)
    (hindex : layout.invocationsIndex < layout.sections.length)
    (htype : layout.invocations.type = shtProgbits) :
    Safe (validateActTileIndices layout) fun _ => True := by
  have hin := h.in_file hindex (by rw [← GraphLayout.invocations, htype]; decide)
  simp only [validateActTileIndices, GraphLayout.sectionAt_eq hindex, ok_bind]
  refine (Meets.checkRange (P := fun _ => True) fun i _ hi => ?_).mono fun _ _ => trivial
  rw [readU32, readLE_eq (by omega), ok_bind]
  exact (Meets.refuseIf (by simp)).mono fun _ _ => trivial

theorem validatePlatformInfo_spec {layout : GraphLayout} (h : layout.HasHeaders)
    (hindex : layout.platformInfoIndex < layout.sections.length) :
    Safe (validatePlatformInfo layout) fun _ => True := by
  simp only [validatePlatformInfo, GraphLayout.sectionAt_eq hindex, ok_bind]
  refine Meets.refuseIf_bind (by simp) fun hform => ?_
  simp only [not_or, not_not] at hform
  have hin := h.in_file hindex (by rw [hform.1]; decide)
  have hsize : (layout.sec layout.platformInfoIndex).size = 0x28 := hform.2.2.2.2.2.1
  simp (disch := omega) only [readU64, readLE_eq, ok_bind]
  exact (Meets.refuseIf (by simp)).mono fun _ _ => trivial

theorem checkRecords_spec {layout : GraphLayout} (h : layout.HasHeaders)
    (hlocated : layout.Located) (hcarrier : layout.Carrier) :
    Safe (checkRecords layout) fun checked =>
      ∃ tileCount, checked = { layout with tileCount } := by
  unfold checkRecords
  refine (validateGraphCompatibility_spec h hlocated.compatibility.lt).bind
    fun tileCount _ => ?_
  have h' : GraphLayout.HasHeaders { layout with tileCount } :=
    ⟨h.table_le, h.eq_headerAt, h.fits⟩
  refine (validateVersionNote_spec h' hlocated.loaderAbiVersion.lt _ _ _ _).bind fun _ _ => ?_
  refine (validateVersionNote_spec h' hlocated.mappedInferenceVersion.lt _ _ _ _).bind
    fun _ _ => ?_
  refine (validateActTileIndices_spec h' hlocated.invocations.lt
    hcarrier.invocations_type).bind fun _ _ => ?_
  refine (validatePlatformInfo_spec h' hlocated.platformInfo.lt).bind fun _ _ => ?_
  exact Meets.ok ⟨tileCount, rfl⟩

/-! ## The parser -/

/-- What holds of every layout the parser returns. -/
structure GraphLayout.Valid (layout : GraphLayout) : Prop extends layout.HasHeaders where
  header : Elf64Header layout.blob
  count_pos : 0 < layout.sections.length
  count_lt : layout.sections.length < 2 ^ 16
  tableOffset : layout.sectionTableOffset = 64
  null : (layout.sec 0).IsNull
  placed : Placed layout.sections
  nameIndex : layout.sectionNameIndex = 1
  nameIndex_lt : 1 < layout.sections.length
  nameTable : (layout.sec 1).IsNameTable
  located : layout.Located
  carrier : layout.Carrier

/-- The sections `sections` are the headers `headers` with names. -/
def Renamed (headers sections : List GraphSection) : Prop :=
  sections.length = headers.length ∧
    ∀ i < headers.length, ∃ name, secOf sections i = { secOf headers i with name }

theorem Placed.renamed {headers sections : List GraphSection} (h : Placed headers)
    (hr : Renamed headers sections) : Placed sections := by
  obtain ⟨hlen, hname⟩ := hr
  refine ⟨fun i h1 hi hfile => ?_, fun i j h1 hij hj hfile hfile' => ?_⟩
  · obtain ⟨name, hi'⟩ := hname i (by omega)
    rw [hi'] at hfile ⊢
    rw [hlen]
    exact h.table i h1 (by omega) hfile
  · obtain ⟨name, hi'⟩ := hname i (by omega)
    obtain ⟨name', hj'⟩ := hname j (by omega)
    rw [hi'] at hfile
    rw [hj'] at hfile'
    rw [hi', hj']
    exact h.disjoint i j h1 hij (by omega) hfile hfile'

/-- The stages a blob has passed when the parser returns `layout`. -/
structure ParseRun (blob : View) (layout : GraphLayout) where
  count : ℕ
  nameIndex : ℕ
  headers : List GraphSection
  strings : GraphSection
  sections : List GraphSection
  found : RequiredSections
  located : GraphLayout
  header_eq : readHeader blob = .ok (count, nameIndex)
  headers_eq : mapRange count (readSectionHeader blob) = .ok headers
  null_eq : checkNullSection blob headers = .ok ()
  placement_eq : checkPlacement headers = .ok ()
  strings_eq : readNameTable blob headers nameIndex = .ok strings
  sections_eq : nameSections blob strings headers = .ok (sections, found)
  located_eq : requireSections blob nameIndex sections found = .ok located
  carrier_eq : checkCarrier located = .ok ()
  records_eq : checkRecords located = .ok layout

/-- The parser accepts what passes all of its stages. -/
theorem parseGraph_eq_ok_iff {blob : View} {layout : GraphLayout} :
    parseGraph blob = .ok layout ↔ Nonempty (ParseRun blob layout) := by
  simp only [parseGraph, bind_eq_ok_iff]
  constructor
  · rintro ⟨⟨n, k⟩, h1, headers, h2, _, h3, _, h4, strings, h5, ⟨sections, found⟩, h6, located,
      h7, _, h8, h9⟩
    exact ⟨n, k, headers, strings, sections, found, located, h1, h2, h3, h4, h5, h6, h7, h8, h9⟩
  · rintro ⟨n, k, headers, strings, sections, found, located, h1, h2, h3, h4, h5, h6, h7, h8, h9⟩
    exact ⟨(n, k), h1, headers, h2, (), h3, (), h4, strings, h5, (sections, found), h6, located,
      h7, (), h8, h9⟩

/-- The parser reads inside the blob, and what it returns is valid. -/
theorem parseGraph_spec (blob : View) :
    Safe (parseGraph blob) fun layout => layout.blob = blob ∧ layout.Valid := by
  unfold parseGraph
  refine (readHeader_spec blob).bind
    fun ⟨count, nameIndex⟩ ⟨hheader, hpos, hname, hlt, htable⟩ => ?_
  refine (readHeaders_spec htable).bind fun headers ⟨hlen, hread⟩ => ?_
  have hnull_le : (secOf headers 0).headerOffset + 4 ≤ blob.size := by
    rw [hread.eq_headerAt 0 (by omega)]
    simp only [headerAt] at hpos ⊢
    omega
  refine (checkNullSection_spec (by omega) hnull_le).bind fun _ hnull => ?_
  refine (checkPlacement_spec hread).bind fun _ hplaced => ?_
  have hname' : nameIndex < headers.length := by omega
  refine (readNameTable_spec hname' (hread.fits _ hname')).bind fun strings => ?_
  rintro ⟨rfl, htableForm, rfl⟩
  refine (nameSections_spec hread (htableForm.in_file (hread.fits 1 hname'))).bind
    fun ⟨sections, found⟩ hnamed => ?_
  have hrenamed : Renamed headers sections := ⟨hnamed.length_eq, hnamed.eq_header⟩
  refine (requireSections_spec (by rw [hnamed.length_eq]; exact hname') hnamed.found_in).bind
    fun layout => ?_
  rintro ⟨rfl, rfl, htableOffset, hnameIndex, hlocated⟩
  refine (checkCarrier_spec hlocated).bind fun _ hcarrier => ?_
  have hsec : ∀ i < layout.sections.length, ∃ name,
      layout.sec i = { secOf headers i with name } := fun i hi =>
    hnamed.eq_header i (by rw [← hnamed.length_eq]; exact hi)
  have hlen' : layout.sections.length = headers.length := hnamed.length_eq
  have hheaders : layout.HasHeaders := by
    refine ⟨by rw [hlen']; exact hread.table_le, fun i hi => ?_, fun i hi => ?_⟩
    · obtain ⟨name, hname⟩ := hsec i hi
      rw [hname, ← hread.eq_headerAt i (by omega)]
      have := hread.eq_headerAt i (by omega)
      rw [this]
      rfl
    · obtain ⟨name, hname⟩ := hsec i hi
      rw [hname]
      obtain ⟨h1, h2, h3⟩ := hread.fits i (by omega)
      exact ⟨h1, h2, h3⟩
  refine (checkRecords_spec hheaders hlocated hcarrier).mono fun checked => ?_
  rintro ⟨tileCount, rfl⟩
  obtain ⟨name0, h0⟩ := hsec 0 (by omega)
  obtain ⟨name1, h1⟩ := hsec 1 (by omega)
  have hnull' : (layout.sec 0).IsNull := by
    rw [h0]
    exact ⟨hnull.1, hnull.2, hnull.3, hnull.4, hnull.5, hnull.6, hnull.7, hnull.8, hnull.9⟩
  have htable' : (layout.sec 1).IsNameTable := by
    rw [h1]
    exact ⟨htableForm.1, htableForm.2, htableForm.3, htableForm.4, htableForm.5, htableForm.6,
      htableForm.7, htableForm.8⟩
  have hcount : layout.sections.length < 2 ^ 16 := by
    rw [hlen', hlen]
    exact hlt
  have hlocated' : GraphLayout.Located { layout with tileCount } :=
    ⟨hlocated.text, hlocated.params, hlocated.invocations, hlocated.ranges,
      hlocated.rangeRelocations, hlocated.compatibility, hlocated.loaderAbiVersion,
      hlocated.mappedInferenceVersion, hlocated.platformInfo⟩
  have hcarrier' : GraphLayout.Carrier { layout with tileCount } := by
    obtain ⟨c1, c2, c3, c4, c5, c6, c7, c8, c9, c10, c11, c12, c13, c14, c15, c16⟩ := hcarrier
    exact ⟨c1, c2, c3, c4, c5, c6, c7, c8, c9, c10, c11, c12, c13, c14, c15, c16⟩
  refine ⟨rfl, ⟨hheaders.table_le, hheaders.eq_headerAt, hheaders.fits⟩, hheader, ?_, hcount,
    htableOffset, hnull', hplaced.renamed hrenamed, hnameIndex, ?_, htable', hlocated', hcarrier'⟩
  · simp only
    omega
  · simp only
    omega

/-- A parsed layout is valid. -/
theorem GraphLayout.Valid.of_parse {blob : View} {layout : GraphLayout}
    (h : parseGraph blob = .ok layout) : layout.Valid :=
  ((parseGraph_spec blob).value layout h).2

theorem blob_of_parse {blob : View} {layout : GraphLayout} (h : parseGraph blob = .ok layout) :
    layout.blob = blob :=
  ((parseGraph_spec blob).value layout h).1

end Npunlock
