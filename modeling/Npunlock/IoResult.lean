import Npunlock.IoSymbols
import Npunlock.RoutingSpec
import Npunlock.Utf8Names

/-!
# The result of the symbol inspection

`npunlock_inspect_graph_io_symbols` returns its records and the names in one allocation,
whose size it computes from the counts of the first pass. The second pass copies the names
one behind the other. Here the allocation is a byte image, the view of a name is its
position in the image and its size, and a record or a name without room is an access out of
bounds.
-/

namespace Npunlock

open View

/-! ## Sections in the file -/

section Tables

variable {layout : GraphLayout}

/-- The bytes of the section are bytes of the blob. -/
def GraphSection.InBlob (sec : GraphSection) (blob : View) : Prop :=
  sec.type ≠ shtNobits → sec.offset + sec.size ≤ blob.size

theorem GraphLayout.HasHeaders.inBlob (h : layout.HasHeaders) {index : ℕ}
    (hindex : index < layout.sections.length) : (layout.sec index).InBlob layout.blob :=
  h.in_file hindex

/-- A section of a name is the section at its position. -/
theorem mem_sectionsNamed {name : String} {entry : GraphSection × ℕ}
    (h : entry ∈ sectionsNamed layout name) :
    entry.2 < layout.sections.length ∧ entry.1 = layout.sec entry.2 ∧
      entry.1.name = ascii name := by
  unfold sectionsNamed at h
  obtain ⟨hmem, hname⟩ := List.mem_filter.1 h
  obtain ⟨hi, heq⟩ := List.mem_zipIdx' hmem
  exact ⟨hi, by simp [heq, GraphLayout.sec, secOf, hi], by simpa using hname⟩

/-- Record `index` of a section lies in its bytes. -/
theorem record_le {sec : GraphSection} {blob : View} {index recordSize : ℕ}
    (hblob : sec.offset + sec.size ≤ blob.size) (hindex : index < sec.size / recordSize) :
    sec.offset + index * recordSize + recordSize ≤ blob.size := by
  have hrecord : (index + 1) * recordSize ≤ sec.size :=
    (Nat.mul_le_mul_right _ hindex).trans (Nat.div_mul_le_self _ _)
  rw [Nat.succ_mul] at hrecord
  omega

end Tables

/-! ## The allocation -/

/-- `sizeof(patchblob_graph_io_symbol)`. -/
def ioSymbolSize : ℕ := 40

/-- `patchblob_graph_io_symbol`, with the position of its name. -/
structure IoSymbolRecord where
  kind : GraphIoKind
  symbolTableIndex : ℕ
  symbolIndex : ℕ
  sizeBytes : ℕ
  nameOffset : ℕ
  nameSize : ℕ

/-- The result while it is filled : the allocation, the records so far and `name_cursor`. -/
structure IoSymbolResult where
  allocationSize : ℕ
  symbolCount : ℕ
  memory : ℕ → UInt8
  records : List IoSymbolRecord
  nameCursor : ℕ

/-- The tables of the inputs and of the outputs, with their positions. -/
def findIoTables (layout : GraphLayout) :
    Result ((GraphSection × ℕ) × (GraphSection × ℕ)) := do
  let inputs := sectionsNamed layout GraphIoKind.input.tableName
  let outputs := sectionsNamed layout GraphIoKind.output.tableName
  refuseIf (1 < inputs.length ∨ 1 < outputs.length)
    (malformed "graph contains a duplicate I/O symbol table")
  match inputs, outputs with
  | input :: _, output :: _ => .ok (input, output)
  | _, _ =>
    .error (unsupported "graph does not contain dedicated input/output symbol tables")

/-- The first pass : the number of symbols and the length of their names. -/
def countIoSymbols (layout : GraphLayout) (input output : GraphSection) : Result (ℕ × ℕ) := do
  let counts ← countIoTable layout .input input (0, 0)
  countIoTable layout .output output counts

/-- `calloc(1, allocation_size)`. -/
def allocateIoSymbols (counts : ℕ × ℕ) : Result IoSymbolResult :=
  let overflow := setDiagnostic .overflow "patchblob.inspect_graph_io_symbols"
    "graph I/O symbol result allocation overflows"
  match checkedMulSize counts.1 ioSymbolSize with
  | none => .error overflow
  | some recordsSize =>
    match checkedAddSize recordsSize counts.2 with
    | none => .error overflow
    | some allocationSize =>
      .ok { allocationSize, symbolCount := counts.1, memory := fun _ => 0, records := [],
            nameCursor := recordsSize }

/-- The second pass over a symbol : its record, and its name at the cursor. -/
def fillIoSymbol (layout : GraphLayout) (kind : GraphIoKind) (tableIndex : ℕ)
    (symbols strings : GraphSection) (symbolIndex : ℕ) (result : IoSymbolResult) :
    Result IoSymbolResult := do
  let symbol ← readIoSymbol layout kind tableIndex symbols strings symbolIndex
  let nameSize := symbol.nameUtf8.length
  refuseIf (result.symbolCount ≤ result.records.length ∨
    result.allocationSize < result.nameCursor + nameSize) .outOfBounds
  let record : IoSymbolRecord :=
    { kind, symbolTableIndex := tableIndex, symbolIndex, sizeBytes := symbol.sizeBytes,
      nameOffset := result.nameCursor, nameSize }
  .ok { result with
        memory := overlay result.memory result.nameCursor nameSize (symbol.nameUtf8.getD · 0)
        records := result.records ++ [record]
        nameCursor := result.nameCursor + nameSize }

/-- The second pass over the table of one kind. -/
def fillIoTable (layout : GraphLayout) (kind : GraphIoKind) (table : GraphSection × ℕ)
    (result : IoSymbolResult) : Result IoSymbolResult := do
  let strings ← sectionAt layout.sections table.1.link
  forRange 1 (table.1.size / 0x18) result (fillIoSymbol layout kind table.2 table.1 strings)

/-- `npunlock_inspect_graph_io_symbols`, with the allocation it returns. -/
def inspectIoResult (blob : View) : Result IoSymbolResult := do
  let layout ← parseGraph blob
  let (input, output) ← findIoTables layout
  let counts ← countIoSymbols layout input.1 output.1
  refuseIf (counts.1 = 0) (unsupported "graph I/O symbol tables contain no tensor symbols")
  let result ← allocateIoSymbols counts
  let result ← fillIoTable layout .input input result
  fillIoTable layout .output output result

/-- What a reader of the result sees. -/
def IoSymbolRecord.observe (memory : ℕ → UInt8) (record : IoSymbolRecord) : GraphIoSymbol :=
  { kind := record.kind, symbolTableIndex := record.symbolTableIndex,
    symbolIndex := record.symbolIndex, sizeBytes := record.sizeBytes,
    nameUtf8 := slice memory record.nameOffset record.nameSize }

/-! ## Names in a string table -/

theorem slice_succ (m : ℕ → UInt8) (o n : ℕ) : slice m o (n + 1) = m o :: slice m (o + 1) n := by
  simp [slice, List.range_succ_eq_map, Nat.add_assoc, Nat.add_comm 1]

/-- A name and the zero behind it, inside a string table. -/
structure NameAt (memory : ℕ → UInt8) (offset limit : ℕ) (name : List UInt8) : Prop where
  eq_slice : name = slice memory offset name.length
  nonzero : ∀ k < name.length, memory (offset + k) ≠ 0
  terminator : memory (offset + name.length) = 0
  inside : name.length < limit

theorem terminated_eq_some_iff {memory : ℕ → UInt8} : ∀ {limit offset : ℕ} {name : List UInt8},
    terminated memory offset limit = some name ↔ NameAt memory offset limit name
  | 0, offset, name => by
    simp only [terminated, reduceCtorEq, false_iff]
    intro h
    have := h.inside
    omega
  | limit + 1, offset, name => by
    rw [terminated]
    split_ifs with hzero
    · rw [Option.some.injEq]
      constructor
      · rintro rfl
        exact ⟨by simp [slice], by simp, by simpa using hzero, by simp⟩
      · intro h
        cases name with
        | nil => rfl
        | cons a rest => exact absurd hzero (h.nonzero 0 (by simp))
    · rw [Option.map_eq_some_iff]
      constructor
      · rintro ⟨rest, hrest, rfl⟩
        obtain ⟨heq, hnonzero, hterm, hin⟩ := terminated_eq_some_iff.1 hrest
        refine ⟨?_, fun k hk => ?_, ?_, by simpa using hin⟩
        · rw [List.length_cons, slice_succ, ← heq]
        · cases k with
          | zero => exact hzero
          | succ k =>
            have := hnonzero k (by simpa using hk)
            rwa [show offset + (k + 1) = offset + 1 + k by omega]
        · rwa [List.length_cons,
            show offset + (rest.length + 1) = offset + 1 + rest.length by omega]
      · intro h
        cases name with
        | nil => exact absurd h.terminator hzero
        | cons a rest =>
          obtain ⟨heq, hnonzero, hterm, hin⟩ := h
          rw [List.length_cons] at heq hnonzero hterm hin
          rw [slice_succ, List.cons.injEq] at heq
          refine ⟨rest, terminated_eq_some_iff.2 ⟨heq.2, fun k hk => ?_, ?_, by omega⟩, ?_⟩
          · have := hnonzero (k + 1) (by omega)
            rwa [show offset + (k + 1) = offset + 1 + k by omega] at this
          · rwa [show offset + (rest.length + 1) = offset + 1 + rest.length by omega] at hterm
          · rw [heq.1]

/-- A longer limit finds the same name. -/
theorem NameAt.mono {memory : ℕ → UInt8} {offset limit limit' : ℕ} {name : List UInt8}
    (h : NameAt memory offset limit name) (hle : limit ≤ limit') :
    NameAt memory offset limit' name :=
  ⟨h.eq_slice, h.nonzero, h.terminator, h.inside.trans_le hle⟩

theorem readCString_eq {blob : View} {offset limit : ℕ} {name : List UInt8}
    (h : NameAt blob.data offset limit name) (hlimit : offset + limit ≤ blob.size) :
    readCString blob offset = .ok name := by
  unfold readCString
  rw [readString_eq (by omega), ok_bind, terminated_eq_some_iff.2 (h.mono (by omega))]

/-! ## One symbol -/

/-- What a record says of symbol `symbolIndex` of a table. -/
structure IsIoSymbol (layout : GraphLayout) (kind : GraphIoKind) (tableIndex : ℕ)
    (symbols strings : GraphSection) (symbolIndex : ℕ) (symbol : GraphIoSymbol) : Prop where
  kind_eq : symbol.kind = kind
  table_eq : symbol.symbolTableIndex = tableIndex
  index_eq : symbol.symbolIndex = symbolIndex
  size_eq : symbol.sizeBytes =
    littleEndian layout.blob.data (symbols.offset + symbolIndex * 0x18 + 16) 8
  nameAt : ∃ nameOffset,
    nameOffset = littleEndian layout.blob.data (symbols.offset + symbolIndex * 0x18) 4 ∧
      nameOffset ≠ 0 ∧ NameAt layout.blob.data (strings.offset + nameOffset)
        (strings.size - nameOffset) symbol.nameUtf8
  name_ne_nil : symbol.nameUtf8 ≠ []
  name_utf8 : ∃ chars : List Char, (∀ char ∈ chars, char.toNat ≠ 0) ∧
    symbol.nameUtf8 = chars.flatMap String.utf8EncodeChar

section Symbol

variable {layout : GraphLayout} {symbols strings : GraphSection} {symbolIndex : ℕ}

/-- A symbol that the first pass counts is one that the second pass reads. -/
theorem countIoSymbol_spec (kind : GraphIoKind) (tableIndex : ℕ)
    (hrecord : symbols.offset + symbolIndex * 0x18 + 0x18 ≤ layout.blob.size)
    (hstrings : strings.offset + strings.size ≤ layout.blob.size) (counts : ℕ × ℕ) :
    Safe (countIoSymbol layout symbols strings symbolIndex counts) fun counts' =>
      ∃ symbol, readIoSymbol layout kind tableIndex symbols strings symbolIndex = .ok symbol ∧
        IsIoSymbol layout kind tableIndex symbols strings symbolIndex symbol ∧
          counts' = (counts.1 + 1, counts.2 + symbol.nameUtf8.length) := by
  unfold countIoSymbol
  simp (disch := omega) only [readU8, readU16, readU32, readU64, readLE_eq, ok_bind]
  refine Meets.refuseIf_bind (by simp) fun _ => ?_
  refine Meets.refuseIf_bind (by simp) fun hname => ?_
  rw [not_or, Nat.not_le] at hname
  rw [readString_eq (by omega), ok_bind]
  split
  · exact Meets.error (by simp)
  · next name hread =>
    have hat := terminated_eq_some_iff.1 hread
    refine Meets.refuseIf_bind (by simp) fun hempty => ?_
    refine Meets.refuseIf_bind (by simp) fun hutf8 => ?_
    rw [not_not] at hutf8
    split
    · next hcount hsize =>
      obtain ⟨-, rfl⟩ := checkedAddSize_eq_some_iff.1 hcount
      obtain ⟨-, rfl⟩ := checkedAddSize_eq_some_iff.1 hsize
      let symbol : GraphIoSymbol :=
        { kind, symbolTableIndex := tableIndex, symbolIndex,
          sizeBytes := littleEndian layout.blob.data (symbols.offset + symbolIndex * 0x18 + 16) 8,
          nameUtf8 := name }
      refine Meets.ok ⟨symbol, ?_, ⟨rfl, rfl, rfl, rfl, ⟨_, rfl, hname.1, hat⟩, hempty,
        exists_chars_of_isUtf8 hutf8⟩, rfl⟩
      unfold readIoSymbol
      simp (disch := omega) only [readU32, readU64, readLE_eq, ok_bind]
      rw [readCString_eq hat (by omega), ok_bind]
    · exact Meets.error (by simp)

end Symbol

/-! ## One table -/

/-- The symbols are those of a table, without the null symbol and in its order. -/
structure IoTable (layout : GraphLayout) (kind : GraphIoKind) (table : GraphSection × ℕ)
    (strings : GraphSection) (symbols : List GraphIoSymbol) : Prop where
  strings_eq : sectionAt layout.sections table.1.link = .ok strings
  length_eq : symbols.length + 1 = table.1.size / 0x18
  read_eq : ∀ i (hi : i < symbols.length),
    readIoSymbol layout kind table.2 table.1 strings (i + 1) = .ok symbols[i]
  symbol : ∀ i (hi : i < symbols.length),
    IsIoSymbol layout kind table.2 table.1 strings (i + 1) symbols[i]

/-- The bytes of the names. -/
def namesLength (symbols : List GraphIoSymbol) : ℕ :=
  (symbols.map fun symbol => symbol.nameUtf8.length).sum

@[simp] theorem namesLength_append (symbols symbols' : List GraphIoSymbol) :
    namesLength (symbols ++ symbols') = namesLength symbols + namesLength symbols' := by
  simp [namesLength]

@[simp] theorem namesLength_singleton (symbol : GraphIoSymbol) :
    namesLength [symbol] = symbol.nameUtf8.length := by
  simp [namesLength]

theorem checkIoTable_spec {layout : GraphLayout} (h : layout.HasHeaders) (kind : GraphIoKind)
    {symbols : GraphSection} (hsymbols : symbols.InBlob layout.blob) :
    Safe (checkIoTable layout kind symbols) fun strings =>
      sectionAt layout.sections symbols.link = .ok strings ∧
        symbols.offset + symbols.size ≤ layout.blob.size ∧
          strings.offset + strings.size ≤ layout.blob.size ∧ 1 ≤ symbols.size / 0x18 := by
  unfold checkIoTable
  refine Meets.refuseIf_bind (by simp) fun hform => ?_
  simp only [not_or, not_not, Nat.not_le, GraphLayout.sectionCount] at hform
  obtain ⟨htype, -, -, -, -, -, -, hlink⟩ := hform
  have hin := hsymbols (by rw [htype]; decide)
  rw [GraphLayout.sectionAt_eq hlink, ok_bind]
  refine Meets.refuseIf_bind (by simp) fun hstrings => ?_
  simp only [not_or, not_not] at hstrings
  obtain ⟨-, hstringType, -, -, -, -, -, -, hsize⟩ := hstrings
  have hstringsIn := h.inBlob hlink (by rw [hstringType]; decide)
  rw [readU8, readLE_eq (by omega), ok_bind]
  refine Meets.refuseIf_bind (by simp) fun _ => ?_
  refine Meets.refuseIf_bind (by simp) fun hcount => ?_
  have hnull : symbols.offset + 0x18 ≤ layout.blob.size := by omega
  rw [readBytes_eq hnull, ok_bind]
  refine Meets.refuseIf_bind (by simp) fun _ => ?_
  exact Meets.ok ⟨rfl, hin, hstringsIn, by omega⟩

/-- The first pass over a table counts the symbols that the second pass reads. -/
theorem countIoTable_spec {layout : GraphLayout} (h : layout.HasHeaders) (kind : GraphIoKind)
    {table : GraphSection × ℕ} (htable : table.1.InBlob layout.blob) (counts : ℕ × ℕ) :
    Safe (countIoTable layout kind table.1 counts) fun counts' => ∃ strings symbols,
      IoTable layout kind table strings symbols ∧
        counts' = (counts.1 + symbols.length, counts.2 + namesLength symbols) := by
  unfold countIoTable
  refine (checkIoTable_spec h kind htable).bind fun strings hchecked => ?_
  obtain ⟨hstrings, htableIn, hstringsIn, hpos⟩ := hchecked
  refine (Meets.forRange (fun i counts' => ∃ symbols : List GraphIoSymbol,
    symbols.length + 1 = i ∧
      (∀ j (hj : j < symbols.length),
        readIoSymbol layout kind table.2 table.1 strings (j + 1) = .ok symbols[j] ∧
          IsIoSymbol layout kind table.2 table.1 strings (j + 1) symbols[j]) ∧
      counts' = (counts.1 + symbols.length, counts.2 + namesLength symbols))
    hpos ⟨[], rfl, by simp, rfl⟩ fun i counts' _ hi ⟨symbols, hlength, hread, hcounts⟩ => ?_).mono
    fun counts' ⟨symbols, hlength, hread, hcounts⟩ =>
      ⟨strings, symbols, ⟨hstrings, hlength, fun i hi => (hread i hi).1,
        fun i hi => (hread i hi).2⟩, hcounts⟩
  refine (countIoSymbol_spec kind table.2 (record_le htableIn hi) hstringsIn counts').mono
    fun counts'' ⟨symbol, hsymbol, his, hcounts'⟩ => ?_
  refine ⟨symbols ++ [symbol], by simp [hlength], fun j hj => ?_, ?_⟩
  · rw [List.length_append, List.length_singleton] at hj
    obtain hlt | rfl := Nat.lt_succ_iff_lt_or_eq.1 hj
    · rw [List.getElem_append_left hlt]
      exact hread j hlt
    · rw [List.getElem_append_right le_rfl]
      simp only [Nat.sub_self, List.getElem_cons_zero, hlength]
      exact ⟨hsymbol, his⟩
  · rw [hcounts', hcounts]
    simp [Nat.add_assoc]

/-! ## Names one behind the other -/

/-- The names of the records, one behind the other from `start` to `stop`. -/
def ConsecutiveRanges : ℕ → List IoSymbolRecord → ℕ → Prop
  | start, [], stop => start = stop
  | start, record :: records, stop =>
    record.nameOffset = start ∧ ConsecutiveRanges (start + record.nameSize) records stop

namespace ConsecutiveRanges

theorem append_one : ∀ {records : List IoSymbolRecord} {start : ℕ} {record : IoSymbolRecord},
    ConsecutiveRanges start records record.nameOffset →
      ConsecutiveRanges start (records ++ [record]) (record.nameOffset + record.nameSize)
  | [], start, record, h => by
    obtain rfl : start = record.nameOffset := h
    exact ⟨rfl, rfl⟩
  | _ :: _, _, _, h => ⟨h.1, h.2.append_one⟩

theorem le : ∀ {records : List IoSymbolRecord} {start stop : ℕ},
    ConsecutiveRanges start records stop → start ≤ stop
  | [], _, _, h => Nat.le_of_eq h
  | _ :: _, _, _, h => (Nat.le_add_right _ _).trans h.2.le

theorem stop_eq : ∀ {records : List IoSymbolRecord} {start stop : ℕ},
    ConsecutiveRanges start records stop →
      stop = start + (records.map IoSymbolRecord.nameSize).sum
  | [], _, _, h => by
    simpa using h.symm
  | _ :: _, _, _, h => by
    rw [h.2.stop_eq, List.map_cons, List.sum_cons, Nat.add_assoc]

theorem mem_range : ∀ {records : List IoSymbolRecord} {start stop : ℕ},
    ConsecutiveRanges start records stop → ∀ record ∈ records,
      start ≤ record.nameOffset ∧ record.nameOffset + record.nameSize ≤ stop
  | [], _, _, _, record, hrecord => by
    simp at hrecord
  | head :: records, start, stop, h, record, hrecord => by
    have hle := h.2.le
    rcases List.mem_cons.1 hrecord with rfl | hrecord
    · exact ⟨h.1.ge, h.1 ▸ hle⟩
    · have := h.2.mem_range record hrecord
      omega

theorem pairwise : ∀ {records : List IoSymbolRecord} {start stop : ℕ},
    ConsecutiveRanges start records stop →
      records.Pairwise fun left right => left.nameOffset + left.nameSize ≤ right.nameOffset
  | [], _, _, _ => List.Pairwise.nil
  | head :: records, start, stop, h => by
    refine List.pairwise_cons.2 ⟨fun record hrecord => ?_, h.2.pairwise⟩
    rw [h.1]
    exact (h.2.mem_range record hrecord).1

/-- Every byte between the two ends belongs to a name. -/
theorem covers : ∀ {records : List IoSymbolRecord} {start stop : ℕ},
    ConsecutiveRanges start records stop → ∀ i, start ≤ i → i < stop →
      ∃ record ∈ records, record.nameOffset ≤ i ∧ i < record.nameOffset + record.nameSize
  | [], start, stop, h, i, hi, hi' => by
    obtain rfl : start = stop := h
    omega
  | head :: records, start, stop, h, i, hi, hi' => by
    by_cases hhead : i < start + head.nameSize
    · exact ⟨head, by simp, by rw [h.1]; exact hi, by rw [h.1]; exact hhead⟩
    · obtain ⟨record, hrecord, hin⟩ := h.2.covers i (by omega) hi'
      exact ⟨record, by simp [hrecord], hin⟩

end ConsecutiveRanges

/-- The records and the names of `symbols` are in the allocation. -/
structure Filled (start : ℕ) (symbols : List GraphIoSymbol) (result : IoSymbolResult) : Prop where
  observed : result.records.map (·.observe result.memory) = symbols
  consecutive : ConsecutiveRanges start result.records result.nameCursor

namespace Filled

variable {start : ℕ} {symbols : List GraphIoSymbol} {result : IoSymbolResult}

theorem length_eq (h : Filled start symbols result) : result.records.length = symbols.length := by
  rw [← h.observed, List.length_map]

theorem nameCursor_eq (h : Filled start symbols result) :
    result.nameCursor = start + namesLength symbols := by
  rw [h.consecutive.stop_eq, ← h.observed, namesLength, List.map_map]
  congr 3
  funext record
  simp [IoSymbolRecord.observe]

end Filled

theorem slice_overlay_getD (memory : ℕ → UInt8) (offset : ℕ) (name : List UInt8) :
    slice (overlay memory offset name.length (name.getD · 0)) offset name.length = name := by
  refine List.ext_getElem (length_slice _ _ _) fun k hk hk' => ?_
  rw [length_slice] at hk
  simp [slice, overlay_add hk, hk]

theorem slice_overlay_of_le {memory src : ℕ → UInt8} {offset size start n : ℕ}
    (h : start + n ≤ offset) : slice (overlay memory offset size src) start n =
      slice memory start n :=
  slice_congr fun _ _ => overlay_of_outside (by omega)

/-- The second pass writes a symbol behind those it has written. -/
theorem fillIoSymbol_spec {layout : GraphLayout} {kind : GraphIoKind} {tableIndex symbolIndex : ℕ}
    {table strings : GraphSection} {symbol : GraphIoSymbol} {start : ℕ}
    {symbols : List GraphIoSymbol} {result : IoSymbolResult}
    (hread : readIoSymbol layout kind tableIndex table strings symbolIndex = .ok symbol)
    (his : IsIoSymbol layout kind tableIndex table strings symbolIndex symbol)
    (h : Filled start symbols result) (hrecords : symbols.length < result.symbolCount)
    (hnames : start + namesLength (symbols ++ [symbol]) ≤ result.allocationSize) :
    Safe (fillIoSymbol layout kind tableIndex table strings symbolIndex result) fun result' =>
      Filled start (symbols ++ [symbol]) result' ∧
        result'.symbolCount = result.symbolCount ∧
          result'.allocationSize = result.allocationSize := by
  have hcursor := h.nameCursor_eq
  rw [namesLength_append, namesLength_singleton] at hnames
  unfold fillIoSymbol
  rw [hread, ok_bind]
  refine Meets.refuseIf_never ?_ (Meets.ok ⟨⟨?_, h.consecutive.append_one⟩, rfl, rfl⟩)
  · rw [h.length_eq]
    omega
  · rw [List.map_append, List.map_singleton]
    congr 1
    · rw [← h.observed]
      refine List.map_congr_left fun record hrecord => ?_
      have hbelow := (h.consecutive.mem_range record hrecord).2
      simp only [IoSymbolRecord.observe, slice_overlay_of_le hbelow]
    · simp only [IoSymbolRecord.observe, slice_overlay_getD, ← his.kind_eq, ← his.table_eq,
        ← his.index_eq]

/-- The second pass over a table. -/
theorem fillIoTable_spec {layout : GraphLayout} {kind : GraphIoKind} {table : GraphSection × ℕ}
    {strings : GraphSection} {found symbols : List GraphIoSymbol} {start : ℕ}
    {result : IoSymbolResult} (htable : IoTable layout kind table strings found)
    (h : Filled start symbols result)
    (hrecords : (symbols ++ found).length ≤ result.symbolCount)
    (hnames : start + namesLength (symbols ++ found) ≤ result.allocationSize) :
    Safe (fillIoTable layout kind table result) fun result' =>
      Filled start (symbols ++ found) result' ∧ result'.symbolCount = result.symbolCount ∧
        result'.allocationSize = result.allocationSize := by
  have hlength := htable.length_eq
  rw [List.length_append] at hrecords
  unfold fillIoTable
  rw [htable.strings_eq, ok_bind]
  refine (Meets.forRange (fun i result' => Filled start (symbols ++ found.take (i - 1)) result' ∧
    result'.symbolCount = result.symbolCount ∧ result'.allocationSize = result.allocationSize)
    (by omega) (by simpa using h) fun i result' hi hi' ⟨hfilled, hcount, hsize⟩ => ?_).mono
    fun result' hfilled => ?_
  · obtain ⟨j, rfl⟩ : ∃ j, i = j + 1 := ⟨i - 1, by omega⟩
    have hj : j < found.length := by omega
    have htake : found.take (j + 1) = found.take j ++ [found[j]] := by simp
    have hsplit : found = found.take (j + 1) ++ found.drop (j + 1) := by simp
    have hpart : start + namesLength (symbols ++ found.take j ++ [found[j]]) ≤
        result'.allocationSize := by
      rw [List.append_assoc, ← htake, hsize]
      rw [hsplit, ← List.append_assoc, namesLength_append] at hnames
      omega
    refine (fillIoSymbol_spec (htable.read_eq j hj) (htable.symbol j hj) hfilled ?_ hpart).mono
      fun result'' ⟨hfilled', hcount', hsize'⟩ => ?_
    · rw [hcount]
      simp only [List.length_append, List.length_take, Nat.add_sub_cancel]
      omega
    · rw [Nat.add_sub_cancel, htake, ← List.append_assoc]
      exact ⟨hfilled', hcount'.trans hcount, hsize'.trans hsize⟩
  · rwa [← hlength, Nat.add_sub_cancel, List.take_length] at hfilled

/-! ## The two passes -/

/-- The only section of the name of a symbol table. -/
structure IsOnlyTable (layout : GraphLayout) (kind : GraphIoKind) (table : GraphSection × ℕ) :
    Prop where
  lt : table.2 < layout.sections.length
  section_eq : table.1 = layout.sec table.2
  only : ∀ index < layout.sections.length,
    (layout.sec index).name = ascii kind.tableName ↔ index = table.2

theorem isOnlyTable_of_sectionsNamed {layout : GraphLayout} {kind : GraphIoKind}
    {table : GraphSection × ℕ} (h : sectionsNamed layout kind.tableName = [table]) :
    IsOnlyTable layout kind table := by
  have hmem : table ∈ sectionsNamed layout kind.tableName := by
    rw [h]
    simp
  obtain ⟨hlt, heq, hname⟩ := mem_sectionsNamed hmem
  refine ⟨hlt, heq, fun index hindex => ⟨fun hindexName => ?_, ?_⟩⟩
  · have hentry : (layout.sec index, index) ∈ sectionsNamed layout kind.tableName := by
      refine List.mem_filter.2 ⟨?_, by simpa using hindexName⟩
      rw [List.mem_zipIdx_iff_getElem?]
      simp [GraphLayout.sec, secOf, hindex]
    rw [h, List.mem_singleton] at hentry
    rw [← hentry]
  · rintro rfl
    rw [← heq, hname]

theorem findIoTables_spec (layout : GraphLayout) :
    Safe (findIoTables layout) fun tables =>
      IsOnlyTable layout .input tables.1 ∧ IsOnlyTable layout .output tables.2 := by
  unfold findIoTables
  refine Meets.refuseIf_bind (by simp) fun hone => ?_
  rw [not_or, Nat.not_lt, Nat.not_lt] at hone
  split
  · next input inputs output outputs hinputs houtputs =>
    rw [hinputs, houtputs] at hone
    obtain rfl : inputs = [] := List.eq_nil_of_length_eq_zero (by simpa using hone.1)
    obtain rfl : outputs = [] := List.eq_nil_of_length_eq_zero (by simpa using hone.2)
    exact Meets.ok ⟨isOnlyTable_of_sectionsNamed hinputs, isOnlyTable_of_sectionsNamed houtputs⟩
  · exact Meets.error (by simp)

theorem allocateIoSymbols_spec (counts : ℕ × ℕ) :
    Safe (allocateIoSymbols counts) fun result =>
      Filled (counts.1 * ioSymbolSize) [] result ∧ result.symbolCount = counts.1 ∧
        result.allocationSize = counts.1 * ioSymbolSize + counts.2 := by
  unfold allocateIoSymbols
  dsimp only
  split
  · exact Meets.error (by simp)
  · next recordsSize hrecords =>
    obtain ⟨-, rfl⟩ := checkedMulSize_eq_some_iff.1 hrecords
    split
    · exact Meets.error (by simp)
    · next allocationSize hsize =>
      obtain ⟨-, rfl⟩ := checkedAddSize_eq_some_iff.1 hsize
      exact Meets.ok ⟨⟨rfl, rfl⟩, rfl, rfl⟩

/-- The allocation holds `symbols` : their records, and behind them their names, which lie in
disjoint parts and leave no byte over. -/
structure HoldsSymbols (result : IoSymbolResult) (symbols : List GraphIoSymbol) : Prop where
  observed : result.records.map (·.observe result.memory) = symbols
  size_eq : result.allocationSize = symbols.length * ioSymbolSize + namesLength symbols
  inside : ∀ record ∈ result.records, symbols.length * ioSymbolSize ≤ record.nameOffset ∧
    record.nameOffset + record.nameSize ≤ result.allocationSize
  disjoint : result.records.Pairwise fun left right =>
    left.nameOffset + left.nameSize ≤ right.nameOffset
  filled : ∀ i, symbols.length * ioSymbolSize ≤ i → i < result.allocationSize →
    ∃ record ∈ result.records, record.nameOffset ≤ i ∧ i < record.nameOffset + record.nameSize

theorem Filled.holdsSymbols {symbols : List GraphIoSymbol} {result : IoSymbolResult}
    (h : Filled (symbols.length * ioSymbolSize) symbols result)
    (hsize : result.allocationSize = symbols.length * ioSymbolSize + namesLength symbols) :
    HoldsSymbols result symbols := by
  have hstop : result.nameCursor = result.allocationSize := h.nameCursor_eq.trans hsize.symm
  exact ⟨h.observed, hsize, fun record hrecord => hstop ▸ h.consecutive.mem_range record hrecord,
    h.consecutive.pairwise, fun i hi hi' => h.consecutive.covers i hi (by omega)⟩

/-- What the two passes did to return `result`. -/
structure IoInspection (blob : View) (result : IoSymbolResult) where
  layout : GraphLayout
  input : GraphSection × ℕ
  output : GraphSection × ℕ
  inputStrings : GraphSection
  outputStrings : GraphSection
  inputs : List GraphIoSymbol
  outputs : List GraphIoSymbol
  parsed : parseGraph blob = .ok layout
  found : findIoTables layout = .ok (input, output)
  input_only : IsOnlyTable layout .input input
  output_only : IsOnlyTable layout .output output
  input_table : IoTable layout .input input inputStrings inputs
  output_table : IoTable layout .output output outputStrings outputs
  counted : countIoSymbols layout input.1 output.1 =
    .ok ((inputs ++ outputs).length, namesLength (inputs ++ outputs))
  nonempty : inputs ++ outputs ≠ []
  holds : HoldsSymbols result (inputs ++ outputs)

/-- Both passes take the same symbols. So the second pass stays in the allocation, which it
fills with the names. -/
theorem inspectIoResult_spec (blob : View) :
    Safe (inspectIoResult blob) fun result => Nonempty (IoInspection blob result) := by
  unfold inspectIoResult
  refine (parseGraph_spec blob).of_eq.bind fun layout ⟨hparse, _, hvalid⟩ => ?_
  have hheaders := hvalid.toHasHeaders
  refine (findIoTables_spec layout).of_eq.bind
    fun ⟨input, output⟩ ⟨hfound, hinput, houtput⟩ => ?_
  have hinputBlob : input.1.InBlob layout.blob :=
    hinput.section_eq ▸ hheaders.inBlob hinput.lt
  have houtputBlob : output.1.InBlob layout.blob :=
    houtput.section_eq ▸ hheaders.inBlob houtput.lt
  have hcount : Safe (countIoSymbols layout input.1 output.1) fun counts =>
      ∃ inputStrings inputs outputStrings outputs,
        IoTable layout .input input inputStrings inputs ∧
          IoTable layout .output output outputStrings outputs ∧
            counts = ((inputs ++ outputs).length, namesLength (inputs ++ outputs)) := by
    refine (countIoTable_spec hheaders .input hinputBlob (0, 0)).bind
      fun counts ⟨inputStrings, inputs, hinputs, hcounts⟩ => ?_
    refine (countIoTable_spec hheaders .output houtputBlob counts).mono
      fun counts' ⟨outputStrings, outputs, houtputs, hcounts'⟩ => ?_
    refine ⟨inputStrings, inputs, outputStrings, outputs, hinputs, houtputs, ?_⟩
    simp [hcounts', hcounts]
  refine hcount.of_eq.bind fun counts ⟨hcounted, inputStrings, inputs, outputStrings, outputs,
    hinputs, houtputs, hcounts⟩ => ?_
  subst hcounts
  refine Meets.refuseIf_bind (by simp) fun hpos => ?_
  refine (allocateIoSymbols_spec _).bind fun result₀ ⟨hfilled₀, hroom₀, hsize₀⟩ => ?_
  refine (fillIoTable_spec hinputs hfilled₀ (by simp [hroom₀])
    (by simp [hsize₀])).bind fun result₁ ⟨hfilled₁, hroom₁, hsize₁⟩ => ?_
  refine (fillIoTable_spec houtputs hfilled₁ (by simp [hroom₁, hroom₀])
    (by simp [hsize₁, hsize₀])).mono fun result ⟨hfilled, _, hsize⟩ => ?_
  have hholds : HoldsSymbols result (inputs ++ outputs) := by
    refine Filled.holdsSymbols (by simpa using hfilled) ?_
    rw [hsize, hsize₁, hsize₀]
  exact ⟨{ layout, input, output, inputStrings, outputStrings, inputs, outputs,
           parsed := hparse, found := hfound, input_only := hinput, output_only := houtput,
           input_table := hinputs, output_table := houtputs, counted := hcounted,
           nonempty := by simpa using hpos, holds := hholds }⟩

theorem IoTable.readIoTable_eq {layout : GraphLayout} {kind : GraphIoKind}
    {table : GraphSection × ℕ} {strings : GraphSection} {symbols : List GraphIoSymbol}
    (h : IoTable layout kind table strings symbols) :
    readIoTable layout kind table.1 table.2 = .ok symbols := by
  unfold readIoTable
  rw [h.strings_eq, ok_bind]
  exact mapRange_eq_ok_iff.2 ⟨by rw [← h.length_eq, Nat.add_sub_cancel], h.read_eq⟩

/-- What a reader of the result sees are the symbols that the list-level model returns. -/
theorem inspectGraphIoSymbols_eq {blob : View} {result : IoSymbolResult}
    (h : inspectIoResult blob = .ok result) :
    inspectGraphIoSymbols blob = .ok (result.records.map (·.observe result.memory)) := by
  obtain ⟨run⟩ := (inspectIoResult_spec blob).value result h
  have hnonempty : (run.inputs ++ run.outputs).length ≠ 0 := by simpa using run.nonempty
  have hfound := run.found
  unfold findIoTables at hfound
  obtain ⟨hone, hfound⟩ := refuseIf_bind_eq_ok_iff.1 hfound
  have hcounted := run.counted
  unfold countIoSymbols at hcounted
  obtain ⟨counts, hinputs, houtputs⟩ := bind_eq_ok_iff.1 hcounted
  unfold inspectGraphIoSymbols readIoSymbols
  rw [run.parsed, ok_bind]
  dsimp only
  rw [refuseIf_of_not _ hone, ok_bind]
  split at hfound
  · next input inputs output outputs hinputSections houtputSections =>
    obtain ⟨rfl, rfl⟩ := Prod.mk.inj (Except.ok.inj hfound)
    rw [hinputSections, houtputSections]
    dsimp only
    rw [hinputs, ok_bind, houtputs, ok_bind]
    dsimp only
    rw [refuseIf_of_not _ hnonempty, ok_bind, run.input_table.readIoTable_eq, ok_bind,
      run.output_table.readIoTable_eq, ok_bind, writeWithin_eq_ok_iff.2 ⟨le_rfl, rfl⟩, ok_bind,
      writeWithin_eq_ok_iff.2 ⟨Nat.le_of_eq ?_, rfl⟩, ok_bind, run.holds.observed]
    rw [List.length_flatMap, namesLength]
  · cases hfound

/-- For every blob, the inspection stays in bounds, and what it returns are the symbols of the
two tables, with names that fill their part of the one allocation. -/
theorem io_passes_agree (blob : View) : Safe (inspectIoResult blob) fun result =>
    Nonempty (IoInspection blob result) ∧
      inspectGraphIoSymbols blob = .ok (result.records.map (·.observe result.memory)) :=
  (inspectIoResult_spec blob).of_eq.mono fun _ ⟨heq, hrun⟩ =>
    ⟨hrun, inspectGraphIoSymbols_eq heq⟩

/-- A name of the example graph is not followed by a terminator in the allocation. -/
theorem io_names_not_terminated : ∃ result, inspectIoResult (RoutedGraph.view {}) = .ok result ∧
    ∃ record ∈ result.records,
      ¬(record.nameOffset + record.nameSize < result.allocationSize ∧
        result.memory (record.nameOffset + record.nameSize) = 0) := by
  have hresult : (inspectIoResult (RoutedGraph.view {})).map (fun result =>
      result.records.any fun record =>
        !(decide (record.nameOffset + record.nameSize < result.allocationSize) &&
          result.memory (record.nameOffset + record.nameSize) == 0)) = .ok true := by
    decide +kernel
  obtain ⟨result, h, hany⟩ := map_eq_ok_iff.1 hresult
  obtain ⟨record, hrecord, hterm⟩ := List.any_eq_true.1 hany
  exact ⟨result, h, record, hrecord, by simpa [imp_iff_not_or] using hterm⟩

end Npunlock
