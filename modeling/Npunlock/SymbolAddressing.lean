import Npunlock.DiscoverySpec

/-!
# The symbol behind a relocation

`resolve_relocation` bounds the symbol index of an entry by the number of entries of the
linked symbol table, and then multiplies it with the size of an entry. The index and the
size are both 32 bits wide, so the product is one modulo `2 ^ 32`. The symbol consulted is
the one that the relocation names as long as the product fits. A table of more than 4 GiB,
which the parser admits, has entries that are not reached.
-/

namespace Npunlock

open View

/-! ## The symbol consulted -/

/-- The position of entry `symbol` of a symbol table. -/
def symbolEntry (symbols : GraphSection) (symbol : ℕ) : ℕ :=
  symbols.offset + symbol * 0x18

/-- The position at which `resolve_relocation` reads the symbol. -/
def consultedSymbol (symbols : GraphSection) (symbol : ℕ) : ℕ :=
  symbols.offset + symbolOffset symbol

/-- The bytes at `offset` are a symbol of section `source`, under the name it must have. -/
structure IsSourceSymbol (layout : GraphLayout) (strings : GraphSection) (offset source : ℕ) :
    Prop where
  in_blob : offset + 0x18 ≤ layout.blob.size
  info : littleEndian layout.blob.data (offset + 4) 1 = 0
  other : littleEndian layout.blob.data (offset + 5) 1 = 0
  source_eq : littleEndian layout.blob.data (offset + 6) 2 = source
  source_lt : source < layout.sections.length
  value : littleEndian layout.blob.data (offset + 8) 8 = 0
  size : littleEndian layout.blob.data (offset + 16) 8 = 0
  named : ∃ nameOffset expectedName,
    littleEndian layout.blob.data offset 4 = nameOffset ∧ nameOffset < strings.size ∧
      expectedSymbolName (layout.sec source).name = some expectedName ∧
        terminated layout.blob.data (strings.offset + nameOffset) (strings.size - nameOffset) =
          some expectedName

/-- What the second half of `resolve_relocation` has read. -/
theorem readSourceSymbol_eq_ok {layout : GraphLayout} {symbols strings : GraphSection}
    {relocation resolved : GraphRelocation}
    (h : readSourceSymbol layout symbols strings relocation = .ok resolved) :
    relocation.symbol < symbols.size / 0x18 ∧ ∃ source,
      resolved = { relocation with sourceSectionIndex := some source } ∧
        IsSourceSymbol layout strings (consultedSymbol symbols relocation.symbol) source := by
  unfold readSourceSymbol at h
  obtain ⟨hindex, h⟩ := refuseIf_bind_eq_ok_iff.1 h
  obtain ⟨nameOffset, hname, h⟩ := bind_eq_ok_iff.1 h
  obtain ⟨info, hinfo, h⟩ := bind_eq_ok_iff.1 h
  obtain ⟨other, hother, h⟩ := bind_eq_ok_iff.1 h
  obtain ⟨source, hsource, h⟩ := bind_eq_ok_iff.1 h
  obtain ⟨value, hvalue, h⟩ := bind_eq_ok_iff.1 h
  obtain ⟨size, hsize, h⟩ := bind_eq_ok_iff.1 h
  obtain ⟨-, rfl⟩ := readLE_eq_ok_iff.1 hname
  obtain ⟨-, rfl⟩ := readLE_eq_ok_iff.1 hinfo
  obtain ⟨-, rfl⟩ := readLE_eq_ok_iff.1 hother
  obtain ⟨-, rfl⟩ := readLE_eq_ok_iff.1 hsource
  obtain ⟨-, rfl⟩ := readLE_eq_ok_iff.1 hvalue
  obtain ⟨hend, rfl⟩ := readLE_eq_ok_iff.1 hsize
  obtain ⟨hform, h⟩ := refuseIf_bind_eq_ok_iff.1 h
  simp only [not_or, not_not, Nat.not_le, GraphLayout.sectionCount] at hform
  obtain ⟨hinfo, hother, hvalue, hsize, hsource⟩ := hform
  rw [GraphLayout.sectionAt_eq hsource, ok_bind] at h
  split at h
  · cases h
  · next expectedName hexpected =>
    obtain ⟨hnameOffset, h⟩ := refuseIf_bind_eq_ok_iff.1 h
    obtain ⟨name, hread, h⟩ := bind_eq_ok_iff.1 h
    split at h
    · cases h
    · next name =>
      obtain ⟨hnameEq, h⟩ := refuseIf_bind_eq_ok_iff.1 h
      rw [not_not] at hnameEq
      unfold readString at hread
      split_ifs at hread
      refine ⟨Nat.not_le.1 hindex, _, (Except.ok.inj h).symm,
        ⟨hend, hinfo, hother, rfl, hsource, hvalue, hsize, _, expectedName, rfl,
          Nat.not_le.1 hnameOffset, hexpected, ?_⟩⟩
      rw [← hnameEq]
      exact Except.ok.inj hread

/-- The symbol that an accepted entry was resolved with. -/
theorem resolveRelocation_eq_ok {layout : GraphLayout} (h : layout.HasHeaders)
    {index entry : ℕ} {relocation : GraphRelocation}
    (hresolved : resolveRelocation layout index entry = .ok relocation)
    (hlink : (layout.sec index).link < layout.sections.length) :
    relocation.symbol < (layout.sec (layout.sec index).link).size / 0x18 ∧
      ∃ strings source, relocation.sourceSectionIndex = some source ∧
        IsSourceSymbol layout strings
          (consultedSymbol (layout.sec (layout.sec index).link) relocation.symbol) source := by
  unfold resolveRelocation at hresolved
  obtain ⟨⟨relocations, read⟩, hread, hresolved⟩ := bind_eq_ok_iff.1 hresolved
  obtain ⟨rfl, -⟩ := (readRelocation_spec h index entry).value _ hread
  dsimp only at hresolved
  rw [GraphLayout.sectionCount, if_neg (Nat.not_le.2 hlink)] at hresolved
  obtain ⟨⟨symbols, strings⟩, htables, hresolved⟩ := bind_eq_ok_iff.1 hresolved
  obtain ⟨rfl, -⟩ := (relocationSymbolTables_spec h hlink).value _ htables
  obtain ⟨hindex, source, rfl, hsymbol⟩ := readSourceSymbol_eq_ok hresolved
  exact ⟨hindex, strings, source, rfl, hsymbol⟩

/-! ## Wrapping -/

theorem symbolOffset_eq_iff {symbol : ℕ} :
    symbolOffset symbol = symbol * 0x18 ↔ symbol * 0x18 < 2 ^ 32 := by
  unfold symbolOffset
  constructor
  · intro h
    rw [← h]
    exact Nat.mod_lt _ (by decide)
  · exact Nat.mod_eq_of_lt

/-- For an accepted entry that is linked to a symbol table, the index is below the symbol count
and the symbol consulted lies in the blob. It is the one that the entry names if and only if its
offset in the table fits 32 bits. -/
theorem consulted_symbol_iff (blob : View) (layout : GraphLayout)
    (hparse : parseGraph blob = .ok layout) (index entry : ℕ) (relocation : GraphRelocation)
    (hresolved : resolveRelocation layout index entry = .ok relocation)
    (hlink : (layout.sec index).link < layout.sections.length) :
    let symbols := layout.sec (layout.sec index).link
    relocation.symbol < symbols.size / 0x18 ∧
      (∃ strings source, relocation.sourceSectionIndex = some source ∧
        IsSourceSymbol layout strings (consultedSymbol symbols relocation.symbol) source) ∧
      (consultedSymbol symbols relocation.symbol = symbolEntry symbols relocation.symbol ↔
        relocation.symbol * 0x18 < 2 ^ 32) := by
  have hvalid := GraphLayout.Valid.of_parse hparse
  obtain ⟨hindex, hsymbol⟩ := resolveRelocation_eq_ok hvalid.toHasHeaders hresolved hlink
  refine ⟨hindex, hsymbol, ?_⟩
  rw [consultedSymbol, symbolEntry, Nat.add_left_cancel_iff]
  exact symbolOffset_eq_iff

/-- The first range relocation of the example graph reads the symbol it names. -/
theorem consulted_symbol_example : ∃ layout relocation,
    parseGraph (ExampleGraph.view {}) = .ok layout ∧
      resolveRelocation layout 6 0 = .ok relocation ∧
        consultedSymbol (layout.sec (layout.sec 6).link) relocation.symbol =
          symbolEntry (layout.sec (layout.sec 6).link) relocation.symbol := by
  have hsucceeds : succeeds (parseGraph (ExampleGraph.view {}) >>= fun layout =>
      resolveRelocation layout 6 0 >>= fun relocation =>
        refuseIf (layout.sections.length ≤ (layout.sec 6).link ∨
          2 ^ 32 ≤ relocation.symbol * 0x18) Failure.wrapped) = true := by
    decide +kernel
  obtain ⟨_, h⟩ := succeeds_iff.1 hsucceeds
  obtain ⟨layout, hparse, h⟩ := bind_eq_ok_iff.1 h
  obtain ⟨relocation, hresolved, h⟩ := bind_eq_ok_iff.1 h
  rw [refuseIf_eq_ok_iff, not_or, Nat.not_le, Nat.not_le] at h
  exact ⟨layout, relocation, hparse, hresolved,
    (consulted_symbol_iff _ layout hparse 6 0 relocation hresolved h.1).2.2.2 h.2⟩

/-! ## A symbol table of 12 GiB -/

namespace LongSymbolTable

/-- The number of symbols, so that the offset of the last one is three times `2 ^ 32`. -/
def symbolCount : ℕ := 2 ^ 29 + 1

/-- The header of section 9 with the new position and size of the table. -/
def movedTable : List (ℕ × ℕ) :=
  [(640 + 0x18, 2560 - 1448), (640 + 0x20, symbolCount * 0x18 - 48)]

/-- The two symbols of the example graph, at the new position. -/
def symbols : List (ℕ × ℕ) :=
  [(2560, 0x01), (2560 + 6, 2), (2584, 0x17), (2584 + 6, 3)]

/-- The first range relocation names the last symbol, of which all bytes are zero. -/
def lastSymbol : List (ℕ × ℕ) :=
  [(2160 + 12, symbolCount - 1)]

def view : View :=
  viewOf (2560 + symbolCount * 0x18) (by decide)
    (imageOf (ExampleGraph.elfHeader ++ ExampleGraph.sectionHeaders {} ++ ExampleGraph.strings ++
      ExampleGraph.records ++ ExampleGraph.carrier {} ++ ExampleGraph.relocations ++
      ExampleGraph.code {} ++ movedTable ++ symbols ++ lastSymbol))

end LongSymbolTable

/-- The last symbol is null, and the entry is resolved with the first one. -/
theorem consulted_symbol_wraps : ∃ layout relocation,
    parseGraph LongSymbolTable.view = .ok layout ∧
      resolveRelocation layout 6 0 = .ok relocation ∧
        (layout.sec 6).link < layout.sections.length ∧
          relocation.symbol < (layout.sec (layout.sec 6).link).size / 0x18 ∧
            consultedSymbol (layout.sec (layout.sec 6).link) relocation.symbol ≠
              symbolEntry (layout.sec (layout.sec 6).link) relocation.symbol := by
  have hsucceeds : succeeds (parseGraph LongSymbolTable.view >>= fun layout =>
      resolveRelocation layout 6 0 >>= fun relocation =>
        refuseIf (layout.sections.length ≤ (layout.sec 6).link ∨
          (layout.sec (layout.sec 6).link).size / 0x18 ≤ relocation.symbol ∨
            consultedSymbol (layout.sec (layout.sec 6).link) relocation.symbol =
              symbolEntry (layout.sec (layout.sec 6).link) relocation.symbol)
          Failure.wrapped) = true := by
    decide +kernel
  obtain ⟨_, h⟩ := succeeds_iff.1 hsucceeds
  obtain ⟨layout, hparse, h⟩ := bind_eq_ok_iff.1 h
  obtain ⟨relocation, hresolved, h⟩ := bind_eq_ok_iff.1 h
  rw [refuseIf_eq_ok_iff, not_or, not_or, Nat.not_le, Nat.not_le] at h
  exact ⟨layout, relocation, hparse, hresolved, h⟩

end Npunlock
