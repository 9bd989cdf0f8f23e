import Npunlock.DiscoverySpec

/-!
# The owner of a relocated field

`find_pointer_relocation` and `find_range_relocation` resolve all entries of the relocation
sections they search and keep those with a given offset, the type `R_VPU_32` and a given
source. The entry returned is the only one kept. Entries of the same field with another type
or another source are passed over.
-/

namespace Npunlock

variable {layout : GraphLayout}

/-! ## Searches that keep one entry -/

theorem eq_of_filterMap_singleton {α β : Type} {f : α → Option β} {b : β} :
    ∀ {l : List α}, l.filterMap f = [b] → ∀ {a a' : α}, a ∈ l → a' ∈ l → f a ≠ none →
      f a' ≠ none → a = a'
  | [], h, _, _, _, _, _, _ => by simp at h
  | head :: l, h, a, a', ha, ha', hsome, hsome' => by
    rw [List.filterMap_cons] at h
    split at h
    · next hnone =>
      have hmem : a ∈ l := (List.mem_cons.1 ha).resolve_left (by rintro rfl; exact hsome hnone)
      have hmem' : a' ∈ l := (List.mem_cons.1 ha').resolve_left (by rintro rfl; exact hsome' hnone)
      exact eq_of_filterMap_singleton h hmem hmem' hsome hsome'
    · have hrest := List.filterMap_eq_nil_iff.1 (List.cons.inj h).2
      rcases List.mem_cons.1 ha with rfl | hmem
      · rcases List.mem_cons.1 ha' with rfl | hmem'
        · rfl
        · exact absurd (hrest a' hmem') hsome'
      · exact absurd (hrest a hmem) hsome

/-- The relocation at `place`, a section and an entry, if it is wanted. -/
def wantedAt (layout : GraphLayout) (wanted : GraphRelocation → Bool) (place : ℕ × ℕ) :
    Option GraphRelocation :=
  match resolveRelocation layout place.1 place.2 with
  | .ok relocation => if wanted relocation then some relocation else none
  | .error _ => none

theorem wantedAt_eq_some_iff {wanted : GraphRelocation → Bool} {place : ℕ × ℕ}
    {relocation : GraphRelocation} : wantedAt layout wanted place = some relocation ↔
      resolveRelocation layout place.1 place.2 = .ok relocation ∧ wanted relocation = true := by
  unfold wantedAt
  split
  · next resolved hresolved =>
    rw [hresolved, Except.ok.injEq]
    split_ifs with hwanted
    · rw [Option.some.injEq]
      exact ⟨fun h => ⟨h, h ▸ hwanted⟩, fun h => h.1⟩
    · simp only [false_iff]
      rintro ⟨rfl, h⟩
      exact hwanted h
  · next failure hfailure => simp [hfailure]

/-- All entries of a section. -/
def entriesOf (layout : GraphLayout) (sectionIndex : ℕ) : List (ℕ × ℕ) :=
  (List.range ((layout.sec sectionIndex).size / 0x18)).map fun entryIndex =>
    (sectionIndex, entryIndex)

/-- `places` were searched : each entry was resolved, and `found` are the wanted ones. -/
structure Searched (layout : GraphLayout) (wanted : GraphRelocation → Bool)
    (places : List (ℕ × ℕ)) (found : List GraphRelocation) : Prop where
  resolved : ∀ place ∈ places, ∃ relocation,
    resolveRelocation layout place.1 place.2 = .ok relocation
  found_eq : found = places.filterMap (wantedAt layout wanted)

theorem Searched.append {wanted : GraphRelocation → Bool} {places places' : List (ℕ × ℕ)}
    {found found' : List GraphRelocation} (h : Searched layout wanted places found)
    (h' : Searched layout wanted places' found') :
    Searched layout wanted (places ++ places') (found ++ found') := by
  refine ⟨fun place hplace => ?_, by rw [h.found_eq, h'.found_eq, List.filterMap_append]⟩
  rcases List.mem_append.1 hplace with hplace | hplace
  · exact h.resolved place hplace
  · exact h'.resolved place hplace

theorem searched_of_collectEntries {sectionIndex : ℕ} {wanted : GraphRelocation → Bool}
    {places : List (ℕ × ℕ)} {found found' : List GraphRelocation}
    (h : collectEntries layout sectionIndex ((layout.sec sectionIndex).size / 0x18) wanted found =
      .ok found') (hsearched : Searched layout wanted places found) :
    Searched layout wanted (places ++ entriesOf layout sectionIndex) found' := by
  unfold collectEntries at h
  refine forRange_inv (fun entryIndex found => Searched layout wanted
    (places ++ (List.range entryIndex).map fun entryIndex => (sectionIndex, entryIndex)) found)
    h (Nat.zero_le _) (by simpa using hsearched) fun entryIndex found found' _ _ hfound hstep => ?_
  obtain ⟨relocation, hresolved, hstep⟩ := bind_eq_ok_iff.1 hstep
  have hone : Searched layout wanted [(sectionIndex, entryIndex)]
      (if wanted relocation then [relocation] else []) := by
    refine ⟨fun place hplace => ?_, ?_⟩
    · obtain rfl := List.mem_singleton.1 hplace
      exact ⟨relocation, hresolved⟩
    · simp only [List.filterMap_cons, List.filterMap_nil, wantedAt, hresolved]
      split_ifs <;> rfl
  rw [List.range_succ, List.map_append, ← List.append_assoc, ← Except.ok.inj hstep]
  have happend := hfound.append hone
  split_ifs at happend ⊢ with hwanted
  · exact happend
  · rwa [List.append_nil] at happend

/-- The entries of the relocation sections of a target section. -/
def relocationPlaces (layout : GraphLayout) (targetIndex : ℕ) : List (ℕ × ℕ) :=
  (List.range layout.sections.length).flatMap fun sectionIndex =>
    if isRelocationSectionOf (layout.sec sectionIndex) targetIndex then
      entriesOf layout sectionIndex
    else []

theorem searched_of_collectRelocations {targetIndex : ℕ} {wanted : GraphRelocation → Bool}
    {found : List GraphRelocation}
    (h : collectRelocations layout targetIndex wanted = .ok found) :
    Searched layout wanted (relocationPlaces layout targetIndex) found := by
  unfold collectRelocations at h
  refine forRange_inv (fun sectionIndex found => Searched layout wanted
    ((List.range sectionIndex).flatMap fun sectionIndex =>
      if isRelocationSectionOf (layout.sec sectionIndex) targetIndex then
        entriesOf layout sectionIndex
      else []) found) h (Nat.zero_le _) ⟨by simp, rfl⟩
    fun sectionIndex found found' _ hindex hfound hstep => ?_
  rw [GraphLayout.sectionAt_eq hindex, ok_bind] at hstep
  rw [List.range_succ, List.flatMap_append, List.flatMap_singleton]
  split_ifs at hstep ⊢ with hsection
  · exact searched_of_collectEntries hstep hfound
  · rw [List.append_nil, ← Except.ok.inj hstep]
    exact hfound

/-! ## The owner of a field -/

/-- The bytes that the entry writes meet the four bytes of the field at `offset`. -/
def GraphRelocation.WritesField (relocation : GraphRelocation) (offset : ℕ) : Prop :=
  ∃ writeSize, relocationWriteSize relocation.type = some writeSize ∧
    relocation.targetOffset < offset + 4 ∧ offset < relocation.targetOffset + writeSize

/-- The source is the CMX base or a given section. -/
def GraphRelocation.hasSource (relocation : GraphRelocation) (sourceIndex : Option ℕ)
    (requireSpecial : Bool) : Bool :=
  (requireSpecial && relocation.specialSource &&
      relocation.symbol == vpuNnrdSymNncxmSliceBaseAddr) ||
    (!requireSpecial && !relocation.specialSource &&
      relocation.sourceSectionIndex == sourceIndex)

theorem isPointerRelocation_iff {offset : ℕ} {sourceIndex : Option ℕ} {requireSpecial : Bool}
    {relocation : GraphRelocation} :
    isPointerRelocation offset sourceIndex requireSpecial relocation = true ↔
      relocation.targetOffset = offset ∧ relocation.type = rVpu32 ∧
        relocation.hasSource sourceIndex requireSpecial = true := by
  simp [isPointerRelocation, GraphRelocation.hasSource, and_assoc]

/-- The search for a range keeps what a search for its code pointer from `KernelText` keeps. -/
theorem isRangeRelocation_eq (rangeIndex : ℕ) : isRangeRelocation layout rangeIndex =
    isPointerRelocation (rangeIndex * 0x18 + 8) (some layout.kernelTextIndex) false := by
  funext relocation
  simp [isRangeRelocation, isPointerRelocation, Bool.and_assoc]

/-- A search returned `owner`. Of the entries searched, it is the only one that writes the field
as an `R_VPU_32` from its source. -/
structure OwnsField (layout : GraphLayout) (places : List (ℕ × ℕ)) (offset : ℕ)
    (sourceIndex : Option ℕ) (requireSpecial : Bool) (owner : GraphRelocation) : Prop where
  writes : owner.targetOffset = offset ∧ owner.type = rVpu32 ∧
    owner.hasSource sourceIndex requireSpecial = true
  only : ∃ place ∈ places, resolveRelocation layout place.1 place.2 = .ok owner ∧
    ∀ other ∈ places, other ≠ place → ∃ relocation,
      resolveRelocation layout other.1 other.2 = .ok relocation ∧
        (relocation.WritesField offset → relocation.type ≠ rVpu32 ∨
          relocation.hasSource sourceIndex requireSpecial = false)

/-- Two aligned fields of four bytes that meet are one field. -/
theorem targetOffset_eq_of_writesField {index entry offset : ℕ} {relocation : GraphRelocation}
    (h : relocation.ReadFrom layout index entry) (htype : relocation.type = rVpu32)
    (hwrites : relocation.WritesField offset) (hoffset : offset % 4 = 0) :
    relocation.targetOffset = offset := by
  obtain ⟨writeSize, hsize, hmod, -⟩ := h.write
  obtain ⟨writeSize', hsize', hlt, hgt⟩ := hwrites
  rw [htype] at hsize hsize'
  obtain rfl : 4 = writeSize := Option.some.inj hsize
  obtain rfl : 4 = writeSize' := Option.some.inj hsize'
  omega

theorem ownsField_of_searched (h : layout.HasHeaders) {places : List (ℕ × ℕ)} {offset : ℕ}
    {sourceIndex : Option ℕ} {requireSpecial : Bool} {owner : GraphRelocation}
    (hsearched : Searched layout (isPointerRelocation offset sourceIndex requireSpecial) places
      [owner]) : OwnsField layout places offset sourceIndex requireSpecial owner := by
  have hmem : owner ∈ places.filterMap
      (wantedAt layout (isPointerRelocation offset sourceIndex requireSpecial)) := by
    rw [← hsearched.found_eq]
    simp
  obtain ⟨place, hplace, hat⟩ := List.mem_filterMap.1 hmem
  obtain ⟨hresolved, hwanted⟩ := wantedAt_eq_some_iff.1 hat
  have hwrites := isPointerRelocation_iff.1 hwanted
  have hfield : offset % 4 = 0 := by
    obtain ⟨writeSize, hsize, hmod, -⟩ :=
      ((resolveRelocation_spec h _ _).value _ hresolved).write
    rw [hwrites.2.1] at hsize
    obtain rfl : 4 = writeSize := Option.some.inj hsize
    rwa [hwrites.1] at hmod
  refine ⟨hwrites, place, hplace, hresolved, fun other hother hne => ?_⟩
  obtain ⟨relocation, hrelocation⟩ := hsearched.resolved other hother
  refine ⟨relocation, hrelocation, fun hmeets => ?_⟩
  by_contra hsame
  rw [not_or, not_not, Bool.not_eq_false] at hsame
  have hread := (resolveRelocation_spec h _ _).value _ hrelocation
  have hotherWanted := isPointerRelocation_iff.2
    ⟨targetOffset_eq_of_writesField hread hsame.1 hmeets hfield, hsame⟩
  have hotherAt := wantedAt_eq_some_iff.2 ⟨hrelocation, hotherWanted⟩
  exact hne (eq_of_filterMap_singleton hsearched.found_eq.symm hother hplace
    (by simp [hotherAt]) (by simp [hat]))

/-- What the two searches return owns its field, among the entries they search. -/
theorem found_relocation_owns (blob : View) (layout : GraphLayout)
    (hparse : parseGraph blob = .ok layout) :
    (∀ targetIndex offset sourceIndex requireSpecial owner,
      findPointerRelocation layout targetIndex offset sourceIndex requireSpecial = .ok owner →
        OwnsField layout (relocationPlaces layout targetIndex) offset sourceIndex requireSpecial
          owner) ∧
      ∀ rangeIndex owner, findRangeRelocation layout rangeIndex = .ok owner →
        OwnsField layout (entriesOf layout layout.rangeRelocationsIndex) (rangeIndex * 0x18 + 8)
          (some layout.kernelTextIndex) false owner := by
  have hvalid := GraphLayout.Valid.of_parse hparse
  constructor
  · intro targetIndex offset sourceIndex requireSpecial owner h
    unfold findPointerRelocation at h
    obtain ⟨found, hfound, h⟩ := bind_eq_ok_iff.1 h
    split at h
    · next relocation =>
      obtain rfl := Except.ok.inj h
      exact ownsField_of_searched hvalid.toHasHeaders (searched_of_collectRelocations hfound)
    · cases h
  · intro rangeIndex owner h
    unfold findRangeRelocation at h
    rw [hvalid.sectionAt_rangeRelocations, ok_bind] at h
    obtain ⟨-, h⟩ := refuseIf_bind_eq_ok_iff.1 h
    obtain ⟨found, hfound, h⟩ := bind_eq_ok_iff.1 h
    split at h
    · next relocation =>
      obtain rfl := Except.ok.inj h
      have hsearched := searched_of_collectEntries hfound (⟨by simp, rfl⟩ : Searched _ _ [] _)
      rw [isRangeRelocation_eq] at hsearched
      exact ownsField_of_searched hvalid.toHasHeaders hsearched
    · cases h

/-- The first parameter pointer of the example graph. -/
theorem found_relocation_owns_example : ∃ layout owner,
    parseGraph (ExampleGraph.view {}) = .ok layout ∧
      findPointerRelocation layout 4 4 (some 3) false = .ok owner ∧
        OwnsField layout (relocationPlaces layout 4) 4 (some 3) false owner := by
  have hsucceeds : succeeds (parseGraph (ExampleGraph.view {}) >>= fun layout =>
      findPointerRelocation layout 4 4 (some 3) false) = true := by
    decide +kernel
  obtain ⟨owner, h⟩ := succeeds_iff.1 hsucceeds
  obtain ⟨layout, hparse, h⟩ := bind_eq_ok_iff.1 h
  exact ⟨layout, owner, hparse, h, (found_relocation_owns _ layout hparse).1 4 4 _ _ owner h⟩

/-! ## Two relocations of one field -/

theorem sharedFieldView_size_le : 2544 ≤ sizeMax := by decide

/-- The example graph with the CMX relocation of its first data pointer moved to the pointer to
the dimensions, which has a relocation from `KernelParams` as well. -/
def sharedFieldView : View :=
  viewOf 2544 sharedFieldView_size_le
    (imageOf (ExampleGraph.elfHeader ++ ExampleGraph.sectionHeaders {} ++ ExampleGraph.strings ++
      ExampleGraph.records ++ ExampleGraph.carrier {} ++ ExampleGraph.relocations ++
      ExampleGraph.code {} ++ [(2448, 0x10)]))

/-- Another entry of a relocation section of the same target writes the field that the search
found one entry for. -/
theorem found_relocation_not_only : ∃ layout owner other,
    parseGraph sharedFieldView = .ok layout ∧
      findPointerRelocation layout 3 0x10 (some 3) false = .ok owner ∧
        (11, 0) ∈ relocationPlaces layout 3 ∧ resolveRelocation layout 11 0 = .ok other ∧
          other.fileOffset ≠ owner.fileOffset ∧ other.WritesField 0x10 := by
  have hsucceeds : succeeds (parseGraph sharedFieldView >>= fun layout =>
      findPointerRelocation layout 3 0x10 (some 3) false >>= fun owner =>
        resolveRelocation layout 11 0 >>= fun other =>
          refuseIf ((11, 0) ∉ relocationPlaces layout 3 ∨ other.fileOffset = owner.fileOffset ∨
            other.type ≠ rVpu32 ∨ other.targetOffset ≠ 0x10) Failure.wrapped) = true := by
    decide +kernel
  obtain ⟨_, h⟩ := succeeds_iff.1 hsucceeds
  obtain ⟨layout, hparse, h⟩ := bind_eq_ok_iff.1 h
  obtain ⟨owner, howner, h⟩ := bind_eq_ok_iff.1 h
  obtain ⟨other, hother, h⟩ := bind_eq_ok_iff.1 h
  simp only [refuseIf_eq_ok_iff, not_or, not_not] at h
  obtain ⟨hplace, hne, htype, hoffset⟩ := h
  refine ⟨layout, owner, other, hparse, howner, hplace, hother, hne, 4, ?_, ?_, ?_⟩
  · rw [htype]
    rfl
  · omega
  · omega

end Npunlock
