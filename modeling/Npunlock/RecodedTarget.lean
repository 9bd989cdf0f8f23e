import Npunlock.Recoded

/-!
# Relocations, tensors and targets of a recoded graph

A relocation of a recoded graph differs from the one of the original in its file offset,
and in its addend if it is the code pointer of a range (`Moved`). Pointers and tensors are
read from other relocations, so they are the same in both graphs, and a target is valid in
one if and only if it is valid in the other.
-/

namespace Npunlock

variable {layout layout' : GraphLayout}

/-! ## Relocations -/

/-- `relocation'` is `relocation` at another place, with another addend if its section
holds the code pointers of the ranges. -/
structure Moved (layout : GraphLayout) (index : ℕ) (relocation relocation' : GraphRelocation) :
    Prop where
  eq : relocation' =
    { relocation with fileOffset := relocation'.fileOffset, addend := relocation'.addend }
  addend_eq : index ≠ layout.rangeRelocationsIndex → relocation'.addend = relocation.addend

namespace Moved

variable {index : ℕ} {relocation relocation' : GraphRelocation}

theorem exists_eq (h : Moved layout index relocation relocation') :
    ∃ fileOffset addend, { relocation with fileOffset, addend } = relocation' ∧
      (index ≠ layout.rangeRelocationsIndex → addend = relocation.addend) :=
  ⟨_, _, h.eq.symm, h.addend_eq⟩

end Moved

/-- The target of a relocation is not `KernelText`. -/
theorem Recoded.target_size_eq (h : Recoded layout layout') {i : ℕ}
    (hi : i < layout.sections.length) {name : List UInt8}
    (hname : expectedRelocationName (layout.sec i).name = some name) :
    (layout'.sec i).size = (layout.sec i).size := by
  refine h.size_eq i hi fun heq => ?_
  have htext : (layout.sec layout.kernelTextIndex).name = ascii ".text.KernelText" :=
    h.located.text.name
  rw [heq, htext, show expectedRelocationName (ascii ".text.KernelText") = none by decide] at hname
  cases hname

/-- The bytes of a relocation entry before its addend. -/
theorem Recoded.window_entry (h : Recoded layout layout') {i entry : ℕ}
    (hi : i < layout.sections.length) (htype : (layout.sec i).type = shtRela)
    (hentry : entry * 0x18 + 0x18 ≤ (layout.sec i).size) :
    SameBytes layout.blob layout'.blob ((layout.sec i).offset + entry * 0x18)
      ((layout'.sec i).offset + entry * 0x18) 16 := by
  have hno : (layout.sec i).type ≠ shtNobits := by rw [htype]; decide
  have hin := h.headers.in_file hi hno
  have hin' := h.headers'.in_file (h.length_eq ▸ hi) (by rwa [h.type_eq hi])
  rw [h.size_eq_of_type hi (by rw [htype]; decide)] at hin'
  refine ⟨by omega, by omega, fun k hk => ?_⟩
  rw [Nat.add_assoc, Nat.add_assoc]
  refine h.bytes i hi hno _ (by omega) ⟨fun heq => ?_, fun _ => by omega⟩
  rw [heq, ← GraphLayout.ranges, h.carrier.ranges_type] at htype
  exact absurd htype (by decide)

theorem readRelocation_recoded (h : Recoded layout layout') (index entry : ℕ) :
    Agree (fun r r' => r.1 = layout.sec index ∧ r'.1 = layout'.sec index ∧
        index < layout.sections.length ∧ Moved layout index r.2 r'.2)
      (readRelocation layout index entry) (readRelocation layout' index entry) := by
  unfold readRelocation
  refine Agree.refuseIf_bind (by rw [h.sectionCount_eq]) fun hi => ?_
  rw [GraphLayout.sectionCount, Nat.not_le] at hi
  rw [GraphLayout.sectionAt_eq hi, h.sectionAt_eq hi, ok_bind, ok_bind]
  by_cases htype : (layout.sec index).type = shtRela
  · have hsize := h.size_eq_of_type hi (by rw [htype]; decide)
    refine Agree.refuseIf_bind ?_ fun hform => ?_
    · rw [h.type_eq hi, h.entrySize_eq hi, hsize]
    refine Agree.refuseIf_bind ?_ fun hmeta => ?_
    · rw [h.flags_eq hi, h.address_eq hi, h.alignment_eq hi, h.info_eq hi, h.sectionCount_eq]
    simp only [not_or, not_not, Nat.not_le, GraphLayout.sectionCount] at hform hmeta
    have htarget := hmeta.2.2.2
    rw [h.info_eq hi, GraphLayout.sectionAt_eq htarget, h.sectionAt_eq htarget, ok_bind, ok_bind,
      h.name_eq htarget]
    rcases hname : expectedRelocationName (layout.sec (layout.sec index).info).name
      with _ | expectedName
    · exact Agree.error _
    have hentry : entry * 0x18 + 0x18 ≤ (layout.sec index).size := by omega
    have hw := h.window_entry hi htype hentry
    have hin := h.headers.in_file hi (by rw [htype]; decide)
    have hin' := h.headers'.in_file (h.length_eq ▸ hi) (by rw [h.type_eq hi, htype]; decide)
    refine Agree.refuseIf_bind (by rw [h.name_eq hi]) fun _ => ?_
    refine Agree.bind_eq (hw.sub 0 8 (by omega)).readLE fun targetOffset _ => ?_
    refine Agree.bind_eq (hw.sub 8 8 (by omega)).readLE fun info _ => ?_
    rw [View.readI64, View.readI64, View.readU64, View.readU64, View.readLE_eq (by omega),
      View.readLE_eq (by omega), map_ok, map_ok, ok_bind, ok_bind]
    dsimp only
    rcases relocationWriteSize (info % 2 ^ 32) with _ | writeSize
    · exact Agree.error _
    refine Agree.refuseIf_bind (by rw [h.target_size_eq htarget hname]) fun _ => ?_
    refine Agree.ok ⟨rfl, rfl, hi, rfl, fun hne => ?_⟩
    have hall : SameBytes layout.blob layout'.blob (layout.sec index).offset
        (layout'.sec index).offset (layout.sec index).size := by
      refine h.window hi (by rw [htype]; decide) fun k => ⟨fun heq => ?_, fun heq => absurd heq hne⟩
      rw [heq, ← GraphLayout.ranges, h.carrier.ranges_type] at htype
      exact absurd htype (by decide)
    simp only
    rw [((hall.sub (entry * 0x18) 0x18 hentry).sub 16 8 (by omega)).littleEndian_eq]
  · exact Agree.refuseIf_both (Or.inl htype) (Or.inl (by rwa [h.type_eq hi]))

theorem relocationSymbolTables_recoded (h : Recoded layout layout') {link : ℕ}
    (hi : link < layout.sections.length) :
    Agree (fun r r' => SameBytes layout.blob layout'.blob r.1.offset r'.1.offset r.1.size ∧
        r'.1.size = r.1.size ∧ r.1.size % 0x18 = 0 ∧
        SameBytes layout.blob layout'.blob r.2.offset r'.2.offset r.2.size ∧
        r'.2.size = r.2.size)
      (relocationSymbolTables layout link) (relocationSymbolTables layout' link) := by
  unfold relocationSymbolTables
  rw [GraphLayout.sectionAt_eq hi, h.sectionAt_eq hi, ok_bind, ok_bind]
  by_cases htype : (layout.sec link).type = shtSymtab
  · have hsize := h.size_eq_of_type hi (by rw [htype]; decide)
    have hw := h.window_of_type hi (by rw [htype]; decide) (by rw [htype]; decide)
      (by rw [htype]; decide)
    refine Agree.refuseIf_bind ?_ fun hform => ?_
    · rw [h.name_eq hi, h.type_eq hi, h.flags_eq hi, h.address_eq hi, h.info_eq hi,
        h.alignment_eq hi, h.entrySize_eq hi, hsize, h.link_eq hi, h.sectionCount_eq]
    simp only [not_or, not_not, Nat.not_le, GraphLayout.sectionCount] at hform
    obtain ⟨-, -, -, -, -, -, -, hmod, hstrings⟩ := hform
    rw [h.link_eq hi, GraphLayout.sectionAt_eq hstrings, h.sectionAt_eq hstrings, ok_bind, ok_bind]
    by_cases htype' : (layout.sec (layout.sec link).link).type = shtStrtab
    · have hsize' := h.size_eq_of_type hstrings (by rw [htype']; decide)
      have hw' := h.window_of_type hstrings (by rw [htype']; decide) (by rw [htype']; decide)
        (by rw [htype']; decide)
      refine Agree.refuseIf_bind ?_ fun hform' => ?_
      · rw [h.name_eq hstrings, h.type_eq hstrings, h.flags_eq hstrings, h.address_eq hstrings,
          h.link_eq hstrings, h.info_eq hstrings, h.alignment_eq hstrings,
          h.entrySize_eq hstrings, hsize']
      simp only [not_or, not_not] at hform'
      have hpos := Nat.pos_of_ne_zero hform'.2.2.2.2.2.2.2.2
      refine Agree.bind_eq (hw'.sub 0 1 (by omega)).readLE fun _ _ => ?_
      refine Agree.refuseIf_bind Iff.rfl fun _ => ?_
      exact Agree.ok ⟨hw, hsize, hmod, hw', hsize'⟩
    · exact Agree.refuseIf_both (Or.inr (Or.inl htype'))
        (Or.inr (Or.inl (by rwa [h.type_eq hstrings])))
  · exact Agree.refuseIf_both (Or.inr (Or.inl htype)) (Or.inr (Or.inl (by rwa [h.type_eq hi])))

theorem readSourceSymbol_recoded (h : Recoded layout layout')
    {symbols symbols' strings strings' : GraphSection} {index : ℕ}
    {relocation relocation' : GraphRelocation}
    (hw : SameBytes layout.blob layout'.blob symbols.offset symbols'.offset symbols.size)
    (hsize : symbols'.size = symbols.size)
    (hw' : SameBytes layout.blob layout'.blob strings.offset strings'.offset strings.size)
    (hsize' : strings'.size = strings.size) (hmoved : Moved layout index relocation relocation') :
    Agree (Moved layout index) (readSourceSymbol layout symbols strings relocation)
      (readSourceSymbol layout' symbols' strings' relocation') := by
  obtain ⟨fileOffset, addend, rfl, haddend⟩ := hmoved.exists_eq
  unfold readSourceSymbol
  rw [hsize, hsize']
  refine Agree.refuseIf_bind Iff.rfl fun hsymbol => ?_
  have hle := symbolOffset_le relocation.symbol
  rw [Nat.not_le] at hsymbol
  have hentry := hw.sub (symbolOffset relocation.symbol) 0x18 (by omega)
  refine Agree.bind_eq (hentry.sub 0 4 (by omega)).readLE fun nameOffset _ => ?_
  refine Agree.bind_eq (hentry.sub 4 1 (by omega)).readLE fun info _ => ?_
  refine Agree.bind_eq (hentry.sub 5 1 (by omega)).readLE fun other _ => ?_
  refine Agree.bind_eq (hentry.sub 6 2 (by omega)).readLE fun sourceIndex _ => ?_
  refine Agree.bind_eq (hentry.sub 8 8 (by omega)).readLE fun value _ => ?_
  refine Agree.bind_eq (hentry.sub 16 8 (by omega)).readLE fun size _ => ?_
  refine Agree.refuseIf_bind (by rw [h.sectionCount_eq]) fun hform => ?_
  simp only [not_or, not_not, Nat.not_le, GraphLayout.sectionCount] at hform
  have hsource := hform.2.2.2.2
  rw [GraphLayout.sectionAt_eq hsource, h.sectionAt_eq hsource, ok_bind, ok_bind,
    h.name_eq hsource]
  rcases expectedSymbolName (layout.sec sourceIndex).name with _ | expectedName
  · exact Agree.error _
  refine Agree.refuseIf_bind Iff.rfl fun hname => ?_
  refine Agree.bind_eq (hw'.sub nameOffset (strings.size - nameOffset) (by omega)).readString
    fun name _ => ?_
  rcases name with _ | name
  · exact Agree.error _
  exact Agree.refuseIf_bind Iff.rfl fun _ =>
    Agree.ok ⟨rfl, haddend⟩

theorem resolveRelocation_recoded (h : Recoded layout layout') (index entry : ℕ) :
    Agree (Moved layout index) (resolveRelocation layout index entry)
      (resolveRelocation layout' index entry) := by
  unfold resolveRelocation
  refine (readRelocation_recoded h index entry).bind fun r r' _ _ hr => ?_
  obtain ⟨relocations, relocation⟩ := r
  obtain ⟨relocations', relocation'⟩ := r'
  obtain ⟨rfl, rfl, hi, hmoved⟩ := hr
  dsimp only at hmoved ⊢
  rw [h.link_eq hi, h.sectionCount_eq]
  split_ifs with hlink
  · obtain ⟨fileOffset, addend, rfl, haddend⟩ := hmoved.exists_eq
    exact Agree.refuseIf_bind Iff.rfl fun _ => Agree.ok ⟨rfl, haddend⟩
  · rw [GraphLayout.sectionCount, Nat.not_le] at hlink
    refine (relocationSymbolTables_recoded h hlink).bind fun r r' _ _ hr => ?_
    obtain ⟨hw, hsize, -, hw', hsize'⟩ := hr
    exact readSourceSymbol_recoded h hw hsize hw' hsize' hmoved

/-! ## Looking for relocations -/

/-- The relocations of one entry in the two graphs. -/
structure SameEntry (layout layout' : GraphLayout) (index entry : ℕ)
    (relocation relocation' : GraphRelocation) : Prop where
  left : relocation.ReadFrom layout index entry
  right : relocation'.ReadFrom layout' index entry
  moved : Moved layout index relocation relocation'

theorem resolveRelocation_same (h : Recoded layout layout') (index entry : ℕ) :
    Agree (SameEntry layout layout' index entry) (resolveRelocation layout index entry)
      (resolveRelocation layout' index entry) :=
  ((resolveRelocation_recoded h index entry).meets (resolveRelocation_spec h.headers index entry)
    (resolveRelocation_spec h.headers' index entry)).mono fun _ _ ⟨hl, hr, hm⟩ => ⟨hl, hr, hm⟩

theorem collectEntries_recoded (h : Recoded layout layout') {index : ℕ} (entryCount : ℕ)
    {wanted wanted' : GraphRelocation → Bool} {Q : GraphRelocation → GraphRelocation → Prop}
    {found found' : List GraphRelocation}
    (hsame : ∀ entry r r', SameEntry layout layout' index entry r r' →
      wanted' r' = wanted r ∧ Q r r')
    (hfound : List.Forall₂ Q found found') :
    Agree (List.Forall₂ Q) (collectEntries layout index entryCount wanted found)
      (collectEntries layout' index entryCount wanted' found') := by
  unfold collectEntries
  refine Agree.forRange (fun _ => List.Forall₂ Q) (Nat.zero_le _) hfound
    fun entry found found' _ _ hfound => ?_
  refine (resolveRelocation_same h index entry).bind fun r r' _ _ hr => ?_
  obtain ⟨hwanted, hQ⟩ := hsame entry r r' hr
  rw [hwanted]
  split_ifs
  · exact Agree.ok (List.rel_append hfound (List.Forall₂.cons hQ List.Forall₂.nil))
  · exact Agree.ok hfound

/-- Two relocations that differ in their file offsets only. -/
def SamePointer (relocation relocation' : GraphRelocation) : Prop :=
  ∃ fileOffset, { relocation with fileOffset } = relocation'

/-- The section is not the one whose relocations a patch rewrites. -/
def NotRanges (layout : GraphLayout) (target : ℕ) : Prop :=
  (layout.sec target).name ≠ ascii ".text.ActKernelRanges"

theorem GraphLayout.Located.params_notRanges (h : layout.Located) :
    NotRanges layout layout.paramsIndex := by
  rw [NotRanges, GraphLayout.sec, h.params.name]
  decide

theorem GraphLayout.Located.invocations_notRanges (h : layout.Located) :
    NotRanges layout layout.invocationsIndex := by
  rw [NotRanges, GraphLayout.sec, h.invocations.name]
  decide

theorem SameEntry.samePointer (h : Recoded layout layout') {index entry : ℕ}
    {relocation relocation' : GraphRelocation} (hinfo : NotRanges layout (layout.sec index).info)
    (hsame : SameEntry layout layout' index entry relocation relocation') :
    SamePointer relocation relocation' := by
  obtain ⟨fileOffset, addend, rfl, haddend⟩ := hsame.moved.exists_eq
  refine ⟨fileOffset, ?_⟩
  rw [haddend]
  intro heq
  have hname := hsame.left.name_eq
  have hrelocations : (layout.sec index).name = ascii ".rlt.text.ActKernelRanges" := by
    rw [heq]
    exact h.located.rangeRelocations.name
  rw [hrelocations, expectedRelocationName] at hname
  split_ifs at hname with h1 h2 h3
  · exact absurd hname (by decide)
  · exact absurd hname (by decide)
  · exact hinfo h3

theorem isRelocationSectionOf_recoded (h : Recoded layout layout') {index : ℕ}
    (hi : index < layout.sections.length) (target : ℕ) :
    isRelocationSectionOf (layout'.sec index) target =
      isRelocationSectionOf (layout.sec index) target := by
  by_cases htype : (layout.sec index).type = shtRela
  · rw [isRelocationSectionOf, isRelocationSectionOf, h.type_eq hi, h.info_eq hi,
      h.entrySize_eq hi, h.size_eq_of_type hi (by rw [htype]; decide)]
  · have htype' : (layout'.sec index).type ≠ shtRela := by rwa [h.type_eq hi]
    rw [Bool.eq_iff_iff, isRelocationSectionOf_iff, isRelocationSectionOf_iff]
    simp [htype, htype']

theorem collectRelocations_recoded (h : Recoded layout layout') {target : ℕ}
    (htarget : NotRanges layout target) {wanted : GraphRelocation → Bool}
    (hwanted : ∀ r r', SamePointer r r' → wanted r' = wanted r) :
    Agree (List.Forall₂ SamePointer) (collectRelocations layout target wanted)
      (collectRelocations layout' target wanted) := by
  unfold collectRelocations
  rw [h.sectionCount_eq]
  refine Agree.forRange (fun _ => List.Forall₂ SamePointer) (Nat.zero_le _) List.Forall₂.nil
    fun index found found' _ hi hfound => ?_
  replace hi : index < layout.sections.length := hi
  rw [GraphLayout.sectionAt_eq hi, h.sectionAt_eq hi, ok_bind, ok_bind,
    isRelocationSectionOf_recoded h hi]
  split_ifs with hsection
  · obtain ⟨htype, hinfo, -, -⟩ := isRelocationSectionOf_iff.1 hsection
    rw [h.size_eq_of_type hi (by rw [htype]; decide)]
    refine collectEntries_recoded h _ (fun entry r r' hsame => ?_) hfound
    have hpointer := hsame.samePointer h (by rwa [hinfo])
    exact ⟨hwanted r r' hpointer, hpointer⟩
  · exact Agree.ok hfound

theorem findPointerRelocation_recoded (h : Recoded layout layout') {target : ℕ}
    (htarget : NotRanges layout target) (offset : ℕ) (source : Option ℕ) (special : Bool) :
    Agree SamePointer (findPointerRelocation layout target offset source special)
      (findPointerRelocation layout' target offset source special) := by
  unfold findPointerRelocation
  refine (collectRelocations_recoded h htarget ?_).bind fun found found' _ _ hfound => ?_
  · rintro r r' ⟨fileOffset, rfl⟩
    rfl
  cases hfound with
  | nil => exact Agree.error _
  | cons hpointer hrest =>
    cases hrest with
    | nil => exact Agree.ok hpointer
    | cons => exact Agree.error _

/-! ## Parameter bases -/

theorem parameterBase_recoded (h : Recoded layout layout') (index : ℕ) :
    Agree Eq (parameterBase layout layout.params index)
      (parameterBase layout' layout'.params index) := by
  unfold parameterBase
  rw [h.invocationsIndex_eq, h.paramsIndex_eq, h.params_size_eq]
  refine (findPointerRelocation_recoded h h.located.invocations_notRanges _ _ _).bind
    fun r r' _ _ hpointer => ?_
  obtain ⟨fileOffset, rfl⟩ := hpointer
  exact Agree.refuseIf_bind Iff.rfl fun _ => Agree.ok rfl

theorem invocationParameterBases_recoded (h : Recoded layout layout') :
    Agree Eq (invocationParameterBases layout) (invocationParameterBases layout') := by
  unfold invocationParameterBases
  have hi := h.located.invocations.lt
  have hp := h.located.params.lt
  rw [h.invocationsIndex_eq, h.paramsIndex_eq, GraphLayout.sectionAt_eq hi, h.sectionAt_eq hi,
    GraphLayout.sectionAt_eq hp, h.sectionAt_eq hp, ok_bind, ok_bind, ok_bind, ok_bind,
    ← h.invocations_eq, ← h.params_eq, h.invocations_size_eq]
  exact Agree.mapRange_eq fun index _ => parameterBase_recoded h index

theorem countDataPointerRelocations_recoded (h : Recoded layout layout') (base limit : ℕ) :
    Agree Eq (countDataPointerRelocations layout base limit)
      (countDataPointerRelocations layout' base limit) := by
  unfold countDataPointerRelocations
  rw [h.paramsIndex_eq]
  refine (collectRelocations_recoded h h.located.params_notRanges ?_).bind
    fun found found' _ _ hfound => ?_
  · rintro r r' ⟨fileOffset, rfl⟩
    rfl
  · exact Agree.ok hfound.length_eq

/-! ## Tensor records -/

theorem asUnsupported_recoded {α β : Type} {R : α → β → Prop} {x : Result α} {y : Result β}
    (h : Agree R x y) : Agree R (asUnsupported x) (asUnsupported y) := by
  cases h with
  | ok h => exact Agree.ok h
  | error e => cases e <;> exact Agree.error _

theorem readDimension_recoded {dimensionsAt dimensionsAt' stridesAt stridesAt' index : ℕ}
    (hdimension : SameBytes layout.blob layout'.blob (dimensionsAt + index * 4)
      (dimensionsAt' + index * 4) 4)
    (hstride : SameBytes layout.blob layout'.blob (stridesAt + index * 8)
      (stridesAt' + index * 8) 8) (state : List ℤ × List ℤ × ℕ) :
    Agree Eq (readDimension layout dimensionsAt stridesAt index state)
      (readDimension layout' dimensionsAt' stridesAt' index state) := by
  unfold readDimension
  refine Agree.bind_eq hdimension.readI32 fun dimension _ => ?_
  refine Agree.bind_eq hstride.readI64 fun stride _ => ?_
  exact Agree.refuseIf_bind Iff.rfl fun _ => Agree.ok rfl

theorem validateMemref_recoded (h : Recoded layout layout') (recordOffset : ℕ) :
    Agree Eq (validateMemref layout recordOffset) (validateMemref layout' recordOffset) := by
  have hi := h.located.params.lt
  have hw := h.window_params
  unfold validateMemref
  rw [h.paramsIndex_eq, GraphLayout.sectionAt_eq hi, h.sectionAt_eq hi, ok_bind, ok_bind,
    ← h.params_eq, h.params_size_eq]
  refine Agree.refuseIf_bind Iff.rfl fun hrecord => ?_
  have hrecord := le_of_rangeInBounds (not_not.1 hrecord)
  have hrec := hw.sub recordOffset 0x28 hrecord
  refine Agree.bind_eq (hrec.sub 0x18 4 (by omega)).readLE fun kind _ => ?_
  refine Agree.bind_eq (hrec.sub 8 4 (by omega)).readLE fun isStatic _ => ?_
  refine Agree.bind_eq (hrec.sub 0x24 4 (by omega)).readLE fun location _ => ?_
  refine Agree.refuseIf_bind Iff.rfl fun _ => ?_
  refine Agree.bind_eq (hrec.sub 0x0c 4 (by omega)).readLE fun rank _ => ?_
  refine Agree.refuseIf_bind Iff.rfl fun _ => ?_
  have hpointer := findPointerRelocation_recoded h h.located.params_notRanges
  refine (asUnsupported_recoded (hpointer _ _ _)).bind fun dimensions _ _ _ hdimensions => ?_
  obtain ⟨_, rfl⟩ := hdimensions
  refine (asUnsupported_recoded (hpointer _ _ _)).bind fun strides _ _ _ hstrides => ?_
  obtain ⟨_, rfl⟩ := hstrides
  refine (asUnsupported_recoded (hpointer _ _ _)).bind fun data _ _ _ hdata => ?_
  obtain ⟨_, rfl⟩ := hdata
  refine Agree.refuseIf_bind Iff.rfl fun hpointers => ?_
  simp only [not_or, not_not] at hpointers
  have hdims := hw.sub _ _ (le_of_rangeInBounds hpointers.2.2.1)
  have hstrs := hw.sub _ _ (le_of_rangeInBounds hpointers.2.2.2)
  refine (Agree.forRange (fun _ => Eq) (Nat.zero_le _) rfl fun index s t _ hindex hst => ?_).bind
    fun state _ _ _ hstate => ?_
  · subst hst
    exact readDimension_recoded (hdims.sub (index * 4) 4 (by omega))
      (hstrs.sub (index * 8) 8 (by omega)) s
  · subst hstate
    exact Agree.refl (fun _ => rfl) _

/-! ## Targets -/

/-- Two details that differ in the place and the value of the old extent only. -/
def SameDetail (detail detail' : PatchDetail) : Prop :=
  ∃ extentFileOffset oldExtent, { detail with extentFileOffset, oldExtent } = detail'

theorem Recoded.sectionAt_ranges (h : Recoded layout layout') :
    sectionAt layout'.sections layout'.rangesIndex = .ok layout'.ranges := by
  rw [h.rangesIndex_eq, h.sectionAt_eq h.located.ranges.lt, h.ranges_eq]

theorem Recoded.sectionAt_params (h : Recoded layout layout') :
    sectionAt layout'.sections layout'.paramsIndex = .ok layout'.params := by
  rw [h.paramsIndex_eq, h.sectionAt_eq h.located.params.lt, h.params_eq]

theorem Recoded.sectionAt_invocations (h : Recoded layout layout') :
    sectionAt layout'.sections layout'.invocationsIndex = .ok layout'.invocations := by
  rw [h.invocationsIndex_eq, h.sectionAt_eq h.located.invocations.lt, h.invocations_eq]

/-- The record of a range before its extent. -/
theorem Recoded.window_range (h : Recoded layout layout') {rangeIndex : ℕ}
    (hrange : rangeIndex < layout.ranges.size / 0x18) :
    SameBytes layout.blob layout'.blob (layout.ranges.offset + rangeIndex * 0x18)
      (layout'.ranges.offset + rangeIndex * 0x18) 12 := by
  have hi := h.located.ranges.lt
  have hno : (layout.sec layout.rangesIndex).type ≠ shtNobits := by
    rw [← GraphLayout.ranges, h.carrier.ranges_type]
    decide
  have hin := h.headers.in_file hi hno
  have hin' := h.headers'.in_file (h.length_eq ▸ hi) (by rwa [h.type_eq hi])
  rw [← h.ranges_eq, h.ranges_size_eq] at hin'
  rw [← GraphLayout.ranges] at hin
  refine ⟨by omega, by omega, fun k hk => ?_⟩
  rw [Nat.add_assoc, Nat.add_assoc, h.ranges_eq]
  refine h.bytes _ hi hno _ ?_ ⟨fun _ => Or.inl (by omega), fun heq => ?_⟩
  · rw [← GraphLayout.ranges]
    omega
  · exact absurd heq h.located.ranges_ne_rangeRelocations

theorem Recoded.ranges_in_file' (h : Recoded layout layout') :
    layout'.ranges.offset + layout'.ranges.size ≤ layout'.blob.size := by
  have hi := h.located.ranges.lt
  rw [h.ranges_eq]
  refine h.headers'.in_file (h.length_eq ▸ hi) ?_
  rw [h.type_eq hi, ← GraphLayout.ranges, h.carrier.ranges_type]
  decide

theorem Recoded.ranges_in_file (h : Recoded layout layout') :
    layout.ranges.offset + layout.ranges.size ≤ layout.blob.size := by
  refine h.headers.in_file h.located.ranges.lt ?_
  rw [← GraphLayout.ranges, h.carrier.ranges_type]
  decide

theorem checkRangeForm_recoded (h : Recoded layout layout') {rangeIndex : ℕ}
    (hrange : rangeIndex < layout.ranges.size / 0x18) :
    Agree (fun offset offset' => offset = layout.ranges.offset + rangeIndex * 0x18 ∧
        offset' = layout'.ranges.offset + rangeIndex * 0x18)
      (checkRangeForm layout layout.ranges rangeIndex)
      (checkRangeForm layout' layout'.ranges rangeIndex) := by
  have hw := h.window_range hrange
  unfold checkRangeForm
  refine Agree.bind_eq (hw.sub 4 4 (by omega)).readLE fun address _ => ?_
  refine Agree.bind_eq (hw.sub 8 4 (by omega)).readLE fun pointer _ => ?_
  exact Agree.refuseIf_bind Iff.rfl fun _ => Agree.ok ⟨rfl, rfl⟩

/-- The extent of a range is read in both graphs. -/
theorem readExtent_recoded (h : Recoded layout layout') {rangeIndex : ℕ}
    (hrange : rangeIndex < layout.ranges.size / 0x18) :
    Agree (fun _ _ => True) (layout.blob.readU32 (layout.ranges.offset + rangeIndex * 0x18 + 0x0c))
      (layout'.blob.readU32 (layout'.ranges.offset + rangeIndex * 0x18 + 0x0c)) := by
  have hin := h.ranges_in_file
  have hin' := h.ranges_in_file'
  rw [h.ranges_size_eq] at hin'
  rw [View.readU32, View.readU32, View.readLE_eq (by omega), View.readLE_eq (by omega)]
  exact Agree.ok trivial

theorem validateTarget_recoded (h : Recoded layout layout') {parameterBases : List ℕ}
    (hbases : BasesOf layout parameterBases) (target : PatchblobTarget) :
    Agree SameDetail (validateTarget layout parameterBases target)
      (validateTarget layout' parameterBases target) := by
  have hcount := hbases.length_eq
  have hinvocations := h.window_invocations
  unfold validateTarget
  simp only [h.sectionAt_invocations, h.sectionAt_params, h.sectionAt_ranges,
    h.located.sectionAt_invocations, h.located.sectionAt_params, h.located.sectionAt_ranges,
    ok_bind]
  rw [h.params_size_eq, h.ranges_size_eq, h.paramsIndex_eq]
  refine Agree.refuseIf_bind Iff.rfl fun hguard => ?_
  simp only [not_or, Nat.not_le, Nat.not_lt] at hguard
  refine Agree.bind_eq rfl fun _ _ => ?_
  refine Agree.bind_eq ((hinvocations.sub (target.invocationIndex * 0x40) 0x40 (by omega)).sub 0 4
    (by omega)).readLE fun rangeIndex _ => ?_
  refine Agree.refuseIf_bind Iff.rfl fun _ => ?_
  refine Agree.bind_eq rfl fun base _ => ?_
  refine Agree.bind_eq rfl fun blockSize _ => ?_
  refine Agree.refuseIf_bind Iff.rfl fun _ => ?_
  refine (Agree.checkRange fun index _ _ => ?_).bind fun _ _ _ _ _ => ?_
  · refine Agree.bind_eq rfl fun slot _ => ?_
    exact (asUnsupported_recoded (findPointerRelocation_recoded h h.located.params_notRanges
      _ _ _)).bind fun _ _ _ _ _ => Agree.ok rfl
  refine (countDataPointerRelocations_recoded h _ _).bind fun count _ _ _ heq => ?_
  subst heq
  refine Agree.refuseIf_bind Iff.rfl fun _ => ?_
  refine (Agree.mapRange_eq fun index _ => ?_).bind fun inputs _ _ _ heq => ?_
  · refine Agree.bind_eq rfl fun slot _ => ?_
    refine (validateMemref_recoded h slot).bind fun input _ _ _ heq => ?_
    subst heq
    exact Agree.refl (fun _ => rfl) _
  subst heq
  refine Agree.bind_eq rfl fun slot _ => ?_
  refine (validateMemref_recoded h slot).bind fun output _ _ _ heq => ?_
  subst heq
  refine Agree.refuseIf_bind Iff.rfl fun _ => ?_
  refine Agree.bind_eq rfl fun _ _ => ?_
  refine (checkRangeForm_recoded h hguard.2.1).bind fun _ _ _ _ hoffset => ?_
  obtain ⟨rfl, rfl⟩ := hoffset
  exact (readExtent_recoded h hguard.2.1).bind fun _ _ _ _ _ => Agree.ok ⟨_, _, rfl⟩

theorem matchTensorsV2_recoded (h : Recoded layout layout') (base : ℕ)
    (tensors : List TensorContractV2) :
    Agree Eq (matchTensorsV2 layout base tensors) (matchTensorsV2 layout' base tensors) := by
  unfold matchTensorsV2
  refine Agree.mapRange_eq fun index _ => ?_
  refine Agree.bind_eq rfl fun expected _ => ?_
  refine Agree.bind_eq rfl fun slot _ => ?_
  refine (validateMemref_recoded h slot).bind fun actual _ _ _ heq => ?_
  subst heq
  exact Agree.refl (fun _ => rfl) _

theorem validateTargetV2_recoded (h : Recoded layout layout') {parameterBases : List ℕ}
    (hbases : BasesOf layout parameterBases) (target : PatchblobTargetV2) :
    Agree SameDetail (validateTargetV2 layout parameterBases target)
      (validateTargetV2 layout' parameterBases target) := by
  have hcount := hbases.length_eq
  have hinvocations := h.window_invocations
  unfold validateTargetV2
  simp only [h.sectionAt_invocations, h.sectionAt_params, h.sectionAt_ranges,
    h.located.sectionAt_invocations, h.located.sectionAt_params, h.located.sectionAt_ranges,
    ok_bind]
  rw [h.params_size_eq, h.ranges_size_eq]
  refine Agree.refuseIf_bind Iff.rfl fun hguard => ?_
  simp only [not_or, Nat.not_le, Nat.not_lt] at hguard
  rcases target.tensors.getLast? with _ | output
  · exact Agree.error _
  refine Agree.bind_eq rfl fun _ _ => ?_
  refine Agree.bind_eq ((hinvocations.sub (target.invocationIndex * 0x40) 0x40 (by omega)).sub 0 4
    (by omega)).readLE fun rangeIndex _ => ?_
  refine Agree.refuseIf_bind Iff.rfl fun _ => ?_
  refine Agree.bind_eq rfl fun base _ => ?_
  refine Agree.bind_eq rfl fun blockSize _ => ?_
  refine Agree.refuseIf_bind Iff.rfl fun _ => ?_
  refine (countDataPointerRelocations_recoded h _ _).bind fun count _ _ _ heq => ?_
  subst heq
  refine Agree.refuseIf_bind Iff.rfl fun _ => ?_
  refine (matchTensorsV2_recoded h _ _).bind fun actual _ _ _ heq => ?_
  subst heq
  rcases actual.getLast? with _ | actualOutput
  · exact Agree.error _
  refine Agree.bind_eq rfl fun _ _ => ?_
  refine (checkRangeForm_recoded h hguard.2.2.2.2).bind fun _ _ _ _ hoffset => ?_
  obtain ⟨rfl, rfl⟩ := hoffset
  exact (readExtent_recoded h hguard.2.2.2.2).bind fun _ _ _ _ _ => Agree.ok ⟨_, _, rfl⟩

/-! ## The code pointer of a range -/

/-- The code pointer of a range is the same entry of its section in both graphs. -/
theorem findRangeRelocation_recoded (h : Recoded layout layout') (rangeIndex : ℕ) :
    Agree (fun r r' => ∃ entry,
        SameEntry layout layout' layout.rangeRelocationsIndex entry r r')
      (findRangeRelocation layout rangeIndex) (findRangeRelocation layout' rangeIndex) := by
  have hi := h.located.rangeRelocations.lt
  have htype := h.carrier.rangeRelocations_type
  unfold findRangeRelocation
  rw [h.rangeRelocationsIndex_eq, h.rangesIndex_eq, h.sectionCount_eq, GraphLayout.sectionAt_eq hi,
    h.sectionAt_eq hi, ok_bind, ok_bind]
  refine Agree.refuseIf_bind (by rw [h.info_eq hi, h.link_eq hi]) fun _ => ?_
  rw [h.size_eq_of_type hi (by rw [← GraphLayout.rangeRelocations, htype]; decide)]
  have hwanted : ∀ entry r r', SameEntry layout layout' layout.rangeRelocationsIndex entry r r' →
      isRangeRelocation layout' rangeIndex r' = isRangeRelocation layout rangeIndex r ∧
        ∃ entry, SameEntry layout layout' layout.rangeRelocationsIndex entry r r' := by
    intro entry r r' hsame
    refine ⟨?_, entry, hsame⟩
    obtain ⟨_, _, rfl, -⟩ := hsame.moved.exists_eq
    rw [isRangeRelocation, isRangeRelocation, h.kernelTextIndex_eq]
  refine (collectEntries_recoded h _ hwanted List.Forall₂.nil).bind
    fun found found' _ _ hfound => ?_
  cases hfound with
  | nil => exact Agree.error _
  | cons hentry hrest =>
    cases hrest with
    | nil => exact Agree.ok hentry
    | cons => exact Agree.error _

end Npunlock
