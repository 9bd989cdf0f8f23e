import Npunlock.LayoutSpec
import Npunlock.Relocation

/-!
# What a resolved relocation satisfies

The specifications of the relocation and tensor functions. Each one reads inside the
blob only (`Safe`), with what is known of the value it returns. `ReadFrom` says which
bytes of its section a relocation was read from, `collectEntries_eq_ok_iff` that the
entries collected are the wanted ones of all entries.
-/

namespace Npunlock

open View

variable {layout : GraphLayout}

/-! ## One relocation entry -/

/-- `relocation` is what the bytes of entry `entry` of section `index` say. -/
structure GraphRelocation.ReadFrom (layout : GraphLayout) (index entry : ℕ)
    (relocation : GraphRelocation) : Prop where
  index_lt : index < layout.sections.length
  type_eq : (layout.sec index).type = shtRela
  size_mod : (layout.sec index).size % 0x18 = 0
  entry_lt : entry < (layout.sec index).size / 0x18
  target_lt : (layout.sec index).info < layout.sections.length
  name_eq : expectedRelocationName (layout.sec (layout.sec index).info).name =
    some (layout.sec index).name
  fileOffset_eq : relocation.fileOffset = (layout.sec index).offset + entry * 0x18
  targetOffset_eq : relocation.targetOffset = littleEndian layout.blob.data relocation.fileOffset 8
  relocationType_eq :
    relocation.type = littleEndian layout.blob.data (relocation.fileOffset + 8) 8 % 2 ^ 32
  symbol_eq :
    relocation.symbol = littleEndian layout.blob.data (relocation.fileOffset + 8) 8 / 2 ^ 32
  addend_eq :
    relocation.addend = signed 64 (littleEndian layout.blob.data (relocation.fileOffset + 16) 8)
  write : ∃ writeSize, relocationWriteSize relocation.type = some writeSize ∧
    relocation.targetOffset % writeSize = 0 ∧
    relocation.targetOffset + writeSize ≤ (layout.sec (layout.sec index).info).size

namespace GraphRelocation.ReadFrom

variable {index entry : ℕ} {relocation : GraphRelocation}

theorem end_le (h : ReadFrom layout index entry relocation) :
    relocation.fileOffset + 0x18 ≤ (layout.sec index).offset + (layout.sec index).size := by
  have := h.entry_lt
  have := h.size_mod
  rw [h.fileOffset_eq]
  omega

theorem le_fileOffset (h : ReadFrom layout index entry relocation) :
    (layout.sec index).offset ≤ relocation.fileOffset := by
  rw [h.fileOffset_eq]
  omega

theorem size_ne_zero (h : ReadFrom layout index entry relocation) :
    (layout.sec index).size ≠ 0 := by
  have := h.entry_lt
  omega

end GraphRelocation.ReadFrom

theorem readRelocation_spec (h : layout.HasHeaders) (index entry : ℕ) :
    Safe (readRelocation layout index entry) fun r =>
      r.1 = layout.sec index ∧ r.2.ReadFrom layout index entry ∧ r.2.specialSource = false ∧
        r.2.sourceSectionIndex = none := by
  unfold readRelocation
  refine Meets.refuseIf_bind (by simp) fun hindex => ?_
  rw [GraphLayout.sectionCount, Nat.not_le] at hindex
  rw [GraphLayout.sectionAt_eq hindex, ok_bind]
  refine Meets.refuseIf_bind (by simp) fun hentry => ?_
  refine Meets.refuseIf_bind (by simp) fun hmeta => ?_
  simp only [not_or, not_not, Nat.not_le, GraphLayout.sectionCount] at hentry hmeta
  rw [GraphLayout.sectionAt_eq hmeta.2.2.2, ok_bind]
  have hin := h.in_file hindex (by rw [hentry.1]; decide)
  split
  · exact Meets.error (by simp)
  · next expectedName hname =>
    refine Meets.refuseIf_bind (by simp) fun hname' => ?_
    have hbound : (layout.sec index).offset + entry * 0x18 + 0x18 ≤ layout.blob.size := by
      have := hentry.2.2.1
      have := hentry.2.2.2
      omega
    simp (disch := omega) only [readI64, readU64, readLE_eq, ok_bind, map_ok]
    split
    · exact Meets.error (by simp)
    · next writeSize hwrite =>
      refine Meets.refuseIf_bind (by simp) fun hfield => ?_
      simp only [not_or, not_not] at hname' hfield
      refine Meets.ok ⟨rfl, ⟨hindex, hentry.1, hentry.2.2.1, hentry.2.2.2, hmeta.2.2.2, ?_, rfl,
        rfl, rfl, rfl, rfl, writeSize, hwrite, hfield.1, ?_⟩, rfl, rfl⟩
      · rw [hname, hname']
      · exact le_of_rangeInBounds hfield.2

theorem relocationSymbolTables_spec (h : layout.HasHeaders) {link : ℕ}
    (hlink : link < layout.sections.length) :
    Safe (relocationSymbolTables layout link) fun r =>
      r.1 = layout.sec link ∧ r.1.offset + r.1.size ≤ layout.blob.size ∧ r.1.size % 0x18 = 0 ∧
        r.2.offset + r.2.size ≤ layout.blob.size ∧ r.2.size ≠ 0 ∧
        ∃ index < layout.sections.length, r.2 = layout.sec index ∧ r.2.type = shtStrtab := by
  unfold relocationSymbolTables
  rw [GraphLayout.sectionAt_eq hlink, ok_bind]
  refine Meets.refuseIf_bind (by simp) fun hsymbols => ?_
  simp only [not_or, not_not, Nat.not_le, GraphLayout.sectionCount] at hsymbols
  obtain ⟨-, htype, -, -, -, -, -, hmod, hstrings⟩ := hsymbols
  have hin := h.in_file hlink (by rw [htype]; decide)
  rw [GraphLayout.sectionAt_eq hstrings, ok_bind]
  refine Meets.refuseIf_bind (by simp) fun hform => ?_
  simp only [not_or, not_not] at hform
  obtain ⟨-, htype', -, -, -, -, -, -, hsize⟩ := hform
  have hin' := h.in_file hstrings (by rw [htype']; decide)
  have hpos := Nat.pos_of_ne_zero hsize
  rw [readU8, readLE_eq (by omega), ok_bind]
  refine Meets.refuseIf_bind (by simp) fun _ => ?_
  exact Meets.ok ⟨rfl, hin, hmod, hin', hsize, _, hstrings, rfl, htype'⟩

theorem symbolOffset_le (symbol : ℕ) : symbolOffset symbol ≤ symbol * 0x18 :=
  Nat.mod_le _ _

theorem readSourceSymbol_spec {symbols strings : GraphSection}
    {relocation : GraphRelocation}
    (hsymbols : symbols.offset + symbols.size ≤ layout.blob.size)
    (hstrings : strings.offset + strings.size ≤ layout.blob.size) :
    Safe (readSourceSymbol layout symbols strings relocation) fun r =>
      ∃ index < layout.sections.length,
        r = { relocation with sourceSectionIndex := some index } := by
  unfold readSourceSymbol
  refine Meets.refuseIf_bind (by simp) fun hsymbol => ?_
  have := symbolOffset_le relocation.symbol
  rw [Nat.not_le] at hsymbol
  simp (disch := omega) only [readU8, readU16, readU32, readU64, readLE_eq, ok_bind]
  refine Meets.refuseIf_bind (by simp) fun hform => ?_
  simp only [not_or, not_not, Nat.not_le, GraphLayout.sectionCount] at hform
  rw [GraphLayout.sectionAt_eq hform.2.2.2.2, ok_bind]
  split
  · exact Meets.error (by simp)
  · refine Meets.refuseIf_bind (by simp) fun hname => ?_
    rw [readString_eq (by omega), ok_bind]
    split
    · exact Meets.error (by simp)
    · refine Meets.refuseIf_bind (by simp) fun _ => ?_
      exact Meets.ok ⟨_, hform.2.2.2.2, rfl⟩

theorem resolveRelocation_spec (h : layout.HasHeaders) (index entry : ℕ) :
    Safe (resolveRelocation layout index entry) fun r => r.ReadFrom layout index entry := by
  unfold resolveRelocation
  refine (readRelocation_spec h index entry).bind fun r => ?_
  obtain ⟨relocations, relocation⟩ := r
  rintro ⟨rfl, hread, -, -⟩
  simp only
  have hcopy : ∀ special source, GraphRelocation.ReadFrom layout index entry
      { relocation with specialSource := special, sourceSectionIndex := source } := by
    intro special source
    obtain ⟨h1, h2, h3, h4, h5, h6, h7, h8, h9, h10, h11, h12⟩ := hread
    exact ⟨h1, h2, h3, h4, h5, h6, h7, h8, h9, h10, h11, h12⟩
  split_ifs with hlink
  · exact Meets.refuseIf_bind (by simp) fun _ => Meets.ok (hcopy _ _)
  · rw [GraphLayout.sectionCount, Nat.not_le] at hlink
    refine (relocationSymbolTables_spec h hlink).bind fun r => ?_
    obtain ⟨symbols, strings⟩ := r
    rintro ⟨-, hsymbols, -, hstrings, -⟩
    refine (readSourceSymbol_spec hsymbols hstrings).mono fun r => ?_
    rintro ⟨source, -, rfl⟩
    exact hcopy _ _

/-! ## Looking for relocations -/

/-- `relocation` is an entry of section `index`. -/
def IsEntry (layout : GraphLayout) (index : ℕ) (relocation : GraphRelocation) : Prop :=
  ∃ entry, resolveRelocation layout index entry = .ok relocation ∧
    relocation.ReadFrom layout index entry

theorem collectEntries_spec (h : layout.HasHeaders) {index : ℕ} (entryCount : ℕ)
    {wanted : GraphRelocation → Bool} {found : List GraphRelocation}
    {P : GraphRelocation → Prop} (hfound : ∀ r ∈ found, P r)
    (hP : ∀ r, IsEntry layout index r → wanted r = true → P r) :
    Safe (collectEntries layout index entryCount wanted found) fun found => ∀ r ∈ found, P r := by
  unfold collectEntries
  refine Meets.forRange (fun _ found => ∀ r ∈ found, P r) (Nat.zero_le _) hfound ?_
  intro entry found _ _ hfound
  refine (resolveRelocation_spec h index entry).of_eq.bind fun candidate hcandidate => ?_
  refine Meets.ok fun r hr => ?_
  split_ifs at hr with hwanted
  · rcases List.mem_append.1 hr with hr | hr
    · exact hfound r hr
    · obtain rfl := List.mem_singleton.1 hr
      exact hP r ⟨entry, hcandidate⟩ hwanted
  · exact hfound r hr

theorem isRelocationSectionOf_iff {sec : GraphSection} {target : ℕ} :
    isRelocationSectionOf sec target = true ↔
      sec.type = shtRela ∧ sec.info = target ∧ sec.entrySize = 0x18 ∧ sec.size % 0x18 = 0 := by
  simp [isRelocationSectionOf, and_assoc]

theorem collectRelocations_spec (h : layout.HasHeaders) (target : ℕ)
    (wanted : GraphRelocation → Bool) :
    Safe (collectRelocations layout target wanted) fun found => ∀ r ∈ found,
      wanted r = true ∧ ∃ index, (layout.sec index).info = target ∧ IsEntry layout index r := by
  unfold collectRelocations
  refine Meets.forRange (fun _ found => ∀ r ∈ found, wanted r = true ∧
    ∃ index, (layout.sec index).info = target ∧ IsEntry layout index r) (Nat.zero_le _)
    (by simp) fun index found _ hindex hfound => ?_
  rw [GraphLayout.sectionAt_eq hindex, ok_bind]
  split_ifs with hsection
  · refine collectEntries_spec h _ hfound fun r hr hwanted => ⟨hwanted, index, ?_, hr⟩
    exact (isRelocationSectionOf_iff.1 hsection).2.1
  · exact Meets.ok hfound

theorem findPointerRelocation_spec (h : layout.HasHeaders) (target offset : ℕ)
    (source : Option ℕ) (special : Bool) :
    Safe (findPointerRelocation layout target offset source special) fun r =>
      isPointerRelocation offset source special r = true ∧
        ∃ index, (layout.sec index).info = target ∧ IsEntry layout index r := by
  unfold findPointerRelocation
  refine (collectRelocations_spec h target _).bind fun found hfound => ?_
  split
  · exact Meets.ok (hfound _ (List.mem_singleton_self _))
  · exact Meets.error (by simp)

/-! ## Parameter bases -/

theorem parameterBase_spec (h : layout.HasHeaders) (params : GraphSection) (index : ℕ) :
    Safe (parameterBase layout params index) fun base => base < params.size := by
  unfold parameterBase
  refine (findPointerRelocation_spec h _ _ _ _).bind fun relocation _ => ?_
  refine Meets.refuseIf_bind (by simp) fun hrange => ?_
  refine Meets.ok ?_
  omega

/-- The parameter bases of the invocations of the layout. -/
structure BasesOf (layout : GraphLayout) (parameterBases : List ℕ) : Prop where
  length_eq : parameterBases.length = layout.invocations.size / 0x40
  lt : ∀ base ∈ parameterBases, base < layout.params.size

theorem invocationParameterBases_spec (h : layout.Valid) :
    Safe (invocationParameterBases layout) (BasesOf layout) := by
  unfold invocationParameterBases
  rw [GraphLayout.sectionAt_eq h.located.invocations.lt,
    GraphLayout.sectionAt_eq h.located.params.lt, ok_bind, ok_bind]
  refine (Meets.mapRange fun index _ =>
    parameterBase_spec h.toHasHeaders layout.params index).mono fun bases => ?_
  rintro ⟨hlen, hlt⟩
  refine ⟨hlen, fun base hbase => ?_⟩
  obtain ⟨i, hi, rfl⟩ := List.getElem_of_mem hbase
  exact hlt i hi

theorem invocationParameterLimit_spec (parameterBases : List ℕ) {base size : ℕ}
    (h : base < size) :
    base < invocationParameterLimit parameterBases base size ∧
      invocationParameterLimit parameterBases base size ≤ size := by
  unfold invocationParameterLimit
  induction parameterBases generalizing size with
  | nil => exact ⟨h, le_rfl⟩
  | cons other rest ih =>
    rw [List.foldl_cons]
    split_ifs with hother
    · obtain ⟨h1, h2⟩ := ih hother.1
      exact ⟨h1, by omega⟩
    · exact ih h

theorem countDataPointerRelocations_spec (h : layout.HasHeaders) (base limit : ℕ) :
    Safe (countDataPointerRelocations layout base limit) fun _ => True := by
  unfold countDataPointerRelocations
  exact (collectRelocations_spec h _ _).bind fun _ _ => Meets.ok trivial

/-! ## Tensor records -/

theorem asUnsupported_spec {α : Type} {x : Result α} {P : α → Prop} (h : Safe x P) :
    Safe (asUnsupported x) P := by
  rcases x with e | a
  · rcases e with _ | _ | _
    · exact Meets.error (not_isFault_error _ _)
    · exact h
    · exact h
  · exact h

theorem checkDense_spec (dimensions strides : List ℤ) :
    ∀ (rounds : ℕ) (used : List ℕ) (expectedStride : ℕ),
      Safe (checkDense dimensions strides rounds used expectedStride) fun _ => True
  | 0, _, _ => Meets.ok trivial
  | rounds + 1, used, expectedStride => by
    rw [checkDense]
    split
    · exact Meets.ok trivial
    · exact Meets.refuseIf_bind (by simp) fun _ => checkDense_spec dimensions strides rounds _ _

/-- The product stays in 64 bits if the quotient guard does not fire. -/
theorem mul_le_of_not_div_lt {count factor : ℕ} (hpos : 0 < factor)
    (h : ¬uint64Max / factor < count) : count * factor ≤ uint64Max :=
  (Nat.le_div_iff_mul_le hpos).1 (Nat.le_of_not_lt h)

theorem readDimension_spec {dimensionsAt stridesAt index : ℕ}
    (hdimension : dimensionsAt + index * 4 + 4 ≤ layout.blob.size)
    (hstride : stridesAt + index * 8 + 8 ≤ layout.blob.size)
    {state : List ℤ × List ℤ × ℕ} (hcount : 0 < state.2.2 ∧ state.2.2 ≤ uint64Max) :
    Safe (readDimension layout dimensionsAt stridesAt index state) fun state =>
      0 < state.2.2 ∧ state.2.2 ≤ uint64Max := by
  obtain ⟨dimensions, strides, count⟩ := state
  unfold readDimension
  simp (disch := omega) only [readI32, readI64, readU32, readU64, readLE_eq, ok_bind, map_ok]
  refine Meets.refuseIf_bind (by simp) fun hguard => ?_
  simp only [not_or, Int.not_le] at hguard
  have hpos :
      0 < (signed 32 (littleEndian layout.blob.data (dimensionsAt + index * 4) 4)).toNat := by
    omega
  exact Meets.ok ⟨Nat.mul_pos hcount.1 hpos, mul_le_of_not_div_lt hpos hguard.2.2⟩

/-- What is known of a tensor that `validate_memref` accepts. -/
structure MemrefContract.Accepted (contract : MemrefContract) : Prop where
  dtype : dtypeSizeBytes contract.dtypeKind ≠ 0
  elementCount_pos : 0 < contract.elementCount
  span_eq : contract.spanBytes = contract.elementCount * dtypeSizeBytes contract.dtypeKind
  span_le : contract.spanBytes ≤ uint64Max
  dataSymbol : contract.dataSymbol = vpuNnrdSymNncxmSliceBaseAddr
  dataAddend : 0 ≤ contract.dataAddend

theorem validateMemref_spec (h : layout.Valid) (recordOffset : ℕ) :
    Safe (validateMemref layout recordOffset) MemrefContract.Accepted := by
  have hin := h.in_file h.located.params.lt (by
    rw [← GraphLayout.params, h.carrier.params_type]
    decide)
  unfold validateMemref
  rw [GraphLayout.sectionAt_eq h.located.params.lt, ok_bind]
  refine Meets.refuseIf_bind (by simp) fun hrecord => ?_
  have hrecord := le_of_rangeInBounds (not_not.1 hrecord)
  simp (disch := omega) only [readU32, readLE_eq, ok_bind]
  refine Meets.refuseIf_bind (by simp) fun hform => ?_
  refine Meets.refuseIf_bind (by simp) fun hrank => ?_
  refine (asUnsupported_spec (findPointerRelocation_spec h.toHasHeaders _ _ _ _)).bind
    fun dimensions _ => ?_
  refine (asUnsupported_spec (findPointerRelocation_spec h.toHasHeaders _ _ _ _)).bind
    fun strides _ => ?_
  refine (asUnsupported_spec (findPointerRelocation_spec h.toHasHeaders _ _ _ _)).bind
    fun data hdata => ?_
  refine Meets.refuseIf_bind (by simp) fun hpointers => ?_
  simp only [not_or, not_not] at hform hpointers
  have hdimensions := le_of_rangeInBounds hpointers.2.2.1
  have hstrides := le_of_rangeInBounds hpointers.2.2.2
  refine (Meets.forRange (fun _ (state : List ℤ × List ℤ × ℕ) =>
      0 < state.2.2 ∧ state.2.2 ≤ uint64Max) (Nat.zero_le _) (by decide)
      fun index state _ hindex hstate => ?_).bind fun state hstate => ?_
  · exact readDimension_spec (by omega) (by omega) hstate
  · obtain ⟨dimensionValues, strideValues, count⟩ := state
    refine (checkDense_spec _ _ _ _ _).bind fun _ _ => ?_
    refine Meets.refuseIf_bind (by simp) fun hspan => ?_
    refine Meets.refuseIf_bind (by simp) fun hdataAddend => ?_
    have hdtype : dtypeSizeBytes (littleEndian layout.blob.data
        ((layout.sec layout.paramsIndex).offset + recordOffset + 0x18) 4) ≠ 0 := by
      intro hzero
      exact hform.2.2.1 (by rw [dtypeStrideBits, hzero])
    refine Meets.ok ⟨hdtype, hstate.1, rfl, ?_, ?_, Int.not_lt.1 hdataAddend⟩
    · exact mul_le_of_not_div_lt (Nat.pos_of_ne_zero hdtype) hspan
    · have hspecial : data.specialSource = true ∧
          data.symbol = vpuNnrdSymNncxmSliceBaseAddr := by
        simpa [isPointerRelocation] using (Bool.and_eq_true_iff.1 hdata.1).2
      exact hspecial.2

end Npunlock
