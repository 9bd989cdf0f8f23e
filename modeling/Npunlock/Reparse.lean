import Npunlock.PatchedLayout

/-!
# The output is parsed again

`parseGraph_patched` : if the gap fits, the parser accepts the output and returns
`patchedLayout`. The stages of the parser are taken one by one from the run on the input
(`ParseRun`) to a run on the output.
-/

namespace Npunlock

open View PatchPlan

variable {layout : GraphLayout} {plan : PatchPlan} {image : View}
  {imageAlignment tailPadding : ℕ} {details : List PatchDetail}

/-! ## What a run of the parser has established -/

namespace ParseRun

variable {blob : View}

theorem headers_read (run : ParseRun blob layout) :
    run.headers.length = run.count ∧ HeadersRead blob run.headers :=
  (readHeaders_spec ((readHeader_spec blob).value _ run.header_eq).2.2.2.2).value _ run.headers_eq

theorem count_bounds (run : ParseRun blob layout) :
    0 < run.count ∧ run.nameIndex < run.count :=
  ⟨((readHeader_spec blob).value _ run.header_eq).2.1,
    ((readHeader_spec blob).value _ run.header_eq).2.2.1⟩

theorem nameTable (run : ParseRun blob layout) :
    run.nameIndex = 1 ∧ run.strings.IsNameTable ∧
      secOf run.headers run.nameIndex = run.strings := by
  obtain ⟨hlen, hread⟩ := run.headers_read
  have hlt : run.nameIndex < run.headers.length := by
    rw [hlen]
    exact run.count_bounds.2
  exact (readNameTable_spec hlt (hread.fits _ hlt)).value _ run.strings_eq

theorem named (run : ParseRun blob layout) : Named run.headers run.sections run.found := by
  obtain ⟨hlen, hread⟩ := run.headers_read
  obtain ⟨-, htable, hstrings⟩ := run.nameTable
  have hlt : run.nameIndex < run.headers.length := by
    rw [hlen]
    exact run.count_bounds.2
  have hfits := hread.fits _ hlt
  rw [hstrings] at hfits
  exact (nameSections_spec hread (htable.in_file hfits)).value _ run.sections_eq

theorem located_spec (run : ParseRun blob layout) :
    run.located.blob = blob ∧ run.located.sections = run.sections ∧
      run.located.sectionTableOffset = 64 ∧ run.located.sectionNameIndex = run.nameIndex ∧
      run.located.Located := by
  have hnamed := run.named
  have hlt : run.nameIndex < run.sections.length := by
    rw [hnamed.length_eq, run.headers_read.1]
    exact run.count_bounds.2
  exact (requireSections_spec hlt hnamed.found_in).value _ run.located_eq

/-- The layout is the one located, with its tile count. -/
theorem eq_layout (run : ParseRun blob layout) :
    run.located = { layout with tileCount := run.located.tileCount } := by
  have hrecords := run.records_eq
  simp only [checkRecords, bind_eq_ok_iff, Except.ok.injEq] at hrecords
  obtain ⟨tileCount, -, -, -, -, -, -, -, -, -, heq⟩ := hrecords
  have hfields : ∀ layout : GraphLayout, { run.located with tileCount } = layout →
      run.located = { layout with tileCount := run.located.tileCount } := by
    rintro _ rfl
    rfl
  exact hfields layout heq

theorem layout_sections (run : ParseRun blob layout) : layout.sections = run.sections := by
  have hsections := run.located_spec.2.1
  rw [run.eq_layout] at hsections
  exact hsections

theorem layout_blob (run : ParseRun blob layout) : layout.blob = blob := by
  have hblob := run.located_spec.1
  rw [run.eq_layout] at hblob
  exact hblob

theorem length_headers (run : ParseRun blob layout) :
    run.headers.length = layout.sections.length := by
  rw [run.layout_sections, run.named.length_eq]

/-- The headers the parser has read are the sections without their names. -/
theorem secOf_headers (run : ParseRun blob layout) (h : layout.Valid) {i : ℕ}
    (hi : i < layout.sections.length) :
    secOf run.headers i = { layout.sec i with name := [] } := by
  have hlen : i < run.headers.length := by rwa [run.length_headers]
  rw [run.headers_read.2.eq_headerAt i hlen, ← run.layout_blob]
  exact (h.eq_headerAt i hi).symm

end ParseRun

/-! ## The headers of the output -/

section Output

variable (h : layout.Valid) (hplan : plan.Of layout image imageAlignment tailPadding)
  (hplaced : ∀ detail ∈ details, detail.Placed layout)

include h hplan hplaced in
/-- Before the end of the section table, bytes outside the written header fields stay. -/
theorem patchedData_table (hfixed : plan.TableFixed layout) {p : ℕ}
    (hp : p < 64 + layout.sections.length * 64)
    (hfield : ∀ k < layout.sections.length, ¬HeaderField layout.kernelTextIndex 64 k p) :
    patchedData layout plan image details p = layout.blob.data p := by
  have hshift := hfixed.shift_eq hp
  have htable := h.table_le
  have hdata : ¬Written layout details p → patchedData layout plan image details _ = _ :=
    patchedData_shift h hplan hfixed (by omega)
  rw [hshift] at hdata
  refine hdata ?_
  rintro (⟨k, hk, hin⟩ | ⟨detail, hdetail, hin⟩)
  · exact hfield k hk hin
  · have hd := hplaced detail hdetail
    have := hd.ranges_behind
    have := hd.relocations_behind
    have := hd.extent_eq
    have := (hd.addend_le h).1
    omega

include h hplan hplaced in
theorem readHeader_patched (hfixed : plan.TableFixed layout) {r : ℕ × ℕ}
    (hr : readHeader layout.blob = .ok r) :
    readHeader (patchedView layout plan image details) = .ok r := by
  refine readHeader_congr (fun i hi => ?_) ?_ hr
  · refine patchedData_table h hplan hplaced hfixed (by omega) fun k hk => ?_
    unfold HeaderField
    omega
  · change layout.blob.size ≤ plan.outputSize
    rw [hplan.outputSize_eq]
    omega

include h hplan hplaced in
/-- The name fields of the headers stay. -/
theorem headerName_patched (hfixed : plan.TableFixed layout) {i : ℕ}
    (hi : i < layout.sections.length) :
    littleEndian (patchedData layout plan image details) (64 + i * 64) 4 =
      littleEndian layout.blob.data (64 + i * 64) 4 := by
  refine littleEndian_congr fun k hk => ?_
  refine patchedData_table h hplan hplaced hfixed (by omega) fun j hj => ?_
  unfold HeaderField
  omega

include h hplan in
/-- `KernelText` does not run into another section of the output. -/
theorem text_disjoint_patched (hfits : layout.Fits plan.insertedSize) {j : ℕ}
    (hj : j < layout.sections.length) (hne : j ≠ layout.kernelTextIndex)
    (hfile : (layout.sec j).FileBacked)
    (hfile' : (plan.moveSection layout.kernelTextIndex layout.kernelTextIndex
      layout.text).FileBacked) :
    (plan.moveSection layout.kernelTextIndex layout.kernelTextIndex layout.text).Disjoint
      (plan.moveSection layout.kernelTextIndex j (layout.sec j)) := by
  have hfixed := hfits.tableFixed hplan
  have hinsertion := hplan.insertion_eq
  have hin := h.in_file hj hfile.1
  have hapart := hplan.apart j hj hne hfile
  have hnewJ := newOffset_eq_shift hplan hfixed
    (show (layout.sec j).offset ≤ layout.blob.size by omega)
  have hnewText := newOffset_text h hplan hfixed
  have hsize := hfile'.2
  rw [moveSection_text_size, hplan.newTextSize_eq] at hsize
  unfold GraphSection.Disjoint
  rw [moveSection_text_size, hplan.newTextSize_eq]
  simp only [moveSection, if_neg hne]
  rw [hnewText, hnewJ]
  split_ifs with hzero
  · have hgap := (hfits.resolve_left (by omega)).emptyText hzero
    have hbehind := hgap.apart j hj hne hfile
    unfold shift
    split_ifs <;> omega
  · have htype : (layout.sec layout.kernelTextIndex).FileBacked := by
      refine ⟨?_, hzero⟩
      rw [← GraphLayout.text, h.carrier.text_type]
      decide
    have hdisjoint := h.disjoint h.located.text.lt hj hne.symm htype hfile
    rw [GraphSection.Disjoint, ← GraphLayout.text] at hdisjoint
    unfold shift
    split_ifs <;> omega

include h hplan in
theorem placed_patched (hfits : layout.Fits plan.insertedSize) :
    Placed (plan.moveSections layout.kernelTextIndex layout.sections) := by
  have hfixed := hfits.tableFixed hplan
  have hinsertion := hplan.insertion_eq
  -- every section but `KernelText` keeps its size
  have hold : ∀ i, i ≠ layout.kernelTextIndex →
      (plan.moveSection layout.kernelTextIndex i (layout.sec i)).FileBacked →
        (layout.sec i).FileBacked := by
    intro i hne hfile
    unfold GraphSection.FileBacked moveSection at hfile
    rwa [if_neg hne] at hfile
  refine ⟨fun i _ hi hfile => ?_, fun i j _ hij hj hfile hfile' => ?_⟩
  · rw [length_moveSections] at hi ⊢
    rw [secOf_moveSections _ _ hi] at hfile ⊢
    change (plan.moveSection layout.kernelTextIndex i (layout.sec i)).FileBacked at hfile
    change plan.newOffset (layout.sec i) + _ ≤ _ ∨ _ ≤ plan.newOffset (layout.sec i)
    by_cases htext : i = layout.kernelTextIndex
    · subst htext
      rw [moveSection_text_size, hplan.newTextSize_eq, ← GraphLayout.text,
        newOffset_text h hplan hfixed]
      by_cases hzero : layout.text.size = 0
      · have hsize := hfile.2
        rw [moveSection_text_size, hplan.newTextSize_eq] at hsize
        have hbehind := hfixed.resolve_left (by omega)
        have := plan.le_shift layout.text.offset
        rw [if_pos hzero]
        omega
      · have htype : (layout.sec layout.kernelTextIndex).FileBacked := by
          refine ⟨?_, hzero⟩
          rw [← GraphLayout.text, h.carrier.text_type]
          decide
        have hbefore := h.before_or_behind h.located.text.lt htype
        rw [← GraphLayout.text] at hbefore
        rw [if_neg hzero]
        rcases hfits with hgap | hgap
        · omega
        · have := hgap.behind
          omega
    · have hfile := hold i htext hfile
      have hin := h.in_file hi hfile.1
      rw [newOffset_eq_shift hplan hfixed (by omega)]
      simp only [moveSection, if_neg htext]
      change plan.shift _ + (layout.sec i).size ≤ 64 ∨ _
      rcases h.before_or_behind hi hfile with hbefore | hbehind
      · rw [hfixed.shift_eq (by omega)]
        exact Or.inl hbefore
      · have := plan.le_shift (layout.sec i).offset
        exact Or.inr (by omega)
  · rw [length_moveSections] at hj
    have hi : i < layout.sections.length := by omega
    rw [secOf_moveSections _ _ hi] at hfile ⊢
    rw [secOf_moveSections _ _ hj] at hfile' ⊢
    by_cases htext : i = layout.kernelTextIndex
    · subst htext
      have hne : j ≠ layout.kernelTextIndex := by omega
      exact text_disjoint_patched h hplan hfits hj hne (hold j hne hfile') hfile
    by_cases htext' : j = layout.kernelTextIndex
    · subst htext'
      exact (text_disjoint_patched h hplan hfits hi htext (hold i htext hfile) hfile').symm
    have hfile := hold i htext hfile
    have hfile' := hold j htext' hfile'
    have hin := h.in_file hi hfile.1
    have hin' := h.in_file hj hfile'.1
    have hdisjoint := h.disjoint hi hj (by omega) hfile hfile'
    change plan.newOffset (layout.sec i) + _ ≤ plan.newOffset (layout.sec j) ∨
      plan.newOffset (layout.sec j) + _ ≤ plan.newOffset (layout.sec i)
    rw [newOffset_eq_shift hplan hfixed (by omega), newOffset_eq_shift hplan hfixed (by omega)]
    simp only [moveSection, if_neg htext, if_neg htext']
    exact hdisjoint.imp plan.shift_add_le_shift plan.shift_add_le_shift

/-! ## The stages of the parser -/

section Stages

variable (hfits : layout.Fits plan.insertedSize) (run : ParseRun layout.blob layout)

include h hplan hplaced hfits in
theorem readHeaders_patched :
    mapRange run.count (readSectionHeader (patchedView layout plan image details)) =
      .ok (plan.moveSections layout.kernelTextIndex run.headers) := by
  have hfixed := hfits.tableFixed hplan
  have htable := h.table_le
  have hlen := run.length_headers
  have hsize : layout.blob.size ≤ (patchedView layout plan image details).size := by
    change layout.blob.size ≤ plan.outputSize
    rw [hplan.outputSize_eq]
    omega
  refine mapRange_eq_ok_iff.2 ⟨?_, fun j hj => ?_⟩
  · rw [length_moveSections, run.headers_read.1]
  · rw [length_moveSections] at hj
    have hj' : j < layout.sections.length := by omega
    have hget : (plan.moveSections layout.kernelTextIndex run.headers).get
        ⟨j, by rwa [length_moveSections]⟩ =
        plan.moveSection layout.kernelTextIndex j (secOf run.headers j) := by
      rw [← secOf_moveSections _ _ hj]
      simp [secOf, hj]
    rw [List.get_eq_getElem] at hget
    have hheader := headerAt_patched h hplan hplaced hfixed hj'
    rw [← h.eq_headerAt j hj'] at hheader
    refine (readSectionHeader_eq_ok_iff (by omega)).2 ⟨?_, ?_⟩
    · rw [hheader]
      obtain ⟨h1, h2, h3⟩ := fits_patched h hplan hfits hj'
      exact ⟨h1, h2, h3⟩
    · rw [hget, hheader, run.secOf_headers h hj']

include h hplan hplaced hfits in
/-- The headers of the output, read as such. -/
theorem headersRead_patched :
    HeadersRead (patchedView layout plan image details)
      (plan.moveSections layout.kernelTextIndex run.headers) := by
  have hread := readHeader_patched h hplan hplaced (hfits.tableFixed hplan) run.header_eq
  exact ((readHeaders_spec ((readHeader_spec _).value _ hread).2.2.2.2).value _
    (readHeaders_patched h hplan hplaced hfits run)).2

include h in
/-- The null section is not `KernelText`. -/
theorem text_ne_zero : layout.kernelTextIndex ≠ 0 := by
  intro heq
  have htext := h.carrier.text_type
  rw [GraphLayout.text, heq, h.null.type] at htext
  exact absurd htext (by decide)

include h hplan hplaced hfits in
theorem checkNullSection_patched :
    checkNullSection (patchedView layout plan image details)
      (plan.moveSections layout.kernelTextIndex run.headers) = .ok () := by
  have hfixed := hfits.tableFixed hplan
  have hlen := run.length_headers
  have hpos := h.count_pos
  have htable := (headersRead_patched h hplan hplaced hfits run).table_le
  have hheader : (secOf run.headers 0).headerOffset = 64 := by
    rw [run.secOf_headers h hpos]
    have := congrArg GraphSection.headerOffset (h.eq_headerAt 0 hpos)
    exact this
  have hmove : secOf (plan.moveSections layout.kernelTextIndex run.headers) 0 =
      plan.moveSection layout.kernelTextIndex 0 (secOf run.headers 0) :=
    secOf_moveSections _ _ (by omega)
  rw [length_moveSections] at htable
  have hold := (checkNullSection_eq_ok_iff (by omega)
    (show _ ≤ layout.blob.size by rw [hheader]; have := h.table_le; omega)).1 run.null_eq
  refine (checkNullSection_eq_ok_iff (by rw [length_moveSections]; omega) ?_).2 ⟨?_, ?_⟩
  · rw [hmove]
    change (secOf run.headers 0).headerOffset + 4 ≤ _
    omega
  · rw [hmove]
    change littleEndian (patchedData layout plan image details) (secOf run.headers 0).headerOffset 4
      = 0
    have hname := headerName_patched h hplan hplaced hfixed hpos
    rw [Nat.zero_mul, Nat.add_zero] at hname
    rw [hheader, hname, ← hheader]
    exact hold.1
  · rw [hmove]
    obtain ⟨h1, h2, h3, h4, h5, h6, h7, h8, h9⟩ := hold.2
    refine ⟨h1, h2, h3, ?_, ?_, h6, h7, h8, h9⟩
    · change plan.newOffset (secOf run.headers 0) = 0
      rw [PatchPlan.newOffset, if_neg (by simp [h4]), h4]
    · exact (if_neg (text_ne_zero h).symm).trans h5

include h hplan hplaced hfits in
theorem checkPlacement_patched :
    checkPlacement (plan.moveSections layout.kernelTextIndex run.headers) = .ok () := by
  refine (checkPlacement_eq_ok_iff (headersRead_patched h hplan hplaced hfits run)).2 ?_
  refine (placed_patched h hplan hfits).renamed ⟨?_, fun i hi => ⟨[], ?_⟩⟩
  · rw [length_moveSections, length_moveSections, run.length_headers]
  · rw [length_moveSections] at hi
    rw [secOf_moveSections _ _ hi,
      secOf_moveSections _ _ (by rwa [run.length_headers] : i < run.headers.length),
      run.secOf_headers h hi]
    rfl

include h in
/-- The name table is section 1, and is not `KernelText`. -/
theorem strings_eq_sec : run.nameIndex = 1 ∧ run.strings = { layout.sec 1 with name := [] } ∧
    layout.kernelTextIndex ≠ 1 := by
  obtain ⟨hindex, htable, hstrings⟩ := run.nameTable
  refine ⟨hindex, ?_, fun heq => ?_⟩
  · rw [← hstrings, hindex]
    exact run.secOf_headers h h.nameIndex_lt
  · have htext := h.carrier.text_type
    rw [GraphLayout.text, heq, h.nameTable.type] at htext
    exact absurd htext (by decide)

include h hplan hplaced hfits in
/-- The name table is moved as a whole. -/
theorem window_strings :
    SameBytes layout.blob (patchedView layout plan image details) run.strings.offset
      (plan.newOffset run.strings) run.strings.size := by
  have htype := h.nameTable.type
  have hw := (recoded_patched h hplan hplaced hfits).window_of_type h.nameIndex_lt
    (by rw [htype]; decide) (by rw [htype]; decide) (by rw [htype]; decide)
  rw [patchedLayout_sec h.nameIndex_lt] at hw
  rw [(strings_eq_sec h run).2.1]
  exact hw

include h hplan hplaced hfits in
theorem readNameTable_patched :
    readNameTable (patchedView layout plan image details)
      (plan.moveSections layout.kernelTextIndex run.headers) run.nameIndex =
        .ok (plan.moveSection layout.kernelTextIndex 1 run.strings) := by
  obtain ⟨hindex, hstrings, hne⟩ := strings_eq_sec h run
  have hread := headersRead_patched h hplan hplaced hfits run
  have hlen : 1 < run.headers.length := by
    rw [run.length_headers]
    exact h.nameIndex_lt
  have hlen' : 1 < (plan.moveSections layout.kernelTextIndex run.headers).length := by
    rwa [length_moveSections]
  have hold := (readNameTable_eq_ok_iff hlen (run.headers_read.2.fits 1 hlen)).1
    (hindex ▸ run.strings_eq)
  obtain ⟨-, htable, hfirst, hsec⟩ := hold
  have hmove : secOf (plan.moveSections layout.kernelTextIndex run.headers) 1 =
      plan.moveSection layout.kernelTextIndex 1 run.strings := by
    rw [secOf_moveSections _ _ hlen, hsec]
  rw [hindex]
  refine (readNameTable_eq_ok_iff hlen' (hread.fits 1 hlen')).2 ⟨rfl, ?_, ?_, hmove⟩
  · rw [hmove]
    rw [hsec] at htable
    obtain ⟨h1, h2, h3, h4, h5, h6, h7, h8⟩ := htable
    exact ⟨h1, h2, h3, h4, h5, h6, h7, by rwa [moveSection, if_neg hne.symm]⟩
  · rw [hmove, ← hfirst, hsec]
    rw [hsec] at htable
    exact ((window_strings h hplan hplaced hfits run).sub 0 1
      (by have := htable.size; omega)).littleEndian_eq

include h hplan hplaced hfits in
theorem readName_patched {i : ℕ} (hi : i < layout.sections.length) :
    readName (patchedView layout plan image details)
        (plan.moveSection layout.kernelTextIndex 1 run.strings) (64 + i * 64) =
      readName layout.blob run.strings (64 + i * 64) := by
  have hfixed := hfits.tableFixed hplan
  have hw := window_strings h hplan hplaced hfits run
  have htable := h.table_le
  have hsize : (plan.moveSection layout.kernelTextIndex 1 run.strings).size = run.strings.size :=
    if_neg (strings_eq_sec h run).2.2.symm
  have hheader : SameBytes layout.blob (patchedView layout plan image details) (64 + i * 64)
      (64 + i * 64) 4 := by
    refine ⟨by omega, ?_, fun k hk => ?_⟩
    · change _ ≤ plan.outputSize
      rw [hplan.outputSize_eq]
      omega
    · refine patchedData_table h hplan hplaced hfixed (by omega) fun j hj => ?_
      unfold HeaderField
      omega
  refine (Agree.eq ?_).symm
  unfold readName
  rw [hsize]
  refine Agree.bind_eq hheader.readLE fun nameOffset _ => ?_
  refine Agree.refuseIf_bind Iff.rfl fun hlt => ?_
  exact Agree.bind_eq (hw.sub nameOffset (run.strings.size - nameOffset) (by omega)).readString
    fun name _ => Agree.refl (fun _ => rfl) _

include h hplan hplaced hfits in
theorem nameSections_patched :
    nameSections (patchedView layout plan image details)
        (plan.moveSection layout.kernelTextIndex 1 run.strings)
        (plan.moveSections layout.kernelTextIndex run.headers) =
      .ok (plan.moveSections layout.kernelTextIndex run.sections, run.found) := by
  have hagree : Agree (fun (s t : List GraphSection × RequiredSections) =>
      s.1.length = run.headers.length ∧ t = (plan.moveSections layout.kernelTextIndex s.1, s.2))
      (nameSections layout.blob run.strings run.headers)
      (nameSections (patchedView layout plan image details)
        (plan.moveSection layout.kernelTextIndex 1 run.strings)
        (plan.moveSections layout.kernelTextIndex run.headers)) := by
    unfold nameSections
    rw [length_moveSections]
    refine Agree.forRange (fun i (s t : List GraphSection × RequiredSections) =>
      s.1.length = i ∧ t = (plan.moveSections layout.kernelTextIndex s.1, s.2)) (Nat.zero_le _)
      ⟨rfl, rfl⟩ ?_
    rintro i ⟨named, found⟩ _ - hi ⟨rfl, rfl⟩
    replace hi : named.length < run.headers.length := hi
    have hi' : named.length < layout.sections.length := by rwa [← run.length_headers]
    rw [Npunlock.sectionAt_eq hi, Npunlock.sectionAt_eq (by rwa [length_moveSections]), ok_bind,
      ok_bind, secOf_moveSections _ _ hi]
    have hheader : (secOf run.headers named.length).headerOffset = 64 + named.length * 64 := by
      rw [run.secOf_headers h hi']
      exact congrArg GraphSection.headerOffset (h.eq_headerAt _ hi')
    have hname := readName_patched h hplan hplaced hfits run hi'
    rw [← hheader] at hname
    refine Agree.bind_eq hname fun name _ => ?_
    refine Agree.bind_eq rfl fun found _ => Agree.ok ⟨by simp, ?_⟩
    rw [moveSections, moveSections, List.mapIdx_concat]
    rfl
  obtain ⟨t, ht, -, rfl⟩ := hagree.exists_ok run.sections_eq
  exact ht

theorem requireSections_congr {blob blob' : View} {index : ℕ}
    {sections sections' : List GraphSection} {found : RequiredSections} {located : GraphLayout}
    (hlen : sections'.length = sections.length)
    (hname : (secOf sections' index).name = (secOf sections index).name)
    (hlocated : requireSections blob index sections found = .ok located) :
    requireSections blob' index sections' found =
      .ok { located with blob := blob', sections := sections' } := by
  unfold requireSections at hlocated ⊢
  obtain ⟨strings, hstrings, hlocated⟩ := bind_eq_ok_iff.1 hlocated
  obtain ⟨hlt, rfl⟩ := sectionAt_eq_ok_iff.1 hstrings
  rw [Npunlock.sectionAt_eq (by omega), ok_bind, hname]
  rw [refuseIf_bind_eq_ok_iff] at hlocated ⊢
  refine ⟨hlocated.1, ?_⟩
  replace hlocated := hlocated.2
  split at hlocated
  · split at hlocated
    · cases hlocated
    · cases hlocated
    · cases hlocated
    · cases hlocated
    · cases hlocated
      rfl
  · cases hlocated

/-- The layout of the output before its records are read. -/
theorem located_patched {located : GraphLayout}
    (heq : located = { layout with tileCount := located.tileCount }) :
    { located with
      blob := patchedView layout plan image details
      sections := plan.moveSections layout.kernelTextIndex layout.sections } =
    { patchedLayout layout plan image details with tileCount := located.tileCount } := by
  rw [heq]
  rfl

include h hplan hplaced hfits in
/-- The parser accepts the output. -/
theorem parseGraph_patched (hparse : parseGraph layout.blob = .ok layout) :
    parseGraph (patchedView layout plan image details) =
      .ok (patchedLayout layout plan image details) := by
  obtain ⟨run⟩ := parseGraph_eq_ok_iff.1 hparse
  have hrecoded := (recoded_patched h hplan hplaced hfits).withTileCount run.located.tileCount
  rw [← run.eq_layout] at hrecoded
  have hindex := (strings_eq_sec h run).1
  have hlt : run.nameIndex < run.sections.length := by
    rw [hindex, ← run.layout_sections]
    exact h.nameIndex_lt
  have hrequire : requireSections (patchedView layout plan image details) run.nameIndex
      (plan.moveSections layout.kernelTextIndex run.sections) _ = _ :=
    requireSections_congr (plan.length_moveSections _ _)
      (by rw [secOf_moveSections _ _ hlt]; rfl) run.located_eq
  rw [← run.layout_sections, located_patched run.eq_layout] at hrequire
  obtain ⟨checked, hchecked, tileCount, hold, rfl⟩ :=
    (checkRecords_recoded hrecoded).exists_ok run.records_eq
  refine parseGraph_eq_ok_iff.2 ⟨{
    count := run.count
    nameIndex := run.nameIndex
    headers := plan.moveSections layout.kernelTextIndex run.headers
    strings := plan.moveSection layout.kernelTextIndex 1 run.strings
    sections := plan.moveSections layout.kernelTextIndex layout.sections
    found := run.found
    located := { patchedLayout layout plan image details with tileCount := run.located.tileCount }
    header_eq := readHeader_patched h hplan hplaced (hfits.tableFixed hplan) run.header_eq
    headers_eq := readHeaders_patched h hplan hplaced hfits run
    null_eq := checkNullSection_patched h hplan hplaced hfits run
    placement_eq := checkPlacement_patched h hplan hplaced hfits run
    strings_eq := readNameTable_patched h hplan hplaced hfits run
    sections_eq := by
      rw [run.layout_sections]
      exact nameSections_patched h hplan hplaced hfits run
    located_eq := hrequire
    carrier_eq := (checkCarrier_eq_ok_iff hrecoded.located').2 hrecoded.carrier'
    records_eq := ?_ }⟩
  rw [hchecked]
  have htile : tileCount = layout.tileCount := by
    rw [hold]
  rw [htile]
  rfl

end Stages

end Output

end Npunlock
