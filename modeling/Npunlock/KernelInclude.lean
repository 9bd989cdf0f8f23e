import Mathlib.Data.List.TakeWhile
import Mathlib.Data.Nat.Digits.Defs
import Npunlock.Common

/-!
# The kernel include

`expand_npu3720_kernel_include` looks for the include of the kernel header at the start of a
source text, after white space and at most one feature line. It replaces the directive, with
its line ending, by the text of the header and a `#line` directive.

The line number counts a line for each LF of the white space and one for the line ending of
the feature line and of the directive, which may be LF, CRLF or CR. So a CR alone in the white
space is the one line ending that is not counted.
-/

namespace Npunlock

/-! ## The scanner -/

def carriageReturn : UInt8 := 0x0d
def lineFeed : UInt8 := 0x0a

def isBlank (byte : UInt8) : Bool :=
  byte == 0x20 || byte == 0x09

def isWhite (byte : UInt8) : Bool :=
  isBlank byte || byte == carriageReturn || byte == lineFeed

/-- The `while` loop over white space, which counts the LFs. -/
def skipSpace : List UInt8 → ℕ → List UInt8 × ℕ
  | [], line => ([], line)
  | byte :: rest, line =>
    if isWhite byte then skipSpace rest (if byte = lineFeed then line + 1 else line)
    else (byte :: rest, line)

/-- The `while` loop over blanks. -/
def skipBlanks (bytes : List UInt8) : List UInt8 :=
  bytes.dropWhile isBlank

/-- What follows a line ending. -/
def endLine : List UInt8 → Option (List UInt8)
  | [] => none
  | byte :: rest =>
    if byte = carriageReturn then
      match rest with
      | [] => some []
      | next :: rest' => if next = lineFeed then some rest' else some rest
    else if byte = lineFeed then some rest
    else none

def feature : List UInt8 := ascii "#define MLIBM_DEFINE_LINK_COMPAT 1"
def directive : List UInt8 := ascii "#include <npunlock/npu3720_kernel.h>"

/-- The white space and the feature line before the directive. Returns the text from the
directive on and the line. -/
def skipFeature (source : List UInt8) : Option (List UInt8 × ℕ) :=
  let (rest, line) := skipSpace source 1
  if feature.isPrefixOf rest then
    (endLine (skipBlanks (rest.drop feature.length))).map fun rest => skipSpace rest (line + 1)
  else some (rest, line)

/-- The directive and its line ending. Returns the text behind it and its line. -/
def skipDirective (rest : List UInt8) (line : ℕ) : Option (List UInt8 × ℕ) :=
  if directive.isPrefixOf rest then
    let rest := skipBlanks (rest.drop directive.length)
    match endLine rest with
    | some rest => some (rest, line + 1)
    | none => if rest = [] then some (rest, line) else none
  else none

/-- `snprintf` of `"\n#line %zu \"entry.c\"\n"`. -/
def lineMarker (line : ℕ) : List UInt8 :=
  ascii ("\n#line " ++ Nat.repr line ++ " \"entry.c\"\n")

/-- The text with the header in place of the directive. -/
def expandAt (header source : List UInt8) (includeStart line : ℕ) (rest : List UInt8) :
    Except Status (List UInt8) := do
  refuseIf (64 ≤ (lineMarker line).length) Status.internalError
  match checkedAddSize includeStart header.length with
  | none => .error .overflow
  | some size =>
    match checkedAddSize size (lineMarker line).length with
    | none => .error .overflow
    | some size =>
      match checkedAddSize size rest.length with
      | none => .error .overflow
      | some _ => .ok (source.take includeStart ++ header ++ lineMarker line ++ rest)

/-- `expand_npu3720_kernel_include`. A source that is left unchanged gives `none`. -/
def expandNpu3720KernelInclude (header source : List UInt8) :
    Except Status (Option (List UInt8)) :=
  match skipFeature source with
  | none => .ok none
  | some (fromInclude, line) =>
    match skipDirective fromInclude line with
    | none => .ok none
    | some (rest, nextLine) =>
      (expandAt header source (source.length - fromInclude.length) nextLine rest).map some

/-! ## Physical lines -/

/-- The line endings of a text : an LF, with or without a CR before it, or a CR alone. -/
def lineEndings : List UInt8 → ℕ
  | [] => 0
  | byte :: rest =>
    (if byte = lineFeed ∨ byte = carriageReturn ∧ rest.head? ≠ some lineFeed then 1 else 0) +
      lineEndings rest

/-- The CRs that no LF follows. -/
def loneReturns : List UInt8 → ℕ
  | [] => 0
  | byte :: rest =>
    (if byte = carriageReturn ∧ rest.head? ≠ some lineFeed then 1 else 0) + loneReturns rest

/-- The line of what follows `before`. -/
def physicalLine (before : List UInt8) : ℕ :=
  1 + lineEndings before

theorem lineEndings_eq (bytes : List UInt8) :
    lineEndings bytes = bytes.count lineFeed + loneReturns bytes := by
  induction bytes with
  | nil => rfl
  | cons byte rest ih =>
    rw [lineEndings, loneReturns, ih, List.count_cons]
    by_cases hfeed : byte = lineFeed
    · have hne : lineFeed ≠ carriageReturn := by decide
      simp [hfeed, hne]
      omega
    · simp [hfeed]
      omega

/-- Line endings add up if none is cut apart. -/
theorem lineEndings_append : ∀ {left right : List UInt8},
    (left.getLast? = some carriageReturn → right.head? ≠ some lineFeed) →
      lineEndings (left ++ right) = lineEndings left + lineEndings right
  | [], right, _ => by simp [lineEndings]
  | [byte], right, h => by
    by_cases hreturn : byte = carriageReturn
    · have hhead := h (by simp [hreturn])
      simp [lineEndings, hhead]
    · simp [lineEndings, hreturn]
  | byte :: next :: rest, right, h => by
    have ih := @lineEndings_append (next :: rest) right (by simpa using h)
    rw [List.cons_append, lineEndings, ih, lineEndings.eq_def (byte :: next :: rest)]
    simp [Nat.add_assoc]

/-- A text without CR and LF is in one line. -/
theorem lineEndings_eq_zero : ∀ {bytes : List UInt8},
    (∀ byte ∈ bytes, byte ≠ carriageReturn ∧ byte ≠ lineFeed) → lineEndings bytes = 0
  | [], _ => rfl
  | byte :: rest, h => by
    obtain ⟨⟨hreturn, hfeed⟩, hrest⟩ := List.forall_mem_cons.1 h
    rw [lineEndings, lineEndings_eq_zero hrest]
    simp [hreturn, hfeed]

/-! ## What the scanner passes over -/

/-- White space up to a byte that is none, with the line the scanner counts. -/
structure IsSpaceUpTo (bytes spaces rest : List UInt8) (line line' : ℕ) : Prop where
  split : bytes = spaces ++ rest
  space : ∀ byte ∈ spaces, isWhite byte = true
  head : ∀ byte, rest.head? = some byte → isWhite byte = false
  line_eq : line' = line + spaces.count lineFeed

theorem skipSpace_spec : ∀ (bytes : List UInt8) (line : ℕ), ∃ spaces,
    IsSpaceUpTo bytes spaces (skipSpace bytes line).1 line (skipSpace bytes line).2
  | [], line => ⟨[], rfl, by simp, by simp [skipSpace], by simp [skipSpace]⟩
  | byte :: rest, line => by
    rw [skipSpace]
    split_ifs with hspace hfeed
    · obtain ⟨spaces, h⟩ := skipSpace_spec rest (line + 1)
      refine ⟨byte :: spaces, by rw [List.cons_append, ← h.split],
        List.forall_mem_cons.2 ⟨hspace, h.space⟩, h.head, ?_⟩
      rw [h.line_eq, hfeed, List.count_cons_self]
      omega
    · obtain ⟨spaces, h⟩ := skipSpace_spec rest line
      refine ⟨byte :: spaces, by rw [List.cons_append, ← h.split],
        List.forall_mem_cons.2 ⟨hspace, h.space⟩, h.head, ?_⟩
      rw [h.line_eq, List.count_cons_of_ne hfeed]
    · refine ⟨[], rfl, by simp, fun byte' hbyte => ?_, by simp⟩
      obtain rfl : byte = byte' := by simpa using hbyte
      simpa using hspace

/-- One line ending, not cut off from an LF behind it. -/
structure IsLineEnding (ending rest : List UInt8) : Prop where
  form : ending = [lineFeed] ∨ ending = [carriageReturn, lineFeed] ∨
    ending = [carriageReturn] ∧ rest.head? ≠ some lineFeed

theorem endLine_spec {bytes rest : List UInt8} (h : endLine bytes = some rest) :
    ∃ ending, bytes = ending ++ rest ∧ IsLineEnding ending rest := by
  cases bytes with
  | nil => cases h
  | cons byte bytes =>
    rw [endLine.eq_def] at h
    dsimp only at h
    split_ifs at h with hreturn hfeed
    · cases bytes with
      | nil =>
        obtain rfl := Option.some.inj h
        exact ⟨[byte], rfl, ⟨.inr (.inr ⟨by rw [hreturn], by simp⟩)⟩⟩
      | cons next rest' =>
        dsimp only at h
        split_ifs at h with hnext
        · obtain rfl := Option.some.inj h
          exact ⟨[byte, next], rfl, ⟨.inr (.inl (by rw [hreturn, hnext]))⟩⟩
        · obtain rfl := Option.some.inj h
          exact ⟨[byte], rfl, ⟨.inr (.inr ⟨by rw [hreturn], by simpa using hnext⟩)⟩⟩
    · obtain rfl := Option.some.inj h
      exact ⟨[byte], rfl, ⟨.inl (by rw [hfeed])⟩⟩

theorem IsLineEnding.lineEndings_eq {ending rest : List UInt8} (h : IsLineEnding ending rest) :
    lineEndings ending = 1 := by
  rcases h.form with rfl | rfl | ⟨rfl, -⟩ <;> decide

theorem IsLineEnding.head_ne {ending rest : List UInt8} (h : IsLineEnding ending rest) :
    ending.getLast? = some carriageReturn → rest.head? ≠ some lineFeed := by
  rcases h.form with rfl | rfl | ⟨rfl, hhead⟩
  · intro hlast
    exact absurd hlast (by decide)
  · intro hlast
    exact absurd hlast (by decide)
  · exact fun _ => hhead

/-- A line of its own : a text, blanks and a line ending. -/
structure IsLineOf (text line rest : List UInt8) : Prop where
  form : ∃ blanks ending, line = text ++ blanks ++ ending ∧ (∀ byte ∈ blanks, isBlank byte = true) ∧
    IsLineEnding ending rest

theorem isLineOf_of_endLine {text bytes rest : List UInt8} (htext : text.isPrefixOf bytes = true)
    (h : endLine (skipBlanks (bytes.drop text.length)) = some rest) :
    ∃ line, bytes = line ++ rest ∧ IsLineOf text line rest := by
  obtain ⟨tail, rfl⟩ := List.isPrefixOf_iff_prefix.1 htext
  rw [List.drop_left, skipBlanks] at h
  obtain ⟨ending, hending, hform⟩ := endLine_spec h
  refine ⟨text ++ tail.takeWhile isBlank ++ ending, ?_,
    ⟨_, ending, rfl, fun byte hbyte => List.mem_takeWhile_imp hbyte, hform⟩⟩
  rw [List.append_assoc, List.append_assoc, ← hending, List.takeWhile_append_dropWhile]

theorem not_newline_of_isBlank {byte : UInt8} (h : isBlank byte = true) :
    byte ≠ carriageReturn ∧ byte ≠ lineFeed := by
  constructor
  · rintro rfl
    exact absurd h (by decide)
  · rintro rfl
    exact absurd h (by decide)

/-- A text without line endings makes one line. -/
theorem IsLineOf.lineEndings_eq {text line rest : List UInt8} (h : IsLineOf text line rest)
    (htext : ∀ byte ∈ text, byte ≠ carriageReturn ∧ byte ≠ lineFeed) : lineEndings line = 1 := by
  obtain ⟨blanks, ending, rfl, hblanks, hending⟩ := h.form
  have hflat : ∀ byte ∈ text ++ blanks, byte ≠ carriageReturn ∧ byte ≠ lineFeed := by
    intro byte hbyte
    rcases List.mem_append.1 hbyte with hbyte | hbyte
    · exact htext byte hbyte
    · exact not_newline_of_isBlank (hblanks byte hbyte)
  rw [lineEndings_append, lineEndings_eq_zero hflat, hending.lineEndings_eq]
  intro hlast
  exact absurd rfl (hflat _ (List.mem_of_getLast? hlast)).1

theorem IsLineOf.head_ne {text line rest : List UInt8} (h : IsLineOf text line rest) :
    line.getLast? = some carriageReturn → rest.head? ≠ some lineFeed := by
  obtain ⟨blanks, ending, rfl, -, hending⟩ := h.form
  intro hlast
  refine hending.head_ne ?_
  rcases List.eq_nil_or_concat ending with rfl | ⟨start, last, rfl⟩
  · exact absurd hending.lineEndings_eq (by decide)
  · simpa [← List.append_assoc] using hlast

/-- No line ends within the bytes. -/
def isFlat (bytes : List UInt8) : Bool :=
  bytes.all fun byte => byte != carriageReturn && byte != lineFeed

theorem isFlat_iff {bytes : List UInt8} :
    isFlat bytes = true ↔ ∀ byte ∈ bytes, byte ≠ carriageReturn ∧ byte ≠ lineFeed := by
  simp [isFlat]

theorem feature_flat : ∀ byte ∈ feature, byte ≠ carriageReturn ∧ byte ≠ lineFeed :=
  isFlat_iff.1 (by decide +kernel)

theorem directive_flat : ∀ byte ∈ directive, byte ≠ carriageReturn ∧ byte ≠ lineFeed :=
  isFlat_iff.1 (by decide +kernel)

/-! ## The replaced directive -/

/-- What stands before the directive : white space, and then maybe a feature line and white space
again. `line` is the line that the scanner counts. -/
structure IsBeforeInclude (before : List UInt8) (lone line : ℕ) : Prop where
  form : ∃ spaces featureLine spaces', before = spaces ++ featureLine ++ spaces' ∧
    (∀ byte ∈ spaces ++ spaces', isWhite byte = true) ∧
      (featureLine = [] ∨ ∃ rest, IsLineOf feature featureLine rest) ∧
        lone = loneReturns spaces + loneReturns spaces'
  line_eq : line + lone = physicalLine before

theorem head_ne_lineFeed {rest : List UInt8}
    (h : ∀ byte, rest.head? = some byte → isWhite byte = false) :
    rest.head? ≠ some lineFeed := fun hhead =>
  absurd (h lineFeed hhead) (by decide)

theorem skipFeature_spec {source rest : List UInt8} {line : ℕ}
    (h : skipFeature source = some (rest, line)) :
    ∃ before lone, source = before ++ rest ∧ IsBeforeInclude before lone line ∧
      rest.head? ≠ some lineFeed := by
  unfold skipFeature at h
  obtain ⟨spaces, hspaces⟩ := skipSpace_spec source 1
  generalize skipSpace source 1 = first at h hspaces
  obtain ⟨middle, line₁⟩ := first
  dsimp only at h hspaces
  have hmiddle := head_ne_lineFeed hspaces.head
  split_ifs at h with hfeature
  · obtain ⟨afterLine, hend, hskip⟩ := Option.map_eq_some_iff.1 h
    obtain ⟨featureLine, hsplit, hline⟩ := isLineOf_of_endLine hfeature hend
    obtain ⟨spaces', hspaces'⟩ := skipSpace_spec afterLine (line₁ + 1)
    rw [hskip] at hspaces'
    refine ⟨spaces ++ featureLine ++ spaces', loneReturns spaces + loneReturns spaces', ?_,
      ⟨⟨spaces, featureLine, spaces', rfl, ?_, .inr ⟨_, hline⟩, rfl⟩, ?_⟩,
      head_ne_lineFeed hspaces'.head⟩
    · rw [hspaces.split, hsplit, hspaces'.split]
      simp
    · intro byte hbyte
      rcases List.mem_append.1 hbyte with hbyte | hbyte
      · exact hspaces.space byte hbyte
      · exact hspaces'.space byte hbyte
    · have hcutFirst : lineEndings (spaces ++ (featureLine ++ spaces')) =
          lineEndings spaces + lineEndings (featureLine ++ spaces') := by
        refine lineEndings_append fun _ hhead => hmiddle ?_
        obtain ⟨_, _, rfl, -⟩ := hline.form
        rw [hsplit, List.append_assoc, List.append_assoc]
        rw [List.append_assoc, List.append_assoc] at hhead
        exact hhead
      have hcutLine : lineEndings (featureLine ++ spaces') =
          lineEndings featureLine + lineEndings spaces' := by
        refine lineEndings_append fun hlast hhead => hline.head_ne hlast ?_
        rw [hspaces'.split, List.head?_append, hhead]
        rfl
      have hfirst := hspaces.line_eq
      have hsecond : line = line₁ + 1 + spaces'.count lineFeed := hspaces'.line_eq
      rw [physicalLine, List.append_assoc, hcutFirst, hcutLine, hline.lineEndings_eq feature_flat,
        lineEndings_eq spaces, lineEndings_eq spaces']
      omega
  · obtain ⟨rfl, rfl⟩ := Prod.mk.inj (Option.some.inj h)
    refine ⟨spaces, loneReturns spaces, hspaces.split,
      ⟨⟨spaces, [], [], by simp, by simpa using hspaces.space, .inl rfl, by simp [loneReturns]⟩,
        ?_⟩, hmiddle⟩
    rw [physicalLine, lineEndings_eq, hspaces.line_eq]
    omega

/-- The directive with what belongs to its line. -/
structure IsDirectiveLine (directiveLine rest : List UInt8) : Prop where
  form : IsLineOf directive directiveLine rest ∨
    rest = [] ∧ ∃ blanks, directiveLine = directive ++ blanks ∧
      ∀ byte ∈ blanks, isBlank byte = true

theorem skipDirective_spec {fromInclude rest : List UInt8} {line nextLine : ℕ}
    (h : skipDirective fromInclude line = some (rest, nextLine)) :
    ∃ directiveLine, fromInclude = directiveLine ++ rest ∧ IsDirectiveLine directiveLine rest ∧
      (rest ≠ [] → nextLine = line + lineEndings directiveLine) ∧ nextLine ≤ line + 1 := by
  unfold skipDirective at h
  split_ifs at h with hdirective
  dsimp only at h
  split at h
  · next tail hend =>
    obtain ⟨rfl, rfl⟩ := Prod.mk.inj (Option.some.inj h)
    obtain ⟨directiveLine, hsplit, hline⟩ := isLineOf_of_endLine hdirective hend
    exact ⟨directiveLine, hsplit, ⟨.inl hline⟩, fun _ => by
      rw [hline.lineEndings_eq directive_flat], le_rfl⟩
  · split_ifs at h with hempty
    obtain ⟨rfl, rfl⟩ := Prod.mk.inj (Option.some.inj h)
    obtain ⟨tail, rfl⟩ := List.isPrefixOf_iff_prefix.1 hdirective
    rw [List.drop_left] at hempty
    refine ⟨directive ++ tail, ?_, ⟨.inr ⟨hempty, tail, rfl, fun byte hbyte => ?_⟩⟩,
      fun hne => absurd hempty hne, Nat.le_succ _⟩
    · rw [List.drop_left, hempty, List.append_nil]
    · have htail := List.takeWhile_append_dropWhile (p := isBlank) (l := tail)
      rw [skipBlanks] at hempty
      rw [hempty, List.append_nil] at htail
      rw [← htail] at hbyte
      exact List.mem_takeWhile_imp hbyte

/-- How a source was expanded to `text`. -/
structure Expansion (header source text : List UInt8) where
  before : List UInt8
  directiveLine : List UInt8
  rest : List UInt8
  lone : ℕ
  lineBefore : ℕ
  line : ℕ
  split : source = before ++ directiveLine ++ rest
  is_before : IsBeforeInclude before lone lineBefore
  is_directive : IsDirectiveLine directiveLine rest
  text_eq : text = before ++ header ++ lineMarker line ++ rest
  line_eq : rest ≠ [] → line + lone = physicalLine (before ++ directiveLine)

theorem lineEndings_le_length : ∀ bytes : List UInt8, lineEndings bytes ≤ bytes.length
  | [] => le_rfl
  | byte :: rest => by
    have ih := lineEndings_le_length rest
    rw [lineEndings, List.length_cons]
    split_ifs <;> omega

theorem IsDirectiveLine.head_ne {directiveLine rest : List UInt8}
    (h : IsDirectiveLine directiveLine rest) :
    ∃ tail, directiveLine = directive ++ tail := by
  rcases h.form with h | ⟨-, blanks, rfl, -⟩
  · obtain ⟨blanks, ending, rfl, -⟩ := h.form
    exact ⟨blanks ++ ending, by rw [List.append_assoc]⟩
  · exact ⟨blanks, rfl⟩

theorem length_lineMarker_lt {line : ℕ} (h : line < 10 ^ 20) : (lineMarker line).length < 64 := by
  have hrepr := Nat.repr_length line 20 (by decide) h
  have hhead : "\n#line ".length = 7 := by decide
  have htail : " \"entry.c\"\n".length = 11 := by decide
  unfold lineMarker ascii
  rw [List.length_map, String.length_toList, String.length_append, String.length_append, hhead,
    htail]
  omega

theorem expandAt_eq_ok {header source rest text : List UInt8} {includeStart line : ℕ}
    (h : expandAt header source includeStart line rest = .ok text) :
    text = source.take includeStart ++ header ++ lineMarker line ++ rest := by
  unfold expandAt at h
  obtain ⟨-, h⟩ := refuseIf_bind_eq_ok_iff.1 h
  split at h
  · cases h
  · split at h
    · cases h
    · split at h
      · cases h
      · exact (Except.ok.inj h).symm

theorem lt_of_checkedAddSize_eq_none {left right : ℕ} (h : checkedAddSize left right = none) :
    sizeMax < left + right := by
  unfold checkedAddSize at h
  split_ifs at h with hlt
  exact hlt

/-- The expansion fails only if its size leaves `size_t`. -/
theorem expandAt_eq_error {header source rest : List UInt8} {includeStart line : ℕ}
    {status : Status} (hline : line < 10 ^ 20)
    (h : expandAt header source includeStart line rest = .error status) :
    status = .overflow ∧ sizeMax < includeStart + header.length + 64 + rest.length := by
  have hmarker := length_lineMarker_lt hline
  unfold expandAt at h
  rw [refuseIf_of_not _ (Nat.not_le.2 hmarker), ok_bind] at h
  split at h
  · next hadd =>
    have := lt_of_checkedAddSize_eq_none hadd
    exact ⟨(Except.error.inj h).symm, by omega⟩
  · next size hadd =>
    obtain ⟨-, rfl⟩ := checkedAddSize_eq_some_iff.1 hadd
    split at h
    · next hadd' =>
      have := lt_of_checkedAddSize_eq_none hadd'
      exact ⟨(Except.error.inj h).symm, by omega⟩
    · next size' hadd' =>
      obtain ⟨-, rfl⟩ := checkedAddSize_eq_some_iff.1 hadd'
      split at h
      · next hadd'' =>
        have := lt_of_checkedAddSize_eq_none hadd''
        exact ⟨(Except.error.inj h).symm, by omega⟩
      · cases h

/-- The two scans find an expansion of the source, if they find one. -/
theorem exists_expansion {header source fromInclude rest : List UInt8} {line nextLine : ℕ}
    (hfeature : skipFeature source = some (fromInclude, line))
    (hdirective : skipDirective fromInclude line = some (rest, nextLine)) :
    ∃ e : Expansion header source (source.take (source.length - fromInclude.length) ++ header ++
      lineMarker nextLine ++ rest), e.line = nextLine ∧ e.rest = rest ∧
        nextLine ≤ source.length + 2 ∧ fromInclude.length + e.before.length = source.length ∧
          rest.length ≤ fromInclude.length := by
  obtain ⟨before, lone, rfl, hbefore, -⟩ := skipFeature_spec hfeature
  obtain ⟨directiveLine, rfl, hline, hnext, hnextLe⟩ := skipDirective_spec hdirective
  have hcut : lineEndings (before ++ directiveLine) =
      lineEndings before + lineEndings directiveLine := by
    refine lineEndings_append fun _ hhead => ?_
    obtain ⟨tail, rfl⟩ := hline.head_ne
    rw [List.head?_append, show directive.head? = some 0x23 by decide] at hhead
    exact absurd hhead (by simp [lineFeed])
  have hlineEq := hbefore.line_eq
  have hle := lineEndings_le_length before
  unfold physicalLine at hlineEq
  refine ⟨{ before, directiveLine, rest, lone, lineBefore := line, line := nextLine,
            split := by simp, is_before := hbefore, is_directive := hline,
            text_eq := by simp, line_eq := fun hne => ?_ }, rfl, rfl, ?_, ?_, ?_⟩
  · have := hnext hne
    unfold physicalLine
    omega
  · rw [List.length_append]
    omega
  · simp only [List.length_append]
    omega
  · simp

/-- For every source, the text is left unchanged, or its directive line is replaced by the header
and a `#line` directive, with all that follows it preserved. The number in the `#line` directive
is the physical line of what follows if and only if nothing follows, or no CR stands alone in the
white space before the directive. The function fails only if the expanded text is too large. -/
theorem kernel_include_line_iff (header : List UInt8) (source : View) :
    (∀ text, expandNpu3720KernelInclude header (slice source.data 0 source.size) =
        .ok (some text) →
      ∃ e : Expansion header (slice source.data 0 source.size) text,
        ((e.rest ≠ [] → e.line = physicalLine (e.before ++ e.directiveLine)) ↔
          e.rest = [] ∨ e.lone = 0)) ∧
      ∀ status, expandNpu3720KernelInclude header (slice source.data 0 source.size) =
          .error status →
        status = .overflow ∧ sizeMax < source.size + header.length + 64 := by
  have hsize := source.size_le
  have hlength : (slice source.data 0 source.size).length = source.size := length_slice _ _ _
  generalize slice source.data 0 source.size = bytes at hlength
  unfold expandNpu3720KernelInclude
  split
  · exact ⟨fun _ h => (by cases h), fun _ h => (by cases h)⟩
  · next fromInclude line hfeature =>
    split
    · exact ⟨fun _ h => (by cases h), fun _ h => (by cases h)⟩
    · next rest nextLine hdirective =>
      obtain ⟨e, -, -, hlineLe, hbefore, hrestLe⟩ : ∃ e : Expansion header bytes _, _ :=
        exists_expansion hfeature hdirective
      constructor
      · intro text h
        obtain ⟨text', hexpand, htext⟩ := map_eq_ok_iff.1 h
        obtain rfl := Option.some.inj htext
        obtain rfl := expandAt_eq_ok hexpand
        refine ⟨e, ?_⟩
        by_cases hempty : e.rest = []
        · simp [hempty]
        · have hlineEq := e.line_eq hempty
          simp only [hempty, ne_eq, not_false_eq_true, true_implies, false_or]
          omega
      · intro status h
        have hline : nextLine < 10 ^ 20 := by
          unfold sizeMax at hsize
          omega
        cases hexpand : expandAt header bytes (bytes.length - fromInclude.length) nextLine rest with
        | ok text =>
          rw [hexpand] at h
          cases h
        | error status' =>
          rw [hexpand] at h
          obtain rfl := Except.error.inj h
          obtain ⟨hstatus, hlarge⟩ := expandAt_eq_error hline hexpand
          exact ⟨hstatus, by omega⟩

/-- A CR, the directive and a declaration, which stands on the third line of the text. -/
def returnedSource : List UInt8 :=
  [carriageReturn] ++ directive ++ [lineFeed] ++ ascii "int x;"

/-- The declaration is said to stand on the second line. -/
theorem returnedSource_marker_wrong :
    expandNpu3720KernelInclude [] returnedSource =
      .ok (some ([carriageReturn] ++ lineMarker 2 ++ ascii "int x;")) ∧
      physicalLine ([carriageReturn] ++ directive ++ [lineFeed]) = 3 := by
  decide +kernel

end Npunlock
