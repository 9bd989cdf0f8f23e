import Npunlock.TextEncoding

/-!
# Escapes of addresses

`encodeURIComponent` and `decodeURIComponent` escape the bytes of a string, and `URLSearchParams`
writes named values as a query and reads them. A query is read without errors : what encodes
nothing becomes U+FFFD. So it gives back the scalar values of what was written.

The results are that the escapes are inverse to each other (`decodeURIComponent_encode`,
`formDecode_formEncode`), that they use none of the characters that separate the parts
(`mem_encodeURIComponent`, `mem_formEncode`), and that a query is read as it was written
(`parseForm_formSerialize`).
-/

namespace Npunlock

/-! ## Escaped bytes -/

/-- The byte of two hexadecimal digits. -/
def hexOctet (high low : ℕ) : Option UInt8 := do
  pure (UInt8.ofNat ((← hexValue high) * 16 + (← hexValue low)))

/-- The escape of a byte. -/
def percentByte (byte : UInt8) : JsString :=
  [0x25, digitUnit 0x41 (byte.toNat / 16), digitUnit 0x41 (byte.toNat % 16)]

def isAlphanumeric (value : ℕ) : Bool :=
  0x30 ≤ value && value ≤ 0x39 || 0x41 ≤ value && value ≤ 0x5a || 0x61 ≤ value && value ≤ 0x7a

theorem isAlphanumeric_digitUnit {ten digit : ℕ} (hten : ten = 0x41 ∨ ten = 0x61)
    (hdigit : digit < 16) : isAlphanumeric (digitUnit ten digit).toNat = true := by
  rw [toNat_digitUnit (by omega) (by omega)]
  simp only [isAlphanumeric, Bool.or_eq_true, Bool.and_eq_true, decide_eq_true_eq]
  split_ifs <;> omega

theorem hexOctet_byte (byte : UInt8) :
    hexOctet (digitUnit 0x41 (byte.toNat / 16)).toNat (digitUnit 0x41 (byte.toNat % 16)).toNat =
      some byte := by
  have hbyte := byte.toNat_lt
  rw [hexOctet, hexValue_digitUnit (Or.inl rfl) (by omega),
    hexValue_digitUnit (Or.inl rfl) (by omega), Option.bind_eq_bind, Option.bind_some,
    Option.bind_some, Nat.div_add_mod']
  exact congrArg some (UInt8.ofNat_toNat)

theorem mem_percentByte {byte : UInt8} {unit : CodeUnit} (h : unit ∈ percentByte byte) :
    unit = 0x25 ∨ isAlphanumeric unit.toNat = true := by
  have hbyte := byte.toNat_lt
  rcases List.mem_cons.1 h with rfl | h
  · exact Or.inl rfl
  · refine Or.inr ?_
    rcases List.mem_cons.1 h with rfl | h
    · exact isAlphanumeric_digitUnit (Or.inl rfl) (by omega)
    · rw [List.mem_singleton.1 h]
      exact isAlphanumeric_digitUnit (Or.inl rfl) (by omega)

/-! ## Components -/

/-- The characters that `encodeURIComponent` keeps : letters, digits and `- _ . ! ~ * ' ( )`. -/
def isUriUnreserved (char : Char) : Bool :=
  isAlphanumeric char.toNat ||
    char.toNat ∈ [0x2d, 0x5f, 0x2e, 0x21, 0x7e, 0x2a, 0x27, 0x28, 0x29]

def uriEncodeChar (char : Char) : JsString :=
  if isUriUnreserved char then utf16Char char
  else (String.utf8EncodeChar char).flatMap percentByte

/-- A string with a lone surrogate is refused. -/
def encodeURIComponent (text : JsString) : Option JsString :=
  if isWellFormed text then some ((scalars text).flatMap uriEncodeChar) else none

/-- Reads the units of a component. The decoder must be between two characters where no escape
stands, and at the end. -/
def uriDecodeFrom : Utf8State → JsString → Option JsString
  | state, [] => if state.needed = 0 then some [] else none
  | state, unit :: rest =>
    if unit = 0x25 then
      match rest with
      | high :: low :: rest' => do
        let byte ← hexOctet high.toNat low.toNat
        let (chars, state) ← utf8Step state byte
        let decoded ← uriDecodeFrom state rest'
        pure (utf16 chars ++ decoded)
      | _ => none
    else if state.needed = 0 then do
      let decoded ← uriDecodeFrom state rest
      pure (unit :: decoded)
    else none

def decodeURIComponent (text : JsString) : Option JsString :=
  uriDecodeFrom .initial text

theorem uriDecodeFrom_percentByte (state : Utf8State) (byte : UInt8) (rest : JsString) :
    uriDecodeFrom state (percentByte byte ++ rest) = (do
      let (chars, state) ← utf8Step state byte
      let decoded ← uriDecodeFrom state rest
      pure (utf16 chars ++ decoded)) := by
  rw [percentByte, List.cons_append, List.cons_append, List.singleton_append,
    uriDecodeFrom.eq_def]
  dsimp only
  rw [if_pos rfl, hexOctet_byte]
  rfl

theorem uriDecodeFrom_bytes {state' : Utf8State} (rest : JsString) :
    ∀ {bytes : List UInt8} {state : Utf8State} {chars : List Char},
      utf8Run state bytes = some (chars, state') →
        uriDecodeFrom state (bytes.flatMap percentByte ++ rest) =
          (uriDecodeFrom state' rest).map (utf16 chars ++ ·)
  | [], state, chars, h => by
    obtain ⟨rfl, rfl⟩ := Prod.mk.inj (Option.some.inj h)
    simp [utf16]
  | byte :: bytes, state, chars, h => by
    obtain ⟨first, mid, others, hstep, hrun, rfl⟩ := utf8Run_cons_eq_some h
    rw [List.flatMap_cons, List.append_assoc, uriDecodeFrom_percentByte, hstep]
    simp only [Option.bind_eq_bind, Option.bind_some, uriDecodeFrom_bytes rest hrun]
    cases uriDecodeFrom state' rest <;> simp [utf16]

theorem isUriUnreserved_bounds {char : Char} (h : isUriUnreserved char = true) :
    0x21 ≤ char.toNat ∧ char.toNat < 0x7f ∧ char.toNat ≠ 0x25 ∧ char.toNat ≠ 0x3a ∧
      char.toNat ≠ 0x3f := by
  unfold isUriUnreserved isAlphanumeric at h
  simp only [Bool.or_eq_true, Bool.and_eq_true, decide_eq_true_eq] at h
  rcases h with h | h
  · omega
  · simp only [List.mem_cons, List.not_mem_nil, or_false] at h
    omega

theorem utf16Char_unreserved {char : Char} (h : isUriUnreserved char = true) :
    utf16Char char = [UInt16.ofNat char.toNat] ∧
      (UInt16.ofNat char.toNat).toNat = char.toNat := by
  have hbounds := isUriUnreserved_bounds h
  refine ⟨by rw [utf16Char, if_pos (by omega)], ?_⟩
  rw [UInt16.toNat_ofNat']
  omega

theorem uriDecodeFrom_uriEncodeChar (char : Char) (rest : JsString) :
    uriDecodeFrom .initial (uriEncodeChar char ++ rest) =
      (uriDecodeFrom .initial rest).map (utf16Char char ++ ·) := by
  unfold uriEncodeChar
  split_ifs with hkept
  · have hbounds := isUriUnreserved_bounds hkept
    obtain ⟨hunits, hvalue⟩ := utf16Char_unreserved hkept
    have hne : UInt16.ofNat char.toNat ≠ 0x25 := fun heq => by
      rw [heq] at hvalue
      exact hbounds.2.2.1 hvalue.symm
    rw [hunits, List.singleton_append, uriDecodeFrom.eq_def]
    dsimp only
    rw [if_neg hne, if_pos (by rfl)]
    cases uriDecodeFrom .initial rest <;> rfl
  · rw [uriDecodeFrom_bytes rest (utf8Run_encodeChar char)]
    simp [utf16]

theorem uriDecodeFrom_flatMap : ∀ chars : List Char,
    uriDecodeFrom .initial (chars.flatMap uriEncodeChar) = some (utf16 chars)
  | [] => rfl
  | char :: chars => by
    rw [List.flatMap_cons, uriDecodeFrom_uriEncodeChar, uriDecodeFrom_flatMap chars]
    simp [utf16]

/-- What is encoded is decoded again. -/
theorem decodeURIComponent_encode {text encoded : JsString}
    (h : encodeURIComponent text = some encoded) : decodeURIComponent encoded = some text := by
  unfold encodeURIComponent at h
  split_ifs at h with hwellFormed
  obtain rfl := Option.some.inj h
  rw [decodeURIComponent, uriDecodeFrom_flatMap, utf16_scalars hwellFormed]

/-- An encoded component consists of printable characters other than a colon and a question
mark. -/
theorem mem_encodeURIComponent {text encoded : JsString}
    (h : encodeURIComponent text = some encoded) {unit : CodeUnit} (hmem : unit ∈ encoded) :
    0x21 ≤ unit.toNat ∧ unit.toNat < 0x7f ∧ unit.toNat ≠ 0x3a ∧ unit.toNat ≠ 0x3f := by
  unfold encodeURIComponent at h
  split_ifs at h
  obtain rfl := Option.some.inj h
  obtain ⟨char, -, hunit⟩ := List.mem_flatMap.1 hmem
  unfold uriEncodeChar at hunit
  split_ifs at hunit with hkept
  · obtain ⟨hunits, hvalue⟩ := utf16Char_unreserved hkept
    have hbounds := isUriUnreserved_bounds hkept
    rw [hunits] at hunit
    rw [List.mem_singleton.1 hunit, hvalue]
    omega
  · obtain ⟨byte, -, hunit⟩ := List.mem_flatMap.1 hunit
    rcases mem_percentByte hunit with rfl | halpha
    · decide
    · simp only [isAlphanumeric, Bool.or_eq_true, Bool.and_eq_true, decide_eq_true_eq] at halpha
      omega

theorem encodeURIComponent_ne_nil {text encoded : JsString}
    (h : encodeURIComponent text = some encoded) (hne : text ≠ []) : encoded ≠ [] := by
  rintro rfl
  have hdecoded := decodeURIComponent_encode h
  exact hne (Option.some.inj hdecoded).symm

/-! ## Queries -/

/-- The bytes that a query keeps : letters, digits and `* - . _`. -/
def isFormUnreserved (byte : UInt8) : Bool :=
  isAlphanumeric byte.toNat || byte.toNat ∈ [0x2a, 0x2d, 0x2e, 0x5f]

/-- A byte of a name or a value. A space becomes a plus sign. -/
def formEncodeByte (byte : UInt8) : JsString :=
  if byte = 0x20 then [0x2b]
  else if isFormUnreserved byte then [UInt16.ofNat byte.toNat]
  else percentByte byte

def formEncode (chars : List Char) : JsString :=
  (utf8 chars).flatMap formEncodeByte

/-- The names and values of a query, in order. -/
abbrev URLSearchParams := List (List Char × List Char)

namespace URLSearchParams

/-- The first value of the name is overwritten and the others removed, or the name is added. -/
def set (params : URLSearchParams) (name value : List Char) : URLSearchParams :=
  match params.dropWhile fun param => param.1 ≠ name with
  | [] => params ++ [(name, value)]
  | _ :: after =>
    params.takeWhile (fun param => param.1 ≠ name) ++
      (name, value) :: after.filter fun param => param.1 ≠ name

def get (params : URLSearchParams) (name : List Char) : Option (List Char) :=
  (params.find? fun param => param.1 = name).map Prod.snd

def getAll (params : URLSearchParams) (name : List Char) : List (List Char) :=
  (params.filter fun param => param.1 = name).map Prod.snd

/-- `toString`. -/
def format (params : URLSearchParams) : JsString :=
  [0x26].intercalate (params.map fun param =>
    formEncode param.1 ++ 0x3d :: formEncode param.2)

end URLSearchParams

/-- The bytes of a text with its escapes replaced. Where no two digits follow, a percent sign
stands for itself. -/
def percentDecode : List UInt8 → List UInt8
  | [] => []
  | byte :: rest =>
    if byte = 0x25 then
      match rest with
      | high :: low :: rest' =>
        match hexOctet high.toNat low.toNat with
        | some escaped => escaped :: percentDecode rest'
        | none => byte :: percentDecode (high :: low :: rest')
      | rest => byte :: percentDecode rest
    else byte :: percentDecode rest

def plusToSpace (byte : UInt8) : UInt8 :=
  if byte = 0x2b then 0x20 else byte

def formDecode (bytes : List UInt8) : List Char :=
  utf8Decode .initial (percentDecode (bytes.map plusToSpace))

/-- A part of a query, cut at the first equality sign. -/
def parsePart (part : List UInt8) : List Char × List Char :=
  (formDecode (part.takeWhile fun byte => byte ≠ 0x3d),
    formDecode ((part.dropWhile fun byte => byte ≠ 0x3d).drop 1))

def parseForm (bytes : List UInt8) : URLSearchParams :=
  ((bytes.splitOn 0x26).filter fun part => part ≠ []).map parsePart

/-- `new URLSearchParams(text)`. A question mark at the start is left out. -/
def URLSearchParams.parse (text : JsString) : URLSearchParams :=
  parseForm (utf8 (scalars (if text.head? = some 0x3f then text.drop 1 else text)))

/-- The bytes of an ASCII text. -/
def asciiBytes (text : JsString) : List UInt8 :=
  text.map fun unit => UInt8.ofNat unit.toNat

theorem utf8_scalars_of_ascii : ∀ {text : JsString}, (∀ unit ∈ text, unit.toNat < 0x80) →
    utf8 (scalars text) = asciiBytes text
  | [], _ => rfl
  | unit :: rest, h => by
    obtain ⟨hunit, hrest⟩ := List.forall_mem_cons.1 h
    have hvalue : (Char.ofNat unit.toNat).toNat = unit.toNat := toNat_charOfNat (by omega)
    have hbyte : String.utf8EncodeChar (Char.ofNat unit.toNat) = [UInt8.ofNat unit.toNat] := by
      have hval : (Char.ofNat unit.toNat).val.toNat = unit.toNat := hvalue
      unfold String.utf8EncodeChar
      rw [hval]
      dsimp only
      rw [if_pos (by omega)]
    rw [scalars.eq_def]
    dsimp only
    rw [if_neg (by simp [isHighSurrogate]; omega), if_neg (by simp [isLowSurrogate]; omega), utf8,
      List.flatMap_cons, hbyte]
    exact congrArg _ (utf8_scalars_of_ascii hrest)

theorem mem_formEncode {chars : List Char} {unit : CodeUnit} (h : unit ∈ formEncode chars) :
    0x21 ≤ unit.toNat ∧ unit.toNat < 0x7f ∧ unit.toNat ≠ 0x26 ∧ unit.toNat ≠ 0x3d ∧
      unit.toNat ≠ 0x3f := by
  obtain ⟨byte, -, hunit⟩ := List.mem_flatMap.1 h
  unfold formEncodeByte at hunit
  split_ifs at hunit with hspace hkept
  · rw [List.mem_singleton.1 hunit]
    decide
  · have hvalue : (UInt16.ofNat byte.toNat).toNat = byte.toNat := by
      have := byte.toNat_lt
      rw [UInt16.toNat_ofNat']
      omega
    rw [List.mem_singleton.1 hunit, hvalue]
    simp only [isFormUnreserved, isAlphanumeric, Bool.or_eq_true, Bool.and_eq_true,
      decide_eq_true_eq, List.mem_cons, List.not_mem_nil, or_false] at hkept
    omega
  · rcases mem_percentByte hunit with rfl | halpha
    · decide
    · simp only [isAlphanumeric, Bool.or_eq_true, Bool.and_eq_true, decide_eq_true_eq] at halpha
      omega

theorem percentDecode_cons {byte : UInt8} (h : byte ≠ 0x25) (rest : List UInt8) :
    percentDecode (byte :: rest) = byte :: percentDecode rest := by
  rw [percentDecode.eq_def]
  dsimp only
  rw [if_neg h]

theorem percentDecode_percentByte (byte : UInt8) (rest : List UInt8) :
    percentDecode ((asciiBytes (percentByte byte)).map plusToSpace ++ rest) =
      byte :: percentDecode rest := by
  have hbyte := byte.toNat_lt
  have hplain {digit : ℕ} (hdigit : digit < 16) :
      plusToSpace (UInt8.ofNat (digitUnit 0x41 digit).toNat) =
        UInt8.ofNat (digitUnit 0x41 digit).toNat ∧
      (UInt8.ofNat (digitUnit 0x41 digit).toNat).toNat = (digitUnit 0x41 digit).toNat := by
    have hunit : (digitUnit 0x41 digit).toNat = _ :=
      toNat_digitUnit (by omega) (show digit < 36 by omega)
    have hvalue : (UInt8.ofNat (digitUnit 0x41 digit).toNat).toNat =
        (digitUnit 0x41 digit).toNat := by
      rw [UInt8.toNat_ofNat', hunit]
      split_ifs <;> omega
    refine ⟨if_neg fun heq => ?_, hvalue⟩
    rw [heq, hunit] at hvalue
    have hplus : (0x2b : UInt8).toNat = 0x2b := rfl
    rw [hplus] at hvalue
    split_ifs at hvalue <;> omega
  obtain ⟨hhigh, hhighValue⟩ := hplain (show byte.toNat / 16 < 16 by omega)
  obtain ⟨hlow, hlowValue⟩ := hplain (show byte.toNat % 16 < 16 by omega)
  have hbytes : (asciiBytes (percentByte byte)).map plusToSpace = [0x25,
      UInt8.ofNat (digitUnit 0x41 (byte.toNat / 16)).toNat,
      UInt8.ofNat (digitUnit 0x41 (byte.toNat % 16)).toNat] := by
    simp only [asciiBytes, percentByte, List.map_cons, List.map_nil, hhigh, hlow]
    rfl
  rw [hbytes, List.cons_append, List.cons_append, List.singleton_append, percentDecode.eq_def]
  dsimp only
  rw [if_pos rfl, hhighValue, hlowValue, hexOctet_byte]

theorem percentDecode_formEncodeByte (byte : UInt8) (rest : List UInt8) :
    percentDecode ((asciiBytes (formEncodeByte byte)).map plusToSpace ++ rest) =
      byte :: percentDecode rest := by
  unfold formEncodeByte
  split_ifs with hspace hkept
  · subst hspace
    exact percentDecode_cons (by decide) rest
  · have hvalue : UInt8.ofNat (UInt16.ofNat byte.toNat).toNat = byte := by
      have := byte.toNat_lt
      rw [← UInt8.toNat_inj, UInt8.toNat_ofNat', UInt16.toNat_ofNat']
      omega
    simp only [isFormUnreserved, isAlphanumeric, Bool.or_eq_true, Bool.and_eq_true,
      decide_eq_true_eq, List.mem_cons, List.not_mem_nil, or_false] at hkept
    have hplus : plusToSpace byte = byte := if_neg fun heq => by
      rw [heq] at hkept
      revert hkept
      decide
    simp only [asciiBytes, List.map_cons, List.map_nil, hvalue, hplus, List.singleton_append]
    refine percentDecode_cons (fun heq => ?_) rest
    rw [heq] at hkept
    revert hkept
    decide
  · exact percentDecode_percentByte byte rest

theorem percentDecode_formEncode (chars : List Char) :
    percentDecode ((asciiBytes (formEncode chars)).map plusToSpace) = utf8 chars := by
  unfold formEncode
  induction utf8 chars with
  | nil => rfl
  | cons byte bytes ih =>
    rw [List.flatMap_cons, asciiBytes, List.map_append, List.map_append]
    exact (percentDecode_formEncodeByte byte _).trans (congrArg _ ih)

/-- A component of a query is read as it was written. -/
theorem formDecode_formEncode (chars : List Char) :
    formDecode (asciiBytes (formEncode chars)) = chars := by
  rw [formDecode, percentDecode_formEncode, utf8Decode_utf8]

namespace URLSearchParams

/-- A name with its value. -/
def formatParam (param : List Char × List Char) : JsString :=
  formEncode param.1 ++ 0x3d :: formEncode param.2

theorem mem_intercalate {α : Type*} {separator entry : α} : ∀ {parts : List (List α)},
    entry ∈ [separator].intercalate parts → entry = separator ∨ ∃ part ∈ parts, entry ∈ part
  | [], h => by simp at h
  | [part], h => Or.inr ⟨part, List.mem_singleton_self part, by simpa using h⟩
  | part :: next :: parts, h => by
    rw [List.intercalate_cons_cons, List.mem_append, List.mem_append] at h
    rcases h with (h | h) | h
    · exact Or.inr ⟨part, List.mem_cons_self, h⟩
    · exact Or.inl (List.mem_singleton.1 h)
    · rcases mem_intercalate h with h | ⟨other, hother, h⟩
      · exact Or.inl h
      · exact Or.inr ⟨other, List.mem_cons_of_mem _ hother, h⟩

theorem asciiBytes_intercalate : ∀ parts : List JsString,
    asciiBytes ([0x26].intercalate parts) = [0x26].intercalate (parts.map asciiBytes)
  | [] => rfl
  | [part] => by simp
  | part :: next :: parts => by
    have ih := asciiBytes_intercalate (next :: parts)
    rw [List.intercalate_cons_cons, List.map_cons, List.map_cons, List.intercalate_cons_cons,
      ← List.map_cons, ← ih]
    simp [asciiBytes]

/-- A query consists of printable characters other than a question mark. -/
theorem mem_format {params : URLSearchParams} {unit : CodeUnit} (h : unit ∈ params.format) :
    0x21 ≤ unit.toNat ∧ unit.toNat < 0x7f ∧ unit.toNat ≠ 0x3f := by
  rcases mem_intercalate h with rfl | ⟨part, hpart, hunit⟩
  · decide
  · obtain ⟨param, -, rfl⟩ := List.mem_map.1 hpart
    rcases List.mem_append.1 hunit with hunit | hunit
    · have := mem_formEncode hunit
      omega
    · rcases List.mem_cons.1 hunit with rfl | hunit
      · decide
      · have := mem_formEncode hunit
        omega

theorem not_mem_asciiBytes {text : JsString} {byte : UInt8} (hascii : byte.toNat < 0x80)
    (h : ∀ unit ∈ text, unit.toNat < 0x80 ∧ unit.toNat ≠ byte.toNat) : byte ∉ asciiBytes text := by
  intro hmem
  obtain ⟨unit, hunit, rfl⟩ := List.mem_map.1 hmem
  obtain ⟨hlt, hne⟩ := h unit hunit
  rw [UInt8.toNat_ofNat'] at hne
  omega

theorem parsePart_formatParam (param : List Char × List Char) :
    parsePart (asciiBytes (formatParam param)) = param := by
  have hname : ∀ byte ∈ asciiBytes (formEncode param.1), decide (byte ≠ 0x3d) = true := by
    intro byte hbyte
    refine decide_eq_true fun heq => ?_
    subst heq
    refine not_mem_asciiBytes (by decide) (fun unit hunit => ?_) hbyte
    have := mem_formEncode hunit
    exact ⟨by omega, this.2.2.2.1⟩
  have hpart : asciiBytes (formatParam param) =
      asciiBytes (formEncode param.1) ++ 0x3d :: asciiBytes (formEncode param.2) := by
    simp [asciiBytes, formatParam]
  rw [parsePart, hpart, List.takeWhile_append_of_pos hname, List.dropWhile_append_of_pos hname]
  simp [formDecode_formEncode]

/-- A query is read as it was written. -/
theorem parse_format (params : URLSearchParams) : parse params.format = params := by
  have hmem : ∀ unit ∈ params.format, unit.toNat < 0x80 ∧ unit ≠ 0x3f := by
    intro unit hunit
    have hbounds := mem_format hunit
    exact ⟨by omega, fun heq => hbounds.2.2 (by rw [heq]; rfl)⟩
  have hhead : params.format.head? ≠ some 0x3f := fun hhead =>
    (hmem _ (List.mem_of_head? hhead)).2 rfl
  rw [parse, if_neg hhead, utf8_scalars_of_ascii fun unit hunit => (hmem unit hunit).1]
  cases params with
  | nil => rfl
  | cons param params =>
    have hparts : ∀ part ∈ ((param :: params).map formatParam).map asciiBytes,
        (0x26 : UInt8) ∉ part := by
      intro part hpart
      obtain ⟨text, htext, rfl⟩ := List.mem_map.1 hpart
      obtain ⟨other, -, rfl⟩ := List.mem_map.1 htext
      refine not_mem_asciiBytes (by decide) fun unit hunit => ?_
      rcases List.mem_append.1 hunit with hunit | hunit
      · have := mem_formEncode hunit
        exact ⟨by omega, this.2.2.1⟩
      · rcases List.mem_cons.1 hunit with rfl | hunit
        · decide
        · have := mem_formEncode hunit
          exact ⟨by omega, this.2.2.1⟩
    have hformat : URLSearchParams.format (param :: params) =
        [0x26].intercalate ((param :: params).map formatParam) := rfl
    rw [parseForm, hformat, asciiBytes_intercalate, List.splitOn_intercalate _ hparts (by simp),
      List.filter_eq_self.2 ?_, List.map_map, List.map_map]
    · exact (List.map_congr_left fun other _ => parsePart_formatParam other).trans
        (List.map_id _)
    · intro part hpart
      obtain ⟨text, htext, rfl⟩ := List.mem_map.1 hpart
      obtain ⟨other, -, rfl⟩ := List.mem_map.1 htext
      simp [asciiBytes, formatParam]

end URLSearchParams

end Npunlock
