import Mathlib.Data.List.Basic
import Npunlock.IoSymbols
import Npunlock.TextEncoding

/-!
# UTF-8 names

`graphSymbolNameIsUtf8` walks over the bytes of a name and bounds the second byte of each
multi-byte form. What it accepts is the image of the UTF-8 encoder on sequences of scalar
values other than zero : each of the four forms is the encoding of one scalar value
(`exists_encode_of_isUtf8`), and the encoding of a scalar value has one of the four forms
(`isUtf8_encode`).
-/

namespace Npunlock

/-! ## UTF-8 -/

section Utf8

variable {a b c d : UInt8} {rest : List UInt8}

theorem isUtf8_one (h : a.toNat < 0x80) : graphSymbolNameIsUtf8 (a :: rest) = true ↔
    a.toNat ≠ 0 ∧ graphSymbolNameIsUtf8 rest = true := by
  rw [graphSymbolNameIsUtf8.eq_def]
  simp only [UInt8.lt_iff_toNat_lt, UInt8.reduceToNat]
  rw [if_pos h]
  simp [← UInt8.toNat_inj]

theorem isUtf8_two (h : 0xc2 ≤ a.toNat) (h' : a.toNat ≤ 0xdf) :
    graphSymbolNameIsUtf8 (a :: b :: rest) = true ↔
      (0x80 ≤ b.toNat ∧ b.toNat ≤ 0xbf) ∧ graphSymbolNameIsUtf8 rest = true := by
  rw [graphSymbolNameIsUtf8.eq_def]
  simp only [UInt8.lt_iff_toNat_lt, UInt8.le_iff_toNat_le]
  rw [if_neg (show ¬a.toNat < UInt8.toNat 0x80 by simp; omega), if_pos ⟨h, h'⟩]
  simp

theorem isUtf8_three (h : 0xe0 ≤ a.toNat) (h' : a.toNat ≤ 0xef) :
    graphSymbolNameIsUtf8 (a :: b :: c :: rest) = true ↔
      (0x80 ≤ b.toNat ∧ b.toNat ≤ 0xbf ∧ 0x80 ≤ c.toNat ∧ c.toNat ≤ 0xbf ∧
        (a.toNat = 0xe0 → 0xa0 ≤ b.toNat) ∧ (a.toNat = 0xed → b.toNat ≤ 0x9f)) ∧
          graphSymbolNameIsUtf8 rest = true := by
  rw [graphSymbolNameIsUtf8.eq_def]
  simp only [UInt8.lt_iff_toNat_lt, UInt8.le_iff_toNat_le, ← UInt8.toNat_inj]
  rw [if_neg (show ¬a.toNat < UInt8.toNat 0x80 by simp; omega),
    if_neg (show ¬(UInt8.toNat 0xc2 ≤ a.toNat ∧ a.toNat ≤ UInt8.toNat 0xdf) by simp; omega),
    if_pos ⟨h, h'⟩]
  by_cases hlow : a.toNat = 0xe0 <;> by_cases hhigh : a.toNat = 0xed <;> simp [hlow, hhigh] <;>
    omega

theorem isUtf8_four (h : 0xf0 ≤ a.toNat) (h' : a.toNat ≤ 0xf4) :
    graphSymbolNameIsUtf8 (a :: b :: c :: d :: rest) = true ↔
      (0x80 ≤ b.toNat ∧ b.toNat ≤ 0xbf ∧ 0x80 ≤ c.toNat ∧ c.toNat ≤ 0xbf ∧ 0x80 ≤ d.toNat ∧
        d.toNat ≤ 0xbf ∧ (a.toNat = 0xf0 → 0x90 ≤ b.toNat) ∧
          (a.toNat = 0xf4 → b.toNat ≤ 0x8f)) ∧ graphSymbolNameIsUtf8 rest = true := by
  rw [graphSymbolNameIsUtf8.eq_def]
  simp only [UInt8.lt_iff_toNat_lt, UInt8.le_iff_toNat_le, ← UInt8.toNat_inj]
  rw [if_neg (show ¬a.toNat < UInt8.toNat 0x80 by simp; omega),
    if_neg (show ¬(UInt8.toNat 0xc2 ≤ a.toNat ∧ a.toNat ≤ UInt8.toNat 0xdf) by simp; omega),
    if_neg (show ¬(UInt8.toNat 0xe0 ≤ a.toNat ∧ a.toNat ≤ UInt8.toNat 0xef) by simp; omega),
    if_pos ⟨h, h'⟩]
  by_cases hlow : a.toNat = 0xf0 <;> by_cases hhigh : a.toNat = 0xf4 <;> simp [hlow, hhigh] <;>
    omega

/-- What is accepted begins with one of the four forms. -/
theorem forms_of_isUtf8 (h : graphSymbolNameIsUtf8 (a :: rest) = true) :
    a.toNat < 0x80 ∨ (0xc2 ≤ a.toNat ∧ a.toNat ≤ 0xdf ∧ ∃ b tail, rest = b :: tail) ∨
      (0xe0 ≤ a.toNat ∧ a.toNat ≤ 0xef ∧ ∃ b c tail, rest = b :: c :: tail) ∨
        0xf0 ≤ a.toNat ∧ a.toNat ≤ 0xf4 ∧ ∃ b c d tail, rest = b :: c :: d :: tail := by
  rw [graphSymbolNameIsUtf8.eq_def] at h
  simp only [UInt8.lt_iff_toNat_lt, UInt8.le_iff_toNat_le, UInt8.reduceToNat] at h
  by_cases hone : a.toNat < 0x80
  · exact .inl hone
  rw [if_neg hone] at h
  by_cases htwo : 0xc2 ≤ a.toNat ∧ a.toNat ≤ 0xdf
  · rw [if_pos htwo] at h
    split at h
    · exact .inr (.inl ⟨htwo.1, htwo.2, _, _, rfl⟩)
    · cases h
  rw [if_neg htwo] at h
  by_cases hthree : 0xe0 ≤ a.toNat ∧ a.toNat ≤ 0xef
  · rw [if_pos hthree] at h
    split at h
    · exact .inr (.inr (.inl ⟨hthree.1, hthree.2, _, _, _, rfl⟩))
    · cases h
  rw [if_neg hthree] at h
  by_cases hfour : 0xf0 ≤ a.toNat ∧ a.toNat ≤ 0xf4
  · rw [if_pos hfour] at h
    split at h
    · exact .inr (.inr (.inr ⟨hfour.1, hfour.2, _, _, _, _, rfl⟩))
    · cases h
  · rw [if_neg hfour] at h
    cases h

end Utf8

/-! ## Scalar values -/

section Encoding

variable {char : Char} {a b c d : UInt8}

theorem exists_char {n : ℕ} (h : n < 0xd800 ∨ 0xdfff < n ∧ n < 0x110000) :
    ∃ char : Char, char.toNat = n :=
  ⟨Char.ofNatAux n h, rfl⟩

theorem encode_one (h : char.toNat = a.toNat) (ha : a.toNat < 0x80) :
    String.utf8EncodeChar char = [a] := by
  have hval : char.val.toNat = a.toNat := h
  unfold String.utf8EncodeChar
  rw [hval]
  dsimp only
  rw [if_pos (by omega)]
  simp

theorem encode_two (h : char.toNat = (a.toNat - 0xc0) * 64 + (b.toNat - 0x80))
    (ha : 0xc2 ≤ a.toNat ∧ a.toNat ≤ 0xdf) (hb : 0x80 ≤ b.toNat ∧ b.toNat ≤ 0xbf) :
    String.utf8EncodeChar char = [a, b] := by
  have hval : char.val.toNat = (a.toNat - 0xc0) * 64 + (b.toNat - 0x80) := h
  unfold String.utf8EncodeChar
  rw [hval]
  dsimp only
  rw [if_neg (by omega), if_pos (by omega)]
  simp [← UInt8.toNat_inj]
  omega

theorem encode_three
    (h : char.toNat = (a.toNat - 0xe0) * 4096 + (b.toNat - 0x80) * 64 + (c.toNat - 0x80))
    (ha : 0xe0 ≤ a.toNat ∧ a.toNat ≤ 0xef) (hb : 0x80 ≤ b.toNat ∧ b.toNat ≤ 0xbf)
    (hc : 0x80 ≤ c.toNat ∧ c.toNat ≤ 0xbf) (hlong : 0x7ff < char.toNat) :
    String.utf8EncodeChar char = [a, b, c] := by
  have hval : char.val.toNat = (a.toNat - 0xe0) * 4096 + (b.toNat - 0x80) * 64 +
    (c.toNat - 0x80) := h
  unfold String.utf8EncodeChar
  rw [hval]
  dsimp only
  rw [if_neg (by omega), if_neg (by omega), if_pos (by omega)]
  simp [← UInt8.toNat_inj]
  omega

theorem encode_four
    (h : char.toNat = (a.toNat - 0xf0) * 262144 + (b.toNat - 0x80) * 4096 +
      (c.toNat - 0x80) * 64 + (d.toNat - 0x80))
    (ha : 0xf0 ≤ a.toNat ∧ a.toNat ≤ 0xf4) (hb : 0x80 ≤ b.toNat ∧ b.toNat ≤ 0xbf)
    (hc : 0x80 ≤ c.toNat ∧ c.toNat ≤ 0xbf) (hd : 0x80 ≤ d.toNat ∧ d.toNat ≤ 0xbf)
    (hlong : 0xffff < char.toNat) : String.utf8EncodeChar char = [a, b, c, d] := by
  have hval : char.val.toNat = (a.toNat - 0xf0) * 262144 + (b.toNat - 0x80) * 4096 +
    (c.toNat - 0x80) * 64 + (d.toNat - 0x80) := h
  unfold String.utf8EncodeChar
  rw [hval]
  dsimp only
  rw [if_neg (by omega), if_neg (by omega), if_neg (by omega)]
  simp [← UInt8.toNat_inj]
  omega

/-- The bytes of a scalar value have one of the four forms. -/
theorem isUtf8_encode (char : Char) (hzero : char.toNat ≠ 0) (rest : List UInt8) :
    graphSymbolNameIsUtf8 (String.utf8EncodeChar char ++ rest) = true ↔
      graphSymbolNameIsUtf8 rest = true := by
  have hval : char.val.toNat = char.toNat := rfl
  have hbounds := toNat_bounds char
  unfold String.utf8EncodeChar
  rw [hval]
  generalize char.toNat = n at hzero hbounds
  dsimp only
  split_ifs with hone htwo hthree
  · rw [List.singleton_append, isUtf8_one (by simp; omega)]
    simp
    omega
  · rw [List.cons_append, List.singleton_append, isUtf8_two (by simp; omega) (by simp; omega)]
    simp
    omega
  · rw [List.cons_append, List.cons_append, List.singleton_append,
      isUtf8_three (by simp; omega) (by simp; omega)]
    simp
    omega
  · rw [List.cons_append, List.cons_append, List.cons_append, List.singleton_append,
      isUtf8_four (by simp; omega) (by simp; omega)]
    simp
    omega

/-- What is accepted begins with a scalar value. -/
theorem exists_encode_of_isUtf8 {a : UInt8} {rest : List UInt8}
    (h : graphSymbolNameIsUtf8 (a :: rest) = true) : ∃ (char : Char) (tail : List UInt8),
      char.toNat ≠ 0 ∧ a :: rest = String.utf8EncodeChar char ++ tail ∧
        graphSymbolNameIsUtf8 tail = true := by
  rcases forms_of_isUtf8 h with hone | ⟨hlow, hhigh, b, tail, rfl⟩ |
    ⟨hlow, hhigh, b, c, tail, rfl⟩ | ⟨hlow, hhigh, b, c, d, tail, rfl⟩
  · obtain ⟨hzero, h⟩ := (isUtf8_one hone).1 h
    obtain ⟨char, hchar⟩ := exists_char (n := a.toNat) (by omega)
    exact ⟨char, rest, by omega, by rw [encode_one hchar hone]; rfl, h⟩
  · obtain ⟨hb, h⟩ := (isUtf8_two hlow hhigh).1 h
    obtain ⟨char, hchar⟩ := exists_char (n := (a.toNat - 0xc0) * 64 + (b.toNat - 0x80)) (by omega)
    exact ⟨char, tail, by omega, by rw [encode_two hchar ⟨hlow, hhigh⟩ hb]; rfl, h⟩
  · obtain ⟨hb, h⟩ := (isUtf8_three hlow hhigh).1 h
    obtain ⟨char, hchar⟩ := exists_char
      (n := (a.toNat - 0xe0) * 4096 + (b.toNat - 0x80) * 64 + (c.toNat - 0x80)) (by omega)
    have hencode := encode_three hchar ⟨hlow, hhigh⟩ (by omega) (by omega) (by omega)
    exact ⟨char, tail, by omega, by rw [hencode]; rfl, h⟩
  · obtain ⟨hb, h⟩ := (isUtf8_four hlow hhigh).1 h
    obtain ⟨char, hchar⟩ := exists_char (n := (a.toNat - 0xf0) * 262144 + (b.toNat - 0x80) * 4096 +
      (c.toNat - 0x80) * 64 + (d.toNat - 0x80)) (by omega)
    have hencode := encode_four hchar ⟨hlow, hhigh⟩ (by omega) (by omega) (by omega) (by omega)
    exact ⟨char, tail, by omega, by rw [hencode]; rfl, h⟩

end Encoding

/-- What is accepted is the encoding of scalar values. -/
theorem exists_chars_of_isUtf8 {bytes : List UInt8} (h : graphSymbolNameIsUtf8 bytes = true) :
    ∃ chars : List Char, (∀ char ∈ chars, char.toNat ≠ 0) ∧
      bytes = chars.flatMap String.utf8EncodeChar := by
  induction hlength : bytes.length using Nat.strong_induction_on generalizing bytes with
  | _ length ih =>
    cases bytes with
    | nil => exact ⟨[], by simp, rfl⟩
    | cons a rest =>
      obtain ⟨char, tail, hzero, heq, htail⟩ := exists_encode_of_isUtf8 h
      have hpos := char.utf8Size_pos
      have hshorter : tail.length < length := by
        rw [← hlength, heq, List.length_append, String.length_utf8EncodeChar]
        omega
      obtain ⟨chars, hchars, rfl⟩ := ih tail.length hshorter htail rfl
      exact ⟨char :: chars, List.forall_mem_cons.2 ⟨hzero, hchars⟩, heq⟩

theorem isUtf8_flatMap : ∀ {chars : List Char}, (∀ char ∈ chars, char.toNat ≠ 0) →
    graphSymbolNameIsUtf8 (chars.flatMap String.utf8EncodeChar) = true
  | [], _ => rfl
  | char :: chars, h => by
    obtain ⟨hzero, hchars⟩ := List.forall_mem_cons.1 h
    rw [List.flatMap_cons, isUtf8_encode char hzero]
    exact isUtf8_flatMap hchars

/-- A name is accepted if it is the encoding of scalar values other than zero, and only then. -/
theorem graphSymbolNameIsUtf8_iff {bytes : List UInt8} : graphSymbolNameIsUtf8 bytes = true ↔
    ∃ chars : List Char, (∀ char ∈ chars, char.toNat ≠ 0) ∧
      bytes = chars.flatMap String.utf8EncodeChar := by
  constructor
  · exact exists_chars_of_isUtf8
  · rintro ⟨chars, hchars, rfl⟩
    exact isUtf8_flatMap hchars

end Npunlock
