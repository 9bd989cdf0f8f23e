import Mathlib.Data.Int.Log
import Mathlib.Data.List.TakeWhile
import Mathlib.Data.Nat.Digits.Defs
import Mathlib.Data.Rat.Floor
import Npunlock.JsString

/-!
# Numbers as text

How the frontend writes natural numbers (`toString(16)`, `String(n)`), and how it reads them :
`parseInt(text, 16)` and `Number(text)`. A number is read as a rational and rounded to the
nearest binary64 number, so a natural number below `2 ^ 53` is read as it was written.
-/

namespace Npunlock

/-! ## White space -/

/-- White space and line terminators. -/
def isWhiteSpace (unit : CodeUnit) : Bool :=
  unit.toNat ∈ [0x09, 0x0a, 0x0b, 0x0c, 0x0d, 0x20, 0xa0, 0x1680, 0x2028, 0x2029, 0x202f, 0x205f,
    0x3000, 0xfeff] || 0x2000 ≤ unit.toNat && unit.toNat ≤ 0x200a

def trim (text : JsString) : JsString :=
  ((text.dropWhile isWhiteSpace).reverse.dropWhile isWhiteSpace).reverse

theorem isWhiteSpace_of_printable {unit : CodeUnit} (h : 0x21 ≤ unit.toNat)
    (h' : unit.toNat < 0x7f) : isWhiteSpace unit = false := by
  rw [← Bool.not_eq_true]
  simp only [isWhiteSpace, Bool.or_eq_true, Bool.and_eq_true, decide_eq_true_eq, List.mem_cons,
    List.not_mem_nil, or_false]
  omega

theorem dropWhile_of_forall {α : Type*} {p : α → Bool} : ∀ {l : List α},
    (∀ a ∈ l, p a = false) → l.dropWhile p = l
  | [], _ => rfl
  | a :: l, h => List.dropWhile_cons_of_neg (by simp [h a List.mem_cons_self])

theorem trim_of_printable {text : JsString}
    (h : ∀ unit ∈ text, 0x21 ≤ unit.toNat ∧ unit.toNat < 0x7f) : trim text = text := by
  have hplain : ∀ unit ∈ text, isWhiteSpace unit = false := fun unit hunit =>
    isWhiteSpace_of_printable (h unit hunit).1 (h unit hunit).2
  rw [trim, dropWhile_of_forall hplain, dropWhile_of_forall fun unit hunit =>
    hplain unit (List.mem_reverse.1 hunit), List.reverse_reverse]

/-! ## Digits of a number -/

/-- `toString(base)` of a natural number. -/
def radixText (base n : ℕ) : JsString :=
  if n = 0 then [digitUnit 0x61 0] else (base.digits n).reverse.map (digitUnit 0x61)

/-- The number of the digits, the first one being the highest. -/
def digitsValue (base : ℕ) (digits : List ℕ) : ℕ :=
  digits.foldl (fun value digit => value * base + digit) 0

theorem digitsValue_reverse (base : ℕ) (digits : List ℕ) :
    digitsValue base digits.reverse = Nat.ofDigits base digits := by
  rw [digitsValue, List.foldl_reverse, Nat.ofDigits_eq_foldr]
  congr 1
  funext digit value
  simp only [Nat.cast_id]
  ring

/-- The digits that are written. -/
theorem exists_digits {base : ℕ} (hbase : 1 < base) (n : ℕ) : ∃ digits : List ℕ,
    radixText base n = digits.map (digitUnit 0x61) ∧ digits ≠ [] ∧
      (∀ digit ∈ digits, digit < base) ∧ digitsValue base digits = n := by
  unfold radixText
  split_ifs with hzero
  · exact ⟨[0], rfl, by simp, by simp; omega, by simp [digitsValue, hzero]⟩
  · refine ⟨(base.digits n).reverse, rfl, ?_, fun digit hdigit => ?_, ?_⟩
    · rw [ne_eq, List.reverse_eq_nil_iff]
      exact Nat.digits_ne_nil_iff_ne_zero.2 hzero
    · exact Nat.digits_lt_base hbase (List.mem_reverse.1 hdigit)
    · rw [digitsValue_reverse, Nat.ofDigits_digits]

/-- `parseInt(text, 16)` of hexadecimal digits. -/
def parseHex (text : JsString) : ℕ :=
  digitsValue 16 (text.map fun unit => (hexValue unit.toNat).getD 0)

def isHexDigit (unit : CodeUnit) : Bool :=
  (hexValue unit.toNat).isSome

theorem isHexDigit_radixText {n : ℕ} {unit : CodeUnit} (h : unit ∈ radixText 16 n) :
    isHexDigit unit = true := by
  obtain ⟨digits, hdigits, -, hlt, -⟩ := exists_digits (by decide : 1 < 16) n
  rw [hdigits] at h
  obtain ⟨digit, hdigit, rfl⟩ := List.mem_map.1 h
  rw [isHexDigit, hexValue_digitUnit (Or.inr rfl) (hlt digit hdigit)]
  rfl

theorem radixText_ne_nil {base : ℕ} (hbase : 1 < base) (n : ℕ) : radixText base n ≠ [] := by
  obtain ⟨digits, hdigits, hne, -⟩ := exists_digits hbase n
  rw [hdigits]
  simpa using hne

theorem parseHex_radixText (n : ℕ) : parseHex (radixText 16 n) = n := by
  obtain ⟨digits, hdigits, -, hlt, hvalue⟩ := exists_digits (by decide : 1 < 16) n
  rw [parseHex, hdigits, List.map_map]
  have hread : digits.map ((fun unit : CodeUnit => (hexValue unit.toNat).getD 0) ∘
      digitUnit 0x61) = digits := by
    refine (List.map_congr_left fun digit hdigit => ?_).trans (List.map_id digits)
    simp [hexValue_digitUnit (Or.inr rfl) (hlt digit hdigit)]
  rw [hread, hvalue]

/-! ## Reading a number -/

/-- The nearest integer, an even one if there are two. -/
def roundHalfEven (value : ℚ) : ℤ :=
  let floor := ⌊value⌋
  if value - floor < 1 / 2 then floor
  else if 1 / 2 < value - floor then floor + 1
  else if floor % 2 = 0 then floor else floor + 1

/-- The distance of the binary64 numbers around a positive number. -/
def ulp (value : ℚ) : ℚ :=
  2 ^ max (Int.log 2 value - 52) (-1074)

/-- The binary64 number nearest to a number that is not negative. Numbers that are too large are
not cut to infinity. -/
def roundDouble (value : ℚ) : ℚ :=
  if value = 0 then 0 else roundHalfEven (value / ulp value) * ulp value

def isDigit (unit : CodeUnit) : Bool :=
  0x30 ≤ unit.toNat && unit.toNat ≤ 0x39

def decimalValue (text : JsString) : ℕ :=
  digitsValue 10 (text.map fun unit => unit.toNat - 0x30)

/-- The value of an exponent part, which may be missing. -/
def exponentValue : JsString → Option ℤ
  | [] => some 0
  | letter :: rest =>
    let digits := if rest.head? = some 0x2b ∨ rest.head? = some 0x2d then rest.drop 1 else rest
    if (letter = 0x65 ∨ letter = 0x45) ∧ digits ≠ [] ∧ digits.all isDigit = true then
      some (if rest.head? = some 0x2d then -(decimalValue digits) else decimalValue digits)
    else none

/-- A decimal literal without a sign. -/
def unsignedDecimal (text : JsString) : Option ℚ := do
  let whole := text.takeWhile isDigit
  let rest := text.dropWhile isDigit
  let fraction := if rest.head? = some 0x2e then (rest.drop 1).takeWhile isDigit else []
  let rest := if rest.head? = some 0x2e then (rest.drop 1).dropWhile isDigit else rest
  if whole = [] ∧ fraction = [] then none
  else
    let exponent ← exponentValue rest
    pure (roundDouble (decimalValue (whole ++ fraction) * 10 ^ (exponent - fraction.length)))

/-- A literal with one of the letters `x`, `o` and `b` after the zero. -/
def radixOf (letter : CodeUnit) : Option ℕ :=
  if letter = 0x78 ∨ letter = 0x58 then some 16
  else if letter = 0x6f ∨ letter = 0x4f then some 8
  else if letter = 0x62 ∨ letter = 0x42 then some 2
  else none

def radixLiteral (radix : ℕ) (digits : JsString) : Option ℚ :=
  if digits ≠ [] ∧
      digits.all (fun unit => (hexValue unit.toNat).any fun value => value < radix) then
    some (roundDouble (digitsValue radix (digits.map fun unit => (hexValue unit.toNat).getD 0)))
  else none

/-- `Number(text)`. NaN and infinity give `none`. -/
def toNumber (text : JsString) : Option ℚ :=
  match trim text with
  | [] => some 0
  | first :: rest =>
    if first = 0x2d then (unsignedDecimal rest).map fun value => -value
    else if first = 0x2b then unsignedDecimal rest
    else
      match if first = 0x30 then rest.head?.bind radixOf else none with
      | some radix => radixLiteral radix (rest.drop 1)
      | none => unsignedDecimal (first :: rest)

/-- `Number.isSafeInteger`. -/
def safeInteger? (value : ℚ) : Option ℤ :=
  if value.den = 1 ∧ -(2 ^ 53) < value.num ∧ value.num < 2 ^ 53 then some value.num else none

theorem roundHalfEven_intCast (n : ℤ) : roundHalfEven n = n := by
  rw [roundHalfEven, Int.floor_intCast, sub_self]
  exact if_pos (by norm_num)

/-- A natural number below `2 ^ 53` is a binary64 number. -/
theorem roundDouble_natCast {n : ℕ} (h : n < 2 ^ 53) : roundDouble n = n := by
  unfold roundDouble
  split_ifs with hzero
  · exact hzero.symm
  · have hpos : (0 : ℚ) < n := lt_of_le_of_ne (Nat.cast_nonneg n) (Ne.symm hzero)
    have hlog : Int.log 2 (n : ℚ) ≤ 52 := by
      have hle : ((2 : ℕ) : ℚ) ^ Int.log 2 (n : ℚ) ≤ n := Int.zpow_log_le_self one_lt_two hpos
      have hlt : ((2 : ℕ) : ℚ) ^ Int.log 2 (n : ℚ) < (2 : ℕ) ^ (53 : ℤ) := by
        refine hle.trans_lt ?_
        exact_mod_cast h
      have := (zpow_lt_zpow_iff_right₀ (by norm_num : (1 : ℚ) < (2 : ℕ))).1 hlt
      omega
    obtain ⟨shift, hshift⟩ : ∃ shift : ℕ, max (Int.log 2 (n : ℚ) - 52) (-1074) = -shift :=
      ⟨(-max (Int.log 2 (n : ℚ) - 52) (-1074)).toNat, by omega⟩
    have hulp : ulp n = ((2 : ℚ) ^ shift)⁻¹ := by
      rw [ulp, hshift, zpow_neg, zpow_natCast]
    have hscaled : (n : ℚ) / ulp n = ((n * 2 ^ shift : ℤ) : ℚ) := by
      rw [hulp, div_inv_eq_mul]
      push_cast
      rfl
    have hne : (2 : ℚ) ^ shift ≠ 0 := by positivity
    rw [hscaled, roundHalfEven_intCast, hulp]
    push_cast
    field_simp

theorem isDigit_digitUnit {digit : ℕ} (h : digit < 10) :
    isDigit (digitUnit 0x61 digit) = true := by
  rw [isDigit, toNat_digitUnit (by omega) (by omega), if_pos h]
  simp
  omega

theorem unsignedDecimal_digits {digits : List ℕ} (hne : digits ≠ [])
    (hlt : ∀ digit ∈ digits, digit < 10) (hsmall : digitsValue 10 digits < 2 ^ 53) :
    unsignedDecimal (digits.map (digitUnit 0x61)) = some (digitsValue 10 digits : ℚ) := by
  have hall : ∀ unit ∈ digits.map (digitUnit 0x61), isDigit unit = true := by
    intro unit hunit
    obtain ⟨digit, hdigit, rfl⟩ := List.mem_map.1 hunit
    exact isDigit_digitUnit (hlt digit hdigit)
  have hvalue : decimalValue (digits.map (digitUnit 0x61)) = digitsValue 10 digits := by
    rw [decimalValue, List.map_map]
    congr 1
    refine (List.map_congr_left fun digit hdigit => ?_).trans (List.map_id digits)
    have := hlt digit hdigit
    simp only [Function.comp_apply, toNat_digitUnit (show 0x61 ≤ 0x61 from le_rfl)
      (show digit < 36 by omega), if_pos this]
    exact Nat.add_sub_cancel_left _ _
  have htake : (digits.map (digitUnit 0x61)).takeWhile isDigit = digits.map (digitUnit 0x61) :=
    List.takeWhile_eq_self_iff.2 hall
  have hdrop : (digits.map (digitUnit 0x61)).dropWhile isDigit = [] :=
    List.dropWhile_eq_nil_iff.2 hall
  unfold unsignedDecimal
  simp only [htake, hdrop, List.head?_nil, reduceCtorEq, if_false, List.map_eq_nil_iff, hne,
    false_and, List.append_nil, hvalue, exponentValue, Option.bind_eq_bind, Option.bind_some]
  simpa using roundDouble_natCast hsmall

/-- What `String(n)` writes is read as the number. -/
theorem toNumber_radixText {n : ℕ} (h : n < 2 ^ 53) : toNumber (radixText 10 n) = some (n : ℚ) := by
  obtain ⟨digits, hdigits, hne, hlt, hvalue⟩ := exists_digits (by decide : 1 < 10) n
  have hunit : ∀ digit ∈ digits, (digitUnit 0x61 digit).toNat = 0x30 + digit := by
    intro digit hdigit
    have := hlt digit hdigit
    rw [toNat_digitUnit le_rfl (by omega), if_pos this]
  have htrim : trim (digits.map (digitUnit 0x61)) = digits.map (digitUnit 0x61) := by
    refine trim_of_printable fun unit hmem => ?_
    obtain ⟨digit, hdigit, rfl⟩ := List.mem_map.1 hmem
    have := hlt digit hdigit
    rw [hunit digit hdigit]
    omega
  have hdecimal := unsignedDecimal_digits hne hlt (by rw [hvalue]; exact h)
  rw [hdigits, toNumber, htrim]
  obtain ⟨first, rest, rfl⟩ := List.exists_cons_of_ne_nil hne
  rw [hvalue] at hdecimal
  have hfirst := hunit first List.mem_cons_self
  have hsign : ∀ unit : CodeUnit, unit.toNat < 0x30 → digitUnit 0x61 first ≠ unit := by
    rintro unit hlow rfl
    omega
  have hradix : (if digitUnit 0x61 first = 0x30 then
      (rest.map (digitUnit 0x61)).head?.bind radixOf else none) = none := by
    split_ifs
    · cases rest with
      | nil => rfl
      | cons second others =>
        have hsecond := hunit second (by simp)
        have hsmall := hlt second (by simp)
        have hletter : ∀ unit : CodeUnit, 0x40 ≤ unit.toNat → digitUnit 0x61 second ≠ unit := by
          rintro unit hhigh rfl
          omega
        rw [List.map_cons, List.head?_cons, Option.bind_some, radixOf,
          if_neg (by simp [hletter]), if_neg (by simp [hletter]), if_neg (by simp [hletter])]
    · rfl
  rw [List.map_cons] at hdecimal ⊢
  dsimp only
  rw [if_neg (hsign 0x2d (by decide)), if_neg (hsign 0x2b (by decide)), hradix]
  exact hdecimal

theorem safeInteger?_natCast {n : ℕ} (h : n < 2 ^ 53) : safeInteger? (n : ℚ) = some (n : ℤ) := by
  unfold safeInteger?
  rw [Rat.den_natCast, Rat.num_natCast]
  exact if_pos ⟨rfl, by omega, by omega⟩

end Npunlock
