import Mathlib.Data.Nat.Notation
import Mathlib.Tactic.NormNum
import Mathlib.Tactic.Ring

/-!
# Binary32 words

Words of 32 bits read as IEEE binary32 numbers. The order of two numbers is the order of
their signed magnitudes, so comparisons are comparisons of integers. Arithmetic is not
defined here : a program that adds or multiplies takes the operations as a parameter.

`ofNat` is the conversion of an unsigned integer, rounded to the nearest number, and
`truncate` the conversion back. `exactNat` is the usual check of a count that is
transported as a number, and accepts exactly the numbers of the counts up to its bound
(`exactNat_ofNat`, `le_of_exactNat`).
-/

namespace Npunlock

/-- A word of a buffer. -/
abbrev Word := UInt32

namespace Binary32

/-! ## Fields -/

def isNegative (w : Word) : Bool :=
  2 ^ 31 ≤ w.toNat

/-- The bits without the sign. -/
def magnitude (w : Word) : ℕ :=
  w.toNat % 2 ^ 31

/-- The magnitude of an infinity. -/
def infinite : ℕ :=
  255 * 2 ^ 23

def isNaN (w : Word) : Bool :=
  infinite < magnitude w

def isInf (w : Word) : Bool :=
  magnitude w = infinite

def isFinite (w : Word) : Bool :=
  magnitude w < infinite

theorem not_isNaN_of_isFinite {w : Word} (h : isFinite w = true) : isNaN w = false := by
  simp only [isFinite, isNaN, decide_eq_true_eq, decide_eq_false_iff_not] at h ⊢
  omega

/-! ## Order -/

/-- The place of a number in the order. Both zeros have the same. -/
def order (w : Word) : ℤ :=
  if isNegative w then -magnitude w else magnitude w

def lt (a b : Word) : Bool :=
  ¬isNaN a ∧ ¬isNaN b ∧ order a < order b

def le (a b : Word) : Bool :=
  ¬isNaN a ∧ ¬isNaN b ∧ order a ≤ order b

def eq (a b : Word) : Bool :=
  ¬isNaN a ∧ ¬isNaN b ∧ order a = order b

/-! ### The sign -/

/-- The other sign. -/
def neg (w : Word) : Word :=
  w ^^^ 0x80000000

theorem toNat_neg (w : Word) :
    (neg w).toNat = if isNegative w then w.toNat - 2 ^ 31 else w.toNat + 2 ^ 31 := by
  have hlt : w.toNat < 2 ^ 32 := w.toNat_lt
  have hdiv : (neg w).toNat / 2 ^ 31 = (w.toNat / 2 ^ 31) ^^^ 1 := by
    rw [neg, UInt32.toNat_xor, Nat.xor_div_two_pow]
    rfl
  have hmod : (neg w).toNat % 2 ^ 31 = w.toNat % 2 ^ 31 := by
    rw [neg, UInt32.toNat_xor, Nat.xor_mod_two_pow]
    exact Nat.xor_zero _
  unfold isNegative
  split_ifs with hsign
  · have hsign : 2 ^ 31 ≤ w.toNat := by simpa using hsign
    rw [show w.toNat / 2 ^ 31 = 1 by omega, Nat.xor_self] at hdiv
    omega
  · have hsign : ¬2 ^ 31 ≤ w.toNat := by simpa using hsign
    rw [show w.toNat / 2 ^ 31 = 0 by omega, Nat.zero_xor] at hdiv
    omega

@[simp] theorem magnitude_neg (w : Word) : magnitude (neg w) = magnitude w := by
  have hlt : w.toNat < 2 ^ 32 := w.toNat_lt
  rw [magnitude, magnitude, toNat_neg]
  split_ifs with hsign
  · simp only [isNegative, decide_eq_true_eq] at hsign
    omega
  · omega

@[simp] theorem order_neg (w : Word) : order (neg w) = -order w := by
  have hlt : w.toNat < 2 ^ 32 := w.toNat_lt
  have hsign : isNegative (neg w) = !isNegative w := by
    have htoNat := toNat_neg w
    cases hw : isNegative w with
    | true =>
      rw [hw, if_pos rfl] at htoNat
      simp only [isNegative, decide_eq_true_eq, Bool.not_true, decide_eq_false_iff_not] at hw ⊢
      omega
    | false =>
      rw [hw, if_neg Bool.false_ne_true] at htoNat
      simp only [isNegative, decide_eq_true_eq, Bool.not_false, decide_eq_false_iff_not] at hw ⊢
      omega
  rw [order, order, hsign, magnitude_neg]
  cases isNegative w <;> simp

theorem le_iff {a b : Word} :
    le a b = true ↔ isNaN a = false ∧ isNaN b = false ∧ order a ≤ order b := by
  simp [le]

theorem lt_iff {a b : Word} :
    lt a b = true ↔ isNaN a = false ∧ isNaN b = false ∧ order a < order b := by
  simp [lt]

theorem le_trans {a b c : Word} (hab : le a b = true) (hbc : le b c = true) : le a c = true := by
  rw [le_iff] at *
  exact ⟨hab.1, hbc.2.1, hab.2.2.trans hbc.2.2⟩

theorem lt_eq_false_of_le {a b : Word} (h : le a b = true) : lt b a = false := by
  rw [le_iff] at h
  have hnot : ¬lt b a = true := fun hlt => absurd (lt_iff.1 hlt).2.2 (not_lt.2 h.2.2)
  simpa using hnot

/-- A number between two finite numbers is finite. -/
theorem isFinite_of_between {a b c : Word} (hab : le a b = true) (hbc : le b c = true)
    (ha : isFinite a = true) (hc : isFinite c = true) : isFinite b = true := by
  have hle := (le_iff.1 hab).2.2
  have hle' := (le_iff.1 hbc).2.2
  simp only [isFinite, decide_eq_true_eq] at ha hc ⊢
  unfold order at hle hle'
  split_ifs at hle hle' <;> omega

/-! ## Integers -/

/-- The part of a magnitude before the point. The magnitude `e * 2 ^ 23 + f` stands for
`(2 ^ 23 + f) * 2 ^ (e - 150)` unless `e` is zero, where the number is below one. -/
def truncateMagnitude (m : ℕ) : ℕ :=
  (2 ^ 23 + m % 2 ^ 23) * 2 ^ (m / 2 ^ 23) / 2 ^ 150

/-- The number without its sign, rounded towards zero. -/
def truncate (w : Word) : ℕ :=
  truncateMagnitude (magnitude w)

/-- `int(float(value))`, which fails for a number that is not finite. -/
def toInt? (w : Word) : Option ℤ :=
  if isFinite w then some (if isNegative w then -truncate w else truncate w) else none

/-- `n / 2 ^ s`, rounded to the nearest integer, and to an even one in the middle. -/
def roundShift (n s : ℕ) : ℕ :=
  let q := n / 2 ^ s
  let r := n % 2 ^ s
  if 2 ^ s < 2 * r ∨ 2 * r = 2 ^ s ∧ q % 2 = 1 then q + 1 else q

/-- The bits of a natural number, rounded to 24 significant bits. -/
def bitsOfNat (n : ℕ) : ℕ :=
  if n = 0 then 0
  else if n < 2 ^ 24 then (126 + n.log2) * 2 ^ 23 + n * 2 ^ (23 - n.log2)
  else (126 + n.log2) * 2 ^ 23 + roundShift n (n.log2 - 23)

/-- The conversion of an unsigned integer. -/
def ofNat (n : ℕ) : Word :=
  UInt32.ofNat (bitsOfNat n)

/-- `-1.0f`. -/
def minusOne : Word :=
  0xBF800000

/-- `1.0f`. -/
def one : Word :=
  0x3F800000

/-- `0.5f`. -/
def half : Word :=
  0x3F000000

theorem bitsOfNat_bounds {n : ℕ} (h0 : 0 < n) (h : n < 2 ^ 24) :
    n.log2 ≤ 23 ∧ 2 ^ 23 ≤ n * 2 ^ (23 - n.log2) ∧ n * 2 ^ (23 - n.log2) < 2 ^ 24 := by
  have hlow : 2 ^ n.log2 ≤ n := Nat.log2_self_le (by omega)
  have hhigh : n < 2 ^ (n.log2 + 1) := Nat.lt_log2_self
  have hlog : n.log2 ≤ 23 := by
    by_contra hlog
    have : 2 ^ 24 ≤ 2 ^ n.log2 := Nat.pow_le_pow_right (by norm_num) (by omega)
    omega
  refine ⟨hlog, ?_, ?_⟩
  · calc 2 ^ 23 = 2 ^ n.log2 * 2 ^ (23 - n.log2) := by rw [← pow_add]; congr 1; omega
      _ ≤ n * 2 ^ (23 - n.log2) := Nat.mul_le_mul_right _ hlow
  · calc n * 2 ^ (23 - n.log2) < 2 ^ (n.log2 + 1) * 2 ^ (23 - n.log2) :=
        Nat.mul_lt_mul_of_pos_right hhigh (Nat.two_pow_pos _)
      _ = 2 ^ 24 := by rw [← pow_add]; congr 1; omega

theorem bitsOfNat_lt {n : ℕ} (h : n < 2 ^ 24) : bitsOfNat n < 151 * 2 ^ 23 := by
  unfold bitsOfNat
  split_ifs with h0
  · norm_num
  · obtain ⟨hlog, _, hlt⟩ := bitsOfNat_bounds (Nat.pos_of_ne_zero h0) h
    have : (126 + n.log2) * 2 ^ 23 ≤ 149 * 2 ^ 23 := Nat.mul_le_mul_right _ (by omega)
    omega

/-- A number with at most 24 significant bits is converted exactly. -/
theorem truncateMagnitude_bitsOfNat {n : ℕ} (h : n < 2 ^ 24) :
    truncateMagnitude (bitsOfNat n) = n := by
  unfold bitsOfNat
  split_ifs with h0
  · subst h0
    decide
  · obtain ⟨hlog, hle, hlt⟩ := bitsOfNat_bounds (Nat.pos_of_ne_zero h0) h
    have hsplit : (126 + n.log2) * 2 ^ 23 + n * 2 ^ (23 - n.log2) =
        2 ^ 23 * (127 + n.log2) + (n * 2 ^ (23 - n.log2) - 2 ^ 23) := by
      omega
    have hdiv : ((126 + n.log2) * 2 ^ 23 + n * 2 ^ (23 - n.log2)) / 2 ^ 23 = 127 + n.log2 := by
      rw [hsplit, Nat.mul_add_div (by norm_num), Nat.div_eq_of_lt (by omega), Nat.add_zero]
    have hmod : ((126 + n.log2) * 2 ^ 23 + n * 2 ^ (23 - n.log2)) % 2 ^ 23 =
        n * 2 ^ (23 - n.log2) - 2 ^ 23 := by
      rw [hsplit, Nat.mul_add_mod, Nat.mod_eq_of_lt (by omega)]
    have hexp : 2 ^ 23 + (n * 2 ^ (23 - n.log2) - 2 ^ 23) = n * 2 ^ (23 - n.log2) := by omega
    unfold truncateMagnitude
    rw [hdiv, hmod, hexp, mul_assoc, ← pow_add,
      show 23 - n.log2 + (127 + n.log2) = 150 by omega]
    exact Nat.mul_div_cancel _ (Nat.two_pow_pos _)

/-- A larger magnitude is truncated to no smaller integer. -/
theorem truncateMagnitude_mono {a b : ℕ} (h : a ≤ b) :
    truncateMagnitude a ≤ truncateMagnitude b := by
  refine Nat.div_le_div_right ?_
  have hdiv : a / 2 ^ 23 ≤ b / 2 ^ 23 := Nat.div_le_div_right h
  rcases Nat.lt_or_eq_of_le hdiv with hlt | heq
  · calc (2 ^ 23 + a % 2 ^ 23) * 2 ^ (a / 2 ^ 23) ≤ 2 ^ 24 * 2 ^ (a / 2 ^ 23) :=
        Nat.mul_le_mul_right _ (by omega)
      _ = 2 ^ 23 * 2 ^ (a / 2 ^ 23 + 1) := by rw [pow_succ 2 (a / 2 ^ 23)]; ring
      _ ≤ 2 ^ 23 * 2 ^ (b / 2 ^ 23) :=
        Nat.mul_le_mul_left _ (Nat.pow_le_pow_right (by norm_num) hlt)
      _ ≤ (2 ^ 23 + b % 2 ^ 23) * 2 ^ (b / 2 ^ 23) := Nat.mul_le_mul_right _ (by omega)
  · rw [heq]
    refine Nat.mul_le_mul_right _ ?_
    omega

section OfNat

variable {n : ℕ} (h : n < 2 ^ 24)

include h

theorem toNat_ofNat : (ofNat n).toNat = bitsOfNat n := by
  have := bitsOfNat_lt h
  unfold ofNat
  rw [UInt32.toNat_ofNat']
  exact Nat.mod_eq_of_lt (by omega)

theorem magnitude_ofNat : magnitude (ofNat n) = bitsOfNat n := by
  have := bitsOfNat_lt h
  rw [magnitude, toNat_ofNat h]
  exact Nat.mod_eq_of_lt (by omega)

@[simp] theorem isFinite_ofNat : isFinite (ofNat n) = true := by
  have := bitsOfNat_lt h
  simp only [isFinite, magnitude_ofNat h, infinite, decide_eq_true_eq]
  omega

@[simp] theorem isNaN_ofNat : isNaN (ofNat n) = false := by
  have := bitsOfNat_lt h
  simp only [isNaN, magnitude_ofNat h, infinite, decide_eq_false_iff_not]
  omega

@[simp] theorem isNegative_ofNat : isNegative (ofNat n) = false := by
  have := bitsOfNat_lt h
  simp only [isNegative, toNat_ofNat h, decide_eq_false_iff_not]
  omega

theorem order_ofNat : order (ofNat n) = bitsOfNat n := by
  rw [order, isNegative_ofNat h, magnitude_ofNat h]
  rfl

@[simp] theorem truncate_ofNat : truncate (ofNat n) = n := by
  rw [truncate, magnitude_ofNat h, truncateMagnitude_bitsOfNat h]

@[simp] theorem toInt?_ofNat : toInt? (ofNat n) = some (n : ℤ) := by
  rw [toInt?, isFinite_ofNat h, isNegative_ofNat h, truncate_ofNat h]
  rfl

end OfNat

theorem bitsOfNat_mono {a b : ℕ} (hb : b < 2 ^ 24) (h : a ≤ b) : bitsOfNat a ≤ bitsOfNat b := by
  by_contra hlt
  have hle := truncateMagnitude_mono (Nat.le_of_lt (not_le.1 hlt))
  rw [truncateMagnitude_bitsOfNat hb, truncateMagnitude_bitsOfNat (by omega)] at hle
  obtain rfl : a = b := le_antisymm h hle
  exact hlt le_rfl

/-! ## Exact counts -/

/-- The integer that a number stands for, if it is one and at most `maximum`. -/
def exactNat (value : Word) (maximum : ℕ) : Option ℕ :=
  if ¬le 0 value ∨ lt (ofNat maximum) value then none
  else if ¬eq (ofNat (truncate value)) value then none
  else some (truncate value)

theorem exactNat_ofNat {n maximum : ℕ} (hmaximum : maximum < 2 ^ 24) (h : n ≤ maximum) :
    exactNat (ofNat n) maximum = some n := by
  have hn : n < 2 ^ 24 := by omega
  have hmono := bitsOfNat_mono hmaximum h
  have hzero : le 0 (ofNat n) = true := by
    simp only [le, isNaN_ofNat hn, order_ofNat hn, decide_eq_true_eq]
    refine ⟨by decide, by simp, ?_⟩
    rw [show order 0 = 0 by decide]
    omega
  have hbound : lt (ofNat maximum) (ofNat n) = false := by
    simp only [lt, order_ofNat hn, order_ofNat hmaximum, decide_eq_false_iff_not]
    omega
  have hself : eq (ofNat (truncate (ofNat n))) (ofNat n) = true := by
    rw [truncate_ofNat hn]
    simp [eq, isNaN_ofNat hn]
  rw [exactNat, hzero, hbound, hself, truncate_ofNat hn]
  simp

/-- An accepted count is at most the bound, whatever the word was. -/
theorem le_of_exactNat {value : Word} {maximum n : ℕ} (hmaximum : maximum < 2 ^ 24)
    (h : exactNat value maximum = some n) : n ≤ maximum := by
  unfold exactNat at h
  split_ifs at h with hrange hexact
  obtain rfl := Option.some.inj h
  push Not at hrange
  obtain ⟨hzero, hbound⟩ := hrange
  simp only [le, decide_eq_true_eq] at hzero
  have hnan : isNaN value = false := by simpa using hzero.2.1
  have hle : order value ≤ bitsOfNat maximum := by
    by_contra hlt
    apply hbound
    simp only [lt, isNaN_ofNat hmaximum, hnan, order_ofNat hmaximum, decide_eq_true_eq]
    exact ⟨by simp, by simp, not_le.1 hlt⟩
  have hmagnitude : magnitude value ≤ bitsOfNat maximum := by
    have hnonneg : (0 : ℤ) ≤ order value := hzero.2.2
    unfold order at hle hnonneg
    split_ifs at hle hnonneg
    · omega
    · omega
  calc truncate value ≤ truncateMagnitude (bitsOfNat maximum) := truncateMagnitude_mono hmagnitude
    _ = maximum := truncateMagnitude_bitsOfNat hmaximum

end Binary32

end Npunlock
