import Mathlib.Algebra.Order.Field.Rat
import Mathlib.Data.Int.ConditionallyCompleteOrder
import Mathlib.Data.Int.Log
import Mathlib.Data.Rat.Floor
import Npunlock.Binary16

/-!
# Numbers as rationals

The exact value of a binary32 number, and the rounding of a rational to half precision.
The value of a magnitude is an integer number of units of `2 ^ (-149)`, and larger
magnitudes have larger values, so the order of the words is the order of their values
(`toRat_lt_iff`). Half-precision numbers have the value of the binary32 numbers they are
widened to.
-/

namespace Npunlock

namespace Binary32

/-! ## Values -/

/-- The units of a magnitude. -/
def units (m : ℕ) : ℕ :=
  if m < 2 ^ 23 then m else (2 ^ 23 + m % 2 ^ 23) * 2 ^ (m / 2 ^ 23 - 1)

/-- The value of a finite number. -/
def toRat (w : Word) : ℚ :=
  (if isNegative w then -units (magnitude w) else units (magnitude w) : ℤ) / 2 ^ 149

theorem units_lt_succ (m : ℕ) : units m < units (m + 1) := by
  unfold units
  split_ifs with hm hm' hm'
  · omega
  · obtain rfl : m = 2 ^ 23 - 1 := by omega
    decide
  · omega
  · obtain ⟨e, he⟩ : ∃ e, m / 2 ^ 23 = e + 1 := Nat.exists_eq_succ_of_ne_zero (by omega)
    rw [he, Nat.add_sub_cancel]
    rcases Nat.lt_or_ge (m % 2 ^ 23 + 1) (2 ^ 23) with hlt | hge
    · rw [show (m + 1) / 2 ^ 23 = e + 1 by omega, Nat.add_sub_cancel]
      exact Nat.mul_lt_mul_of_pos_right (by omega) (Nat.two_pow_pos _)
    · rw [show (m + 1) / 2 ^ 23 = e + 1 + 1 by omega, Nat.add_sub_cancel, pow_succ 2 e,
        Nat.mul_comm (2 ^ e), ← Nat.mul_assoc]
      exact Nat.mul_lt_mul_of_pos_right (by omega) (Nat.two_pow_pos _)

theorem units_strictMono : StrictMono units :=
  strictMono_nat_of_lt_succ units_lt_succ

/-- The units of a place in the order. -/
def orderUnits (z : ℤ) : ℤ :=
  if z < 0 then -units z.natAbs else units z.natAbs

theorem orderUnits_strictMono : StrictMono orderUnits := by
  intro a b hab
  have hzero : units 0 = 0 := rfl
  unfold orderUnits
  split_ifs with ha hb hb
  · have := units_strictMono (show b.natAbs < a.natAbs by omega)
    omega
  · have := units_strictMono (show 0 < a.natAbs by omega)
    omega
  · omega
  · have := units_strictMono (show a.natAbs < b.natAbs by omega)
    omega

theorem toRat_eq (w : Word) : toRat w = (orderUnits (order w) : ℚ) / 2 ^ 149 := by
  have hunits : (if isNegative w then -(units (magnitude w) : ℤ) else units (magnitude w)) =
      orderUnits (order w) := by
    unfold order orderUnits
    cases isNegative w with
    | true =>
      rw [if_pos rfl, if_pos rfl]
      rcases Nat.eq_zero_or_pos (magnitude w) with hzero | hpos
      · rw [hzero]
        rfl
      · rw [if_pos (by omega), Int.natAbs_neg, Int.natAbs_natCast]
    | false =>
      rw [if_neg Bool.false_ne_true, if_neg Bool.false_ne_true, if_neg (by omega),
        Int.natAbs_natCast]
  rw [toRat, hunits]

/-- The order of two numbers is that of their values. -/
theorem toRat_lt_iff {a b : Word} : toRat a < toRat b ↔ order a < order b := by
  rw [toRat_eq, toRat_eq, div_lt_div_iff_of_pos_right (by positivity), Int.cast_lt,
    orderUnits_strictMono.lt_iff_lt]

theorem toRat_inj_iff {a b : Word} : toRat a = toRat b ↔ order a = order b := by
  rw [toRat_eq, toRat_eq, div_left_inj' (by positivity), Int.cast_inj,
    orderUnits_strictMono.injective.eq_iff]

theorem lt_iff_toRat {a b : Word} (ha : isNaN a = false) (hb : isNaN b = false) :
    lt a b = true ↔ toRat a < toRat b := by
  rw [lt_iff, toRat_lt_iff]
  simp [ha, hb]

theorem eq_iff_toRat {a b : Word} (ha : isNaN a = false) (hb : isNaN b = false) :
    eq a b = true ↔ toRat a = toRat b := by
  rw [toRat_inj_iff]
  simp [eq, ha, hb]

theorem toRat_mono {a b : Word} (h : le a b = true) : toRat a ≤ toRat b := by
  have hle := (le_iff.1 h).2.2
  rwa [← not_lt, toRat_lt_iff, not_lt]

theorem toRat_nonneg {w : Word} (h : le 0 w = true) : 0 ≤ toRat w := by
  have hzero : toRat 0 = 0 := by rw [toRat_eq]; norm_num [order, orderUnits, magnitude, units]
  rw [← hzero]
  exact toRat_mono h

theorem toRat_le_one {w : Word} (h : le w one = true) : toRat w ≤ 1 := by
  have hone : toRat one = 1 := by
    rw [toRat_eq, show orderUnits (order one) = 2 ^ 149 by decide +kernel]
    norm_num
  rw [← hone]
  exact toRat_mono h

end Binary32

namespace Binary16

/-! ## Rounding -/

/-- The nearest natural number, and an even one in the middle. -/
def roundEven (x : ℚ) : ℕ :=
  if 1 / 2 < x - ⌊x⌋₊ ∨ x - ⌊x⌋₊ = 1 / 2 ∧ ⌊x⌋₊ % 2 = 1 then ⌊x⌋₊ + 1 else ⌊x⌋₊

theorem roundEven_le {x : ℚ} {n : ℕ} (h : x ≤ n) : roundEven x ≤ n := by
  have hfloor : ⌊x⌋₊ ≤ n := Nat.floor_le_of_le h
  unfold roundEven
  split_ifs with hup
  · refine Nat.succ_le_of_lt (lt_of_le_of_ne hfloor fun heq => ?_)
    rw [heq] at hup
    rcases hup with hup | ⟨hup, _⟩ <;> linarith
  · exact hfloor

/-- The conversion of a number that is not negative. A number below the least with a
leading one is a multiple of `2 ^ (-24)`. -/
def ofRat (q : ℚ) : Word :=
  let exponent := if q < 2 ^ (-14 : ℤ) then -14 else Int.log 2 q
  UInt32.ofNat (min infinite
    ((exponent + 14).toNat * 2 ^ 10 + roundEven (q * 2 ^ (10 - exponent))))

/-- The magnitudes up to that of one. -/
theorem widen_bounds {m : ℕ} (h : m ≤ 15 * 2 ^ 10) :
    Binary32.le 0 (widen (UInt32.ofNat m)) = true ∧
      Binary32.le (widen (UInt32.ofNat m)) Binary32.one = true := by
  have hhalf : (UInt32.ofNat m).toNat = m := by
    rw [UInt32.toNat_ofNat']
    omega
  have hwidened : widenMagnitude m ≤ 127 * 2 ^ 23 := by
    unfold widenMagnitude infinite
    split_ifs
    · omega
    · omega
    · have := Binary32.bitsOfNat_lt (show m < 2 ^ 24 by omega)
      omega
  have htoNat : (widen (UInt32.ofNat m)).toNat = widenMagnitude m := by
    rw [widen, magnitude, hhalf, show m / 2 ^ 15 % 2 = 0 by omega, Nat.zero_mul, Nat.zero_add,
      show m % 2 ^ 15 = m by omega, UInt32.toNat_ofNat']
    omega
  have hsign : Binary32.isNegative (widen (UInt32.ofNat m)) = false := by
    rw [Binary32.isNegative, htoNat]
    exact decide_eq_false (by omega)
  have hmagnitude : Binary32.magnitude (widen (UInt32.ofNat m)) = widenMagnitude m := by
    rw [Binary32.magnitude, htoNat]
    omega
  have hnan : Binary32.isNaN (widen (UInt32.ofNat m)) = false := by
    rw [Binary32.isNaN, hmagnitude]
    exact decide_eq_false (by unfold Binary32.infinite; omega)
  have horder : Binary32.order (widen (UInt32.ofNat m)) = widenMagnitude m := by
    rw [Binary32.order, hsign, hmagnitude]
    rfl
  have hzero : Binary32.order 0 = 0 := by decide
  have hone : Binary32.order Binary32.one = 127 * 2 ^ 23 := by decide
  refine ⟨Binary32.le_iff.2 ⟨by decide, hnan, ?_⟩, Binary32.le_iff.2 ⟨hnan, by decide, ?_⟩⟩
  · omega
  · omega

/-- A number between zero and one stays there. -/
theorem ofRat_bounds {q : ℚ} (h1 : q ≤ 1) :
    Binary32.le 0 (widen (ofRat q)) = true ∧
      Binary32.le (widen (ofRat q)) Binary32.one = true := by
  refine widen_bounds ((min_le_right _ _).trans ?_)
  split_ifs with hsmall
  · have hround : roundEven (q * 2 ^ (10 - -14 : ℤ)) ≤ 2 ^ 10 := by
      refine roundEven_le ?_
      have hmul := mul_le_mul_of_nonneg_right hsmall.le (show (0 : ℚ) ≤ 2 ^ (24 : ℤ) by positivity)
      norm_num at hmul ⊢
      linarith
    norm_num at hround ⊢
    omega
  · rw [not_lt] at hsmall
    have hpos : 0 < q := lt_of_lt_of_le (by positivity) hsmall
    have hlow : -14 ≤ Int.log 2 q :=
      (Int.zpow_le_iff_le_log (b := 2) (by decide) hpos).1 (by exact_mod_cast hsmall)
    have hhigh : Int.log 2 q ≤ 0 := (Int.log_mono_right hpos h1).trans (Int.log_one_right 2).le
    rcases hhigh.lt_or_eq with hneg | hzero
    · have hround : roundEven (q * 2 ^ (10 - Int.log 2 q)) ≤ 2 ^ 11 := by
        refine roundEven_le ?_
        have hlt := Int.lt_zpow_succ_log_self (b := 2) (by decide) q
        calc q * 2 ^ (10 - Int.log 2 q) ≤ 2 ^ (Int.log 2 q + 1) * 2 ^ (10 - Int.log 2 q) :=
              mul_le_mul_of_nonneg_right (by exact_mod_cast hlt.le) (zpow_nonneg (by norm_num) _)
          _ = 2 ^ (11 : ℤ) := by rw [← zpow_add₀ (by norm_num)]; congr 1; ring
          _ = ((2 ^ 11 : ℕ) : ℚ) := by norm_num
      omega
    · have hround : roundEven (q * 2 ^ (10 - Int.log 2 q)) ≤ 2 ^ 10 := by
        refine roundEven_le ?_
        rw [hzero]
        norm_num
        linarith
      omega

end Binary16

end Npunlock
