import Npunlock.Binary32

/-!
# Binary16 words

Half-precision numbers, in the low 16 bits of a word, and the conversions between them and
binary32 numbers. `widen` is exact. `narrow` rounds to the nearest number, to an even one
in the middle, and goes to infinity past the largest. Integers up to `2048` keep their
value (`widen_narrow_ofNat`), so they can be transported in half precision.
-/

namespace Npunlock

namespace Binary16

/-- The bits without the sign. -/
def magnitude (half : Word) : ℕ :=
  half.toNat % 2 ^ 15

/-- The magnitude of an infinity. -/
def infinite : ℕ :=
  31 * 2 ^ 10

/-- The binary32 bits of a magnitude : the exponents differ by 112, the fractions by 13
bits. A number below `2 ^ 10` has no leading one, and stands for a multiple of
`2 ^ (-24)`. -/
def widenMagnitude (m : ℕ) : ℕ :=
  if infinite ≤ m then Binary32.infinite + (m - infinite) * 2 ^ 13
  else if 2 ^ 10 ≤ m then 112 * 2 ^ 23 + m * 2 ^ 13
  else Binary32.bitsOfNat m - 24 * 2 ^ 23

/-- The conversion to binary32. -/
def widen (half : Word) : Word :=
  UInt32.ofNat (half.toNat / 2 ^ 15 % 2 * 2 ^ 31 + widenMagnitude (magnitude half))

/-- The bits of a binary32 magnitude, rounded. -/
def narrowMagnitude (m : ℕ) : ℕ :=
  if Binary32.infinite < m then infinite + max 1 ((m - Binary32.infinite) / 2 ^ 13)
  else if 113 * 2 ^ 23 ≤ m then min infinite (Binary32.roundShift (m - 112 * 2 ^ 23) 13)
  else Binary32.roundShift (2 ^ 23 + m % 2 ^ 23) (126 - m / 2 ^ 23)

/-- The conversion from binary32. -/
def narrow (word : Word) : Word :=
  UInt32.ofNat ((if Binary32.isNegative word then 2 ^ 15 else 0) +
    narrowMagnitude (Binary32.magnitude word))

/-- The conversions keep the integers with at most 11 significant bits. -/
theorem widen_narrow_ofNat : ∀ n < 2049, widen (narrow (Binary32.ofNat n)) = Binary32.ofNat n := by
  decide +kernel

end Binary16

end Npunlock
