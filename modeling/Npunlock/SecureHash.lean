import Mathlib.Data.BitVec
import Mathlib.Data.Nat.NthRoot.Defs
import Mathlib.Data.Nat.Prime.Defs
import Mathlib.Tactic.NormNum

/-!
# The secure hash standard

SHA-256 of a message of bits : the message is padded to whole blocks (`pad`), every block is
read as sixteen words and expanded to the words of the message schedule (`schedule`), and the
blocks are compressed into the hash value in turn (`hashBlocks`). The constants are fractional
parts of roots of the first primes.

Blocks of a padded message are split off one by one by `hashBlocks_append`.
-/

namespace Npunlock

namespace SecureHash

/-! ## Functions and constants -/

/-- `Ch`. -/
def choose (x y z : BitVec 32) : BitVec 32 :=
  (x &&& y) ^^^ (~~~x &&& z)

/-- `Maj`. -/
def majority (x y z : BitVec 32) : BitVec 32 :=
  (x &&& y) ^^^ (x &&& z) ^^^ (y &&& z)

/-- `Σ₀`. -/
def bigSigma0 (x : BitVec 32) : BitVec 32 :=
  x.rotateRight 2 ^^^ x.rotateRight 13 ^^^ x.rotateRight 22

/-- `Σ₁`. -/
def bigSigma1 (x : BitVec 32) : BitVec 32 :=
  x.rotateRight 6 ^^^ x.rotateRight 11 ^^^ x.rotateRight 25

/-- `σ₀`. -/
def smallSigma0 (x : BitVec 32) : BitVec 32 :=
  x.rotateRight 7 ^^^ x.rotateRight 18 ^^^ x >>> 3

/-- `σ₁`. -/
def smallSigma1 (x : BitVec 32) : BitVec 32 :=
  x.rotateRight 17 ^^^ x.rotateRight 19 ^^^ x >>> 10

/-- The first 32 bits of the fractional part of a root. -/
def rootFraction (degree n : ℕ) : BitVec 32 :=
  BitVec.ofNat 32 (Nat.nthRoot degree (n * 2 ^ (32 * degree)))

/-- The first 64 primes. -/
def primes : List ℕ :=
  (List.range 312).filter fun n => decide (Nat.Prime n)

/-- `K` : the cube roots of the first 64 primes. -/
def constants : List (BitVec 32) :=
  primes.map (rootFraction 3)

/-- The words `a`, …, `h`, and the words of a hash value. -/
@[ext] structure Value where
  a : BitVec 32
  b : BitVec 32
  c : BitVec 32
  d : BitVec 32
  e : BitVec 32
  f : BitVec 32
  g : BitVec 32
  h : BitVec 32

/-- The initial hash value : the square roots of the first eight primes. -/
def initial : Value where
  a := rootFraction 2 2
  b := rootFraction 2 3
  c := rootFraction 2 5
  d := rootFraction 2 7
  e := rootFraction 2 11
  f := rootFraction 2 13
  g := rootFraction 2 17
  h := rootFraction 2 19

/-! ## Padding -/

/-- The number of zero bits between the one bit and the length. -/
def zeroCount (length : ℕ) : ℕ :=
  (959 - length % 512) % 512

/-- A number in 64 bits, the highest bit first. -/
def lengthBits (length : ℕ) : List Bool :=
  (List.range 64).map fun i => length.testBit (63 - i)

/-- The padded message. -/
def pad (message : List Bool) : List Bool :=
  message ++ [true] ++ List.replicate (zeroCount message.length) false ++
    lengthBits message.length

/-! ## Compression -/

/-- The word in the 32 bits at `offset`, the highest bit first. -/
def wordAt (bits : List Bool) (offset : ℕ) : BitVec 32 :=
  BitVec.ofNat 32 (((bits.drop offset).take 32).foldl (fun word bit => 2 * word + bit.toNat) 0)

/-- The words `W` of the message schedule. -/
def schedule (block : List Bool) (t : ℕ) : BitVec 32 :=
  if t < 16 then wordAt block (32 * t)
  else smallSigma1 (schedule block (t - 2)) + schedule block (t - 7) +
    smallSigma0 (schedule block (t - 15)) + schedule block (t - 16)
termination_by t

theorem schedule_of_lt {block : List Bool} {t : ℕ} (h : t < 16) :
    schedule block t = wordAt block (32 * t) := by
  rw [schedule, if_pos h]

theorem schedule_of_le {block : List Bool} {t : ℕ} (h : 16 ≤ t) :
    schedule block t = smallSigma1 (schedule block (t - 2)) + schedule block (t - 7) +
      smallSigma0 (schedule block (t - 15)) + schedule block (t - 16) := by
  rw [schedule, if_neg (by omega)]

/-- One round, with its constant and its word of the schedule. -/
def round (v : Value) (k w : BitVec 32) : Value :=
  let temporary1 := v.h + bigSigma1 v.e + choose v.e v.f v.g + k + w
  let temporary2 := bigSigma0 v.a + majority v.a v.b v.c
  { a := temporary1 + temporary2, b := v.a, c := v.b, d := v.c,
    e := v.d + temporary1, f := v.e, g := v.f, h := v.g }

/-- The next hash value. -/
def compress (v : Value) (block : List Bool) : Value :=
  let last := (List.range 64).foldl
    (fun v t => round v (constants.getD t 0) (schedule block t)) v
  { a := last.a + v.a, b := last.b + v.b, c := last.c + v.c, d := last.d + v.d,
    e := last.e + v.e, f := last.f + v.f, g := last.g + v.g, h := last.h + v.h }

/-- The blocks of a padded message. -/
def blocks (bits : List Bool) : List (List Bool) :=
  (List.range (bits.length / 512)).map fun i => (bits.drop (512 * i)).take 512

/-- The hash value after a list of blocks. -/
def hashBlocks (v : Value) (bits : List Bool) : Value :=
  (blocks bits).foldl compress v

theorem blocks_append {block rest : List Bool} (h : block.length = 512) :
    blocks (block ++ rest) = block :: blocks rest := by
  have hcount : (block ++ rest).length / 512 = rest.length / 512 + 1 := by
    rw [List.length_append, h]
    omega
  rw [blocks, hcount, List.range_succ_eq_map, List.map_cons, List.map_map, blocks]
  congr 1
  · simp [← h]
  · refine List.map_congr_left fun i _ => ?_
    rw [Function.comp_apply, show 512 * i.succ = block.length + 512 * i by omega,
      List.drop_length_add_append]

/-- A block at the start of a message is compressed first. -/
theorem hashBlocks_append {v : Value} {block rest : List Bool} (h : block.length = 512) :
    hashBlocks v (block ++ rest) = hashBlocks (compress v block) rest := by
  rw [hashBlocks, blocks_append h, List.foldl_cons, hashBlocks]

@[simp] theorem hashBlocks_nil (v : Value) : hashBlocks v [] = v :=
  rfl

/-! ## The digest -/

/-- The bits of a word, the highest bit first. -/
def wordBits (word : BitVec 32) : List Bool :=
  (List.range 32).map word.getMsbD

/-- The bits of a hash value. -/
def Value.bits (v : Value) : List Bool :=
  [v.a, v.b, v.c, v.d, v.e, v.f, v.g, v.h].flatMap wordBits

/-- SHA-256. -/
def digest (message : List Bool) : List Bool :=
  (hashBlocks initial (pad message)).bits

end SecureHash

end Npunlock
