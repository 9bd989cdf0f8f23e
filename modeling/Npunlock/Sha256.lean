import Npunlock.Common

/-!
# SHA-256

`npunlock_sha256` as `sha256.c` computes it : a context with the chaining state, the number
of bits of the blocks so far and the bytes of the block that is not full, `sha256Update` for
the loop that fills and transforms blocks, and the padding with the length at the end.
-/

namespace Npunlock

/-- The working variables `a`, …, `h`, and the words `state[0]`, …, `state[7]`. -/
structure Sha256State where
  a : UInt32
  b : UInt32
  c : UInt32
  d : UInt32
  e : UInt32
  f : UInt32
  g : UInt32
  h : UInt32

/-- `sha256_context`. The block holds the first `block_size` bytes. -/
structure Sha256Context where
  state : Sha256State
  bitCount : UInt64
  block : List UInt8

/-- `rotate_right`. -/
def rotateRight (value count : UInt32) : UInt32 :=
  value >>> count ||| value <<< (32 - count)

/-- `load_be32`. -/
def loadBe32 (bytes : List UInt8) (offset : ℕ) : UInt32 :=
  (bytes.getD offset 0).toUInt32 <<< 24 ||| (bytes.getD (offset + 1) 0).toUInt32 <<< 16 |||
    (bytes.getD (offset + 2) 0).toUInt32 <<< 8 ||| (bytes.getD (offset + 3) 0).toUInt32

/-- `store_be32`. -/
def storeBe32 (value : UInt32) : List UInt8 :=
  [(value >>> 24).toUInt8, (value >>> 16).toUInt8, (value >>> 8).toUInt8, value.toUInt8]

/-- `constants` of `sha256_transform`. -/
def sha256Constants : List UInt32 :=
  [0x428a2f98, 0x71374491, 0xb5c0fbcf, 0xe9b5dba5, 0x3956c25b, 0x59f111f1, 0x923f82a4,
    0xab1c5ed5, 0xd807aa98, 0x12835b01, 0x243185be, 0x550c7dc3, 0x72be5d74, 0x80deb1fe,
    0x9bdc06a7, 0xc19bf174, 0xe49b69c1, 0xefbe4786, 0x0fc19dc6, 0x240ca1cc, 0x2de92c6f,
    0x4a7484aa, 0x5cb0a9dc, 0x76f988da, 0x983e5152, 0xa831c66d, 0xb00327c8, 0xbf597fc7,
    0xc6e00bf3, 0xd5a79147, 0x06ca6351, 0x14292967, 0x27b70a85, 0x2e1b2138, 0x4d2c6dfc,
    0x53380d13, 0x650a7354, 0x766a0abb, 0x81c2c92e, 0x92722c85, 0xa2bfe8a1, 0xa81a664b,
    0xc24b8b70, 0xc76c51a3, 0xd192e819, 0xd6990624, 0xf40e3585, 0x106aa070, 0x19a4c116,
    0x1e376c08, 0x2748774c, 0x34b0bcb5, 0x391c0cb3, 0x4ed8aa4a, 0x5b9cca4f, 0x682e6ff3,
    0x748f82ee, 0x78a5636f, 0x84c87814, 0x8cc70208, 0x90befffa, 0xa4506ceb, 0xbef9a3f7,
    0xc67178f2]

/-- The schedule with the word at its end computed from the earlier ones. -/
def extendSchedule (schedule : List UInt32) (index : ℕ) : List UInt32 :=
  let word15 := schedule.getD (index - 15) 0
  let word2 := schedule.getD (index - 2) 0
  let s0 := rotateRight word15 7 ^^^ rotateRight word15 18 ^^^ word15 >>> 3
  let s1 := rotateRight word2 17 ^^^ rotateRight word2 19 ^^^ word2 >>> 10
  schedule ++ [schedule.getD (index - 16) 0 + s0 + schedule.getD (index - 7) 0 + s1]

/-- The 64 words of the message schedule of a block. -/
def sha256Schedule (block : List UInt8) : List UInt32 :=
  (List.range' 16 48).foldl extendSchedule
    ((List.range 16).map fun index => loadBe32 block (index * 4))

/-- One round, with its constant and its word of the schedule. -/
def sha256Round (state : Sha256State) (word : UInt32 × UInt32) : Sha256State :=
  let s1 := rotateRight state.e 6 ^^^ rotateRight state.e 11 ^^^ rotateRight state.e 25
  let choose := (state.e &&& state.f) ^^^ (~~~state.e &&& state.g)
  let temporary1 := state.h + s1 + choose + word.1 + word.2
  let s0 := rotateRight state.a 2 ^^^ rotateRight state.a 13 ^^^ rotateRight state.a 22
  let majority := (state.a &&& state.b) ^^^ (state.a &&& state.c) ^^^ (state.b &&& state.c)
  let temporary2 := s0 + majority
  { a := temporary1 + temporary2, b := state.a, c := state.b, d := state.c,
    e := state.d + temporary1, f := state.e, g := state.f, h := state.g }

/-- `sha256_transform`. -/
def sha256Transform (state : Sha256State) (block : List UInt8) : Sha256State :=
  let last := (sha256Constants.zip (sha256Schedule block)).foldl sha256Round state
  { a := state.a + last.a, b := state.b + last.b, c := state.c + last.c, d := state.d + last.d,
    e := state.e + last.e, f := state.f + last.f, g := state.g + last.g, h := state.h + last.h }

/-- `sha256_update`. A round of the loop takes a byte at least. -/
def sha256Update : ℕ → Sha256Context → List UInt8 → Sha256Context
  | 0, context, _ => context
  | rounds + 1, context, data =>
    if data = [] then context
    else
      let available := 64 - context.block.length
      let block := context.block ++ data.take available
      let context :=
        if block.length = 64 then
          { state := sha256Transform context.state block, bitCount := context.bitCount + 512,
            block := [] }
        else { context with block }
      sha256Update rounds context (data.drop available)

def sha256Initial : Sha256State where
  a := 0x6a09e667
  b := 0xbb67ae85
  c := 0x3c6ef372
  d := 0xa54ff53a
  e := 0x510e527f
  f := 0x9b05688c
  g := 0x1f83d9ab
  h := 0x5be0cd19

/-- The last eight bytes of the last block. -/
def lengthBytes (totalBits : UInt64) : List UInt8 :=
  (List.range 8).map fun index => (totalBits >>> UInt64.ofNat ((7 - index) * 8)).toUInt8

/-- `npunlock_sha256`. -/
def sha256 (source : List UInt8) : List UInt8 :=
  let context := sha256Update source.length ⟨sha256Initial, 0, []⟩ source
  let totalBits := context.bitCount + UInt64.ofNat context.block.length * 8
  let block := context.block ++ [0x80]
  let (state, block) :=
    if 56 < block.length then
      (sha256Transform context.state (block ++ List.replicate (64 - block.length) 0), [])
    else (context.state, block)
  let last := sha256Transform state
    (block ++ List.replicate (56 - block.length) 0 ++ lengthBytes totalBits)
  [last.a, last.b, last.c, last.d, last.e, last.f, last.g, last.h].flatMap storeBe32

end Npunlock
