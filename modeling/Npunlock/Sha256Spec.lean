import Mathlib.Data.List.GetD
import Npunlock.SecureHash
import Npunlock.Sha256

/-!
# The digest is the standard's

`sha256` computes the SHA-256 digest of the standard for every string of less than `2⁶¹`
bytes (`sha256_eq_digest`). The bits of a block determine the words of its schedule
(`getD_sha256Schedule`), and a round is a round of the standard (`value_sha256Round`), so a
block is compressed as the standard has it. The buffering of `sha256Update` only splits the
string into blocks (`Absorbs`), and the two ways the last block is filled both append the
padding of the standard.
-/

namespace Npunlock

open SecureHash (wordAt schedule compress hashBlocks)

/-! ## Bits of bytes -/

/-- The bits of a byte, the highest bit first. -/
def byteBits (byte : UInt8) : List Bool :=
  (List.range 8).map fun i => byte.toNat.testBit (7 - i)

/-- The bits of a string of bytes. -/
def bitsOf (bytes : List UInt8) : List Bool :=
  bytes.flatMap byteBits

@[simp] theorem length_byteBits (byte : UInt8) : (byteBits byte).length = 8 := by
  simp [byteBits]

@[simp] theorem bitsOf_append (l r : List UInt8) : bitsOf (l ++ r) = bitsOf l ++ bitsOf r :=
  List.flatMap_append

@[simp] theorem bitsOf_nil : bitsOf [] = [] :=
  rfl

@[simp] theorem bitsOf_cons (byte : UInt8) (bytes : List UInt8) :
    bitsOf (byte :: bytes) = byteBits byte ++ bitsOf bytes :=
  rfl

@[simp] theorem length_bitsOf (bytes : List UInt8) : (bitsOf bytes).length = 8 * bytes.length := by
  induction bytes with
  | nil => rfl
  | cons byte bytes ih =>
    simp [ih]
    omega

theorem drop_bitsOf : ∀ (n : ℕ) (bytes : List UInt8),
    (bitsOf bytes).drop (8 * n) = bitsOf (bytes.drop n)
  | 0, bytes => rfl
  | n + 1, [] => by simp
  | n + 1, byte :: bytes => by
    rw [bitsOf_cons, show 8 * (n + 1) = (byteBits byte).length + 8 * n by simp; omega,
      List.drop_length_add_append, drop_bitsOf n bytes, List.drop_succ_cons]

theorem take_bitsOf : ∀ (n : ℕ) (bytes : List UInt8),
    (bitsOf bytes).take (8 * n) = bitsOf (bytes.take n)
  | 0, bytes => rfl
  | n + 1, [] => by simp
  | n + 1, byte :: bytes => by
    rw [bitsOf_cons, show 8 * (n + 1) = (byteBits byte).length + 8 * n by simp; omega,
      List.take_length_add_append, take_bitsOf n bytes, List.take_succ_cons, bitsOf_cons]

/-- The bits of a byte, read as a number. -/
theorem foldl_byteBits (byte : UInt8) (n : ℕ) :
    (byteBits byte).foldl (fun n bit => 2 * n + bit.toNat) n = 256 * n + byte.toNat := by
  have hlt := byte.toNat_lt
  simp [byteBits, List.range_succ, Nat.toNat_testBit, -Nat.testBit_zero]
  omega

/-! ## Words -/

theorem toNat_shiftLeft_byte (byte : UInt8) {count : UInt32} (h : count.toNat ≤ 24) :
    (byte.toUInt32 <<< count).toNat = byte.toNat * 2 ^ count.toNat := by
  have hpow : 2 ^ count.toNat ≤ 2 ^ 24 := Nat.pow_le_pow_right (by omega) h
  have hlt : byte.toNat * 2 ^ count.toNat < 2 ^ 32 :=
    calc byte.toNat * 2 ^ count.toNat ≤ byte.toNat * 2 ^ 24 := Nat.mul_le_mul_left _ hpow
      _ < 2 ^ 32 := by have := byte.toNat_lt; omega
  have hmod : count.toNat % 32 = count.toNat := by omega
  rw [UInt32.toNat_shiftLeft, UInt8.toNat_toUInt32, hmod, Nat.shiftLeft_eq, Nat.mod_eq_of_lt hlt]

theorem toNat_loadBe32 (bytes : List UInt8) (offset : ℕ) :
    (loadBe32 bytes offset).toNat =
      256 * (256 * (256 * (bytes.getD offset 0).toNat + (bytes.getD (offset + 1) 0).toNat) +
        (bytes.getD (offset + 2) 0).toNat) + (bytes.getD (offset + 3) 0).toNat := by
  unfold loadBe32
  generalize bytes.getD offset 0 = b0
  generalize bytes.getD (offset + 1) 0 = b1
  generalize bytes.getD (offset + 2) 0 = b2
  generalize bytes.getD (offset + 3) 0 = b3
  have h1 := b1.toNat_lt
  have h2 := b2.toNat_lt
  have h3 := b3.toNat_lt
  have hlow : b2.toNat * 2 ^ 8 ||| b3.toNat = b2.toNat * 2 ^ 8 + b3.toNat := by
    rw [← Nat.shiftLeft_eq, Nat.shiftLeft_add_eq_or_of_lt h3]
  have hmiddle : b1.toNat * 2 ^ 16 ||| (b2.toNat * 2 ^ 8 + b3.toNat) =
      b1.toNat * 2 ^ 16 + (b2.toNat * 2 ^ 8 + b3.toNat) := by
    rw [← Nat.shiftLeft_eq b1.toNat, Nat.shiftLeft_add_eq_or_of_lt (by omega)]
  have hhigh : b0.toNat * 2 ^ 24 ||| (b1.toNat * 2 ^ 16 + (b2.toNat * 2 ^ 8 + b3.toNat)) =
      b0.toNat * 2 ^ 24 + (b1.toNat * 2 ^ 16 + (b2.toNat * 2 ^ 8 + b3.toNat)) := by
    rw [← Nat.shiftLeft_eq b0.toNat, Nat.shiftLeft_add_eq_or_of_lt (by omega)]
  have hcounts : (24 : UInt32).toNat = 24 ∧ (16 : UInt32).toNat = 16 ∧ (8 : UInt32).toNat = 8 := by
    decide
  rw [UInt32.toNat_or, UInt32.toNat_or, UInt32.toNat_or, toNat_shiftLeft_byte b0 (by omega),
    toNat_shiftLeft_byte b1 (by omega), toNat_shiftLeft_byte b2 (by omega), hcounts.1,
    hcounts.2.1, hcounts.2.2, UInt8.toNat_toUInt32, Nat.or_assoc, Nat.or_assoc, hlow, hmiddle,
    hhigh]
  omega

/-- The word that is loaded is the word in the bits of its bytes. -/
theorem wordAt_bitsOf {bytes : List UInt8} {offset : ℕ} (h : offset + 4 ≤ bytes.length) :
    wordAt (bitsOf bytes) (8 * offset) = (loadBe32 bytes offset).toBitVec := by
  have hfour : (bytes.drop offset).take 4 = [bytes.getD offset 0, bytes.getD (offset + 1) 0,
      bytes.getD (offset + 2) 0, bytes.getD (offset + 3) 0] := by
    rw [List.drop_eq_getElem_cons (by omega), List.drop_eq_getElem_cons (by omega),
      List.drop_eq_getElem_cons (by omega), List.drop_eq_getElem_cons (by omega)]
    simp only [List.take_succ_cons, List.take_zero, List.getD_eq_getElem?_getD]
    rw [List.getElem?_eq_getElem (by omega), List.getElem?_eq_getElem (by omega),
      List.getElem?_eq_getElem (by omega), List.getElem?_eq_getElem (by omega)]
    rfl
  have hbits : ((bitsOf bytes).drop (8 * offset)).take 32 =
      bitsOf ((bytes.drop offset).take 4) := by
    rw [drop_bitsOf, show 32 = 8 * 4 by rfl, take_bitsOf]
  rw [wordAt, hbits, hfour]
  simp only [bitsOf_cons, bitsOf_nil, List.append_nil, List.foldl_append, foldl_byteBits]
  rw [Nat.mul_zero, Nat.zero_add, ← toNat_loadBe32]
  simp

/-- A rotation of the standard. -/
theorem toBitVec_rotateRight (value : UInt32) {count : UInt32} (hpos : 0 < count.toNat)
    (hlt : count.toNat < 32) :
    (rotateRight value count).toBitVec = value.toBitVec.rotateRight count.toNat := by
  have hmod : (4294967296 - count.toNat) % 32 = 32 - count.toNat % 32 := by omega
  ext i hi
  simp [rotateRight, BitVec.rotateRight_def, hmod]

/-! ## Blocks -/

/-- The words of a state, as a hash value. -/
def Sha256State.value (state : Sha256State) : SecureHash.Value where
  a := state.a.toBitVec
  b := state.b.toBitVec
  c := state.c.toBitVec
  d := state.d.toBitVec
  e := state.e.toBitVec
  f := state.f.toBitVec
  g := state.g.toBitVec
  h := state.h.toBitVec

theorem sha256Constants_eq :
    sha256Constants.map UInt32.toBitVec = SecureHash.constants := by
  decide +kernel

theorem value_sha256Initial : sha256Initial.value = SecureHash.initial := by
  ext1 <;> decide +kernel

/-- A round of the standard. -/
theorem value_sha256Round (state : Sha256State) (k w : UInt32) :
    (sha256Round state (k, w)).value =
      SecureHash.round state.value k.toBitVec w.toBitVec := by
  ext1 <;>
    simp [sha256Round, SecureHash.round, Sha256State.value, SecureHash.bigSigma0,
      SecureHash.bigSigma1, SecureHash.choose, SecureHash.majority, toBitVec_rotateRight]

/-- The words of a schedule, as far as it is computed. -/
structure Schedules (block : List UInt8) (count : ℕ) (words : List UInt32) : Prop where
  length_eq : words.length = count
  getD_eq : ∀ t < count, (words.getD t 0).toBitVec = schedule (bitsOf block) t

theorem schedules_extendSchedule {block : List UInt8} {count : ℕ} {words : List UInt32}
    (h : Schedules block count words) (hcount : 16 ≤ count) :
    Schedules block (count + 1) (extendSchedule words count) := by
  refine ⟨by simp [extendSchedule, h.length_eq], fun t ht => ?_⟩
  unfold extendSchedule
  by_cases hlast : t = count
  · rw [hlast, List.getD_append_right _ _ _ _ h.length_eq.le, h.length_eq,
      SecureHash.schedule_of_le hcount, ← h.getD_eq (count - 2) (by omega),
      ← h.getD_eq (count - 7) (by omega), ← h.getD_eq (count - 15) (by omega),
      ← h.getD_eq (count - 16) (by omega)]
    simp [SecureHash.smallSigma0, SecureHash.smallSigma1, toBitVec_rotateRight]
    ac_rfl
  · have hlt : t < words.length := by have := h.length_eq; omega
    rw [List.getD_append _ _ _ _ hlt, h.getD_eq t (by omega)]

theorem schedules_sha256Schedule {block : List UInt8} (h : block.length = 64) :
    Schedules block 64 (sha256Schedule block) := by
  have hextend : ∀ (n : ℕ) {words : List UInt32}, Schedules block 16 words →
      Schedules block (16 + n) ((List.range' 16 n).foldl extendSchedule words) := by
    intro n words hwords
    induction n with
    | zero => exact hwords
    | succ n ih =>
      rw [List.range'_concat, List.foldl_append, Nat.one_mul]
      exact schedules_extendSchedule ih (Nat.le_add_right 16 n)
  refine hextend 48 ⟨by simp, fun t ht => ?_⟩
  rw [SecureHash.schedule_of_lt ht, show 32 * t = 8 * (t * 4) by omega,
    wordAt_bitsOf (by omega)]
  simp [List.getD, ht]

/-- Two lists of one length, paired, by position. -/
theorem zip_eq_map_range {α β : Type} (a : α) (b : β) : ∀ {l : List α} {r : List β},
    l.length = r.length → l.zip r = (List.range l.length).map fun t => (l.getD t a, r.getD t b)
  | [], _, _ => rfl
  | x :: l, y :: r, h => by
    rw [List.zip_cons_cons, zip_eq_map_range a b (Nat.succ.inj h), List.length_cons,
      List.range_succ_eq_map, List.map_cons, List.map_map]
    rfl

/-- The block is compressed as the standard has it. -/
theorem value_sha256Transform (state : Sha256State) {block : List UInt8}
    (h : block.length = 64) :
    (sha256Transform state block).value = compress state.value (bitsOf block) := by
  have hschedule := schedules_sha256Schedule h
  have hconstants : ∀ t, (sha256Constants.getD t 0).toBitVec = SecureHash.constants.getD t 0 := by
    intro t
    rw [← sha256Constants_eq]
    simp [List.getD]
  have hzip : sha256Constants.zip (sha256Schedule block) = (List.range 64).map fun t =>
      (sha256Constants.getD t 0, (sha256Schedule block).getD t 0) :=
    zip_eq_map_range 0 0 hschedule.length_eq.symm
  have hrounds : ∀ (l : List ℕ) (state : Sha256State), (∀ t ∈ l, t < 64) →
      (l.foldl (fun state t => sha256Round state
        (sha256Constants.getD t 0, (sha256Schedule block).getD t 0)) state).value =
      l.foldl (fun v t => SecureHash.round v (SecureHash.constants.getD t 0)
        (schedule (bitsOf block) t)) state.value := by
    intro l
    induction l with
    | nil => exact fun _ _ => rfl
    | cons t l ih =>
      intro state hl
      obtain ⟨ht, hl⟩ := List.forall_mem_cons.1 hl
      rw [List.foldl_cons, List.foldl_cons, ih _ hl, value_sha256Round, hconstants,
        hschedule.getD_eq t ht]
  have hlast := hrounds (List.range 64) state fun t ht => List.mem_range.1 ht
  unfold sha256Transform compress
  rw [hzip, List.foldl_map, ← hlast]
  ext1 <;> simp [Sha256State.value, BitVec.add_comm]

/-- The blocks at the start of a message are compressed in turn. -/
theorem hashBlocks_flatten : ∀ {blocks : List (List UInt8)} (state : Sha256State)
    (rest : List Bool), (∀ block ∈ blocks, block.length = 64) →
      hashBlocks state.value (bitsOf blocks.flatten ++ rest) =
        hashBlocks (blocks.foldl sha256Transform state).value rest
  | [], _, _, _ => rfl
  | block :: blocks, state, rest, h => by
    obtain ⟨hblock, hblocks⟩ := List.forall_mem_cons.1 h
    rw [List.flatten_cons, bitsOf_append, List.append_assoc,
      SecureHash.hashBlocks_append (by simp [hblock]), ← value_sha256Transform state hblock,
      hashBlocks_flatten _ rest hblocks, List.foldl_cons]

/-! ## Buffering -/

/-- Bytes that follow a context are split into blocks, which are transformed, and a rest. -/
structure Absorbs (context : Sha256Context) (data : List UInt8) (blocks : List (List UInt8))
    (result : Sha256Context) : Prop where
  bytes : context.block ++ data = blocks.flatten ++ result.block
  full : ∀ block ∈ blocks, block.length = 64
  rest : result.block.length < 64
  state : result.state = blocks.foldl sha256Transform context.state
  bitCount : result.bitCount = context.bitCount + UInt64.ofNat (512 * blocks.length)

theorem Absorbs.trans {first second third : Sha256Context} {l r : List UInt8}
    {blocks more : List (List UInt8)} (h : Absorbs first l blocks second)
    (h' : Absorbs second r more third) : Absorbs first (l ++ r) (blocks ++ more) third where
  bytes := by
    rw [← List.append_assoc, h.bytes, List.append_assoc, h'.bytes, List.flatten_append,
      List.append_assoc]
  full := List.forall_mem_append.2 ⟨h.full, h'.full⟩
  rest := h'.rest
  state := by rw [h'.state, h.state, List.foldl_append]
  bitCount := by
    rw [h'.bitCount, h.bitCount, List.length_append, Nat.mul_add, UInt64.ofNat_add,
      UInt64.add_assoc]

/-- The context after as many bytes as fit its block. -/
def Sha256Context.fill (context : Sha256Context) (data : List UInt8) : Sha256Context :=
  if (context.block ++ data).length = 64 then
    { state := sha256Transform context.state (context.block ++ data),
      bitCount := context.bitCount + 512, block := [] }
  else { context with block := context.block ++ data }

theorem exists_absorbs_fill {context : Sha256Context} {data : List UInt8}
    (h : (context.block ++ data).length ≤ 64) :
    ∃ blocks, Absorbs context data blocks (context.fill data) := by
  unfold Sha256Context.fill
  split_ifs with hfull
  · exact ⟨[context.block ++ data], by simp, by simpa using hfull, by simp, by simp, by simp⟩
  · exact ⟨[], by simp, by simp, by dsimp only; omega, by simp, by simp⟩

/-- Every byte of the data is absorbed. -/
theorem exists_absorbs : ∀ {rounds : ℕ} {context : Sha256Context} {data : List UInt8},
    data.length ≤ rounds → context.block.length < 64 →
      ∃ blocks, Absorbs context data blocks (sha256Update rounds context data)
  | 0, context, data, hdata, hblock => by
    obtain rfl := List.length_eq_zero_iff.1 (Nat.le_zero.1 hdata)
    exact ⟨[], by simp [sha256Update], by simp, hblock, rfl, by simp [sha256Update]⟩
  | rounds + 1, context, data, hdata, hblock => by
    by_cases hempty : data = []
    · rw [sha256Update, if_pos hempty]
      exact ⟨[], by simp [hempty], by simp, hblock, rfl, by simp⟩
    · have hupdate : sha256Update (rounds + 1) context data =
          sha256Update rounds (context.fill (data.take (64 - context.block.length)))
            (data.drop (64 - context.block.length)) := by
        rw [sha256Update, if_neg hempty, Sha256Context.fill]
      have hpos : data.length ≠ 0 := fun h => hempty (List.length_eq_zero_iff.1 h)
      obtain ⟨blocks, h⟩ := exists_absorbs_fill (show
        (context.block ++ data.take (64 - context.block.length)).length ≤ 64 by simp; omega)
      obtain ⟨more, h'⟩ := exists_absorbs (show
        (data.drop (64 - context.block.length)).length ≤ rounds by simp; omega) h.rest
      have htrans := h.trans h'
      rw [List.take_append_drop, ← hupdate] at htrans
      exact ⟨_, htrans⟩

/-! ## Padding -/

theorem testBit_mod_256 (n : ℕ) {i : ℕ} (h : i < 8) : (n % 256).testBit i = n.testBit i := by
  rw [show 256 = 2 ^ 8 by rfl, Nat.testBit_mod_two_pow]
  simp [h]

/-- The length in bytes is the length in bits. -/
theorem bitsOf_lengthBytes (totalBits : UInt64) :
    bitsOf (lengthBytes totalBits) = SecureHash.lengthBits totalBits.toNat := by
  simp [bitsOf, lengthBytes, byteBits, SecureHash.lengthBits, List.range_succ, testBit_mod_256,
    -Nat.testBit_zero]

theorem bitsOf_storeBe32 (value : UInt32) :
    bitsOf (storeBe32 value) = SecureHash.wordBits value.toBitVec := by
  simp [bitsOf, storeBe32, byteBits, SecureHash.wordBits, List.range_succ, testBit_mod_256,
    BitVec.getMsbD, BitVec.getElem_eq_testBit_toNat, -Nat.testBit_zero]

theorem bitsOf_replicate_zero (n : ℕ) :
    bitsOf (List.replicate n 0) = List.replicate (8 * n) false := by
  induction n with
  | zero => rfl
  | succ n ih =>
    rw [List.replicate_succ, bitsOf_cons, ih, Nat.mul_succ, Nat.add_comm, List.replicate_add]
    rfl

/-- The padding of a string of bytes, in bytes. -/
theorem pad_bitsOf {source : List UInt8} {zeros : ℕ} {totalBits : UInt64}
    (hzeros : SecureHash.zeroCount (8 * source.length) = 7 + 8 * zeros)
    (hbits : totalBits.toNat = 8 * source.length) :
    SecureHash.pad (bitsOf source) =
      bitsOf (source ++ [0x80] ++ List.replicate zeros 0 ++ lengthBytes totalBits) := by
  have hone : bitsOf [0x80] = true :: List.replicate 7 false := by decide
  rw [SecureHash.pad, length_bitsOf, hzeros, bitsOf_append, bitsOf_append, bitsOf_append,
    bitsOf_lengthBytes, hbits, bitsOf_replicate_zero, hone, List.replicate_add]
  simp

/-- The hash value after the blocks of a string. -/
theorem hashBlocks_bitsOf {bytes : List UInt8} {blocks : List (List UInt8)}
    (hbytes : bytes = blocks.flatten) (hfull : ∀ block ∈ blocks, block.length = 64) :
    hashBlocks SecureHash.initial (bitsOf bytes) =
      (blocks.foldl sha256Transform sha256Initial).value := by
  have h := hashBlocks_flatten sha256Initial [] hfull
  rwa [List.append_nil, SecureHash.hashBlocks_nil, ← hbytes, value_sha256Initial] at h

theorem bits_value (state : Sha256State) :
    state.value.bits = bitsOf ([state.a, state.b, state.c, state.d, state.e, state.f, state.g,
      state.h].flatMap storeBe32) := by
  simp [SecureHash.Value.bits, Sha256State.value, bitsOf_storeBe32]

theorem length_flatten_of_full : ∀ {blocks : List (List UInt8)},
    (∀ block ∈ blocks, block.length = 64) → blocks.flatten.length = 64 * blocks.length
  | [], _ => rfl
  | block :: blocks, h => by
    obtain ⟨hblock, hblocks⟩ := List.forall_mem_cons.1 h
    simp only [List.flatten_cons, List.length_append, hblock, length_flatten_of_full hblocks,
      List.length_cons]
    omega

/-- The digest of the bytes is the digest of their bits, for every length that fits the
length at the end. -/
theorem sha256_eq_digest (source : List UInt8) (h : source.length < 2 ^ 61) :
    bitsOf (sha256 source) = SecureHash.digest (bitsOf source) := by
  obtain ⟨blocks, habsorbs⟩ := exists_absorbs source.length.le_refl
    (show (⟨sha256Initial, 0, []⟩ : Sha256Context).block.length < 64 by simp)
  unfold sha256
  generalize sha256Update source.length ⟨sha256Initial, 0, []⟩ source = context at habsorbs ⊢
  obtain ⟨state, bitCount, block⟩ := context
  have hbytes : source = blocks.flatten ++ block := by simpa using habsorbs.bytes
  have hrest : block.length < 64 := habsorbs.rest
  have hstate : state = blocks.foldl sha256Transform sha256Initial := habsorbs.state
  have hlength : source.length = 64 * blocks.length + block.length := by
    rw [hbytes, List.length_append, length_flatten_of_full habsorbs.full]
  have hbits : (bitCount + UInt64.ofNat block.length * 8).toNat = 8 * source.length := by
    have hcount : bitCount = UInt64.ofNat (512 * blocks.length) := by simpa using habsorbs.bitCount
    rw [hcount]
    simp
    omega
  dsimp only
  generalize bitCount + UInt64.ofNat block.length * 8 = totalBits at hbits ⊢
  have hsize : (lengthBytes totalBits).length = 8 := by simp [lengthBytes]
  split_ifs with hlong
  · -- The length does not fit the block of the one bit.
    have hzeros : SecureHash.zeroCount (8 * source.length) = 7 + 8 * (119 - block.length) := by
      simp at hlong
      unfold SecureHash.zeroCount
      omega
    have hflatten : source ++ [0x80] ++ List.replicate (119 - block.length) 0 ++
        lengthBytes totalBits = (blocks ++ [block ++ [0x80] ++ List.replicate (63 - block.length) 0,
          List.replicate 56 0 ++ lengthBytes totalBits]).flatten := by
      rw [hbytes, show 119 - block.length = (63 - block.length) + 56 by simp at hlong; omega,
        List.replicate_add]
      simp
    have hfull : ∀ b ∈ blocks ++ [block ++ [0x80] ++ List.replicate (63 - block.length) 0,
        List.replicate 56 0 ++ lengthBytes totalBits], b.length = 64 := by
      refine List.forall_mem_append.2 ⟨habsorbs.full, ?_⟩
      simp [hsize]
      omega
    rw [SecureHash.digest, pad_bitsOf hzeros hbits, hashBlocks_bitsOf hflatten hfull, bits_value,
      List.foldl_append, ← hstate]
    simp
  · have hzeros : SecureHash.zeroCount (8 * source.length) = 7 + 8 * (55 - block.length) := by
      simp at hlong
      unfold SecureHash.zeroCount
      omega
    have hflatten : source ++ [0x80] ++ List.replicate (55 - block.length) 0 ++
        lengthBytes totalBits = (blocks ++
          [block ++ [0x80] ++ List.replicate (55 - block.length) 0 ++
            lengthBytes totalBits]).flatten := by
      rw [hbytes]
      simp
    have hfull : ∀ b ∈ blocks ++ [block ++ [0x80] ++ List.replicate (55 - block.length) 0 ++
        lengthBytes totalBits], b.length = 64 := by
      refine List.forall_mem_append.2 ⟨habsorbs.full, ?_⟩
      simp at hlong
      simp [hsize]
      omega
    rw [SecureHash.digest, pad_bitsOf hzeros hbits, hashBlocks_bitsOf hflatten hfull, bits_value,
      List.foldl_append, ← hstate]
    simp

/-- The digest of `abc`. -/
theorem sha256_abc : bitsOf (sha256 (ascii "abc")) = SecureHash.digest (bitsOf (ascii "abc")) ∧
    sha256 (ascii "abc") =
      [0xba, 0x78, 0x16, 0xbf, 0x8f, 0x01, 0xcf, 0xea, 0x41, 0x41, 0x40, 0xde, 0x5d, 0xae, 0x22,
        0x23, 0xb0, 0x03, 0x61, 0xa3, 0x96, 0x17, 0x7a, 0x9c, 0xb4, 0x10, 0xff, 0x61, 0xf2, 0x00,
        0x15, 0xad] :=
  ⟨sha256_eq_digest _ (by decide +kernel), by decide +kernel⟩

end Npunlock
