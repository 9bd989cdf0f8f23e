import Mathlib.Data.Int.Notation
import Npunlock.Bytes
import Npunlock.Loop

/-!
# Views, statuses and checked sizes

The common layer under the graph code : `npunlock_view`, `npunlock_status` with its
diagnostic, and the checked `size_t` arithmetic. `size_t` is 64 bits wide, so
`u64_to_size` is the identity and is not modelled.

A `Failure` is what a function ends in when it does not return OK. Two kinds of it
have no counterpart in the source : `outOfBounds` for a read that leaves its view, and
`wrapped` for an unchecked size computation that leaves `size_t`. The C code would go
on there with an undefined or a wrapped value. `Failure.IsFault` names the two, and a
function is safe if it meets a specification with no fault.
-/

namespace Npunlock

/-- `SIZE_MAX`. -/
def sizeMax : ℕ := 2 ^ 64 - 1

/-- `UINT32_MAX`. -/
def uint32Max : ℕ := 2 ^ 32 - 1

/-- `UINT64_MAX`. -/
def uint64Max : ℕ := 2 ^ 64 - 1

/-- `INT64_MAX`. -/
def int64Max : ℕ := 2 ^ 63 - 1

/-- The statuses of `npunlock_status`, other than OK, that graph functions return. -/
inductive Status
  | invalidArgument
  | outOfMemory
  | overflow
  | malformedInput
  | unsupported
  | internalError
  deriving DecidableEq

/-- What `npunlock_set_diagnostic` records. -/
structure Diagnostic where
  status : Status
  stage : String
  message : String
  deriving DecidableEq

/-- How a graph function ends when it does not return OK. -/
inductive Failure
  | error (status : Status) (diagnostic : Diagnostic)
  | outOfBounds
  | wrapped
  deriving DecidableEq

/-- The failures that the source has no status for. -/
def Failure.IsFault : Failure → Prop
  | .error _ _ => False
  | .outOfBounds => True
  | .wrapped => True

abbrev Result := Except Failure

/-- `return npunlock_set_diagnostic(diagnostic, status, stage, message)`. -/
def setDiagnostic (status : Status) (stage message : String) : Failure :=
  .error status ⟨status, stage, message⟩

def malformed (message : String) : Failure :=
  setDiagnostic .malformedInput "patchblob.parse_graph" message

def unsupported (message : String) : Failure :=
  setDiagnostic .unsupported "patchblob.validate_contract" message

@[simp] theorem not_isFault_setDiagnostic (status : Status) (stage message : String) :
    ¬(setDiagnostic status stage message).IsFault :=
  not_false

@[simp] theorem not_isFault_malformed (message : String) : ¬(malformed message).IsFault :=
  not_false

@[simp] theorem not_isFault_unsupported (message : String) : ¬(unsupported message).IsFault :=
  not_false

@[simp] theorem not_isFault_error (status : Status) (diagnostic : Diagnostic) :
    ¬(Failure.error status diagnostic).IsFault :=
  not_false

/-- The failure that a computation ended in. -/
def failureOf {α : Type} : Result α → Option Failure
  | .ok _ => none
  | .error e => some e

/-- A computation that reaches no fault and ends in a value of `P` if in one. -/
abbrev Safe {α : Type} (x : Result α) (P : α → Prop) : Prop :=
  Meets Failure.IsFault x P

/-! ## Checked sizes -/

/-- `npunlock_checked_add_size`. -/
def checkedAddSize (left right : ℕ) : Option ℕ :=
  if sizeMax < left + right then none else some (left + right)

/-- `npunlock_checked_mul_size`. -/
def checkedMulSize (left right : ℕ) : Option ℕ :=
  if sizeMax < left * right then none else some (left * right)

/-- An addition of sizes that the source does not check. -/
def addSize (left right : ℕ) : Result ℕ :=
  if sizeMax < left + right then .error .wrapped else .ok (left + right)

/-- A difference of sizes that the source does not check. -/
def subSize (left right : ℕ) : Result ℕ :=
  if left < right then .error .wrapped else .ok (left - right)

theorem addSize_of_le {left right : ℕ} (h : left + right ≤ sizeMax) :
    addSize left right = .ok (left + right) :=
  if_neg (by omega)

theorem subSize_of_le {left right : ℕ} (h : right ≤ left) :
    subSize left right = .ok (left - right) :=
  if_neg (by omega)

theorem checkedAddSize_eq_some_iff {left right sum : ℕ} :
    checkedAddSize left right = some sum ↔ left + right ≤ sizeMax ∧ left + right = sum := by
  unfold checkedAddSize
  split_ifs with h
  · simp; omega
  · simp; omega

theorem le_sizeMax_of_checkedAddSize {left right sum : ℕ}
    (h : checkedAddSize left right = some sum) : sum ≤ sizeMax := by
  obtain ⟨hle, rfl⟩ := checkedAddSize_eq_some_iff.1 h
  exact hle

theorem checkedMulSize_eq_some_iff {left right product : ℕ} :
    checkedMulSize left right = some product ↔
      left * right ≤ sizeMax ∧ left * right = product := by
  unfold checkedMulSize
  split_ifs with h
  · simp; omega
  · simp; omega

/-- `range_in_bounds`. -/
def rangeInBounds (offset extent size : ℕ) : Bool :=
  match checkedAddSize offset extent with
  | some stop => stop ≤ size
  | none => false

theorem rangeInBounds_iff {offset extent size : ℕ} (h : size ≤ sizeMax) :
    rangeInBounds offset extent size = true ↔ offset + extent ≤ size := by
  unfold rangeInBounds checkedAddSize
  split_ifs with hlt
  · simp; omega
  · simp

theorem le_of_rangeInBounds {offset extent size : ℕ}
    (h : rangeInBounds offset extent size = true) : offset + extent ≤ size := by
  unfold rangeInBounds checkedAddSize at h
  split_ifs at h
  simpa using h

/-- `is_power_of_two`. -/
def isPowerOfTwo (value : ℕ) : Bool :=
  value != 0 && value &&& (value - 1) == 0

theorem isPowerOfTwo_iff {value : ℕ} : isPowerOfTwo value = true ↔ ∃ k, value = 2 ^ k := by
  have := Nat.ne_zero_and_sub_one_eq_zero_iff_isPowerOfTwo (n := value)
  simpa [isPowerOfTwo, Nat.isPowerOfTwo] using this

/-- `~(alignment - 1)` at 64 bits. -/
def alignmentMask (alignment : ℕ) : ℕ :=
  2 ^ 64 - alignment

/-- `align_up`. -/
def alignUp (value alignment : ℕ) : Option ℕ :=
  if alignment = 0 ∨ alignment &&& (alignment - 1) ≠ 0 then none
  else (checkedAddSize value (alignment - 1)).map fun adjusted =>
    adjusted &&& alignmentMask alignment

/-- The mask clears the bits below a power of two. -/
theorem and_alignmentMask {x k : ℕ} (hx : x < 2 ^ 64) (hk : k ≤ 64) :
    x &&& alignmentMask (2 ^ k) = x / 2 ^ k * 2 ^ k := by
  have hmask : alignmentMask (2 ^ k) = (2 ^ (64 - k) - 1) <<< k := by
    rw [alignmentMask, Nat.shiftLeft_eq, Nat.sub_mul, ← Nat.pow_add, Nat.one_mul]
    congr 2
    omega
  rw [hmask, ← Nat.shiftRight_eq_div_pow, ← Nat.shiftLeft_eq]
  apply Nat.eq_of_testBit_eq
  intro i
  rw [Nat.testBit_and, Nat.testBit_shiftLeft, Nat.testBit_shiftLeft, Nat.testBit_two_pow_sub_one,
    Nat.testBit_shiftRight]
  by_cases hi : k ≤ i
  · by_cases hi' : i < 64
    · simp [hi, show k + (i - k) = i by omega, show i - k < 64 - k by omega]
    · have : x.testBit i = false :=
        Nat.testBit_lt_two_pow (Nat.lt_of_lt_of_le hx (Nat.pow_le_pow_right (by omega) (by omega)))
      simp [this, hi, show k + (i - k) = i by omega]
  · simp [hi]

/-- What `align_up` computes, and when. -/
theorem alignUp_eq_some_iff {value alignment result : ℕ} :
    alignUp value alignment = some result ↔
      isPowerOfTwo alignment = true ∧ value + (alignment - 1) ≤ sizeMax ∧
        (value + (alignment - 1)) / alignment * alignment = result := by
  have hguard : (alignment = 0 ∨ alignment &&& (alignment - 1) ≠ 0) ↔
      ¬isPowerOfTwo alignment = true := by
    simp [isPowerOfTwo, imp_iff_not_or]
  unfold alignUp
  split_ifs with h
  · have := hguard.1 h
    simp [this]
  · have hpow := not_not.1 (mt hguard.2 h)
    obtain ⟨k, rfl⟩ := isPowerOfTwo_iff.1 hpow
    have hmask : ∀ hle : value + (2 ^ k - 1) ≤ sizeMax,
        (value + (2 ^ k - 1)) &&& alignmentMask (2 ^ k) =
          (value + (2 ^ k - 1)) / 2 ^ k * 2 ^ k := by
      intro hle
      have hpos : 0 < 2 ^ k := Nat.two_pow_pos k
      have hlt : value + (2 ^ k - 1) < 2 ^ 64 := by unfold sizeMax at hle; omega
      have hk : k ≤ 64 := by
        by_contra hk
        have : 2 ^ 65 ≤ 2 ^ k := Nat.pow_le_pow_right (by omega) (by omega)
        omega
      exact and_alignmentMask hlt hk
    simp only [Option.map_eq_some_iff, checkedAddSize_eq_some_iff]
    constructor
    · rintro ⟨_, ⟨hle, rfl⟩, rfl⟩
      exact ⟨hpow, hle, (hmask hle).symm⟩
    · rintro ⟨-, hle, rfl⟩
      exact ⟨_, ⟨hle, rfl⟩, hmask hle⟩

theorem le_of_alignUp {value alignment result : ℕ} (h : alignUp value alignment = some result) :
    value ≤ result := by
  obtain ⟨hpow, -, rfl⟩ := alignUp_eq_some_iff.1 h
  obtain ⟨k, rfl⟩ := isPowerOfTwo_iff.1 hpow
  have hpos : 0 < 2 ^ k := Nat.two_pow_pos k
  have := Nat.mod_add_div (value + (2 ^ k - 1)) (2 ^ k)
  have := Nat.mod_lt (value + (2 ^ k - 1)) hpos
  rw [Nat.mul_comm]
  omega

theorem mod_of_alignUp {value alignment result : ℕ} (h : alignUp value alignment = some result) :
    result % alignment = 0 := by
  obtain ⟨-, -, rfl⟩ := alignUp_eq_some_iff.1 h
  exact Nat.mul_mod_left _ _

/-! ## Views -/

/-- `npunlock_view` : bytes and their number. -/
structure View where
  data : ℕ → UInt8
  size : ℕ
  size_le : size ≤ sizeMax

/-- The low `bits` bits of `n` as a two's complement integer. -/
def signed (bits n : ℕ) : ℤ :=
  if n < 2 ^ (bits - 1) then n else n - 2 ^ bits

namespace View

variable (v : View)

/-- Reads `n` bytes at `offset` as one integer. -/
def readLE (offset n : ℕ) : Result ℕ :=
  if offset + n ≤ v.size then .ok (littleEndian v.data offset n) else .error .outOfBounds

def readU8 (offset : ℕ) : Result ℕ :=
  v.readLE offset 1

def readU16 (offset : ℕ) : Result ℕ :=
  v.readLE offset 2

def readU32 (offset : ℕ) : Result ℕ :=
  v.readLE offset 4

def readU64 (offset : ℕ) : Result ℕ :=
  v.readLE offset 8

def readI32 (offset : ℕ) : Result ℤ :=
  (v.readU32 offset).map (signed 32)

def readI64 (offset : ℕ) : Result ℤ :=
  (v.readU64 offset).map (signed 64)

/-- The `n` bytes at `offset`, as `memcmp` and `memcpy` read them. -/
def readBytes (offset n : ℕ) : Result (List UInt8) :=
  if offset + n ≤ v.size then .ok (slice v.data offset n) else .error .outOfBounds

/-- `memchr(v.data + offset, 0, limit)`, with the bytes before the terminator. -/
def readString (offset limit : ℕ) : Result (Option (List UInt8)) :=
  if offset + limit ≤ v.size then .ok (terminated v.data offset limit) else .error .outOfBounds

variable {v}

theorem readLE_eq {offset n : ℕ} (h : offset + n ≤ v.size) :
    v.readLE offset n = .ok (littleEndian v.data offset n) :=
  if_pos h

theorem readBytes_eq {offset n : ℕ} (h : offset + n ≤ v.size) :
    v.readBytes offset n = .ok (slice v.data offset n) :=
  if_pos h

theorem readString_eq {offset limit : ℕ} (h : offset + limit ≤ v.size) :
    v.readString offset limit = .ok (terminated v.data offset limit) :=
  if_pos h

theorem readLE_eq_ok_iff {offset n x : ℕ} :
    v.readLE offset n = .ok x ↔ offset + n ≤ v.size ∧ littleEndian v.data offset n = x := by
  unfold readLE
  split_ifs with h <;> simp [h]

end View

/-- The ASCII bytes of a string literal. -/
def ascii (s : String) : List UInt8 :=
  s.toList.map fun c => UInt8.ofNat c.toNat

end Npunlock
