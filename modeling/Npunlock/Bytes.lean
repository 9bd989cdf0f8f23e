import Mathlib.Data.Nat.Notation
import Mathlib.Order.Nat
import Mathlib.Tactic.Common
import Mathlib.Tactic.Ring

/-!
# Bytes by position

A byte image is a function `ℕ → UInt8`. `littleEndian` reads an unsigned integer of a
given width, `slice` a run of bytes, `terminated` a zero-terminated string of bounded
length. `overlay` copies a run of bytes over an image and `store` writes a
little-endian integer. The frame lemmas say that an image keeps its bytes outside
what was written, and the congruence lemmas that a read depends on its own bytes only.
-/

namespace Npunlock

/-! ## Reads -/

/-- The unsigned integer in the `n` bytes at `o`, the least significant byte first. -/
def littleEndian (m : ℕ → UInt8) : ℕ → ℕ → ℕ
  | _, 0 => 0
  | o, n + 1 => (m o).toNat + 256 * littleEndian m (o + 1) n

/-- The `n` bytes at `o`. -/
def slice (m : ℕ → UInt8) (o n : ℕ) : List UInt8 :=
  (List.range n).map fun k => m (o + k)

/-- The bytes at `o` before the first zero, if there is one among the `n` bytes there. -/
def terminated (m : ℕ → UInt8) : ℕ → ℕ → Option (List UInt8)
  | _, 0 => none
  | o, n + 1 => if m o = 0 then some [] else (terminated m (o + 1) n).map (m o :: ·)

theorem littleEndian_congr {m m' : ℕ → UInt8} :
    ∀ {n o o' : ℕ}, (∀ k < n, m' (o' + k) = m (o + k)) →
      littleEndian m' o' n = littleEndian m o n
  | 0, _, _, _ => rfl
  | n + 1, o, o', h => by
    have h0 : m' o' = m o := h 0 (by omega)
    have ih : littleEndian m' (o' + 1) n = littleEndian m (o + 1) n :=
      littleEndian_congr fun k hk => by
        have := h (k + 1) (by omega)
        rwa [show o' + (k + 1) = o' + 1 + k by omega,
          show o + (k + 1) = o + 1 + k by omega] at this
    rw [littleEndian, littleEndian, h0, ih]

theorem littleEndian_lt (m : ℕ → UInt8) : ∀ o n : ℕ, littleEndian m o n < 256 ^ n
  | _, 0 => by simp [littleEndian]
  | o, n + 1 => by
    have ih := littleEndian_lt m (o + 1) n
    have hb : (m o).toNat < 256 := UInt8.toNat_lt _
    rw [littleEndian, Nat.pow_succ]
    omega

/-- The low bytes of an integer and the rest of it. -/
theorem littleEndian_add (m : ℕ → UInt8) :
    ∀ a o b : ℕ, littleEndian m o (a + b) =
      littleEndian m o a + 256 ^ a * littleEndian m (o + a) b
  | 0, o, b => by simp [littleEndian]
  | a + 1, o, b => by
    rw [show a + 1 + b = a + b + 1 by omega, littleEndian, littleEndian,
      littleEndian_add m a (o + 1) b, show o + (a + 1) = o + 1 + a by omega]
    ring

theorem littleEndian_mod (m : ℕ → UInt8) (o a b : ℕ) :
    littleEndian m o (a + b) % 256 ^ a = littleEndian m o a := by
  rw [littleEndian_add, Nat.add_mul_mod_self_left, Nat.mod_eq_of_lt (littleEndian_lt m o a)]

@[simp] theorem length_slice (m : ℕ → UInt8) (o n : ℕ) : (slice m o n).length = n := by
  simp [slice]

theorem slice_eq_slice_iff {m m' : ℕ → UInt8} {o o' n : ℕ} :
    slice m' o' n = slice m o n ↔ ∀ k < n, m' (o' + k) = m (o + k) := by
  simp [slice, List.map_inj_left]

theorem slice_congr {m m' : ℕ → UInt8} {o o' n : ℕ} (h : ∀ k < n, m' (o' + k) = m (o + k)) :
    slice m' o' n = slice m o n :=
  slice_eq_slice_iff.2 h

theorem terminated_congr {m m' : ℕ → UInt8} :
    ∀ {n o o' : ℕ}, (∀ k < n, m' (o' + k) = m (o + k)) → terminated m' o' n = terminated m o n
  | 0, _, _, _ => rfl
  | n + 1, o, o', h => by
    have h0 : m' o' = m o := h 0 (by omega)
    have ih : terminated m' (o' + 1) n = terminated m (o + 1) n :=
      terminated_congr fun k hk => by
        have := h (k + 1) (by omega)
        rwa [show o' + (k + 1) = o' + 1 + k by omega,
          show o + (k + 1) = o + 1 + k by omega] at this
    rw [terminated, terminated, h0, ih]

/-! ## Writes -/

/-- `m` with the first `n` bytes of `src` at `o`. -/
def overlay (m : ℕ → UInt8) (o n : ℕ) (src : ℕ → UInt8) : ℕ → UInt8 := fun i =>
  if o ≤ i ∧ i < o + n then src (i - o) else m i

/-- The `k`-th byte of `v`. -/
def byteOf (v k : ℕ) : UInt8 :=
  UInt8.ofNat (v / 256 ^ k)

/-- `m` with `v` written in the `n` bytes at `o`. -/
def store (m : ℕ → UInt8) (o n v : ℕ) : ℕ → UInt8 :=
  overlay m o n (byteOf v)

theorem overlay_of_outside {m src : ℕ → UInt8} {o n i : ℕ} (h : i < o ∨ o + n ≤ i) :
    overlay m o n src i = m i :=
  if_neg (by omega)

theorem overlay_add {m src : ℕ → UInt8} {o n k : ℕ} (h : k < n) :
    overlay m o n src (o + k) = src k := by
  rw [overlay, if_pos (by omega), Nat.add_sub_cancel_left]

theorem overlay_of_inside {m src : ℕ → UInt8} {o n i : ℕ} (h : o ≤ i) (h' : i < o + n) :
    overlay m o n src i = src (i - o) :=
  if_pos ⟨h, h'⟩

theorem store_of_outside {m : ℕ → UInt8} {o n v i : ℕ} (h : i < o ∨ o + n ≤ i) :
    store m o n v i = m i :=
  overlay_of_outside h

theorem byteOf_succ (v k : ℕ) : byteOf v (k + 1) = byteOf (v / 256) k := by
  rw [byteOf, byteOf, Nat.div_div_eq_div_mul, Nat.pow_succ, Nat.mul_comm]

theorem littleEndian_byteOf {m : ℕ → UInt8} :
    ∀ {n o v : ℕ}, (∀ k < n, m (o + k) = byteOf v k) → littleEndian m o n = v % 256 ^ n
  | 0, _, v, _ => by simp [littleEndian, Nat.mod_one]
  | n + 1, o, v, h => by
    have h0 : m o = byteOf v 0 := h 0 (by omega)
    have ih : littleEndian m (o + 1) n = v / 256 % 256 ^ n :=
      littleEndian_byteOf fun k hk => by
        have := h (k + 1) (by omega)
        rwa [show o + (k + 1) = o + 1 + k by omega, byteOf_succ] at this
    have hb : (byteOf v 0).toNat = v % 256 := by simp [byteOf]
    rw [littleEndian, h0, hb, ih, Nat.pow_succ, Nat.mul_comm (256 ^ n), Nat.mod_mul]

theorem byteOf_littleEndian (m : ℕ → UInt8) :
    ∀ {n o k : ℕ}, k < n → byteOf (littleEndian m o n) k = m (o + k)
  | 0, _, _, h => absurd h (Nat.not_lt_zero _)
  | n + 1, o, 0, _ => by
    apply UInt8.toNat_inj.1
    simp [byteOf, littleEndian]
  | n + 1, o, k + 1, h => by
    have hb : (m o).toNat < 256 := UInt8.toNat_lt _
    have hdiv : ((m o).toNat + 256 * littleEndian m (o + 1) n) / 256 =
        littleEndian m (o + 1) n := by omega
    rw [byteOf_succ, littleEndian, hdiv, byteOf_littleEndian m (by omega)]
    congr 1
    omega

/-- Writes at one position of which each keeps the byte there or makes it `b`. -/
theorem foldl_eq_of_writes {α : Type} {write : (ℕ → UInt8) → α → ℕ → UInt8} {i : ℕ} {b : UInt8} :
    ∀ {l : List α} (m : ℕ → UInt8),
      (∀ a ∈ l, (∀ m, write m a i = m i) ∨ ∀ m, write m a i = b) →
      (m i = b ∨ ∃ a ∈ l, ∀ m, write m a i = b) → l.foldl write m i = b
  | [], m, _, h => by simpa using h
  | a :: l, m, hwrite, h => by
    refine foldl_eq_of_writes (write m a) (fun a' ha' => hwrite a' (by simp [ha'])) ?_
    rcases hwrite a (by simp) with hkeep | hset
    · rw [hkeep m]
      rcases h with h | ⟨a', ha', hset'⟩
      · exact Or.inl h
      · rcases List.mem_cons.1 ha' with rfl | ha'
        · exact Or.inl ((hkeep m).symm.trans (hset' m))
        · exact Or.inr ⟨a', ha', hset'⟩
    · exact Or.inl (hset m)

/-- Writes that all keep the byte at a position. -/
theorem foldl_of_keeps {α : Type} {write : (ℕ → UInt8) → α → ℕ → UInt8} {i : ℕ} {l : List α}
    (m : ℕ → UInt8) (h : ∀ a ∈ l, ∀ m, write m a i = m i) : l.foldl write m i = m i :=
  foldl_eq_of_writes m (fun a ha => Or.inl (h a ha)) (Or.inl rfl)

-- Later modules reason about integers in a file by the lemmas above. Without this, a
-- comparison of two of them would unfold both to their bytes.
attribute [irreducible] littleEndian

end Npunlock
