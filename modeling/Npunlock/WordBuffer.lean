import Npunlock.Binary32
import Npunlock.WhileLoops

/-!
# Buffers of words

The buffers a kernel reads and writes, as lists of words. An access outside a buffer ends
in `outOfBounds`, which has no counterpart in C : the kernel would read or write memory
that is not its own. `refused` is a function that returns zero, and `ifRefused` its
caller. Indices are unsigned integers of 32 bits; sums and products are reduced once at
the end, by `u32`, which is what C gets by reducing every step.

A kernel is safe if it meets a specification with `outOfBounds` as a bad error.
-/

namespace Npunlock

/-- How a function of a kernel ends when it does not go on. -/
inductive KernelHalt
  | outOfBounds
  | refused
  deriving DecidableEq

/-- An unsigned integer of 32 bits. -/
def u32 (n : ℕ) : ℕ :=
  n % 2 ^ 32

theorem u32_of_lt {n : ℕ} (h : n < 2 ^ 32) : u32 n = n :=
  Nat.mod_eq_of_lt h

/-! ## Accesses -/

def readWord (buffer : List Word) (index : ℕ) : Except KernelHalt Word :=
  match buffer[index]? with
  | some word => .ok word
  | none => .error .outOfBounds

def writeWord (buffer : List Word) (index : ℕ) (word : Word) : Except KernelHalt (List Word) :=
  if index < buffer.length then .ok (buffer.set index word) else .error .outOfBounds

/-- Writes some words from `index` on. -/
def writeWords (buffer : List Word) (index : ℕ) : List Word → Except KernelHalt (List Word)
  | [] => .ok buffer
  | word :: words => do
    let buffer ← writeWord buffer index word
    writeWords buffer (index + 1) words

/-- The count that a number stands for, which is refused if it is no integer or too
large. -/
def countOf (word : Word) (maximum : ℕ) : Except KernelHalt ℕ :=
  match Binary32.exactNat word maximum with
  | some count => .ok count
  | none => .error .refused

/-- Calls a function that may return zero. -/
def ifRefused {α β : Type} (called : Except KernelHalt α) (refused : Except KernelHalt β)
    (next : α → Except KernelHalt β) : Except KernelHalt β :=
  match called with
  | .ok value => next value
  | .error .refused => refused
  | .error .outOfBounds => .error .outOfBounds

/-! ## Specifications -/

/-- `x` stays inside its buffers, and a value it ends in satisfies `P`. -/
abbrev Stays {α : Type} (x : Except KernelHalt α) (P : α → Prop) : Prop :=
  Meets (· = .outOfBounds) x P

section Specs

variable {α β : Type} {buffer : List Word} {index : ℕ}

theorem readWord_of_getElem? {word : Word} (h : buffer[index]? = some word) :
    readWord buffer index = .ok word := by
  rw [readWord, h]

theorem returns_readWord (h : index < buffer.length) :
    Returns (readWord buffer index) fun word => buffer[index]? = some word :=
  Returns.of_eq (readWord_of_getElem? (List.getElem?_eq_getElem h))
    (List.getElem?_eq_getElem h)

theorem stays_readWord (h : index < buffer.length) :
    Stays (readWord buffer index) fun word => buffer[index]? = some word :=
  (returns_readWord h).weaken fun _ _ => trivial

theorem writeWord_of_lt (h : index < buffer.length) (word : Word) :
    writeWord buffer index word = .ok (buffer.set index word) :=
  if_pos h

theorem returns_writeWord (h : index < buffer.length) (word : Word) :
    Returns (writeWord buffer index word) fun after => after.length = buffer.length :=
  Returns.of_eq (writeWord_of_lt h word) List.length_set

theorem returns_writeWords : ∀ (words : List Word) {buffer : List Word} {index : ℕ},
    index + words.length ≤ buffer.length →
      Returns (writeWords buffer index words) fun after => after.length = buffer.length
  | [], _, _, _ => Meets.ok rfl
  | word :: words, buffer, index, h => by
    rw [List.length_cons] at h
    refine (returns_writeWord (by omega) word).bind fun after hafter => ?_
    refine (returns_writeWords words (by omega)).mono fun last hlast => ?_
    rw [hlast, hafter]

theorem stays_countOf (word : Word) {maximum : ℕ} (hmaximum : maximum < 2 ^ 24) :
    Stays (countOf word maximum) fun count => count ≤ maximum := by
  unfold countOf
  cases h : Binary32.exactNat word maximum with
  | none => exact Meets.error (by simp)
  | some count => exact Meets.ok (Binary32.le_of_exactNat hmaximum h)

theorem countOf_ofNat {n maximum : ℕ} (hmaximum : maximum < 2 ^ 24) (h : n ≤ maximum) :
    countOf (Binary32.ofNat n) maximum = .ok n := by
  rw [countOf, Binary32.exactNat_ofNat hmaximum h]

/-- A call that stays inside its buffers, with both ways on. -/
theorem returns_ifRefused {called : Except KernelHalt α} {refused : Except KernelHalt β}
    {next : α → Except KernelHalt β} {P : α → Prop} {Q : β → Prop} (hcalled : Stays called P)
    (hrefused : called = .error .refused → Returns refused Q)
    (hnext : ∀ value, P value → Returns (next value) Q) :
    Returns (ifRefused called refused next) Q := by
  unfold ifRefused
  cases hcase : called with
  | ok value => exact hnext value (hcalled.value value hcase)
  | error halt =>
    cases halt with
    | refused => exact hrefused hcase
    | outOfBounds => exact absurd rfl (hcalled.not_bad _ hcase)

end Specs

end Npunlock
