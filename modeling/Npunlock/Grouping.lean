import Mathlib.Data.Nat.Notation
import Mathlib.Order.Nat
import Mathlib.Tactic.Common

/-!
# Grouping a sequence in one pass

A pass over a sequence numbers its positions : a position with the key of the one
before it gets the same number, any other position gets the next number and is refused
if its key is the key of an earlier block. Comparing it with the first position of each
block is enough. `Grouped` states what the pass has checked, `Grouped.group_eq_iff`
that the numbers then tell the keys apart exactly.
-/

namespace Npunlock

variable {κ : Type} {key : ℕ → κ} {group : ℕ → ℕ} {n : ℕ}

/-- Position `i` is the first of its block. -/
def Opens (group : ℕ → ℕ) (i : ℕ) : Prop :=
  i = 0 ∨ group (i - 1) ≠ group i

/-- The first `n` positions are numbered by the blocks of `key`, and a new block has a
key that no earlier block began with. -/
structure Grouped (key : ℕ → κ) (group : ℕ → ℕ) (n : ℕ) : Prop where
  first : 0 < n → group 0 = 0
  next : ∀ i, i + 1 < n →
    (key i = key (i + 1) ∧ group (i + 1) = group i) ∨
      ((∀ j ≤ i, Opens group j → key j ≠ key (i + 1)) ∧ group (i + 1) = group i + 1)

theorem opens_congr {group' : ℕ → ℕ} {i : ℕ} (h : ∀ k ≤ i, group' k = group k) :
    Opens group' i ↔ Opens group i := by
  rw [Opens, Opens, h (i - 1) (by omega), h i le_rfl]

namespace Grouped

theorem zero (key : ℕ → κ) (group : ℕ → ℕ) : Grouped key group 0 :=
  ⟨by omega, by omega⟩

/-- Numbers of later positions do not matter. -/
theorem congr (h : Grouped key group n) {group' : ℕ → ℕ} (hg : ∀ k < n, group' k = group k) :
    Grouped key group' n := by
  refine ⟨fun hn => (hg 0 hn).trans (h.first hn), fun i hi => ?_⟩
  rw [hg i (by omega), hg (i + 1) hi]
  rcases h.next i hi with hsame | ⟨hfresh, hstep⟩
  · exact Or.inl hsame
  · refine Or.inr ⟨fun j hj hopen => hfresh j hj ?_, hstep⟩
    exact (opens_congr fun k hk => hg k (by omega)).1 hopen

/-- The pass takes one more position. -/
theorem extend (h : Grouped key group n) (h0 : n = 0 → group 0 = 0)
    (hn : ∀ i, i + 1 = n →
      (key i = key n ∧ group n = group i) ∨
        ((∀ j < n, Opens group j → key j ≠ key n) ∧ group n = group i + 1)) :
    Grouped key group (n + 1) := by
  refine ⟨fun _ => ?_, fun i hi => ?_⟩
  · rcases Nat.eq_zero_or_pos n with hn0 | hpos
    · exact h0 hn0
    · exact h.first hpos
  · obtain hlt | rfl := Nat.lt_or_eq_of_le (Nat.le_of_lt_succ hi)
    · exact h.next i hlt
    · rcases hn i rfl with hsame | ⟨hfresh, hstep⟩
      · exact Or.inl hsame
      · exact Or.inr ⟨fun j hj => hfresh j (by omega), hstep⟩

theorem group_step (h : Grouped key group n) {i : ℕ} (hi : i + 1 < n) :
    group (i + 1) = group i ∨ group (i + 1) = group i + 1 := by
  rcases h.next i hi with ⟨-, hsame⟩ | ⟨-, hstep⟩
  · exact Or.inl hsame
  · exact Or.inr hstep

theorem group_le (h : Grouped key group n) {i j : ℕ} (hij : i ≤ j) (hj : j < n) :
    group i ≤ group j := by
  induction j, hij using Nat.le_induction with
  | base => exact le_rfl
  | succ j hij ih =>
    have hle := ih (by omega)
    rcases h.group_step hj with hsame | hstep <;> omega

/-- Every position lies in a block whose first position has its key. -/
theorem exists_opens (h : Grouped key group n) {i : ℕ} (hi : i < n) :
    ∃ s ≤ i, Opens group s ∧ key s = key i := by
  induction i with
  | zero => exact ⟨0, le_rfl, Or.inl rfl, rfl⟩
  | succ i ih =>
    rcases h.next i hi with ⟨hkey, -⟩ | ⟨-, hstep⟩
    · obtain ⟨s, hs, hopen, hskey⟩ := ih (by omega)
      exact ⟨s, by omega, hopen, hskey.trans hkey⟩
    · refine ⟨i + 1, le_rfl, Or.inr ?_, rfl⟩
      rw [Nat.add_sub_cancel, hstep]
      omega

private theorem group_eq_iff_of_le (h : Grouped key group n) {i j : ℕ} (hij : i ≤ j)
    (hj : j < n) : group i = group j ↔ key i = key j := by
  induction j, hij using Nat.le_induction with
  | base => simp
  | succ j hij ih =>
    have ih := ih (by omega)
    rcases h.next j hj with ⟨hkey, hsame⟩ | ⟨hfresh, hstep⟩
    · rw [hsame, ← hkey, ih]
    · have hle := h.group_le hij (by omega)
      refine ⟨fun hg => by omega, fun hkey => ?_⟩
      -- the block of `i` began at some `s`, with the key that the new block has
      obtain ⟨s, hs, hopen, hskey⟩ := h.exists_opens (i := i) (by omega)
      exact absurd (hskey.trans hkey) (hfresh s (by omega) hopen)

/-- Two positions have one number if and only if they have one key. -/
theorem group_eq_iff (h : Grouped key group n) {i j : ℕ} (hi : i < n) (hj : j < n) :
    group i = group j ↔ key i = key j := by
  rcases Nat.le_total i j with hij | hij
  · exact h.group_eq_iff_of_le hij hj
  · rw [eq_comm, h.group_eq_iff_of_le hij hi, eq_comm]

end Grouped

end Npunlock
