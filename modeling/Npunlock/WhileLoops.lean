import Npunlock.Loop

/-!
# While loops

`whileLoop` runs a loop body until it finishes, with a bound on the number of rounds :
the body either goes on with a new state (`Sum.inl`) or ends in a result (`Sum.inr`).
A Python `for _ in range(n)` loop that is left by `break` and raises in its `else`
branch is `whileLoop` with that bound and that error.

`Returns x P` says that `x` ends in no error at all, in a value satisfying `P`. It is
`Meets` with every error bad, so the rules of `Meets` apply to it. `Meets.whileLoop` is the rule
for a loop : an invariant, a measure that every round makes smaller, and the result the
last round ends in.
-/

namespace Npunlock

variable {ε α β σ τ : Type}

/-! ## Computations that return -/

/-- `x` ends in a value, and the value satisfies `P`. -/
abbrev Returns (x : Except ε α) (P : α → Prop) : Prop :=
  Meets (fun _ => True) x P

namespace Returns

variable {x : Except ε α} {P : α → Prop}

theorem exists_ok (h : Returns x P) : ∃ a, x = .ok a ∧ P a := by
  cases x with
  | error e => exact absurd trivial (h.not_bad e rfl)
  | ok a => exact ⟨a, rfl, h.value a rfl⟩

theorem of_eq {a : α} (h : x = .ok a) (ha : P a) : Returns x P := by
  subst h
  exact Meets.ok ha

/-- A fold whose steps follow the steps of a fold without errors. -/
theorem foldlM {step : σ → α → Except ε σ} {step' : τ → α → τ} (R : σ → τ → Prop) :
    ∀ {l : List α} {s : σ} {t : τ},
      (∀ a ∈ l, ∀ s t, R s t → Returns (step s a) fun s' => R s' (step' t a)) →
      R s t → Returns (l.foldlM step s) fun s' => R s' (l.foldl step' t)
  | [], _, _, _, h => Meets.ok h
  | a :: l, s, t, hstep, h => by
    rw [List.foldlM_cons, List.foldl_cons]
    refine (hstep a List.mem_cons_self s t h).bind fun s' hs' => ?_
    exact foldlM R (fun b hb => hstep b (List.mem_cons_of_mem a hb)) hs'

end Returns

/-! ## Loops with a bound -/

/-- Repeats `body` at most `bound` times, and ends in `exhausted` if no round finishes. -/
def whileLoop (exhausted : ε) (body : σ → Except ε (σ ⊕ τ)) : ℕ → σ → Except ε τ
  | 0, _ => .error exhausted
  | bound + 1, s => do
    match ← body s with
    | .inl s' => whileLoop exhausted body bound s'
    | .inr t => .ok t

/-- What one round of a loop does : it goes on within the invariant with a smaller
measure, or it ends in the loop's result. -/
def Progress (Inv : σ → Prop) (measure : σ → ℕ) (Post : τ → Prop) (s : σ) : σ ⊕ τ → Prop
  | .inl s' => Inv s' ∧ measure s' < measure s
  | .inr t => Post t

/-- A loop whose rounds make progress ends within its bound. -/
theorem Meets.whileLoop {bad : ε → Prop} {exhausted : ε} {body : σ → Except ε (σ ⊕ τ)}
    (Inv : σ → Prop) (measure : σ → ℕ) {Post : τ → Prop}
    (hbody : ∀ s, Inv s → Meets bad (body s) (Progress Inv measure Post s)) :
    ∀ {bound : ℕ} {s : σ}, Inv s → measure s < bound →
      Meets bad (whileLoop exhausted body bound s) Post
  | 0, _, _, hbound => absurd hbound (Nat.not_lt_zero _)
  | bound + 1, s, hs, hbound => by
    unfold Npunlock.whileLoop
    refine (hbody s hs).bind fun next hnext => ?_
    cases next with
    | inl s' =>
      have hmeasure : measure s' < measure s := hnext.2
      exact Meets.whileLoop Inv measure hbody hnext.1 (by omega)
    | inr t => exact Meets.ok hnext

end Npunlock
