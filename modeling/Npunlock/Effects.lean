import Mathlib.Data.List.Basic
import Mathlib.Tactic.Common

/-!
# Effects

An `Effect` changes a state and returns a value or fails. A failure keeps the changes made
before it. `Ensures` says what holds after an effect : `post` of the value and the state if it
returns, `failed` of the error and the state if it fails.
-/

namespace Npunlock

/-- An action on a state of type `σ` that may fail with an error of type `ε`. -/
def Effect (ε σ α : Type) : Type :=
  σ → Except ε α × σ

namespace Effect

variable {ε σ α β : Type}

instance : Monad (Effect ε σ) where
  pure value := fun state => (.ok value, state)
  bind action next := fun state =>
    match action state with
    | (.ok value, state') => next value state'
    | (.error error, state') => (.error error, state')

/-- The state. -/
def get : Effect ε σ σ :=
  fun state => (.ok state, state)

def modify (change : σ → σ) : Effect ε σ Unit :=
  fun state => (.ok (), change state)

def throw (error : ε) : Effect ε σ α :=
  fun state => (.error error, state)

/-- The value of an option, where its absence is an error. -/
def ofOption (error : ε) : Option α → Effect ε σ α
  | some value => pure value
  | none => throw error

/-- The value of a computation that changes nothing. -/
def ofExcept : Except ε α → Effect ε σ α
  | .ok value => pure value
  | .error error => throw error

def refuse (condition : Prop) [Decidable condition] (error : ε) : Effect ε σ Unit :=
  if condition then throw error else pure ()

/-- What holds after an effect. -/
def Ensures (action : Effect ε σ α) (state : σ) (post : α → σ → Prop) (failed : ε → σ → Prop) :
    Prop :=
  match action state with
  | (.ok value, state') => post value state'
  | (.error error, state') => failed error state'

section Rules

variable {action : Effect ε σ α} {state : σ} {post post' : α → σ → Prop}
  {failed failed' : ε → σ → Prop}

@[simp]
theorem ensures_pure {value : α} :
    Ensures (pure value : Effect ε σ α) state post failed ↔ post value state :=
  Iff.rfl

@[simp]
theorem ensures_get {post : σ → σ → Prop} :
    Ensures (get : Effect ε σ σ) state post failed ↔ post state state :=
  Iff.rfl

@[simp]
theorem ensures_modify {change : σ → σ} {post : Unit → σ → Prop} :
    Ensures (modify change : Effect ε σ Unit) state post failed ↔ post () (change state) :=
  Iff.rfl

@[simp]
theorem ensures_throw {error : ε} :
    Ensures (throw error : Effect ε σ α) state post failed ↔ failed error state :=
  Iff.rfl

@[simp]
theorem ensures_ofOption {error : ε} {value : Option α} :
    Ensures (ofOption error value : Effect ε σ α) state post failed ↔
      (∀ found, value = some found → post found state) ∧ (value = none → failed error state) := by
  cases value <;> simp [ofOption]

@[simp]
theorem ensures_ofExcept {value : Except ε α} :
    Ensures (ofExcept value : Effect ε σ α) state post failed ↔
      (∀ found, value = .ok found → post found state) ∧
        (∀ error, value = .error error → failed error state) := by
  cases value <;> simp [ofExcept]

@[simp]
theorem ensures_refuse {condition : Prop} [Decidable condition] {error : ε}
    {post : Unit → σ → Prop} :
    Ensures (refuse condition error : Effect ε σ Unit) state post failed ↔
      (condition → failed error state) ∧ (¬condition → post () state) := by
  by_cases h : condition <;> simp [refuse, h]

@[simp]
theorem ensures_bind {next : α → Effect ε σ β} {post : β → σ → Prop} :
    Ensures (action >>= next) state post failed ↔
      Ensures action state (fun value state' => Ensures (next value) state' post failed)
        failed := by
  have hbind : (action >>= next) state = match action state with
    | (.ok value, state') => next value state'
    | (.error error, state') => (.error error, state') := rfl
  rw [Ensures, Ensures, hbind]
  rcases action state with ⟨_ | _, _⟩ <;> rfl

theorem ensures_ite {condition : Prop} [Decidable condition] {other : Effect ε σ α} :
    Ensures (if condition then action else other) state post failed ↔
      (condition → Ensures action state post failed) ∧
        (¬condition → Ensures other state post failed) := by
  by_cases h : condition <;> simp [h]

theorem Ensures.mono (h : Ensures action state post failed)
    (hpost : ∀ value state', post value state' → post' value state')
    (hfailed : ∀ error state', failed error state' → failed' error state') :
    Ensures action state post' failed' := by
  revert h
  rw [Ensures, Ensures]
  rcases action state with ⟨_ | _, _⟩
  · exact hfailed _ _
  · exact hpost _ _

theorem Ensures.and (h : Ensures action state post failed)
    (h' : Ensures action state post' failed') :
    Ensures action state (fun value state' => post value state' ∧ post' value state')
      fun error state' => failed error state' ∧ failed' error state' := by
  revert h h'
  rw [Ensures, Ensures, Ensures]
  rcases action state with ⟨_ | _, _⟩ <;> exact And.intro

theorem Ensures.returned (h : Ensures action state post failed) {value : α} {state' : σ}
    (hrun : action state = (.ok value, state')) : post value state' := by
  rwa [Ensures, hrun] at h

theorem Ensures.raised (h : Ensures action state post failed) {error : ε} {state' : σ}
    (hrun : action state = (.error error, state')) : failed error state' := by
  rwa [Ensures, hrun] at h

/-- An effect that cannot fail returns. -/
theorem Ensures.exists_returned (h : Ensures action state post fun _ _ => False) :
    ∃ value state', action state = (.ok value, state') ∧ post value state' := by
  revert h
  rw [Ensures]
  rcases action state with ⟨_ | value, state'⟩
  · exact False.elim
  · exact fun h => ⟨value, state', rfl, h⟩

/-- What holds however an effect ends. -/
theorem Ensures.always {holds : σ → Prop}
    (h : Ensures action state (fun _ => holds) fun _ => holds) : holds (action state).2 := by
  revert h
  rw [Ensures]
  rcases action state with ⟨_ | _, _⟩ <;> exact id

theorem ensures_foldlM_append {step : β → α → Effect ε σ β}
    {invariant : List α → β → σ → Prop} {items : List α}
    (hstep : ∀ before item after, items = before ++ item :: after → ∀ value state,
      invariant before value state →
        Ensures (step value item) state (invariant (before ++ [item])) failed) :
    ∀ {before after : List α} {value : β} {state : σ}, items = before ++ after →
      invariant before value state →
        Ensures (after.foldlM step value) state (invariant items) failed
  | before, [], value, state, hitems, h => by
    rw [hitems, List.append_nil]
    exact h
  | before, item :: after, value, state, hitems, h => by
    rw [List.foldlM_cons, ensures_bind]
    refine (hstep before item after hitems value state h).mono (fun value' state' h' => ?_)
      fun _ _ h' => h'
    exact ensures_foldlM_append hstep (by simp [hitems]) h'

/-- A loop ends with its invariant of all items if each round adds its item to it. -/
theorem ensures_foldlM {step : β → α → Effect ε σ β} {items : List α} {value : β}
    (invariant : List α → β → σ → Prop)
    (hstep : ∀ before item after, items = before ++ item :: after → ∀ value state,
      invariant before value state →
        Ensures (step value item) state (invariant (before ++ [item])) failed)
    (h : invariant [] value state) :
    Ensures (items.foldlM step value) state (invariant items) failed :=
  ensures_foldlM_append hstep (List.nil_append _).symm h

end Rules

end Effect

end Npunlock
