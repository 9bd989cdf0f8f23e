import Mathlib.Data.Nat.Notation
import Mathlib.Data.List.Forall2
import Mathlib.Order.Nat
import Mathlib.Tactic.Common

/-!
# Fallible computations and counted loops

A computation that can fail is a value of `Except ε α`. `Meets bad x P` is the
judgement the safety proofs use : `x` does not end in an error of `bad`, and a value
it ends in satisfies `P`. It composes along `>>=` (`Meets.bind`) and along a counted
loop (`Meets.forRange`), so a function gets one specification from the
specifications of the functions it calls.

`forRange`, `checkRange` and `mapRange` are the `for` loops of C : they thread a
state, only check, or fill an array. Each has an induction rule.

`Agree R x y` relates two runs : both end in the same error, or in values related by
`R`. It has a rule for each of the constructs above, so that two runs of one function
on different data are compared construct by construct.
-/

namespace Npunlock

variable {ε α β γ σ τ : Type}

/-! ## Outcomes -/

@[simp] theorem ok_bind (a : α) (f : α → Except ε β) : (Except.ok a >>= f) = f a :=
  rfl

@[simp] theorem error_bind (e : ε) (f : α → Except ε β) : (Except.error e >>= f) = .error e :=
  rfl

theorem bind_eq_ok_iff {x : Except ε α} {f : α → Except ε β} {b : β} :
    (x >>= f) = .ok b ↔ ∃ a, x = .ok a ∧ f a = .ok b := by
  cases x with
  | error e => simp
  | ok a => simp

theorem exists_bind {x : Except ε α} {f : α → Except ε β} (hx : ∃ a, x = .ok a)
    (hf : ∀ a, x = .ok a → ∃ b, f a = .ok b) : ∃ b, (x >>= f) = .ok b := by
  obtain ⟨a, rfl⟩ := hx
  exact hf a rfl

@[simp] theorem map_ok (g : α → β) (a : α) : (Except.ok a : Except ε α).map g = .ok (g a) :=
  rfl

@[simp] theorem map_error (g : α → β) (e : ε) : (Except.error e : Except ε α).map g = .error e :=
  rfl

theorem map_eq_ok_iff {x : Except ε α} {g : α → β} {b : β} :
    x.map g = .ok b ↔ ∃ a, x = .ok a ∧ g a = b := by
  cases x with
  | error e => simp
  | ok a => simp

/-- Whether a computation ended in a value. -/
def succeeds : Except ε α → Bool
  | .ok _ => true
  | .error _ => false

theorem succeeds_iff {x : Except ε α} : succeeds x = true ↔ ∃ a, x = .ok a := by
  cases x <;> simp [succeeds]

/-- Ends the computation in `e` if `c` holds. -/
def refuseIf (c : Prop) [Decidable c] (e : ε) : Except ε Unit :=
  if c then .error e else .ok ()

@[simp] theorem refuseIf_eq_ok_iff {c : Prop} {_ : Decidable c} {e : ε} {u : Unit} :
    refuseIf c e = .ok u ↔ ¬c := by
  unfold refuseIf
  split_ifs with h <;> simp [h]

@[simp] theorem refuseIf_bind_eq_ok_iff {c : Prop} {_ : Decidable c} {e : ε} {f : Unit → Except ε β}
    {b : β} : (refuseIf c e >>= f) = .ok b ↔ ¬c ∧ f () = .ok b := by
  unfold refuseIf
  split_ifs with h <;> simp [h]

theorem refuseIf_of_not {c : Prop} {_ : Decidable c} (e : ε) (h : ¬c) :
    refuseIf c e = .ok () :=
  if_neg h

theorem refuseIf_of {c : Prop} {_ : Decidable c} (e : ε) (h : c) : refuseIf c e = .error e :=
  if_pos h

/-! ## Computations that meet a specification -/

/-- `x` ends in no error of `bad`, and a value it ends in satisfies `P`. -/
structure Meets (bad : ε → Prop) (x : Except ε α) (P : α → Prop) : Prop where
  not_bad : ∀ e, x = .error e → ¬bad e
  value : ∀ a, x = .ok a → P a

namespace Meets

variable {bad : ε → Prop} {x : Except ε α} {P Q : α → Prop} {R : β → Prop}

theorem ok {a : α} (h : P a) : Meets bad (.ok a) P :=
  ⟨by simp, by simpa using h⟩

theorem error {e : ε} (h : ¬bad e) : Meets bad (.error e : Except ε α) P :=
  ⟨by simpa using h, by simp⟩

theorem mono (h : Meets bad x P) (hPQ : ∀ a, P a → Q a) : Meets bad x Q :=
  ⟨h.not_bad, fun a ha => hPQ a (h.value a ha)⟩

theorem bind {f : α → Except ε β} (h : Meets bad x P) (hf : ∀ a, P a → Meets bad (f a) R) :
    Meets bad (x >>= f) R := by
  cases x with
  | ok a => exact hf a (h.value a rfl)
  | error e => exact error (h.not_bad e rfl)

/-- A specification together with the equation for the value the computation ends in. -/
theorem of_eq (h : Meets bad x P) : Meets bad x fun a => x = .ok a ∧ P a :=
  ⟨h.not_bad, fun a ha => ⟨ha, h.value a ha⟩⟩

theorem refuseIf {c : Prop} {_ : Decidable c} {e : ε} (h : ¬bad e) :
    Meets bad (refuseIf c e) fun _ => ¬c := by
  unfold Npunlock.refuseIf
  split_ifs with hc
  · exact error h
  · exact ok hc

/-- The computation goes on only if `c` does not hold. -/
theorem refuseIf_bind {c : Prop} {_ : Decidable c} {e : ε} {f : Unit → Except ε β} (he : ¬bad e)
    (h : ¬c → Meets bad (f ()) R) : Meets bad (Npunlock.refuseIf c e >>= f) R :=
  (Meets.refuseIf he).bind fun _ hc => h hc

/-- A computation with two cases. -/
theorem ite {c : Prop} {_ : Decidable c} {y : Except ε α} (hx : c → Meets bad x P)
    (hy : ¬c → Meets bad y P) : Meets bad (if c then x else y) P := by
  split_ifs with hc
  · exact hx hc
  · exact hy hc

/-- The computation goes on, as `c` does not hold. -/
theorem refuseIf_never {c : Prop} {_ : Decidable c} {e : ε} {f : Unit → Except ε β} (hc : ¬c)
    (h : Meets bad (f ()) R) : Meets bad (Npunlock.refuseIf c e >>= f) R := by
  rwa [refuseIf_of_not e hc, ok_bind]

/-- A specification with fewer errors to exclude. -/
theorem weaken {bad' : ε → Prop} (h : Meets bad x P) (hbad : ∀ e, bad' e → bad e) :
    Meets bad' x P :=
  ⟨fun e he hbad' => h.not_bad e he (hbad e hbad'), h.value⟩

end Meets

/-! ## Loops that thread a state -/

/-- `body` at `start`, `start + 1`, …, `count` times. -/
def loop (body : ℕ → σ → Except ε σ) : ℕ → ℕ → σ → Except ε σ
  | _, 0, s => .ok s
  | i, n + 1, s => body i s >>= loop body (i + 1) n

/-- `for (i = lo; i < hi; ++i) s = body(i, s)`. -/
def forRange (lo hi : ℕ) (s : σ) (body : ℕ → σ → Except ε σ) : Except ε σ :=
  loop body lo (hi - lo) s

theorem Meets.loop {bad : ε → Prop} {body : ℕ → σ → Except ε σ} {Inv : ℕ → σ → Prop} :
    ∀ (n i : ℕ) (s : σ), Inv i s →
      (∀ j s, i ≤ j → j < i + n → Inv j s → Meets bad (body j s) (Inv (j + 1))) →
      Meets bad (loop body i n s) (Inv (i + n))
  | 0, _, _, h0, _ => Meets.ok h0
  | n + 1, i, s, h0, step => by
    refine (step i s le_rfl (by omega) h0).bind fun s' hs' => ?_
    have h := Meets.loop n (i + 1) s' hs' fun j t hj hj' =>
      step j t (by omega) (by omega)
    rwa [show i + 1 + n = i + (n + 1) by omega] at h

/-- A loop keeps an invariant that each of its steps keeps. -/
theorem Meets.forRange {bad : ε → Prop} {body : ℕ → σ → Except ε σ} (Inv : ℕ → σ → Prop)
    {lo hi : ℕ} {s : σ} (hle : lo ≤ hi) (h0 : Inv lo s)
    (step : ∀ i s, lo ≤ i → i < hi → Inv i s → Meets bad (body i s) (Inv (i + 1))) :
    Meets bad (forRange lo hi s body) (Inv hi) := by
  have h : Meets bad (Npunlock.loop body lo (hi - lo) s) (Inv (lo + (hi - lo))) :=
    Meets.loop (hi - lo) lo s h0 fun j t hj hj' => step j t hj (by omega)
  rwa [show lo + (hi - lo) = hi by omega] at h

theorem meets_of_forall_ok {x : Except ε α} {P : α → Prop} (h : ∀ a, x = .ok a → P a) :
    Meets (fun _ => False) x P :=
  ⟨fun _ _ => not_false, h⟩

/-- The invariant rule for a loop that is known to end in a value. -/
theorem forRange_inv {body : ℕ → σ → Except ε σ} (Inv : ℕ → σ → Prop) {lo hi : ℕ} {s s' : σ}
    (h : forRange lo hi s body = .ok s') (hle : lo ≤ hi) (h0 : Inv lo s)
    (step : ∀ i s t, lo ≤ i → i < hi → Inv i s → body i s = .ok t → Inv (i + 1) t) :
    Inv hi s' := by
  have hm : Meets (fun _ => False) (forRange lo hi s body) (Inv hi) :=
    Meets.forRange Inv hle h0 fun i t hi hi' ht =>
      meets_of_forall_ok fun t' ht' => step i t t' hi hi' ht ht'
  exact hm.value s' h

theorem loop_simulation {body : ℕ → σ → Except ε σ} {body' : ℕ → τ → Except ε τ}
    {R : ℕ → σ → τ → Prop} :
    ∀ (n i : ℕ) (s s' : σ) (t : τ), R i s t → loop body i n s = .ok s' →
      (∀ j s t u, i ≤ j → j < i + n → R j s t → body j s = .ok u →
        ∃ v, body' j t = .ok v ∧ R (j + 1) u v) →
      ∃ t', loop body' i n t = .ok t' ∧ R (i + n) s' t'
  | 0, _, _, _, t, hR, h, _ => by
    cases h
    exact ⟨t, rfl, hR⟩
  | n + 1, i, s, s', t, hR, h, step => by
    obtain ⟨u, hu, h⟩ := bind_eq_ok_iff.1 h
    obtain ⟨v, hv, hR'⟩ := step i s t u le_rfl (by omega) hR hu
    obtain ⟨t', ht', hR''⟩ := loop_simulation n (i + 1) u s' v hR' h
      fun j s t u hj hj' => step j s t u (by omega) (by omega)
    rw [show i + 1 + n = i + (n + 1) by omega] at hR''
    exact ⟨t', bind_eq_ok_iff.2 ⟨v, hv, ht'⟩, hR''⟩

/-- A loop that ends in a value is simulated by one that simulates each of its steps. -/
theorem forRange_simulation {body : ℕ → σ → Except ε σ} {body' : ℕ → τ → Except ε τ}
    (R : ℕ → σ → τ → Prop) {lo hi : ℕ} {s s' : σ} {t : τ} (h : forRange lo hi s body = .ok s')
    (hle : lo ≤ hi) (hR : R lo s t)
    (step : ∀ i s t u, lo ≤ i → i < hi → R i s t → body i s = .ok u →
      ∃ v, body' i t = .ok v ∧ R (i + 1) u v) :
    ∃ t', forRange lo hi t body' = .ok t' ∧ R hi s' t' := by
  have hloop := loop_simulation (hi - lo) lo s s' t hR h
    fun j s t u hj hj' => step j s t u hj (by omega)
  rwa [show lo + (hi - lo) = hi by omega] at hloop

/-! ## Loops that only check -/

/-- `for (i = lo; i < hi; ++i)` with a body that only returns early. -/
def checkRange (lo hi : ℕ) (check : ℕ → Except ε Unit) : Except ε Unit :=
  forRange lo hi () fun i _ => check i

theorem loop_unit_eq_ok_iff {check : ℕ → Except ε Unit} :
    ∀ n i : ℕ, loop (fun j _ => check j) i n () = .ok () ↔
      ∀ j, i ≤ j → j < i + n → check j = .ok ()
  | 0, i => by
    simp only [loop, true_iff]
    omega
  | n + 1, i => by
    have ih : loop (fun j _ => check j) (i + 1) n () = .ok () ↔ _ :=
      loop_unit_eq_ok_iff n (i + 1)
    simp only [loop, bind_eq_ok_iff]
    constructor
    · rintro ⟨_, h, hrest⟩ j hj hj'
      obtain rfl | hlt := Nat.eq_or_lt_of_le hj
      · exact h
      · exact ih.1 hrest j hlt (by omega)
    · intro h
      exact ⟨(), h i le_rfl (by omega), ih.2 fun j hj hj' => h j (by omega) (by omega)⟩

theorem checkRange_eq_ok_iff {lo hi : ℕ} {check : ℕ → Except ε Unit} {u : Unit} :
    checkRange lo hi check = .ok u ↔ ∀ i, lo ≤ i → i < hi → check i = .ok () := by
  rw [checkRange, forRange, show (Except.ok u : Except ε Unit) = .ok () from rfl,
    loop_unit_eq_ok_iff]
  constructor
  · exact fun h i hi hi' => h i hi (by omega)
  · exact fun h i hi hi' => h i hi (by omega)

theorem Meets.checkRange {bad : ε → Prop} {lo hi : ℕ} {check : ℕ → Except ε Unit}
    {P : ℕ → Prop} (h : ∀ i, lo ≤ i → i < hi → Meets bad (check i) fun _ => P i) :
    Meets bad (checkRange lo hi check) fun _ => ∀ i, lo ≤ i → i < hi → P i := by
  rcases Nat.le_total lo hi with hle | hle
  · exact Meets.forRange (fun i _ => ∀ j, lo ≤ j → j < i → P j) hle (by omega) fun i _ hi hi' hP =>
      (h i hi hi').mono fun _ hPi j hj hj' => by
        obtain rfl | hlt := Nat.eq_or_lt_of_le (Nat.le_of_lt_succ hj')
        · exact hPi
        · exact hP j hj hlt
  · rw [Npunlock.checkRange, Npunlock.forRange, Nat.sub_eq_zero_of_le hle]
    exact Meets.ok (by omega)

/-! ## Loops that fill an array -/

/-- The values of `f` at `start`, `start + 1`, …, `count` of them. -/
def mapFrom (f : ℕ → Except ε α) : ℕ → ℕ → Except ε (List α)
  | _, 0 => .ok []
  | i, n + 1 => do
    let a ← f i
    let rest ← mapFrom f (i + 1) n
    .ok (a :: rest)

/-- `for (i = 0; i < n; ++i) array[i] = f(i)`. -/
def mapRange (n : ℕ) (f : ℕ → Except ε α) : Except ε (List α) :=
  mapFrom f 0 n

theorem mapFrom_eq_ok_iff {f : ℕ → Except ε α} :
    ∀ (n i : ℕ) (l : List α), mapFrom f i n = .ok l ↔
      l.length = n ∧ ∀ j (hj : j < l.length), f (i + j) = .ok l[j]
  | 0, i, l => by
    cases l with
    | nil => simp [mapFrom]
    | cons a l => simp [mapFrom]
  | n + 1, i, l => by
    simp only [mapFrom, bind_eq_ok_iff, Except.ok.injEq]
    constructor
    · rintro ⟨a, ha, rest, hrest, rfl⟩
      obtain ⟨hlen, hget⟩ := (mapFrom_eq_ok_iff n (i + 1) rest).1 hrest
      refine ⟨by simp [hlen], fun j hj => ?_⟩
      cases j with
      | zero => exact ha
      | succ j =>
        have := hget j (by simpa using hj)
        rwa [show i + (j + 1) = i + 1 + j by omega]
    · rintro ⟨hlen, hget⟩
      cases l with
      | nil => simp at hlen
      | cons a rest =>
        refine ⟨a, hget 0 (by simp), rest, (mapFrom_eq_ok_iff n (i + 1) rest).2 ?_, rfl⟩
        refine ⟨by simpa using hlen, fun j hj => ?_⟩
        have := hget (j + 1) (by simpa using hj)
        rwa [show i + (j + 1) = i + 1 + j by omega] at this

theorem mapRange_eq_ok_iff {f : ℕ → Except ε α} {n : ℕ} {l : List α} :
    mapRange n f = .ok l ↔ l.length = n ∧ ∀ j (hj : j < l.length), f j = .ok l[j] := by
  simpa [mapRange] using mapFrom_eq_ok_iff (f := f) n 0 l

theorem Meets.mapFrom {bad : ε → Prop} {f : ℕ → Except ε α} {P : ℕ → α → Prop} :
    ∀ n i : ℕ, (∀ j, i ≤ j → j < i + n → Meets bad (f j) (P j)) →
      Meets bad (mapFrom f i n) fun l =>
        l.length = n ∧ ∀ j (hj : j < l.length), P (i + j) l[j]
  | 0, i, _ => Meets.ok (by simp)
  | n + 1, i, h => by
    refine (h i le_rfl (by omega)).bind fun a ha => ?_
    refine (Meets.mapFrom n (i + 1) fun j hj hj' => h j (by omega) (by omega)).bind ?_
    rintro rest ⟨hlen, hrest⟩
    refine Meets.ok ⟨by simp [hlen], fun j hj => ?_⟩
    cases j with
    | zero => exact ha
    | succ j =>
      have := hrest j (by simpa using hj)
      rwa [show i + (j + 1) = i + 1 + j by omega]

theorem Meets.mapRange {bad : ε → Prop} {f : ℕ → Except ε α} {P : ℕ → α → Prop} {n : ℕ}
    (h : ∀ j, j < n → Meets bad (f j) (P j)) :
    Meets bad (mapRange n f) fun l => l.length = n ∧ ∀ j (hj : j < l.length), P j l[j] := by
  have hfrom : Meets bad (Npunlock.mapFrom f 0 n) _ :=
    Meets.mapFrom (P := P) n 0 fun j _ hj => h j (by omega)
  simpa [Npunlock.mapRange] using hfrom

theorem Meets.forM {bad : ε → Prop} {f : α → Except ε Unit} {P : α → Prop} :
    ∀ {l : List α}, (∀ a ∈ l, Meets bad (f a) fun _ => P a) →
      Meets bad (l.forM f) fun _ => ∀ a ∈ l, P a
  | [], _ => Meets.ok (by simp)
  | a :: l, h => by
    refine (h a (by simp)).bind fun _ ha => ?_
    refine (Meets.forM fun b hb => h b (by simp [hb])).mono fun _ hl => ?_
    simpa using ⟨ha, hl⟩

/-- A run over a list keeps an invariant that each of its steps keeps. -/
theorem Meets.foldlM {bad : ε → Prop} {step : σ → α → Except ε σ} (Inv : σ → Prop) :
    ∀ {l : List α} {s : σ}, Inv s → (∀ s, ∀ a ∈ l, Inv s → Meets bad (step s a) Inv) →
      Meets bad (l.foldlM step s) Inv
  | [], _, hs, _ => Meets.ok hs
  | a :: l, s, hs, hstep => by
    rw [List.foldlM_cons]
    refine (hstep s a (by simp) hs).bind fun s' hs' => ?_
    exact Meets.foldlM Inv hs' fun t b hb => hstep t b (by simp [hb])

/-- A run over a list collects what each of its steps ends in. -/
theorem Meets.mapM {bad : ε → Prop} {f : α → Except ε β} {P : β → Prop} :
    ∀ {l : List α}, (∀ a ∈ l, Meets bad (f a) P) →
      Meets bad (l.mapM f) fun l' => l'.length = l.length ∧ ∀ b ∈ l', P b
  | [], _ => by
    rw [List.mapM_nil]
    exact Meets.ok (by simp)
  | a :: l, h => by
    rw [List.mapM_cons]
    refine (h a (by simp)).bind fun b hb => ?_
    refine (Meets.mapM fun c hc => h c (by simp [hc])).bind fun l' hl' => Meets.ok ?_
    simpa [hb] using hl'

theorem exists_mapRange {f : ℕ → Except ε α} {n : ℕ} (h : ∀ j < n, ∃ a, f j = .ok a) :
    ∃ l, mapRange n f = .ok l := by
  choose g hg using h
  refine ⟨List.ofFn fun j : Fin n => g j j.isLt, mapRange_eq_ok_iff.2 ⟨by simp, fun j hj => ?_⟩⟩
  rw [List.getElem_ofFn]
  exact hg j _

theorem forM_eq_ok_iff {f : α → Except ε Unit} :
    ∀ {l : List α} {u : Unit}, l.forM f = .ok u ↔ ∀ a ∈ l, f a = .ok ()
  | [], _ => by simp; rfl
  | a :: l, _ => by
    change (f a >>= fun _ => l.forM f) = _ ↔ _
    rw [bind_eq_ok_iff, List.forall_mem_cons]
    constructor
    · rintro ⟨_, ha, hl⟩
      exact ⟨ha, forM_eq_ok_iff.1 hl⟩
    · rintro ⟨ha, hl⟩
      exact ⟨_, ha, forM_eq_ok_iff.2 hl⟩

/-- What every step preserves, a run over a list preserves. -/
theorem foldlM_inv {step : σ → α → Except ε σ} (Inv : σ → Prop)
    (hstep : ∀ s a s', Inv s → step s a = .ok s' → Inv s') :
    ∀ {l : List α} {s s' : σ}, Inv s → l.foldlM step s = .ok s' → Inv s'
  | [], _, _, hs, h => by
    cases h
    exact hs
  | a :: l, s, s', hs, h => by
    rw [List.foldlM_cons] at h
    obtain ⟨s₁, h₁, h₂⟩ := bind_eq_ok_iff.1 h
    exact foldlM_inv Inv hstep (hstep s a s₁ hs h₁) h₂

theorem mapM_eq_some_iff {f : α → Option β} :
    ∀ {l : List α} {l' : List β}, l.mapM f = some l' ↔ List.Forall₂ (fun a b => f a = some b) l l'
  | [], l' => by simp [eq_comm]
  | a :: l, l' => by
    rw [List.mapM_cons, List.forall₂_cons_left_iff]
    constructor
    · intro h
      obtain ⟨b, hb, h⟩ := Option.bind_eq_some_iff.1 h
      obtain ⟨m, hm, h⟩ := Option.bind_eq_some_iff.1 h
      exact ⟨b, m, hb, mapM_eq_some_iff.1 hm, (Option.some.inj h).symm⟩
    · rintro ⟨b, m, hb, hm, rfl⟩
      exact Option.bind_eq_some_iff.2 ⟨b, hb, Option.bind_eq_some_iff.2
        ⟨m, mapM_eq_some_iff.2 hm, rfl⟩⟩

/-! ## Runs that agree -/

/-- `x` and `y` end in the same error or in related values. -/
inductive Agree (R : α → β → Prop) : Except ε α → Except ε β → Prop
  | ok {a : α} {b : β} (h : R a b) : Agree R (.ok a) (.ok b)
  | error (e : ε) : Agree R (.error e) (.error e)

namespace Agree

variable {R R' : α → β → Prop} {S : σ → τ → Prop} {x : Except ε α} {y : Except ε β}

theorem mono (h : Agree R x y) (hR : ∀ a b, R a b → R' a b) : Agree R' x y := by
  cases h with
  | ok h => exact ok (hR _ _ h)
  | error e => exact error e

theorem refl {R : α → α → Prop} (hR : ∀ a, R a a) (x : Except ε α) : Agree R x x := by
  cases x with
  | ok a => exact ok (hR a)
  | error e => exact error e

theorem eq {x y : Except ε α} (h : Agree Eq x y) : x = y := by
  cases h with
  | ok h => rw [h]
  | error e => rfl

theorem exists_ok (h : Agree R x y) {a : α} (hx : x = .ok a) : ∃ b, y = .ok b ∧ R a b := by
  cases h with
  | ok h =>
    cases hx
    exact ⟨_, rfl, h⟩
  | error e => cases hx

theorem bind {f : α → Except ε σ} {g : β → Except ε τ} (h : Agree R x y)
    (hfg : ∀ a b, x = .ok a → y = .ok b → R a b → Agree S (f a) (g b)) :
    Agree S (x >>= f) (y >>= g) := by
  cases h with
  | ok h => exact hfg _ _ rfl rfl h
  | error e => exact error e

/-- Both runs begin with the same computation. -/
theorem bind_eq {x y : Except ε α} {f : α → Except ε σ} {g : α → Except ε τ} (h : y = x)
    (hfg : ∀ a, x = .ok a → Agree S (f a) (g a)) : Agree S (x >>= f) (y >>= g) := by
  rw [h]
  cases x with
  | ok a => exact hfg a rfl
  | error e => exact error e

theorem refuseIf_bind {c d : Prop} {_ : Decidable c} {_ : Decidable d} {e : ε}
    {f : Unit → Except ε σ} {g : Unit → Except ε τ} (hcd : d ↔ c)
    (h : ¬c → Agree S (f ()) (g ())) : Agree S (refuseIf c e >>= f) (refuseIf d e >>= g) := by
  by_cases hc : c
  · rw [refuseIf_of e hc, refuseIf_of e (hcd.2 hc)]
    exact error e
  · rw [refuseIf_of_not e hc, refuseIf_of_not e (mt hcd.1 hc)]
    exact h hc

/-- Both runs end here. -/
theorem refuseIf_both {c d : Prop} {_ : Decidable c} {_ : Decidable d} {e : ε}
    {f : Unit → Except ε σ} {g : Unit → Except ε τ} (hc : c) (hd : d) :
    Agree S (refuseIf c e >>= f) (refuseIf d e >>= g) := by
  rw [refuseIf_of e hc, refuseIf_of e hd]
  exact error e

theorem refuseIf {c d : Prop} {_ : Decidable c} {_ : Decidable d} {e : ε} (hcd : d ↔ c) :
    Agree Eq (refuseIf c e) (Npunlock.refuseIf d e) := by
  by_cases hc : c
  · rw [refuseIf_of e hc, refuseIf_of e (hcd.2 hc)]
    exact error e
  · rw [refuseIf_of_not e hc, refuseIf_of_not e (mt hcd.1 hc)]
    exact ok rfl

/-- Each run has its own specification as well. -/
theorem meets {bad bad' : ε → Prop} {P : α → Prop} {Q : β → Prop} (h : Agree R x y)
    (hx : Meets bad x P) (hy : Meets bad' y Q) : Agree (fun a b => P a ∧ Q b ∧ R a b) x y := by
  cases h with
  | ok h => exact ok ⟨hx.value _ rfl, hy.value _ rfl, h⟩
  | error e => exact error e

theorem loop {body : ℕ → σ → Except ε σ} {body' : ℕ → τ → Except ε τ}
    {S : ℕ → σ → τ → Prop} :
    ∀ (n i : ℕ) (s : σ) (t : τ), S i s t →
      (∀ j s t, i ≤ j → j < i + n → S j s t → Agree (S (j + 1)) (body j s) (body' j t)) →
      Agree (S (i + n)) (loop body i n s) (Npunlock.loop body' i n t)
  | 0, _, _, _, hS, _ => ok hS
  | n + 1, i, s, t, hS, h => by
    have hnext := (h i s t le_rfl (by omega) hS).bind fun s' t' _ _ hS' =>
      Agree.loop n (i + 1) s' t' hS' fun j u v hj hj' => h j u v (by omega) (by omega)
    rwa [show i + 1 + n = i + (n + 1) by omega] at hnext

/-- Two runs of a loop whose states are related before each step. -/
theorem forRange {body : ℕ → σ → Except ε σ} {body' : ℕ → τ → Except ε τ}
    (S : ℕ → σ → τ → Prop) {lo hi : ℕ} {s : σ} {t : τ} (hle : lo ≤ hi) (hS : S lo s t)
    (h : ∀ i s t, lo ≤ i → i < hi → S i s t → Agree (S (i + 1)) (body i s) (body' i t)) :
    Agree (S hi) (forRange lo hi s body) (Npunlock.forRange lo hi t body') := by
  have hloop := Agree.loop (hi - lo) lo s t hS fun j u v hj hj' => h j u v hj (by omega)
  rwa [show lo + (hi - lo) = hi by omega] at hloop

theorem checkRange {check check' : ℕ → Except ε Unit} {lo hi : ℕ}
    (h : ∀ i, lo ≤ i → i < hi → Agree Eq (check i) (check' i)) :
    Agree Eq (checkRange lo hi check) (Npunlock.checkRange lo hi check') := by
  rcases Nat.le_total lo hi with hle | hle
  · exact Agree.forRange (fun _ => Eq) hle rfl fun i _ _ hi hi' _ => h i hi hi'
  · rw [Npunlock.checkRange, Npunlock.checkRange, Npunlock.forRange, Npunlock.forRange,
      Nat.sub_eq_zero_of_le hle]
    exact ok rfl

theorem mapFrom {f : ℕ → Except ε α} {g : ℕ → Except ε β} :
    ∀ n i : ℕ, (∀ j, i ≤ j → j < i + n → Agree R (f j) (g j)) →
      Agree (List.Forall₂ R) (mapFrom f i n) (Npunlock.mapFrom g i n)
  | 0, _, _ => ok List.Forall₂.nil
  | n + 1, i, h =>
    (h i le_rfl (by omega)).bind fun _ _ _ _ hab =>
      (Agree.mapFrom n (i + 1) fun j hj hj' => h j (by omega) (by omega)).bind
        fun _ _ _ _ hrest => ok (List.Forall₂.cons hab hrest)

theorem mapRange {f : ℕ → Except ε α} {g : ℕ → Except ε β} {n : ℕ}
    (h : ∀ j, j < n → Agree R (f j) (g j)) :
    Agree (List.Forall₂ R) (mapRange n f) (Npunlock.mapRange n g) :=
  Agree.mapFrom n 0 fun j _ hj => h j (by omega)

theorem forM {f g : α → Except ε Unit} :
    ∀ {l : List α}, (∀ a ∈ l, Agree Eq (f a) (g a)) → Agree Eq (l.forM f) (l.forM g)
  | [], _ => ok rfl
  | a :: _, h =>
    (h a (by simp)).bind fun _ _ _ _ _ => Agree.forM fun b hb => h b (by simp [hb])

theorem mapRange_eq {f g : ℕ → Except ε α} {n : ℕ} (h : ∀ j, j < n → Agree Eq (f j) (g j)) :
    Agree Eq (Npunlock.mapRange n f) (Npunlock.mapRange n g) :=
  (Agree.mapRange h).mono fun _ _ hall => List.forall₂_eq_eq_eq ▸ hall

end Agree

end Npunlock
