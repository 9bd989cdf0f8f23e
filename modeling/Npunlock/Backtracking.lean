import Mathlib.Data.List.Nodup
import Mathlib.Tactic.Common

/-!
# Backtracking searches

A search makes one choice for each level of a list, in order. What may be chosen depends
on the level, the levels that remain and a state that the choices made so far determine.
`completions` lists every way to go through the levels into an accepted state.

`search` visits them depth first and hands each to `push`; it cuts off when `stop` holds.
`search_eq_foldl` says that it pushes exactly the completions, in order, until `stop`
holds. A search that stops at a number of results keeps the first ones
(`foldl_stopAt`, `foldl_keepOrTruncate`).

`mem_completions_iff` and `nodup_completions` describe the completions themselves.
-/

namespace Npunlock

variable {ι τ β σ : Type}

section Completions

variable (choices : ι → List ι → τ → List β) (next : τ → β → τ) (final : τ → Bool)

/-- Every way to choose for the levels from state `t`. -/
def completions : List ι → τ → List (List β)
  | [], t => if final t then [[]] else []
  | level :: levels, t =>
    (choices level levels t).flatMap fun b => (completions levels (next t b)).map (b :: ·)

/-- One choice for each level, each among those of its state, into an accepted state. -/
def IsCompletion : List ι → τ → List β → Prop
  | [], t, [] => final t = true
  | level :: levels, t, b :: bs =>
    b ∈ choices level levels t ∧ IsCompletion levels (next t b) bs
  | [], _, _ :: _ => False
  | _ :: _, _, [] => False

/-- The depth-first search from state `t`, with the choices `chosen` made so far. -/
def search (stop : σ → Bool) (push : σ → List β → σ) : List ι → τ → List β → σ → σ
  | [], t, chosen, s => if stop s then s else if final t then push s chosen else s
  | level :: levels, t, chosen, s =>
    if stop s then s
    else (choices level levels t).foldl
      (fun s b => search stop push levels (next t b) (chosen ++ [b]) s) s

variable {choices next final}

theorem mem_completions_iff :
    ∀ {levels : List ι} {t : τ} {bs : List β},
      bs ∈ completions choices next final levels t ↔
        IsCompletion choices next final levels t bs
  | [], t, [] => by
    simp only [completions, IsCompletion]
    split_ifs with h <;> simp [h]
  | [], t, b :: bs => by
    simp only [completions, IsCompletion]
    split_ifs <;> simp
  | level :: levels, t, [] => by
    simp [completions, IsCompletion]
  | level :: levels, t, b :: bs => by
    have ih : bs ∈ completions choices next final levels (next t b) ↔
        IsCompletion choices next final levels (next t b) bs := mem_completions_iff
    simp only [completions, IsCompletion, List.mem_flatMap, List.mem_map, List.cons.injEq]
    constructor
    · rintro ⟨b', hb', bs', hbs', rfl, rfl⟩
      exact ⟨hb', ih.1 hbs'⟩
    · rintro ⟨hb, hbs⟩
      exact ⟨b, hb, bs, ih.2 hbs, rfl, rfl⟩

theorem nodup_completions :
    ∀ {levels : List ι}, (∀ level ∈ levels, ∀ rest t, (choices level rest t).Nodup) →
      ∀ t : τ, (completions choices next final levels t).Nodup
  | [], _, t => by
    rw [completions]
    split_ifs <;> simp
  | level :: levels, h, t => by
    have ih := nodup_completions fun level hlevel => h level (List.mem_cons_of_mem _ hlevel)
    rw [completions, List.nodup_flatMap]
    refine ⟨fun b _ => (ih (next t b)).map List.cons_injective, ?_⟩
    refine (h level List.mem_cons_self levels t).imp fun {b b'} hne => ?_
    rw [Function.onFun_apply, List.disjoint_left]
    rintro bs hbs hbs'
    obtain ⟨tail, _, rfl⟩ := List.mem_map.1 hbs
    obtain ⟨tail', _, heq⟩ := List.mem_map.1 hbs'
    exact hne (List.cons.inj heq).1.symm

/-- Pushes a result unless the search has stopped. -/
def pushUnless (stop : σ → Bool) (push : σ → List β → σ) (s : σ) (bs : List β) : σ :=
  if stop s then s else push s bs

theorem foldl_pushUnless_of_stop {stop : σ → Bool} {push : σ → List β → σ} {s : σ}
    (h : stop s = true) : ∀ l : List (List β), l.foldl (pushUnless stop push) s = s
  | [] => rfl
  | bs :: l => by
    rw [List.foldl_cons, pushUnless, if_pos h]
    exact foldl_pushUnless_of_stop h l

/-- Cutting off does not change what is found. -/
theorem search_eq_foldl {stop : σ → Bool} {push : σ → List β → σ} :
    ∀ (levels : List ι) (t : τ) (chosen : List β) (s : σ),
      search choices next final stop push levels t chosen s =
        ((completions choices next final levels t).map (chosen ++ ·)).foldl
          (pushUnless stop push) s
  | [], t, chosen, s => by
    rw [search, completions]
    split_ifs with h hfinal hfinal
    · rw [foldl_pushUnless_of_stop h]
    · simp
    · simp [pushUnless, h]
    · rfl
  | level :: levels, t, chosen, s => by
    rw [search, completions]
    split_ifs with h
    · rw [foldl_pushUnless_of_stop h]
    · rw [List.map_flatMap, List.foldl_flatMap]
      congr 1
      funext s b
      rw [search_eq_foldl levels (next t b) (chosen ++ [b]) s, List.map_map]
      congr 2
      funext bs
      simp

end Completions

/-! ## Keeping results up to a limit -/

section Limits

variable (limit : ℕ)

/-- Appends results until there are `limit`. -/
theorem foldl_stopAt :
    ∀ l kept : List (List β),
      l.foldl (pushUnless (fun kept => decide (limit ≤ kept.length)) fun kept bs => kept ++ [bs])
        kept = kept ++ l.take (limit - kept.length)
  | [], kept => by simp
  | bs :: l, kept => by
    rw [List.foldl_cons, foldl_stopAt l, pushUnless]
    by_cases h : limit ≤ kept.length
    · rw [if_pos (decide_eq_true h), Nat.sub_eq_zero_of_le h, List.take_zero, List.take_zero]
    · obtain ⟨n, hn⟩ : ∃ n, limit - kept.length = n + 1 := ⟨limit - kept.length - 1, by omega⟩
      rw [if_neg (by simpa using h), List.length_append, List.length_singleton, ← Nat.sub_sub, hn,
        List.take_succ_cons, Nat.add_sub_cancel, List.append_assoc, List.singleton_append]

/-- Appends a result while there are fewer than `limit`, else notes that there are more. -/
def keepOrTruncate (s : List (List β) × Bool) (bs : List β) : List (List β) × Bool :=
  if s.1.length = limit then (s.1, true) else (s.1 ++ [bs], false)

theorem foldl_keepOrTruncate :
    ∀ l kept : List (List β), kept.length ≤ limit →
      l.foldl (pushUnless Prod.snd (keepOrTruncate limit)) (kept, false) =
        (kept ++ l.take (limit - kept.length), decide (limit < kept.length + l.length))
  | [], kept, h => by simpa using h
  | bs :: l, kept, h => by
    rw [List.foldl_cons, pushUnless, if_neg (by simp), keepOrTruncate]
    dsimp only
    split_ifs with hfull
    · rw [foldl_pushUnless_of_stop rfl, ← hfull]
      simp
    · obtain ⟨n, hn⟩ : ∃ n, limit - kept.length = n + 1 := ⟨limit - kept.length - 1, by omega⟩
      have hlength : (kept ++ [bs]).length = kept.length + 1 := by simp
      rw [foldl_keepOrTruncate l _ (by omega), hlength, ← Nat.sub_sub, hn, List.take_succ_cons,
        Nat.add_sub_cancel, List.append_assoc, List.singleton_append, List.length_cons,
        Nat.add_right_comm, Nat.add_assoc]

end Limits

end Npunlock
