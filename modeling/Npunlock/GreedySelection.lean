import Mathlib.Data.List.Sort

/-!
# Greedy selection in the order of a key

A greedy selection visits entries in an order and keeps each one that no kept entry
conflicts with, until a limit is reached (`greedy`). A program may visit the entries
piece by piece (`greedy_append`), and it may find the order of a piece by looking for the
least key above the last one visited (`IsNext`) instead of sorting it.
-/

namespace Npunlock

/-! ## The order of a key -/

section Sorted

variable {α K : Type} [LinearOrder K] (key : α → K)

/-- The entries in the order of their keys. -/
def sortedBy (l : List α) : List α :=
  l.insertionSort fun a b => key a ≤ key b

variable {key} {l r : List α}

theorem perm_sortedBy : (sortedBy key l).Perm l :=
  List.perm_insertionSort _ l

@[simp] theorem mem_sortedBy {a : α} : a ∈ sortedBy key l ↔ a ∈ l :=
  perm_sortedBy.mem_iff

theorem pairwise_sortedBy : (sortedBy key l).Pairwise fun a b => key a ≤ key b := by
  have htotal : Std.Total fun a b : α => key a ≤ key b := ⟨fun a b => le_total (key a) (key b)⟩
  have htrans : IsTrans α fun a b => key a ≤ key b := ⟨fun _ _ _ => le_trans⟩
  exact List.pairwise_insertionSort _ l

variable (hkey : Function.Injective key)

include hkey

/-- Distinct entries have distinct keys, so the order is strict. -/
theorem strict_sortedBy (hl : l.Nodup) : (sortedBy key l).Pairwise fun a b => key a < key b := by
  have hnodup : (sortedBy key l).Nodup := perm_sortedBy.symm.nodup hl
  refine (pairwise_sortedBy.and hnodup).imp fun {a b} h => lt_of_le_of_ne h.1 ?_
  exact fun heq => h.2 (hkey heq)

/-- Sorted pieces follow each other if their keys do. -/
theorem sortedBy_append (h : ∀ a ∈ l, ∀ b ∈ r, key a ≤ key b) :
    sortedBy key (l ++ r) = sortedBy key l ++ sortedBy key r := by
  refine (perm_sortedBy.trans (perm_sortedBy.symm.append perm_sortedBy.symm)).eq_of_pairwise
    (fun a b _ _ hab hba => hkey (le_antisymm hab hba)) pairwise_sortedBy ?_
  refine List.pairwise_append.2 ⟨pairwise_sortedBy, pairwise_sortedBy, fun a ha b hb => ?_⟩
  exact h a (mem_sortedBy.1 ha) b (mem_sortedBy.1 hb)

/-- The order depends on the order of the keys only. -/
theorem sortedBy_congr {K' : Type} [LinearOrder K'] {key' : α → K'}
    (h : ∀ a ∈ l, ∀ b ∈ l, key' a ≤ key' b → key a ≤ key b) : sortedBy key' l = sortedBy key l := by
  refine (perm_sortedBy.trans perm_sortedBy.symm).eq_of_pairwise
    (fun a b _ _ hab hba => hkey (le_antisymm hab hba)) ?_ pairwise_sortedBy
  refine pairwise_sortedBy.imp_of_mem fun {a b} ha hb hle => ?_
  exact h a (mem_sortedBy.1 ha) b (mem_sortedBy.1 hb) hle

omit hkey in
/-- The entry with the least key above the last one. -/
structure IsNext (key : α → K) (l : List α) (last : Option α) (a : α) : Prop where
  mem : a ∈ l
  above : ∀ b ∈ last, key b < key a
  least : ∀ b ∈ l, (∀ c ∈ last, key c < key b) → key a ≤ key b

/-- The order is found entry by entry. -/
theorem isNext_of_sortedBy (hl : l.Nodup) {before after : List α} {a : α}
    (h : sortedBy key l = before ++ a :: after) : IsNext key l before.getLast? a := by
  have hmem : ∀ b, b ∈ l ↔ b ∈ before ++ a :: after := fun b => by rw [← h, mem_sortedBy]
  have hstrict := strict_sortedBy hkey hl
  rw [h, List.pairwise_append, List.pairwise_cons] at hstrict
  obtain ⟨hbefore, ⟨hafter, _⟩, hacross⟩ := hstrict
  refine ⟨(hmem a).2 (by simp), fun b hb => ?_, fun b hb habove => ?_⟩
  · exact hacross b (List.mem_of_getLast? hb) a List.mem_cons_self
  · rw [hmem, List.mem_append, List.mem_cons] at hb
    rcases hb with hb | rfl | hb
    · -- the keys before the last one are not above it
      obtain ⟨last, hlast⟩ : ∃ last, before.getLast? = some last :=
        ⟨_, List.getLast?_eq_some_getLast (List.ne_nil_of_mem hb)⟩
      obtain ⟨init, rfl⟩ := List.getLast?_eq_some_iff.1 hlast
      have hlt := habove last hlast
      rw [List.pairwise_append] at hbefore
      rcases List.mem_append.1 hb with hb | hb
      · exact absurd (hbefore.2.2 b hb last (by simp)) (not_lt.2 hlt.le)
      · obtain rfl := List.mem_singleton.1 hb
        exact absurd hlt (lt_irrefl _)
    · exact le_rfl
    · exact (hafter b hb).le

end Sorted

/-! ## Greedy selection -/

section Greedy

variable {α : Type} (conflict : α → α → Bool) (limit : ℕ)

/-- Keeps every entry that no kept one conflicts with, as long as there is room. -/
def greedy : List α → List α → List α
  | kept, [] => kept
  | kept, a :: rest =>
    if limit ≤ kept.length then kept
    else if kept.any fun b => conflict b a then greedy kept rest
    else greedy (kept ++ [a]) rest

variable {conflict limit} {kept : List α}

theorem greedy_of_le (h : limit ≤ kept.length) (l : List α) :
    greedy conflict limit kept l = kept := by
  cases l with
  | nil => rfl
  | cons a rest => rw [greedy, if_pos h]

theorem greedy_cons {a : α} {rest : List α} (h : kept.length < limit) :
    greedy conflict limit kept (a :: rest) =
      if kept.any fun b => conflict b a then greedy conflict limit kept rest
      else greedy conflict limit (kept ++ [a]) rest := by
  rw [greedy, if_neg (not_le.2 h)]

/-- The entries may come in pieces. -/
theorem greedy_append (l r : List α) (kept : List α) :
    greedy conflict limit kept (l ++ r) =
      greedy conflict limit (greedy conflict limit kept l) r := by
  induction l generalizing kept with
  | nil => rfl
  | cons a rest ih =>
    rcases Nat.lt_or_ge kept.length limit with hlt | hge
    · rw [List.cons_append, greedy_cons hlt, greedy_cons hlt]
      split_ifs
      · exact ih kept
      · exact ih (kept ++ [a])
    · rw [greedy_of_le hge, greedy_of_le hge, greedy_of_le hge]

/-- Only the conflicts between the entries matter. -/
theorem greedy_congr {conflict' : α → α → Bool} {l : List α}
    (h : ∀ a ∈ kept ++ l, ∀ b ∈ l, conflict a b = conflict' a b) :
    greedy conflict limit kept l = greedy conflict' limit kept l := by
  induction l generalizing kept with
  | nil => rfl
  | cons a rest ih =>
    have hany : (kept.any fun b => conflict b a) = kept.any fun b => conflict' b a := by
      rw [Bool.eq_iff_iff, List.any_eq_true, List.any_eq_true]
      refine exists_congr fun b => and_congr_right fun hb => ?_
      rw [h b (List.mem_append_left _ hb) a List.mem_cons_self]
    rw [greedy, greedy, hany]
    split_ifs
    · rfl
    all_goals exact ih fun b hb c hc => h b (by grind) c (List.mem_cons_of_mem a hc)

theorem length_greedy_le (h : kept.length ≤ limit) (l : List α) :
    (greedy conflict limit kept l).length ≤ limit := by
  induction l generalizing kept with
  | nil => exact h
  | cons a rest ih =>
    rcases Nat.lt_or_ge kept.length limit with hlt | hge
    · rw [greedy_cons hlt]
      split_ifs
      · exact ih h
      · exact ih (by rw [List.length_append, List.length_singleton]; omega)
    · rw [greedy_of_le hge]
      exact h

/-- Only entries of the list are kept. -/
theorem mem_of_mem_greedy {l : List α} {a : α} (h : a ∈ greedy conflict limit kept l) :
    a ∈ kept ∨ a ∈ l := by
  induction l generalizing kept with
  | nil => exact .inl h
  | cons b rest ih =>
    rw [greedy] at h
    split_ifs at h
    · exact .inl h
    · exact (ih h).imp_right (List.mem_cons_of_mem b)
    · rcases ih h with hmem | hmem
      · rcases List.mem_append.1 hmem with hmem | hmem
        · exact .inl hmem
        · exact .inr (by rw [List.mem_singleton.1 hmem]; exact List.mem_cons_self)
      · exact .inr (List.mem_cons_of_mem b hmem)

end Greedy

end Npunlock
