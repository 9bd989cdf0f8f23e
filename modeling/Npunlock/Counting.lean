import Mathlib.Algebra.BigOperators.Group.Finset.Basic
import Mathlib.Algebra.BigOperators.Group.Finset.Piecewise
import Mathlib.Algebra.Order.BigOperators.Group.List
import Mathlib.Data.Finset.Card
import Mathlib.Data.List.FinRange
import Mathlib.Data.List.Nodup
import Mathlib.Data.Nat.Bitwise
import Npunlock.Loop

/-!
# Flags, matches and first occurrences

What loops over arrays of records compute : the union of flags (`orAll`), the records that
match (`List.filter`, with `filter_eq_singleton` for a match that is the only one), the
records with a key that no earlier record has (`firsts`), and running counts
(`foldlM_adds`).
-/

namespace Npunlock

variable {α β γ κ σ ε : Type}

/-! ## Flags -/

/-- `flag` where `c` holds. -/
def flagIf (c : Prop) [Decidable c] (flag : ℕ) : ℕ :=
  if c then flag else 0

/-- The union of sets of flags. -/
def orAll (l : List ℕ) : ℕ :=
  l.foldr (· ||| ·) 0

theorem or_eq_zero_iff {m n : ℕ} : m ||| n = 0 ↔ m = 0 ∧ n = 0 :=
  Nat.or_eq_zero_iff

theorem orAll_eq_zero_iff : ∀ {l : List ℕ}, orAll l = 0 ↔ ∀ x ∈ l, x = 0
  | [] => by simp [orAll]
  | x :: l => by
    rw [List.forall_mem_cons, ← orAll_eq_zero_iff, ← or_eq_zero_iff]
    rfl

theorem testBit_orAll {l : List ℕ} {i : ℕ} :
    (orAll l).testBit i = true ↔ ∃ x ∈ l, x.testBit i = true := by
  induction l with
  | nil => simp [orAll]
  | cons x l ih => simpa [orAll] using or_congr_right ih

theorem orAll_map_eq_zero_iff {l : List α} {f : α → ℕ} :
    orAll (l.map f) = 0 ↔ ∀ a ∈ l, f a = 0 := by
  rw [orAll_eq_zero_iff, List.forall_mem_map]

theorem flagIf_eq_zero_iff {c : Prop} {_ : Decidable c} {flag : ℕ} (h : flag ≠ 0) :
    flagIf c flag = 0 ↔ ¬c := by
  unfold flagIf
  split_ifs with hc
  · simp [h, hc]
  · simp [hc]

/-! ## Matches -/

/-- An only match. -/
theorem filter_eq_singleton {p : α → Bool} {l : List α} {a : α} (h : l.filter p = [a]) :
    a ∈ l ∧ p a = true ∧ ∀ b ∈ l, p b = true → b = a := by
  have hmem : ∀ b, b ∈ l ∧ p b = true ↔ b = a := by
    intro b
    rw [← List.mem_filter, h, List.mem_singleton]
  obtain ⟨ha, hp⟩ := (hmem a).2 rfl
  exact ⟨ha, hp, fun b hb hpb => (hmem b).1 ⟨hb, hpb⟩⟩

/-- The last of a list of one element is that element. -/
theorem length_one_and_last_iff {l : List α} {p : α → Prop} :
    (l.length = 1 ∧ ∃ a ∈ l.getLast?, p a) ↔ ∃ a, l = [a] ∧ p a := by
  constructor
  · rintro ⟨hone, a, hlast, ha⟩
    obtain ⟨b, rfl⟩ := List.length_eq_one_iff.1 hone
    obtain rfl : b = a := by simpa using hlast
    exact ⟨b, rfl, ha⟩
  · rintro ⟨a, rfl, ha⟩
    exact ⟨rfl, a, rfl, ha⟩

/-- In a list without repetition, a match is the only one if all matches equal it. -/
theorem filter_eq_singleton_iff {p : α → Bool} {l : List α} (hl : l.Nodup) {a : α} :
    l.filter p = [a] ↔ a ∈ l ∧ p a = true ∧ ∀ b ∈ l, p b = true → b = a := by
  refine ⟨filter_eq_singleton, fun ⟨ha, hp, hall⟩ => ?_⟩
  refine List.perm_singleton.1 ((List.perm_ext_iff_of_nodup (hl.filter p) (by simp)).2 fun b => ?_)
  rw [List.mem_filter, List.mem_singleton]
  exact ⟨fun ⟨hb, hpb⟩ => hall b hb hpb, fun h => h ▸ ⟨ha, hp⟩⟩

theorem length_filter_eq_one_iff {p : α → Bool} {l : List α} (hl : l.Nodup) :
    (l.filter p).length = 1 ↔ ∃! a, a ∈ l ∧ p a = true := by
  rw [List.length_eq_one_iff]
  constructor
  · rintro ⟨a, h⟩
    obtain ⟨ha, hp, hall⟩ := filter_eq_singleton h
    exact ⟨a, ⟨ha, hp⟩, fun b hb => hall b hb.1 hb.2⟩
  · rintro ⟨a, ⟨ha, hp⟩, hall⟩
    exact ⟨a, (filter_eq_singleton_iff hl).2 ⟨ha, hp, fun b hb hpb => hall b ⟨hb, hpb⟩⟩⟩

theorem countP_eq_sum {p : α → Bool} : ∀ {l : List α},
    l.countP p = (l.map fun a => if p a = true then 1 else 0).sum
  | [] => rfl
  | a :: l => by
    rw [List.countP_cons, List.map_cons, List.sum_cons, countP_eq_sum, Nat.add_comm]

theorem length_filter_eq_zero_iff {p : α → Bool} {l : List α} :
    (l.filter p).length = 0 ↔ ∀ a ∈ l, p a = false := by
  rw [List.length_eq_zero_iff, List.filter_eq_nil_iff]
  simp only [Bool.not_eq_true]

/-- The keys of a list are those of another, once each, iff every key of the second is the
key of exactly one element of the first, and the first has no other. -/
theorem map_perm_map_iff [DecidableEq κ] {f : α → κ} {g : β → κ} {l₁ : List α} {l₂ : List β}
    (hg : (l₂.map g).Nodup) :
    (l₁.map f).Perm (l₂.map g) ↔
      (∀ a ∈ l₁, ∃ b ∈ l₂, g b = f a) ∧
        ∀ b ∈ l₂, (l₁.filter fun a => f a = g b).length = 1 := by
  have hcount : ∀ k, (l₁.map f).count k = (l₁.filter fun a => f a = k).length := by
    intro k
    rw [List.count, List.countP_map, List.countP_eq_length_filter]
    rfl
  constructor
  · intro hperm
    refine ⟨fun a ha => List.mem_map.1 (hperm.subset (List.mem_map_of_mem ha)), fun b hb => ?_⟩
    rw [← hcount, hperm.count_eq]
    exact List.count_eq_one_of_mem hg (List.mem_map_of_mem hb)
  · rintro ⟨hkeys, hone⟩
    refine List.perm_iff_count.2 fun k => ?_
    rw [hcount]
    by_cases hk : k ∈ l₂.map g
    · obtain ⟨b, hb, rfl⟩ := List.mem_map.1 hk
      rw [hone b hb, List.count_eq_one_of_mem hg hk]
    · rw [List.count_eq_zero_of_not_mem hk, length_filter_eq_zero_iff]
      refine fun a ha => decide_eq_false fun heq => hk ?_
      obtain ⟨b, hb, hba⟩ := hkeys a ha
      exact List.mem_map.2 ⟨b, hb, hba.trans heq⟩

/-- The matches in the lists of all elements are those in the list of one, if the lists of
the others have none. -/
theorem filter_flatMap_eq {p : β → Bool} {f : α → List β} {a : α} :
    ∀ {l : List α}, l.Nodup → a ∈ l → (∀ a' ∈ l, a' ≠ a → ∀ b ∈ f a', p b = false) →
      (l.flatMap f).filter p = (f a).filter p
  | c :: l, hl, ha, hother => by
    obtain ⟨hc, hl⟩ := List.nodup_cons.1 hl
    obtain ⟨hfirst, hrest⟩ := List.forall_mem_cons.1 hother
    rw [List.flatMap_cons, List.filter_append]
    rcases List.mem_cons.1 ha with rfl | ha
    · have hnil : (l.flatMap f).filter p = [] := List.filter_eq_nil_iff.2 fun b hb => by
        obtain ⟨a', ha', hb⟩ := List.mem_flatMap.1 hb
        rw [hrest a' ha' (fun h => hc (h ▸ ha')) b hb]
        decide
      rw [hnil, List.append_nil]
    · have hnil : (f c).filter p = [] := List.filter_eq_nil_iff.2 fun b hb => by
        rw [hfirst (fun h => hc (h ▸ ha)) b hb]
        decide
      rw [hnil, List.nil_append, filter_flatMap_eq hl ha hrest]

theorem length_flatMap_le {f : α → List β} {n : ℕ} : ∀ {l : List α},
    (∀ a ∈ l, (f a).length ≤ n) → (l.flatMap f).length ≤ l.length * n
  | [], _ => by
    simp
  | a :: l, h => by
    obtain ⟨ha, hrest⟩ := List.forall_mem_cons.1 h
    rw [List.flatMap_cons, List.length_append, List.length_cons, Nat.succ_mul, Nat.add_comm]
    exact Nat.add_le_add (length_flatMap_le hrest) ha

/-- Lists of one element each are the elements of a related list. -/
theorem forall₂_flatMap {f : α → List β} : ∀ {l : List α}, (∀ a ∈ l, ∃ b, f a = [b]) →
    List.Forall₂ (fun a b => f a = [b]) l (l.flatMap f)
  | [], _ => List.Forall₂.nil
  | a :: l, h => by
    obtain ⟨⟨b, hb⟩, hrest⟩ := List.forall_mem_cons.1 h
    rw [List.flatMap_cons, hb]
    exact List.Forall₂.cons hb (forall₂_flatMap hrest)

theorem flatMap_filter_eq {p : α → Bool} {f g : α → List β} :
    ∀ {l : List α}, (∀ a ∈ l, g a = if p a = true then f a else []) →
      l.flatMap g = (l.filter p).flatMap f
  | [], _ => rfl
  | a :: l, h => by
    obtain ⟨ha, hrest⟩ := List.forall_mem_cons.1 h
    rw [List.flatMap_cons, flatMap_filter_eq hrest, ha]
    by_cases hp : p a = true
    · rw [if_pos hp, List.filter_cons_of_pos hp, List.flatMap_cons]
    · rw [if_neg hp, List.filter_cons_of_neg hp, List.nil_append]

/-! ## Perfect matchings -/

/-- Every element of either list is related to exactly one of the other. -/
structure PerfectMatching (r : α → β → Prop) (l : List α) (l' : List β) : Prop where
  left : ∀ a ∈ l, ∃! b, b ∈ l' ∧ r a b
  right : ∀ b ∈ l', ∃! a, a ∈ l ∧ r a b

/-- The pairs of related elements, counted from either side. -/
theorem sum_countP_comm (p : α → β → Bool) (l' : List β) : ∀ l : List α,
    (l.map fun a => l'.countP (p a)).sum = (l'.map fun b => l.countP fun a => p a b).sum
  | [] => by
    simp
  | a :: l => by
    rw [List.map_cons, List.sum_cons, sum_countP_comm p l' l, countP_eq_sum, ← List.sum_map_add]
    refine congrArg List.sum (List.map_congr_left fun b _ => ?_)
    rw [List.countP_cons, Nat.add_comm]

/-- In lists without repetition, a matching is perfect iff every element has one partner. -/
theorem perfectMatching_iff {p : α → β → Bool} {l : List α} {l' : List β} (hl : l.Nodup)
    (hl' : l'.Nodup) : PerfectMatching (fun a b => p a b = true) l l' ↔
      (∀ a ∈ l, (l'.filter (p a)).length = 1) ∧
        ∀ b ∈ l', (l.filter fun a => p a b).length = 1 := by
  constructor
  · rintro ⟨hleft, hright⟩
    exact ⟨fun a ha => (length_filter_eq_one_iff hl').2 (hleft a ha),
      fun b hb => (length_filter_eq_one_iff hl).2 (hright b hb)⟩
  · rintro ⟨hleft, hright⟩
    exact ⟨fun a ha => (length_filter_eq_one_iff hl').1 (hleft a ha),
      fun b hb => (length_filter_eq_one_iff hl).1 (hright b hb)⟩

/-- Lists that are matched perfectly have one length. -/
theorem PerfectMatching.length_eq {p : α → β → Bool} {l : List α} {l' : List β} (hl : l.Nodup)
    (hl' : l'.Nodup) (h : PerfectMatching (fun a b => p a b = true) l l') :
    l.length = l'.length := by
  obtain ⟨hleft, hright⟩ := (perfectMatching_iff hl hl').1 h
  have hpairs := sum_countP_comm p l' l
  have hone : ∀ {γ : Type} {m : List γ} {f : γ → ℕ}, (∀ c ∈ m, f c = 1) →
      (m.map f).sum = m.length := by
    intro γ m f hf
    rw [List.map_congr_left hf]
    simp
  rwa [hone fun a ha => List.countP_eq_length_filter.trans (hleft a ha),
    hone fun b hb => List.countP_eq_length_filter.trans (hright b hb)] at hpairs

/-- Elements of a list with different keys, as many as the list has, are all its elements. -/
theorem perm_of_nodup_map {f : α → β} {l l' : List α} (hnodup : (l.map f).Nodup)
    (hmem : ∀ a ∈ l, a ∈ l') (hlength : l'.length ≤ l.length) : l.Perm l' :=
  (List.subperm_of_subset (List.Nodup.of_map f hnodup) hmem).perm_of_length_le hlength

/-! ## First occurrences -/

variable [DecidableEq κ]

/-- The elements of the second list with a key that neither the first list nor an earlier
element has. -/
def firstsFrom (key : α → κ) (earlier : List α) : List α → List α
  | [] => []
  | a :: l =>
    (if ∃ b ∈ earlier, key b = key a then [] else [a]) ++ firstsFrom key (earlier ++ [a]) l

/-- The elements with a key that no earlier element has. -/
def firsts (key : α → κ) (l : List α) : List α :=
  firstsFrom key [] l

variable {key : α → κ}

theorem mem_of_mem_firstsFrom : ∀ {earlier l : List α} {a : α}, a ∈ firstsFrom key earlier l →
    a ∈ l ∧ ∀ b ∈ earlier, key b ≠ key a
  | _, [], _, h => by
    cases h
  | earlier, c :: l, a, h => by
    unfold firstsFrom at h
    rcases List.mem_append.1 h with h | h
    · split_ifs at h with hc
      · cases h
      · rw [List.mem_singleton.1 h]
        exact ⟨List.mem_cons_self, fun b hb heq => hc ⟨b, hb, heq⟩⟩
    · obtain ⟨ha, hne⟩ := mem_of_mem_firstsFrom h
      exact ⟨List.mem_cons_of_mem c ha, fun b hb => hne b (List.mem_append_left _ hb)⟩

theorem firstsFrom_sublist : ∀ earlier l : List α, (firstsFrom key earlier l).Sublist l
  | _, [] => List.Sublist.slnil
  | earlier, c :: l => by
    unfold firstsFrom
    split_ifs
    · exact (firstsFrom_sublist _ l).cons c
    · exact (firstsFrom_sublist _ l).cons_cons c

theorem nodup_firstsFrom : ∀ {earlier l : List α}, ((firstsFrom key earlier l).map key).Nodup
  | _, [] => by
    simp [firstsFrom]
  | earlier, c :: l => by
    unfold firstsFrom
    split_ifs
    · exact nodup_firstsFrom
    · rw [List.singleton_append, List.map_cons, List.nodup_cons]
      refine ⟨fun h => ?_, nodup_firstsFrom⟩
      obtain ⟨a, ha, heq⟩ := List.mem_map.1 h
      exact (mem_of_mem_firstsFrom ha).2 c (by simp) heq.symm

theorem exists_mem_firstsFrom : ∀ (earlier : List α) {l : List α} {a : α}, a ∈ l →
    (∃ b ∈ earlier, key b = key a) ∨ ∃ b ∈ firstsFrom key earlier l, key b = key a
  | earlier, c :: l, a, h => by
    unfold firstsFrom
    by_cases hc : ∃ b ∈ earlier, key b = key c
    · rw [if_pos hc, List.nil_append]
      rcases List.mem_cons.1 h with rfl | h
      · exact Or.inl hc
      · rcases exists_mem_firstsFrom (earlier ++ [c]) h with ⟨b, hb, heq⟩ | h
        · rcases List.mem_append.1 hb with hb | hb
          · exact Or.inl ⟨b, hb, heq⟩
          · obtain ⟨d, hd, heq'⟩ := hc
            rw [List.mem_singleton.1 hb] at heq
            exact Or.inl ⟨d, hd, heq'.trans heq⟩
        · exact Or.inr h
    · rw [if_neg hc, List.singleton_append]
      rcases List.mem_cons.1 h with rfl | h
      · exact Or.inr ⟨a, List.mem_cons_self, rfl⟩
      · rcases exists_mem_firstsFrom (earlier ++ [c]) h with ⟨b, hb, heq⟩ | ⟨b, hb, heq⟩
        · rcases List.mem_append.1 hb with hb | hb
          · exact Or.inl ⟨b, hb, heq⟩
          · rw [List.mem_singleton.1 hb] at heq
            exact Or.inr ⟨c, List.mem_cons_self, heq⟩
        · exact Or.inr ⟨b, List.mem_cons_of_mem c hb, heq⟩

theorem mem_of_mem_firsts {l : List α} {a : α} (h : a ∈ firsts key l) : a ∈ l :=
  (mem_of_mem_firstsFrom h).1

/-- The first occurrences have different keys. -/
theorem nodup_firsts (key : α → κ) (l : List α) : ((firsts key l).map key).Nodup :=
  nodup_firstsFrom

/-- Every key has a first occurrence. -/
theorem exists_mem_firsts {l : List α} {a : α} (h : a ∈ l) : ∃ b ∈ firsts key l, key b = key a :=
  (exists_mem_firstsFrom [] h).resolve_left (by simp)

/-- There are as many first occurrences as keys. -/
theorem length_firsts (key : α → κ) (l : List α) :
    (firsts key l).length = (l.map key).toFinset.card := by
  have hkeys : ((firsts key l).map key).toFinset = (l.map key).toFinset := by
    ext k
    simp only [List.mem_toFinset, List.mem_map]
    constructor
    · rintro ⟨a, ha, rfl⟩
      exact ⟨a, mem_of_mem_firsts ha, rfl⟩
    · rintro ⟨a, ha, rfl⟩
      exact exists_mem_firsts ha
  rw [← hkeys, List.toFinset_card_of_nodup (nodup_firsts key l), List.length_map]

/-- An element adds a key unless an earlier element has it. -/
theorem card_keys_append (key : α → κ) (l : List α) (a : α) :
    ((l ++ [a]).map key).toFinset.card =
      (l.map key).toFinset.card + if ∃ b ∈ l, key b = key a then 0 else 1 := by
  have hkeys : ((l ++ [a]).map key).toFinset = insert (key a) (l.map key).toFinset := by
    ext k
    simp [eq_comm]
  have hmem : key a ∈ (l.map key).toFinset ↔ ∃ b ∈ l, key b = key a := by
    rw [List.mem_toFinset, List.mem_map]
  rw [hkeys]
  split_ifs with h
  · rw [Finset.insert_eq_of_mem (hmem.2 h), Nat.add_zero]
  · rw [Finset.card_insert_of_notMem (mt hmem.1 h)]

/-- Nothing was left out iff the keys are different. -/
theorem length_firsts_eq_iff {l : List α} :
    (firsts key l).length = l.length ↔ (l.map key).Nodup := by
  rw [length_firsts, List.card_toFinset, ← List.length_map key]
  constructor
  · intro h
    rw [← (List.dedup_sublist _).eq_of_length h]
    exact List.nodup_dedup _
  · intro h
    rw [h.dedup]

/-- If nothing is left out after earlier elements, the keys are different. -/
theorem nodup_of_length_firstsFrom {earlier l : List α}
    (h : (firstsFrom key earlier l).length = l.length) : (l.map key).Nodup := by
  rw [← (firstsFrom_sublist earlier l).eq_of_length h]
  exact nodup_firstsFrom

theorem length_firsts_le (key : α → κ) (l : List α) : (firsts key l).length ≤ l.length := by
  rw [length_firsts, ← List.length_map key]
  exact List.toFinset_card_le _

/-- Different keys have at most the elements of the list. -/
theorem sum_length_filter_le {keys : List κ} (hkeys : keys.Nodup) : ∀ l : List α,
    (keys.map fun k => (l.filter fun a => key a = k).length).sum ≤ l.length
  | [] => by
    simp
  | a :: l => by
    have hcons : ∀ k, ((a :: l).filter fun a => key a = k).length =
        (if k = key a then 1 else 0) + (l.filter fun a => key a = k).length := by
      intro k
      by_cases hk : key a = k
      · simp [hk, Nat.add_comm]
      · simp [hk, Ne.symm hk]
    have hone : (keys.map fun k => if k = key a then 1 else 0).sum ≤ 1 := by
      rw [← List.sum_toFinset _ hkeys, Finset.sum_ite_eq']
      split_ifs <;> omega
    have hrest := sum_length_filter_le hkeys l
    simp only [hcons, List.sum_map_add, List.length_cons]
    omega

/-- A sum over a list is the sum, over its keys, of the sums over the elements with the key. -/
theorem sum_filter_key {g : α → ℕ} : ∀ {l : List α} {keys : List κ}, keys.Nodup →
    (∀ a ∈ l, key a ∈ keys) →
    (keys.map fun k => ((l.filter fun a => key a = k).map g).sum).sum = (l.map g).sum
  | [], keys, _, _ => by
    simp
  | a :: l, keys, hkeys, hmem => by
    obtain ⟨ha, hl⟩ := List.forall_mem_cons.1 hmem
    have hcons : ∀ k, (((a :: l).filter fun a => key a = k).map g).sum =
        (if key a = k then g a else 0) + ((l.filter fun a => key a = k).map g).sum := by
      intro k
      by_cases hk : key a = k <;> simp [hk]
    have hsum := sum_filter_key (g := g) hkeys hl
    rw [← List.sum_toFinset _ hkeys] at hsum ⊢
    simp only [hcons, Finset.sum_add_distrib, hsum, Finset.sum_ite_eq, List.mem_toFinset, if_pos ha]
    simp

/-- Every step of a loop that ends was made, from some state. -/
theorem exists_step_of_foldlM {step : σ → α → Except ε σ} :
    ∀ {l : List α} {s s' : σ}, l.foldlM step s = .ok s' →
      ∀ a ∈ l, ∃ t t', step t a = .ok t'
  | [], _, _, _, a, ha => by
    cases ha
  | b :: l, s, s', hrun, a, ha => by
    rw [List.foldlM_cons] at hrun
    obtain ⟨s₁, hstep, hrest⟩ := bind_eq_ok_iff.1 hrun
    rcases List.mem_cons.1 ha with rfl | ha
    · exact ⟨s, s₁, hstep⟩
    · exact exists_step_of_foldlM hrest a ha

/-- An element of the first of two related lists is related to one of the second. -/
theorem exists_of_forall₂ {R : α → β → Prop} {l : List α} {l' : List β}
    (h : List.Forall₂ R l l') {a : α} (ha : a ∈ l) : ∃ b ∈ l', R a b := by
  obtain ⟨i, rfl⟩ := List.mem_iff_get.1 ha
  exact ⟨_, List.get_mem l' ⟨i, h.length_eq ▸ i.2⟩, h.get i.2 _⟩

/-- Related lists have as many related matches. -/
theorem length_filter_of_forall₂ {R : α → β → Prop} {p : α → Bool} {q : β → Bool}
    (hpq : ∀ a b, R a b → (p a = true ↔ q b = true)) {l : List α} {l' : List β}
    (h : List.Forall₂ R l l') : (l.filter p).length = (l'.filter q).length := by
  induction h with
  | nil => rfl
  | @cons a b l l' hab _ ih =>
    by_cases hp : p a = true
    · rw [List.filter_cons_of_pos hp, List.filter_cons_of_pos ((hpq a b hab).1 hp),
        List.length_cons, List.length_cons, ih]
    · rw [List.filter_cons_of_neg hp, List.filter_cons_of_neg (mt (hpq a b hab).2 hp), ih]

/-- A map that has a value everywhere relates a list to its values. -/
theorem forall₂_filterMap {f : α → Option β} : ∀ {l : List α}, (∀ a ∈ l, ∃ b, f a = some b) →
    List.Forall₂ (fun a b => f a = some b) l (l.filterMap f)
  | [], _ => List.Forall₂.nil
  | a :: l, h => by
    obtain ⟨⟨b, hb⟩, hrest⟩ := List.forall_mem_cons.1 h
    rw [List.filterMap_cons_some hb]
    exact List.Forall₂.cons hb (forall₂_filterMap hrest)

theorem map_eq_map_of_forall₂ {R : α → β → Prop} {f : α → γ} {g : β → γ}
    (hR : ∀ a b, R a b → g b = f a) {l : List α} {l' : List β} (h : List.Forall₂ R l l') :
    l'.map g = l.map f := by
  induction h with
  | nil => rfl
  | cons hab _ ih => rw [List.map_cons, List.map_cons, hR _ _ hab, ih]

theorem flatMap_eq_flatMap_of_forall₂ {R : α → β → Prop} {f : α → List γ} {g : β → List γ}
    (hR : ∀ a b, R a b → g b = f a) {l : List α} {l' : List β} (h : List.Forall₂ R l l') :
    l'.flatMap g = l.flatMap f := by
  rw [List.flatMap_def, List.flatMap_def, map_eq_map_of_forall₂ hR h]

/-- An entry of a list with distinct keys is found under its key. -/
theorem lookup_eq_some_of_mem : ∀ {l : List (κ × β)} {key : κ} {value : β},
    (l.map Prod.fst).Nodup → (key, value) ∈ l → l.lookup key = some value
  | entry :: l, key, value, hnodup, hmem => by
    obtain ⟨hkey, hnodup⟩ := List.nodup_cons.1 hnodup
    rcases List.mem_cons.1 hmem with rfl | hmem
    · simp
    · have hne : key ≠ entry.1 := by
        rintro rfl
        exact hkey (List.mem_map.2 ⟨_, hmem, rfl⟩)
      rw [List.lookup_cons, beq_eq_false_iff_ne.2 hne]
      exact lookup_eq_some_of_mem hnodup hmem

/-- Each of distinct keys is looked up to the value beside it. -/
theorem forall₂_lookup_zip {keys : List κ} (values : List β) (hkeys : keys.Nodup)
    (hlength : keys.length = values.length) :
    List.Forall₂ (fun key value => (keys.zip values).lookup key = some value) keys values := by
  refine List.forall₂_iff_get.2 ⟨hlength, fun i hi hi' => lookup_eq_some_of_mem ?_ ?_⟩
  · rwa [List.map_fst_zip hlength.le]
  · exact List.mem_iff_get.2 ⟨⟨i, by simpa using ⟨hi, hi'⟩⟩, by simp⟩

theorem mapError_eq_ok_iff {ε ε' α : Type} {f : ε → ε'} {result : Except ε α} {value : α} :
    result.mapError f = .ok value ↔ result = .ok value := by
  cases result <;> simp [Except.mapError]

theorem mapM_eq_ok_iff {f : α → Except ε β} :
    ∀ {l : List α} {l' : List β}, l.mapM f = .ok l' ↔ List.Forall₂ (fun a b => f a = .ok b) l l'
  | [], l' => by
    rw [List.mapM_nil, List.forall₂_nil_left_iff]
    exact ⟨fun h => (Except.ok.inj h).symm, fun h => by rw [h]; rfl⟩
  | a :: l, l' => by
    rw [List.mapM_cons, List.forall₂_cons_left_iff]
    constructor
    · intro h
      obtain ⟨b, hb, h⟩ := bind_eq_ok_iff.1 h
      obtain ⟨m, hm, h⟩ := bind_eq_ok_iff.1 h
      exact ⟨b, m, hb, mapM_eq_ok_iff.1 hm, (Except.ok.inj h).symm⟩
    · rintro ⟨b, m, hb, hm, rfl⟩
      rw [hb, mapM_eq_ok_iff.2 hm]
      rfl

/-- Results that carry their arguments as keys have the arguments as keys. -/
theorem map_eq_of_mapM {f : α → Except ε β} {g : β → α} (hf : ∀ a b, f a = .ok b → g b = a)
    {l : List α} {l' : List β} (h : l.mapM f = .ok l') : l'.map g = l := by
  induction mapM_eq_ok_iff.1 h with
  | nil => rfl
  | cons hab _ ih => rw [List.map_cons, hf _ _ hab, ih (mapM_eq_ok_iff.2 ‹_›)]

theorem exists_of_mapM {f : α → Except ε β} {l : List α} {l' : List β} (h : l.mapM f = .ok l')
    {b : β} (hb : b ∈ l') : ∃ a ∈ l, f a = .ok b :=
  exists_of_forall₂ (mapM_eq_ok_iff.1 h).flip hb

/-! ## Appending loops -/

/-- What a loop writes that appends records : every round sees the records before it. -/
def writeFrom (records : α → List β) (write : List β → α → γ) : List β → List α → List γ
  | _, [] => []
  | earlier, a :: l => write earlier a :: writeFrom records write (earlier ++ records a) l

theorem forall₂_writeFrom {records : α → List β} {write : List β → α → γ} {R : α → γ → Prop} :
    ∀ (earlier : List β) {l : List α}, (∀ a ∈ l, ∀ before, R a (write before a)) →
      List.Forall₂ R l (writeFrom records write earlier l)
  | _, [], _ => List.Forall₂.nil
  | earlier, a :: l, h => by
    obtain ⟨ha, hl⟩ := List.forall_mem_cons.1 h
    exact List.Forall₂.cons (ha earlier) (forall₂_writeFrom (earlier ++ records a) hl)

theorem exists_of_mem_writeFrom {records : α → List β} {write : List β → α → γ}
    {earlier : List β} {l : List α} {c : γ} (h : c ∈ writeFrom records write earlier l) :
    ∃ a ∈ l, ∃ before, c = write before a :=
  exists_of_forall₂ (forall₂_writeFrom earlier (R := fun a c => ∃ before, c = write before a)
    fun _ _ before => ⟨before, rfl⟩).flip h

/-! ## Running counts -/

/-- A loop whose steps add to a measure adds the sum. -/
theorem foldlM_adds {step : σ → α → Except ε σ} {g : α → ℕ} (measure : σ → ℕ)
    (h : ∀ s a s', step s a = .ok s' → measure s' = measure s + g a) :
    ∀ {l : List α} {s s' : σ}, l.foldlM step s = .ok s' →
      measure s' = measure s + (l.map g).sum
  | [], _, _, hrun => by
    cases hrun
    simp
  | a :: l, s, s', hrun => by
    rw [List.foldlM_cons] at hrun
    obtain ⟨s₁, hstep, hrest⟩ := bind_eq_ok_iff.1 hrun
    rw [foldlM_adds measure h hrest, h s a s₁ hstep, List.map_cons, List.sum_cons, Nat.add_assoc]

/-- A second pass writes what the first one has counted. -/
theorem eq_of_counted {count : ℕ} {l out : List α} {c d : Prop} [Decidable c] [Decidable d]
    {e e' : ε} (hcount : count = l.length)
    (h : (if count = 0 then .ok [] else do
      refuseIf c e
      refuseIf d e'
      .ok l) = Except.ok out) : out = l := by
  split_ifs at h with hzero
  · rw [List.eq_nil_of_length_eq_zero (hcount.symm.trans hzero)]
    exact (Except.ok.inj h).symm
  · obtain ⟨-, h⟩ := refuseIf_bind_eq_ok_iff.1 h
    obtain ⟨-, h⟩ := refuseIf_bind_eq_ok_iff.1 h
    exact (Except.ok.inj h).symm

end Npunlock
