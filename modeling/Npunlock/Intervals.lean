import Mathlib.Algebra.GroupWithZero.Nat
import Mathlib.Data.List.Sort
import Mathlib.Order.CompletePartialOrder
import Mathlib.Order.Interval.Set.Disjoint

/-!
# Merging intervals

Half-open intervals over a linear order, and the usual pass that sorts a list of them and
joins those that overlap or touch. The pass also says whether some interval began before
the end of those it was joined to. `covered_merge` : the result covers the same points.
`pairwise_merge` : its intervals are separated. `overlap_merge_iff` : nothing overlapped iff
the intervals are pairwise disjoint. `merge_eq_merge_iff` : two lists of nonempty intervals
are merged to the same list iff they cover the same points.
-/

namespace Npunlock

/-- A half-open interval. -/
structure Interval (α : Type) where
  start : α
  stop : α
  deriving DecidableEq

namespace Interval

variable {α : Type} [LinearOrder α]

/-- The points of an interval. -/
def points (x : Interval α) : Set α :=
  Set.Ico x.start x.stop

/-- The points of a list of intervals. -/
def covered (l : List (Interval α)) : Set α :=
  {b | ∃ x ∈ l, b ∈ x.points}

/-- The order of the sort : by start, then by end. -/
def Before (x y : Interval α) : Prop :=
  x.start < y.start ∨ x.start = y.start ∧ x.stop ≤ y.stop

/-- A gap lies between the intervals. -/
def Separated (x y : Interval α) : Prop :=
  x.stop < y.start

/-- The points of the intervals are apart. -/
def Apart (x y : Interval α) : Prop :=
  Disjoint x.points y.points

/-- The interval `x`, extended to the end of `y`. -/
def join (x y : Interval α) : Interval α where
  start := x.start
  stop := if x.stop < y.stop then y.stop else x.stop

/-- The pass over the sorted rest, with the interval that it extends. -/
def mergeFrom (previous : Interval α) : List (Interval α) → List (Interval α) × Bool
  | [] => ([previous], false)
  | x :: rest =>
    if x.start ≤ previous.stop then
      ((mergeFrom (previous.join x) rest).1,
        decide (x.start < previous.stop) || (mergeFrom (previous.join x) rest).2)
    else (previous :: (mergeFrom x rest).1, (mergeFrom x rest).2)

instance : DecidableRel (Before (α := α)) := fun x y =>
  inferInstanceAs (Decidable (x.start < y.start ∨ x.start = y.start ∧ x.stop ≤ y.stop))

/-- The merged intervals, and whether some of them overlapped. -/
def merge (l : List (Interval α)) : List (Interval α) × Bool :=
  match l.insertionSort Before with
  | [] => ([], false)
  | x :: rest => mergeFrom x rest

/-! ## Points -/

variable {l l' : List (Interval α)} {x y : Interval α} {b : α}

@[simp] theorem mem_points : b ∈ x.points ↔ x.start ≤ b ∧ b < x.stop :=
  Iff.rfl

theorem mem_covered : b ∈ covered l ↔ ∃ x ∈ l, b ∈ x.points :=
  Iff.rfl

@[simp] theorem covered_nil : covered ([] : List (Interval α)) = ∅ := by
  ext b
  simp [mem_covered]

@[simp] theorem covered_cons : covered (x :: l) = x.points ∪ covered l := by
  ext b
  simp [mem_covered]

theorem covered_perm (h : l.Perm l') : covered l = covered l' := by
  ext b
  simp only [mem_covered, h.mem_iff]

theorem apart_comm : x.Apart y ↔ y.Apart x :=
  disjoint_comm

theorem apart_of_le (h : x.stop ≤ y.start) : x.Apart y := by
  refine Set.disjoint_left.2 fun b hx hy => ?_
  exact absurd (hx.2.trans_le h) (not_lt.2 hy.1)

/-- Of two nonempty intervals that are apart, one ends before the other begins. -/
theorem le_of_apart (hy : y.start < y.stop) (hstart : x.start ≤ y.start)
    (h : x.Apart y) : x.stop ≤ y.start := by
  by_contra hlt
  exact Set.disjoint_left.1 h (⟨hstart, not_le.1 hlt⟩ : y.start ∈ x.points) ⟨le_rfl, hy⟩

/-! ## The sorted list -/

instance : Std.Total (Before (α := α)) where
  total x y := by
    rcases lt_trichotomy x.start y.start with h | h | h
    · exact Or.inl (Or.inl h)
    · rcases le_total x.stop y.stop with h' | h'
      · exact Or.inl (Or.inr ⟨h, h'⟩)
      · exact Or.inr (Or.inr ⟨h.symm, h'⟩)
    · exact Or.inr (Or.inl h)

instance : IsTrans (Interval α) Before where
  trans x y z := by
    rintro (h | ⟨h, h'⟩) (k | ⟨k, k'⟩)
    · exact Or.inl (h.trans k)
    · exact Or.inl (k ▸ h)
    · exact Or.inl (h ▸ k)
    · exact Or.inr ⟨h.trans k, h'.trans k'⟩

theorem Before.start_le (h : x.Before y) : x.start ≤ y.start := by
  rcases h with h | ⟨h, -⟩
  · exact h.le
  · exact h.le

/-- The starts ascend. -/
def Ascending (l : List (Interval α)) : Prop :=
  l.Pairwise fun x y => x.start ≤ y.start

theorem ascending_insertionSort (l : List (Interval α)) :
    Ascending (l.insertionSort Before) :=
  (List.pairwise_insertionSort Before l).imp Before.start_le

/-! ## The pass -/

theorem stop_le_join : x.stop ≤ (x.join y).stop ∧ y.stop ≤ (x.join y).stop := by
  unfold join
  dsimp only
  split_ifs with h
  · exact ⟨h.le, le_rfl⟩
  · exact ⟨le_rfl, not_lt.1 h⟩

theorem points_join (hstart : x.start ≤ y.start) (htouch : y.start ≤ x.stop) :
    (x.join y).points = x.points ∪ y.points := by
  ext b
  simp only [mem_points, Set.mem_union]
  constructor
  · rintro ⟨h1, h2⟩
    by_cases hb : b < x.stop
    · exact Or.inl ⟨h1, hb⟩
    · unfold join at h2
      dsimp only at h2
      split_ifs at h2
      · exact Or.inr ⟨htouch.trans (not_lt.1 hb), h2⟩
      · exact absurd h2 hb
  · rintro (⟨h1, h2⟩ | ⟨h1, h2⟩)
    · exact ⟨h1, h2.trans_le stop_le_join.1⟩
    · exact ⟨hstart.trans h1, h2.trans_le stop_le_join.2⟩

/-- The step of the pass keeps the starts in order. -/
theorem Ascending.join (h : Ascending (x :: y :: l)) : Ascending (x.join y :: l) := by
  obtain ⟨hx, hrest⟩ := List.pairwise_cons.1 h
  refine List.pairwise_cons.2 ⟨fun z hz => ?_, (List.pairwise_cons.1 hrest).2⟩
  exact hx z (List.mem_cons_of_mem y hz)

theorem Ascending.tail (h : Ascending (x :: l)) : Ascending l :=
  (List.pairwise_cons.1 h).2

theorem Ascending.head_le (h : Ascending (x :: l)) : ∀ z ∈ l, x.start ≤ z.start :=
  (List.pairwise_cons.1 h).1

theorem covered_mergeFrom : ∀ {l : List (Interval α)} {x : Interval α}, Ascending (x :: l) →
    covered (mergeFrom x l).1 = covered (x :: l)
  | [], x, _ => rfl
  | y :: l, x, h => by
    unfold mergeFrom
    split_ifs with htouch
    · rw [covered_mergeFrom h.join, covered_cons, covered_cons, covered_cons,
        points_join (h.head_le y List.mem_cons_self) htouch, Set.union_assoc]
    · rw [covered_cons, covered_mergeFrom h.tail]
      exact covered_cons.symm

/-- The result does not begin before the list. -/
theorem start_le_mergeFrom : ∀ {l : List (Interval α)} {x : Interval α}, Ascending (x :: l) →
    ∀ z ∈ (mergeFrom x l).1, x.start ≤ z.start
  | [], x, _, z, hz => by
    rw [List.mem_singleton.1 hz]
  | y :: l, x, h, z, hz => by
    unfold mergeFrom at hz
    split_ifs at hz with htouch
    · exact start_le_mergeFrom h.join z hz
    · rcases List.mem_cons.1 hz with rfl | hz
      · exact le_rfl
      · exact (h.head_le y List.mem_cons_self).trans (start_le_mergeFrom h.tail z hz)

theorem pairwise_mergeFrom : ∀ {l : List (Interval α)} {x : Interval α}, Ascending (x :: l) →
    (mergeFrom x l).1.Pairwise Separated
  | [], x, _ => List.pairwise_singleton _ _
  | y :: l, x, h => by
    unfold mergeFrom
    split_ifs with htouch
    · exact pairwise_mergeFrom h.join
    · refine List.pairwise_cons.2 ⟨fun z hz => ?_, pairwise_mergeFrom h.tail⟩
      exact (not_le.1 htouch).trans_le (start_le_mergeFrom h.tail z hz)

theorem nonempty_mergeFrom : ∀ {l : List (Interval α)} {x : Interval α},
    (∀ z ∈ x :: l, z.start < z.stop) → ∀ z ∈ (mergeFrom x l).1, z.start < z.stop
  | [], _, h => h
  | y :: l, x, h => by
    obtain ⟨hx, hrest⟩ := List.forall_mem_cons.1 h
    unfold mergeFrom
    split_ifs with htouch
    · refine nonempty_mergeFrom (List.forall_mem_cons.2 ⟨?_, (List.forall_mem_cons.1 hrest).2⟩)
      exact hx.trans_le stop_le_join.1
    · exact List.forall_mem_cons.2 ⟨hx, nonempty_mergeFrom hrest⟩

/-- Nothing overlapped : every interval ends before the later ones begin. -/
theorem le_of_not_overlap : ∀ {l : List (Interval α)} {x : Interval α}, Ascending (x :: l) →
    (mergeFrom x l).2 = false → (x :: l).Pairwise fun y z => y.stop ≤ z.start
  | [], x, _, _ => List.pairwise_singleton _ _
  | y :: l, x, h, hoverlap => by
    unfold mergeFrom at hoverlap
    split_ifs at hoverlap with htouch
    · simp only [Bool.or_eq_false_iff, decide_eq_false_iff_not, not_lt] at hoverlap
      obtain ⟨hjoin, hpair⟩ := List.pairwise_cons.1 (le_of_not_overlap h.join hoverlap.2)
      refine List.pairwise_cons.2 ⟨List.forall_mem_cons.2 ⟨hoverlap.1, fun z hz => ?_⟩,
        List.pairwise_cons.2 ⟨fun z hz => ?_, hpair⟩⟩
      · exact stop_le_join.1.trans (hjoin z hz)
      · exact stop_le_join.2.trans (hjoin z hz)
    · refine List.pairwise_cons.2 ⟨?_, le_of_not_overlap h.tail hoverlap⟩
      refine List.forall_mem_cons.2 ⟨(not_le.1 htouch).le, fun z hz => ?_⟩
      exact (not_le.1 htouch).le.trans (h.tail.head_le z hz)

theorem not_overlap_of_le : ∀ {l : List (Interval α)} {x : Interval α},
    (x :: l).Pairwise (fun y z => y.stop ≤ z.start) → (mergeFrom x l).2 = false
  | [], _, _ => rfl
  | y :: l, x, h => by
    obtain ⟨hx, hrest⟩ := List.pairwise_cons.1 h
    obtain ⟨hy, hl⟩ := List.pairwise_cons.1 hrest
    unfold mergeFrom
    split_ifs with htouch
    · simp only [Bool.or_eq_false_iff, decide_eq_false_iff_not, not_lt]
      refine ⟨hx y List.mem_cons_self, not_overlap_of_le (List.pairwise_cons.2 ⟨?_, hl⟩)⟩
      intro z hz
      unfold join
      dsimp only
      split_ifs
      · exact hy z hz
      · exact hx z (List.mem_cons_of_mem y hz)
    · exact not_overlap_of_le hrest

/-! ## The result -/

/-- A list is merged by sorting it and making the pass. -/
theorem merge_cases (l : List (Interval α)) : l = [] ∧ merge l = ([], false) ∨
    ∃ x rest, (x :: rest).Perm l ∧ Ascending (x :: rest) ∧ merge l = mergeFrom x rest := by
  have hperm := List.perm_insertionSort Before l
  have hsorted := ascending_insertionSort l
  unfold merge
  generalize l.insertionSort Before = sorted at hperm hsorted
  cases sorted with
  | nil => exact Or.inl ⟨hperm.nil_eq.symm, rfl⟩
  | cons x rest => exact Or.inr ⟨x, rest, hperm, hsorted, rfl⟩

theorem covered_merge (l : List (Interval α)) : covered (merge l).1 = covered l := by
  rcases merge_cases l with ⟨rfl, h⟩ | ⟨x, rest, hperm, hsorted, h⟩
  · rw [h]
  · rw [h, covered_mergeFrom hsorted, covered_perm hperm]

theorem pairwise_merge (l : List (Interval α)) : (merge l).1.Pairwise Separated := by
  rcases merge_cases l with ⟨rfl, h⟩ | ⟨x, rest, hperm, hsorted, h⟩
  · rw [h]
    exact List.Pairwise.nil
  · rw [h]
    exact pairwise_mergeFrom hsorted

theorem nonempty_merge (hl : ∀ x ∈ l, x.start < x.stop) :
    ∀ x ∈ (merge l).1, x.start < x.stop := by
  rcases merge_cases l with ⟨rfl, h⟩ | ⟨x, rest, hperm, hsorted, h⟩
  · simp [h]
  · rw [h]
    exact nonempty_mergeFrom fun z hz => hl z (hperm.mem_iff.1 hz)

/-- If nothing overlapped, the intervals are apart. -/
theorem apart_of_not_overlap (h : (merge l).2 = false) : l.Pairwise Apart := by
  rcases merge_cases l with ⟨rfl, -⟩ | ⟨x, rest, hperm, hsorted, heq⟩
  · exact List.Pairwise.nil
  · rw [heq] at h
    exact (hperm.pairwise_iff fun h => apart_comm.1 h).1
      ((le_of_not_overlap hsorted h).imp apart_of_le)

theorem overlap_merge_iff (hl : ∀ x ∈ l, x.start < x.stop) :
    (merge l).2 = false ↔ l.Pairwise Apart := by
  refine ⟨apart_of_not_overlap, fun hapart => ?_⟩
  rcases merge_cases l with ⟨rfl, h⟩ | ⟨x, rest, hperm, hsorted, heq⟩
  · rw [h]
  · rw [heq]
    have hne : ∀ z ∈ x :: rest, z.start < z.stop := fun z hz => hl z (hperm.mem_iff.1 hz)
    have hapart := (hperm.pairwise_iff fun h => apart_comm.1 h).2 hapart
    refine not_overlap_of_le ((hsorted.and hapart).imp_of_mem fun {y z} hy hz h => ?_)
    exact le_of_apart (hne z hz) h.1 h.2

/-- The point lies in the interval. -/
def holds (b : α) (x : Interval α) : Bool :=
  x.start ≤ b ∧ b < x.stop

theorem holds_iff : holds b x = true ↔ b ∈ x.points :=
  decide_eq_true_iff

/-- A covered point lies in one of several intervals that are apart. -/
theorem countP_holds (h : l.Pairwise Apart) (hb : b ∈ covered l) : l.countP (holds b) = 1 := by
  induction l with
  | nil => exact hb.elim fun x hx => absurd hx.1 List.not_mem_nil
  | cons x l ih =>
    obtain ⟨hx, hl⟩ := List.pairwise_cons.1 h
    rw [List.countP_cons]
    by_cases hbx : b ∈ x.points
    · have hnone : l.countP (holds b) = 0 := List.countP_eq_zero.2 fun y hy hby =>
        Set.disjoint_left.1 (hx y hy) hbx (holds_iff.1 hby)
      rw [hnone, if_pos (holds_iff.2 hbx)]
    · rw [covered_cons] at hb
      rw [ih hl (hb.resolve_left hbx), if_neg fun h => hbx (holds_iff.1 h)]

/-- The point lies in the interval of a record. -/
def within {β : Type} (f : β → Option (Interval α)) (b : α) (a : β) : Bool :=
  ((f a).map (holds b)).getD false

theorem mem_covered_filterMap {β : Type} {f : β → Option (Interval α)} {records : List β} :
    b ∈ covered (records.filterMap f) ↔ ∃ a ∈ records, within f b a = true := by
  constructor
  · rintro ⟨x, hx, hb⟩
    obtain ⟨a, ha, heq⟩ := List.mem_filterMap.1 hx
    refine ⟨a, ha, ?_⟩
    unfold within
    rw [heq]
    exact holds_iff.2 hb
  · rintro ⟨a, ha, hwithin⟩
    unfold within at hwithin
    cases heq : f a with
    | none =>
      rw [heq] at hwithin
      cases hwithin
    | some x =>
      rw [heq] at hwithin
      exact ⟨x, List.mem_filterMap.2 ⟨a, ha, heq⟩, holds_iff.1 hwithin⟩

/-- Of records with intervals that are apart, one holds a covered point. -/
theorem countP_within {β : Type} {f : β → Option (Interval α)} {records : List β}
    (h : (records.filterMap f).Pairwise Apart) (hb : b ∈ covered (records.filterMap f)) :
    records.countP (within f b) = 1 := by
  rw [← countP_holds h hb, List.countP_filterMap]
  rfl

/-! ## Uniqueness -/

/-- Behind the first of separated intervals lie the points of the others. -/
theorem mem_covered_tail (h : (x :: l).Pairwise Separated) :
    b ∈ covered l ↔ b ∈ covered (x :: l) ∧ x.stop < b := by
  obtain ⟨hx, -⟩ := List.pairwise_cons.1 h
  rw [covered_cons]
  constructor
  · rintro ⟨y, hy, hb⟩
    exact ⟨Or.inr ⟨y, hy, hb⟩, (hx y hy).trans_le hb.1⟩
  · rintro ⟨hb | hb, hlt⟩
    · exact absurd hb.2 (not_lt.2 hlt.le)
    · exact hb

/-- The first interval begins with the least point. -/
theorem start_le_of_mem_covered (h : (x :: l).Pairwise Separated) (hne : x.start < x.stop)
    (hb : b ∈ covered (x :: l)) : x.start ≤ b := by
  rw [covered_cons] at hb
  rcases hb with hb | hb
  · exact hb.1
  · exact hne.le.trans ((mem_covered_tail h).1 hb).2.le

/-- The first interval ends where a point is not covered. -/
theorem stop_le_of_covered_subset (h : (x :: l).Pairwise Separated) (hstart : y.start ≤ x.stop)
    (hcovered : y.points ⊆ covered (x :: l)) : y.stop ≤ x.stop := by
  by_contra hlt
  have hstop := hcovered (⟨hstart, not_le.1 hlt⟩ : x.stop ∈ y.points)
  rw [covered_cons] at hstop
  rcases hstop with hstop | hstop
  · exact absurd hstop.2 (lt_irrefl _)
  · exact absurd ((mem_covered_tail h).1 hstop).2 (lt_irrefl _)

/-- Separated nonempty intervals are determined by the points they cover. -/
theorem eq_of_covered_eq : ∀ {l l' : List (Interval α)}, l.Pairwise Separated →
    l'.Pairwise Separated → (∀ x ∈ l, x.start < x.stop) → (∀ x ∈ l', x.start < x.stop) →
    covered l = covered l' → l = l'
  | [], [], _, _, _, _, _ => rfl
  | [], y :: l', _, _, _, hne, h => by
    have : y.start ∈ covered (y :: l') :=
      ⟨y, List.mem_cons_self, le_rfl, hne y List.mem_cons_self⟩
    rw [← h, covered_nil] at this
    exact this.elim
  | x :: l, [], _, _, hne, _, h => by
    have : x.start ∈ covered (x :: l) :=
      ⟨x, List.mem_cons_self, le_rfl, hne x List.mem_cons_self⟩
    rw [h, covered_nil] at this
    exact this.elim
  | x :: l, y :: l', hl, hl', hne, hne', h => by
    obtain ⟨hx, hne⟩ := List.forall_mem_cons.1 hne
    obtain ⟨hy, hne'⟩ := List.forall_mem_cons.1 hne'
    have hxl : x.points ⊆ covered (y :: l') := by
      rw [← h, covered_cons]
      exact Set.subset_union_left
    have hyl : y.points ⊆ covered (x :: l) := by
      rw [h, covered_cons]
      exact Set.subset_union_left
    have hstart : x.start = y.start := le_antisymm
      (start_le_of_mem_covered hl hx (hyl ⟨le_rfl, hy⟩))
      (start_le_of_mem_covered hl' hy (hxl ⟨le_rfl, hx⟩))
    have hstop : x.stop = y.stop := le_antisymm
      (stop_le_of_covered_subset hl' (hstart ▸ hy.le) hxl)
      (stop_le_of_covered_subset hl (hstart ▸ hx.le) hyl)
    have htail : covered l = covered l' := by
      ext b
      rw [mem_covered_tail hl, mem_covered_tail hl', h, hstop]
    rw [eq_of_covered_eq hl.of_cons hl'.of_cons hne hne' htail]
    cases x
    cases y
    simp_all

theorem merge_eq_merge_iff (hl : ∀ x ∈ l, x.start < x.stop) (hl' : ∀ x ∈ l', x.start < x.stop) :
    (merge l).1 = (merge l').1 ↔ covered l = covered l' := by
  rw [← covered_merge l, ← covered_merge l']
  exact ⟨fun h => by rw [h], eq_of_covered_eq (pairwise_merge l) (pairwise_merge l')
    (nonempty_merge hl) (nonempty_merge hl')⟩

/-- Intervals that are merged into one tile it. -/
theorem covered_of_merge_eq_singleton (h : (merge l).1 = [x]) : covered l = x.points := by
  rw [← covered_merge, h, covered_cons, covered_nil, Set.union_empty]

/-! ## Lengths -/

/-- The sum of the lengths. -/
def total (l : List (Interval ℕ)) : ℕ :=
  (l.map fun x => x.stop - x.start).sum

@[simp] theorem total_nil : total [] = 0 :=
  rfl

@[simp] theorem total_cons (x : Interval ℕ) (l : List (Interval ℕ)) :
    total (x :: l) = x.stop - x.start + total l := by
  simp [total]

theorem total_mergeFrom : ∀ {l : List (Interval ℕ)} {x : Interval ℕ},
    (∀ z ∈ x :: l, z.start ≤ z.stop) → (mergeFrom x l).2 = false →
    total (mergeFrom x l).1 = total (x :: l)
  | [], _, _, _ => rfl
  | y :: l, x, h, hoverlap => by
    obtain ⟨hx, hrest⟩ := List.forall_mem_cons.1 h
    obtain ⟨hy, hl⟩ := List.forall_mem_cons.1 hrest
    unfold mergeFrom at hoverlap ⊢
    split_ifs at hoverlap ⊢ with htouch
    · simp only [Bool.or_eq_false_iff, decide_eq_false_iff_not, not_lt] at hoverlap
      have hjoin : (x.join y).start = x.start ∧ (x.join y).stop = y.stop := by
        unfold join
        dsimp only
        split_ifs <;> omega
      rw [total_mergeFrom (List.forall_mem_cons.2 ⟨by omega, hl⟩) hoverlap.2, total_cons,
        total_cons, total_cons, hjoin.1, hjoin.2]
      omega
    · rw [total_cons, total_mergeFrom hrest hoverlap, total_cons, total_cons, total_cons]

/-- If nothing overlapped, merging keeps the sum of the lengths. -/
theorem total_merge {l : List (Interval ℕ)} (hl : ∀ x ∈ l, x.start ≤ x.stop)
    (h : (merge l).2 = false) : total (merge l).1 = total l := by
  rcases merge_cases l with ⟨rfl, heq⟩ | ⟨x, rest, hperm, -, heq⟩
  · rw [heq]
  · rw [heq] at h ⊢
    rw [total_mergeFrom (fun z hz => hl z (hperm.mem_iff.1 hz)) h]
    exact (hperm.map _).sum_nat

end Interval

end Npunlock
