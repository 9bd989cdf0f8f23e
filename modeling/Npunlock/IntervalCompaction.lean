import Npunlock.Observations

/-!
# Merging byte intervals in place

`merge_output_byte_intervals` sorts its array and writes the merged intervals over the
front of it. The pass of `Interval.merge` on lists is what the loop computes
(`mergeInPlace_eq`) : before a round the array holds the finished intervals, the interval
that is being extended, entries that are read no more, and the rest of the sorted array
(`Compacts`). So the merged array is sorted and separated, covers the bytes of the input,
and is one array for all lists that cover these bytes
(`merged_output_bytes_canonical`).
-/

namespace Npunlock

/-! ## The source -/

/-- `compare_output_byte_intervals`. -/
def compareOutputByteIntervals (left right : OutputByteInterval) : ℤ :=
  if left.start < right.start then -1
  else if right.start < left.start then 1
  else if left.stop < right.stop then -1
  else if right.stop < left.stop then 1 else 0

/-- `qsort` with this comparison. -/
def sortOutputByteIntervals (intervals : List OutputByteInterval) : List OutputByteInterval :=
  intervals.insertionSort fun left right => compareOutputByteIntervals left right ≤ 0

/-- The array, `merged_count` and `has_overlap`. -/
structure Compaction where
  intervals : List OutputByteInterval
  mergedCount : ℕ
  hasOverlap : Bool
  deriving DecidableEq

/-- The part of the array that the caller reads. -/
def Compaction.merged (c : Compaction) : List OutputByteInterval :=
  c.intervals.take c.mergedCount

/-- A round of the loop. There is no value if it reads outside the array. -/
def compactionStep (c : Compaction) (inputIndex : ℕ) : Option Compaction := do
  let current ← c.intervals[inputIndex]?
  if c.mergedCount = 0 then
    some { c with intervals := c.intervals.set c.mergedCount current, mergedCount := 1 }
  else do
    let previous ← c.intervals[c.mergedCount - 1]?
    let hasOverlap := c.hasOverlap || decide (current.start < previous.stop)
    if current.start ≤ previous.stop then
      if previous.stop < current.stop then
        some ⟨c.intervals.set (c.mergedCount - 1) { previous with stop := current.stop },
          c.mergedCount, hasOverlap⟩
      else some ⟨c.intervals, c.mergedCount, hasOverlap⟩
    else some ⟨c.intervals.set c.mergedCount current, c.mergedCount + 1, hasOverlap⟩

/-- `merge_output_byte_intervals`. -/
def mergeInPlace (intervals : List OutputByteInterval) : Option Compaction :=
  if intervals.length = 0 then some ⟨intervals, 0, false⟩
  else (List.range intervals.length).foldlM compactionStep
    ⟨sortOutputByteIntervals intervals, 0, false⟩

/-! ## The sort -/

theorem compareOutputByteIntervals_le_iff {left right : OutputByteInterval} :
    compareOutputByteIntervals left right ≤ 0 ↔ left.Before right := by
  unfold compareOutputByteIntervals Interval.Before
  split_ifs <;> omega

theorem sortOutputByteIntervals_eq (intervals : List OutputByteInterval) :
    sortOutputByteIntervals intervals = intervals.insertionSort Interval.Before := by
  unfold sortOutputByteIntervals
  simp only [compareOutputByteIntervals_le_iff]

/-! ## The loop -/

/-- The array before a round : the finished intervals, the interval that is extended, the
entries that are read no more, and the intervals to come. -/
structure Compacts (c : Compaction) (inputIndex : ℕ) (done : List OutputByteInterval)
    (previous : OutputByteInterval) (rest : List OutputByteInterval) : Prop where
  intervals : ∃ old, c.intervals = done ++ previous :: (old ++ rest) ∧
    inputIndex = done.length + 1 + old.length
  mergedCount : c.mergedCount = done.length + 1

section Step

variable {c : Compaction} {inputIndex : ℕ} {done rest : List OutputByteInterval}
  {previous current : OutputByteInterval}

/-- What a round reads. -/
theorem Compacts.reads (h : Compacts c inputIndex done previous (current :: rest)) :
    c.intervals[inputIndex]? = some current ∧
      c.intervals[c.mergedCount - 1]? = some previous ∧ c.mergedCount ≠ 0 := by
  obtain ⟨⟨old, harray, rfl⟩, hcount⟩ := h
  refine ⟨?_, ?_, by omega⟩
  · rw [harray, List.getElem?_append_right (by omega)]
    simp [Nat.add_assoc, Nat.add_comm 1]
  · rw [hcount, harray]
    simp

/-- A round that extends the last interval. -/
theorem compactionStep_join (h : Compacts c inputIndex done previous (current :: rest))
    (htouch : current.start ≤ previous.stop) :
    ∃ c', compactionStep c inputIndex = some c' ∧
      Compacts c' (inputIndex + 1) done (previous.join current) rest ∧
      c'.hasOverlap = (c.hasOverlap || decide (current.start < previous.stop)) := by
  obtain ⟨hcurrent, hprevious, hne⟩ := h.reads
  obtain ⟨⟨old, harray, rfl⟩, hcount⟩ := h
  have hset (x : OutputByteInterval) : c.intervals.set (c.mergedCount - 1) x =
      done ++ x :: ((old ++ [current]) ++ rest) := by
    rw [hcount, harray]
    simp
  unfold compactionStep
  rw [hcurrent, Option.bind_eq_bind, Option.bind_some, if_neg hne, hprevious]
  dsimp only [Option.bind_eq_bind, Option.bind_some]
  rw [if_pos htouch]
  by_cases hlt : previous.stop < current.stop
  · rw [if_pos hlt]
    refine ⟨_, rfl, ⟨⟨old ++ [current], ?_, by simp [Nat.add_assoc]⟩, hcount⟩, rfl⟩
    rw [hset, Interval.join, if_pos hlt]
  · rw [if_neg hlt]
    refine ⟨_, rfl, ⟨⟨old ++ [current], ?_, by simp [Nat.add_assoc]⟩, hcount⟩, rfl⟩
    rw [harray, Interval.join, if_neg hlt]
    simp

/-- A round that begins the next interval. -/
theorem compactionStep_next (h : Compacts c inputIndex done previous (current :: rest))
    (hgap : ¬current.start ≤ previous.stop) :
    ∃ c', compactionStep c inputIndex = some c' ∧
      Compacts c' (inputIndex + 1) (done ++ [previous]) current rest ∧
      c'.hasOverlap = c.hasOverlap := by
  obtain ⟨hcurrent, hprevious, hne⟩ := h.reads
  obtain ⟨⟨old, harray, rfl⟩, hcount⟩ := h
  have hoverlap : decide (current.start < previous.stop) = false := by
    simpa using (not_le.1 hgap).le
  have hset : ∃ old', c.intervals.set c.mergedCount current =
      (done ++ [previous]) ++ current :: (old' ++ rest) ∧ old'.length = old.length := by
    rw [hcount, harray]
    cases old with
    | nil => exact ⟨[], by simp, rfl⟩
    | cons first old => exact ⟨old ++ [current], by simp, by simp⟩
  obtain ⟨old', hset, hlength⟩ := hset
  unfold compactionStep
  rw [hcurrent, Option.bind_eq_bind, Option.bind_some, if_neg hne, hprevious]
  dsimp only [Option.bind_eq_bind, Option.bind_some]
  rw [if_neg hgap, hoverlap, Bool.or_false]
  refine ⟨_, rfl, ⟨⟨old', hset, ?_⟩, ?_⟩, rfl⟩
  · rw [List.length_append, List.length_singleton, hlength]
    omega
  · rw [List.length_append, List.length_singleton, hcount]

/-- The loop over the rest of the array makes the pass of `Interval.mergeFrom`. -/
theorem foldlM_compactionStep :
    ∀ {rest : List OutputByteInterval} {c : Compaction} {inputIndex : ℕ}
      {done : List OutputByteInterval} {previous : OutputByteInterval},
      Compacts c inputIndex done previous rest →
      ∃ c', (List.range' inputIndex rest.length).foldlM compactionStep c = some c' ∧
        c'.mergedCount ≤ c'.intervals.length ∧
        c'.merged = done ++ (Interval.mergeFrom previous rest).1 ∧
        c'.hasOverlap = (c.hasOverlap || (Interval.mergeFrom previous rest).2)
  | [], c, inputIndex, done, previous, h => by
    obtain ⟨⟨old, harray, _⟩, hcount⟩ := h
    refine ⟨c, rfl, ?_, ?_, by simp [Interval.mergeFrom]⟩
    · simp [harray, hcount]
    · rw [Compaction.merged, hcount, harray]
      simp [List.take_append, Interval.mergeFrom]
  | current :: rest, c, inputIndex, done, previous, h => by
    rw [List.length_cons, List.range'_succ, List.foldlM_cons, Interval.mergeFrom]
    by_cases htouch : current.start ≤ previous.stop
    · obtain ⟨c', hstep, hnext, hoverlap⟩ := compactionStep_join h htouch
      obtain ⟨c'', hrun, hle, hmerged, hfinal⟩ := foldlM_compactionStep hnext
      rw [if_pos htouch, hstep]
      exact ⟨c'', hrun, hle, hmerged, by rw [hfinal, hoverlap, Bool.or_assoc]⟩
    · obtain ⟨c', hstep, hnext, hoverlap⟩ := compactionStep_next h htouch
      obtain ⟨c'', hrun, hle, hmerged, hfinal⟩ := foldlM_compactionStep hnext
      rw [if_neg htouch, hstep]
      exact ⟨c'', hrun, hle, by rw [hmerged]; simp, by rw [hfinal, hoverlap]⟩

end Step

/-- The array computation is `mergeOutputByteIntervals`. -/
theorem mergeInPlace_eq (intervals : List OutputByteInterval) :
    ∃ c, mergeInPlace intervals = some c ∧ c.mergedCount ≤ c.intervals.length ∧
      (c.merged, c.hasOverlap) = mergeOutputByteIntervals intervals := by
  have hperm := List.perm_insertionSort Interval.Before intervals
  unfold mergeInPlace mergeOutputByteIntervals Interval.merge
  rw [sortOutputByteIntervals_eq, ← hperm.length_eq]
  generalize intervals.insertionSort Interval.Before = sorted at hperm
  cases sorted with
  | nil => exact ⟨_, rfl, Nat.zero_le _, rfl⟩
  | cons first rest =>
    obtain ⟨c, hrun, hle, hmerged, hoverlap⟩ := foldlM_compactionStep
      (⟨⟨[], rfl, rfl⟩, rfl⟩ : Compacts ⟨first :: rest, 1, false⟩ 1 [] first rest)
    refine ⟨c, ?_, hle, ?_⟩
    · rw [if_neg (by simp), List.length_cons, List.range_eq_range', List.range'_succ]
      exact hrun
    · rw [hmerged, hoverlap, Bool.false_or, List.nil_append]

/-! ## The merged array -/

/-- Two intervals of the array share a byte. -/
def SharesByte (intervals : List OutputByteInterval) : Prop :=
  ∃ (i j : ℕ) (x y : OutputByteInterval) (b : ℕ), i < j ∧ intervals[i]? = some x ∧
    intervals[j]? = some y ∧ b ∈ x.points ∧ b ∈ y.points

/-- What the caller gets for an array of intervals. -/
structure MergesBytes (intervals : List OutputByteInterval) (c : Compaction) : Prop where
  count_le : c.mergedCount ≤ c.intervals.length
  nonempty : ∀ x ∈ c.merged, x.start < x.stop
  sorted : c.merged.Pairwise fun x y => x.start < y.start
  separated : c.merged.Pairwise fun x y => x.stop < y.start
  same_bytes : Interval.covered c.merged = Interval.covered intervals
  overlap_iff : c.hasOverlap = true ↔ SharesByte intervals

theorem not_pairwise_apart_iff {intervals : List OutputByteInterval} :
    ¬intervals.Pairwise Interval.Apart ↔ SharesByte intervals := by
  rw [List.pairwise_iff_getElem]
  push Not
  constructor
  · rintro ⟨i, j, hi, hj, hlt, hshared⟩
    obtain ⟨b, hx, hy⟩ := Set.not_disjoint_iff.1 hshared
    exact ⟨i, j, _, _, b, hlt, List.getElem?_eq_getElem hi, List.getElem?_eq_getElem hj, hx, hy⟩
  · rintro ⟨i, j, x, y, b, hlt, hi, hj, hx, hy⟩
    obtain ⟨hilt, rfl⟩ := List.getElem?_eq_some_iff.1 hi
    obtain ⟨hjlt, rfl⟩ := List.getElem?_eq_some_iff.1 hj
    exact ⟨i, j, hilt, hjlt, hlt, Set.not_disjoint_iff.2 ⟨b, hx, hy⟩⟩

theorem exists_mergesBytes {intervals : List OutputByteInterval}
    (h : ∀ x ∈ intervals, x.start < x.stop) :
    ∃ c, mergeInPlace intervals = some c ∧ MergesBytes intervals c ∧
      c.merged = (Interval.merge intervals).1 := by
  obtain ⟨c, hrun, hle, heq⟩ := mergeInPlace_eq intervals
  have hmerged : c.merged = (Interval.merge intervals).1 := congrArg Prod.fst heq
  have hoverlap : c.hasOverlap = (Interval.merge intervals).2 := congrArg Prod.snd heq
  have hnonempty := Interval.nonempty_merge h
  have hseparated := Interval.pairwise_merge intervals
  refine ⟨c, hrun, ⟨hle, ?_, ?_, ?_, ?_, ?_⟩, hmerged⟩
  · rw [hmerged]
    exact hnonempty
  · rw [hmerged]
    exact hseparated.imp_of_mem fun hx _ hlt => (hnonempty _ hx).trans hlt
  · rw [hmerged]
    exact hseparated
  · rw [hmerged]
    exact Interval.covered_merge intervals
  · rw [hoverlap, ← not_pairwise_apart_iff, ← Interval.overlap_merge_iff h, Bool.not_eq_false]

/-- Both arrays are merged as described, and to one array exactly if they denote the same
bytes. -/
theorem merged_output_bytes_canonical {left right : List OutputByteInterval}
    (hleft : ∀ x ∈ left, x.start < x.stop) (hright : ∀ x ∈ right, x.start < x.stop) :
    ∃ l r, mergeInPlace left = some l ∧ mergeInPlace right = some r ∧
      MergesBytes left l ∧ MergesBytes right r ∧
      (Interval.covered left = Interval.covered right ↔ l.merged = r.merged) := by
  obtain ⟨l, hl, hlmerges, hleq⟩ := exists_mergesBytes hleft
  obtain ⟨r, hr, hrmerges, hreq⟩ := exists_mergesBytes hright
  refine ⟨l, r, hl, hr, hlmerges, hrmerges, ?_⟩
  rw [hleq, hreq]
  exact (Interval.merge_eq_merge_iff hleft hright).symm

/-- Two arrays for the bytes from 0 to 8. -/
theorem merged_output_bytes_canonical_example :
    ∃ l r, mergeInPlace [⟨4, 8⟩, ⟨0, 2⟩, ⟨2, 4⟩] = some l ∧
      mergeInPlace [⟨0, 8⟩, ⟨1, 3⟩] = some r ∧ MergesBytes [⟨4, 8⟩, ⟨0, 2⟩, ⟨2, 4⟩] l ∧
      MergesBytes [⟨0, 8⟩, ⟨1, 3⟩] r ∧
      (Interval.covered [⟨4, 8⟩, ⟨0, 2⟩, ⟨2, 4⟩] = Interval.covered [⟨0, 8⟩, ⟨1, 3⟩] ↔
        l.merged = r.merged) :=
  merged_output_bytes_canonical (by decide) (by decide)

end Npunlock
