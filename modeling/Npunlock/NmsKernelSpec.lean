import Npunlock.Nms

/-!
# The NMS kernel selects greedily

The kernel on a chunk of records. Each group of equal scores is visited by original index
and position, so the candidates are visited in the order of a key (`visits`), and the
records of the output are those of a greedy selection (`groups_of_ranked`). The candidates
have to be ranked up to a bound only. If the first candidate past the bound has a higher
score, the kernel selects among those before it, or reports it.
-/

namespace Npunlock

namespace Nms

/-! ## Records -/

/-- The score of a record. -/
def recScore (record : List Word) : Word :=
  Binary16.widen (record.getD 4 0)

/-- The class of a record. -/
def recClass (record : List Word) : ℕ :=
  Binary32.truncate (Binary16.widen (record.getD 5 0))

/-- The original index of a record. -/
def recOriginal (record : List Word) : ℕ :=
  u32 (Binary32.truncate (Binary16.widen (record.getD 6 0)) +
    Binary32.truncate (Binary16.widen (record.getD 7 0)) * 256)

/-- The box of a record. -/
def recBox (record : List Word) : Box :=
  boxOf [Binary16.widen (record.getD 0 0), Binary16.widen (record.getD 1 0),
    Binary16.widen (record.getD 2 0), Binary16.widen (record.getD 3 0)]

/-- Whether a selected record suppresses another. -/
def conflicts (iouThreshold : Word) (selected candidate : List Word) : Bool :=
  recClass selected = recClass candidate ∧
    Binary32.toRat iouThreshold < nmsIou (recBox selected) (recBox candidate)

/-- The records of a buffer. -/
structure Holds (buffer : List Word) (records : List (List Word)) : Prop where
  rows : HoldsRows buffer headerWords recordWords records
  widths : ∀ record ∈ records, record.length = recordWords
  count : records.length ≤ capacity

section Reads

variable {buffer : List Word} {records : List (List Word)} (h : Holds buffer records) {i : ℕ}
  (hi : i < records.length)

include h hi

theorem recordWord_of_holds {field : ℕ} (hfield : field < recordWords) :
    recordWord buffer i field = .ok (records[i].getD field 0) := by
  have hcount : i < 255 := hi.trans_le h.count
  have hwords : recordWords = 8 := rfl
  have hheader : headerWords = 8 := rfl
  have hwidth := h.widths _ (List.getElem_mem hi)
  rw [recordWord, u32_of_lt (by rw [hwords, hheader]; omega)]
  refine readWord_of_getElem? ((h.rows i hi field hfield).trans ?_)
  rw [List.getD_eq_getElem?_getD, List.getElem?_eq_getElem (by omega)]
  rfl

theorem recordFloat_of_holds {field : ℕ} (hfield : field < recordWords) :
    recordFloat buffer i field = .ok (Binary16.widen (records[i].getD field 0)) := by
  rw [recordFloat, recordWord_of_holds h hi hfield, ok_bind]

theorem recordBox_of_holds : recordBox buffer i = .ok (recBox records[i]) := by
  have hwords : recordWords = 8 := rfl
  rw [recordBox, recordFloat_of_holds h hi (by omega), ok_bind,
    recordFloat_of_holds h hi (by omega), ok_bind, recordFloat_of_holds h hi (by omega), ok_bind,
    recordFloat_of_holds h hi (by omega), ok_bind]
  rfl

theorem recordClass_of_holds : recordClass buffer i = .ok (recClass records[i]) := by
  rw [recordClass, recordFloat_of_holds h hi (by decide), ok_bind]
  rfl

theorem originalIndex_of_holds : originalIndex buffer i = .ok (recOriginal records[i]) := by
  rw [originalIndex, recordFloat_of_holds h hi (by decide), ok_bind,
    recordFloat_of_holds h hi (by decide), ok_bind]
  rfl

end Reads

/-! ## Outputs -/

/-- An output with some selected candidates. -/
def outputOf (header : List Word) (records : List (List Word)) (kept : List ℕ) : List Word :=
  paddedTo chunkWords (header ++ (kept.map fun i => records.getD i []).flatten)

section Outputs

variable {input header : List Word} {records : List (List Word)} {kept : List ℕ}

/-- The records of the selected candidates. -/
theorem widths_of_kept (h : Holds input records) (hkept : ∀ i ∈ kept, i < records.length) :
    ∀ record ∈ kept.map fun i => records.getD i [], record.length = recordWords := by
  intro record hrecord
  obtain ⟨i, hi, rfl⟩ := List.mem_map.1 hrecord
  rw [List.getD_eq_getElem _ _ (hkept i hi)]
  exact h.widths _ (List.getElem_mem _)

theorem holds_outputOf (h : Holds input records) (hheader : header.length = headerWords)
    (hkept : ∀ i ∈ kept, i < records.length) (hcount : kept.length ≤ capacity) :
    Holds (outputOf header records kept) (kept.map fun i => records.getD i []) where
  rows := by
    rw [← hheader]
    exact holdsRows_paddedTo (widths_of_kept h hkept) chunkWords
  widths := widths_of_kept h hkept
  count := by rwa [List.length_map]

/-- The length of the words of an output. -/
theorem length_outputWords (h : Holds input records) (hheader : header.length = headerWords)
    (hkept : ∀ i ∈ kept, i < records.length) :
    (header ++ (kept.map fun i => records.getD i []).flatten).length =
      headerWords + kept.length * recordWords := by
  rw [List.length_append, hheader, length_flatten_rows (widths_of_kept h hkept), List.length_map]

/-- The loop of `nms_is_suppressed` finds a conflict among the records it has left. -/
theorem suppressedFrom_of_holds {output : List Word} {selected : List (List Word)}
    (h : Holds input records) (houtput : Holds output selected) {candidate : ℕ}
    (hcandidate : candidate < records.length) (iouThreshold : Word) :
    ∀ (remaining start : ℕ), start + remaining = selected.length →
      suppressedFrom input candidate (recClass records[candidate]) output iouThreshold remaining
        start = .ok ((selected.drop start).any fun record =>
          conflicts iouThreshold record records[candidate])
  | 0, start, hstart => by
    rw [List.drop_eq_nil_of_le (by omega)]
    rfl
  | remaining + 1, start, hstart => by
    have hlt : start < selected.length := by omega
    have hrest := suppressedFrom_of_holds h houtput hcandidate iouThreshold remaining (start + 1)
      (by omega)
    rw [suppressedFrom, recordClass_of_holds houtput hlt, ok_bind, List.drop_eq_getElem_cons hlt,
      List.any_cons, conflicts]
    by_cases hclass : recClass selected[start] = recClass records[candidate]
    · rw [if_pos hclass, recordBox_of_holds houtput hlt, ok_bind,
        recordBox_of_holds h hcandidate, ok_bind]
      split_ifs with hiou
      · simp [hclass, hiou]
      · rw [hrest]
        simp [hiou]
    · rw [if_neg hclass, hrest]
      simp [hclass]

theorem isSuppressed_of_holds (h : Holds input records) (hheader : header.length = headerWords)
    (hkept : ∀ i ∈ kept, i < records.length) (hcount : kept.length ≤ capacity) {candidate : ℕ}
    (hcandidate : candidate < records.length) (iouThreshold : Word) :
    isSuppressed input candidate (outputOf header records kept) kept.length iouThreshold =
      .ok (kept.any fun i =>
        conflicts iouThreshold (records.getD i []) (records.getD candidate [])) := by
  have hloop := suppressedFrom_of_holds h (holds_outputOf h hheader hkept hcount) hcandidate
    iouThreshold kept.length 0 (by rw [List.length_map, Nat.zero_add])
  rw [isSuppressed, recordClass_of_holds h hcandidate, ok_bind, hloop, List.drop_zero,
    List.any_map, List.getD_eq_getElem _ _ hcandidate]
  rfl

/-- `nms_append` appends the record. -/
theorem append_of_holds (h : Holds input records) (hheader : header.length = headerWords)
    (hkept : ∀ i ∈ kept, i < records.length) (hcount : kept.length < capacity) {candidate : ℕ}
    (hcandidate : candidate < records.length) :
    append input candidate (outputOf header records kept) kept.length =
      .ok (outputOf header records (kept ++ [candidate])) := by
  have hwidth := h.widths _ (List.getElem_mem hcandidate)
  have hlength := length_outputWords h hheader hkept
  have hcapacity : capacity = 255 := rfl
  have hchunk : chunkWords = 2048 := rfl
  have hwords : headerWords + kept.length * recordWords = 8 + kept.length * 8 := rfl
  have hfields : recordWords = 8 := rfl
  have hloop : forRange 0 recordWords (outputOf header records kept) (fun field output => do
      let word ← recordWord input candidate field
      writeWord output (u32 (headerWords + kept.length * recordWords + field)) word) =
      .ok (paddedTo chunkWords (header ++ (kept.map fun i => records.getD i []).flatten ++
        (List.range recordWords).flatMap fun field => [records[candidate].getD field 0])) := by
    refine forRange_paddedTo (fun field => [records[candidate].getD field 0]) (fun _ => rfl) ?_
    intro field hfield before hbefore
    rw [Nat.mul_one] at hbefore
    rw [recordWord_of_holds h hcandidate hfield, ok_bind, u32_of_lt (by omega),
      ← hlength, show (header ++ (kept.map fun i => records.getD i []).flatten).length + field =
        before.length by omega]
    exact writeWord_paddedTo (by omega) _
  have hentries : ((List.range recordWords).flatMap fun field =>
      [records[candidate].getD field 0]) = records[candidate] := by
    rw [← hwidth]
    exact (flatMap_range_getD (fun word => [word]) records[candidate]).trans
      (List.flatMap_singleton' _)
  rw [append, hloop, hentries, outputOf, List.map_append, List.flatten_append, List.append_assoc,
    List.map_singleton, List.flatten_singleton, List.getD_eq_getElem _ _ hcandidate]

end Outputs

/-! ## Groups -/

/-- The order of the visits within a group. -/
def groupKey (records : List (List Word)) (i : ℕ) : ℕ ×ₗ ℕ :=
  toLex (recOriginal (records.getD i []), i)

theorem groupKey_injective (records : List (List Word)) : Function.Injective (groupKey records) :=
  fun _ _ h => (Prod.mk.inj (toLex.injective h)).2

/-- The original index and the position, as the kernel keeps them. -/
def lastOf (records : List (List Word)) (last : Option ℕ) : Option (ℕ × ℕ) :=
  last.map fun i => (recOriginal (records.getD i []), i)

section Groups

variable {input header : List Word} {records : List (List Word)} {kept : List ℕ}

theorem comesAfter_iff {last : Option ℕ} {i : ℕ} :
    comesAfter (lastOf records last) (recOriginal (records.getD i [])) i = true ↔
      ∀ j ∈ last, groupKey records j < groupKey records i := by
  cases last with
  | none => simp [comesAfter, lastOf]
  | some j =>
    simp only [comesAfter, lastOf, Option.map_some, decide_eq_true_eq, Option.mem_def,
      Option.some.injEq, forall_eq', groupKey, Prod.Lex.toLex_lt_toLex]
    omega

/-- What the search has found among the positions before `position`. -/
def Found (records : List (List Word)) (last : Option ℕ) (groupBegin position : ℕ)
    (best : ℕ × ℕ) : Prop :=
  (best = (capacity, 0) ∧ ∀ i, groupBegin ≤ i → i < position →
    ¬∀ j ∈ last, groupKey records j < groupKey records i) ∨
  (best.2 = recOriginal (records.getD best.1 []) ∧ groupBegin ≤ best.1 ∧ best.1 < position ∧
    (∀ j ∈ last, groupKey records j < groupKey records best.1) ∧
    ∀ i, groupBegin ≤ i → i < position → (∀ j ∈ last, groupKey records j < groupKey records i) →
      groupKey records best.1 ≤ groupKey records i)

theorem found_succ {last : Option ℕ} {groupBegin position : ℕ} {best : ℕ × ℕ}
    (hcount : position < capacity) (hbegin : groupBegin ≤ position)
    (h : Found records last groupBegin position best) :
    Found records last groupBegin (position + 1)
      (if comesAfter (lastOf records last) (recOriginal (records.getD position [])) position = false
        then best
        else if best.1 = capacity ∨ recOriginal (records.getD position []) < best.2 ∨
          recOriginal (records.getD position []) = best.2 ∧ position < best.1
        then (position, recOriginal (records.getD position []))
        else best) := by
  by_cases hafter : ∀ j ∈ last, groupKey records j < groupKey records position
  · rw [if_neg (by rw [comesAfter_iff.2 hafter]; simp)]
    rcases h with ⟨rfl, hnone⟩ | ⟨horiginal, hle, hlt, habove, hleast⟩
    · rw [if_pos (.inl rfl)]
      refine .inr ⟨rfl, hbegin, Nat.lt_succ_self _, hafter, fun i hi hlt' hall => ?_⟩
      rcases Nat.lt_succ_iff_lt_or_eq.1 hlt' with hlt' | rfl
      · exact absurd hall (hnone i hi hlt')
      · exact le_rfl
    · have hless : (best.1 = capacity ∨ recOriginal (records.getD position []) < best.2 ∨
          recOriginal (records.getD position []) = best.2 ∧ position < best.1) ↔
            groupKey records position < groupKey records best.1 := by
        rw [groupKey, groupKey, Prod.Lex.toLex_lt_toLex, ← horiginal]
        exact or_iff_right (by omega)
      split_ifs with hbetter
      · have hbetter := hless.1 hbetter
        refine .inr ⟨rfl, hbegin, Nat.lt_succ_self _, hafter, fun i hi hlt' hall => ?_⟩
        rcases Nat.lt_succ_iff_lt_or_eq.1 hlt' with hlt' | rfl
        · exact hbetter.le.trans (hleast i hi hlt' hall)
        · exact le_rfl
      · rw [hless, not_lt] at hbetter
        refine .inr ⟨horiginal, hle, hlt.trans (Nat.lt_succ_self _), habove,
          fun i hi hlt' hall => ?_⟩
        rcases Nat.lt_succ_iff_lt_or_eq.1 hlt' with hlt' | rfl
        · exact hleast i hi hlt' hall
        · exact hbetter
  · rw [if_pos (by rw [← Bool.not_eq_true, comesAfter_iff]; exact hafter)]
    rcases h with ⟨rfl, hnone⟩ | ⟨horiginal, hle, hlt, habove, hleast⟩
    · refine .inl ⟨rfl, fun i hi hlt' => ?_⟩
      rcases Nat.lt_succ_iff_lt_or_eq.1 hlt' with hlt' | rfl
      · exact hnone i hi hlt'
      · exact hafter
    · refine .inr ⟨horiginal, hle, hlt.trans (Nat.lt_succ_self _), habove,
        fun i hi hlt' hall => ?_⟩
      rcases Nat.lt_succ_iff_lt_or_eq.1 hlt' with hlt' | rfl
      · exact hleast i hi hlt' hall
      · exact absurd hall hafter

/-- The search finds the next candidate of a group. -/
theorem bestCandidate_of_holds (h : Holds input records) {groupBegin groupEnd : ℕ}
    (hle : groupBegin ≤ groupEnd) (hend : groupEnd ≤ records.length) {last : Option ℕ} {a : ℕ}
    (hnext : IsNext (groupKey records) (List.range' groupBegin (groupEnd - groupBegin)) last a) :
    bestCandidate input groupBegin groupEnd (lastOf records last) =
      .ok (a, recOriginal (records.getD a [])) := by
  have hmem : ∀ i, i ∈ List.range' groupBegin (groupEnd - groupBegin) ↔
      groupBegin ≤ i ∧ i < groupEnd := fun i => by rw [List.mem_range'_1]; omega
  have hsearch : Returns (bestCandidate input groupBegin groupEnd (lastOf records last))
      (Found records last groupBegin groupEnd) := by
    refine Meets.forRange (fun position best => Found records last groupBegin position best) hle
      (.inl ⟨rfl, fun i hi hlt => by omega⟩) fun position best hbegin hlt hfound => ?_
    have hposition : position < records.length := by omega
    have hsucc := found_succ (hposition.trans_le h.count) hbegin hfound
    rw [originalIndex_of_holds h hposition, ok_bind, ← List.getD_eq_getElem _ [] hposition]
    split_ifs at hsucc ⊢ <;> exact Meets.ok hsucc
  obtain ⟨best, hbest, hfound⟩ := hsearch.exists_ok
  rw [hbest]
  obtain ⟨hbegin, hlt⟩ := (hmem a).1 hnext.mem
  rcases hfound with ⟨_, hnone⟩ | ⟨horiginal, hbegin', hlt', habove, hleast⟩
  · exact absurd hnext.above (hnone a hbegin hlt)
  · have heq : best.1 = a := groupKey_injective records
      (le_antisymm (hleast a hbegin hlt hnext.above)
        (hnext.least best.1 ((hmem _).2 ⟨hbegin', hlt'⟩) habove))
    rw [← heq, ← horiginal]

/-- The loop over a group selects from what it has not visited yet. -/
theorem emitGroup_of_holds (h : Holds input records) (hheader : header.length = headerWords)
    (iouThreshold : Word) {maxDetections groupBegin groupEnd : ℕ} (hle : groupBegin ≤ groupEnd)
    (hend : groupEnd ≤ records.length) (hmax : maxDetections ≤ capacity) :
    ∀ (rest before kept : List ℕ), sortedBy (groupKey records)
        (List.range' groupBegin (groupEnd - groupBegin)) = before ++ rest →
      (∀ i ∈ kept, i < records.length) →
      emitGroup input iouThreshold maxDetections groupBegin groupEnd rest.length
        (lastOf records before.getLast?) ⟨outputOf header records kept, kept.length⟩ =
      .ok (.inl ⟨outputOf header records (greedy (fun a b => conflicts iouThreshold
          (records.getD a []) (records.getD b [])) maxDetections kept rest),
        (greedy (fun a b => conflicts iouThreshold (records.getD a []) (records.getD b []))
          maxDetections kept rest).length⟩)
  | [], before, kept, _, _ => rfl
  | a :: rest, before, kept, hsorted, hkept => by
    have hmem : a ∈ List.range' groupBegin (groupEnd - groupBegin) := by
      have hsorted' : a ∈ sortedBy (groupKey records)
          (List.range' groupBegin (groupEnd - groupBegin)) := by rw [hsorted]; simp
      exact mem_sortedBy.1 hsorted'
    have ha : a < records.length := by
      rw [List.mem_range'_1] at hmem
      omega
    have hnext := isNext_of_sortedBy (groupKey_injective records) (List.nodup_range' ..) hsorted
    have hsplit : sortedBy (groupKey records)
        (List.range' groupBegin (groupEnd - groupBegin)) = (before ++ [a]) ++ rest := by
      rw [hsorted, List.append_assoc]
      rfl
    rw [List.length_cons, emitGroup]
    dsimp only
    rcases Nat.lt_or_ge kept.length maxDetections with hlt | hge
    · rw [if_neg (not_le.2 hlt), bestCandidate_of_holds h hle hend hnext, ok_bind,
        if_neg (show ¬a = capacity from (ha.trans_le h.count).ne),
        isSuppressed_of_holds h hheader hkept (by omega) ha, ok_bind, greedy_cons hlt]
      have hlast : some (recOriginal (records.getD a []), a) =
          lastOf records (before ++ [a]).getLast? := by
        rw [List.getLast?_append]
        rfl
      dsimp only
      split_ifs with hsuppressed
      · rw [ok_bind, hlast]
        exact emitGroup_of_holds h hheader iouThreshold hle hend hmax rest _ kept hsplit hkept
      · rw [append_of_holds h hheader hkept (by omega) ha, ok_bind, ok_bind, hlast,
          show kept.length + 1 = (kept ++ [a]).length by simp]
        refine emitGroup_of_holds h hheader iouThreshold hle hend hmax rest _ _ hsplit ?_
        intro i hi
        rcases List.mem_append.1 hi with hi | hi
        · exact hkept i hi
        · rwa [List.mem_singleton.1 hi]
    · rw [if_pos hge, greedy_of_le hge]

end Groups

/-! ## Rankings -/

/-- The score of a candidate. -/
def scoreAt (records : List (List Word)) (i : ℕ) : ℚ :=
  Binary32.toRat (recScore (records.getD i []))

/-- The candidates before the bound are ranked. If the bound is not the end, the candidate
there has a higher score than the one before it. -/
structure RankedUpTo (records : List (List Word)) (bound : ℕ) : Prop where
  le : bound ≤ records.length
  ranked : ∀ i j, i ≤ j → j < bound → scoreAt records j ≤ scoreAt records i
  stops : bound = records.length ∨ 0 < bound ∧ bound < records.length ∧
    scoreAt records (bound - 1) < scoreAt records bound

/-- The order of all visits. -/
def visitKey (records : List (List Word)) (i : ℕ) : ℚ ×ₗ (ℕ ×ₗ ℕ) :=
  toLex (-scoreAt records i, groupKey records i)

theorem visitKey_injective (records : List (List Word)) : Function.Injective (visitKey records) :=
  fun _ _ h => groupKey_injective records (Prod.mk.inj (toLex.injective h)).2

/-- The visits from a position on. -/
def visits (records : List (List Word)) (confidence : ℚ) (start bound : ℕ) : List ℕ :=
  sortedBy (visitKey records)
    ((List.range' start (bound - start)).filter fun i => confidence < scoreAt records i)

/-- The selection of some visits. -/
def select (records : List (List Word)) (iouThreshold : Word) (maxDetections : ℕ)
    (kept visited : List ℕ) : List ℕ :=
  greedy (fun a b => conflicts iouThreshold (records.getD a []) (records.getD b []))
    maxDetections kept visited

section Rankings

variable {records : List (List Word)} {bound start groupEnd : ℕ} {confidence : ℚ}

theorem lt_of_mem_visits {i : ℕ} (h : i ∈ visits records confidence start bound) : i < bound := by
  have hmem := List.mem_of_mem_filter (mem_sortedBy.1 h)
  rw [List.mem_range'_1] at hmem
  omega

/-- No candidate is eligible behind one that is not. -/
theorem visits_eq_nil (hbound : RankedUpTo records bound)
    (hscore : start < bound → scoreAt records start ≤ confidence) :
    visits records confidence start bound = [] := by
  have hnone : (List.range' start (bound - start)).filter
      (fun i => confidence < scoreAt records i) = [] := by
    rw [List.filter_eq_nil_iff]
    intro i hi
    rw [List.mem_range'_1] at hi
    have hle := hbound.ranked start i hi.1 (by omega)
    simpa using hle.trans (hscore (by omega))
  rw [visits, hnone]
  rfl

/-- A group comes before the candidates behind it. -/
theorem visits_eq_append (hbound : RankedUpTo records bound) (hle : start ≤ groupEnd)
    (hend : groupEnd ≤ bound)
    (hgroup : ∀ i, start ≤ i → i < groupEnd → scoreAt records i = scoreAt records start)
    (hbehind : groupEnd < bound → scoreAt records groupEnd < scoreAt records start)
    (hscore : confidence < scoreAt records start) :
    visits records confidence start bound =
      sortedBy (groupKey records) (List.range' start (groupEnd - start)) ++
        visits records confidence groupEnd bound := by
  have hrange : List.range' start (bound - start) =
      List.range' start (groupEnd - start) ++ List.range' groupEnd (bound - groupEnd) := by
    rw [show groupEnd = start + (groupEnd - start) by omega, Nat.add_sub_cancel_left,
      List.range'_append_1]
    congr 1
    omega
  have hall : (List.range' start (groupEnd - start)).filter
      (fun i => confidence < scoreAt records i) = List.range' start (groupEnd - start) := by
    rw [List.filter_eq_self]
    intro i hi
    rw [List.mem_range'_1] at hi
    rw [hgroup i hi.1 (by omega)]
    simpa using hscore
  have hkeys : sortedBy (visitKey records) (List.range' start (groupEnd - start)) =
      sortedBy (groupKey records) (List.range' start (groupEnd - start)) := by
    refine sortedBy_congr (groupKey_injective records) fun a ha b hb hkey => ?_
    rw [List.mem_range'_1] at ha hb
    rw [visitKey, visitKey, Prod.Lex.toLex_le_toLex, hgroup a ha.1 (by omega),
      hgroup b hb.1 (by omega)] at hkey
    rcases hkey with hlt | ⟨_, hle⟩
    · exact absurd hlt (lt_irrefl _)
    · exact hle
  rw [visits, hrange, List.filter_append, hall, sortedBy_append (visitKey_injective records),
    hkeys]
  · rfl
  · intro a ha b hb
    rw [List.mem_range'_1] at ha
    have hb := List.mem_of_mem_filter hb
    rw [List.mem_range'_1] at hb
    have hlater := hbound.ranked groupEnd b hb.1 (by omega)
    have hbehind := hbehind (by omega)
    refine Prod.Lex.toLex_le_toLex.2 (.inl ?_)
    rw [hgroup a ha.1 (by omega)]
    exact neg_lt_neg (hlater.trans_lt hbehind)

end Rankings

/-! ## The loop over the groups -/

section Loop

variable {input header : List Word} {records : List (List Word)} {bound : ℕ}

/-- The end of a group, or a candidate that is out of order. -/
theorem findGroupEnd_of_holds (h : Holds input records)
    (hnumbers : ∀ i, Binary32.isNaN (recScore (records.getD i [])) = false)
    (hbound : RankedUpTo records bound) {groupBegin : ℕ} :
    ∀ remaining groupEnd, groupBegin < groupEnd → groupEnd ≤ bound →
      groupEnd + remaining = records.length →
      (∀ i, groupBegin ≤ i → i < groupEnd → scoreAt records i = scoreAt records groupBegin) →
      (findGroupEnd input (recScore (records.getD groupBegin [])) remaining groupEnd = .ok none ∧
        bound < records.length) ∨
      ∃ stop, findGroupEnd input (recScore (records.getD groupBegin [])) remaining groupEnd =
          .ok (some stop) ∧ groupBegin < stop ∧ stop ≤ bound ∧
        (∀ i, groupBegin ≤ i → i < stop → scoreAt records i = scoreAt records groupBegin) ∧
        (stop < bound ∧ scoreAt records stop < scoreAt records groupBegin ∨
          stop = bound ∧ bound = records.length)
  | 0, groupEnd, hbegin, hle, hlength, hgroup => by
    have hstop := hbound.le
    exact .inr ⟨groupEnd, rfl, hbegin, hle, hgroup, .inr ⟨by omega, by omega⟩⟩
  | remaining + 1, groupEnd, hbegin, hle, hlength, hgroup => by
    have hlt : groupEnd < records.length := by omega
    have hread : recordFloat input groupEnd 4 = .ok (recScore (records.getD groupEnd [])) := by
      rw [recordFloat_of_holds h hlt (by decide), List.getD_eq_getElem _ [] hlt]
      rfl
    have hhigher : Binary32.lt (recScore (records.getD groupBegin []))
        (recScore (records.getD groupEnd [])) = true ↔
          scoreAt records groupBegin < scoreAt records groupEnd :=
      Binary32.lt_iff_toRat (hnumbers _) (hnumbers _)
    have hequal : Binary32.eq (recScore (records.getD groupEnd []))
        (recScore (records.getD groupBegin [])) = true ↔
          scoreAt records groupEnd = scoreAt records groupBegin :=
      Binary32.eq_iff_toRat (hnumbers _) (hnumbers _)
    have hstep : findGroupEnd input (recScore (records.getD groupBegin [])) (remaining + 1)
        groupEnd =
      if Binary32.lt (recScore (records.getD groupBegin [])) (recScore (records.getD groupEnd []))
      then .ok none
      else if ¬Binary32.eq (recScore (records.getD groupEnd []))
        (recScore (records.getD groupBegin [])) then .ok (some groupEnd)
      else findGroupEnd input (recScore (records.getD groupBegin [])) remaining (groupEnd + 1) := by
      rw [findGroupEnd, hread, ok_bind]
    rw [hstep]
    rcases Nat.lt_or_eq_of_le hle with hinside | rfl
    · have hrank := hbound.ranked groupBegin groupEnd hbegin.le hinside
      rw [if_neg (by rw [hhigher]; exact not_lt.2 hrank)]
      by_cases heq : scoreAt records groupEnd = scoreAt records groupBegin
      · rw [if_neg (not_not.2 (hequal.2 heq))]
        refine findGroupEnd_of_holds h hnumbers hbound remaining (groupEnd + 1) (by omega) hinside
          (by omega) fun i hi hlt' => ?_
        rcases Nat.lt_succ_iff_lt_or_eq.1 hlt' with hlt' | rfl
        · exact hgroup i hi hlt'
        · exact heq
      · rw [if_pos (by rwa [hequal])]
        exact .inr ⟨groupEnd, rfl, hbegin, hle, hgroup,
          .inl ⟨hinside, lt_of_le_of_ne hrank heq⟩⟩
    · rcases hbound.stops with heq | ⟨_, _, hrise⟩
      · omega
      · rw [hgroup (groupEnd - 1) (by omega) (by omega)] at hrise
        rw [if_pos (hhigher.2 hrise)]
        exact .inl ⟨rfl, hlt⟩

theorem writeWord_outputOf (hheader : header.length = headerWords) {kept : List ℕ}
    (h : Holds input records) (hkept : ∀ i ∈ kept, i < records.length)
    (hcount : kept.length ≤ capacity) {field : ℕ} (hfield : field < headerWords) (word : Word) :
    writeWord (outputOf header records kept) field word =
      .ok (outputOf (header.set field word) records kept) := by
  have hlength := length_outputWords h hheader hkept
  have hfits : headerWords + kept.length * recordWords ≤ chunkWords := by
    have hcount : kept.length ≤ 255 := hcount
    show 8 + kept.length * 8 ≤ 2048
    omega
  rw [outputOf, writeWord_paddedTo_of_lt (by rw [hlength]; omega) (by rw [hlength]; exact hfits),
    List.set_append_left _ _ (by rwa [hheader])]
  rfl

/-- How the kernel ends : with a selection, or with the report of a candidate that is out
of order. -/
def Ends (header : List Word) (records : List (List Word)) (bound : ℕ) (selected : List ℕ)
    (output : List Word) : Prop :=
  output = outputOf (header.set 0 (countWord selected.length)) records selected ∨
    (bound < records.length ∧ ∃ kept : List ℕ, (∀ i ∈ kept, i < records.length) ∧
      kept.length ≤ capacity ∧
      output = outputOf ((header.set 6 (countWord 1)).set 0 0) records kept)

/-- A round of the loop over the groups, between two groups. -/
structure Between (header : List Word) (records : List (List Word)) (iouThreshold : Word)
    (maxDetections bound : ℕ) (confidence : ℚ) (kept : List ℕ) (state : ℕ × Selection) :
    Prop where
  selection : state.2 = ⟨outputOf header records kept, kept.length⟩
  le : state.1 ≤ bound
  goes : state.1 < bound ∨ bound = records.length
  kept_lt : ∀ i ∈ kept, i < records.length
  kept_le : kept.length ≤ maxDetections
  remains : select records iouThreshold maxDetections kept
    (visits records confidence state.1 bound) =
      select records iouThreshold maxDetections [] (visits records confidence 0 bound)

/-- What one round does : it goes on behind its group, or the kernel ends. -/
def RoundPost (header : List Word) (records : List (List Word)) (iouThreshold : Word)
    (maxDetections bound : ℕ) (confidence : ℚ) (state : ℕ × Selection) :
    (ℕ × Selection) ⊕ List Word → Prop :=
  Progress
    (fun state => ∃ kept,
      Between header records iouThreshold maxDetections bound confidence kept state)
    (fun state => records.length - state.1)
    (Ends header records bound (select records iouThreshold maxDetections []
      (visits records confidence 0 bound))) state

/-- One round of the loop over the groups. -/
theorem groupStep_of_holds (h : Holds input records) (hheader : header.length = headerWords)
    (hnumbers : ∀ i, Binary32.isNaN (recScore (records.getD i [])) = false)
    (hbound : RankedUpTo records bound) {confidenceThreshold iouThreshold : Word}
    (hconfidence : Binary32.isNaN confidenceThreshold = false) {maxDetections : ℕ}
    (hmax : maxDetections ≤ capacity) {kept : List ℕ} {state : ℕ × Selection}
    (hstate : Between header records iouThreshold maxDetections bound
      (Binary32.toRat confidenceThreshold) kept state) :
    Returns (groupStep input confidenceThreshold iouThreshold records.length maxDetections state)
      (RoundPost header records iouThreshold maxDetections bound
        (Binary32.toRat confidenceThreshold) state) := by
  obtain ⟨groupBegin, selection⟩ := state
  obtain ⟨rfl, hle, hgoes, hkept, hcount, hremains⟩ := hstate
  dsimp only at hle hgoes hremains
  have hwrite := fun {field : ℕ} (hfield : field < headerWords) (word : Word) =>
    writeWord_outputOf hheader h hkept (hcount.trans hmax) hfield word
  -- the kernel stops with what it has kept
  have hfinish : select records iouThreshold maxDetections kept
      (visits records (Binary32.toRat confidenceThreshold) groupBegin bound) = kept →
      Returns (do
        let output ← writeWord (outputOf header records kept) 0 (countWord kept.length)
        .ok (.inr output))
        (RoundPost header records iouThreshold maxDetections bound
          (Binary32.toRat confidenceThreshold)
          (groupBegin, ⟨outputOf header records kept, kept.length⟩)) := by
    intro hkeeps
    rw [hwrite (by decide), ok_bind]
    exact Meets.ok (.inl (by rw [← hremains, hkeeps]))
  unfold groupStep
  dsimp only
  by_cases hgo : groupBegin < records.length ∧ kept.length < maxDetections
  · rw [if_neg (not_not.2 hgo)]
    have hinside : groupBegin < bound := by
      rcases hgoes with hlt | heq
      · exact hlt
      · omega
    have hread : recordFloat input groupBegin 4 = .ok (recScore (records.getD groupBegin [])) := by
      rw [recordFloat_of_holds h hgo.1 (by decide), List.getD_eq_getElem _ [] hgo.1]
      rfl
    rw [hread, ok_bind]
    by_cases hscore : Binary32.toRat confidenceThreshold < scoreAt records groupBegin
    · rw [if_neg (not_not.2 ((Binary32.lt_iff_toRat hconfidence (hnumbers _)).2 hscore))]
      rcases findGroupEnd_of_holds h hnumbers hbound (records.length - (groupBegin + 1))
        (groupBegin + 1) (Nat.lt_succ_self _) hinside (by omega) (fun i hi hlt => by
          rw [show i = groupBegin by omega]) with
        ⟨hfound, hrises⟩ | ⟨groupEnd, hfound, hbegin, hend, hgroup, hstop⟩
      · rw [hfound, ok_bind]
        dsimp only
        rw [finishWith, hwrite (by decide), ok_bind,
          writeWord_outputOf (by rw [List.length_set, hheader]) h hkept (hcount.trans hmax)
            (by decide), ok_bind]
        exact Meets.ok (.inr ⟨hrises, kept, hkept, hcount.trans hmax, rfl⟩)
      · have hsorted : (sortedBy (groupKey records)
            (List.range' groupBegin (groupEnd - groupBegin))).length = groupEnd - groupBegin := by
          rw [perm_sortedBy.length_eq, List.length_range']
        have hemit := emitGroup_of_holds h hheader iouThreshold hbegin.le
          (hend.trans hbound.le) hmax (sortedBy (groupKey records)
            (List.range' groupBegin (groupEnd - groupBegin))) [] kept rfl hkept
        rw [hsorted] at hemit
        rw [hfound, ok_bind]
        dsimp only
        rw [show lastOf records ([] : List ℕ).getLast? = none from rfl] at hemit
        rw [hemit, ok_bind]
        have hvisits := visits_eq_append hbound hbegin.le hend hgroup
          (fun hlt => by
            rcases hstop with hstop | hstop
            · exact hstop.2
            · omega) hscore
        refine Meets.ok ⟨⟨_, rfl, hend, ?_, fun i hi => ?_, length_greedy_le hcount _, ?_⟩, ?_⟩
        · exact hstop.imp And.left And.right
        · rcases mem_of_mem_greedy hi with hi | hi
          · exact hkept i hi
          · have hi := mem_sortedBy.1 hi
            rw [List.mem_range'_1] at hi
            have := hbound.le
            omega
        · rw [← hremains, hvisits]
          exact (greedy_append _ _ _).symm
        · show records.length - groupEnd < records.length - groupBegin
          omega
    · rw [if_pos (by rwa [Binary32.lt_iff_toRat hconfidence (hnumbers _)])]
      refine hfinish ?_
      rw [visits_eq_nil hbound fun _ => not_lt.1 hscore]
      rfl
  · rw [if_pos hgo]
    refine hfinish ?_
    rcases Nat.lt_or_ge kept.length maxDetections with hlt | hge
    · rw [visits_eq_nil hbound fun hinside => absurd ⟨hinside.trans_le hbound.le, hlt⟩ hgo]
      rfl
    · exact greedy_of_le hge _

/-- The loop over the groups. -/
theorem groups_of_ranked (h : Holds input records) (hheader : header.length = headerWords)
    (hnumbers : ∀ i, Binary32.isNaN (recScore (records.getD i [])) = false)
    (hbound : RankedUpTo records bound) {confidenceThreshold iouThreshold : Word}
    (hconfidence : Binary32.isNaN confidenceThreshold = false) {maxDetections : ℕ}
    (hmax : maxDetections ≤ capacity) :
    Returns (whileLoop .refused
      (groupStep input confidenceThreshold iouThreshold records.length maxDetections)
        (records.length + 1) (0, ⟨outputOf header records [], 0⟩))
      (Ends header records bound (select records iouThreshold maxDetections []
        (visits records (Binary32.toRat confidenceThreshold) 0 bound))) := by
  refine Meets.whileLoop
    (fun state => ∃ kept, Between header records iouThreshold maxDetections bound
      (Binary32.toRat confidenceThreshold) kept state)
    (fun state => records.length - state.1)
    (fun state ⟨kept, hstate⟩ => groupStep_of_holds h hheader hnumbers hbound hconfidence hmax
      hstate) ⟨[], rfl, Nat.zero_le _, ?_, by simp, Nat.zero_le _, rfl⟩
    (Nat.lt_succ_self records.length)
  exact hbound.stops.symm.imp_left And.left

end Loop

end Nms

end Npunlock
