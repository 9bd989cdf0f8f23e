import Npunlock.Nms

/-!
# The NMS reference selects greedily

The reference marks forward what each selected candidate suppresses. A candidate is marked
when it is reached if and only if one of those selected suppresses it, so what the
reference keeps is a greedy selection (`referenceLoop_eq`), as what the kernel keeps is.
-/

namespace Npunlock

namespace Nms

/-! ## Boxes -/

theorem nmsMinf_eq (left right : ℚ) : nmsMinf left right = min left right := by
  unfold nmsMinf
  split_ifs with h
  · exact (min_eq_left h.le).symm
  · exact (min_eq_right (not_lt.1 h)).symm

theorem nmsMaxf_eq (left right : ℚ) : nmsMaxf left right = max left right := by
  unfold nmsMaxf
  split_ifs with h
  · exact (max_eq_left h.le).symm
  · exact (max_eq_right (not_lt.1 h)).symm

theorem Box.valid_iff {box : Box} : box.valid = true ↔ 0 < box.width ∧ 0 < box.height :=
  decide_eq_true_iff

theorem Box.suppresses_iff {threshold : ℚ} {box other : Box} :
    box.suppresses threshold other = true ↔
      (0 < min box.x2 other.x2 - max box.x1 other.x1 ∧
        0 < min box.y2 other.y2 - max box.y1 other.y1) ∧
      0 < box.width * box.height + other.width * other.height -
        (min box.x2 other.x2 - max box.x1 other.x1) *
          (min box.y2 other.y2 - max box.y1 other.y1) ∧
      threshold < (min box.x2 other.x2 - max box.x1 other.x1) *
          (min box.y2 other.y2 - max box.y1 other.y1) /
        (box.width * box.height + other.width * other.height -
          (min box.x2 other.x2 - max box.x1 other.x1) *
            (min box.y2 other.y2 - max box.y1 other.y1)) :=
  decide_eq_true_iff

/-- The kernel's quotient exceeds a threshold if both boxes are valid and the one
suppresses the other. -/
theorem lt_nmsIou_iff {threshold : ℚ} (h : 0 ≤ threshold) (box other : Box) :
    threshold < nmsIou box other ↔
      box.valid = true ∧ other.valid = true ∧ box.suppresses threshold other = true := by
  have hneg : ¬threshold < 0 := not_lt.2 h
  rw [Box.valid_iff, Box.valid_iff, Box.suppresses_iff]
  simp only [nmsIou, nmsMinf_eq, nmsMaxf_eq, Box.width, Box.height]
  split_ifs with hempty hunion
  · refine iff_of_false hneg fun ⟨hbox, hother, hoverlap, _⟩ => ?_
    simp only [← not_lt] at hempty
    tauto
  · simp only [not_or, not_le] at hempty
    tauto
  · exact iff_of_false hneg fun ⟨_, _, _, hpos, _⟩ => hunion hpos

/-! ## The loop -/

section Loop

variable (candidates : DetectionBatch) (threshold : ℚ)

/-- Whether a selected candidate suppresses another. -/
def suppressesAt (index other : ℕ) : Bool :=
  candidates.classAt other = candidates.classAt index ∧ (candidates.box other).valid ∧
    (candidates.box index).valid ∧
      (candidates.box index).suppresses threshold (candidates.box other)

variable {candidates threshold}

theorem mem_suppressedBy_iff {index other : ℕ} {suppressed remaining : List ℕ}
    (h : other ∈ remaining) :
    other ∈ suppressed ++ suppressedBy candidates threshold index suppressed remaining ↔
      other ∈ suppressed ∨ suppressesAt candidates threshold index other = true := by
  have hcomparable : other ∈ remaining.filter (fun other => other ∉ suppressed ∧
      candidates.classAt other = candidates.classAt index ∧ (candidates.box other).valid) ↔
        other ∉ suppressed ∧ candidates.classAt other = candidates.classAt index ∧
          (candidates.box other).valid = true := by
    simp [List.mem_filter, h]
  rw [List.mem_append, suppressedBy]
  split_ifs with hnone
  · rcases hnone with hinvalid | hnone
    · simp [suppressesAt, hinvalid]
    · rw [hnone] at hcomparable
      simp only [List.not_mem_nil, false_iff] at hcomparable
      simp only [List.not_mem_nil, or_false, suppressesAt, decide_eq_true_eq]
      tauto
  · rw [not_or, Bool.not_eq_false] at hnone
    rw [List.mem_filter, hcomparable]
    simp only [suppressesAt, decide_eq_true_eq]
    tauto

/-- The loop is a greedy selection while the marks agree with what is selected. -/
theorem referenceLoop_eq {limit : ℕ} : ∀ {order suppressed selected : List ℕ},
    selected.length < limit →
      (∀ other ∈ order, other ∈ suppressed ↔
        (selected.any fun index => suppressesAt candidates threshold index other) = true) →
      referenceLoop candidates threshold limit order suppressed selected =
        greedy (suppressesAt candidates threshold) limit selected order
  | [], _, _, _, _ => rfl
  | index :: remaining, suppressed, selected, hlimit, hmarks => by
    have hindex := hmarks index List.mem_cons_self
    rw [referenceLoop, greedy_cons hlimit]
    by_cases hmarked : index ∈ suppressed
    · rw [if_pos hmarked, if_pos (hindex.1 hmarked)]
      exact referenceLoop_eq hlimit fun other hother =>
        hmarks other (List.mem_cons_of_mem index hother)
    · rw [if_neg hmarked, if_neg (mt hindex.2 hmarked)]
      have hlength : (selected ++ [index]).length = selected.length + 1 := by simp
      dsimp only
      split_ifs with hfull
      · exact (greedy_of_le (by omega) remaining).symm
      · refine referenceLoop_eq (by omega) fun other hother => ?_
        rw [mem_suppressedBy_iff hother, hmarks other (List.mem_cons_of_mem index hother),
          List.any_append]
        simp

end Loop

/-- What the reference returns. -/
theorem referenceNms_eq {candidates : DetectionBatch} {confidenceThreshold iouThreshold : ℚ}
    (hvalid : validateCandidates candidates = .ok ())
    (hconfidence : 0 ≤ confidenceThreshold ∧ confidenceThreshold ≤ 1)
    (hiou : 0 ≤ iouThreshold ∧ iouThreshold ≤ 1) (limit : ℕ) :
    referenceNms candidates confidenceThreshold iouThreshold limit =
      .ok (candidates.choose (greedy (suppressesAt candidates iouThreshold) limit []
        (referenceOrder candidates confidenceThreshold))) := by
  rw [referenceNms, hvalid, ok_bind, refuseIf_of_not _ (not_not.2 hconfidence), ok_bind,
    refuseIf_of_not _ (not_not.2 hiou), ok_bind,
    refuseIf_of_not _ (not_lt.2 (Int.natCast_nonneg limit)), ok_bind]
  rcases Nat.eq_zero_or_pos limit with rfl | hpos
  · rw [greedy_of_le (Nat.zero_le _)]
    rfl
  · rw [if_neg (by omega), referenceLoop_eq hpos fun _ _ => by simp]

end Nms

end Npunlock
