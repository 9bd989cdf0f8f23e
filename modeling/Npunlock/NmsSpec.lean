import Npunlock.NmsKernelSpec
import Npunlock.NmsReference
import Npunlock.RuntimeShards

/-!
# Non-maximum suppression on the device

What the host unpacks from the kernel's output is what the reference keeps of the
transported candidates, if these are ranked. If they are not, the kernel reports it, or
its output is what the reference keeps of the candidates before the first one that is out
of order (`run_eq_reference`).
-/

namespace Npunlock

namespace Nms

/-! ## Rankings of candidates -/

/-- The first candidates of a batch. -/
def DetectionBatch.take (candidates : DetectionBatch) (count : ℕ) : DetectionBatch where
  boxes :=
    { width := candidates.boxes.width
      rows := candidates.boxes.rows.take count
      rows_width := fun row hrow => candidates.boxes.rows_width row (List.mem_of_mem_take hrow) }
  scores := candidates.scores.take count
  classes := candidates.classes.take count
  indices := candidates.indices.take count

/-- The score at a position exceeds that of its predecessor. -/
def DetectionBatch.Rises (candidates : DetectionBatch) (position : ℕ) : Prop :=
  0 < position ∧ position < candidates.scores.length ∧
    candidates.score (position - 1) < candidates.score position

instance (candidates : DetectionBatch) : DecidablePred candidates.Rises :=
  fun _ => inferInstanceAs (Decidable (_ ∧ _))

/-- A threshold as it is transported. -/
def transported (threshold : ℚ) : ℚ :=
  Binary32.toRat (Binary16.widen (Binary16.ofRat threshold))

theorem transported_bounds {threshold : ℚ} (h : threshold ≤ 1) :
    0 ≤ transported threshold ∧ transported threshold ≤ 1 := by
  have hbounds := Binary16.ofRat_bounds h
  exact ⟨Binary32.toRat_nonneg hbounds.1, Binary32.toRat_le_one hbounds.2⟩

/-! ## Outputs of the kernel -/

/-- The status of an output. -/
def statusOf (chunk : List Word) : Word :=
  Binary16.widen (chunk.getD 6 0)

/-- The kernel reports that the candidates are out of order. -/
def ReportsOrder (chunk : List Word) : Prop :=
  statusOf chunk = Binary32.ofNat 1 ∧ unpackDetections (chunk ++ chunk) =
    .error (.value "kernel rejected the ranked candidate stream with status 1")

/-- The kernel finishes, and the host unpacks what the reference keeps. -/
def Keeps (candidates : DetectionBatch) (confidenceThreshold iouThreshold : ℚ)
    (maxDetections : ℤ) (chunk : List Word) : Prop :=
  statusOf chunk = Binary32.ofNat 0 ∧ ∃ detections,
    unpackDetections (chunk ++ chunk) = .ok detections ∧
      referenceNms candidates confidenceThreshold iouThreshold maxDetections = .ok detections

/-! ## Packed candidates -/

/-- The candidates and the settings that packing accepts. -/
structure Packs (candidates : DetectionBatch) (confidenceThreshold iouThreshold : ℚ)
    (maxDetections : ℤ) : Prop where
  count : candidates.scores.length ≤ capacity
  rows : candidates.boxes.rows.length = candidates.scores.length
  width : candidates.boxes.width = 4
  classes_length : candidates.classes.length = candidates.scores.length
  indices_length : candidates.indices.length = candidates.scores.length
  confidence : 0 ≤ confidenceThreshold ∧ confidenceThreshold ≤ 1
  iou : 0 ≤ iouThreshold ∧ iouThreshold ≤ 1
  limit : 0 ≤ maxDetections ∧ maxDetections ≤ capacity
  classes : ∀ classId ∈ candidates.classes, 0 ≤ classId ∧ classId ≤ 255
  indices : ∀ index ∈ candidates.indices, 0 ≤ index ∧ index ≤ 65535

/-- The chunk of some candidates. -/
def chunkOf (candidates : DetectionBatch) (confidenceThreshold iouThreshold : ℚ)
    (maxDetections : ℤ) : List Word :=
  paddedTo chunkWords ([countWord candidates.scores.length, Binary16.ofRat confidenceThreshold,
    Binary16.ofRat iouThreshold, countWord maxDetections.toNat, 0, 0, 0, 0] ++
      (recordsOf candidates).flatten)

variable {candidates : DetectionBatch} {confidenceThreshold iouThreshold : ℚ} {maxDetections : ℤ}

theorem packs_of_packCandidates {packed : List Word}
    (h : packCandidates candidates confidenceThreshold iouThreshold maxDetections = .ok packed) :
    Packs candidates confidenceThreshold iouThreshold maxDetections ∧
      packed = chunkOf candidates confidenceThreshold iouThreshold maxDetections ++
        chunkOf candidates confidenceThreshold iouThreshold maxDetections := by
  unfold packCandidates at h
  obtain ⟨hcount, h⟩ := refuseIf_bind_eq_ok_iff.1 h
  obtain ⟨hboxes, h⟩ := refuseIf_bind_eq_ok_iff.1 h
  obtain ⟨hlengths, h⟩ := refuseIf_bind_eq_ok_iff.1 h
  obtain ⟨_, h⟩ := refuseIf_bind_eq_ok_iff.1 h
  obtain ⟨header, hheader, h⟩ := bind_eq_ok_iff.1 h
  obtain ⟨hclasses, h⟩ := refuseIf_bind_eq_ok_iff.1 h
  obtain ⟨hindices, h⟩ := refuseIf_bind_eq_ok_iff.1 h
  obtain ⟨_, hheader⟩ := refuseIf_bind_eq_ok_iff.1 hheader
  obtain ⟨hthresholds, hheader⟩ := refuseIf_bind_eq_ok_iff.1 hheader
  obtain ⟨hlimit, hheader⟩ := refuseIf_bind_eq_ok_iff.1 hheader
  obtain rfl := Except.ok.inj hheader
  rw [not_or, not_not, not_not] at hboxes hlengths hthresholds
  push Not at hclasses hindices
  refine ⟨⟨not_lt.1 hcount, hboxes.1, hboxes.2, hlengths.1, hlengths.2, hthresholds.1,
    hthresholds.2, not_not.1 hlimit, hclasses, hindices⟩, ?_⟩
  exact (Except.ok.inj h).symm

/-- What packing accepts, and finite candidates, are all that it needs. -/
theorem packCandidates_eq (h : Packs candidates confidenceThreshold iouThreshold maxDetections)
    (hfinite : candidates.IsFinite) :
    packCandidates candidates confidenceThreshold iouThreshold maxDetections =
      .ok (chunkOf candidates confidenceThreshold iouThreshold maxDetections ++
        chunkOf candidates confidenceThreshold iouThreshold maxDetections) := by
  have hclasses : ¬∃ classId ∈ candidates.classes, ¬(0 ≤ classId ∧ classId ≤ 255) := by
    push Not
    exact h.classes
  have hindices : ¬∃ index ∈ candidates.indices, ¬(0 ≤ index ∧ index ≤ 65535) := by
    push Not
    exact h.indices
  have hheader : packNmsHeader candidates.scores.length confidenceThreshold iouThreshold
      maxDetections = .ok [countWord candidates.scores.length,
        Binary16.ofRat confidenceThreshold, Binary16.ofRat iouThreshold,
        countWord maxDetections.toNat] := by
    rw [packNmsHeader, refuseIf_of_not _ (not_not.2 h.count), ok_bind,
      refuseIf_of_not _ (by rw [not_or, not_not, not_not]; exact ⟨h.confidence, h.iou⟩), ok_bind,
      refuseIf_of_not _ (not_not.2 h.limit), ok_bind]
  unfold packCandidates
  dsimp only
  rw [refuseIf_of_not _ (not_lt.2 h.count), ok_bind,
    refuseIf_of_not _ (by simp [h.rows, h.width]), ok_bind,
    refuseIf_of_not _ (by simp [h.classes_length, h.indices_length]), ok_bind,
    refuseIf_of_not _ (not_not.2 hfinite), ok_bind, hheader, ok_bind,
    refuseIf_of_not _ hclasses, ok_bind, refuseIf_of_not _ hindices, ok_bind]
  rfl

/-! ## Records of candidates -/

section Records

theorem length_recordsOf : (recordsOf candidates).length = candidates.scores.length := by
  rw [recordsOf, List.length_map, List.length_range]

theorem getD_recordsOf {i : ℕ} (hi : i < candidates.scores.length) :
    (recordsOf candidates).getD i [] = recordOf (candidates.boxes.rows.getD i [])
      (candidates.scores.getD i 0) (candidates.classAt i) (candidates.indexAt i) := by
  rw [List.getD_eq_getElem _ _ (by rwa [length_recordsOf])]
  simp [recordsOf]

variable (h : Packs candidates confidenceThreshold iouThreshold maxDetections) {i : ℕ}
  (hi : i < candidates.scores.length)

include h

/-- A record begins with a box of four words. -/
theorem Packs.exists_box (hi : i < candidates.scores.length) :
    ∃ x1 y1 x2 y2, candidates.boxes.rows.getD i [] = [x1, y1, x2, y2] := by
  have hlt : i < candidates.boxes.rows.length := by rwa [h.rows]
  rw [List.getD_eq_getElem _ _ hlt]
  have hlength := (candidates.boxes.rows_width _ (List.getElem_mem hlt)).trans h.width
  obtain ⟨x1, y1, x2, y2, hrow⟩ := List.length_eq_four.1 hlength
  exact ⟨x1, y1, x2, y2, hrow⟩

theorem Packs.widths : ∀ record ∈ recordsOf candidates, record.length = recordWords := by
  intro record hrecord
  obtain ⟨i, hi, rfl⟩ := List.mem_map.1 hrecord
  obtain ⟨x1, y1, x2, y2, hrow⟩ := h.exists_box (List.mem_range.1 hi)
  rw [hrow]
  rfl

theorem Packs.holds : Holds (chunkOf candidates confidenceThreshold iouThreshold maxDetections)
    (recordsOf candidates) where
  rows := holdsRows_paddedTo h.widths chunkWords
  widths := h.widths
  count := by
    rw [length_recordsOf]
    exact h.count

/-- The transported score. Behind the candidates both are zero. -/
theorem Packs.recScore_eq (i : ℕ) :
    recScore ((recordsOf candidates).getD i []) =
      (quantizeCandidates candidates).scores.getD i 0 := by
  rcases Nat.lt_or_ge i candidates.scores.length with hi | hi
  · obtain ⟨x1, y1, x2, y2, hrow⟩ := h.exists_box hi
    have hscore : (quantizeCandidates candidates).scores.getD i 0 =
        quantize (candidates.scores.getD i 0) := by
      rw [quantizeCandidates, List.getD_eq_getElem _ _ ((List.length_map _).symm ▸ hi),
        List.getElem_map, List.getD_eq_getElem _ _ hi]
    rw [getD_recordsOf hi, hrow, hscore]
    rfl
  · rw [List.getD_eq_default _ _ (by rwa [length_recordsOf]), quantizeCandidates,
      List.getD_eq_default _ _ (by rwa [List.length_map])]
    decide

theorem Packs.scoreAt_eq (i : ℕ) :
    scoreAt (recordsOf candidates) i = (quantizeCandidates candidates).score i :=
  congrArg Binary32.toRat (h.recScore_eq i)

include hi

theorem Packs.classAt_bounds : 0 ≤ candidates.classAt i ∧ candidates.classAt i ≤ 255 := by
  have hlt : i < candidates.classes.length := by rwa [h.classes_length]
  rw [DetectionBatch.classAt, List.getD_eq_getElem _ _ hlt]
  exact h.classes _ (List.getElem_mem hlt)

theorem Packs.indexAt_bounds : 0 ≤ candidates.indexAt i ∧ candidates.indexAt i ≤ 65535 := by
  have hlt : i < candidates.indices.length := by rwa [h.indices_length]
  rw [DetectionBatch.indexAt, List.getD_eq_getElem _ _ hlt]
  exact h.indices _ (List.getElem_mem hlt)

theorem Packs.recClass_eq : recClass ((recordsOf candidates).getD i []) =
    (candidates.classAt i).toNat := by
  have hbounds := h.classAt_bounds hi
  obtain ⟨x1, y1, x2, y2, hrow⟩ := h.exists_box hi
  rw [getD_recordsOf hi, hrow]
  change Binary32.truncate (Binary16.widen (countWord _)) = _
  rw [countWord, Binary16.widen_narrow_ofNat _ (by omega), Binary32.truncate_ofNat (by omega)]

theorem Packs.recOriginal_eq : recOriginal ((recordsOf candidates).getD i []) =
    (candidates.indexAt i).toNat := by
  have hbounds := h.indexAt_bounds hi
  obtain ⟨x1, y1, x2, y2, hrow⟩ := h.exists_box hi
  rw [getD_recordsOf hi, hrow]
  change u32 (Binary32.truncate (Binary16.widen (countWord _)) +
    Binary32.truncate (Binary16.widen (countWord _)) * 256) = _
  rw [countWord, countWord, Binary16.widen_narrow_ofNat _ (by omega),
    Binary16.widen_narrow_ofNat _ (by omega), Binary32.truncate_ofNat (by omega),
    Binary32.truncate_ofNat (by omega), u32_of_lt (by omega)]
  omega

/-- The record, widened. -/
theorem Packs.widened_eq : ∃ x1 y1 x2 y2,
    (quantizeCandidates candidates).boxes.rows.getD i [] = [x1, y1, x2, y2] ∧
      ((recordsOf candidates).getD i []).map Binary16.widen = [x1, y1, x2, y2,
        (quantizeCandidates candidates).scores.getD i 0,
        Binary32.ofNat (candidates.classAt i).toNat,
        Binary32.ofNat ((candidates.indexAt i).toNat % 256),
        Binary32.ofNat ((candidates.indexAt i).toNat / 256)] := by
  have hlt : i < candidates.boxes.rows.length := by rwa [h.rows]
  have hclass := h.classAt_bounds hi
  have hindex := h.indexAt_bounds hi
  obtain ⟨x1, y1, x2, y2, hrow⟩ := h.exists_box hi
  refine ⟨quantize x1, quantize y1, quantize x2, quantize y2, ?_, ?_⟩
  · rw [quantizeCandidates, List.getD_eq_getElem _ _ (by rwa [List.length_map]),
      List.getElem_map, ← List.getD_eq_getElem _ [] hlt, hrow]
    rfl
  · rw [← h.recScore_eq, getD_recordsOf hi, hrow]
    change [_, _, _, _, _, Binary16.widen (countWord _), Binary16.widen (countWord _),
      Binary16.widen (countWord _)] = _
    rw [countWord, countWord, countWord, Binary16.widen_narrow_ofNat _ (by omega),
      Binary16.widen_narrow_ofNat _ (by omega), Binary16.widen_narrow_ofNat _ (by omega)]
    rfl

theorem Packs.recBox_eq : recBox ((recordsOf candidates).getD i []) =
    (quantizeCandidates candidates).box i := by
  have hlt : i < candidates.boxes.rows.length := by rwa [h.rows]
  obtain ⟨x1, y1, x2, y2, hrow⟩ := h.exists_box hi
  have hquantized : (quantizeCandidates candidates).boxes.rows.getD i [] =
      [quantize x1, quantize y1, quantize x2, quantize y2] := by
    rw [quantizeCandidates, List.getD_eq_getElem _ _ (by rwa [List.length_map]),
      List.getElem_map, ← List.getD_eq_getElem _ [] hlt, hrow]
    rfl
  rw [getD_recordsOf hi, hrow, DetectionBatch.box, hquantized]
  rfl

end Records

/-! ## What is selected -/

section Selected

variable (h : Packs candidates confidenceThreshold iouThreshold maxDetections) {bound : ℕ}
  (hbound : bound ≤ candidates.scores.length)

theorem getD_take {α : Type} {l : List α} {i n : ℕ} (h : i < n) (default : α) :
    (l.take n).getD i default = l.getD i default := by
  rw [List.getD_eq_getElem?_getD, List.getD_eq_getElem?_getD, List.getElem?_take_of_lt h]

include h hbound

/-- The kernel visits the candidates before the bound in the order of the reference. -/
theorem Packs.visits_eq (confidence : ℚ) :
    visits (recordsOf candidates) confidence 0 bound =
      referenceOrder ((quantizeCandidates candidates).take bound) confidence := by
  have hscores : ∀ i < bound, scoreAt (recordsOf candidates) i =
      ((quantizeCandidates candidates).take bound).score i := fun i hi => by
    rw [h.scoreAt_eq, DetectionBatch.score, DetectionBatch.score, DetectionBatch.take,
      getD_take hi]
  have hcount : ((quantizeCandidates candidates).take bound).scores.length = bound := by
    rw [DetectionBatch.take, List.length_take, quantizeCandidates, List.length_map]
    exact min_eq_left hbound
  have heligible : (List.range bound).filter
      (fun i => confidence < scoreAt (recordsOf candidates) i) = (List.range bound).filter
        fun i => confidence < ((quantizeCandidates candidates).take bound).score i :=
    List.filter_congr fun i hi => by rw [hscores i (List.mem_range.1 hi)]
  rw [visits, referenceOrder, hcount, Nat.sub_zero, ← List.range_eq_range', heligible]
  refine (sortedBy_congr (visitKey_injective _) fun a ha b hb hle => ?_).symm
  have ha := List.mem_range.1 (List.mem_of_mem_filter ha)
  have hb := List.mem_range.1 (List.mem_of_mem_filter hb)
  have hindex : ∀ i < bound, ((quantizeCandidates candidates).take bound).indexAt i =
      (recOriginal ((recordsOf candidates).getD i []) : ℤ) := fun i hi => by
    have hlt : i < candidates.scores.length := hi.trans_le hbound
    rw [h.recOriginal_eq hlt, Int.toNat_of_nonneg (h.indexAt_bounds hlt).1]
    exact getD_take hi _
  rw [referenceKey, referenceKey, Prod.Lex.toLex_le_toLex, Prod.Lex.toLex_le_toLex,
    hindex a ha, hindex b hb, ← hscores a ha, ← hscores b hb, Int.ofNat_lt, Int.ofNat_inj] at hle
  rw [visitKey, visitKey, Prod.Lex.toLex_le_toLex, groupKey, groupKey, Prod.Lex.toLex_le_toLex]
  exact hle

/-- What the kernel selects is what the reference keeps. -/
theorem Packs.select_eq {iouWord : Word} (hiou : 0 ≤ Binary32.toRat iouWord) (limit : ℕ)
    (confidence : ℚ) :
    select (recordsOf candidates) iouWord limit []
        (visits (recordsOf candidates) confidence 0 bound) =
      greedy (suppressesAt ((quantizeCandidates candidates).take bound)
        (Binary32.toRat iouWord)) limit []
          (referenceOrder ((quantizeCandidates candidates).take bound) confidence) := by
  rw [select, h.visits_eq hbound confidence]
  refine greedy_congr fun a ha b hb => ?_
  have hlt : ∀ i ∈ referenceOrder ((quantizeCandidates candidates).take bound) confidence,
      i < bound := fun i hi => by
    rw [← h.visits_eq hbound confidence] at hi
    exact lt_of_mem_visits hi
  have hbox : ∀ i < bound, recBox ((recordsOf candidates).getD i []) =
      ((quantizeCandidates candidates).take bound).box i := fun i hi => by
    rw [h.recBox_eq (hi.trans_le hbound), DetectionBatch.box, DetectionBatch.box,
      DetectionBatch.take, getD_take hi]
  have hclass : ∀ i < bound, ((quantizeCandidates candidates).take bound).classAt i =
      (recClass ((recordsOf candidates).getD i []) : ℤ) := fun i hi => by
    have hin : i < candidates.scores.length := hi.trans_le hbound
    rw [h.recClass_eq hin, Int.toNat_of_nonneg (h.classAt_bounds hin).1]
    exact getD_take hi _
  have ha := hlt a ha
  have hb := hlt b hb
  rw [conflicts, suppressesAt, decide_eq_decide, hbox a ha, hbox b hb, hclass a ha, hclass b hb,
    lt_nmsIou_iff hiou, Int.ofNat_inj]
  constructor
  · rintro ⟨hclass, ha, hb, hover⟩
    exact ⟨hclass.symm, hb, ha, hover⟩
  · rintro ⟨hclass, hb, ha, hover⟩
    exact ⟨hclass.symm, ha, hb, hover⟩

end Selected

/-! ## The output -/

/-- The records that the host reads. -/
theorem chunkRecords_of_holds {buffer : List Word} {records : List (List Word)}
    (h : Holds buffer records) :
    chunkRecords buffer records.length = records.map (List.map Binary16.widen) := by
  refine List.ext_getElem (by simp [chunkRecords]) fun i hi hi' => ?_
  rw [List.length_map] at hi'
  have hwidth := h.widths _ (List.getElem_mem hi')
  simp only [chunkRecords, List.getElem_map, List.getElem_range]
  refine List.ext_getElem (by simp [hwidth]) fun field hfield hfield' => ?_
  rw [List.length_map] at hfield'
  have hentry := h.rows i hi' field (hwidth ▸ hfield')
  simp only [List.getElem_map, List.getElem_range]
  rw [List.getD_eq_getElem?_getD, hentry, List.getElem?_eq_getElem hfield']
  rfl

section Output

variable (h : Packs candidates confidenceThreshold iouThreshold maxDetections)

/-- The header that the kernel writes before it selects. -/
def headerOf (candidates : DetectionBatch) (confidenceThreshold iouThreshold : ℚ)
    (maxDetections : ℤ) : List Word :=
  [0, Binary16.ofRat confidenceThreshold, Binary16.ofRat iouThreshold,
    countWord maxDetections.toNat, countWord candidates.scores.length, countWord 2, 0, 0]

/-- The words of the header of a chunk. -/
theorem readWord_chunkOf {i : ℕ} (hi : i < 8) :
    readWord (chunkOf candidates confidenceThreshold iouThreshold maxDetections) i =
      .ok ([countWord candidates.scores.length, Binary16.ofRat confidenceThreshold,
        Binary16.ofRat iouThreshold, countWord maxDetections.toNat, 0, 0, 0, 0].getD i 0) := by
  refine readWord_of_getElem? ((getElem?_paddedTo ?_).trans ?_)
  · rw [List.length_append]
    exact Nat.lt_add_right _ hi
  · rw [List.getElem?_append_left hi, List.getElem?_eq_getElem hi, List.getD_eq_getElem _ _ hi]

include h

theorem Packs.length_chunkOf :
    (chunkOf candidates confidenceThreshold iouThreshold maxDetections).length = chunkWords := by
  have hcount : candidates.scores.length ≤ 255 := h.count
  refine length_paddedTo ?_
  rw [List.length_append, length_flatten_rows h.widths, length_recordsOf]
  show 8 + candidates.scores.length * 8 ≤ 2048
  omega

theorem Packs.headerCounts_eq :
    headerCounts (chunkOf candidates confidenceThreshold iouThreshold maxDetections) =
      .ok (candidates.scores.length, maxDetections.toNat) := by
  have hlimit := h.limit
  have hcapacity : capacity = 255 := rfl
  have hcount := h.count
  have hcounts : ∀ n ≤ capacity, countOf (Binary16.widen (countWord n)) capacity = .ok n := by
    intro n hn
    rw [countWord, Binary16.widen_narrow_ofNat _ (by omega), countOf_ofNat (by decide) hn]
  rw [headerCounts, readWord_chunkOf (by decide), ok_bind, List.getD_cons_zero, hcounts _ hcount,
    ok_bind, readWord_chunkOf (by decide), ok_bind]
  change (countOf (Binary16.widen (countWord maxDetections.toNat)) _ >>= _) = _
  rw [hcounts _ (by omega), ok_bind, readWord_chunkOf (by decide), ok_bind,
    readWord_chunkOf (by decide), ok_bind]
  exact bind_eq_ok_iff.2 ⟨(), refuseIf_of_not _ (by
    rw [not_or, not_not, not_not]
    exact ⟨Binary16.ofRat_bounds h.confidence.2, Binary16.ofRat_bounds h.iou.2⟩), rfl⟩

/-- A write to the header of an output without records. -/
theorem Packs.writeWord_outputOf {header : List Word} (hheader : header.length = headerWords)
    {field : ℕ} (hfield : field < headerWords) (word : Word) :
    writeWord (outputOf header (recordsOf candidates) []) field word =
      .ok (outputOf (header.set field word) (recordsOf candidates) []) :=
  Nms.writeWord_outputOf hheader h.holds (by simp) (Nat.zero_le _) hfield word

/-- The kernel begins the loop over the groups, whatever the output was. -/
theorem Packs.controlledAct_eq {output : List Word} (houtput : output.length = chunkWords) :
    controlledAct (chunkOf candidates confidenceThreshold iouThreshold maxDetections) chunkWords
      output =
      whileLoop .refused
        (groupStep (chunkOf candidates confidenceThreshold iouThreshold maxDetections)
          (Binary16.widen (Binary16.ofRat confidenceThreshold))
          (Binary16.widen (Binary16.ofRat iouThreshold)) candidates.scores.length
          maxDetections.toNat) (candidates.scores.length + 1)
        (0, ⟨outputOf (headerOf candidates confidenceThreshold iouThreshold maxDetections)
          (recordsOf candidates) [], 0⟩) := by
  have hcleared : clearWords chunkWords output =
      .ok (outputOf (List.replicate 8 0) (recordsOf candidates) []) := by
    have hzeros : paddedTo chunkWords (([] : List Word) ++ List.replicate 8 0) =
        paddedTo chunkWords [] := paddedTo_append_zeros (by decide)
    rw [clearWords_eq houtput, ← hzeros]
    rfl
  unfold controlledAct
  rw [if_neg (not_not.2 rfl), h.headerCounts_eq]
  change (clearWords chunkWords output >>= _) = _
  rw [hcleared, ok_bind, readWord_chunkOf (by decide), ok_bind, readWord_chunkOf (by decide),
    ok_bind, h.writeWord_outputOf rfl (by decide), ok_bind,
    h.writeWord_outputOf rfl (by decide), ok_bind, readWord_chunkOf (by decide), ok_bind,
    h.writeWord_outputOf rfl (by decide), ok_bind, readWord_chunkOf (by decide), ok_bind,
    h.writeWord_outputOf rfl (by decide), ok_bind, h.writeWord_outputOf rfl (by decide), ok_bind]
  rfl

/-- How the kernel ends on candidates that are ranked up to the bound. -/
theorem Packs.groups_returns (hfinite : (quantizeCandidates candidates).IsFinite) {bound : ℕ}
    (hbound : RankedUpTo (recordsOf candidates) bound) :
    Returns (whileLoop .refused
      (groupStep (chunkOf candidates confidenceThreshold iouThreshold maxDetections)
        (Binary16.widen (Binary16.ofRat confidenceThreshold))
        (Binary16.widen (Binary16.ofRat iouThreshold)) candidates.scores.length
        maxDetections.toNat) (candidates.scores.length + 1)
      (0, ⟨outputOf (headerOf candidates confidenceThreshold iouThreshold maxDetections)
        (recordsOf candidates) [], 0⟩))
      (Ends (headerOf candidates confidenceThreshold iouThreshold maxDetections)
        (recordsOf candidates) bound
        (select (recordsOf candidates) (Binary16.widen (Binary16.ofRat iouThreshold))
          maxDetections.toNat []
          (visits (recordsOf candidates) (transported confidenceThreshold) 0 bound))) := by
  have hnumbers : ∀ i,
      Binary32.isNaN (recScore ((recordsOf candidates).getD i [])) = false := by
    intro i
    rw [h.recScore_eq]
    rcases Nat.lt_or_ge i (quantizeCandidates candidates).scores.length with hi | hi
    · rw [List.getD_eq_getElem _ _ hi]
      exact Binary32.not_isNaN_of_isFinite (hfinite.2 _ (List.getElem_mem hi))
    · rw [List.getD_eq_default _ _ hi]
      decide
  have hconfidence : Binary32.isNaN
      (Binary16.widen (Binary16.ofRat confidenceThreshold)) = false :=
    (Binary32.le_iff.1 (Binary16.ofRat_bounds h.confidence.2).2).1
  have hlimit : maxDetections.toNat ≤ capacity := by
    have hlimit := h.limit
    omega
  rw [← length_recordsOf]
  exact groups_of_ranked h.holds rfl hnumbers hbound hconfidence hlimit

theorem Packs.length_outputOf {header : List Word} (hheader : header.length = headerWords)
    {kept : List ℕ} (hkept : ∀ i ∈ kept, i < (recordsOf candidates).length)
    (hcount : kept.length ≤ capacity) :
    (outputOf header (recordsOf candidates) kept).length = chunkWords := by
  refine length_paddedTo ((length_outputWords h.holds hheader hkept).le.trans ?_)
  have hcount : kept.length ≤ 255 := hcount
  show 8 + kept.length * 8 ≤ 2048
  omega

/-- The words of the header of an output. -/
theorem Packs.getD_outputOf {header : List Word} (hheader : header.length = headerWords)
    {kept : List ℕ} (hkept : ∀ i ∈ kept, i < (recordsOf candidates).length) {i : ℕ}
    (hi : i < headerWords) :
    (outputOf header (recordsOf candidates) kept).getD i 0 = header.getD i 0 := by
  rw [outputOf, List.getD_eq_getElem?_getD, List.getD_eq_getElem?_getD,
    getElem?_paddedTo (by
      rw [length_outputWords h.holds hheader hkept]; exact Nat.lt_add_right _ hi),
    List.getElem?_append_left (by rwa [hheader])]

/-- The host reads the records of what is selected. -/
theorem Packs.unpack_eq {bound : ℕ} (hbound : bound ≤ candidates.scores.length)
    {selected : List ℕ} (hselected : ∀ i ∈ selected, i < bound)
    (hcount : selected.length ≤ capacity) {output : List Word}
    (houtput : output = outputOf ((headerOf candidates confidenceThreshold iouThreshold
      maxDetections).set 0 (countWord selected.length)) (recordsOf candidates) selected) :
    unpackDetections (output ++ output) =
      .ok (((quantizeCandidates candidates).take bound).choose selected) := by
  have hkept : ∀ i ∈ selected, i < (recordsOf candidates).length := fun i hi => by
    rw [length_recordsOf]
    exact (hselected i hi).trans_le hbound
  have hheader : ((headerOf candidates confidenceThreshold iouThreshold maxDetections).set 0
      (countWord selected.length)).length = headerWords := rfl
  have hholds := holds_outputOf h.holds hheader hkept hcount
  have hlength := h.length_outputOf hheader hkept hcount
  have hcountWord := h.getD_outputOf hheader hkept (show 0 < headerWords by decide)
  have hstatusWord := h.getD_outputOf hheader hkept (show 6 < headerWords by decide)
  rw [← houtput] at hholds hlength hcountWord hstatusWord
  have hdecode : ∀ n < 2049, Runtime.decodeInt (Binary16.widen (countWord n)) = .ok (n : ℤ) :=
    fun n hn => by
      rw [countWord, Binary16.widen_narrow_ofNat _ hn, Runtime.decodeInt_ofNat (by omega)]
  have hstatus : Runtime.decodeInt (Binary16.widen (output.getD 6 0)) = .ok 0 := by
    have hzero : Binary16.widen 0 = Binary32.ofNat 0 := by decide
    rw [hstatusWord]
    change Runtime.decodeInt (Binary16.widen 0) = _
    rw [hzero, Runtime.decodeInt_ofNat (by decide)]
    rfl
  have hselectedCount : Runtime.decodeInt (Binary16.widen (output.getD 0 0)) =
      .ok (selected.length : ℤ) := by
    have hcapacity : capacity = 255 := rfl
    rw [hcountWord]
    exact hdecode selected.length (by omega)
  have htake : (output ++ output).take chunkWords = output := List.take_left' hlength
  have hrecords : chunkRecords ((output ++ output).take chunkWords) (selected.length : ℤ).toNat =
      selected.map fun i => ((recordsOf candidates).getD i []).map Binary16.widen := by
    have hrecords := chunkRecords_of_holds hholds
    rw [List.length_map, List.map_map] at hrecords
    rw [htake, Int.toNat_natCast]
    exact hrecords
  have hpair : (output ++ output).length = chunkWords * 2 := by
    rw [List.length_append, hlength, Nat.mul_two]
  have hguard : ¬(output ++ output).length ≠ chunkWords * 2 := fun hne => hne hpair
  have hzero : ¬(0 : ℤ) ≠ 0 := fun hne => hne rfl
  have hfits : ¬¬((0 : ℤ) ≤ selected.length ∧ (selected.length : ℤ) ≤ capacity) :=
    not_not.2 ⟨Int.natCast_nonneg _, Int.ofNat_le.2 hcount⟩
  have hentries : ∀ i ∈ selected, ∃ x1 y1 x2 y2,
      ((quantizeCandidates candidates).take bound).boxes.rows.getD i [] = [x1, y1, x2, y2] ∧
        ((recordsOf candidates).getD i []).map Binary16.widen = [x1, y1, x2, y2,
          ((quantizeCandidates candidates).take bound).scores.getD i 0,
          Binary32.ofNat (candidates.classAt i).toNat,
          Binary32.ofNat ((candidates.indexAt i).toNat % 256),
          Binary32.ofNat ((candidates.indexAt i).toNat / 256)] := fun i hi => by
    obtain ⟨x1, y1, x2, y2, hrow, hrecord⟩ := h.widened_eq ((hselected i hi).trans_le hbound)
    refine ⟨x1, y1, x2, y2, (getD_take (hselected i hi) _).trans hrow, hrecord.trans ?_⟩
    rw [DetectionBatch.take, getD_take (hselected i hi)]
  unfold unpackDetections
  refine bind_eq_ok_iff.2 ⟨(), refuseIf_of_not _ hguard, ?_⟩
  refine bind_eq_ok_iff.2 ⟨0, by rw [htake, hstatus], ?_⟩
  refine bind_eq_ok_iff.2 ⟨(), refuseIf_of_not _ hzero, ?_⟩
  refine bind_eq_ok_iff.2 ⟨_, by rw [htake, hselectedCount], ?_⟩
  refine bind_eq_ok_iff.2 ⟨(), refuseIf_of_not _ hfits, ?_⟩
  refine congrArg Except.ok (DetectionBatch.ext (FeatureMatrix.ext rfl ?_) ?_ ?_ ?_)
  · refine (congrArg (List.map _) hrecords).trans ((List.map_map ..).trans
      (List.map_congr_left fun i hi => ?_))
    obtain ⟨x1, y1, x2, y2, hrow, hrecord⟩ := hentries i hi
    rw [Function.comp_apply, hrecord, hrow]
    rfl
  · refine (congrArg (List.map _) hrecords).trans ((List.map_map ..).trans
      (List.map_congr_left fun i hi => ?_))
    obtain ⟨x1, y1, x2, y2, _, hrecord⟩ := hentries i hi
    rw [Function.comp_apply, hrecord]
    rfl
  · refine (congrArg (List.map _) hrecords).trans ((List.map_map ..).trans
      (List.map_congr_left fun i hi => ?_))
    obtain ⟨x1, y1, x2, y2, _, hrecord⟩ := hentries i hi
    have hlt := (hselected i hi).trans_le hbound
    have hclass := h.classAt_bounds hlt
    have htake : ((quantizeCandidates candidates).take bound).classAt i = candidates.classAt i :=
      getD_take (hselected i hi) _
    rw [Function.comp_apply, hrecord, htake]
    change (Binary32.toInt? (Binary32.ofNat _)).getD 0 = _
    rw [Binary32.toInt?_ofNat (by omega)]
    exact Int.toNat_of_nonneg hclass.1
  · refine (congrArg (List.map _) hrecords).trans ((List.map_map ..).trans
      (List.map_congr_left fun i hi => ?_))
    obtain ⟨x1, y1, x2, y2, _, hrecord⟩ := hentries i hi
    have hlt := (hselected i hi).trans_le hbound
    have hindex := h.indexAt_bounds hlt
    have htake : ((quantizeCandidates candidates).take bound).indexAt i = candidates.indexAt i :=
      getD_take (hselected i hi) _
    rw [Function.comp_apply, hrecord, htake]
    change (Binary32.toInt? (Binary32.ofNat _)).getD 0 +
      (Binary32.toInt? (Binary32.ofNat _)).getD 0 * 256 = _
    rw [Binary32.toInt?_ofNat (by omega), Binary32.toInt?_ofNat (by omega), Option.getD_some,
      Option.getD_some]
    omega

end Output

/-! ## The run -/

section Run

variable (h : Packs candidates confidenceThreshold iouThreshold maxDetections)

theorem length_quantized :
    (quantizeCandidates candidates).scores.length = candidates.scores.length :=
  List.length_map _

include h

/-- The candidates are ranked up to the first that rises, or to the end. -/
theorem Packs.rankedUpTo {bound : ℕ} (hle : bound ≤ candidates.scores.length)
    (hbefore : ∀ i < bound, ¬(quantizeCandidates candidates).Rises i)
    (hstops : bound = candidates.scores.length ∨ (quantizeCandidates candidates).Rises bound) :
    RankedUpTo (recordsOf candidates) bound where
  le := by rwa [length_recordsOf]
  ranked i j hij := by
    induction j, hij using Nat.le_induction with
    | base => exact fun _ => le_rfl
    | succ j hij ih =>
      intro hj
      have hstep := hbefore (j + 1) hj
      simp only [DetectionBatch.Rises, length_quantized, not_and, not_lt,
        Nat.add_sub_cancel] at hstep
      have hstep := hstep (Nat.succ_pos j) (by omega)
      rw [h.scoreAt_eq, h.scoreAt_eq] at *
      exact hstep.trans (ih (by omega))
  stops := by
    rw [length_recordsOf, h.scoreAt_eq, h.scoreAt_eq]
    refine hstops.imp_right fun hrises => ?_
    rwa [DetectionBatch.Rises, length_quantized] at hrises

theorem Packs.take_eq : (quantizeCandidates candidates).take candidates.scores.length =
    quantizeCandidates candidates := by
  refine DetectionBatch.ext (FeatureMatrix.ext rfl ?_) ?_ ?_ ?_
  · refine List.take_of_length_le ?_
    rw [quantizeCandidates, List.length_map, h.rows]
  · exact List.take_of_length_le length_quantized.le
  · exact List.take_of_length_le h.classes_length.le
  · exact List.take_of_length_le h.indices_length.le

/-- The reference accepts the first of the transported candidates. -/
theorem Packs.validateCandidates_eq (hfinite : (quantizeCandidates candidates).IsFinite)
    {bound : ℕ} (hle : bound ≤ candidates.scores.length) :
    validateCandidates ((quantizeCandidates candidates).take bound) = .ok () := by
  have hcount : ((quantizeCandidates candidates).take bound).scores.length = bound := by
    rw [DetectionBatch.take, List.length_take, length_quantized]
    exact min_eq_left hle
  have hrows : ((quantizeCandidates candidates).take bound).boxes.rows.length = bound := by
    rw [DetectionBatch.take, quantizeCandidates, List.length_take, List.length_map, h.rows]
    exact min_eq_left hle
  have hclasses : ((quantizeCandidates candidates).take bound).classes.length = bound := by
    rw [DetectionBatch.take, quantizeCandidates, List.length_take, h.classes_length]
    exact min_eq_left hle
  have hindices : ((quantizeCandidates candidates).take bound).indices.length = bound := by
    rw [DetectionBatch.take, quantizeCandidates, List.length_take, h.indices_length]
    exact min_eq_left hle
  have hfinite : ((quantizeCandidates candidates).take bound).IsFinite :=
    ⟨fun row hrow => hfinite.1 row (List.mem_of_mem_take hrow),
      fun score hscore => hfinite.2 score (List.mem_of_mem_take hscore)⟩
  have hshape : ¬(((quantizeCandidates candidates).take bound).boxes.rows.length ≠ bound ∨
      ((quantizeCandidates candidates).take bound).boxes.width ≠ 4) := by
    rw [not_or, not_not, not_not]
    exact ⟨hrows, h.width⟩
  unfold validateCandidates
  dsimp only
  rw [hcount, refuseIf_of_not _ hshape, ok_bind, refuseIf_of_not _ (by simp [hclasses, hindices]),
    ok_bind, refuseIf_of_not _ (not_not.2 hfinite)]

/-- The output reports a candidate that is out of order. -/
theorem Packs.reportsOrder {kept : List ℕ} (hkept : ∀ i ∈ kept, i < (recordsOf candidates).length)
    (hcount : kept.length ≤ capacity) {chunk : List Word}
    (hchunk : chunk = outputOf (((headerOf candidates confidenceThreshold iouThreshold
      maxDetections).set 6 (countWord 1)).set 0 0) (recordsOf candidates) kept) :
    ReportsOrder chunk := by
  have hheader : (((headerOf candidates confidenceThreshold iouThreshold maxDetections).set 6
      (countWord 1)).set 0 0).length = headerWords := rfl
  have hlength := h.length_outputOf hheader hkept hcount
  have hword := h.getD_outputOf hheader hkept (show 6 < headerWords by decide)
  rw [← hchunk] at hlength hword
  have hstatus : statusOf chunk = Binary32.ofNat 1 := by
    rw [statusOf, hword]
    exact Binary16.widen_narrow_ofNat 1 (by decide)
  refine ⟨hstatus, ?_⟩
  have hpair : (chunk ++ chunk).length = chunkWords * 2 := by
    rw [List.length_append, hlength, Nat.mul_two]
  have hguard : ¬(chunk ++ chunk).length ≠ chunkWords * 2 := fun hne => hne hpair
  have htake : (chunk ++ chunk).take chunkWords = chunk := List.take_left' hlength
  have hdecode : Runtime.decodeInt (statusOf ((chunk ++ chunk).take chunkWords)) = .ok (1 : ℕ) := by
    rw [htake, hstatus]
    exact Runtime.decodeInt_ofNat (by decide)
  have hbind : ∀ next : ℤ → Except ModelError DetectionBatch,
      (Runtime.decodeInt (statusOf ((chunk ++ chunk).take chunkWords)) >>= next) =
        next (1 : ℕ) := fun next => by rw [hdecode, ok_bind]
  unfold unpackDetections
  rw [refuseIf_of_not _ hguard, ok_bind]
  exact hbind _

/-- The output has what the reference keeps. -/
theorem Packs.keeps (hfinite : (quantizeCandidates candidates).IsFinite) {bound : ℕ}
    (hle : bound ≤ candidates.scores.length) {chunk : List Word}
    (hchunk : chunk = outputOf ((headerOf candidates confidenceThreshold iouThreshold
      maxDetections).set 0 (countWord (select (recordsOf candidates)
        (Binary16.widen (Binary16.ofRat iouThreshold)) maxDetections.toNat []
        (visits (recordsOf candidates) (transported confidenceThreshold) 0 bound)).length))
      (recordsOf candidates) (select (recordsOf candidates)
        (Binary16.widen (Binary16.ofRat iouThreshold)) maxDetections.toNat []
        (visits (recordsOf candidates) (transported confidenceThreshold) 0 bound))) :
    Keeps ((quantizeCandidates candidates).take bound) (transported confidenceThreshold)
      (transported iouThreshold) maxDetections chunk := by
  have hlimit := h.limit
  have hiou := transported_bounds h.iou.2
  have hvisited : ∀ i ∈ select (recordsOf candidates)
      (Binary16.widen (Binary16.ofRat iouThreshold)) maxDetections.toNat []
      (visits (recordsOf candidates) (transported confidenceThreshold) 0 bound), i < bound :=
    fun i hi => lt_of_mem_visits ((mem_of_mem_greedy hi).resolve_left (List.not_mem_nil))
  have hcount : (select (recordsOf candidates)
      (Binary16.widen (Binary16.ofRat iouThreshold)) maxDetections.toNat []
      (visits (recordsOf candidates) (transported confidenceThreshold) 0 bound)).length ≤
        capacity := (length_greedy_le (Nat.zero_le _) _).trans (by omega)
  have hreference := referenceNms_eq (h.validateCandidates_eq hfinite hle)
    (transported_bounds h.confidence.2) hiou maxDetections.toNat
  rw [Int.toNat_of_nonneg hlimit.1] at hreference
  refine ⟨?_, _, h.unpack_eq hle hvisited hcount hchunk, ?_⟩
  · have hkept : ∀ i ∈ select (recordsOf candidates)
        (Binary16.widen (Binary16.ofRat iouThreshold)) maxDetections.toNat []
        (visits (recordsOf candidates) (transported confidenceThreshold) 0 bound),
          i < (recordsOf candidates).length := fun i hi => by
      rw [length_recordsOf]
      exact (hvisited i hi).trans_le hle
    rw [statusOf, hchunk, h.getD_outputOf rfl hkept (by decide)]
    exact Binary16.widen_narrow_ofNat 0 (by decide)
  · rw [hreference, h.select_eq hle hiou.1]
    rfl

/-- Both invocations of a run end in one output. -/
theorem Packs.run_eq {chunk : List Word}
    (hchunk : ∀ output : List Word, output.length = chunkWords →
      controlledAct (chunkOf candidates confidenceThreshold iouThreshold maxDetections) chunkWords
        output = .ok chunk) {output : List Word} (houtput : output.length = chunkWords * 2) :
    run (chunkOf candidates confidenceThreshold iouThreshold maxDetections ++
      chunkOf candidates confidenceThreshold iouThreshold maxDetections) output =
        .ok (chunk ++ chunk) := by
  have hlength := h.length_chunkOf
  rw [run, List.take_left' hlength, List.drop_left' hlength,
    hchunk _ (by rw [List.length_take]; omega), ok_bind,
    hchunk _ (by rw [List.length_drop]; omega), ok_bind]

end Run

/-- What the kernel does on the candidates that packing accepts. -/
theorem run_eq_reference {packed output : List Word}
    (hpacked : packCandidates candidates confidenceThreshold iouThreshold maxDetections =
      .ok packed)
    (hfinite : (quantizeCandidates candidates).IsFinite)
    (houtput : output.length = chunkWords * 2) :
    ∃ chunk, run packed output = .ok (chunk ++ chunk) ∧ statusOf chunk ≠ Binary32.ofNat 2 ∧
      ((∀ i, ¬(quantizeCandidates candidates).Rises i) →
        Keeps (quantizeCandidates candidates) (transported confidenceThreshold)
          (transported iouThreshold) maxDetections chunk) ∧
      ∀ p, (quantizeCandidates candidates).Rises p →
        (∀ i < p, ¬(quantizeCandidates candidates).Rises i) →
          ReportsOrder chunk ∨
            Keeps ((quantizeCandidates candidates).take p) (transported confidenceThreshold)
              (transported iouThreshold) maxDetections chunk := by
  obtain ⟨h, rfl⟩ := packs_of_packCandidates hpacked
  have hwords : Binary32.ofNat 0 ≠ Binary32.ofNat 2 ∧ Binary32.ofNat 1 ≠ Binary32.ofNat 2 := by
    decide
  by_cases hrises : ∃ i, (quantizeCandidates candidates).Rises i
  · -- the kernel works on the candidates before the first that rises
    have hbefore : ∀ i < Nat.find hrises, ¬(quantizeCandidates candidates).Rises i :=
      fun i => Nat.find_min hrises
    have hle : Nat.find hrises ≤ candidates.scores.length :=
      (Nat.find_spec hrises).2.1.le.trans length_quantized.le
    obtain ⟨chunk, hchunk, hends⟩ := (h.groups_returns hfinite
      (h.rankedUpTo hle hbefore (.inr (Nat.find_spec hrises)))).exists_ok
    have hrun := h.run_eq (fun output houtput => (h.controlledAct_eq houtput).trans hchunk) houtput
    have hends : ReportsOrder chunk ∨ Keeps ((quantizeCandidates candidates).take (Nat.find hrises))
        (transported confidenceThreshold) (transported iouThreshold) maxDetections chunk := by
      rcases hends with hkeeps | ⟨_, kept, hkept, hcount, hreports⟩
      · exact .inr (h.keeps hfinite hle hkeeps)
      · exact .inl (h.reportsOrder hkept hcount hreports)
    refine ⟨chunk, hrun, ?_, fun hnone => absurd hrises (not_exists.2 hnone), ?_⟩
    · rcases hends with hreports | hkeeps
      · rw [hreports.1]
        exact hwords.2
      · rw [hkeeps.1]
        exact hwords.1
    · intro p hp hfirst
      have hfind : Nat.find hrises = p := (Nat.find_eq_iff hrises).2 ⟨hp, hfirst⟩
      rwa [hfind] at hends
  · rw [not_exists] at hrises
    obtain ⟨chunk, hchunk, hends⟩ := (h.groups_returns hfinite
      (h.rankedUpTo le_rfl (fun i _ => hrises i) (.inl rfl))).exists_ok
    have hrun := h.run_eq (fun output houtput => (h.controlledAct_eq houtput).trans hchunk) houtput
    have hkeeps : Keeps (quantizeCandidates candidates) (transported confidenceThreshold)
        (transported iouThreshold) maxDetections chunk := by
      rcases hends with hkeeps | ⟨hlt, _⟩
      · have hkeeps := h.keeps hfinite le_rfl hkeeps
        rwa [h.take_eq] at hkeeps
      · rw [length_recordsOf] at hlt
        exact absurd hlt (lt_irrefl _)
    refine ⟨chunk, hrun, ?_, fun _ => hkeeps, fun p hp => absurd hp (hrises p)⟩
    rw [hkeeps.1]
    exact hwords.1

/-- Two boxes of one class that overlap, and one of another class. -/
def exampleCandidates : DetectionBatch where
  boxes :=
    { width := 4
      rows := [[0, 0, Binary32.ofNat 4, Binary32.ofNat 4],
        [0, 0, Binary32.ofNat 4, Binary32.ofNat 3], [0, 0, Binary32.ofNat 4, Binary32.ofNat 3]]
      rows_width := by decide }
  scores := [Binary32.one, Binary32.half, Binary32.half]
  classes := [1, 1, 2]
  indices := [7, 3, 3]

theorem run_exampleCandidates : ∃ chunk, run (chunkOf exampleCandidates (1 / 4) (1 / 2) 5 ++
      chunkOf exampleCandidates (1 / 4) (1 / 2) 5) (List.replicate 4096 0) = .ok (chunk ++ chunk) ∧
    Keeps (quantizeCandidates exampleCandidates) (transported (1 / 4)) (transported (1 / 2)) 5
      chunk := by
  have hpacks : Packs exampleCandidates (1 / 4) (1 / 2) 5 := by
    refine ⟨?_, ?_, ?_, ?_, ?_, ?_, ?_, ?_, ?_, ?_⟩ <;> decide +kernel
  obtain ⟨chunk, hrun, _, hranked, _⟩ := run_eq_reference
    (packCandidates_eq hpacks (by decide +kernel)) (by decide +kernel)
    List.length_replicate
  refine ⟨chunk, hrun, hranked fun i hi => ?_⟩
  have hlt : i < 3 := hi.2.1
  exact (by decide +kernel : ∀ i < 3, ¬(quantizeCandidates exampleCandidates).Rises i) i hlt hi

end Nms

end Npunlock
