import Mathlib.Data.Prod.Lex
import Npunlock.Binary32Value
import Npunlock.GreedySelection
import Npunlock.PaddedBuffer
import Npunlock.RuntimePacking

/-!
# Non-maximum suppression

The kernel that suppresses overlapping detections, the host's packing for it and the
host's own reference. Scores and boxes are transported in half precision. Comparisons are
those of the numbers, and the areas and their quotient are exact.

The reference visits the eligible candidates in the order of their scores, then of their
original indices, and marks what each kept one suppresses. The kernel takes candidates
that are ranked already, looks for the next index within a group of equal scores, and
compares each candidate with all that it has kept.
-/

namespace Npunlock

namespace Nms

/-- `NMS_CHUNK_WORDS`. -/
def chunkWords : ℕ := 2048

/-- `NMS_HEADER_WORDS`. -/
def headerWords : ℕ := 8

/-- `NMS_RECORD_WORDS`. -/
def recordWords : ℕ := 8

/-- `NMS_CAPACITY`. -/
def capacity : ℕ := 255

/-! ## Batches of detections -/

/-- `DetectionBatch`. -/
@[ext]
structure DetectionBatch where
  boxes : FeatureMatrix
  scores : List Word
  classes : List ℤ
  indices : List ℤ

/-- A number in half precision and back. -/
def quantize (value : Word) : Word :=
  Binary16.widen (Binary16.narrow value)

/-- `quantize_candidates`. -/
def quantizeCandidates (candidates : DetectionBatch) : DetectionBatch where
  boxes :=
    { width := candidates.boxes.width
      rows := candidates.boxes.rows.map (List.map quantize)
      rows_width := by
        intro row hrow
        obtain ⟨row, hmem, rfl⟩ := List.mem_map.1 hrow
        rw [List.length_map, candidates.boxes.rows_width row hmem] }
  scores := candidates.scores.map quantize
  classes := candidates.classes
  indices := candidates.indices

/-- The finiteness that packing and the reference check. -/
def DetectionBatch.IsFinite (candidates : DetectionBatch) : Prop :=
  (∀ row ∈ candidates.boxes.rows, ∀ value ∈ row, Binary32.isFinite value = true) ∧
    ∀ score ∈ candidates.scores, Binary32.isFinite score = true

instance (candidates : DetectionBatch) : Decidable candidates.IsFinite :=
  decidable_of_iff (candidates.boxes.rows.all (fun row => row.all Binary32.isFinite) = true ∧
    candidates.scores.all Binary32.isFinite = true) (by simp [DetectionBatch.IsFinite])

/-! ## Boxes -/

/-- The corners of a box. -/
structure Box where
  x1 : ℚ
  y1 : ℚ
  x2 : ℚ
  y2 : ℚ
  deriving DecidableEq

/-- The box of four numbers. -/
def boxOf (row : List Word) : Box :=
  ⟨Binary32.toRat (row.getD 0 0), Binary32.toRat (row.getD 1 0), Binary32.toRat (row.getD 2 0),
    Binary32.toRat (row.getD 3 0)⟩

def Box.width (box : Box) : ℚ :=
  box.x2 - box.x1

def Box.height (box : Box) : ℚ :=
  box.y2 - box.y1

/-- `valid_boxes`. -/
def Box.valid (box : Box) : Bool :=
  0 < box.width ∧ 0 < box.height

/-- The tests of a selected box against another, both valid. -/
def Box.suppresses (threshold : ℚ) (box other : Box) : Bool :=
  let width := min box.x2 other.x2 - max box.x1 other.x1
  let height := min box.y2 other.y2 - max box.y1 other.y1
  let intersection := width * height
  let union := box.width * box.height + other.width * other.height - intersection
  (0 < width ∧ 0 < height) ∧ 0 < union ∧ threshold < intersection / union

/-! ## The reference -/

section Reference

variable (candidates : DetectionBatch)

def DetectionBatch.score (index : ℕ) : ℚ :=
  Binary32.toRat (candidates.scores.getD index 0)

def DetectionBatch.box (index : ℕ) : Box :=
  boxOf (candidates.boxes.rows.getD index [])

def DetectionBatch.classAt (index : ℕ) : ℤ :=
  candidates.classes.getD index 0

def DetectionBatch.indexAt (index : ℕ) : ℤ :=
  candidates.indices.getD index 0

/-- `_validate_candidates`. -/
def validateCandidates : Except ModelError Unit := do
  let count := candidates.scores.length
  refuseIf (candidates.boxes.rows.length ≠ count ∨ candidates.boxes.width ≠ 4)
    (.value "boxes must have shape (N, 4)")
  refuseIf (candidates.classes.length ≠ count ∨ candidates.indices.length ≠ count)
    (.value "scores, classes, and indices must have shape (N,)")
  refuseIf (¬candidates.IsFinite) (.value "candidate boxes and scores must be finite")

/-- The key of the order : the score downwards, the original index, the position. -/
def referenceKey (index : ℕ) : ℚ ×ₗ (ℤ ×ₗ ℕ) :=
  toLex (-candidates.score index, toLex (candidates.indexAt index, index))

/-- `order`. -/
def referenceOrder (confidenceThreshold : ℚ) : List ℕ :=
  sortedBy (referenceKey candidates) ((List.range candidates.scores.length).filter
    fun index => confidenceThreshold < candidates.score index)

/-- The candidates that a selected one suppresses. -/
def suppressedBy (threshold : ℚ) (index : ℕ) (suppressed remaining : List ℕ) : List ℕ :=
  let comparable := remaining.filter fun other =>
    other ∉ suppressed ∧ candidates.classAt other = candidates.classAt index ∧
      (candidates.box other).valid
  if (candidates.box index).valid = false ∨ comparable = [] then []
  else comparable.filter fun other =>
    (candidates.box index).suppresses threshold (candidates.box other)

/-- The loop over the order. -/
def referenceLoop (threshold : ℚ) (maxDetections : ℤ) :
    List ℕ → List ℕ → List ℕ → List ℕ
  | [], _, selected => selected
  | index :: remaining, suppressed, selected =>
    if index ∈ suppressed then referenceLoop threshold maxDetections remaining suppressed selected
    else
      let selected := selected ++ [index]
      if maxDetections ≤ selected.length then selected
      else referenceLoop threshold maxDetections remaining
        (suppressed ++ suppressedBy candidates threshold index suppressed remaining) selected

/-- The batch of some candidates. -/
def DetectionBatch.choose (chosen : List ℕ) : DetectionBatch where
  boxes :=
    { width := 4
      rows := chosen.map fun index =>
        (List.range 4).map fun column => (candidates.boxes.rows.getD index []).getD column 0
      rows_width := by
        intro row hrow
        obtain ⟨index, _, rfl⟩ := List.mem_map.1 hrow
        rfl }
  scores := chosen.map fun index => candidates.scores.getD index 0
  classes := chosen.map candidates.classAt
  indices := chosen.map candidates.indexAt

/-- `reference_nms`. -/
def referenceNms (confidenceThreshold iouThreshold : ℚ) (maxDetections : ℤ) :
    Except ModelError DetectionBatch := do
  validateCandidates candidates
  refuseIf (¬(0 ≤ confidenceThreshold ∧ confidenceThreshold ≤ 1))
    (.value "confidence_threshold must be in [0, 1]")
  refuseIf (¬(0 ≤ iouThreshold ∧ iouThreshold ≤ 1)) (.value "iou_threshold must be in [0, 1]")
  refuseIf (maxDetections < 0) (.value "max_detections must be nonnegative")
  if maxDetections = 0 then .ok (candidates.choose [])
  else .ok (candidates.choose (referenceLoop candidates iouThreshold maxDetections
    (referenceOrder candidates confidenceThreshold) [] []))

end Reference

/-! ## Packing -/

/-- The half-precision word of a count. -/
def countWord (n : ℕ) : Word :=
  Binary16.narrow (Binary32.ofNat n)

/-- `pack_nms_header`. -/
def packNmsHeader (candidateCount : ℕ) (confidenceThreshold iouThreshold : ℚ)
    (maxDetections : ℤ) : Except ModelError (List Word) := do
  refuseIf (¬candidateCount ≤ capacity)
    (.value s!"candidate_count must be in [0, {capacity}]")
  refuseIf (¬(0 ≤ confidenceThreshold ∧ confidenceThreshold ≤ 1) ∨
    ¬(0 ≤ iouThreshold ∧ iouThreshold ≤ 1))
    (.value "confidence and IoU thresholds must be in [0, 1]")
  refuseIf (¬(0 ≤ maxDetections ∧ maxDetections ≤ capacity))
    (.value s!"max_detections must be in [0, {capacity}]")
  .ok [countWord candidateCount, Binary16.ofRat confidenceThreshold, Binary16.ofRat iouThreshold,
    countWord maxDetections.toNat]

/-- The words of a candidate. -/
def recordOf (box : List Word) (score : Word) (classId index : ℤ) : List Word :=
  box.map Binary16.narrow ++ [Binary16.narrow score, countWord classId.toNat,
    countWord (index.toNat % 256), countWord (index.toNat / 256)]

/-- The records of the candidates. -/
def recordsOf (candidates : DetectionBatch) : List (List Word) :=
  (List.range candidates.scores.length).map fun index =>
    recordOf (candidates.boxes.rows.getD index []) (candidates.scores.getD index 0)
      (candidates.classAt index) (candidates.indexAt index)

/-- `pack_candidates`. Classes and indices are integers here, so the tests for fractions
always pass. -/
def packCandidates (candidates : DetectionBatch) (confidenceThreshold iouThreshold : ℚ)
    (maxDetections : ℤ) : Except ModelError (List Word) := do
  let count := candidates.scores.length
  refuseIf (capacity < count)
    (.value s!"candidate count {count} exceeds fixed capacity {capacity}")
  refuseIf (candidates.boxes.rows.length ≠ count ∨ candidates.boxes.width ≠ 4)
    (.value "boxes must have shape (N, 4)")
  refuseIf (candidates.classes.length ≠ count ∨ candidates.indices.length ≠ count)
    (.value "scores, classes, and indices must have shape (N,)")
  refuseIf (¬candidates.IsFinite) (.value "candidate boxes and scores must be finite")
  let header ← packNmsHeader count confidenceThreshold iouThreshold maxDetections
  refuseIf (∃ classId ∈ candidates.classes, ¬(0 ≤ classId ∧ classId ≤ 255))
    (.value "class IDs must be in [0, 255]")
  refuseIf (∃ index ∈ candidates.indices, ¬(0 ≤ index ∧ index ≤ 65535))
    (.value "original indices must be in [0, 65535]")
  let chunk := paddedTo chunkWords (header ++ List.replicate (headerWords - header.length) 0 ++
    (recordsOf candidates).flatten)
  .ok (chunk ++ chunk)

/-- The first records of a chunk. -/
def chunkRecords (chunk : List Word) (count : ℕ) : List (List Word) :=
  (List.range count).map fun record =>
    (List.range recordWords).map fun field =>
      Binary16.widen (chunk.getD (headerWords + record * recordWords + field) 0)

/-- A number as `astype` converts it to an integer. -/
def toInteger (value : Word) : ℤ :=
  (Binary32.toInt? value).getD 0

/-- `unpack_detections`. -/
def unpackDetections (output : List Word) : Except ModelError DetectionBatch := do
  refuseIf (output.length ≠ chunkWords * 2)
    (.value s!"kernel output has {output.length} words, expected {chunkWords * 2}")
  let chunk := output.take chunkWords
  let status ← Runtime.decodeInt (Binary16.widen (chunk.getD 6 0))
  refuseIf (status ≠ 0)
    (.value s!"kernel rejected the ranked candidate stream with status {status}")
  let count ← Runtime.decodeInt (Binary16.widen (chunk.getD 0 0))
  refuseIf (¬(0 ≤ count ∧ count ≤ capacity))
    (.value s!"kernel selected count {count} is outside the fixed capacity")
  let records := chunkRecords chunk count.toNat
  .ok
    { boxes :=
        { width := 4
          rows := records.map fun record => (List.range 4).map fun column => record.getD column 0
          rows_width := by
            intro row hrow
            obtain ⟨record, _, rfl⟩ := List.mem_map.1 hrow
            rfl }
      scores := records.map fun record => record.getD 4 0
      classes := records.map fun record => toInteger (record.getD 5 0)
      indices := records.map fun record =>
        toInteger (record.getD 6 0) + toInteger (record.getD 7 0) * 256 }

/-! ## The kernel -/

/-- A word of a record. -/
def recordWord (buffer : List Word) (record field : ℕ) : Except KernelHalt Word :=
  readWord buffer (u32 (headerWords + record * recordWords + field))

/-- A number of a record. -/
def recordFloat (buffer : List Word) (record field : ℕ) : Except KernelHalt Word := do
  .ok (Binary16.widen (← recordWord buffer record field))

/-- The box of a record. -/
def recordBox (buffer : List Word) (record : ℕ) : Except KernelHalt Box := do
  let x1 ← recordFloat buffer record 0
  let y1 ← recordFloat buffer record 1
  let x2 ← recordFloat buffer record 2
  let y2 ← recordFloat buffer record 3
  .ok (boxOf [x1, y1, x2, y2])

/-- The class of a record. -/
def recordClass (buffer : List Word) (record : ℕ) : Except KernelHalt ℕ := do
  .ok (Binary32.truncate (← recordFloat buffer record 5))

/-- `nms_original_index`. -/
def originalIndex (buffer : List Word) (record : ℕ) : Except KernelHalt ℕ := do
  let low := Binary32.truncate (← recordFloat buffer record 6)
  let high := Binary32.truncate (← recordFloat buffer record 7)
  .ok (u32 (low + high * 256))

/-- `nms_maxf`. -/
def nmsMaxf (left right : ℚ) : ℚ :=
  if right < left then left else right

/-- `nms_minf`. -/
def nmsMinf (left right : ℚ) : ℚ :=
  if left < right then left else right

/-- `nms_iou`. -/
def nmsIou (left right : Box) : ℚ :=
  let intersectionWidth := nmsMinf left.x2 right.x2 - nmsMaxf left.x1 right.x1
  let intersectionHeight := nmsMinf left.y2 right.y2 - nmsMaxf left.y1 right.y1
  let leftWidth := left.x2 - left.x1
  let leftHeight := left.y2 - left.y1
  let rightWidth := right.x2 - right.x1
  let rightHeight := right.y2 - right.y1
  if intersectionWidth ≤ 0 ∨ intersectionHeight ≤ 0 ∨ leftWidth ≤ 0 ∨ leftHeight ≤ 0 ∨
      rightWidth ≤ 0 ∨ rightHeight ≤ 0 then 0
  else
    let intersection := intersectionWidth * intersectionHeight
    let unionArea := leftWidth * leftHeight + rightWidth * rightHeight - intersection
    if 0 < unionArea then intersection / unionArea else 0

section Kernel

variable (input : List Word)

/-- The loop of `nms_is_suppressed`, for the records from `selected` on. -/
def suppressedFrom (candidate candidateClass : ℕ) (output : List Word) (iouThreshold : Word) :
    ℕ → ℕ → Except KernelHalt Bool
  | 0, _ => .ok false
  | remaining + 1, selected => do
    let selectedClass ← recordClass output selected
    if selectedClass = candidateClass then do
      let selectedBox ← recordBox output selected
      let candidateBox ← recordBox input candidate
      if Binary32.toRat iouThreshold < nmsIou selectedBox candidateBox then .ok true
      else suppressedFrom candidate candidateClass output iouThreshold remaining (selected + 1)
    else suppressedFrom candidate candidateClass output iouThreshold remaining (selected + 1)

/-- `nms_is_suppressed`. -/
def isSuppressed (candidate : ℕ) (output : List Word) (selectedCount : ℕ)
    (iouThreshold : Word) : Except KernelHalt Bool := do
  let candidateClass ← recordClass input candidate
  suppressedFrom input candidate candidateClass output iouThreshold selectedCount 0

/-- `nms_append`. -/
def append (candidate : ℕ) (output : List Word) (selectedCount : ℕ) :
    Except KernelHalt (List Word) :=
  forRange 0 recordWords output fun field output => do
    let word ← recordWord input candidate field
    writeWord output (u32 (headerWords + selectedCount * recordWords + field)) word

/-- The output and the number of records in it. -/
structure Selection where
  output : List Word
  selectedCount : ℕ

/-- `output[6] = status; output[0] = 0; return`. -/
def finishWith (output : List Word) (status : ℕ) : Except KernelHalt (List Word) := do
  let output ← writeWord output 6 (countWord status)
  writeWord output 0 0

/-- Whether a candidate comes after the last one of its group. -/
def comesAfter (last : Option (ℕ × ℕ)) (original position : ℕ) : Bool :=
  match last with
  | none => true
  | some (lastOriginal, lastPosition) =>
    ¬(original < lastOriginal ∨ original = lastOriginal ∧ position ≤ lastPosition)

/-- The search for `best_position` and `best_original` in a group. -/
def bestCandidate (groupBegin groupEnd : ℕ) (last : Option (ℕ × ℕ)) :
    Except KernelHalt (ℕ × ℕ) :=
  forRange groupBegin groupEnd (capacity, 0) fun position best => do
    let original ← originalIndex input position
    if comesAfter last original position = false then .ok best
    else if best.1 = capacity ∨ original < best.2 ∨ original = best.2 ∧ position < best.1 then
      .ok (position, original)
    else .ok best

/-- The loop over a group, whose candidates are visited by their original indices. It ends
in the output if the kernel returns. -/
def emitGroup (iouThreshold : Word) (maxDetections groupBegin groupEnd : ℕ) :
    ℕ → Option (ℕ × ℕ) → Selection → Except KernelHalt (Selection ⊕ List Word)
  | 0, _, selection => .ok (.inl selection)
  | remaining + 1, last, selection =>
    if maxDetections ≤ selection.selectedCount then .ok (.inl selection)
    else do
      let best ← bestCandidate input groupBegin groupEnd last
      if best.1 = capacity then do
        let output ← finishWith selection.output 2
        .ok (.inr output)
      else do
        let suppressed ← isSuppressed input best.1 selection.output selection.selectedCount
          iouThreshold
        let selection ← if suppressed then .ok selection else do
          let output ← append input best.1 selection.output selection.selectedCount
          .ok ⟨output, selection.selectedCount + 1⟩
        emitGroup iouThreshold maxDetections groupBegin groupEnd remaining
          (some (best.2, best.1)) selection

/-- The search for `group_end`, which fails at a score above that of the group. -/
def findGroupEnd (score : Word) : ℕ → ℕ → Except KernelHalt (Option ℕ)
  | 0, groupEnd => .ok (some groupEnd)
  | remaining + 1, groupEnd => do
    let nextScore ← recordFloat input groupEnd 4
    if Binary32.lt score nextScore then .ok none
    else if ¬Binary32.eq nextScore score then .ok (some groupEnd)
    else findGroupEnd score remaining (groupEnd + 1)

/-- One round of the loop over the groups. -/
def groupStep (confidenceThreshold iouThreshold : Word) (candidateCount maxDetections : ℕ)
    (state : ℕ × Selection) : Except KernelHalt ((ℕ × Selection) ⊕ List Word) := do
  let finish := do
    let output ← writeWord state.2.output 0 (countWord state.2.selectedCount)
    .ok (.inr output)
  if ¬(state.1 < candidateCount ∧ state.2.selectedCount < maxDetections) then finish
  else do
    let score ← recordFloat input state.1 4
    if ¬Binary32.lt confidenceThreshold score then finish
    else do
      match ← findGroupEnd input score (candidateCount - (state.1 + 1)) (state.1 + 1) with
      | none => do
        let output ← finishWith state.2.output 1
        .ok (.inr output)
      | some groupEnd => do
        match ← emitGroup input iouThreshold maxDetections state.1 groupEnd (groupEnd - state.1)
            none state.2 with
        | .inl selection => .ok (.inl (groupEnd, selection))
        | .inr output => .ok (.inr output)

/-- The checks of the header, which end in the two counts. -/
def headerCounts : Except KernelHalt (ℕ × ℕ) := do
  let candidateCount ← countOf (Binary16.widen (← readWord input 0)) capacity
  let maxDetections ← countOf (Binary16.widen (← readWord input 3)) capacity
  let confidenceThreshold := Binary16.widen (← readWord input 1)
  let iouThreshold := Binary16.widen (← readWord input 2)
  refuseIf (¬(Binary32.le 0 confidenceThreshold ∧ Binary32.le confidenceThreshold Binary32.one) ∨
    ¬(Binary32.le 0 iouThreshold ∧ Binary32.le iouThreshold Binary32.one)) .refused
  .ok (candidateCount, maxDetections)

/-- `controlled_act`. The loop over the groups moves forward, so it ends within one round
more than there are candidates. -/
def controlledAct (elementCount : ℕ) (output : List Word) : Except KernelHalt (List Word) :=
  if elementCount ≠ chunkWords then .ok output
  else ifRefused (headerCounts input) (.ok output) fun counts => do
    let output ← clearWords chunkWords output
    let confidenceThreshold ← readWord input 1
    let iouThreshold ← readWord input 2
    let output ← writeWord output 1 confidenceThreshold
    let output ← writeWord output 2 iouThreshold
    let output ← writeWord output 3 (← readWord input 3)
    let output ← writeWord output 4 (← readWord input 0)
    let output ← writeWord output 5 (countWord 2)
    whileLoop .refused
      (groupStep input (Binary16.widen confidenceThreshold) (Binary16.widen iouThreshold) counts.1
        counts.2) (counts.1 + 1) (0, ⟨output, 0⟩)

end Kernel

/-- A run, with one invocation for each chunk of the tensor. -/
def run (packed output : List Word) : Except KernelHalt (List Word) := do
  let first ← controlledAct (packed.take chunkWords) chunkWords (output.take chunkWords)
  let second ← controlledAct (packed.drop chunkWords) chunkWords (output.drop chunkWords)
  .ok (first ++ second)

end Nms

end Npunlock
