import Mathlib.Data.Prod.Lex
import Npunlock.HoleHeap

/-!
# The heaps of the graph search

The search keeps its candidates in a heap with the best one first, and its results in a heap with
the worst one first. The parallel arrays of distances and nodes are one array of pairs here, and
the order of the pairs is any linear order; the kernel's own is by distance, then by node
(`hnswBetter_toLex`).

The five functions differ in the order and in the way the root leaves. So there is one insertion,
one removal and one replacement with the order as a parameter, and a run of each heap is a run of
a priority queue over the multiset of its entries (`hnsw_heaps_are_queues`).
-/

namespace Npunlock

open HoleHeap

/-- An array and the number of its cells in use. -/
structure EntryHeap (α : Type) where
  cells : List α
  size : ℕ

namespace EntryHeap

variable {α : Type} (before : α → α → Bool)

def push (heap : EntryHeap α) (entry : α) : Option (EntryHeap α) := do
  let cells ← siftUp before entry heap.cells heap.size
  pure { cells, size := heap.size + 1 }

/-- Takes the root out and sifts the last entry down from its place. -/
def pop (heap : EntryHeap α) : Option (EntryHeap α) := do
  let replacement ← if heap.size = 0 then none else heap.cells[heap.size - 1]?
  let size := heap.size - 1
  let (cells, position) ← siftDown before size replacement heap.cells 0
  let cells ← if size = 0 then some cells else storeAt cells position replacement
  pure { cells, size }

def replace (heap : EntryHeap α) (entry : α) : Option (EntryHeap α) := do
  let (cells, position) ← siftDown before heap.size entry heap.cells 0
  let cells ← storeAt cells position entry
  pure { cells, size := heap.size }

/-- The heap holds the entries, and none comes before its parent. -/
structure Holds (heap : EntryHeap α) (contents : Multiset α) : Prop where
  size_le : heap.size ≤ heap.cells.length
  contents_eq : (heap.cells.take heap.size : Multiset α) = contents
  isHeap : IsHeap before heap.cells heap.size

variable {before} {heap : EntryHeap α} {contents : Multiset α}

theorem Holds.card_eq (h : Holds before heap contents) : contents.card = heap.size := by
  rw [← h.contents_eq, Multiset.coe_card, List.length_take_of_le h.size_le]

theorem Holds.mem_iff (h : Holds before heap contents) {entry : α} :
    entry ∈ contents ↔ ∃ i < heap.size, heap.cells[i]? = some entry := by
  rw [← h.contents_eq, Multiset.mem_coe, List.mem_iff_getElem?]
  constructor
  · rintro ⟨i, hi⟩
    have hlt : i < heap.size := by
      have := (List.getElem?_eq_some_iff.1 hi).1
      rw [List.length_take] at this
      omega
    exact ⟨i, hlt, by rwa [List.getElem?_take_of_lt hlt] at hi⟩
  · rintro ⟨i, hlt, hi⟩
    exact ⟨i, by rw [List.getElem?_take_of_lt hlt, hi]⟩

/-- The root is an entry, and no entry comes before it. -/
theorem Holds.root (hb : IsOrdering before) (h : Holds before heap contents)
    (hsize : 0 < heap.size) : ∃ root, heap.cells[0]? = some root ∧ root ∈ contents ∧
      ∀ entry ∈ contents, before entry root = false := by
  have hroot := List.getElem?_eq_getElem (show 0 < heap.cells.length from hsize.trans_le h.size_le)
  refine ⟨_, hroot, h.mem_iff.2 ⟨0, hsize, hroot⟩, fun entry hmem => ?_⟩
  obtain ⟨i, hlt, hi⟩ := h.mem_iff.1 hmem
  exact h.isHeap.root hb h.size_le i hlt _ hroot entry hi

/-- A new array holds nothing. -/
theorem holds_empty (cells : List α) : Holds before ⟨cells, 0⟩ 0 :=
  ⟨Nat.zero_le _, rfl, fun _ _ hlt => absurd hlt (Nat.not_lt_zero _)⟩

theorem push_spec (hb : IsOrdering before) (h : Holds before heap contents)
    (hcapacity : heap.size < heap.cells.length) (entry : α) :
    ∃ heap', heap.push before entry = some heap' ∧
      heap'.cells.length = heap.cells.length ∧ Holds before heap' (entry ::ₘ contents) := by
  have hfilled := getElem?_store hcapacity entry
  have hrising : RisingHole before (heap.cells.set heap.size entry) (heap.size + 1) heap.size := by
    refine ⟨fun i hi hlt hne a ha b hbi => ?_, fun _ i hi hlt hparent => by omega⟩
    rw [hfilled, if_neg (by omega)] at ha hbi
    exact h.isHeap i hi (by omega) a ha b hbi
  obtain ⟨cells, hrun, hlength, hheap, hperm⟩ :=
    siftUp_spec hb entry hcapacity (Nat.lt_succ_self _) hrising
  refine ⟨⟨cells, heap.size + 1⟩, by rw [push, hrun]; rfl, hlength,
    by rw [hlength]; exact hcapacity, ?_, hheap⟩
  have htake : (heap.cells.set heap.size entry).take (heap.size + 1) =
      heap.cells.take heap.size ++ [entry] := by
    rw [List.take_add_one, hfilled, if_pos rfl, List.take_set_of_le le_rfl]
    rfl
  rw [← h.contents_eq, Multiset.coe_eq_coe.2 hperm, htake]
  exact Multiset.coe_eq_coe.2 (List.perm_append_singleton _ _)

/-- The live cells with another root. -/
theorem exists_tail {cells : List α} {size : ℕ} (hpos : 0 < size) (hsize : size ≤ cells.length)
    {root : α} (hroot : cells[0]? = some root) (entry : α) :
    ∃ tail, cells.take size = root :: tail ∧ (cells.set 0 entry).take size = entry :: tail := by
  obtain ⟨size, rfl⟩ := Nat.exists_eq_succ_of_ne_zero hpos.ne'
  cases cells with
  | nil => cases hroot
  | cons first rest =>
    obtain rfl := Option.some.inj hroot
    exact ⟨rest.take size, rfl, rfl⟩

/-- The live cells are in order, but for the root that is to be filled. -/
theorem sinkingHole_root {cells : List α} {size live : ℕ} (h : IsHeap before cells live)
    (hle : size ≤ live) (hlive : live ≤ cells.length) (entry : α) :
    SinkingHole before (cells.set 0 entry) size 0 := by
  refine ⟨fun i hi hlt hparent a ha b hbi => ?_, fun hzero => absurd hzero (lt_irrefl 0)⟩
  have hfilled := getElem?_store (show 0 < cells.length by omega) entry
  rw [hfilled, if_neg hparent] at ha
  rw [hfilled, if_neg hi.ne'] at hbi
  exact h i hi (by omega) a ha b hbi

theorem replace_spec (hb : IsOrdering before) (h : Holds before heap contents)
    (hsize : 0 < heap.size) (entry : α) :
    ∃ heap' root rest, heap.replace before entry = some heap' ∧ heap.cells[0]? = some root ∧
      contents = root ::ₘ rest ∧ (∀ other ∈ rest, before other root = false) ∧
        heap'.cells.length = heap.cells.length ∧ Holds before heap' (entry ::ₘ rest) := by
  obtain ⟨root, hroot, hmem, hfirst⟩ := h.root hb hsize
  obtain ⟨tail, htake, htake'⟩ := exists_tail hsize h.size_le hroot entry
  obtain ⟨cells, position, hrun, hposition, hlength, hheap, hperm⟩ := siftDown_spec hb entry
    h.size_le hsize (sinkingHole_root h.isHeap le_rfl h.size_le entry)
  have hsizeLe := h.size_le
  have hcontents : contents = root ::ₘ tail := by
    rw [← h.contents_eq, htake]
    rfl
  refine ⟨⟨cells.set position entry, heap.size⟩, root, tail, ?_, hroot, hcontents,
    fun other hother => hfirst other (by rw [hcontents]; exact Multiset.mem_cons_of_mem hother),
    by rw [List.length_set, hlength], by rw [List.length_set, hlength]; exact hsizeLe, ?_, hheap⟩
  · rw [replace, hrun]
    simp [storeAt_of_lt (show position < cells.length by omega)]
  · rw [Multiset.coe_eq_coe.2 hperm, htake']
    rfl

theorem pop_spec (hb : IsOrdering before) (h : Holds before heap contents)
    (hsize : 0 < heap.size) :
    ∃ heap' root rest, heap.pop before = some heap' ∧ heap.cells[0]? = some root ∧
      contents = root ::ₘ rest ∧ (∀ other ∈ rest, before other root = false) ∧
        heap'.cells.length = heap.cells.length ∧ Holds before heap' rest := by
  obtain ⟨root, hroot, hmem, hfirst⟩ := h.root hb hsize
  have hsizeLe := h.size_le
  have hlast := List.getElem?_eq_getElem (show heap.size - 1 < heap.cells.length by omega)
  generalize heap.cells[heap.size - 1] = replacement at hlast
  have hsplit : heap.cells.take heap.size = heap.cells.take (heap.size - 1) ++ [replacement] := by
    have hsucc : heap.size = heap.size - 1 + 1 := by omega
    conv_lhs => rw [hsucc, List.take_add_one, hlast]
    rfl
  by_cases hone : heap.size = 1
  · have hrest : contents = root ::ₘ 0 := by
      rw [← h.contents_eq, hone, List.take_add_one, hroot]
      rfl
    refine ⟨⟨heap.cells, 0⟩, root, 0, ?_, hroot, hrest, fun _ hother => by simp at hother, rfl,
      holds_empty _⟩
    rw [pop, if_neg (by omega), hlast, hone]
    simp [siftDown]
  · have hpos : 0 < heap.size - 1 := by omega
    obtain ⟨tail, htake, htake'⟩ := exists_tail hpos (by omega) hroot replacement
    obtain ⟨cells, position, hrun, hposition, hlength, hheap, hperm⟩ :=
      siftDown_spec hb replacement (show heap.size - 1 ≤ heap.cells.length by omega) hpos
        (sinkingHole_root h.isHeap (by omega) hsizeLe replacement)
    have hcontents : contents = root ::ₘ (replacement :: tail : List α) := by
      rw [← h.contents_eq, hsplit, htake, List.cons_append, ← Multiset.cons_coe,
        Multiset.cons_inj_right, Multiset.coe_eq_coe]
      exact List.perm_append_singleton _ _
    refine ⟨⟨cells.set position replacement, heap.size - 1⟩, root, (replacement :: tail : List α),
      ?_, hroot, hcontents,
      fun other hother => hfirst other (by rw [hcontents]; exact Multiset.mem_cons_of_mem hother),
      by rw [List.length_set, hlength], by rw [List.length_set, hlength]; dsimp only; omega, ?_,
      hheap⟩
    · rw [pop, if_neg (by omega), hlast]
      simp only [Option.bind_eq_bind, Option.bind_some, hrun, if_neg hpos.ne',
        storeAt_of_lt (show position < cells.length by omega)]
      rfl
    · rw [Multiset.coe_eq_coe.2 hperm, htake']

end EntryHeap

/-! ## The functions of the kernel -/

section Kernel

variable {ε : Type} [LinearOrder ε]

def hnswBetter (left right : ε) : Bool :=
  left < right

def hnswWorse (left right : ε) : Bool :=
  right < left

/-- The kernel's own order. -/
theorem hnswBetter_toLex {δ ν : Type} [LinearOrder δ] [LinearOrder ν] (left right : δ × ν) :
    hnswBetter (toLex left) (toLex right) =
      (left.1 < right.1 || (left.1 = right.1 && left.2 < right.2)) := by
  simp [hnswBetter, Prod.Lex.toLex_lt_toLex]

theorem hnswWorse_toLex {δ ν : Type} [LinearOrder δ] [LinearOrder ν] (left right : δ × ν) :
    hnswWorse (toLex left) (toLex right) =
      (right.1 < left.1 || (left.1 = right.1 && right.2 < left.2)) := by
  simp [hnswWorse, Prod.Lex.toLex_lt_toLex, eq_comm]

theorem isOrdering_hnswBetter : IsOrdering (hnswBetter : ε → ε → Bool) where
  asymm h := by
    simp only [hnswBetter, decide_eq_true_eq, decide_eq_false_iff_not] at *
    exact h.asymm
  trans hab hbc := by
    simp only [hnswBetter, decide_eq_false_iff_not, not_lt] at *
    exact hab.trans hbc

theorem isOrdering_hnswWorse : IsOrdering (hnswWorse : ε → ε → Bool) where
  asymm h := by
    simp only [hnswWorse, decide_eq_true_eq, decide_eq_false_iff_not] at *
    exact h.asymm
  trans hab hbc := by
    simp only [hnswWorse, decide_eq_false_iff_not, not_lt] at *
    exact hbc.trans hab

def hnswCandidatePush (heap : EntryHeap ε) (entry : ε) : Option (EntryHeap ε) :=
  heap.push hnswBetter entry

def hnswCandidatePop (heap : EntryHeap ε) : Option (EntryHeap ε × ε) := do
  let entry ← heap.cells[0]?
  let heap ← heap.pop hnswBetter
  pure (heap, entry)

def hnswTopPush (heap : EntryHeap ε) (entry : ε) : Option (EntryHeap ε) :=
  heap.push hnswWorse entry

def hnswTopPop (heap : EntryHeap ε) : Option (EntryHeap ε) :=
  heap.pop hnswWorse

def hnswTopReplace (heap : EntryHeap ε) (entry : ε) : Option (EntryHeap ε) :=
  heap.replace hnswWorse entry

/-! ## Runs -/

inductive CandidateCall (ε : Type)
  | push (entry : ε)
  | pop

inductive TopCall (ε : Type)
  | push (entry : ε)
  | pop
  | replace (entry : ε)

/-- Makes the calls, and collects the entries that are popped. -/
def candidateRun (heap : EntryHeap ε) : List (CandidateCall ε) → Option (EntryHeap ε × List ε)
  | [] => some (heap, [])
  | .push entry :: calls => do
    candidateRun (← hnswCandidatePush heap entry) calls
  | .pop :: calls => do
    let (heap, entry) ← hnswCandidatePop heap
    let (heap, popped) ← candidateRun heap calls
    pure (heap, entry :: popped)

def topRun (heap : EntryHeap ε) : List (TopCall ε) → Option (EntryHeap ε)
  | [] => some heap
  | .push entry :: calls => do
    topRun (← hnswTopPush heap entry) calls
  | .pop :: calls => do
    topRun (← hnswTopPop heap) calls
  | .replace entry :: calls => do
    topRun (← hnswTopReplace heap entry) calls

/-- The calls push within the capacity and pop from a heap that is not empty. -/
def CandidateFits (capacity : ℕ) : ℕ → List (CandidateCall ε) → Prop
  | _, [] => True
  | size, .push _ :: calls => size < capacity ∧ CandidateFits capacity (size + 1) calls
  | size, .pop :: calls => 0 < size ∧ CandidateFits capacity (size - 1) calls

def TopFits (capacity : ℕ) : ℕ → List (TopCall ε) → Prop
  | _, [] => True
  | size, .push _ :: calls => size < capacity ∧ TopFits capacity (size + 1) calls
  | size, .pop :: calls => 0 < size ∧ TopFits capacity (size - 1) calls
  | size, .replace _ :: calls => 0 < size ∧ TopFits capacity size calls

/-- A queue of candidates : a pop takes the least entry. -/
inductive CandidateServes : Multiset ε → List (CandidateCall ε) → List ε → Multiset ε → Prop
  | done (contents) : CandidateServes contents [] [] contents
  | push {contents entry calls popped final}
    (h : CandidateServes (entry ::ₘ contents) calls popped final) :
    CandidateServes contents (.push entry :: calls) popped final
  | pop {least rest calls popped final} (hleast : ∀ other ∈ rest, least ≤ other)
    (h : CandidateServes rest calls popped final) :
    CandidateServes (least ::ₘ rest) (.pop :: calls) (least :: popped) final

/-- A queue of results : a pop or a replacement takes the greatest entry. -/
inductive TopServes : Multiset ε → List (TopCall ε) → Multiset ε → Prop
  | done (contents) : TopServes contents [] contents
  | push {contents entry calls final} (h : TopServes (entry ::ₘ contents) calls final) :
    TopServes contents (.push entry :: calls) final
  | pop {greatest rest calls final} (hgreatest : ∀ other ∈ rest, other ≤ greatest)
    (h : TopServes rest calls final) : TopServes (greatest ::ₘ rest) (.pop :: calls) final
  | replace {greatest rest entry calls final} (hgreatest : ∀ other ∈ rest, other ≤ greatest)
    (h : TopServes (entry ::ₘ rest) calls final) :
    TopServes (greatest ::ₘ rest) (.replace entry :: calls) final

theorem candidateRun_spec : ∀ {calls : List (CandidateCall ε)} {heap : EntryHeap ε}
    {contents : Multiset ε}, heap.Holds hnswBetter contents →
      CandidateFits heap.cells.length heap.size calls →
        ∃ heap' popped final, candidateRun heap calls = some (heap', popped) ∧
          CandidateServes contents calls popped final ∧ heap'.Holds hnswBetter final := by
  intro calls
  induction calls with
  | nil =>
    intro heap contents h _
    exact ⟨heap, [], contents, rfl, .done contents, h⟩
  | cons call calls ih =>
    intro heap contents h hfits
    cases call with
    | push entry =>
      obtain ⟨heap', hpush, hlength, h'⟩ :=
        EntryHeap.push_spec isOrdering_hnswBetter h hfits.1 entry
      have hsize : heap'.size = heap.size + 1 := by
        rw [← h'.card_eq, Multiset.card_cons, h.card_eq]
      obtain ⟨final, popped, contents', hrun, hserves, hfinal⟩ :=
        ih h' (by rw [hlength, hsize]; exact hfits.2)
      refine ⟨final, popped, contents', ?_, .push hserves, hfinal⟩
      rw [candidateRun, hnswCandidatePush, hpush, Option.bind_eq_bind, Option.bind_some, hrun]
    | pop =>
      obtain ⟨heap', least, rest, hpop, hroot, rfl, hleast, hlength, h'⟩ :=
        EntryHeap.pop_spec isOrdering_hnswBetter h hfits.1
      have hsize : heap'.size = heap.size - 1 := by
        rw [← h'.card_eq, ← h.card_eq, Multiset.card_cons, Nat.add_sub_cancel]
      obtain ⟨final, popped, contents', hrun, hserves, hfinal⟩ :=
        ih h' (by rw [hlength, hsize]; exact hfits.2)
      refine ⟨final, least :: popped, contents', ?_, .pop (fun other hother => ?_) hserves, hfinal⟩
      · simp [candidateRun, hnswCandidatePop, hpop, hroot, hrun]
      · simpa [hnswBetter] using hleast other hother

theorem topRun_spec : ∀ {calls : List (TopCall ε)} {heap : EntryHeap ε} {contents : Multiset ε},
    heap.Holds hnswWorse contents → TopFits heap.cells.length heap.size calls →
      ∃ heap' final, topRun heap calls = some heap' ∧ TopServes contents calls final ∧
        heap'.Holds hnswWorse final := by
  intro calls
  induction calls with
  | nil =>
    intro heap contents h _
    exact ⟨heap, contents, rfl, .done contents, h⟩
  | cons call calls ih =>
    intro heap contents h hfits
    cases call with
    | push entry =>
      obtain ⟨heap', hpush, hlength, h'⟩ := EntryHeap.push_spec isOrdering_hnswWorse h hfits.1 entry
      have hsize : heap'.size = heap.size + 1 := by
        rw [← h'.card_eq, Multiset.card_cons, h.card_eq]
      obtain ⟨final, contents', hrun, hserves, hfinal⟩ :=
        ih h' (by rw [hlength, hsize]; exact hfits.2)
      refine ⟨final, contents', ?_, .push hserves, hfinal⟩
      rw [topRun, hnswTopPush, hpush, Option.bind_eq_bind, Option.bind_some, hrun]
    | pop =>
      obtain ⟨heap', greatest, rest, hpop, -, rfl, hgreatest, hlength, h'⟩ :=
        EntryHeap.pop_spec isOrdering_hnswWorse h hfits.1
      have hsize : heap'.size = heap.size - 1 := by
        rw [← h'.card_eq, ← h.card_eq, Multiset.card_cons, Nat.add_sub_cancel]
      obtain ⟨final, contents', hrun, hserves, hfinal⟩ :=
        ih h' (by rw [hlength, hsize]; exact hfits.2)
      refine ⟨final, contents', ?_, .pop (fun other hother => ?_) hserves, hfinal⟩
      · rw [topRun, hnswTopPop, hpop, Option.bind_eq_bind, Option.bind_some, hrun]
      · simpa [hnswWorse] using hgreatest other hother
    | replace entry =>
      obtain ⟨heap', greatest, rest, hreplace, -, rfl, hgreatest, hlength, h'⟩ :=
        EntryHeap.replace_spec isOrdering_hnswWorse h hfits.1 entry
      have hsize : heap'.size = heap.size := by
        rw [← h'.card_eq, ← h.card_eq, Multiset.card_cons, Multiset.card_cons]
      obtain ⟨final, contents', hrun, hserves, hfinal⟩ :=
        ih h' (by rw [hlength, hsize]; exact hfits.2)
      refine ⟨final, contents', ?_, .replace (fun other hother => ?_) hserves, hfinal⟩
      · rw [topRun, hnswTopReplace, hreplace, Option.bind_eq_bind, Option.bind_some, hrun]
      · simpa [hnswWorse] using hgreatest other hother

/-- After every sequence of calls within the capacity, from a new array, the candidates hold what
a queue holds that pops its least entry, no candidate better than its parent, and the same entries
were popped. The results hold what a queue holds that pops and replaces its greatest entry, and
the greatest stands in the first cell. -/
theorem hnsw_heaps_are_queues (cells : List ε) :
    (∀ calls, CandidateFits cells.length 0 calls →
      ∃ heap popped final, candidateRun ⟨cells, 0⟩ calls = some (heap, popped) ∧
        CandidateServes 0 calls popped final ∧ heap.Holds hnswBetter final) ∧
    ∀ calls, TopFits cells.length 0 calls →
      ∃ heap final, topRun ⟨cells, 0⟩ calls = some heap ∧ TopServes 0 calls final ∧
        heap.Holds hnswWorse final ∧
          (0 < heap.size → ∃ greatest ∈ final, heap.cells[0]? = some greatest ∧
            ∀ other ∈ final, other ≤ greatest) := by
  refine ⟨fun calls hfits => candidateRun_spec (EntryHeap.holds_empty cells) hfits,
    fun calls hfits => ?_⟩
  obtain ⟨heap, final, hrun, hserves, hholds⟩ := topRun_spec (EntryHeap.holds_empty cells) hfits
  refine ⟨heap, final, hrun, hserves, hholds, fun hsize => ?_⟩
  obtain ⟨greatest, hroot, hmem, hfirst⟩ := hholds.root isOrdering_hnswWorse hsize
  exact ⟨greatest, hmem, hroot, fun other hother => by
    simpa [hnswWorse] using hfirst other hother⟩

/-- Two results pushed into two cells, and the worse of them replaced. -/
theorem hnsw_heaps_replaced : ∃ heap final, topRun ⟨[0, 0], 0⟩
    [TopCall.push 3, .push 5, .replace 4] = some heap ∧
      TopServes 0 [TopCall.push 3, .push 5, .replace 4] final ∧ heap.Holds hnswWorse final ∧
        (0 < heap.size → ∃ greatest ∈ final, heap.cells[0]? = some greatest ∧
          ∀ other ∈ final, other ≤ greatest) :=
  (hnsw_heaps_are_queues [0, 0]).2 [.push 3, .push 5, .replace 4] (by simp [TopFits])

end Kernel

end Npunlock
