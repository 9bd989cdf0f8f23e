import Mathlib.Data.Multiset.Basic

/-!
# Binary heaps that are sifted with a hole

A heap stands in the first cells of an array of fixed length, the children of cell `i` in the
cells `2i + 1` and `2i + 2`. An insertion and a removal carry an entry along a path of the heap :
the cell where the entry would stand is a hole, the neighbour that it has to pass moves into the
hole, and the entry is written once, at the end. An access outside the array gives `none`.

In the proofs the hole is thought of as filled with the entry already. A round then swaps two
cells, which keeps the entries (`store_store_perm`), and the heap condition may fail at the hole
alone : at its parent on the way up (`RisingHole`), at its children on the way down
(`SinkingHole`).
-/

namespace Npunlock.HoleHeap

variable {α : Type}

/-! ## The loops -/

/-- Writes a cell of the array. -/
def storeAt (cells : List α) (position : ℕ) (entry : α) : Option (List α) :=
  if position < cells.length then some (cells.set position entry) else none

variable (before : α → α → Bool)

/-- Moves the hole up while the entry comes before the parent, and writes the entry. -/
def siftUp (entry : α) (cells : List α) (position : ℕ) : Option (List α) :=
  if _h : position = 0 then storeAt cells position entry
  else do
    let above ← cells[(position - 1) / 2]?
    if before entry above then
      siftUp entry (← storeAt cells position above) ((position - 1) / 2)
    else storeAt cells position entry
termination_by position
decreasing_by omega

/-- Whether there is a right child, and it comes before the left one. -/
def picksRight (cells : List α) (size left : ℕ) : Option Bool :=
  if left + 1 < size then do
    let rightEntry ← cells[left + 1]?
    let leftEntry ← cells[left]?
    pure (before rightEntry leftEntry)
  else some false

/-- Moves the hole down while its first child comes before the entry. Returns the hole. -/
def siftDown (size : ℕ) (entry : α) (cells : List α) (position : ℕ) : Option (List α × ℕ) :=
  if _h : position * 2 + 1 < size then do
    let right ← picksRight before cells size (position * 2 + 1)
    let below ← cells[position * 2 + 1 + right.toNat]?
    if before below entry then
      siftDown size entry (← storeAt cells position below) (position * 2 + 1 + right.toNat)
    else pure (cells, position)
  else pure (cells, position)
termination_by size - position
decreasing_by omega

/-! ## The order -/

/-- An order in which the entries may be equally good. -/
structure IsOrdering : Prop where
  asymm : ∀ {a b}, before a b = true → before b a = false
  trans : ∀ {a b c}, before b a = false → before c b = false → before c a = false

/-- The entry of the second cell does not come before the one of the first. -/
def Ordered (cells : List α) (i j : ℕ) : Prop :=
  ∀ a ∈ cells[i]?, ∀ b ∈ cells[j]?, before b a = false

/-- No entry comes before its parent. -/
def IsHeap (cells : List α) (size : ℕ) : Prop :=
  ∀ i, 0 < i → i < size → Ordered before cells ((i - 1) / 2) i

/-- The heap condition fails at most between the hole and its parent. -/
structure RisingHole (cells : List α) (size hole : ℕ) : Prop where
  edge : ∀ i, 0 < i → i < size → i ≠ hole → Ordered before cells ((i - 1) / 2) i
  across : 0 < hole → ∀ i, 0 < i → i < size → (i - 1) / 2 = hole →
    Ordered before cells ((hole - 1) / 2) i

/-- The heap condition fails at most between the hole and its children. -/
structure SinkingHole (cells : List α) (size hole : ℕ) : Prop where
  edge : ∀ i, 0 < i → i < size → (i - 1) / 2 ≠ hole → Ordered before cells ((i - 1) / 2) i
  across : 0 < hole → ∀ i, 0 < i → i < size → (i - 1) / 2 = hole →
    Ordered before cells ((hole - 1) / 2) i

variable {before}

theorem IsOrdering.irrefl (hb : IsOrdering before) (a : α) : before a a = false := by
  cases h : before a a with
  | false => rfl
  | true => rw [← h, hb.asymm h]

/-- The first entry comes before all others, or is as good. -/
theorem IsHeap.root (hb : IsOrdering before) {cells : List α} {size : ℕ}
    (h : IsHeap before cells size) (hsize : size ≤ cells.length) :
    ∀ i, i < size → Ordered before cells 0 i := by
  intro i
  induction i using Nat.strongRecOn with
  | _ i ih =>
    intro hi a ha b hb'
    by_cases hzero : i = 0
    · subst hzero
      obtain rfl := Option.mem_unique ha hb'
      exact hb.irrefl a
    · have hparent : (i - 1) / 2 < cells.length := by omega
      have hedge := h i (by omega) hi _ (List.getElem?_eq_getElem hparent) b hb'
      have hroot := ih ((i - 1) / 2) (by omega) (by omega) a ha _
        (List.getElem?_eq_getElem hparent)
      exact hb.trans hroot hedge

/-! ## Filling the hole -/

theorem storeAt_of_lt {cells : List α} {position : ℕ} (h : position < cells.length) (entry : α) :
    storeAt cells position entry = some (cells.set position entry) :=
  if_pos h

/-- The cells after a round : the neighbour in the old hole, the entry in the new one. -/
theorem getElem?_store_store {cells : List α} {hole next : ℕ} (hhole : hole < cells.length)
    (hnext : next < cells.length) (entry moved : α) (i : ℕ) :
    ((cells.set hole moved).set next entry)[i]? =
      if i = next then some entry else if i = hole then some moved else cells[i]? := by
  rw [List.getElem?_set, List.getElem?_set, List.length_set]
  split_ifs <;> first | rfl | omega

theorem getElem?_store {cells : List α} {hole : ℕ} (hhole : hole < cells.length) (entry : α)
    (i : ℕ) : (cells.set hole entry)[i]? = if i = hole then some entry else cells[i]? := by
  rw [List.getElem?_set]
  split_ifs <;> first | rfl | omega

/-- A round swaps the entry with the neighbour. -/
theorem store_store_perm {cells : List α} {size hole next : ℕ} {moved : α}
    (hsize : size ≤ cells.length) (hhole : hole < size) (hnext : next < size)
    (hne : next ≠ hole) (hmoved : cells[next]? = some moved) (entry : α) :
    (((cells.set hole moved).set next entry).take size).Perm
      ((cells.set hole entry).take size) := by
  rw [List.take_set, List.take_set, List.take_set]
  have hlength : (cells.take size).length = size := List.length_take_of_le hsize
  have hat : (cells.take size)[next]? = some moved := by
    rw [List.getElem?_take_of_lt hnext, hmoved]
  generalize cells.take size = live at hlength hat
  obtain ⟨hlt, hat⟩ := List.getElem?_eq_some_iff.1 hat
  have hperm := @List.set_set_perm _ (live.set hole entry) hole next
    (by rw [List.length_set]; omega) (by rw [List.length_set]; omega)
  rw [List.set_set, List.getElem_set_ne hne.symm, List.getElem_set_self, hat] at hperm
  exact hperm

/-! ## Going up -/

section Up

variable {cells : List α} {size hole : ℕ} {entry above : α}

theorem RisingHole.isHeap_root (h : RisingHole before cells size 0) :
    IsHeap before cells size :=
  fun i hi hlt => h.edge i hi hlt (by omega)

theorem RisingHole.isHeap (hhole : hole < cells.length) (hpos : 0 < hole)
    (h : RisingHole before (cells.set hole entry) size hole)
    (habove : cells[(hole - 1) / 2]? = some above) (hstop : before entry above = false) :
    IsHeap before (cells.set hole entry) size := by
  intro i hi hlt
  by_cases hat : i = hole
  · subst hat
    intro a ha b hb
    rw [getElem?_store hhole, if_neg (by omega), habove] at ha
    rw [getElem?_store hhole, if_pos rfl] at hb
    obtain rfl := Option.some.inj ha
    obtain rfl := Option.some.inj hb
    exact hstop
  · exact h.edge i hi hlt hat

/-- The hole goes up : the parent moves into it. -/
theorem RisingHole.step (hb : IsOrdering before) (hsize : size ≤ cells.length)
    (hhole : hole < size) (hpos : 0 < hole)
    (h : RisingHole before (cells.set hole entry) size hole)
    (habove : cells[(hole - 1) / 2]? = some above) (hgo : before entry above = true) :
    RisingHole before ((cells.set hole above).set ((hole - 1) / 2) entry) size
      ((hole - 1) / 2) := by
  have hparent : (hole - 1) / 2 < hole := by omega
  have hold := @getElem?_store _ cells hole (by omega) entry
  have hnew := @getElem?_store_store _ cells hole ((hole - 1) / 2) (by omega) (by omega) entry
    above
  -- the edges below the parent of the hole, seen from the parent's entry
  have hbelow : ∀ i, 0 < i → i < size → i ≠ hole → (i - 1) / 2 = (hole - 1) / 2 →
      ∀ b ∈ cells[i]?, before b above = false := by
    intro i hi hlt hne hedge b hbi
    refine h.edge i hi hlt hne above ?_ b ?_
    · rw [hedge, hold, if_neg hparent.ne, habove]
      rfl
    · rw [hold, if_neg hne]
      exact hbi
  constructor
  · intro i hi hlt hne a ha b hbi
    rw [hnew] at ha hbi
    rw [if_neg hne] at hbi
    by_cases hat : i = hole
    · subst hat
      rw [if_pos rfl] at ha hbi
      obtain rfl := Option.some.inj ha
      obtain rfl := Option.some.inj hbi
      exact hb.asymm hgo
    · rw [if_neg hat] at hbi
      by_cases hchild : (i - 1) / 2 = hole
      · rw [if_neg (by omega), if_pos hchild] at ha
        obtain rfl := Option.some.inj ha
        refine h.across hpos i hi hlt hchild above ?_ b ?_
        · rw [hold, if_neg hparent.ne, habove]
          rfl
        · rw [hold, if_neg hat]
          exact hbi
      · by_cases hsibling : (i - 1) / 2 = (hole - 1) / 2
        · rw [if_pos hsibling] at ha
          obtain rfl := Option.some.inj ha
          exact hb.trans (hb.asymm hgo) (hbelow i hi hlt hat hsibling b hbi)
        · rw [if_neg hsibling, if_neg hchild] at ha
          refine h.edge i hi hlt hat a ?_ b ?_
          · rw [hold, if_neg hchild]
            exact ha
          · rw [hold, if_neg hat]
            exact hbi
  · intro hgrand i hi hlt hchild a ha b hbi
    have hparentEdge : before above a = false := by
      refine h.edge ((hole - 1) / 2) hgrand (by omega) (by omega) a ?_ above ?_
      · rw [hnew, if_neg (by omega), if_neg (by omega)] at ha
        rw [hold, if_neg (by omega)]
        exact ha
      · rw [hold, if_neg hparent.ne, habove]
        rfl
    rw [hnew, if_neg (by omega)] at hbi
    by_cases hat : i = hole
    · rw [if_pos hat] at hbi
      obtain rfl := Option.some.inj hbi
      exact hparentEdge
    · rw [if_neg hat] at hbi
      exact hb.trans hparentEdge (hbelow i hi hlt hat hchild b hbi)

/-- The way up ends in a heap with the entries that were there and the new one. -/
theorem siftUp_spec (hb : IsOrdering before) (entry : α) {size : ℕ} :
    ∀ {hole : ℕ} {cells : List α}, size ≤ cells.length → hole < size →
      RisingHole before (cells.set hole entry) size hole →
        ∃ cells', siftUp before entry cells hole = some cells' ∧
          cells'.length = cells.length ∧ IsHeap before cells' size ∧
            (cells'.take size).Perm ((cells.set hole entry).take size) := by
  intro hole
  induction hole using Nat.strongRecOn with
  | _ hole ih =>
    intro cells hsize hhole h
    rw [siftUp]
    split_ifs with hzero
    · subst hzero
      exact ⟨_, storeAt_of_lt (by omega) entry, List.length_set, h.isHeap_root, .refl _⟩
    · have hparent : (hole - 1) / 2 < cells.length := by omega
      have habove := List.getElem?_eq_getElem hparent
      rw [habove, Option.bind_eq_bind, Option.bind_some]
      split_ifs with hgo
      · rw [storeAt_of_lt (by omega), Option.bind_eq_bind, Option.bind_some]
        obtain ⟨cells', hrun, hlength, hheap, hperm⟩ := ih ((hole - 1) / 2) (by omega)
          (by rw [List.length_set]; omega) (by omega)
          (h.step hb hsize hhole (by omega) habove hgo)
        refine ⟨cells', hrun, by rw [hlength, List.length_set], hheap, hperm.trans ?_⟩
        exact store_store_perm hsize hhole (by omega) (by omega) habove entry
      · rw [Bool.not_eq_true] at hgo
        exact ⟨_, storeAt_of_lt (by omega) entry, List.length_set,
          h.isHeap (by omega) (by omega) habove hgo, .refl _⟩

end Up

/-! ## Going down -/

section Down

variable {cells : List α} {size hole : ℕ} {entry : α}

theorem SinkingHole.isHeap_leaf (hleaf : size ≤ hole * 2 + 1)
    (h : SinkingHole before cells size hole) : IsHeap before cells size :=
  fun i hi hlt => h.edge i hi hlt (by omega)

/-- The child of the hole that `siftDown` looks at. -/
structure FirstChild (before : α → α → Bool) (cells : List α) (size hole child : ℕ) (below : α) :
    Prop where
  child_eq : child = hole * 2 + 1 ∨ child = hole * 2 + 2
  lt : child < size
  entry_eq : cells[child]? = some below
  first : ∀ i, 0 < i → i < size → (i - 1) / 2 = hole → ∀ b ∈ cells[i]?, before b below = false

theorem exists_firstChild (hb : IsOrdering before) (hsize : size ≤ cells.length)
    (hleft : hole * 2 + 1 < size) : ∃ right below,
      picksRight before cells size (hole * 2 + 1) = some right ∧
        FirstChild before cells size hole (hole * 2 + 1 + right.toNat) below := by
  have hleftAt := List.getElem?_eq_getElem (show hole * 2 + 1 < cells.length by omega)
  unfold picksRight
  split_ifs with hright
  · have hrightAt := List.getElem?_eq_getElem (show hole * 2 + 1 + 1 < cells.length by omega)
    rw [hleftAt, hrightAt]
    generalize cells[hole * 2 + 1] = left at hleftAt
    generalize cells[hole * 2 + 1 + 1] = rightEntry at hrightAt
    have hchildren : ∀ i, 0 < i → (i - 1) / 2 = hole → i = hole * 2 + 1 ∨ i = hole * 2 + 1 + 1 :=
      fun i hi hchild => by omega
    cases hfirst : before rightEntry left with
    | true =>
      refine ⟨true, rightEntry, by simp [hfirst], Or.inr rfl, hright, hrightAt, ?_⟩
      intro i hi _ hchild b hbi
      rcases hchildren i hi hchild with rfl | rfl
      · obtain rfl := Option.mem_unique hleftAt hbi
        exact hb.asymm hfirst
      · obtain rfl := Option.mem_unique hrightAt hbi
        exact hb.irrefl _
    | false =>
      refine ⟨false, left, by simp [hfirst], Or.inl rfl, by exact hleft, hleftAt, ?_⟩
      intro i hi _ hchild b hbi
      rcases hchildren i hi hchild with rfl | rfl
      · obtain rfl := Option.mem_unique hleftAt hbi
        exact hb.irrefl _
      · obtain rfl := Option.mem_unique hrightAt hbi
        exact hfirst
  · refine ⟨false, _, rfl, Or.inl rfl, by exact hleft, hleftAt, ?_⟩
    intro i hi hlt hchild b hbi
    obtain rfl : i = hole * 2 + 1 := by omega
    obtain rfl := Option.mem_unique hleftAt hbi
    exact hb.irrefl _

variable {child : ℕ} {below : α}

theorem SinkingHole.isHeap (hb : IsOrdering before) (hhole : hole < cells.length)
    (h : SinkingHole before (cells.set hole entry) size hole)
    (hchild : FirstChild before cells size hole child below)
    (hstop : before below entry = false) : IsHeap before (cells.set hole entry) size := by
  intro i hi hlt
  by_cases hat : (i - 1) / 2 = hole
  · intro a ha b hbi
    rw [getElem?_store hhole, if_pos hat] at ha
    rw [getElem?_store hhole, if_neg (by omega)] at hbi
    obtain rfl := Option.some.inj ha
    exact hb.trans hstop (hchild.first i hi hlt hat b hbi)
  · exact h.edge i hi hlt hat

/-- The hole goes down : its first child moves into it. -/
theorem SinkingHole.step (hb : IsOrdering before) (hsize : size ≤ cells.length)
    (h : SinkingHole before (cells.set hole entry) size hole)
    (hchild : FirstChild before cells size hole child below)
    (hgo : before below entry = true) :
    SinkingHole before ((cells.set hole below).set child entry) size child := by
  have hlt := hchild.lt
  have hchildAt : 0 < child ∧ (child - 1) / 2 = hole ∧ hole < child := by
    rcases hchild.child_eq with hc | hc <;> omega
  obtain ⟨hpos, hparent, hbelowHole⟩ := hchildAt
  have hold := @getElem?_store _ cells hole (by omega) entry
  have hnew := @getElem?_store_store _ cells hole child (by omega) (by omega) entry below
  constructor
  · intro i hi hi' hne a ha b hbi
    rw [hnew] at ha hbi
    rw [if_neg hne] at ha
    by_cases hat : (i - 1) / 2 = hole
    · rw [if_pos hat] at ha
      obtain rfl := Option.some.inj ha
      by_cases hself : i = child
      · rw [if_pos hself] at hbi
        obtain rfl := Option.some.inj hbi
        exact hb.asymm hgo
      · rw [if_neg hself, if_neg (by omega)] at hbi
        exact hchild.first i hi hi' hat b hbi
    · rw [if_neg hat] at ha
      have hself : i ≠ child := fun hself => hat (by rw [hself, hparent])
      rw [if_neg hself] at hbi
      by_cases hhole : i = hole
      · -- the parent of the hole, and the child that moved into it
        rw [if_pos hhole] at hbi
        obtain rfl := Option.some.inj hbi
        subst hhole
        refine h.across hi child hpos hlt hparent a ?_ below ?_
        · rw [hold, if_neg hat]
          exact ha
        · rw [hold, if_neg hself.symm, hchild.entry_eq]
          rfl
      · rw [if_neg hhole] at hbi
        refine h.edge i hi hi' hat a ?_ b ?_
        · rw [hold, if_neg hat]
          exact ha
        · rw [hold, if_neg hhole]
          exact hbi
  · intro _ i hi hi' hgrand a ha b hbi
    rw [hnew, hparent, if_neg hbelowHole.ne, if_pos rfl] at ha
    rw [hnew, if_neg (by omega), if_neg (by omega)] at hbi
    obtain rfl := Option.some.inj ha
    refine h.edge i hi hi' (by omega) below ?_ b ?_
    · rw [hold, hgrand, if_neg hbelowHole.ne', hchild.entry_eq]
      rfl
    · rw [hold, if_neg (by omega)]
      exact hbi

/-- The way down ends at a hole where the entry completes a heap. -/
theorem siftDown_spec (hb : IsOrdering before) (entry : α) {size : ℕ} :
    ∀ {hole : ℕ} {cells : List α}, size ≤ cells.length → hole < size →
      SinkingHole before (cells.set hole entry) size hole →
        ∃ cells' hole', siftDown before size entry cells hole = some (cells', hole') ∧
          hole' < size ∧ cells'.length = cells.length ∧
            IsHeap before (cells'.set hole' entry) size ∧
              ((cells'.set hole' entry).take size).Perm ((cells.set hole entry).take size) := by
  intro hole
  induction hmeasure : size - hole using Nat.strongRecOn generalizing hole with
  | _ measure ih =>
    intro cells hsize hhole h
    rw [siftDown]
    split_ifs with hleft
    · obtain ⟨right, below, hright, hchild⟩ := exists_firstChild hb hsize hleft
      have hlt := hchild.lt
      rw [hright, Option.bind_eq_bind, Option.bind_some, hchild.entry_eq, Option.bind_eq_bind,
        Option.bind_some]
      split_ifs with hgo
      · rw [storeAt_of_lt (by omega), Option.bind_eq_bind, Option.bind_some]
        obtain ⟨cells', hole', hrun, hhole', hlength, hheap, hperm⟩ :=
          ih (size - (hole * 2 + 1 + right.toNat)) (by omega) rfl
            (by rw [List.length_set]; omega) hlt (h.step hb hsize hchild hgo)
        refine ⟨cells', hole', hrun, hhole', by rw [hlength, List.length_set], hheap,
          hperm.trans ?_⟩
        exact store_store_perm hsize hhole hlt (by omega) hchild.entry_eq entry
      · rw [Bool.not_eq_true] at hgo
        exact ⟨_, _, rfl, hhole, rfl, h.isHeap hb (by omega) hchild hgo, .refl _⟩
    · exact ⟨_, _, rfl, hhole, rfl, h.isHeap_leaf (by omega), .refl _⟩

end Down

end Npunlock.HoleHeap
