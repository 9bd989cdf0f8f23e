import Mathlib.Data.ENat.Lattice
import Mathlib.Data.Finset.Card
import Mathlib.Data.Finset.Filter
import Mathlib.Data.Finset.Insert
import Mathlib.Data.Finset.Max
import Mathlib.Data.Set.Card
import Mathlib.Logic.Relation
import Mathlib.Order.Basic

/-!
# Best-first search

A bounded best-first search over a graph. The nodes carry distinct ranks in a linear
order; a smaller rank is better. The search keeps the nodes it has visited, the
candidates it has still to expand, and the at most `limit` best nodes it has seen. It
expands the best candidate, until no candidate is left or the best candidate is worse
than everything in a full `top`.

The definitions are on finite sets, so they do not say how an implementation stores its
queues. `Search` is one complete run; a run has one outcome (`Search.unique`), so two
implementations that each follow some run from one start end alike.

`BestFirst.Sound` is the invariant. Nothing is refused before `top` is full, so a run
that ends with fewer than `limit` nodes has seen everything that can be reached, and
`top` always ends with `min limit r` nodes, where `r` counts the reachable nodes
(`Search.card_top`).
-/

namespace Npunlock

variable {V E : Type} [DecidableEq V] [LinearOrder E]

/-- A graph whose nodes have distinct ranks, and the number of nodes to find. -/
structure BestFirst (V E : Type) [LinearOrder E] where
  links : V → List V
  rank : V → E
  /-- No two nodes are equally good. -/
  rank_injective : Function.Injective rank
  limit : ℕ
  limit_pos : 0 < limit

/-- The state of a search, with the counts it keeps. -/
@[ext] structure Frontier (V : Type) where
  visited : Finset V
  candidates : Finset V
  top : Finset V
  expansions : ℕ
  candidatePeak : ℕ
  topPeak : ℕ

namespace BestFirst

variable (p : BestFirst V E)

/-! ## Steps -/

/-- The state before the first expansion. -/
def start (v : V) : Frontier V :=
  ⟨{v}, {v}, {v}, 0, 1, 1⟩

/-- A new node is kept while `top` is not full, or if it is better than some node of it. -/
def Admits (top : Finset V) (v : V) : Prop :=
  top.card < p.limit ∨ ∃ w ∈ top, p.rank v < p.rank w

instance (top : Finset V) (v : V) : Decidable (p.Admits top v) := by
  unfold Admits
  infer_instance

/-- `top` without its worst node, if it holds more than `limit`. -/
def keepBest (top : Finset V) : Finset V :=
  if top.card ≤ p.limit then top else top.filter fun v => ∃ w ∈ top, p.rank v < p.rank w

/-- Looks at a link to `v`. -/
def visit (s : Frontier V) (v : V) : Frontier V :=
  if v ∈ s.visited then s
  else if p.Admits s.top v then
    { visited := insert v s.visited
      candidates := insert v s.candidates
      top := p.keepBest (insert v s.top)
      expansions := s.expansions
      candidatePeak := max s.candidatePeak (insert v s.candidates).card
      topPeak := max s.topPeak (p.keepBest (insert v s.top)).card }
  else { s with visited := insert v s.visited }

/-- Takes the candidate `c` and looks at all its links. -/
def expand (s : Frontier V) (c : V) : Frontier V :=
  (p.links c).foldl p.visit
    { s with candidates := s.candidates.erase c, expansions := s.expansions + 1 }

/-- `c` is the best candidate. -/
def Next (s : Frontier V) (c : V) : Prop :=
  c ∈ s.candidates ∧ ∀ x ∈ s.candidates, p.rank c ≤ p.rank x

/-- `top` is full of nodes better than `c`. -/
def Bounded (s : Frontier V) (c : V) : Prop :=
  p.limit ≤ s.top.card ∧ ∀ w ∈ s.top, p.rank w < p.rank c

/-- A complete run, with whether the bound ended it. -/
inductive Search : Frontier V → Frontier V → Bool → Prop
  | exhausted {s : Frontier V} : s.candidates = ∅ → Search s s false
  | bounded {s : Frontier V} {c : V} : p.Next s c → p.Bounded s c →
      Search s { s with candidates := s.candidates.erase c } true
  | expanded {s t : Frontier V} {c : V} {b : Bool} : p.Next s c → ¬p.Bounded s c →
      Search (p.expand s c) t b → Search s t b

variable {p}

omit [DecidableEq V] in
theorem Next.unique {s : Frontier V} {c c' : V} (h : p.Next s c) (h' : p.Next s c') : c = c' :=
  p.rank_injective (le_antisymm (h.2 c' h'.1) (h'.2 c h.1))

/-- A search has one outcome. -/
theorem Search.unique {s t t' : Frontier V} {b b' : Bool} (h : p.Search s t b)
    (h' : p.Search s t' b') : t = t' ∧ b = b' := by
  induction h generalizing t' b' with
  | exhausted hs =>
    cases h' with
    | exhausted => exact ⟨rfl, rfl⟩
    | bounded hc => simp [hs, Next] at hc
    | expanded hc => simp [hs, Next] at hc
  | bounded hc hbound =>
    cases h' with
    | exhausted hs => simp [hs, Next] at hc
    | bounded hc' _ => rw [hc.unique hc']; exact ⟨rfl, rfl⟩
    | expanded hc' hbound' => exact absurd (hc.unique hc' ▸ hbound) hbound'
  | expanded hc hbound _ ih =>
    cases h' with
    | exhausted hs => simp [hs, Next] at hc
    | bounded hc' hbound' => exact absurd (hc.unique hc' ▸ hbound') hbound
    | expanded hc' _ hrun => exact ih (hc.unique hc' ▸ hrun)

/-! ## What one link does -/

theorem visit_of_mem {s : Frontier V} {v : V} (h : v ∈ s.visited) : p.visit s v = s :=
  if_pos h

@[simp] theorem visited_visit (s : Frontier V) (v : V) :
    (p.visit s v).visited = insert v s.visited := by
  unfold visit
  split_ifs with h
  · exact (Finset.insert_eq_of_mem h).symm
  · rfl
  · rfl

@[simp] theorem visited_foldl (s : Frontier V) :
    ∀ l : List V, (l.foldl p.visit s).visited = l.toFinset ∪ s.visited
  | [] => by simp
  | v :: l => by
    rw [List.foldl_cons, visited_foldl (p.visit s v) l, visited_visit, List.toFinset_cons,
      Finset.insert_union, Finset.union_insert]

omit [DecidableEq V] in
theorem mem_keepBest {top : Finset V} {v : V} (h : v ∈ p.keepBest top) : v ∈ top := by
  unfold keepBest at h
  split_ifs at h
  · exact h
  · exact (Finset.mem_filter.1 h).1

omit [DecidableEq V] in
theorem keepBest_of_card_le {top : Finset V} (h : top.card ≤ p.limit) : p.keepBest top = top :=
  if_pos h

/-- An overfull `top` loses exactly its worst node. -/
theorem keepBest_eq_erase {top : Finset V} {w : V} (hcard : p.limit < top.card) (hw : w ∈ top)
    (hworst : ∀ v ∈ top, p.rank v ≤ p.rank w) : p.keepBest top = top.erase w := by
  unfold keepBest
  rw [if_neg (by omega)]
  ext v
  rw [Finset.mem_filter, Finset.mem_erase]
  constructor
  · rintro ⟨hv, u, hu, hlt⟩
    refine ⟨?_, hv⟩
    rintro rfl
    exact absurd (hworst u hu) (not_le.2 hlt)
  · rintro ⟨hne, hv⟩
    exact ⟨hv, w, hw, lt_of_le_of_ne (hworst v hv) fun h => hne (p.rank_injective h)⟩

omit [DecidableEq V] in
theorem exists_worst {top : Finset V} (h : top.Nonempty) :
    ∃ w ∈ top, ∀ v ∈ top, p.rank v ≤ p.rank w := by
  obtain ⟨w, hw, hmax⟩ := top.exists_max_image p.rank h
  exact ⟨w, hw, hmax⟩

/-- After one insertion `top` is cut back to its old size or to `limit`. -/
theorem card_keepBest_insert {top : Finset V} {v : V} (hv : v ∉ top)
    (hcard : top.card ≤ p.limit) :
    (p.keepBest (insert v top)).card = min p.limit (top.card + 1) := by
  rcases Nat.lt_or_ge top.card p.limit with hlt | hge
  · rw [keepBest_of_card_le (by rw [Finset.card_insert_of_notMem hv]; omega),
      Finset.card_insert_of_notMem hv]
    omega
  · obtain ⟨w, hw, hworst⟩ := p.exists_worst (Finset.insert_nonempty v top)
    have hover : p.limit < (insert v top).card := by
      rw [Finset.card_insert_of_notMem hv]
      omega
    rw [keepBest_eq_erase hover hw hworst, Finset.card_erase_of_mem hw,
      Finset.card_insert_of_notMem hv]
    omega

/-! ## What the states of a run satisfy -/

/-- `w` can be reached from `v`. -/
def Reaches (p : BestFirst V E) : V → V → Prop :=
  Relation.ReflTransGen fun v w => w ∈ p.links v

/-- A state of a run from `v₀` that has looked at all links of its visited nodes, but those of
its candidates, of the nodes that `isOpen` names, and of refused nodes. Nodes are refused only
when `top` is full. -/
structure Sound (p : BestFirst V E) (v₀ : V) (isOpen : V → Prop) (s : Frontier V) : Prop where
  start_mem : v₀ ∈ s.visited
  reaches : ∀ v ∈ s.visited, p.Reaches v₀ v
  candidates_subset : s.candidates ⊆ s.visited
  top_subset : s.top ⊆ s.visited
  card_top : s.top.card = min p.limit s.visited.card
  closed : s.visited.card < p.limit → ∀ v ∈ s.visited, v ∉ s.candidates → ¬isOpen v →
    ∀ w ∈ p.links v, w ∈ s.visited

namespace Sound

variable {v₀ v c : V} {isOpen : V → Prop} {s : Frontier V}

omit [DecidableEq V] in
theorem start (v₀ : V) : p.Sound v₀ (fun _ => False) (start v₀) where
  start_mem := Finset.mem_singleton_self v₀
  reaches := by
    intro v hv
    rw [Finset.mem_singleton.1 hv]
    exact .refl
  candidates_subset := subset_rfl
  top_subset := subset_rfl
  card_top := (min_eq_right p.limit_pos).symm
  closed := fun _ _ hv hnot => absurd hv hnot

omit [DecidableEq V] in
theorem top_nonempty (h : p.Sound v₀ isOpen s) : s.top.Nonempty := by
  have hvisited : 0 < s.visited.card := Finset.card_pos.2 ⟨v₀, h.start_mem⟩
  have hlimit := p.limit_pos
  have hcard := h.card_top
  exact Finset.card_pos.1 (by omega)

theorem visit (h : p.Sound v₀ isOpen s) (hv : p.Reaches v₀ v) :
    p.Sound v₀ isOpen (p.visit s v) := by
  by_cases hmem : v ∈ s.visited
  · rwa [visit_of_mem hmem]
  have hcard : (insert v s.visited).card = s.visited.card + 1 := Finset.card_insert_of_notMem hmem
  have htop : v ∉ s.top := fun h' => hmem (h.top_subset h')
  have hreaches : ∀ w ∈ insert v s.visited, p.Reaches v₀ w :=
    (Finset.forall_mem_insert ..).2 ⟨hv, h.reaches⟩
  have hle : s.top.card ≤ p.limit := h.card_top.trans_le (min_le_left ..)
  have hstart : v₀ ∈ insert v s.visited := Finset.mem_insert_of_mem h.start_mem
  unfold BestFirst.visit
  rw [if_neg hmem]
  split_ifs with hadmits
  · refine ⟨hstart, hreaches, Finset.insert_subset_insert v h.candidates_subset, ?_, ?_, ?_⟩
    · exact fun w hw => Finset.insert_subset_insert v h.top_subset (mem_keepBest hw)
    · rw [card_keepBest_insert htop hle, hcard, h.card_top]
      omega
    · intro hlt w hw hcandidate hopen u hu
      rw [hcard] at hlt
      rw [Finset.mem_insert, not_or] at hcandidate
      have hw := (Finset.mem_insert.1 hw).resolve_left hcandidate.1
      exact Finset.mem_insert_of_mem (h.closed (by omega) w hw hcandidate.2 hopen u hu)
  · have hfull : p.limit ≤ s.top.card := not_lt.1 fun hlt => hadmits (.inl hlt)
    have hcard_top := h.card_top
    refine ⟨hstart, hreaches, h.candidates_subset.trans (Finset.subset_insert ..),
      h.top_subset.trans (Finset.subset_insert ..), ?_, fun hlt => ?_⟩
    · dsimp only
      omega
    · rw [hcard] at hlt
      omega

theorem foldl : ∀ {l : List V} {s : Frontier V}, p.Sound v₀ isOpen s →
    (∀ v ∈ l, p.Reaches v₀ v) → p.Sound v₀ isOpen (l.foldl p.visit s)
  | [], _, h, _ => h
  | v :: l, _, h, hl => by
    rw [List.forall_mem_cons] at hl
    rw [List.foldl_cons]
    exact foldl (h.visit hl.1) hl.2

/-- A candidate is taken out to look at its links. -/
theorem erase (h : p.Sound v₀ (fun _ => False) s) (c : V) : p.Sound v₀ (· = c)
    { s with candidates := s.candidates.erase c, expansions := s.expansions + 1 } := by
  refine ⟨h.start_mem, h.reaches, (Finset.erase_subset ..).trans h.candidates_subset,
    h.top_subset, h.card_top, fun hlt v hv hnot hne => ?_⟩
  exact h.closed hlt v hv (fun hmem => hnot (Finset.mem_erase.2 ⟨hne, hmem⟩)) not_false

omit [DecidableEq V] in
theorem reaches_of_link (h : p.Sound v₀ isOpen s) (hc : c ∈ s.candidates) :
    ∀ v ∈ p.links c, p.Reaches v₀ v :=
  fun _ hv => (h.reaches c (h.candidates_subset hc)).tail hv

theorem expand (h : p.Sound v₀ (fun _ => False) s) (hc : c ∈ s.candidates) :
    p.Sound v₀ (fun _ => False) (p.expand s c) := by
  have hfolded := foldl (h.erase c) (h.reaches_of_link hc)
  refine ⟨hfolded.start_mem, hfolded.reaches, hfolded.candidates_subset, hfolded.top_subset,
    hfolded.card_top, fun hlt v hv hnot _ w hw => ?_⟩
  by_cases hvc : v = c
  · subst hvc
    rw [BestFirst.expand, visited_foldl, Finset.mem_union, List.mem_toFinset]
    exact .inl hw
  · exact hfolded.closed hlt v hv hnot hvc w hw

end Sound

/-! ## Where a run ends -/

section Nodes

variable {nodes : Finset V} {v₀ v c : V} {s : Frontier V}

/-- The nodes that a run may still expand. -/
def pending (nodes : Finset V) (s : Frontier V) : ℕ :=
  (nodes \ s.visited).card + s.candidates.card

theorem pending_visit (hv : v ∈ nodes) : pending nodes (p.visit s v) ≤ pending nodes s := by
  by_cases hmem : v ∈ s.visited
  · rw [visit_of_mem hmem]
  have hnew : (nodes \ insert v s.visited).card + 1 = (nodes \ s.visited).card := by
    rw [Finset.sdiff_insert]
    exact Finset.card_erase_add_one (Finset.mem_sdiff.2 ⟨hv, hmem⟩)
  have hcandidates := Finset.card_insert_le v s.candidates
  unfold pending visit
  rw [if_neg hmem]
  split_ifs
  · dsimp only
    omega
  · dsimp only
    omega

theorem pending_foldl : ∀ {l : List V} {s : Frontier V}, (∀ v ∈ l, v ∈ nodes) →
    pending nodes (l.foldl p.visit s) ≤ pending nodes s
  | [], _, _ => le_rfl
  | v :: l, s, hl => by
    rw [List.forall_mem_cons] at hl
    exact (pending_foldl hl.2).trans (pending_visit hl.1)

theorem pending_expand (hlinks : ∀ v ∈ p.links c, v ∈ nodes) (hc : c ∈ s.candidates) :
    pending nodes (p.expand s c) < pending nodes s := by
  refine (pending_foldl hlinks).trans_lt ?_
  have herase := Finset.card_erase_add_one hc
  unfold pending
  dsimp only
  omega

/-- `top` ends with as many nodes as the start reaches, up to the limit. -/
theorem Search.card_top {t : Frontier V} {b : Bool} (h : p.Search s t b)
    (hs : p.Sound v₀ (fun _ => False) s) :
    (∀ v ∈ t.top, p.Reaches v₀ v) ∧
      (t.top.card : ℕ∞) = min (p.limit : ℕ∞) {v | p.Reaches v₀ v}.encard := by
  have hvisited {s : Frontier V} (hs : p.Sound v₀ (fun _ => False) s) :
      (s.visited.card : ℕ∞) ≤ {v | p.Reaches v₀ v}.encard := by
    rw [← Set.encard_coe_eq_coe_finsetCard]
    exact Set.encard_le_encard hs.reaches
  induction h with
  | @exhausted s hempty =>
    refine ⟨fun v hv => hs.reaches v (hs.top_subset hv), ?_⟩
    rw [hs.card_top]
    rcases Nat.lt_or_ge s.visited.card p.limit with hlt | hge
    · have hall : {v | p.Reaches v₀ v} = ↑s.visited := by
        refine Set.Subset.antisymm (fun v hv => ?_) hs.reaches
        induction hv with
        | refl => exact hs.start_mem
        | tail _ hlink ih => exact hs.closed hlt _ ih (by simp [hempty]) not_false _ hlink
      rw [hall, Set.encard_coe_eq_coe_finsetCard, min_eq_right hlt.le,
        min_eq_right (Nat.cast_le.2 hlt.le)]
    · rw [min_eq_left hge, min_eq_left ((Nat.cast_le.2 hge).trans (hvisited hs))]
  | @bounded s c hc hbounded =>
    refine ⟨fun v hv => hs.reaches v (hs.top_subset hv), ?_⟩
    have hcard := hs.card_top
    have hge : p.limit ≤ s.visited.card := by
      have hlimit := hbounded.1
      omega
    dsimp only
    rw [hcard, min_eq_left hge, min_eq_left ((Nat.cast_le.2 hge).trans (hvisited hs))]
  | expanded hc _ _ ih => exact ih (hs.expand hc.1)

end Nodes

/-! ## The counts of a run -/

/-- The bounds of the counts. -/
structure Counted (p : BestFirst V E) (s : Frontier V) : Prop where
  expansions : s.expansions + s.candidates.card ≤ s.visited.card
  candidatePeak : 1 ≤ s.candidatePeak ∧ s.candidatePeak ≤ s.visited.card
  topPeak : 1 ≤ s.topPeak ∧ s.topPeak ≤ p.limit

namespace Counted

variable {v₀ v c : V} {isOpen : V → Prop} {s : Frontier V}

omit [DecidableEq V] in
theorem start (v : V) : p.Counted (start v) :=
  ⟨le_rfl, ⟨le_rfl, le_rfl⟩, le_rfl, p.limit_pos⟩

theorem visit (h : p.Counted s) (hs : p.Sound v₀ isOpen s) : p.Counted (p.visit s v) := by
  by_cases hmem : v ∈ s.visited
  · rwa [visit_of_mem hmem]
  obtain ⟨hexpansions, ⟨hcandidate, hcandidate'⟩, htop, htop'⟩ := h
  have hcard : (insert v s.visited).card = s.visited.card + 1 := Finset.card_insert_of_notMem hmem
  have hcandidates := Finset.card_insert_le v s.candidates
  have hkeep := card_keepBest_insert (p := p) (fun hv => hmem (hs.top_subset hv))
    (hs.card_top.trans_le (min_le_left ..))
  unfold BestFirst.visit
  rw [if_neg hmem]
  split_ifs
  · refine ⟨?_, ⟨?_, ?_⟩, ?_, ?_⟩ <;> dsimp only <;> omega
  · refine ⟨?_, ⟨?_, ?_⟩, ?_, ?_⟩ <;> dsimp only <;> omega

theorem foldl : ∀ {l : List V} {s : Frontier V}, p.Counted s → p.Sound v₀ isOpen s →
    (∀ v ∈ l, p.Reaches v₀ v) → p.Counted (l.foldl p.visit s)
  | [], _, h, _, _ => h
  | v :: l, _, h, hs, hl => by
    rw [List.forall_mem_cons] at hl
    rw [List.foldl_cons]
    exact foldl (h.visit hs) (hs.visit hl.1) hl.2

theorem expand (h : p.Counted s) (hs : p.Sound v₀ (fun _ => False) s) (hc : c ∈ s.candidates) :
    p.Counted (p.expand s c) := by
  refine foldl ⟨?_, h.candidatePeak, h.topPeak⟩ (hs.erase c) (hs.reaches_of_link hc)
  have herase := Finset.card_erase_add_one hc
  have hexpansions := h.expansions
  dsimp only
  omega

end Counted

/-- Every node that a run has visited can be reached, and its counts are bounded. -/
theorem Search.counted {v₀ : V} {s t : Frontier V} {b : Bool} (h : p.Search s t b)
    (hs : p.Sound v₀ (fun _ => False) s) (hcounted : p.Counted s) :
    v₀ ∈ t.visited ∧ (∀ v ∈ t.visited, p.Reaches v₀ v) ∧ p.Counted t := by
  induction h with
  | exhausted => exact ⟨hs.start_mem, hs.reaches, hcounted⟩
  | @bounded s c =>
    refine ⟨hs.start_mem, hs.reaches, ?_, hcounted.candidatePeak, hcounted.topPeak⟩
    have herase := Finset.card_erase_le (a := c) (s := s.candidates)
    have hexpansions := hcounted.expansions
    dsimp only
    omega
  | expanded hc _ _ ih => exact ih (hs.expand hc.1) (hcounted.expand hs hc.1)

end BestFirst

end Npunlock
