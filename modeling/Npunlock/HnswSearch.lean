import Mathlib.Data.Finset.Sort
import Mathlib.Data.Prod.Lex
import Npunlock.BestFirst
import Npunlock.GreedySelection
import Npunlock.HnswIndex
import Npunlock.WhileLoops

/-!
# Search in a graph index

`search_index` descends greedily through the upper levels, and searches the lowest level for the
nodes nearest to the query. The distance function is a parameter; distances are compared first,
then nodes.
-/

namespace Npunlock

variable {E : Type}

/-! ## Candidates and results -/

/-- A distance and a node, in the order of `_ordered`. -/
abbrev SearchEntry (E : Type) : Type :=
  E ×ₗ ℕ

def entryOf (distance : ℕ → E) (node : ℕ) : SearchEntry E :=
  toLex (distance node, node)

def SearchEntry.node (entry : SearchEntry E) : ℕ :=
  (ofLex entry).2

section Tops

variable [LinearOrder E]

/-- `max(top, …)`. -/
def worstOf (top : List (SearchEntry E)) : Except String (SearchEntry E) :=
  match top.max? with
  | some worst => .ok worst
  | none => .error "max() arg is an empty sequence"

/-- `top` without its worst entry, if it holds more than `limit`. -/
def cutTop (limit : ℕ) (top : List (SearchEntry E)) : Except String (List (SearchEntry E)) :=
  if limit < top.length then do
    let worst ← worstOf top
    .ok (top.erase worst)
  else .ok top

/-- The top with a new entry, if it is kept. -/
def offer (limit : ℕ) (entry : SearchEntry E) (top : List (SearchEntry E)) :
    Except String (Option (List (SearchEntry E))) := do
  let worst ← worstOf top
  if top.length < limit ∨ entry < worst then do
    let top ← cutTop limit (top ++ [entry])
    .ok (some top)
  else .ok none

end Tops

namespace HnswIndex

/-! ## The search -/

/-- `SearchStats`. -/
structure SearchStats where
  visitedCount : ℕ
  distanceCount : ℕ
  upperHops : ℕ
  baseExpansions : ℕ
  terminatedByBound : Bool
  candidatePeak : ℕ
  topPeak : ℕ
  deriving DecidableEq

/-- A row of a matrix. -/
def matrixRow (matrix : NpyArray) (node : ℕ) : List Word :=
  match matrix.items, matrix.shape with
  | .float32 values, [_, columns] => (values.drop (node * columns)).take columns
  | _, _ => []

/-- `index.neighbors[node][layer]`. No node of an index is negative. -/
def neighborsOf (index : HnswIndex) (node layer : ℕ) : Except String (List ℕ) :=
  match index.neighbors[node]? with
  | some layers =>
    match layers[layer]? with
    | some links => .ok (links.map Int.toNat)
    | none => .error "tuple index out of range"
  | none => .error "tuple index out of range"

/-- The state of the descent : the current entry and the counts. -/
structure Descent (E : Type) where
  current : SearchEntry E
  distanceCount : ℕ
  upperHops : ℕ

section Search

variable [LinearOrder E]

/-- The nearest of a node and its links. -/
def bestOf (distance : ℕ → E) (best : SearchEntry E) (links : List ℕ) : SearchEntry E :=
  links.foldl (fun best candidate =>
    if entryOf distance candidate < best then entryOf distance candidate else best) best

/-- A round of the descent on a layer. -/
def descentRound (index : HnswIndex) (distance : ℕ → E) (layer : ℕ) (descent : Descent E) :
    Except String (Descent E ⊕ Descent E) := do
  let links ← index.neighborsOf descent.current.node layer
  let best := bestOf distance descent.current links
  let distanceCount := descent.distanceCount + links.length
  if best.node = descent.current.node then .ok (.inr { descent with distanceCount })
  else .ok (.inl { current := best, distanceCount, upperHops := descent.upperHops + 1 })

/-- The loop of `search_index` over the upper layers. -/
def descend (index : HnswIndex) (distance : ℕ → E) : Except String (Descent E) :=
  ((List.range index.maxLevel.toNat).reverse.map (· + 1)).foldlM
    (fun descent layer => whileLoop "greedy descent exceeded its node bound"
      (index.descentRound distance layer) index.levels.length descent)
    { current := entryOf distance index.entryPoint.toNat, distanceCount := 1, upperHops := 0 }

end Search

/-- The state of the search on the lowest layer. -/
structure SearchState (E : Type) where
  visited : Finset ℕ
  candidates : List (SearchEntry E)
  top : List (SearchEntry E)
  distanceCount : ℕ
  baseExpansions : ℕ
  candidatePeak : ℕ
  topPeak : ℕ

/-- The state before the first round. -/
def SearchState.start (descent : Descent E) : SearchState E where
  visited := {descent.current.node}
  candidates := [descent.current]
  top := [descent.current]
  distanceCount := descent.distanceCount
  baseExpansions := 0
  candidatePeak := 1
  topPeak := 1

section Search

variable [LinearOrder E]

def visitNeighbor (distance : ℕ → E) (efSearch : ℕ) (state : SearchState E) (neighbor : ℕ) :
    Except String (SearchState E) :=
  if neighbor ∈ state.visited then .ok state
  else do
    let state := { state with
      visited := insert neighbor state.visited
      distanceCount := state.distanceCount + 1 }
    match ← offer efSearch (entryOf distance neighbor) state.top with
    | some top =>
      let candidates := state.candidates ++ [entryOf distance neighbor]
      .ok { state with
        candidates
        top
        candidatePeak := max state.candidatePeak candidates.length
        topPeak := max state.topPeak top.length }
    | none => .ok state

/-- A round of the search. It ends with whether the bound has ended it. -/
def searchRound (index : HnswIndex) (distance : ℕ → E) (efSearch : ℕ) (state : SearchState E) :
    Except String (SearchState E ⊕ SearchState E × Bool) :=
  match sortedBy id state.candidates with
  | [] => .ok (.inr (state, false))
  | candidate :: candidates => do
    let state := { state with candidates }
    let worst ← worstOf state.top
    if efSearch ≤ state.top.length ∧ worst < candidate then .ok (.inr (state, true))
    else do
      let links ← index.neighborsOf candidate.node 0
      let state ← links.foldlM (visitNeighbor distance efSearch)
        { state with baseExpansions := state.baseExpansions + 1 }
      .ok (.inl state)

/-- `search_index`. The loop over the candidates is bounded here, and the bound never met. -/
def searchIndex (index : HnswIndex) (distanceOf : List Word → List Word → E) (query : List Word)
    (k efSearch : ℤ) : Except String (List (SearchEntry E) × SearchStats) := do
  let dimension := index.vectors.shape.getD 1 0
  refuseIf (query.length ≠ dimension ∨ ∃ value ∈ query, Binary32.isFinite value = false)
    s!"query must be a finite vector of dimension {dimension}"
  refuseIf (¬(1 ≤ efSearch ∧ efSearch ≤ index.levels.length))
    "ef_search must be a positive integer no larger than the index size"
  refuseIf (¬(0 < k ∧ k ≤ efSearch)) "k must be a positive integer no larger than ef_search"
  let distance node := distanceOf query (matrixRow index.vectors node)
  let descent ← index.descend distance
  let (state, terminatedByBound) ← whileLoop "endless"
    (index.searchRound distance efSearch.toNat) (index.levels.length + 1) (.start descent)
  .ok ((sortedBy id state.top).take k.toNat,
    { visitedCount := state.visited.card
      distanceCount := state.distanceCount
      upperHops := descent.upperHops
      baseExpansions := state.baseExpansions
      terminatedByBound
      candidatePeak := state.candidatePeak
      topPeak := state.topPeak })

end Search

end HnswIndex

/-! ## Entries of nodes -/

section Entries

variable {distance : ℕ → E} {entries top : List (SearchEntry E)} {nodes : Finset ℕ} {v limit : ℕ}

theorem entryOf_injective : Function.Injective (entryOf distance) :=
  fun _ _ h => congrArg SearchEntry.node h

/-- The best-first search that a search makes. -/
def bestFirst [LinearOrder E] (links : ℕ → List ℕ) (distance : ℕ → E) {limit : ℕ}
    (hlimit : 0 < limit) : BestFirst ℕ (SearchEntry E) where
  links := links
  rank := entryOf distance
  rank_injective := entryOf_injective
  limit := limit
  limit_pos := hlimit

/-- The entries are those of the nodes. -/
def HoldsNodes (distance : ℕ → E) (entries : List (SearchEntry E)) (nodes : Finset ℕ) : Prop :=
  (entries : Multiset (SearchEntry E)) = nodes.val.map (entryOf distance)

namespace HoldsNodes

theorem length_eq (h : HoldsNodes distance entries nodes) : entries.length = nodes.card := by
  have hcard := congrArg Multiset.card h
  rwa [Multiset.coe_card, Multiset.card_map] at hcard

theorem mem_iff (h : HoldsNodes distance entries nodes) {entry : SearchEntry E} :
    entry ∈ entries ↔ ∃ v ∈ nodes, entryOf distance v = entry := by
  rw [← Multiset.mem_coe, h, Multiset.mem_map]
  rfl

theorem nodup (h : HoldsNodes distance entries nodes) : entries.Nodup := by
  rw [← Multiset.coe_nodup, h]
  exact nodes.nodup.map entryOf_injective

theorem of_perm {other : List (SearchEntry E)} (h : HoldsNodes distance entries nodes)
    (hperm : other.Perm entries) : HoldsNodes distance other nodes :=
  (Multiset.coe_eq_coe.2 hperm).trans h

theorem singleton : HoldsNodes distance [entryOf distance v] {v} := by
  rw [HoldsNodes, Finset.singleton_val, Multiset.map_singleton, Multiset.coe_singleton]

theorem append (h : HoldsNodes distance entries nodes) (hv : v ∉ nodes) :
    HoldsNodes distance (entries ++ [entryOf distance v]) (insert v nodes) := by
  unfold HoldsNodes at h ⊢
  rw [Finset.insert_val_of_notMem hv, Multiset.map_cons, ← h, ← Multiset.coe_add, add_comm,
    Multiset.coe_singleton, Multiset.singleton_add]

variable [LinearOrder E]

theorem erase (h : HoldsNodes distance entries nodes) :
    HoldsNodes distance (entries.erase (entryOf distance v)) (nodes.erase v) := by
  unfold HoldsNodes at h ⊢
  rw [Finset.erase_val, Multiset.map_erase _ entryOf_injective, ← h, Multiset.coe_erase]
  congr!

theorem tail {first : SearchEntry E} (h : HoldsNodes distance (first :: entries) nodes)
    (hfirst : first = entryOf distance v) : HoldsNodes distance entries (nodes.erase v) := by
  subst hfirst
  have herase := erase (v := v) h
  rwa [List.erase_cons_head] at herase

end HoldsNodes

variable [LinearOrder E]

/-- The worst entry of a top is that of a node. -/
theorem worstOf_eq (h : HoldsNodes distance top nodes) (hne : nodes.Nonempty) :
    ∃ w ∈ nodes, worstOf top = .ok (entryOf distance w) ∧
      ∀ v ∈ nodes, entryOf distance v ≤ entryOf distance w := by
  obtain ⟨w, hw, hworst⟩ := nodes.exists_max_image (entryOf distance) hne
  refine ⟨w, hw, ?_, hworst⟩
  have hmax : top.max? = some (entryOf distance w) := by
    refine List.max?_eq_some_iff.2 ⟨h.mem_iff.2 ⟨w, hw, rfl⟩, fun entry hentry => ?_⟩
    obtain ⟨v, hv, rfl⟩ := h.mem_iff.1 hentry
    exact hworst v hv
  rw [worstOf, hmax]

variable (links : ℕ → List ℕ) (hlimit : 0 < limit)

theorem cutTop_eq (h : HoldsNodes distance top nodes) (hne : nodes.Nonempty) :
    ∃ kept, cutTop limit top = .ok kept ∧
      HoldsNodes distance kept ((bestFirst links distance hlimit).keepBest nodes) := by
  unfold cutTop
  rw [h.length_eq]
  split_ifs with hover
  · obtain ⟨w, hw, hworst, hle⟩ := worstOf_eq h hne
    refine ⟨top.erase (entryOf distance w), by rw [hworst]; rfl, ?_⟩
    rw [BestFirst.keepBest_eq_erase (p := bestFirst links distance hlimit) hover hw hle]
    exact h.erase
  · refine ⟨top, rfl, ?_⟩
    rwa [BestFirst.keepBest_of_card_le (p := bestFirst links distance hlimit) (not_lt.1 hover)]

/-- An entry is kept just when the search admits its node. -/
theorem offer_eq (h : HoldsNodes distance top nodes) (hne : nodes.Nonempty) (hv : v ∉ nodes) :
    if (bestFirst links distance hlimit).Admits nodes v then
      ∃ kept, offer limit (entryOf distance v) top = .ok (some kept) ∧ HoldsNodes distance kept
        ((bestFirst links distance hlimit).keepBest (insert v nodes))
    else offer limit (entryOf distance v) top = .ok none := by
  obtain ⟨w, hw, hworst, hle⟩ := worstOf_eq h hne
  have hadmits : (bestFirst links distance hlimit).Admits nodes v ↔
      top.length < limit ∨ entryOf distance v < entryOf distance w := by
    rw [h.length_eq]
    refine or_congr Iff.rfl ⟨?_, fun hlt => ⟨w, hw, hlt⟩⟩
    rintro ⟨u, hu, hlt⟩
    exact lt_of_lt_of_le hlt (hle u hu)
  unfold offer
  rw [hworst, ok_bind]
  split_ifs with hif hoffer hoffer
  · obtain ⟨kept, hkept, hholds⟩ := cutTop_eq links hlimit (h.append hv)
      (Finset.insert_nonempty v nodes)
    exact ⟨kept, by rw [hkept]; rfl, hholds⟩
  · exact absurd (hadmits.1 hif) hoffer
  · exact absurd (hadmits.2 hoffer) hif
  · rfl

/-- The first entry in their order is that of the next candidate. -/
theorem next_of_sorted {frontier : Frontier ℕ} {candidate : SearchEntry E}
    (h : HoldsNodes distance (candidate :: entries) frontier.candidates)
    (hsorted : (candidate :: entries).Pairwise (· ≤ ·)) :
    ∃ c, entryOf distance c = candidate ∧ (bestFirst links distance hlimit).Next frontier c ∧
      HoldsNodes distance entries (frontier.candidates.erase c) := by
  obtain ⟨c, hc, hcandidate⟩ := h.mem_iff.1 (List.mem_cons_self ..)
  refine ⟨c, hcandidate, ⟨hc, fun v hv => ?_⟩, h.tail hcandidate.symm⟩
  rcases List.mem_cons.1 (h.mem_iff.2 ⟨v, hv, rfl⟩) with heq | hmem
  · exact (hcandidate.trans heq.symm).le
  · exact hcandidate.trans_le ((List.pairwise_cons.1 hsorted).1 _ hmem)

/-- The comparison with the worst entry says whether the bound is met. -/
theorem bounded_iff {frontier : Frontier ℕ} {c w : ℕ} (hw : w ∈ frontier.top)
    (hle : ∀ v ∈ frontier.top, entryOf distance v ≤ entryOf distance w) :
    (bestFirst links distance hlimit).Bounded frontier c ↔
      limit ≤ frontier.top.card ∧ entryOf distance w < entryOf distance c :=
  and_congr Iff.rfl ⟨fun h => h w hw, fun h v hv => (hle v hv).trans_lt h⟩

end Entries

namespace HnswIndex

/-! ## Links of an index -/

/-- The links of a layer of a node. -/
def layerLinks (index : HnswIndex) (layer node : ℕ) : List ℕ :=
  (((index.neighbors.getD node []).getD layer []).map Int.toNat)

/-- The node has the layer. -/
def HasLayer (index : HnswIndex) (layer node : ℕ) : Prop :=
  ∃ level, index.levels[node]? = some level ∧ (layer : ℤ) ≤ level

variable {index : HnswIndex} {rows layer node : ℕ}

theorem HasLayer.lt (h : index.HasLayer layer node) (hvalid : index.toHnswFields.Valid rows) :
    node < rows := by
  obtain ⟨level, hlevel, -⟩ := h
  rw [← hvalid.length_levels]
  exact (List.getElem?_eq_some_iff.1 hlevel).1

theorem HasLayer.mono {lower : ℕ} (h : index.HasLayer layer node) (hle : lower ≤ layer) :
    index.HasLayer lower node := by
  obtain ⟨level, hlevel, hlayer⟩ := h
  exact ⟨level, hlevel, by omega⟩

/-- A layer of a node has links, to nodes that have the layer. -/
theorem neighborsOf_eq (h : index.HasLayer layer node) :
    index.neighborsOf node layer = .ok (index.layerLinks layer node) ∧
      ∀ neighbor ∈ index.layerLinks layer node,
        neighbor ≠ node ∧ index.HasLayer layer neighbor := by
  obtain ⟨rows, hvalid⟩ := index.exists_valid
  have hnode := h.lt hvalid
  obtain ⟨level, hlevel, hlayer⟩ := h
  have hneighbors : node < index.neighbors.length := hvalid.length_neighbors ▸ hnode
  have hvalidNode := hvalid.node node level _ hlevel (List.getElem?_eq_getElem hneighbors)
  have hlength := hvalidNode.length_eq
  have hlinks : layer < index.neighbors[node].length := by omega
  have hvalidLinks := hvalidNode.layer layer _ (List.getElem?_eq_getElem hlinks)
  have heq : index.layerLinks layer node = index.neighbors[node][layer].map Int.toNat := by
    rw [layerLinks, List.getD_eq_getElem _ _ hneighbors, List.getD_eq_getElem _ _ hlinks]
  refine ⟨?_, fun neighbor hneighbor => ?_⟩
  · unfold neighborsOf
    rw [heq, List.getElem?_eq_getElem hneighbors]
    dsimp only
    rw [List.getElem?_eq_getElem hlinks]
  · rw [heq, List.mem_map] at hneighbor
    obtain ⟨link, hlink, rfl⟩ := hneighbor
    obtain ⟨hne, ⟨hnonneg, hlt⟩, hle⟩ := hvalidLinks.neighbor link hlink
    have hlt : link.toNat < index.levels.length := by
      rw [hvalid.length_levels]
      omega
    refine ⟨by omega, index.levels[link.toNat], List.getElem?_eq_getElem hlt, ?_⟩
    rwa [List.getD_eq_getElem _ _ hlt] at hle

/-! ## Rounds of the search -/

section Rounds

variable [LinearOrder E] {distance : ℕ → E} {limit : ℕ} (hlimit : 0 < limit)

/-- The search of `search_index` on the lowest layer. -/
abbrev baseSearch (index : HnswIndex) (distance : ℕ → E) {limit : ℕ} (hlimit : 0 < limit) :
    BestFirst ℕ (SearchEntry E) :=
  bestFirst (index.layerLinks 0) distance hlimit

/-- The state is a frontier of nodes, with `counted` distances up to the first node. -/
structure Keeps (distance : ℕ → E) (counted : ℕ) (state : SearchState E)
    (frontier : Frontier ℕ) : Prop where
  visited_eq : state.visited = frontier.visited
  candidates : HoldsNodes distance state.candidates frontier.candidates
  top : HoldsNodes distance state.top frontier.top
  distanceCount_eq : state.distanceCount + 1 = counted + frontier.visited.card
  baseExpansions_eq : state.baseExpansions = frontier.expansions
  candidatePeak_eq : state.candidatePeak = frontier.candidatePeak
  topPeak_eq : state.topPeak = frontier.topPeak

omit [LinearOrder E] in
theorem Keeps.pending_eq {counted : ℕ} {state : SearchState E} {frontier : Frontier ℕ}
    (h : Keeps distance counted state frontier) (nodes : Finset ℕ) :
    (nodes \ state.visited).card + state.candidates.length =
      BestFirst.pending nodes frontier := by
  rw [h.visited_eq, h.candidates.length_eq]
  rfl

variable {counted v₀ v : ℕ} {isOpen : ℕ → Prop} {state : SearchState E} {frontier : Frontier ℕ}

theorem visitNeighbor_keeps (h : Keeps distance counted state frontier)
    (hsound : (index.baseSearch distance hlimit).Sound v₀ isOpen frontier) :
    Returns (visitNeighbor distance limit state v) fun state' =>
      Keeps distance counted state' ((index.baseSearch distance hlimit).visit frontier v) := by
  unfold visitNeighbor BestFirst.visit
  rw [h.visited_eq]
  by_cases hv : v ∈ frontier.visited
  · rw [if_pos hv, if_pos hv]
    exact Meets.ok h
  rw [if_neg hv, if_neg hv]
  have hcard : (insert v frontier.visited).card = frontier.visited.card + 1 :=
    Finset.card_insert_of_notMem hv
  have hcount := h.distanceCount_eq
  have hoffer := offer_eq (index.layerLinks 0) hlimit h.top hsound.top_nonempty
    fun hmem => hv (hsound.top_subset hmem)
  split_ifs at hoffer ⊢ with hadmits
  · obtain ⟨kept, hkept, hholds⟩ := hoffer
    have hcandidates := h.candidates.append fun hmem => hv (hsound.candidates_subset hmem)
    dsimp only
    rw [hkept]
    refine Meets.ok ⟨rfl, hcandidates, hholds, by dsimp only; omega, h.baseExpansions_eq, ?_, ?_⟩
    · rw [h.candidatePeak_eq, hcandidates.length_eq]
    · rw [h.topPeak_eq, hholds.length_eq]
  · dsimp only
    rw [hoffer]
    exact Meets.ok ⟨rfl, h.candidates, h.top, by dsimp only; omega, h.baseExpansions_eq,
      h.candidatePeak_eq, h.topPeak_eq⟩

theorem hasLayer_of_reaches (hv₀ : index.HasLayer 0 v₀)
    (h : (index.baseSearch distance hlimit).Reaches v₀ v) : index.HasLayer 0 v := by
  induction h with
  | refl => exact hv₀
  | tail _ hlink ih => exact ((neighborsOf_eq ih).2 _ hlink).2

/-- A state of a run of `search_index` from a node. -/
def Runs (index : HnswIndex) (distance : ℕ → E) {limit : ℕ} (hlimit : 0 < limit)
    (counted v₀ : ℕ) (state : SearchState E) : Prop :=
  ∃ frontier, Keeps distance counted state frontier ∧
    (index.baseSearch distance hlimit).Sound v₀ (fun _ => False) frontier ∧
      ∀ t b, (index.baseSearch distance hlimit).Search frontier t b →
        (index.baseSearch distance hlimit).Search (BestFirst.start v₀) t b

/-- A run has ended, by the bound or not. -/
def Ends (index : HnswIndex) (distance : ℕ → E) {limit : ℕ} (hlimit : 0 < limit)
    (counted v₀ : ℕ) (outcome : SearchState E × Bool) : Prop :=
  ∃ frontier, Keeps distance counted outcome.1 frontier ∧
    (index.baseSearch distance hlimit).Search (BestFirst.start v₀) frontier outcome.2

theorem searchRound_progress (hvalid : index.toHnswFields.Valid rows)
    (hv₀ : index.HasLayer 0 v₀) (h : index.Runs distance hlimit counted v₀ state) :
    Returns (index.searchRound distance limit state)
      (Progress (index.Runs distance hlimit counted v₀)
        (fun state => (Finset.range rows \ state.visited).card + state.candidates.length)
        (index.Ends distance hlimit counted v₀) state) := by
  obtain ⟨frontier, hkeeps, hsound, hrun⟩ := h
  unfold searchRound
  cases hsorted : sortedBy id state.candidates with
  | nil =>
    have hnil : HoldsNodes distance [] frontier.candidates :=
      hkeeps.candidates.of_perm (by rw [← hsorted]; exact perm_sortedBy)
    have hempty : frontier.candidates = ∅ := by
      rw [← Finset.card_eq_zero, ← hnil.length_eq, List.length_nil]
    exact Meets.ok ⟨frontier, hkeeps, hrun _ _ (.exhausted hempty)⟩
  | cons candidate rest =>
    have hsortedHolds : HoldsNodes distance (candidate :: rest) frontier.candidates :=
      hkeeps.candidates.of_perm (by rw [← hsorted]; exact perm_sortedBy)
    have hpairwise : (candidate :: rest).Pairwise (· ≤ ·) := by
      rw [← hsorted]
      exact pairwise_sortedBy
    obtain ⟨c, rfl, hnext, hrest⟩ :=
      next_of_sorted (index.layerLinks 0) hlimit hsortedHolds hpairwise
    have hc := hnext.1
    have hkept : Keeps distance counted { state with candidates := rest }
        { frontier with candidates := frontier.candidates.erase c } :=
      ⟨hkeeps.visited_eq, hrest, hkeeps.top, hkeeps.distanceCount_eq, hkeeps.baseExpansions_eq,
        hkeeps.candidatePeak_eq, hkeeps.topPeak_eq⟩
    obtain ⟨w, hw, hworst, hle⟩ := worstOf_eq hkeeps.top hsound.top_nonempty
    have hbounded := @bounded_iff _ _ _ _ (index.layerLinks 0) hlimit frontier c w hw hle
    dsimp only
    rw [hworst, ok_bind, hkeeps.top.length_eq]
    split_ifs with hbound
    · exact Meets.ok ⟨_, hkept, hrun _ _ (.bounded hnext (hbounded.2 hbound))⟩
    · have hnot : ¬(index.baseSearch distance hlimit).Bounded frontier c := fun h =>
        hbound (hbounded.1 h)
      have hreaches := hsound.reaches c (hsound.candidates_subset hc)
      obtain ⟨hlinks, hneighbors⟩ := neighborsOf_eq (hasLayer_of_reaches hlimit hv₀ hreaches)
      have hnode : (entryOf distance c).node = c := rfl
      rw [hnode, hlinks, ok_bind]
      have hopened : Keeps distance counted
          { state with candidates := rest, baseExpansions := state.baseExpansions + 1 }
          { frontier with
            candidates := frontier.candidates.erase c
            expansions := frontier.expansions + 1 } :=
        ⟨hkeeps.visited_eq, hrest, hkeeps.top, hkeeps.distanceCount_eq,
          congrArg (· + 1) hkeeps.baseExpansions_eq, hkeeps.candidatePeak_eq, hkeeps.topPeak_eq⟩
      have hfold : Returns ((index.layerLinks 0 c).foldlM (visitNeighbor distance limit)
          { state with candidates := rest, baseExpansions := state.baseExpansions + 1 })
          fun state' => Keeps distance counted state'
              ((index.baseSearch distance hlimit).expand frontier c) ∧
            (index.baseSearch distance hlimit).Sound v₀ (· = c)
              ((index.baseSearch distance hlimit).expand frontier c) := by
        refine Returns.foldlM (fun state frontier => Keeps distance counted state frontier ∧
          (index.baseSearch distance hlimit).Sound v₀ (· = c) frontier)
            (fun v hv state frontier h => ?_) ⟨hopened, hsound.erase c⟩
        exact (visitNeighbor_keeps hlimit h.1 h.2).mono fun state' hkeeps =>
          ⟨hkeeps, h.2.visit (hsound.reaches_of_link hc v hv)⟩
      refine hfold.bind fun state' h => Meets.ok ⟨⟨_, h.1, hsound.expand hc, fun t b hsearch =>
        hrun t b (.expanded hnext hnot hsearch)⟩, ?_⟩
      dsimp only
      rw [h.1.pending_eq, hkeeps.pending_eq]
      exact BestFirst.pending_expand (fun v hv =>
        Finset.mem_range.2 ((hneighbors v hv).2.lt hvalid)) hc

end Rounds

end HnswIndex

namespace HnswIndex

/-! ## The descent -/

section Descents

variable [LinearOrder E] {index : HnswIndex} {rows layer v : ℕ} {distance : ℕ → E}

theorem bestOf_cases (distance : ℕ → E) (best : SearchEntry E) (links : List ℕ) :
    bestOf distance best links = best ∨ ∃ candidate ∈ links,
      bestOf distance best links = entryOf distance candidate ∧
        entryOf distance candidate < best := by
  unfold bestOf
  induction links generalizing best with
  | nil => exact .inl rfl
  | cons candidate links ih =>
    rw [List.foldl_cons]
    split_ifs with hlt
    · rcases ih (entryOf distance candidate) with heq | ⟨other, hother, heq, hbetter⟩
      · exact .inr ⟨candidate, List.mem_cons_self .., heq, hlt⟩
      · exact .inr ⟨other, List.mem_cons_of_mem _ hother, heq, hbetter.trans hlt⟩
    · rcases ih best with heq | ⟨other, hother, heq, hbetter⟩
      · exact .inl heq
      · exact .inr ⟨other, List.mem_cons_of_mem _ hother, heq, hbetter⟩

/-- The nodes before an entry. -/
def nodesBefore (rows : ℕ) (distance : ℕ → E) (entry : SearchEntry E) : Finset ℕ :=
  (Finset.range rows).filter fun node => entryOf distance node < entry

theorem card_nodesBefore_lt {entry : SearchEntry E} (hv : v < rows)
    (hlt : entryOf distance v < entry) :
    (nodesBefore rows distance (entryOf distance v)).card <
      (nodesBefore rows distance entry).card := by
  refine Finset.card_lt_card ((Finset.ssubset_iff_of_subset fun u hu => ?_).2 ⟨v, ?_, ?_⟩)
  · exact Finset.mem_filter.2 ⟨(Finset.mem_filter.1 hu).1, (Finset.mem_filter.1 hu).2.trans hlt⟩
  · exact Finset.mem_filter.2 ⟨Finset.mem_range.2 hv, hlt⟩
  · exact fun hmem => lt_irrefl _ (Finset.mem_filter.1 hmem).2

theorem card_nodesBefore_lt_rows (distance : ℕ → E) (hv : v < rows) :
    (nodesBefore rows distance (entryOf distance v)).card < rows := by
  refine (Finset.card_lt_card (Finset.filter_ssubset.2 ⟨v, Finset.mem_range.2 hv, ?_⟩)).trans_eq
    (Finset.card_range rows)
  exact lt_irrefl _

/-- The descent is at a node of the layer. -/
def IsAt (index : HnswIndex) (distance : ℕ → E) (layer : ℕ) (descent : Descent E) : Prop :=
  0 < descent.distanceCount ∧
    ∃ v, descent.current = entryOf distance v ∧ index.HasLayer layer v

theorem descentRound_progress (hvalid : index.toHnswFields.Valid rows) {descent : Descent E}
    (h : index.IsAt distance layer descent) :
    Returns (index.descentRound distance layer descent)
      (Progress (index.IsAt distance layer)
        (fun descent => (nodesBefore rows distance descent.current).card)
        (index.IsAt distance layer) descent) := by
  obtain ⟨hpos, v, hcurrent, hlayer⟩ := h
  obtain ⟨hlinks, hneighbors⟩ := neighborsOf_eq hlayer
  have hnode : descent.current.node = v := by
    rw [hcurrent]
    rfl
  unfold descentRound
  rw [hnode, hlinks, ok_bind]
  dsimp only
  split_ifs with hsame
  · exact Meets.ok ⟨by dsimp only; omega, v, hcurrent, hlayer⟩
  · rcases bestOf_cases distance descent.current (index.layerLinks layer v)
      with heq | ⟨w, hw, heq, hlt⟩
    · rw [heq] at hsame
      exact absurd hnode hsame
    · refine Meets.ok ⟨⟨by dsimp only; omega, w, heq, (hneighbors w hw).2⟩, ?_⟩
      rw [heq]
      exact card_nodesBefore_lt ((hneighbors w hw).2.lt hvalid) hlt

theorem returns_descend (distance : ℕ → E) :
    Returns (index.descend distance) (index.IsAt distance 0) := by
  obtain ⟨rows, hvalid⟩ := index.exists_valid
  have hlayers (bound : ℕ) : ∀ descent : Descent E, index.IsAt distance bound descent →
      Returns (((List.range bound).reverse.map (· + 1)).foldlM (fun descent layer =>
        whileLoop "greedy descent exceeded its node bound"
          (index.descentRound distance layer) index.levels.length descent) descent)
        (index.IsAt distance 0) := by
    induction bound with
    | zero => exact fun descent h => Meets.ok h
    | succ bound ih =>
      intro descent h
      rw [List.range_succ, List.reverse_append, List.reverse_singleton, List.singleton_append,
        List.map_cons, List.foldlM_cons]
      refine (Meets.whileLoop (index.IsAt distance (bound + 1)) _
        (fun descent h => descentRound_progress hvalid h) h ?_).bind fun descent' h' => ?_
      · obtain ⟨-, v, hcurrent, hlayer⟩ := h
        rw [hvalid.length_levels, hcurrent]
        exact card_nodesBefore_lt_rows distance (hlayer.lt hvalid)
      · obtain ⟨hpos, v, hcurrent, hlayer⟩ := h'
        exact ih _ ⟨hpos, v, hcurrent, hlayer.mono (Nat.le_succ bound)⟩
  refine hlayers _ _ ⟨Nat.one_pos, _, rfl, index.maxLevel, hvalid.entryLevel, ?_⟩
  exact (Int.toNat_of_nonneg index.maxLevel_nonneg).le

/-! ## What the search finds -/

/-- The result and the counts of a search from the node where the descent ends. -/
structure Found (index : HnswIndex) (distance : ℕ → E) {limit : ℕ} (hlimit : 0 < limit) (k : ℕ)
    (descent : Descent E) (outcome : List (SearchEntry E) × SearchStats) : Prop where
  isAt : index.IsAt distance 0 descent
  search : ∃ frontier top,
    (index.baseSearch distance hlimit).Search (BestFirst.start descent.current.node) frontier
      outcome.2.terminatedByBound ∧
    HoldsNodes distance top frontier.top ∧ outcome.1 = (sortedBy id top).take k ∧
      outcome.2 =
        { visitedCount := frontier.visited.card
          distanceCount := descent.distanceCount + frontier.visited.card - 1
          upperHops := descent.upperHops
          baseExpansions := frontier.expansions
          terminatedByBound := outcome.2.terminatedByBound
          candidatePeak := frontier.candidatePeak
          topPeak := frontier.topPeak }

/-- The search on the lowest layer ends within its bound. -/
theorem returns_search {limit : ℕ} (hlimit : 0 < limit) {descent : Descent E}
    (h : index.IsAt distance 0 descent) :
    Returns (whileLoop "endless" (index.searchRound distance limit) (index.levels.length + 1)
        (.start descent))
      (index.Ends distance hlimit descent.distanceCount descent.current.node) := by
  obtain ⟨rows, hvalid⟩ := index.exists_valid
  obtain ⟨-, v, hcurrent, hlayer⟩ := h
  have hnode : descent.current.node = v := by
    rw [hcurrent]
    rfl
  have hmem : v ∈ Finset.range rows := Finset.mem_range.2 (hlayer.lt hvalid)
  have hruns : index.Runs distance hlimit descent.distanceCount v (.start descent) := by
    refine ⟨BestFirst.start v, ⟨?_, ?_, ?_, rfl, rfl, rfl, rfl⟩, .start v, fun _ _ h => h⟩
    · exact congrArg singleton hnode
    all_goals exact (congrArg (HoldsNodes distance [·] {v}) hcurrent).mpr .singleton
  rw [hnode]
  refine Meets.whileLoop (index.Runs distance hlimit descent.distanceCount v) _
    (fun state h => searchRound_progress hlimit hvalid hlayer h) hruns ?_
  have hcard := Finset.card_erase_lt_of_mem hmem
  rw [← Finset.sdiff_singleton_eq_erase, Finset.card_range] at hcard
  simp only [SearchState.start, hnode, List.length_singleton, hvalid.length_levels]
  omega

/-- A query that `search_index` accepts is searched from where the descent ends. -/
theorem searchIndex_found (distanceOf : List Word → List Word → E)
    (hvalid : index.toHnswFields.Valid rows) {query : List Word} {k efSearch : ℤ}
    (hdimension : query.length = index.vectors.shape.getD 1 0)
    (hfinite : ∀ value ∈ query, Binary32.isFinite value = true)
    (hpos : 0 < efSearch.toNat) (hefSearch : efSearch ≤ rows) (hk : 0 < k) (hkle : k ≤ efSearch) :
    ∃ descent outcome, index.descend (fun node => distanceOf query (matrixRow index.vectors node)) =
        .ok descent ∧
      index.searchIndex distanceOf query k efSearch = .ok outcome ∧
        index.Found (fun node => distanceOf query (matrixRow index.vectors node)) hpos k.toNat
          descent outcome := by
  obtain ⟨descent, hdescent, hat⟩ :=
    (returns_descend fun node => distanceOf query (matrixRow index.vectors node)).exists_ok
  obtain ⟨⟨state, bounded⟩, hloop, frontier, hkeeps, hsearch⟩ :=
    (returns_search hpos hat).exists_ok
  dsimp only at hkeeps hsearch
  have hcount := hkeeps.distanceCount_eq
  refine ⟨descent, ((sortedBy id state.top).take k.toNat,
    { visitedCount := state.visited.card
      distanceCount := state.distanceCount
      upperHops := descent.upperHops
      baseExpansions := state.baseExpansions
      terminatedByBound := bounded
      candidatePeak := state.candidatePeak
      topPeak := state.topPeak }),
    hdescent, ?_, hat, frontier, state.top, hsearch, hkeeps.top, rfl, ?_⟩
  · unfold searchIndex
    dsimp only
    rw [refuseIf_of_not, ok_bind, refuseIf_of_not, ok_bind, refuseIf_of_not, ok_bind, hdescent,
      ok_bind, hloop, ok_bind]
    · exact fun h => h ⟨hk, hkle⟩
    · rw [hvalid.length_levels]
      exact fun h => h ⟨by omega, hefSearch⟩
    · rintro (h | ⟨value, hvalue, h⟩)
      · exact h hdimension
      · rw [hfinite value hvalue] at h
        cases h
  · rw [hkeeps.visited_eq, hkeeps.baseExpansions_eq, hkeeps.candidatePeak_eq, hkeeps.topPeak_eq]
    simp only [SearchStats.mk.injEq, true_and, and_true]
    omega

variable {limit k : ℕ} {hlimit : 0 < limit} {descent : Descent E}
  {outcome : List (SearchEntry E) × SearchStats}

/-- The result is as many of the nodes that the descent's node reaches on the lowest layer as
are asked for, in increasing order. -/
theorem Found.result (h : index.Found distance hlimit k descent outcome)
    (hvalid : index.toHnswFields.Valid rows) (hk : k ≤ limit) :
    (∀ entry ∈ outcome.1, entry = entryOf distance entry.node ∧ entry.node < rows) ∧
      outcome.1.Pairwise (· < ·) ∧ (outcome.1.map SearchEntry.node).Nodup ∧
        (outcome.1.length : ℕ∞) = min (k : ℕ∞) {v | Relation.ReflTransGen
          (fun v w => w ∈ index.layerLinks 0 v) descent.current.node v}.encard := by
  obtain ⟨⟨-, v, hcurrent, hlayer⟩, frontier, top, hsearch, htop, hresult, -⟩ := h
  have hnode : descent.current.node = v := by
    rw [hcurrent]
    rfl
  obtain ⟨hreaches, hcard⟩ := hsearch.card_top (BestFirst.Sound.start _)
  have hentry : ∀ entry ∈ outcome.1, ∃ w ∈ frontier.top, entryOf distance w = entry :=
    fun entry hentry =>
      htop.mem_iff.1 (mem_sortedBy.1 (List.mem_of_mem_take (hresult ▸ hentry)))
  have hentries : ∀ entry ∈ outcome.1, entry = entryOf distance entry.node ∧ entry.node < rows := by
    intro entry h
    obtain ⟨w, hw, rfl⟩ := hentry entry h
    exact ⟨rfl, (hasLayer_of_reaches hlimit hlayer (hnode ▸ hreaches w hw)).lt hvalid⟩
  have hsorted : outcome.1.Pairwise (· < ·) := by
    rw [hresult]
    exact (strict_sortedBy Function.injective_id htop.nodup).sublist (List.take_sublist ..)
  refine ⟨hentries, hsorted, ?_, ?_⟩
  · refine (List.nodup_map_iff_inj_on hsorted.nodup).2 fun a ha b hb heq => ?_
    rw [(hentries a ha).1, (hentries b hb).1, heq]
  · rw [hresult, List.length_take, perm_sortedBy.length_eq, htop.length_eq]
    have hmin : ((min k frontier.top.card : ℕ) : ℕ∞) = min (k : ℕ∞) (frontier.top.card : ℕ∞) :=
      Nat.mono_cast.map_min
    rw [hmin, hcard, ← min_assoc]
    exact congrArg (min · _) (min_eq_left (Nat.cast_le.2 hk))

end Descents

end HnswIndex

end Npunlock
