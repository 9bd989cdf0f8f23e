import Npunlock.Binary32Value
import Npunlock.HnswSearch

/-!
# Construction of a graph index

`build_hnsw` inserts the vectors one after the other : it descends greedily above the level of the
new node, searches each layer of the node for its neighbours, links both ways and prunes. The
levels are sampled, so any levels are allowed here. The links of a built index are those of a
valid one, but pruning drops them on one side, and the search of a built index finds the nodes
that are still reached (`built_index_searched`).
-/

namespace Npunlock

namespace HnswIndex

/-! ## Links under construction -/

/-- `neighbors[node][layer]`. -/
def linksIn (neighbors : List (List (List ℕ))) (node layer : ℕ) : Option (List ℕ) :=
  neighbors[node]?.bind (·[layer]?)

def readLinks (neighbors : List (List (List ℕ))) (node layer : ℕ) : Except String (List ℕ) :=
  match linksIn neighbors node layer with
  | some links => .ok links
  | none => .error "list index out of range"

/-- `neighbors[node][layer] = links`. -/
def writeLinks (neighbors : List (List (List ℕ))) (node layer : ℕ) (links : List ℕ) :
    Except String (List (List (List ℕ))) :=
  match linksIn neighbors node layer with
  | some _ => .ok (neighbors.modify node (·.set layer links))
  | none => .error "list assignment index out of range"

section Build

variable {E : Type} [LinearOrder E]

/-! ## The search of a layer -/

/-- The state of `_search_layer_build`. The candidates are in order. -/
structure LayerState (E : Type) where
  visited : Finset ℕ
  candidates : List (SearchEntry E)
  top : List (SearchEntry E)

def visitLayerNeighbor (distance : ℕ → E) (ef : ℕ) (state : LayerState E) (neighbor : ℕ) :
    Except String (LayerState E) :=
  if neighbor ∈ state.visited then .ok state
  else do
    let visited := insert neighbor state.visited
    match ← offer ef (entryOf distance neighbor) state.top with
    | some top =>
      let candidates := sortedBy id (state.candidates ++ [entryOf distance neighbor])
      .ok { visited, candidates, top }
    | none => .ok { state with visited }

def layerRound (neighbors : List (List (List ℕ))) (distance : ℕ → E) (ef layer : ℕ)
    (state : LayerState E) : Except String (LayerState E ⊕ LayerState E) :=
  match state.candidates with
  | [] => .ok (.inr state)
  | candidate :: candidates => do
    let worst ← worstOf state.top
    if ef ≤ state.top.length ∧ worst < candidate then .ok (.inr { state with candidates })
    else do
      let links ← readLinks neighbors candidate.node layer
      let state ← links.foldlM (visitLayerNeighbor distance ef) { state with candidates }
      .ok (.inl state)

/-- `_search_layer_build` from one entry point, with a bound that is never met. -/
def searchLayerBuild (neighbors : List (List (List ℕ))) (distance : ℕ → E) (entryPoint ef : ℕ)
    (layer : ℕ) : Except String (List (SearchEntry E)) := do
  let state ← whileLoop "endless" (layerRound neighbors distance ef layer) (neighbors.length + 1)
    { visited := {entryPoint}
      candidates := [entryOf distance entryPoint]
      top := [entryOf distance entryPoint] }
  .ok (sortedBy id state.top)

/-- `_prune`. -/
def prune (distance : ℕ → E) (owner : ℕ) (links : List ℕ) (m : ℕ) : List ℕ :=
  (sortedBy (entryOf distance) (links.dedup.filter (· ≠ owner))).take m

/-! ## Insertions -/

/-- A round of the descent of `build_hnsw` on a layer. -/
def insertRound (neighbors : List (List (List ℕ))) (distance : ℕ → E) (layer : ℕ)
    (current : SearchEntry E) : Except String (SearchEntry E ⊕ SearchEntry E) := do
  let links ← readLinks neighbors current.node layer
  let (current, changed) := links.foldl (fun state candidate =>
    if entryOf distance candidate < state.1 then (entryOf distance candidate, true) else state)
    (current, false)
  if changed then .ok (.inl current) else .ok (.inr current)

/-- The new node is added to the links of a node it is linked to. -/
def linkBack (distances : ℕ → ℕ → E) (m node layer : ℕ) (neighbors : List (List (List ℕ)))
    (candidate : ℕ) : Except String (List (List (List ℕ))) := do
  let links ← readLinks neighbors candidate layer
  writeLinks neighbors candidate layer (prune (distances candidate) candidate (links ++ [node]) m)

/-- The links of the new node on a layer, and where the next layer is searched from. -/
def linkLayer (distances : ℕ → ℕ → E) (m efConstruction node : ℕ)
    (state : List (List (List ℕ)) × ℕ) (layer : ℕ) :
    Except String (List (List (List ℕ)) × ℕ) := do
  let candidates ← searchLayerBuild state.1 (distances node) state.2 efConstruction layer
  let selected := (candidates.take m).map SearchEntry.node
  let neighbors ← writeLinks state.1 node layer selected
  let neighbors ← selected.foldlM (linkBack distances m node layer) neighbors
  match candidates with
  | [] => .ok (neighbors, state.2)
  | nearest :: _ => .ok (neighbors, nearest.node)

/-- The graph under construction. -/
structure Building where
  neighbors : List (List (List ℕ))
  entryPoint : ℕ
  currentMaxLevel : ℕ

/-- A round of `build_hnsw`. -/
def insertNode (distances : ℕ → ℕ → E) (m efConstruction : ℕ) (levels : ℕ → ℕ)
    (building : Building) (node : ℕ) : Except String Building := do
  let nodeLevel := levels node
  let neighbors := building.neighbors ++ [List.replicate (nodeLevel + 1) []]
  let upper := (List.range (building.currentMaxLevel - nodeLevel)).reverse.map (· + nodeLevel + 1)
  let current ← upper.foldlM
    (fun current layer => whileLoop "endless" (insertRound neighbors (distances node) layer)
      (neighbors.length + 1) current)
    (entryOf (distances node) building.entryPoint)
  let lower := (List.range (min nodeLevel building.currentMaxLevel + 1)).reverse
  let (neighbors, _) ← lower.foldlM (linkLayer distances m efConstruction node)
    (neighbors, current.node)
  if building.currentMaxLevel < nodeLevel then
    .ok { neighbors, entryPoint := node, currentMaxLevel := nodeLevel }
  else .ok { building with neighbors }

/-- The values of the finished index. -/
def Building.fields (building : Building) (matrix : NpyArray) (rows : ℕ) (levels : ℕ → ℕ)
    (m : ℤ) : HnswFields where
  vectors := matrix
  levels := (List.range rows).map fun node : ℕ => (levels node : ℤ)
  neighbors := building.neighbors.map fun layers => layers.map fun links =>
    links.map fun neighbor : ℕ => (neighbor : ℤ)
  entryPoint := building.entryPoint
  maxLevel := building.currentMaxLevel
  m := m

/-- `build_hnsw` on a converted matrix, with the samples of the levels. -/
def buildHnsw (distanceOf : List Word → List Word → E) (samples : ℕ → ℕ) (matrix : NpyArray)
    (m efConstruction maxLevels : ℤ) : Except String HnswIndex := do
  let rows := matrix.shape.getD 0 0
  refuseIf (matrix.shape.length ≠ 2 ∨ rows = 0 ∨ matrix.shape.getD 1 0 = 0)
    "vectors must be a non-empty rank-2 matrix"
  match matrix.items with
  | .float32 values => do
    refuseIf (∃ value ∈ values, Binary32.isFinite value = false)
      "vectors must contain only finite values"
    refuseIf (m ≤ 0) "m must be a positive integer"
    refuseIf (efConstruction < m) "ef_construction must be an integer at least m"
    refuseIf (¬(2 ≤ maxLevels ∧ maxLevels ≤ 16)) "max_levels must be an integer in [2, 16]"
    let levels node := min (maxLevels - 1).toNat (samples node)
    let distances a b := distanceOf (matrixRow matrix a) (matrixRow matrix b)
    let building ← (List.range' 1 (rows - 1)).foldlM
      (insertNode distances m.toNat efConstruction.toNat levels)
      { neighbors := [List.replicate (levels 0 + 1) []]
        entryPoint := 0
        currentMaxLevel := levels 0 }
    create (building.fields matrix rows levels m)
  | _ => .error "vectors must be a non-empty rank-2 matrix"

end Build

/-! ## Graphs under construction -/

section Links

variable {neighbors : List (List (List ℕ))} {node layer v l : ℕ} {links : List ℕ}

theorem linksIn_append (layers : List (List ℕ)) :
    linksIn (neighbors ++ [layers]) v l =
      if v = neighbors.length then layers[l]? else linksIn neighbors v l := by
  unfold linksIn
  split_ifs with hv
  · rw [hv, List.getElem?_concat_length, Option.bind_some]
  · rcases Nat.lt_or_gt_of_ne hv with hlt | hgt
    · rw [List.getElem?_append_left hlt]
    · rw [List.getElem?_eq_none (by simp; omega), List.getElem?_eq_none (by omega)]

theorem readLinks_eq (h : linksIn neighbors node layer = some links) :
    readLinks neighbors node layer = .ok links := by
  rw [readLinks, h]

theorem writeLinks_eq (links : List ℕ) {old : List ℕ}
    (h : linksIn neighbors node layer = some old) :
    ∃ neighbors', writeLinks neighbors node layer links = .ok neighbors' ∧
      neighbors'.length = neighbors.length ∧ ∀ v l, linksIn neighbors' v l =
        if v = node ∧ l = layer then some links else linksIn neighbors v l := by
  refine ⟨neighbors.modify node (·.set layer links), by rw [writeLinks, h], by simp,
    fun v l => ?_⟩
  unfold linksIn at h ⊢
  obtain ⟨layers, hlayers, hlayer⟩ := Option.bind_eq_some_iff.1 h
  have hlt := (List.getElem?_eq_some_iff.1 hlayer).1
  rw [List.getElem?_modify]
  by_cases hv : v = node
  · subst hv
    rw [hlayers]
    by_cases hl : l = layer
    · subst hl
      simp [hlt]
    · simp [hl, Ne.symm hl]
  · simp [hv, Ne.symm hv]

/-- Links that a node may have on a layer, among so many nodes. -/
structure AllowedLinks (levels : ℕ → ℕ) (m count node layer : ℕ) (links : List ℕ) : Prop where
  length_le : links.length ≤ m
  nodup : links.Nodup
  allowed : ∀ w ∈ links, w ≠ node ∧ w < count ∧ layer ≤ levels w

/-- Nodes with these levels, and allowed links on all their layers. -/
structure IsGraph (levels : ℕ → ℕ) (m count : ℕ) (neighbors : List (List (List ℕ))) : Prop where
  length_eq : neighbors.length = count
  isSome_iff : ∀ v l, (linksIn neighbors v l).isSome = true ↔ v < count ∧ l ≤ levels v
  links : ∀ v l links, linksIn neighbors v l = some links →
    AllowedLinks levels m count v l links

variable {levels : ℕ → ℕ} {m count : ℕ}

theorem IsGraph.exists_links (h : IsGraph levels m count neighbors) (hv : v < count)
    (hl : l ≤ levels v) : ∃ links, linksIn neighbors v l = some links :=
  Option.isSome_iff_exists.1 ((h.isSome_iff v l).2 ⟨hv, hl⟩)

theorem IsGraph.write (h : IsGraph levels m count neighbors)
    {neighbors' : List (List (List ℕ))} (hnode : node < count) (hlayer : layer ≤ levels node)
    (hlinks : AllowedLinks levels m count node layer links)
    (hlength : neighbors'.length = neighbors.length)
    (hwritten : ∀ v l, linksIn neighbors' v l =
      if v = node ∧ l = layer then some links else linksIn neighbors v l) :
    IsGraph levels m count neighbors' := by
  refine ⟨hlength.trans h.length_eq, fun v l => ?_, fun v l links' hlinks' => ?_⟩
  · rw [hwritten]
    split_ifs with heq
    · obtain ⟨rfl, rfl⟩ := heq
      exact ⟨fun _ => ⟨hnode, hlayer⟩, fun _ => rfl⟩
    · exact h.isSome_iff v l
  · rw [hwritten] at hlinks'
    split_ifs at hlinks' with heq
    · obtain ⟨rfl, rfl⟩ := heq
      cases hlinks'
      exact hlinks
    · exact h.links v l links' hlinks'

/-- A new node has layers without links. -/
theorem IsGraph.append (h : IsGraph levels m count neighbors) :
    IsGraph levels m (count + 1) (neighbors ++ [List.replicate (levels count + 1) []]) := by
  refine ⟨by rw [List.length_append, h.length_eq, List.length_singleton], fun v l => ?_,
    fun v l links hlinks => ?_⟩
  · rw [linksIn_append, h.length_eq]
    split_ifs with hv
    · subst hv
      rw [List.getElem?_replicate]
      split_ifs with hl
      · exact ⟨fun _ => ⟨Nat.lt_succ_self v, by omega⟩, fun _ => rfl⟩
      · exact ⟨fun h => (nomatch h), fun h => absurd h.2 (by omega)⟩
    · rw [h.isSome_iff]
      exact and_congr_left fun _ => by omega
  · rw [linksIn_append, h.length_eq] at hlinks
    split_ifs at hlinks with hv
    · rw [List.getElem?_replicate] at hlinks
      split_ifs at hlinks
      cases hlinks
      exact ⟨Nat.zero_le m, List.nodup_nil, by simp⟩
    · obtain ⟨hlength, hnodup, hallowed⟩ := h.links v l links hlinks
      exact ⟨hlength, hnodup, fun w hw => ⟨(hallowed w hw).1, by have := (hallowed w hw).2.1; omega,
        (hallowed w hw).2.2⟩⟩

end Links

/-! ## Searches of a layer -/

section Layers

variable {E : Type} [LinearOrder E] {neighbors : List (List (List ℕ))} {levels : ℕ → ℕ}
  {m node layer v₀ v ef : ℕ} {distance : ℕ → E} (hef : 0 < ef)

/-- The graph has one node more, that no node is linked to on a layer. -/
structure IsFresh (levels : ℕ → ℕ) (m node layer : ℕ) (neighbors : List (List (List ℕ))) :
    Prop where
  graph : IsGraph levels m (node + 1) neighbors
  fresh : ∀ v links, linksIn neighbors v layer = some links → node ∉ links

/-- An old node of the layer. -/
def IsOld (levels : ℕ → ℕ) (node layer v : ℕ) : Prop :=
  v < node ∧ layer ≤ levels v

/-- The links of a layer lead from old nodes to old nodes. -/
theorem IsFresh.exists_links (h : IsFresh levels m node layer neighbors)
    (hv : IsOld levels node layer v) : ∃ links, linksIn neighbors v layer = some links ∧
      ∀ w ∈ links, IsOld levels node layer w := by
  obtain ⟨links, hlinks⟩ := h.graph.exists_links (Nat.lt_succ_of_lt hv.1) hv.2
  refine ⟨links, hlinks, fun w hw => ?_⟩
  obtain ⟨-, hlt, hlevel⟩ := (h.graph.links v layer links hlinks).allowed w hw
  have hne : w ≠ node := fun heq => h.fresh v links hlinks (heq ▸ hw)
  exact ⟨by omega, hlevel⟩

/-- The search that `_search_layer_build` makes. -/
abbrev layerSearch (neighbors : List (List (List ℕ))) (layer : ℕ) (distance : ℕ → E) {ef : ℕ}
    (hef : 0 < ef) : BestFirst ℕ (SearchEntry E) :=
  bestFirst (fun v => (linksIn neighbors v layer).getD []) distance hef

theorem isOld_of_reaches (h : IsFresh levels m node layer neighbors)
    (hv₀ : IsOld levels node layer v₀)
    (hreaches : (layerSearch neighbors layer distance hef).Reaches v₀ v) :
    IsOld levels node layer v := by
  induction hreaches with
  | refl => exact hv₀
  | tail _ hlink ih =>
    obtain ⟨links, hlinks, hold⟩ := h.exists_links ih
    change _ ∈ (linksIn neighbors _ layer).getD [] at hlink
    rw [hlinks, Option.getD_some] at hlink
    exact hold _ hlink

/-- The state is a frontier of nodes, with its candidates in order. -/
structure KeepsLayer (distance : ℕ → E) (state : LayerState E) (frontier : Frontier ℕ) :
    Prop where
  visited_eq : state.visited = frontier.visited
  candidates : HoldsNodes distance state.candidates frontier.candidates
  sorted : state.candidates.Pairwise (· ≤ ·)
  top : HoldsNodes distance state.top frontier.top

variable {isOpen : ℕ → Prop} {state : LayerState E} {frontier : Frontier ℕ}

theorem visitLayerNeighbor_keeps (h : KeepsLayer distance state frontier)
    (hsound : (layerSearch neighbors layer distance hef).Sound v₀ isOpen frontier) :
    Returns (visitLayerNeighbor distance ef state v) fun state' =>
      KeepsLayer distance state' ((layerSearch neighbors layer distance hef).visit frontier v) := by
  unfold visitLayerNeighbor BestFirst.visit
  rw [h.visited_eq]
  by_cases hv : v ∈ frontier.visited
  · rw [if_pos hv, if_pos hv]
    exact Meets.ok h
  rw [if_neg hv, if_neg hv]
  have hoffer := offer_eq (fun v => (linksIn neighbors v layer).getD []) hef h.top
    hsound.top_nonempty fun hmem => hv (hsound.top_subset hmem)
  split_ifs at hoffer ⊢ with hadmits
  · obtain ⟨kept, hkept, hholds⟩ := hoffer
    have hcandidates := h.candidates.append fun hmem => hv (hsound.candidates_subset hmem)
    dsimp only
    rw [hkept]
    exact Meets.ok ⟨rfl, hcandidates.of_perm perm_sortedBy, pairwise_sortedBy, hholds⟩
  · dsimp only
    rw [hoffer]
    exact Meets.ok ⟨rfl, h.candidates, h.sorted, h.top⟩

/-- A state of a search of a layer. -/
def RunsLayer (neighbors : List (List (List ℕ))) (layer : ℕ) (distance : ℕ → E) {ef : ℕ}
    (hef : 0 < ef) (v₀ : ℕ) (state : LayerState E) : Prop :=
  ∃ frontier, KeepsLayer distance state frontier ∧
    (layerSearch neighbors layer distance hef).Sound v₀ (fun _ => False) frontier

/-- The entries are those of visited nodes. -/
def FoundLayer (neighbors : List (List (List ℕ))) (layer : ℕ) (distance : ℕ → E) {ef : ℕ}
    (hef : 0 < ef) (v₀ : ℕ) (state : LayerState E) : Prop :=
  ∃ frontier : Frontier ℕ, HoldsNodes distance state.top frontier.top ∧
    (layerSearch neighbors layer distance hef).Sound v₀ (fun _ => False) frontier

theorem layerRound_progress (hfresh : IsFresh levels m node layer neighbors)
    (hv₀ : IsOld levels node layer v₀) (h : RunsLayer neighbors layer distance hef v₀ state) :
    Returns (layerRound neighbors distance ef layer state)
      (Progress (RunsLayer neighbors layer distance hef v₀)
        (fun state => (Finset.range node \ state.visited).card + state.candidates.length)
        (FoundLayer neighbors layer distance hef v₀) state) := by
  obtain ⟨frontier, hkeeps, hsound⟩ := h
  obtain ⟨visited, candidates, top⟩ := state
  unfold layerRound
  cases candidates with
  | nil => exact Meets.ok ⟨frontier, hkeeps.top, hsound⟩
  | cons candidate rest =>
    obtain ⟨c, rfl, hnext, hrest⟩ := next_of_sorted
      (fun v => (linksIn neighbors v layer).getD []) hef hkeeps.candidates hkeeps.sorted
    have hc := hnext.1
    obtain ⟨w, hw, hworst, hle⟩ := worstOf_eq hkeeps.top hsound.top_nonempty
    dsimp only at hworst ⊢
    rw [hworst, ok_bind]
    split_ifs with hbound
    · exact Meets.ok ⟨frontier, hkeeps.top, hsound⟩
    · have hreaches := hsound.reaches c (hsound.candidates_subset hc)
      obtain ⟨links, hlinks, hold⟩ :=
        hfresh.exists_links (isOld_of_reaches hef hfresh hv₀ hreaches)
      have hlinks' : (layerSearch neighbors layer distance hef).links c = links := by
        change (linksIn neighbors c layer).getD [] = links
        rw [hlinks, Option.getD_some]
      have hnode : (entryOf distance c).node = c := rfl
      rw [hnode, readLinks_eq hlinks, ok_bind, ← hlinks']
      have hopened : KeepsLayer distance ⟨visited, rest, top⟩
          { frontier with
            candidates := frontier.candidates.erase c
            expansions := frontier.expansions + 1 } :=
        ⟨hkeeps.visited_eq, hrest, hkeeps.sorted.tail, hkeeps.top⟩
      have hfold : Returns (((layerSearch neighbors layer distance hef).links c).foldlM
          (visitLayerNeighbor distance ef) ⟨visited, rest, top⟩)
          fun state' => KeepsLayer distance state'
              ((layerSearch neighbors layer distance hef).expand frontier c) ∧
            (layerSearch neighbors layer distance hef).Sound v₀ (· = c)
              ((layerSearch neighbors layer distance hef).expand frontier c) := by
        refine Returns.foldlM (fun state frontier => KeepsLayer distance state frontier ∧
          (layerSearch neighbors layer distance hef).Sound v₀ (· = c) frontier)
            (fun v hv state frontier h => ?_) ⟨hopened, hsound.erase c⟩
        exact (visitLayerNeighbor_keeps hef h.1 h.2).mono fun state' hkeeps =>
          ⟨hkeeps, h.2.visit (hsound.reaches_of_link hc v hv)⟩
      refine hfold.bind fun state' h => Meets.ok ⟨⟨_, h.1, hsound.expand hc⟩, ?_⟩
      have hpending := @BestFirst.pending_expand ℕ (SearchEntry E) _ _
        (layerSearch neighbors layer distance hef) (Finset.range node) c frontier
        (fun v hv => Finset.mem_range.2 (hold v (hlinks' ▸ hv)).1) hc
      unfold BestFirst.pending at hpending
      rw [← h.1.visited_eq, ← h.1.candidates.length_eq, ← hkeeps.visited_eq,
        ← hkeeps.candidates.length_eq] at hpending
      exact hpending

include hef in
/-- A search of a layer finds old nodes. -/
theorem returns_searchLayerBuild (distance : ℕ → E)
    (hfresh : IsFresh levels m node layer neighbors) (hv₀ : IsOld levels node layer v₀) :
    Returns (searchLayerBuild neighbors distance v₀ ef layer) fun found =>
      found ≠ [] ∧ (found.map SearchEntry.node).Nodup ∧
        ∀ entry ∈ found, IsOld levels node layer entry.node := by
  unfold searchLayerBuild
  have hruns : RunsLayer neighbors layer distance hef v₀
      ⟨{v₀}, [entryOf distance v₀], [entryOf distance v₀]⟩ :=
    ⟨BestFirst.start v₀, ⟨rfl, .singleton, List.pairwise_singleton .., .singleton⟩, .start v₀⟩
  refine (Meets.whileLoop (RunsLayer neighbors layer distance hef v₀) _
    (fun state h => layerRound_progress hef hfresh hv₀ h) hruns ?_).bind fun state hfound => ?_
  · have hcard := Finset.card_erase_lt_of_mem (Finset.mem_range.2 hv₀.1)
    rw [← Finset.sdiff_singleton_eq_erase, Finset.card_range] at hcard
    dsimp only
    rw [hfresh.graph.length_eq, List.length_singleton]
    omega
  · obtain ⟨frontier, htop, hsound⟩ := hfound
    have hentry : ∀ entry ∈ sortedBy id state.top,
        ∃ v ∈ frontier.top, entryOf distance v = entry :=
      fun entry h => htop.mem_iff.1 (mem_sortedBy.1 h)
    refine Meets.ok ⟨fun hnil => ?_, ?_, fun entry h => ?_⟩
    · have hlength := htop.length_eq
      rw [← (@perm_sortedBy _ _ _ id state.top).length_eq, hnil, List.length_nil] at hlength
      exact absurd hlength (Finset.card_pos.2 hsound.top_nonempty).ne
    · refine (List.nodup_map_iff_inj_on (perm_sortedBy.nodup_iff.2 htop.nodup)).2 ?_
      intro a ha b hb heq
      obtain ⟨v, -, rfl⟩ := hentry a ha
      obtain ⟨w, -, rfl⟩ := hentry b hb
      exact congrArg (entryOf distance) heq
    · obtain ⟨v, hv, rfl⟩ := hentry entry h
      exact isOld_of_reaches hef hfresh hv₀ (hsound.reaches v (hsound.top_subset hv))

end Layers

/-! ## Insertions keep the graph -/

section Insertions

variable {E : Type} [LinearOrder E] {neighbors : List (List (List ℕ))} {levels : ℕ → ℕ}
  {m node layer v efConstruction : ℕ} {distances : ℕ → ℕ → E}

theorem prune_spec (distance : ℕ → E) (owner : ℕ) (links : List ℕ) (m : ℕ) :
    (prune distance owner links m).length ≤ m ∧ (prune distance owner links m).Nodup ∧
      ∀ w ∈ prune distance owner links m, w ∈ links ∧ w ≠ owner := by
  unfold prune
  refine ⟨by rw [List.length_take]; exact min_le_left .., ?_, fun w hw => ?_⟩
  · exact (perm_sortedBy.nodup_iff.2 ((List.nodup_dedup links).filter _)).sublist
      (List.take_sublist ..)
  · have hmem := List.mem_filter.1 (mem_sortedBy.1 (List.mem_of_mem_take hw))
    exact ⟨List.mem_dedup.1 hmem.1, of_decide_eq_true hmem.2⟩

/-- The new node is linked to on no layer up to this one. -/
def IsFreshBelow (levels : ℕ → ℕ) (m node bound : ℕ) (neighbors : List (List (List ℕ))) :
    Prop :=
  IsGraph levels m (node + 1) neighbors ∧
    ∀ l < bound, ∀ v links, linksIn neighbors v l = some links → node ∉ links

/-- Links of a layer are written, and those below stay. -/
theorem IsFreshBelow.write (h : IsFreshBelow levels m node layer neighbors) {owner : ℕ}
    {links : List ℕ} (howner : owner < node + 1) (hlayer : layer ≤ levels owner)
    (hlinks : AllowedLinks levels m (node + 1) owner layer links) :
    Returns (writeLinks neighbors owner layer links)
      (IsFreshBelow levels m node layer) := by
  obtain ⟨old, hold⟩ := h.1.exists_links howner hlayer
  obtain ⟨neighbors', hwrite, hlength, hwritten⟩ := writeLinks_eq links hold
  rw [hwrite]
  refine Meets.ok ⟨h.1.write howner hlayer hlinks hlength hwritten, fun l hl v links' h' => ?_⟩
  rw [hwritten, if_neg (by omega)] at h'
  exact h.2 l hl v links' h'

theorem returns_linkBack (hlayer : layer ≤ levels node)
    (h : IsFreshBelow levels m node layer neighbors) {candidate : ℕ}
    (hcandidate : IsOld levels node layer candidate) :
    Returns (linkBack distances m node layer neighbors candidate)
      (IsFreshBelow levels m node layer) := by
  obtain ⟨links, hlinks⟩ := h.1.exists_links (Nat.lt_succ_of_lt hcandidate.1) hcandidate.2
  obtain ⟨hlength, hnodup, hmem⟩ :=
    prune_spec (distances candidate) candidate (links ++ [node]) m
  unfold linkBack
  rw [readLinks_eq hlinks, ok_bind]
  refine h.write (Nat.lt_succ_of_lt hcandidate.1) hcandidate.2
    ⟨hlength, hnodup, fun w hw => ⟨(hmem w hw).2, ?_⟩⟩
  rcases List.mem_append.1 (hmem w hw).1 with hold | hnew
  · exact ((h.1.links _ _ _ hlinks).allowed w hold).2
  · rw [List.mem_singleton.1 hnew]
    exact ⟨Nat.lt_succ_self node, hlayer⟩

/-- A layer of the new node is linked, and the next layer is searched from an old node. -/
theorem returns_linkLayer (hef : 0 < efConstruction) (hlayer : layer ≤ levels node)
    (h : IsFreshBelow levels m node (layer + 1) neighbors) (hv : IsOld levels node layer v) :
    Returns (linkLayer distances m efConstruction node (neighbors, v) layer) fun state =>
      IsFreshBelow levels m node layer state.1 ∧ IsOld levels node layer state.2 := by
  have hfresh : IsFresh levels m node layer neighbors := ⟨h.1, h.2 layer (Nat.lt_succ_self layer)⟩
  have hbelow : IsFreshBelow levels m node layer neighbors :=
    ⟨h.1, fun l hl => h.2 l (Nat.lt_succ_of_lt hl)⟩
  unfold linkLayer
  refine (returns_searchLayerBuild hef (distances node) hfresh hv).bind
    fun candidates ⟨hne, hnodup, hold⟩ => ?_
  have hselected : ∀ w ∈ (candidates.take m).map SearchEntry.node,
      IsOld levels node layer w := by
    intro w hw
    obtain ⟨entry, hentry, rfl⟩ := List.mem_map.1 hw
    exact hold entry (List.mem_of_mem_take hentry)
  refine (hbelow.write (Nat.lt_succ_self node) hlayer ⟨?_, ?_, fun w hw => ?_⟩).bind
    fun neighbors' hneighbors' => ?_
  · rw [List.length_map, List.length_take]
    exact min_le_left ..
  · exact hnodup.sublist ((List.take_sublist ..).map _)
  · obtain ⟨hlt, hlevel⟩ := hselected w hw
    exact ⟨hlt.ne, Nat.lt_succ_of_lt hlt, hlevel⟩
  refine (Meets.foldlM (IsFreshBelow levels m node layer) hneighbors'
    fun neighbors w hw h => returns_linkBack hlayer h (hselected w hw)).bind
      fun neighbors'' hneighbors'' => ?_
  cases candidates with
  | nil => exact absurd rfl hne
  | cons nearest rest => exact Meets.ok ⟨hneighbors'', hold nearest (List.mem_cons_self ..)⟩

theorem returns_lower (hef : 0 < efConstruction) (bound : ℕ) :
    ∀ {neighbors : List (List (List ℕ))} {v : ℕ}, (∀ l < bound, l ≤ levels node) →
      IsFreshBelow levels m node bound neighbors → v < node → (∀ l < bound, l ≤ levels v) →
        Returns ((List.range bound).reverse.foldlM
            (linkLayer distances m efConstruction node) (neighbors, v)) fun state =>
          IsGraph levels m (node + 1) state.1 := by
  induction bound with
  | zero => exact fun _ h _ _ => Meets.ok h.1
  | succ bound ih =>
    intro neighbors v hnode h hv hlevel
    rw [List.range_succ, List.reverse_append, List.reverse_singleton, List.singleton_append,
      List.foldlM_cons]
    have hbound := Nat.lt_succ_self bound
    refine (returns_linkLayer hef (hnode bound hbound) h ⟨hv, hlevel bound hbound⟩).bind
      fun ⟨neighbors', v'⟩ ⟨hneighbors', hv'⟩ => ?_
    refine ih (fun l hl => hnode l (by omega)) hneighbors' hv'.1 fun l hl => ?_
    exact hl.le.trans hv'.2

theorem bestOf_le (distance : ℕ → E) (best : SearchEntry E) (links : List ℕ) :
    bestOf distance best links ≤ best := by
  rcases bestOf_cases distance best links with heq | ⟨w, -, heq, hlt⟩
  · exact heq.le
  · exact heq.trans_le hlt.le

/-- The loop over the links ends at the nearest, and says whether it has moved. -/
theorem foldl_changed (distance : ℕ → E) (links : List ℕ) :
    ∀ (best : SearchEntry E) (changed : Bool), links.foldl (fun state candidate =>
        if entryOf distance candidate < state.1 then (entryOf distance candidate, true) else state)
        (best, changed) =
      (bestOf distance best links, changed || decide (bestOf distance best links ≠ best)) := by
  induction links with
  | nil => exact fun best changed => by simp [bestOf]
  | cons candidate links ih =>
    intro best changed
    rw [List.foldl_cons]
    by_cases hlt : entryOf distance candidate < best
    · have hbest : bestOf distance best (candidate :: links) =
          bestOf distance (entryOf distance candidate) links := by
        rw [bestOf, List.foldl_cons, if_pos hlt, bestOf]
      have hne := ((bestOf_le distance (entryOf distance candidate) links).trans_lt hlt).ne
      rw [if_pos hlt, ih, hbest, Bool.true_or, decide_eq_true hne, Bool.or_true]
    · have hbest : bestOf distance best (candidate :: links) = bestOf distance best links := by
        rw [bestOf, List.foldl_cons, if_neg hlt, bestOf]
      rw [if_neg hlt, ih, hbest]

/-- The entry of an old node of a layer. -/
def IsOldEntry (levels : ℕ → ℕ) (distance : ℕ → E) (node layer : ℕ) (entry : SearchEntry E) :
    Prop :=
  ∃ v, entry = entryOf distance v ∧ IsOld levels node layer v

/-- A round of the descent of an insertion. -/
theorem insertRound_progress {distance : ℕ → E} (hfresh : IsFresh levels m node layer neighbors)
    {current : SearchEntry E} (h : IsOldEntry levels distance node layer current) :
    Returns (insertRound neighbors distance layer current)
      (Progress (IsOldEntry levels distance node layer)
        (fun current => (nodesBefore node distance current).card)
        (IsOldEntry levels distance node layer) current) := by
  obtain ⟨v, rfl, hv⟩ := h
  obtain ⟨links, hlinks, hold⟩ := hfresh.exists_links hv
  have hnode : (entryOf distance v).node = v := rfl
  unfold insertRound
  rw [hnode, readLinks_eq hlinks, ok_bind, foldl_changed, Bool.false_or]
  rcases bestOf_cases distance (entryOf distance v) links with heq | ⟨w, hw, heq, hlt⟩
  · rw [heq]
    dsimp only
    rw [if_neg (by simp)]
    exact Meets.ok ⟨v, rfl, hv⟩
  · rw [heq]
    dsimp only
    rw [if_pos (decide_eq_true hlt.ne)]
    exact Meets.ok ⟨⟨w, rfl, hold w hw⟩, card_nodesBefore_lt (hold w hw).1 hlt⟩

/-- The descent of an insertion ends at an old node of the level below. -/
theorem returns_upper {distance : ℕ → E} {nodeLevel : ℕ}
    (hgraph : IsGraph levels m (node + 1) neighbors)
    (hfresh : ∀ l v links, linksIn neighbors v l = some links → node ∉ links) (count : ℕ) :
    ∀ current, IsOldEntry levels distance node (count + nodeLevel) current →
      Returns (((List.range count).reverse.map (· + nodeLevel + 1)).foldlM
          (fun current layer => whileLoop "endless" (insertRound neighbors distance layer)
            (neighbors.length + 1) current) current)
        (IsOldEntry levels distance node nodeLevel) := by
  induction count with
  | zero =>
    intro current h
    rw [Nat.zero_add] at h
    exact Meets.ok h
  | succ count ih =>
    intro current h
    rw [List.range_succ, List.reverse_append, List.reverse_singleton, List.singleton_append,
      List.map_cons, List.foldlM_cons]
    rw [Nat.add_right_comm] at h
    refine (Meets.whileLoop (IsOldEntry levels distance node (count + nodeLevel + 1)) _
      (fun current h => insertRound_progress ⟨hgraph, hfresh _⟩ h) h ?_).bind fun current' h' => ?_
    · obtain ⟨v, rfl, hv⟩ := h
      have hlt := card_nodesBefore_lt_rows distance hv.1
      rw [hgraph.length_eq]
      omega
    · obtain ⟨v, hv, hlt, hlevel⟩ := h'
      exact ih current' ⟨v, hv, hlt, by omega⟩

/-- What holds of the graph between insertions. -/
structure IsBuilding (levels : ℕ → ℕ) (m count : ℕ) (building : Building) : Prop where
  graph : IsGraph levels m count building.neighbors
  entryPoint : building.entryPoint < count ∧
    levels building.entryPoint = building.currentMaxLevel
  maxLevel : ∀ v < count, levels v ≤ building.currentMaxLevel

theorem returns_insertNode (hef : 0 < efConstruction) {building : Building}
    (h : IsBuilding levels m node building) :
    Returns (insertNode distances m efConstruction levels building node)
      (IsBuilding levels m (node + 1)) := by
  have hgraph := h.graph.append
  have hfresh : ∀ l v links, linksIn
      (building.neighbors ++ [List.replicate (levels node + 1) []]) v l = some links →
        node ∉ links := by
    intro l v links hlinks hmem
    rw [linksIn_append, h.graph.length_eq] at hlinks
    split_ifs at hlinks with hv
    · rw [List.getElem?_replicate] at hlinks
      split_ifs at hlinks
      cases hlinks
      cases hmem
    · exact absurd ((h.graph.links v l links hlinks).allowed node hmem).2.1 (lt_irrefl node)
  obtain ⟨hlt, hlevel⟩ := h.entryPoint
  have hupper : Returns (((List.range (building.currentMaxLevel - levels node)).reverse.map
      (· + levels node + 1)).foldlM (fun current layer => whileLoop "endless"
        (insertRound (building.neighbors ++ [List.replicate (levels node + 1) []])
          (distances node) layer)
        ((building.neighbors ++ [List.replicate (levels node + 1) []]).length + 1) current)
        (entryOf (distances node) building.entryPoint))
      (IsOldEntry levels (distances node) node (min (levels node) building.currentMaxLevel)) := by
    rcases Nat.le_total (levels node) building.currentMaxLevel with hle | hge
    · rw [min_eq_left hle]
      exact returns_upper hgraph hfresh _ _ ⟨building.entryPoint, rfl, hlt, by omega⟩
    · rw [Nat.sub_eq_zero_of_le hge, min_eq_right hge]
      exact Meets.ok ⟨building.entryPoint, rfl, hlt, hlevel.ge⟩
  unfold insertNode
  refine hupper.bind fun current ⟨v, hcurrent, hv⟩ => ?_
  have hnode : current.node = v := by
    rw [hcurrent]
    rfl
  rw [hnode]
  refine (returns_lower hef _ (fun l hl => by omega) ⟨hgraph, fun l _ => hfresh l⟩ hv.1
    fun l hl => (Nat.lt_succ_iff.1 hl).trans hv.2).bind fun ⟨neighbors', _⟩ hneighbors' => ?_
  split_ifs with hhigher
  · refine Meets.ok ⟨hneighbors', ⟨Nat.lt_succ_self node, rfl⟩, fun w hw => ?_⟩
    rcases Nat.lt_succ_iff_lt_or_eq.1 hw with hw | rfl
    · exact (h.maxLevel w hw).trans hhigher.le
    · exact le_rfl
  · refine Meets.ok ⟨hneighbors', ⟨Nat.lt_succ_of_lt hlt, hlevel⟩, fun w hw => ?_⟩
    rcases Nat.lt_succ_iff_lt_or_eq.1 hw with hw | rfl
    · exact h.maxLevel w hw
    · exact not_lt.1 hhigher

theorem returns_insertNodes (distances : ℕ → ℕ → E) (hef : 0 < efConstruction) (count : ℕ) :
    ∀ {start : ℕ} {building : Building}, IsBuilding levels m start building →
      Returns ((List.range' start count).foldlM
        (insertNode distances m efConstruction levels) building)
        (IsBuilding levels m (start + count)) := by
  induction count with
  | zero => exact fun h => Meets.ok h
  | succ count ih =>
    intro start building h
    rw [List.range'_succ, List.foldlM_cons]
    refine (returns_insertNode hef h).bind fun building' h' => ?_
    rw [Nat.add_comm count, ← Nat.add_assoc]
    exact ih h'

end Insertions

/-! ## The index that is built -/

theorem exists_create {fields : HnswFields} {rows : ℕ} (h : fields.Valid rows) :
    ∃ index, create fields = .ok index ∧ index.toHnswFields = fields :=
  ⟨⟨fields, HnswFields.postInit_eq_ok_iff.2 ⟨rows, h⟩⟩, create_eq_ok_iff.2 rfl, rfl⟩

/-- The values of a finished construction are those of an index. -/
theorem IsBuilding.valid {levels : ℕ → ℕ} {rows columns : ℕ} {m : ℤ} {building : Building}
    {matrix : NpyArray} {values : List Word} (h : IsBuilding levels m.toNat rows building)
    (hitems : matrix.items = .float32 values) (hshape : matrix.shape = [rows, columns])
    (hcolumns : columns ≠ 0) (hfinite : ∀ value ∈ values, Binary32.isFinite value = true)
    (hm : 0 < m) :
    (building.fields matrix rows levels m).Valid rows where
  vectors := ⟨values, columns, hitems, hshape, hcolumns, hfinite⟩
  rows_ne_zero := by
    have hlt := h.entryPoint.1
    omega
  length_levels := by simp [Building.fields]
  length_neighbors := by rw [Building.fields, List.length_map, h.graph.length_eq]
  entryPoint := ⟨Int.natCast_nonneg _, Int.ofNat_lt.2 h.entryPoint.1⟩
  maxLevel := by
    refine List.max?_eq_some_iff.2 ⟨?_, fun level hlevel => ?_⟩
    · exact List.mem_map.2 ⟨building.entryPoint, List.mem_range.2 h.entryPoint.1,
        congrArg Nat.cast h.entryPoint.2⟩
    · obtain ⟨node, hnode, rfl⟩ := List.mem_map.1 hlevel
      exact Int.ofNat_le.2 (h.maxLevel node (List.mem_range.1 hnode))
  entryLevel := by
    simp [Building.fields, h.entryPoint.1, h.entryPoint.2]
  m_pos := hm
  node := by
    intro node level layers hlevel hlayers
    rw [Building.fields] at hlevel hlayers
    rw [List.getElem?_map, Option.map_eq_some_iff] at hlevel hlayers
    obtain ⟨node', hnode', rfl⟩ := hlevel
    obtain ⟨hlt, rfl⟩ := List.getElem?_eq_some_iff.1 hnode'
    obtain ⟨layers, hlayers, rfl⟩ := hlayers
    rw [List.length_range] at hlt
    rw [List.getElem_range]
    have hlinks (l : ℕ) : linksIn building.neighbors node l = layers[l]? := by
      rw [linksIn, hlayers, Option.bind_some]
    have hlength : layers.length = levels node + 1 := by
      have hsome (l : ℕ) : l < layers.length ↔ l ≤ levels node := by
        simpa [hlinks, hlt] using h.graph.isSome_iff node l
      have hlast := hsome (levels node)
      have hnext := hsome (levels node + 1)
      omega
    refine ⟨Int.natCast_nonneg _, by simp [hlength], fun layer links hlayer => ?_⟩
    rw [List.getElem?_map, Option.map_eq_some_iff] at hlayer
    obtain ⟨links, hlayer, rfl⟩ := hlayer
    obtain ⟨hlength', hnodup, hallowed⟩ := h.graph.links node layer links (by rw [hlinks, hlayer])
    refine ⟨?_, hnodup.map Nat.cast_injective, fun neighbor hneighbor => ?_⟩
    · rw [List.length_map]
      change (links.length : ℤ) ≤ m
      omega
    · obtain ⟨w, hw, rfl⟩ := List.mem_map.1 hneighbor
      obtain ⟨hne, hlt', hle⟩ := hallowed w hw
      refine ⟨Nat.cast_injective.ne hne, ⟨Int.natCast_nonneg _, Int.ofNat_lt.2 hlt'⟩, ?_⟩
      simpa [Building.fields, hlt'] using hle

section Built

variable {E : Type} [LinearOrder E] {distanceOf : List Word → List Word → E} {samples : ℕ → ℕ}
  {matrix : NpyArray} {values : List Word} {rows columns : ℕ} {m efConstruction maxLevels : ℤ}

/-- A finite matrix is built, into an index of its rows. -/
theorem exists_buildHnsw (distanceOf : List Word → List Word → E) (samples : ℕ → ℕ)
    (hitems : matrix.items = .float32 values) (hshape : matrix.shape = [rows, columns])
    (hrows : rows ≠ 0) (hcolumns : columns ≠ 0)
    (hfinite : ∀ value ∈ values, Binary32.isFinite value = true) (hm : 0 < m)
    (hefConstruction : m ≤ efConstruction) (hmaxLevels : 2 ≤ maxLevels ∧ maxLevels ≤ 16) :
    ∃ index, buildHnsw distanceOf samples matrix m efConstruction maxLevels = .ok index ∧
      index.toHnswFields.Valid rows ∧ index.vectors = matrix ∧ index.m = m ∧
        index.levels = (List.range rows).map fun node : ℕ =>
          ((min (maxLevels - 1).toNat (samples node) : ℕ) : ℤ) := by
  have hgraph (levels : ℕ → ℕ) : IsGraph levels m.toNat 0 [] :=
    ⟨rfl, fun v l => by simp [linksIn], fun v l links h => by simp [linksIn] at h⟩
  have hstart (levels : ℕ → ℕ) :
      IsBuilding levels m.toNat 1 ⟨[List.replicate (levels 0 + 1) []], 0, levels 0⟩ := by
    refine ⟨(hgraph levels).append, ⟨Nat.one_pos, rfl⟩, fun v hv => ?_⟩
    rw [Nat.lt_one_iff.1 hv]
  have hef : 0 < efConstruction.toNat := by omega
  obtain ⟨building, hloop, hbuilding⟩ := (returns_insertNodes
    (fun a b => distanceOf (matrixRow matrix a) (matrixRow matrix b)) hef (rows - 1)
    (hstart fun node => min (maxLevels - 1).toNat (samples node))).exists_ok
  rw [Nat.add_sub_cancel' (Nat.one_le_iff_ne_zero.2 hrows)] at hbuilding
  have hvalid := hbuilding.valid hitems hshape hcolumns hfinite hm
  obtain ⟨index, hcreate, hindex⟩ := exists_create hvalid
  refine ⟨index, ?_, hindex ▸ hvalid, by rw [hindex]; rfl, by rw [hindex]; rfl, by rw [hindex]; rfl⟩
  unfold buildHnsw
  rw [hshape, hitems]
  simp only [List.getD_cons_zero, List.getD_cons_succ]
  rw [refuseIf_of_not, ok_bind, refuseIf_of_not, ok_bind, refuseIf_of_not, ok_bind,
    refuseIf_of_not, ok_bind, refuseIf_of_not, ok_bind, hloop, ok_bind, hcreate]
  · exact fun h => h hmaxLevels
  · omega
  · omega
  · rintro ⟨value, hvalue, h⟩
    rw [hfinite value hvalue] at h
    cases h
  · simp [hrows, hcolumns]

/-- A finite matrix is built, and a query of the index finds as many distinct nodes as are asked
for, in increasing order, unless fewer are reached on the lowest layer from where its descent
ends. -/
theorem built_index_searched {E' : Type} [LinearOrder E']
    (distanceOf : List Word → List Word → E) (searchDistance : List Word → List Word → E')
    (samples : ℕ → ℕ) (hitems : matrix.items = .float32 values)
    (hshape : matrix.shape = [rows, columns]) (hrows : rows ≠ 0) (hcolumns : columns ≠ 0)
    (hfinite : ∀ value ∈ values, Binary32.isFinite value = true) (hm : 0 < m)
    (hefConstruction : m ≤ efConstruction) (hmaxLevels : 2 ≤ maxLevels ∧ maxLevels ≤ 16) :
    ∃ index, buildHnsw distanceOf samples matrix m efConstruction maxLevels = .ok index ∧
      ∀ (query : List Word) (k efSearch : ℤ), query.length = columns →
        (∀ value ∈ query, Binary32.isFinite value = true) → 0 < k → k ≤ efSearch →
          efSearch ≤ rows → ∃ descent outcome,
            index.descend (fun node => searchDistance query (matrixRow matrix node)) =
              .ok descent ∧
            index.searchIndex searchDistance query k efSearch = .ok outcome ∧
            (∀ entry ∈ outcome.1, entry.node < rows ∧
              entry = entryOf (fun node => searchDistance query (matrixRow matrix node))
                entry.node) ∧
            outcome.1.Pairwise (· < ·) ∧ (outcome.1.map SearchEntry.node).Nodup ∧
            (outcome.1.length : ℕ∞) = min (k.toNat : ℕ∞) {v | Relation.ReflTransGen
              (fun v w => w ∈ index.layerLinks 0 v) descent.current.node v}.encard := by
  obtain ⟨index, hbuild, hvalid, rfl, -⟩ := exists_buildHnsw distanceOf samples hitems hshape hrows
    hcolumns hfinite hm hefConstruction hmaxLevels
  refine ⟨index, hbuild, fun query k efSearch hdimension hquery hk hkle hefSearch => ?_⟩
  have hpos : 0 < efSearch.toNat := by omega
  have hcolumns : query.length = index.vectors.shape.getD 1 0 := by
    rw [hshape]
    exact hdimension
  obtain ⟨descent, outcome, hdescent, hsearch, hfound⟩ :=
    searchIndex_found searchDistance hvalid hcolumns hquery hpos hefSearch hk hkle
  obtain ⟨hentries, hsorted, hnodup, hlength⟩ := hfound.result hvalid (by omega)
  exact ⟨descent, outcome, hdescent, hsearch, fun entry h => ⟨(hentries entry h).2,
    (hentries entry h).1⟩, hsorted, hnodup, hlength⟩

/-- The exact distance of vectors. -/
def exactDistance (a b : List Word) : ℚ :=
  ((a.zip b).map fun pair => (Binary32.toRat pair.1 - Binary32.toRat pair.2) ^ 2).sum

/-- The vectors 0, 10 and 1. -/
def threeVectors : NpyArray :=
  ⟨[3, 1], .float32 [0, 0x41200000, 0x3f800000], rfl⟩

theorem built_index_searched_threeVectors :
    ∃ index, buildHnsw exactDistance (fun _ => 0) threeVectors 1 3 2 = .ok index ∧
      ∃ outcome, index.searchIndex exactDistance [0] 3 3 = .ok outcome ∧
        outcome.1.Pairwise (· < ·) := by
  have hfinite : ∀ value ∈ [0, 0x41200000, 0x3f800000], Binary32.isFinite value = true :=
    List.forall_mem_cons.2 ⟨by decide, List.forall_mem_cons.2
      ⟨by decide, List.forall_mem_singleton.2 (by decide)⟩⟩
  obtain ⟨index, hbuild, hsearch⟩ := @built_index_searched ℚ _ threeVectors
    [0, 0x41200000, 0x3f800000] 3 1 1 3 2 ℚ _ exactDistance exactDistance (fun _ => 0) rfl rfl
    (by decide) (by decide) hfinite (by decide) (by decide) (by decide)
  obtain ⟨-, outcome, -, houtcome, -, hsorted, -⟩ :=
    hsearch [0] 3 3 rfl (List.forall_mem_singleton.2 (by decide)) (by decide) (by decide)
      (by decide)
  exact ⟨index, hbuild, outcome, houtcome, hsorted⟩

end Built

end HnswIndex

end Npunlock
