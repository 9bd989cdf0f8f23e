import Npunlock.HnswKernel
import Npunlock.Overwriting

/-!
# The kernel makes the host's search

On a chunk that holds a query and the vectors of an index, and a graph chunk that holds its links,
the kernel descends as `search_index` does and makes a best-first search of the same graph. Such a
search has one outcome, so the kernel writes the results and the counts of `search_index`
(`hnswSearchChunk_eq`).
-/

namespace Npunlock

/-! ## Loops -/

section Loops

variable {ε ε' α σ τ : Type}

/-- A loop whose rounds take the entries of a list. -/
theorem loop_eq_foldlM {body : ℕ → σ → Except ε σ} {step : σ → α → Except ε σ} :
    ∀ {l : List α} {start : ℕ} (s : σ),
      (∀ i (h : i < l.length) s, body (start + i) s = step s l[i]) →
        loop body start l.length s = l.foldlM step s
  | [], _, _, _ => rfl
  | a :: l, start, s, h => by
    have hfirst : body start s = step s a := h 0 (Nat.zero_lt_succ _) s
    rw [List.length_cons, loop, List.foldlM_cons, hfirst]
    refine congrArg _ (funext fun s' => loop_eq_foldlM s' fun i hi s => ?_)
    rw [show start + 1 + i = start + (i + 1) by omega]
    exact h (i + 1) (Nat.succ_lt_succ hi) s

theorem forRange_eq_foldlM {body : ℕ → σ → Except ε σ} {step : σ → α → Except ε σ} {l : List α}
    {s : σ} (h : ∀ i (h : i < l.length) s, body i s = step s l[i]) :
    forRange 0 l.length s body = l.foldlM step s := by
  refine loop_eq_foldlM s fun i hi s => ?_
  rw [Nat.zero_add]
  exact h i hi s

/-- A fold whose steps end in values. -/
theorem foldlM_eq_ok {step : σ → α → Except ε σ} {step' : σ → α → σ} :
    ∀ {l : List α} {s : σ}, (∀ a ∈ l, ∀ s, step s a = .ok (step' s a)) →
      l.foldlM step s = .ok (l.foldl step' s)
  | [], _, _ => rfl
  | a :: l, s, h => by
    rw [List.foldlM_cons, List.foldl_cons, h a List.mem_cons_self, ok_bind]
    exact foldlM_eq_ok fun b hb => h b (List.mem_cons_of_mem a hb)

/-- Loops whose rounds agree while an invariant holds end alike. -/
theorem whileLoop_agrees {body : σ → Except ε (σ ⊕ τ)} {body' : σ → Except ε' (σ ⊕ τ)}
    {exhausted : ε} {exhausted' : ε'} (Inv : σ → Prop)
    (h : ∀ s, Inv s → ∃ next, body s = .ok next ∧ body' s = .ok next ∧
      ∀ s', next = .inl s' → Inv s') :
    ∀ {bound : ℕ} {s : σ} {t : τ}, Inv s → whileLoop exhausted body bound s = .ok t →
      whileLoop exhausted' body' bound s = .ok t
  | 0, _, _, _, hrun => nomatch hrun
  | bound + 1, s, t, hs, hrun => by
    obtain ⟨next, hnext, hnext', hinv⟩ := h s hs
    unfold whileLoop at hrun ⊢
    rw [hnext, ok_bind] at hrun
    rw [hnext', ok_bind]
    cases next with
    | inl s' => exact whileLoop_agrees Inv h (hinv s' rfl) hrun
    | inr t' =>
      cases hrun
      rfl

end Loops

namespace HnswKernel

theorem inBounds_some {α : Type} (value : α) : inBounds (some value) = .ok value :=
  rfl

/-! ## Distances from the buffers -/

section Distances

variable {math : DistanceArithmetic} {payload query vector : List Word} {start : ℕ}

theorem readFloat4_eq {words : List Word} {lane : ℕ} (h : words <+: payload.drop start)
    (hlane : lane + 4 ≤ words.length) :
    readFloat4 payload (start + lane) = .ok ((words.drop lane).take 4) := by
  obtain ⟨rest, hrest⟩ := h
  have hlength := congrArg List.length hrest
  rw [List.length_append, List.length_drop] at hlength
  rw [readFloat4, if_pos (by omega), ← List.drop_drop, ← hrest,
    List.drop_append_of_le_length (by omega),
    List.take_append_of_le_length (by rw [List.length_drop]; omega)]

theorem readWord_eq {words : List Word} {i : ℕ} (h : words <+: payload.drop start)
    (hi : i < words.length) : readWord payload (start + i) = .ok words[i] := by
  obtain ⟨rest, hrest⟩ := h
  refine readWord_of_getElem? ?_
  rw [← List.getElem?_drop, ← hrest, List.getElem?_append_left hi, List.getElem?_eq_getElem hi]

theorem squares4_eq {candidate index : ℕ} (hquery : query <+: payload.drop start)
    (hvector : vector <+: payload.drop candidate) (hindex : index * 4 + 4 ≤ query.length)
    (hlength : vector.length = query.length) :
    squares4 math payload start candidate index = .ok
      ((((List.zipWith math.sub query vector).map math.square).drop (index * 4)).take 4) := by
  rw [squares4, readFloat4_eq hquery hindex, ok_bind, readFloat4_eq hvector (by omega), ok_bind,
    ← List.map_drop, ← List.map_take, List.drop_zipWith, List.take_zipWith]

/-- The kernel's distance is that of `search_index`. -/
theorem hnswDistance_eq {vectors node : ℕ} (hquery : query <+: payload.drop start)
    (hvector : vector <+: payload.drop (vectors + u32 (node * query.length)))
    (hlength : vector.length = query.length) :
    hnswDistance math payload start vectors query.length node =
      .ok (searchDistance math query vector) := by
  unfold hnswDistance searchDistance
  dsimp only
  generalize vectors + u32 (node * query.length) = candidate at hvector ⊢
  split_ifs with hsixteen
  · have hsquares (index : ℕ) (hindex : index < 4) := @squares4_eq math _ _ _ _ _ _ hquery hvector
      (show index * 4 + 4 ≤ query.length by omega) hlength
    rw [hsquares 0 (by decide), ok_bind, hsquares 1 (by decide), ok_bind, hsquares 2 (by decide),
      ok_bind, hsquares 3 (by decide), ok_bind]
    rfl
  · have hzip : (query.zip vector).length = query.length := by
      rw [List.length_zip, hlength, min_self]
    rw [sequentialDistance, ← foldlM_eq_ok (ε := KernelHalt) fun _ _ _ => rfl]
    rw [← hzip]
    refine forRange_eq_foldlM fun i hi total => ?_
    have hi' : i < query.length := by omega
    rw [readWord_eq hquery hi', ok_bind, readWord_eq hvector (by omega), ok_bind,
      List.getElem_zip]

end Distances

/-! ## Links from the graph -/

/-- The graph chunk holds the links of the index. -/
def HoldsLinks (graph : List Word) (index : HnswIndex) : Prop :=
  ∀ node < index.levels.length, ∀ layer < maxLevels,
    readNat graph (hnswGraphLayer node layer) = .ok (index.layerLinks layer node).length ∧
      ∀ slot (h : slot < (index.layerLinks layer node).length),
        readNat graph (u32 (hnswGraphLayer node layer + 1 + slot)) =
          .ok (index.layerLinks layer node)[slot]

theorem HoldsLinks.forLinks_eq {graph : List Word} {index : HnswIndex} {node layer : ℕ} {σ : Type}
    (h : HoldsLinks graph index) (hnode : node < index.levels.length) (hlayer : layer < maxLevels)
    (state : σ) (body : σ → ℕ → Except KernelHalt σ) :
    forLinks graph node layer state body = (index.layerLinks layer node).foldlM body state := by
  obtain ⟨hcount, hslots⟩ := h node hnode layer hlayer
  unfold forLinks
  dsimp only
  rw [hcount, ok_bind]
  refine forRange_eq_foldlM fun slot hslot state => ?_
  rw [hslots slot hslot, ok_bind]

/-! ## The descent -/

section Descent

variable {index : HnswIndex} {rows layer : ℕ} {graph : List Word} {distance : ℕ → Distance}
  {read : ℕ → Except KernelHalt Distance}

theorem bestOf_eq (hread : ∀ v < rows, read v = .ok (distance v)) :
    ∀ {links : List ℕ} (best : SearchEntry Distance) (count : ℕ), (∀ v ∈ links, v < rows) →
      links.foldlM (fun (state : SearchEntry Distance × ℕ) neighbor => do
        let entry : SearchEntry Distance := toLex (← read neighbor, neighbor)
        .ok (if hnswBetter entry state.1 then entry else state.1, state.2 + 1)) (best, count) =
      .ok (HnswIndex.bestOf distance best links, count + links.length)
  | [], _, _, _ => rfl
  | v :: links, best, count, hlinks => by
    rw [List.forall_mem_cons] at hlinks
    rw [List.foldlM_cons, hread v hlinks.1, ok_bind, ok_bind, bestOf_eq hread _ _ hlinks.2,
      List.length_cons, Nat.add_right_comm, HnswIndex.bestOf, HnswIndex.bestOf, List.foldl_cons]
    simp only [hnswBetter, decide_eq_true_eq]
    rfl

variable (hvalid : index.toHnswFields.Valid rows) (hgraph : HoldsLinks graph index)
  (hread : ∀ v < rows, read v = .ok (distance v))

include hvalid hgraph hread

/-- A step of the kernel's descent is one of the host's. -/
theorem descentStep_eq (hlayer : layer < maxLevels) {descent : HnswIndex.Descent Distance}
    (h : index.IsAt distance layer descent) :
    ∃ next, index.descentRound distance layer descent = .ok next ∧
      descentStep graph read layer descent = .ok next ∧
        ∀ descent', next = .inl descent' → index.IsAt distance layer descent' := by
  obtain ⟨next, hnext, hprogress⟩ := (HnswIndex.descentRound_progress hvalid h).exists_ok
  refine ⟨next, hnext, ?_, ?_⟩
  · obtain ⟨-, v, hcurrent, hat⟩ := h
    have hnode : descent.current.node = v := by
      rw [hcurrent]
      rfl
    obtain ⟨hlinks, hneighbors⟩ := HnswIndex.neighborsOf_eq hat
    rw [HnswIndex.descentRound, hnode, hlinks, ok_bind] at hnext
    rw [descentStep, hnode,
      hgraph.forLinks_eq (by rw [hvalid.length_levels]; exact hat.lt hvalid) hlayer,
      bestOf_eq hread _ _ fun w hw => (hneighbors w hw).2.lt hvalid, ok_bind]
    dsimp only at hnext ⊢
    split_ifs at hnext ⊢
    · exact congrArg Except.ok (Except.ok.inj hnext)
    · exact congrArg Except.ok (Except.ok.inj hnext)
  · rintro descent' rfl
    exact hprogress.1

/-- The kernel descends as the host does. -/
theorem descend_eq (hmaxLevel : index.maxLevel < maxLevels)
    {descent : HnswIndex.Descent Distance} (h : index.descend distance = .ok descent) :
    descend graph read rows index.entryPoint.toNat index.maxLevel.toNat = .ok descent := by
  have hlayers (bound : ℕ) (hbound : bound < maxLevels) : ∀ first : HnswIndex.Descent Distance,
      index.IsAt distance bound first → ((List.range bound).reverse.map (· + 1)).foldlM
        (fun descent layer => whileLoop "greedy descent exceeded its node bound"
          (index.descentRound distance layer) index.levels.length descent) first = .ok descent →
      ((List.range bound).reverse.map (· + 1)).foldlM (fun descent layer =>
        whileLoop KernelHalt.refused (descentStep graph read layer) rows descent) first =
          .ok descent := by
    induction bound with
    | zero => exact fun _ _ hrun => congrArg Except.ok (Except.ok.inj hrun)
    | succ bound ih =>
      intro first hat hrun
      rw [List.range_succ, List.reverse_append, List.reverse_singleton, List.singleton_append,
        List.map_cons, List.foldlM_cons] at hrun ⊢
      obtain ⟨middle, hmiddle, hrun⟩ := bind_eq_ok_iff.1 hrun
      have hmiddleAt : index.IsAt distance (bound + 1) middle := by
        refine (@Meets.whileLoop _ _ _ (fun _ => True) _ _ (index.IsAt distance (bound + 1)) _ _
          (fun descent h => HnswIndex.descentRound_progress hvalid h) _ _ hat ?_).value middle
            hmiddle
        obtain ⟨-, v, hcurrent, hlayer⟩ := hat
        rw [hvalid.length_levels, hcurrent]
        exact HnswIndex.card_nodesBefore_lt_rows distance (hlayer.lt hvalid)
      rw [hvalid.length_levels] at hmiddle
      rw [whileLoop_agrees (index.IsAt distance (bound + 1))
        (fun descent h => descentStep_eq hvalid hgraph hread hbound h) hat hmiddle, ok_bind]
      obtain ⟨hpos, v, hcurrent, hlayer⟩ := hmiddleAt
      exact ih (by omega) middle ⟨hpos, v, hcurrent, hlayer.mono (Nat.le_succ bound)⟩ hrun
  have hentry : index.entryPoint.toNat < rows := by
    have := hvalid.entryPoint
    omega
  rw [descend, hread _ hentry, ok_bind]
  refine hlayers _ (by have := index.maxLevel_nonneg; omega) _ ?_ h
  exact ⟨Nat.one_pos, _, rfl, index.maxLevel, hvalid.entryLevel,
    (Int.toNat_of_nonneg index.maxLevel_nonneg).le⟩

end Descent

/-! ## Visited nodes and heaps of nodes -/

/-- The bits that are set are those of the nodes. -/
def HasBits (visited : List ℕ) (nodes : Finset ℕ) : Prop :=
  visited.length = 2 ∧ ∀ v < 64, (visited.getD (v / 32) 0).testBit (v % 32) = true ↔ v ∈ nodes

theorem hasBits_empty : HasBits [0, 0] ∅ := by
  refine ⟨rfl, fun v hv => ?_⟩
  have hword : ∀ i < 2, ([0, 0] : List ℕ).getD i 0 = 0 := by decide
  rw [hword _ (by omega), Nat.zero_testBit]
  simp only [Bool.false_eq_true, Finset.notMem_empty]

section Bits

variable {visited : List ℕ} {nodes : Finset ℕ} {v : ℕ}

theorem HasBits.word (h : HasBits visited nodes) (hv : v < 64) :
    inBounds visited[v / 32]? = .ok (visited.getD (v / 32) 0) := by
  have hlt : v / 32 < visited.length := by
    rw [h.1]
    omega
  rw [List.getElem?_eq_getElem hlt, List.getD_eq_getElem _ _ hlt]
  rfl

theorem HasBits.isVisited_eq (h : HasBits visited nodes) (hv : v < 64) :
    isVisited visited v = .ok (decide (v ∈ nodes)) := by
  rw [isVisited, h.word hv, ok_bind, Except.ok.injEq, Bool.eq_iff_iff, decide_eq_true_eq, h.2 v hv]

theorem HasBits.markVisited_eq (h : HasBits visited nodes) (hv : v < 64) :
    Returns (markVisited visited v) fun visited' => HasBits visited' (insert v nodes) := by
  have hlt : v / 32 < visited.length := by
    rw [h.1]
    omega
  rw [markVisited, h.word hv, ok_bind]
  refine Meets.ok ⟨by rw [List.length_set, h.1], fun w hw => ?_⟩
  rw [Finset.mem_insert, ← h.2 w hw, List.getD_eq_getElem?_getD, List.getElem?_set, if_pos hlt]
  by_cases hword : v / 32 = w / 32
  · have hbit : v % 32 = w % 32 ↔ w = v := by omega
    rw [if_pos hword, Option.getD_some, hword, Nat.testBit_or, Nat.one_shiftLeft,
      Nat.testBit_two_pow, Bool.or_eq_true, decide_eq_true_eq, hbit, or_comm]
  · have hne : w ≠ v := fun heq => hword (by rw [heq])
    rw [if_neg hword, ← List.getD_eq_getElem?_getD, or_iff_right hne]

end Bits

section Entries

variable {distance : ℕ → Distance} {nodes : Finset ℕ} {v : ℕ}

/-- The entries of some nodes. -/
def entries (distance : ℕ → Distance) (nodes : Finset ℕ) : Multiset (SearchEntry Distance) :=
  nodes.val.map (entryOf distance)

theorem mem_entries {entry : SearchEntry Distance} :
    entry ∈ entries distance nodes ↔ ∃ v ∈ nodes, entryOf distance v = entry :=
  Multiset.mem_map

theorem card_entries : (entries distance nodes).card = nodes.card :=
  Multiset.card_map ..

theorem entries_insert (h : v ∉ nodes) :
    entries distance (insert v nodes) = entryOf distance v ::ₘ entries distance nodes := by
  rw [entries, Finset.insert_val_of_notMem h, Multiset.map_cons, entries]

theorem entries_of_cons {rest : Multiset (SearchEntry Distance)}
    (h : entries distance nodes = entryOf distance v ::ₘ rest) :
    rest = entries distance (nodes.erase v) := by
  rw [entries, Finset.erase_val, Multiset.map_erase _ entryOf_injective, ← entries, h,
    Multiset.erase_cons_head]

variable {heap : EntryHeap (SearchEntry Distance)}

theorem size_eq {before : SearchEntry Distance → SearchEntry Distance → Bool}
    (h : heap.Holds before (entries distance nodes)) : heap.size = nodes.card := by
  rw [← h.card_eq, card_entries]

/-- The first cell of the results is their worst entry. -/
theorem exists_worst (h : heap.Holds hnswWorse (entries distance nodes)) (hne : nodes.Nonempty) :
    ∃ w ∈ nodes, heap.cells[0]? = some (entryOf distance w) ∧
      ∀ v ∈ nodes, entryOf distance v ≤ entryOf distance w := by
  have hsize : 0 < heap.size := by
    rw [size_eq h]
    exact hne.card_pos
  obtain ⟨root, hroot, hmem, hfirst⟩ := h.root isOrdering_hnswWorse hsize
  obtain ⟨w, hw, rfl⟩ := mem_entries.1 hmem
  refine ⟨w, hw, hroot, fun v hv => ?_⟩
  simpa [hnswWorse] using hfirst _ (mem_entries.2 ⟨v, hv, rfl⟩)

theorem candidatePush_eq (h : heap.Holds hnswBetter (entries distance nodes)) (hv : v ∉ nodes)
    (hcapacity : nodes.card < heap.cells.length) :
    ∃ heap', hnswCandidatePush heap (entryOf distance v) = some heap' ∧
      heap'.cells.length = heap.cells.length ∧
        heap'.Holds hnswBetter (entries distance (insert v nodes)) := by
  rw [entries_insert hv]
  exact EntryHeap.push_spec isOrdering_hnswBetter h (by rwa [size_eq h]) _

theorem topPush_eq (h : heap.Holds hnswWorse (entries distance nodes)) (hv : v ∉ nodes)
    (hcapacity : nodes.card < heap.cells.length) :
    ∃ heap', hnswTopPush heap (entryOf distance v) = some heap' ∧
      heap'.cells.length = heap.cells.length ∧
        heap'.Holds hnswWorse (entries distance (insert v nodes)) := by
  rw [entries_insert hv]
  exact EntryHeap.push_spec isOrdering_hnswWorse h (by rwa [size_eq h]) _

theorem topReplace_eq {w : ℕ} (h : heap.Holds hnswWorse (entries distance nodes)) (hv : v ∉ nodes)
    (hroot : heap.cells[0]? = some (entryOf distance w)) (hw : w ∈ nodes) :
    ∃ heap', hnswTopReplace heap (entryOf distance v) = some heap' ∧
      heap'.cells.length = heap.cells.length ∧
        heap'.Holds hnswWorse (entries distance ((insert v nodes).erase w)) := by
  have hsize : 0 < heap.size := by
    rw [size_eq h]
    exact Finset.card_pos.2 ⟨w, hw⟩
  obtain ⟨heap', root, rest, hreplace, hroot', hcontents, -, hlength, hholds⟩ :=
    EntryHeap.replace_spec isOrdering_hnswWorse h hsize (entryOf distance v)
  obtain rfl := Option.some.inj (hroot'.symm.trans hroot)
  refine ⟨heap', hreplace, hlength, ?_⟩
  have hne : v ≠ w := fun heq => hv (heq ▸ hw)
  rwa [Finset.erase_insert_of_ne hne, entries_insert fun hmem => hv (Finset.mem_of_mem_erase hmem),
    ← entries_of_cons hcontents]

/-- The next candidate is the best one. -/
theorem candidatePop_eq (h : heap.Holds hnswBetter (entries distance nodes))
    (hne : nodes.Nonempty) :
    ∃ heap', ∃ c ∈ nodes, hnswCandidatePop heap = some (heap', entryOf distance c) ∧
      (∀ v ∈ nodes, entryOf distance c ≤ entryOf distance v) ∧
        heap'.cells.length = heap.cells.length ∧
          heap'.Holds hnswBetter (entries distance (nodes.erase c)) := by
  have hsize : 0 < heap.size := by
    rw [size_eq h]
    exact hne.card_pos
  obtain ⟨heap', root, rest, hpop, hroot, hcontents, hfirst, hlength, hholds⟩ :=
    EntryHeap.pop_spec isOrdering_hnswBetter h hsize
  obtain ⟨c, hc, rfl⟩ := mem_entries.1 (hcontents ▸ Multiset.mem_cons_self root rest)
  refine ⟨heap', c, hc, ?_, fun v hv => ?_, hlength, ?_⟩
  · rw [hnswCandidatePop, hroot, hpop]
    rfl
  · have hmem : entryOf distance v ∈ entryOf distance c ::ₘ rest := by
      rw [← hcontents]
      exact mem_entries.2 ⟨v, hv, rfl⟩
    rcases Multiset.mem_cons.1 hmem with heq | hmem
    · exact heq.ge
    · simpa [hnswBetter] using hfirst _ hmem
  · rwa [← entries_of_cons hcontents]

end Entries

/-! ## The search -/

/-- The state is a frontier of nodes, with `counted` distances up to the first node. -/
structure Keeps (distance : ℕ → Distance) (counted : ℕ) (state : State)
    (frontier : Frontier ℕ) : Prop where
  visited : HasBits state.visited frontier.visited
  candidates : state.candidates.Holds hnswBetter (entries distance frontier.candidates)
  length_candidates : state.candidates.cells.length = maxNodes
  top : state.top.Holds hnswWorse (entries distance frontier.top)
  length_top : state.top.cells.length = maxEf
  visitedCount_eq : state.visitedCount = frontier.visited.card
  distanceCount_eq : state.distanceCount + 1 = counted + frontier.visited.card
  baseExpansions_eq : state.baseExpansions = frontier.expansions
  candidatePeak_eq : state.candidatePeak = frontier.candidatePeak
  topPeak_eq : state.topPeak = frontier.topPeak

section Search

variable {index : HnswIndex} {rows limit counted v₀ v : ℕ} {graph : List Word}
  {distance : ℕ → Distance} {read : ℕ → Except KernelHalt Distance} {isOpen : ℕ → Prop}
  {state : State} {frontier : Frontier ℕ} (hlimit : 0 < limit)

theorem keepEntry_keeps {links : ℕ → List ℕ} (hmaximum : limit ≤ maxEf)
    (h : Keeps distance counted state frontier)
    (hadmits : (bestFirst links distance hlimit).Admits frontier.top v)
    (hfull : frontier.top.card ≤ limit) (htop : frontier.top.Nonempty)
    (hcandidates : v ∉ frontier.candidates) (hv : v ∉ frontier.top)
    (hcapacity : frontier.candidates.card < maxNodes) :
    Returns (keepEntry limit (entryOf distance v) state) fun state' =>
      Keeps distance counted state' { frontier with
        candidates := insert v frontier.candidates
        top := (bestFirst links distance hlimit).keepBest (insert v frontier.top)
        candidatePeak := max frontier.candidatePeak (insert v frontier.candidates).card
        topPeak := max frontier.topPeak
          ((bestFirst links distance hlimit).keepBest (insert v frontier.top)).card } := by
  obtain ⟨candidates, hpush, hlength, hholds⟩ := candidatePush_eq h.candidates hcandidates
    (by rwa [h.length_candidates])
  have htopHeap : ∃ top, (if state.top.size < limit then hnswTopPush state.top (entryOf distance v)
      else hnswTopReplace state.top (entryOf distance v)) = some top ∧
        top.cells.length = state.top.cells.length ∧ top.Holds hnswWorse (entries distance
          ((bestFirst links distance hlimit).keepBest (insert v frontier.top))) := by
    rw [size_eq h.top]
    split_ifs with hroom
    · have hcut : (insert v frontier.top).card ≤ (bestFirst links distance hlimit).limit := by
        rw [Finset.card_insert_of_notMem hv]
        exact hroom
      rw [BestFirst.keepBest_of_card_le hcut]
      exact topPush_eq h.top hv (by rw [h.length_top]; omega)
    · obtain ⟨w, hw, hroot, hworst⟩ := exists_worst h.top htop
      have hlt : entryOf distance v < entryOf distance w := by
        rcases hadmits with hroom' | ⟨u, hu, hlt⟩
        · exact absurd hroom' hroom
        · exact lt_of_lt_of_le hlt (hworst u hu)
      have hover : (bestFirst links distance hlimit).limit < (insert v frontier.top).card := by
        rw [Finset.card_insert_of_notMem hv]
        change limit < _
        omega
      rw [BestFirst.keepBest_eq_erase hover (Finset.mem_insert_of_mem hw)
        ((Finset.forall_mem_insert ..).2 ⟨hlt.le, hworst⟩)]
      exact topReplace_eq h.top hv hroot hw
  obtain ⟨top, hkept, htopLength, htopHolds⟩ := htopHeap
  unfold keepEntry
  rw [refuseIf_of_not _ (by rw [size_eq h.candidates]; omega), ok_bind, hpush, hkept]
  refine Meets.ok ⟨h.visited, hholds, hlength.trans h.length_candidates, htopHolds,
    htopLength.trans h.length_top, h.visitedCount_eq, h.distanceCount_eq, h.baseExpansions_eq,
    ?_, ?_⟩
  · rw [h.candidatePeak_eq, size_eq hholds]
  · rw [h.topPeak_eq, size_eq htopHolds]

/-- A link is looked at as the best-first search does. -/
theorem visitLink_keeps (hmaximum : limit ≤ maxEf) (hrows : rows ≤ maxNodes)
    (hvalid : index.toHnswFields.Valid rows) (hread : ∀ v < rows, read v = .ok (distance v))
    (hv₀ : index.HasLayer 0 v₀) (h : Keeps distance counted state frontier)
    (hsound : (index.baseSearch distance hlimit).Sound v₀ isOpen frontier) (hv : v < rows) :
    Returns (visitLink read limit state v) fun state' =>
      Keeps distance counted state' ((index.baseSearch distance hlimit).visit frontier v) := by
  have hbit : v < 64 := by
    have : maxNodes = 48 := rfl
    omega
  unfold visitLink BestFirst.visit
  rw [h.visited.isVisited_eq hbit, ok_bind]
  by_cases hmem : v ∈ frontier.visited
  · rw [decide_eq_true hmem, if_pos rfl, if_pos hmem]
    exact Meets.ok h
  rw [decide_eq_false hmem, if_neg Bool.false_ne_true, if_neg hmem, hread v hv]
  refine (h.visited.markVisited_eq hbit).bind fun visited hvisited => ?_
  rw [ok_bind]
  have hcard : (insert v frontier.visited).card = frontier.visited.card + 1 :=
    Finset.card_insert_of_notMem hmem
  have hcount := h.distanceCount_eq
  have hmarked : Keeps distance counted { state with
      visited
      visitedCount := state.visitedCount + 1
      distanceCount := state.distanceCount + 1 }
      { frontier with visited := insert v frontier.visited } :=
    ⟨hvisited, h.candidates, h.length_candidates, h.top, h.length_top,
      by rw [hcard, h.visitedCount_eq], by dsimp only; omega, h.baseExpansions_eq,
      h.candidatePeak_eq, h.topPeak_eq⟩
  have hcandidates : v ∉ frontier.candidates := fun h => hmem (hsound.candidates_subset h)
  have htop : v ∉ frontier.top := fun h => hmem (hsound.top_subset h)
  have hcapacity : frontier.candidates.card < maxNodes := by
    have hsubset : insert v frontier.candidates ⊆ Finset.range rows :=
      (Finset.insert_subset_insert v hsound.candidates_subset).trans
        ((Finset.insert_subset_iff.2 ⟨Finset.mem_range.2 hv, fun w hw => Finset.mem_range.2
          ((HnswIndex.hasLayer_of_reaches hlimit hv₀ (hsound.reaches w hw)).lt hvalid)⟩))
    have hle := Finset.card_le_card hsubset
    rw [Finset.card_insert_of_notMem hcandidates, Finset.card_range] at hle
    omega
  have hfull : frontier.top.card ≤ limit := hsound.card_top.trans_le (min_le_left ..)
  obtain ⟨w, hw, hroot, hworst⟩ := exists_worst h.top hsound.top_nonempty
  have hadmits : (index.baseSearch distance hlimit).Admits frontier.top v ↔
      state.top.size < limit ∨ entryOf distance v < entryOf distance w := by
    rw [size_eq h.top]
    refine or_congr Iff.rfl ⟨?_, fun hlt => ⟨w, hw, hlt⟩⟩
    rintro ⟨u, hu, hlt⟩
    exact lt_of_lt_of_le hlt (hworst u hu)
  have hkeep (hadmitted : (index.baseSearch distance hlimit).Admits frontier.top v) :=
    keepEntry_keeps hlimit hmaximum hmarked hadmitted hfull hsound.top_nonempty hcandidates htop
      hcapacity
  have hworstRead : inBounds state.top.cells[0]? = .ok (entryOf distance w) := by
    rw [hroot]
    rfl
  have hentry : (toLex (distance v, v) : SearchEntry Distance) = entryOf distance v := rfl
  dsimp only at hkeep ⊢
  split_ifs with hroom hif hif
  · exact hkeep hif
  · exact absurd (hadmits.2 (.inl hroom)) hif
  · have hbetter : hnswBetter (entryOf distance v) (entryOf distance w) = true :=
      decide_eq_true ((hadmits.1 hif).resolve_left hroom)
    rw [hworstRead, ok_bind, hentry, hbetter, if_pos rfl]
    exact hkeep hif
  · have hbetter : hnswBetter (entryOf distance v) (entryOf distance w) = false :=
      decide_eq_false fun hlt => hif (hadmits.2 (.inr hlt))
    rw [hworstRead, ok_bind, hentry, hbetter, if_neg Bool.false_ne_true]
    exact Meets.ok hmarked

theorem meetsBound_eq (h : Keeps distance counted state frontier) (c : ℕ)
    (htop : frontier.top.Nonempty) :
    ∃ bounded, meetsBound limit (entryOf distance c) state.top = .ok bounded ∧
      (bounded = true ↔ (index.baseSearch distance hlimit).Bounded frontier c) := by
  obtain ⟨w, hw, hroot, hworst⟩ := exists_worst h.top htop
  have hbounded := @bounded_iff _ _ _ _ (index.layerLinks 0) hlimit frontier c w hw hworst
  unfold meetsBound
  rw [size_eq h.top, hroot]
  split_ifs with hfull
  · exact ⟨_, rfl, by rw [hbounded, hnswWorse, decide_eq_true_eq, and_iff_right hfull]⟩
  · exact ⟨false, rfl, by rw [hbounded]; simp [hfull]⟩

/-- A state of a run of the kernel from a node. -/
def Runs (index : HnswIndex) (distance : ℕ → Distance) {limit : ℕ} (hlimit : 0 < limit)
    (counted v₀ : ℕ) (state : State) : Prop :=
  ∃ frontier, Keeps distance counted state frontier ∧
    (index.baseSearch distance hlimit).Sound v₀ (fun _ => False) frontier ∧
      ∀ t b, (index.baseSearch distance hlimit).Search frontier t b →
        (index.baseSearch distance hlimit).Search (BestFirst.start v₀) t b

/-- A run has ended, by the bound or not. -/
def Ends (index : HnswIndex) (distance : ℕ → Distance) {limit : ℕ} (hlimit : 0 < limit)
    (counted v₀ : ℕ) (outcome : State × Bool) : Prop :=
  ∃ frontier, Keeps distance counted outcome.1 frontier ∧
    (index.baseSearch distance hlimit).Search (BestFirst.start v₀) frontier outcome.2

variable (hmaximum : limit ≤ maxEf) (hrows : rows ≤ maxNodes)
  (hvalid : index.toHnswFields.Valid rows) (hgraph : HoldsLinks graph index)
  (hread : ∀ v < rows, read v = .ok (distance v))

include hmaximum hrows hvalid hgraph hread

theorem searchRound_progress (hv₀ : index.HasLayer 0 v₀)
    (h : Runs index distance hlimit counted v₀ state) :
    Returns (searchRound graph read limit state)
      (Progress (Runs index distance hlimit counted v₀)
        (fun state => (rows - state.visitedCount) + state.candidates.size)
        (Ends index distance hlimit counted v₀) state) := by
  obtain ⟨frontier, hkeeps, hsound, hrun⟩ := h
  unfold searchRound
  rcases frontier.candidates.eq_empty_or_nonempty with hempty | hne
  · rw [if_pos (by rw [size_eq hkeeps.candidates, hempty, Finset.card_empty])]
    exact Meets.ok ⟨frontier, hkeeps, hrun _ _ (.exhausted hempty)⟩
  obtain ⟨candidates, c, hc, hpop, hleast, hlength, hholds⟩ :=
    candidatePop_eq hkeeps.candidates hne
  have hnext : (index.baseSearch distance hlimit).Next frontier c := ⟨hc, hleast⟩
  have hkept : Keeps distance counted { state with candidates }
      { frontier with candidates := frontier.candidates.erase c } :=
    ⟨hkeeps.visited, hholds, hlength.trans hkeeps.length_candidates, hkeeps.top,
      hkeeps.length_top, hkeeps.visitedCount_eq, hkeeps.distanceCount_eq,
      hkeeps.baseExpansions_eq, hkeeps.candidatePeak_eq, hkeeps.topPeak_eq⟩
  have hsize : state.candidates.size ≠ 0 := by
    rw [size_eq hkeeps.candidates]
    exact hne.card_pos.ne'
  have hpopRead : inBounds (hnswCandidatePop state.candidates) =
      .ok (candidates, entryOf distance c) := by
    rw [hpop]
    rfl
  obtain ⟨bounded, hmeets, hbounded⟩ :=
    @meetsBound_eq index limit _ _ _ _ hlimit hkeeps c hsound.top_nonempty
  rw [if_neg hsize, hpopRead, ok_bind]
  dsimp only
  rw [hmeets, ok_bind]
  split_ifs with hbound
  · exact Meets.ok ⟨_, hkept, hrun _ _ (.bounded hnext (hbounded.1 hbound))⟩
  · have hnot : ¬(index.baseSearch distance hlimit).Bounded frontier c := mt hbounded.2 hbound
    have hreaches := hsound.reaches c (hsound.candidates_subset hc)
    have hlayer := HnswIndex.hasLayer_of_reaches hlimit hv₀ hreaches
    have hneighbors := (HnswIndex.neighborsOf_eq hlayer).2
    have hopened : Keeps distance counted
        { state with candidates, baseExpansions := state.baseExpansions + 1 }
        { frontier with
          candidates := frontier.candidates.erase c
          expansions := frontier.expansions + 1 } :=
      ⟨hkept.visited, hkept.candidates, hkept.length_candidates, hkept.top, hkept.length_top,
        hkept.visitedCount_eq, hkept.distanceCount_eq, congrArg (· + 1) hkept.baseExpansions_eq,
        hkept.candidatePeak_eq, hkept.topPeak_eq⟩
    have hnode : (entryOf distance c).node = c := rfl
    rw [hnode, hgraph.forLinks_eq (by rw [hvalid.length_levels]; exact hlayer.lt hvalid)
      (by decide)]
    have hfold : Returns ((index.layerLinks 0 c).foldlM (visitLink read limit)
        { state with candidates, baseExpansions := state.baseExpansions + 1 })
        fun state' => Keeps distance counted state'
            ((index.baseSearch distance hlimit).expand frontier c) ∧
          (index.baseSearch distance hlimit).Sound v₀ (· = c)
            ((index.baseSearch distance hlimit).expand frontier c) := by
      refine Returns.foldlM (fun state frontier => Keeps distance counted state frontier ∧
        (index.baseSearch distance hlimit).Sound v₀ (· = c) frontier)
          (fun v hv state frontier h => ?_) ⟨hopened, hsound.erase c⟩
      exact (visitLink_keeps hlimit hmaximum hrows hvalid hread hv₀ h.1 h.2
        ((hneighbors v hv).2.lt hvalid)).mono fun state' hkeeps =>
          ⟨hkeeps, h.2.visit (hsound.reaches_of_link hc v hv)⟩
    refine hfold.bind fun state' h => Meets.ok ⟨⟨_, h.1, hsound.expand hc, fun t b hsearch =>
      hrun t b (.expanded hnext hnot hsearch)⟩, ?_⟩
    have hinside {frontier : Frontier ℕ} (hsound : ∀ v ∈ frontier.visited,
        (index.baseSearch distance hlimit).Reaches v₀ v) : frontier.visited ⊆ Finset.range rows :=
      fun v hv => Finset.mem_range.2
        ((HnswIndex.hasLayer_of_reaches hlimit hv₀ (hsound v hv)).lt hvalid)
    have hpending : BestFirst.pending (Finset.range rows)
        ((index.baseSearch distance hlimit).expand frontier c) <
          BestFirst.pending (Finset.range rows) frontier := BestFirst.pending_expand
      (fun v hv => Finset.mem_range.2 ((hneighbors v hv).2.lt hvalid)) hc
    unfold BestFirst.pending at hpending
    rw [Finset.card_sdiff_of_subset (hinside hsound.reaches),
      Finset.card_sdiff_of_subset (hinside (hsound.expand hc).reaches), Finset.card_range]
      at hpending
    dsimp only
    rwa [h.1.visitedCount_eq, hkeeps.visitedCount_eq, size_eq h.1.candidates,
      size_eq hkeeps.candidates]

/-- The kernel's search ends within the bound of its loop. -/
theorem returns_search (arrays : Arrays) {descent : HnswIndex.Descent Distance}
    (h : index.IsAt distance 0 descent) :
    Returns (firstState arrays descent >>= fun state =>
        whileLoop .outOfBounds (searchRound graph read limit) (rows + 1) state)
      (Ends index distance hlimit descent.distanceCount descent.current.node) := by
  obtain ⟨-, v, hcurrent, hlayer⟩ := h
  have hnode : descent.current.node = v := by
    rw [hcurrent]
    rfl
  have hv : v < rows := hlayer.lt hvalid
  have hbit : v < 64 := by
    have : maxNodes = 48 := rfl
    omega
  obtain ⟨visited, hmark, hbits⟩ := (hasBits_empty.markVisited_eq hbit).exists_ok
  obtain ⟨candidates, hcandidates, hlengthCandidates, hholdsCandidates⟩ :=
    @candidatePush_eq distance ∅ v _ (EntryHeap.holds_empty arrays.candidates)
      (Finset.notMem_empty v) (by rw [arrays.length_candidates]; decide)
  obtain ⟨top, htop, hlengthTop, hholdsTop⟩ :=
    @topPush_eq distance ∅ v _ (EntryHeap.holds_empty arrays.top) (Finset.notMem_empty v)
      (by rw [arrays.length_top]; decide)
  unfold firstState
  rw [hnode, hcurrent, hmark, ok_bind, hcandidates, htop]
  have hruns : Runs index distance hlimit descent.distanceCount v
      { visited, candidates, top
        visitedCount := 1
        distanceCount := descent.distanceCount
        baseExpansions := 0
        candidatePeak := 1
        topPeak := 1 } := by
    refine ⟨BestFirst.start v, ⟨hbits, hholdsCandidates, ?_, hholdsTop, ?_, rfl, rfl, rfl, rfl,
      rfl⟩, .start v, fun _ _ h => h⟩
    · exact hlengthCandidates.trans arrays.length_candidates
    · exact hlengthTop.trans arrays.length_top
  refine Meets.whileLoop (Runs index distance hlimit descent.distanceCount v) _
    (fun state h => searchRound_progress hlimit hmaximum hrows hvalid hgraph hread hlayer h)
      hruns ?_
  have hsize := size_eq hholdsCandidates
  rw [show (insert v ∅ : Finset ℕ) = {v} from rfl, Finset.card_singleton] at hsize
  dsimp only
  omega

end Search

/-! ## The records -/

section Records

variable {heap : EntryHeap (SearchEntry Distance)} {results : List (SearchEntry Distance)}
  {entry : SearchEntry Distance} {output : List Word}

/-- The words of a result. -/
def resultWords (entry : SearchEntry Distance) : List Word :=
  [UInt32.ofNat entry.node, (ofLex entry).1.word]

theorem length_flatMap_resultWords :
    (results.flatMap resultWords).length = results.length * 2 := by
  have hwidth : (fun entry => (resultWords entry).length) = fun _ => 2 := rfl
  rw [List.length_flatMap, hwidth, List.map_const', List.sum_replicate_nat]

/-- The worst of the results leaves first. -/
theorem topPop_eq (h : heap.Holds hnswWorse ((results ++ [entry] : List _) : Multiset _))
    (hsorted : (results ++ [entry]).Pairwise (· < ·)) :
    heap.cells[0]? = some entry ∧
      ∃ heap', hnswTopPop heap = some heap' ∧ heap'.Holds hnswWorse (results : Multiset _) := by
  have hsize : 0 < heap.size := by
    rw [← h.card_eq, Multiset.coe_card, List.length_append]
    exact Nat.succ_pos _
  obtain ⟨heap', root, rest, hpop, hroot, hcontents, hworst, -, hholds⟩ :=
    EntryHeap.pop_spec isOrdering_hnswWorse h hsize
  have heq : root = entry := by
    have hroot : root ∈ results ++ [entry] := by
      rw [← Multiset.mem_coe, hcontents]
      exact Multiset.mem_cons_self root rest
    have hentry : entry ∈ root ::ₘ rest := by
      rw [← hcontents]
      exact Multiset.mem_coe.2 (List.mem_append_right _ (List.mem_singleton_self entry))
    rcases Multiset.mem_cons.1 hentry with heq | hmem
    · exact heq.symm
    · have hle : entry ≤ root := by simpa [hnswWorse] using hworst entry hmem
      rcases List.mem_append.1 hroot with hmem | hmem
      · have hlt := (List.pairwise_append.1 hsorted).2.2 root hmem entry
          (List.mem_singleton_self entry)
        exact absurd hle (not_le.2 hlt)
      · exact List.mem_singleton.1 hmem
  subst heq
  refine ⟨hroot, heap', hpop, ?_⟩
  have hrest : root ::ₘ rest = root ::ₘ (results : Multiset _) := by
    rw [← hcontents, Multiset.cons_coe, Multiset.coe_eq_coe]
    exact List.perm_append_singleton _ _
  rwa [← (Multiset.cons_inj_right root).1 hrest]

/-- The worst results leave until no more than `resultCount` are left. -/
theorem returns_cut {resultCount : ℕ} (hcount : resultCount ≤ results.length)
    (h : heap.Holds hnswWorse (results : Multiset _)) (hsorted : results.Pairwise (· < ·)) :
    Returns (whileLoop KernelHalt.outOfBounds (fun top =>
      if resultCount < top.size then do
        let top ← inBounds (hnswTopPop top)
        .ok (.inl top)
      else .ok (.inr top)) (heap.size + 1) heap)
      fun top => top.Holds hnswWorse (results.take resultCount : Multiset _) := by
  refine Meets.whileLoop (fun top => ∃ n, resultCount ≤ n ∧ n ≤ results.length ∧
    top.Holds hnswWorse (results.take n : Multiset _)) EntryHeap.size ?_
      ⟨results.length, hcount, le_rfl, by rwa [List.take_length]⟩ (Nat.lt_succ_self _)
  rintro top ⟨n, hle, hlength, hholds⟩
  have hsize : top.size = n := by
    rw [← hholds.card_eq, Multiset.coe_card, List.length_take_of_le hlength]
  split_ifs with hmore
  · obtain ⟨m, rfl⟩ : ∃ m, n = m + 1 := Nat.exists_eq_succ_of_ne_zero (by omega)
    have htake : results.take (m + 1) = results.take m ++ [results[m]] :=
      List.take_succ_eq_append_getElem hlength
    have hsublist : (results.take m ++ [results[m]]).Pairwise (· < ·) := by
      rw [← htake]
      exact hsorted.sublist (List.take_sublist ..)
    rw [htake] at hholds
    obtain ⟨-, top', hpop, hholds'⟩ := topPop_eq hholds hsublist
    rw [hpop]
    refine Meets.ok ⟨⟨m, by omega, by omega, hholds'⟩, ?_⟩
    have hsize' : top'.size = m := by
      rw [← hholds'.card_eq, Multiset.coe_card, List.length_take_of_le (by omega)]
    omega
  · obtain rfl : n = resultCount := by omega
    exact Meets.ok hholds

/-- The records are written from the last on, and the first stands first. -/
theorem writeRecords_eq (h : heap.Holds hnswWorse (results : Multiset _))
    (hsorted : results.Pairwise (· < ·)) (output : List Word)
    (houtput : outputHeader + results.length * 2 ≤ output.length) :
    writeRecords results.length heap output =
      .ok (overwrite output outputHeader (results.flatMap resultWords)) := by
  have hloop : ∃ heap', (List.range results.length).reverse.foldlM
      (fun (state : EntryHeap (SearchEntry Distance) × List Word) index => do
        let worst ← inBounds state.1.cells[0]?
        let output ← writeWords state.2 (outputHeader + index * 2)
          [UInt32.ofNat worst.node, (ofLex worst).1.word]
        let top ← inBounds (hnswTopPop state.1)
        .ok (top, output)) (heap, output) =
      .ok (heap', overwrite output outputHeader (results.flatMap resultWords)) := by
    induction results using List.reverseRecOn generalizing heap output with
    | nil => exact ⟨heap, by rw [List.flatMap_nil, overwrite_nil]; rfl⟩
    | append_singleton results entry ih =>
      obtain ⟨hroot, heap', hpop, hholds⟩ := topPop_eq h hsorted
      rw [List.length_append, List.length_singleton] at houtput ⊢
      have hinside : outputHeader + results.length * 2 + (resultWords entry).length ≤
          output.length := by
        change _ + 2 ≤ _
        omega
      have hwrite := writeWords_eq (resultWords entry) hinside
      obtain ⟨last, hlast⟩ := ih hholds ((List.pairwise_append.1 hsorted).1)
        (overwrite output (outputHeader + results.length * 2) (resultWords entry))
        (by rw [length_overwrite hinside]; omega)
      refine ⟨last, ?_⟩
      rw [List.range_succ, List.reverse_append, List.reverse_singleton, List.singleton_append,
        List.foldlM_cons, hroot, inBounds_some, ok_bind, ← resultWords, hwrite, ok_bind, hpop,
        inBounds_some, ok_bind, ok_bind, hlast, ← length_flatMap_resultWords,
        overwrite_before (by rw [length_flatMap_resultWords]; exact hinside),
        List.flatMap_append, List.flatMap_singleton]
  obtain ⟨heap', hrun⟩ := hloop
  rw [writeRecords, hrun]
  rfl

/-- The words of an output chunk. -/
def outputWords (header : Header) (efSearch resultCount : ℕ) (counters : List ℕ)
    (results : List (SearchEntry Distance)) : List Word :=
  ([outputMagic, 0, header.nodeCount, header.dimensions, header.entryPoint, header.maxLevel,
    efSearch, resultCount] ++ counters ++ [resultCount]).map UInt32.ofNat ++
      results.flatMap resultWords ++ List.replicate ((maxK - resultCount) * 2) 0

theorem writeResults_eq {header : Header} {efSearch resultCount upperHops : ℕ}
    {outcome : State × Bool} (h : outcome.1.top.Holds hnswWorse (results : Multiset _))
    (hsorted : results.Pairwise (· < ·)) (hcount : resultCount ≤ results.length)
    (hmaximum : resultCount ≤ maxK) (houtput : output.length = chunkElements) :
    writeResults header efSearch resultCount upperHops outcome output =
      .ok (outputWords header efSearch resultCount (counterWords upperHops outcome)
        (results.take resultCount) ++ output.drop outputElements) := by
  have hchunk : chunkElements = 1024 := rfl
  have helements : outputElements = 48 := rfl
  have hk : maxK = 16 := rfl
  have hsize : outcome.1.top.size = results.length := by
    rw [← h.card_eq, Multiset.coe_card]
  obtain ⟨top, hcut, hholds⟩ := (returns_cut hcount h hsorted).exists_ok
  have hlength : (results.take resultCount).length = resultCount := List.length_take_of_le hcount
  generalize hwords : ([outputMagic, 0, header.nodeCount, header.dimensions, header.entryPoint,
    header.maxLevel, efSearch, resultCount] ++ counterWords upperHops outcome ++
      [resultCount]).map UInt32.ofNat = words
  have hheader : words.length = outputHeader := by
    rw [← hwords]
    rfl
  have hsixteen : outputHeader = 16 := rfl
  have hmiddle : ((results.take resultCount).flatMap resultWords).length = resultCount * 2 := by
    rw [length_flatMap_resultWords, hlength]
  have hend : (List.replicate ((maxK - resultCount) * 2) (0 : Word)).length =
      (maxK - resultCount) * 2 := List.length_replicate
  have hinside : outputHeader + resultCount * 2 +
      (List.replicate ((maxK - resultCount) * 2) (0 : Word)).length ≤ output.length := by
    omega
  have hcleared := length_overwrite hinside
  have hheaderInside : 0 + words.length ≤ (overwrite output (outputHeader + resultCount * 2)
      (List.replicate ((maxK - resultCount) * 2) 0)).length := by
    omega
  have hrecords := writeRecords_eq hholds (hsorted.sublist (List.take_sublist ..))
    (overwrite (overwrite output (outputHeader + resultCount * 2)
      (List.replicate ((maxK - resultCount) * 2) 0)) 0 words)
    (by rw [length_overwrite hheaderInside, hlength]; omega)
  have hparts := overwrite_parts output words ((results.take resultCount).flatMap resultWords)
    (List.replicate ((maxK - resultCount) * 2) 0) (by omega)
  rw [hlength] at hrecords
  rw [hmiddle, hheader, hend] at hparts
  rw [writeResults, if_neg (by omega), clear_eq_overwrite (by omega) (by omega), ok_bind,
    show outputElements - (outputHeader + resultCount * 2) = (maxK - resultCount) * 2 by omega,
    hwords, writeWords_eq words hheaderInside, ok_bind, hcut, ok_bind, hrecords, hparts,
    outputWords, hwords,
    show outputHeader + resultCount * 2 + (maxK - resultCount) * 2 = outputElements by omega]

/-- The words of a failure. -/
def failureWords (status : Status) : List Word :=
  [UInt32.ofNat outputMagic, UInt32.ofNat status.toNat] ++ List.replicate (outputElements - 2) 0

theorem hnswWriteFailure_eq (status : Status) (houtput : output.length = chunkElements) :
    hnswWriteFailure status output = .ok (failureWords status ++ output.drop outputElements) := by
  have hchunk : chunkElements = 1024 := rfl
  have helements : outputElements = 48 := rfl
  have hinside : 0 + (List.replicate (outputElements - 0) (0 : Word)).length ≤ output.length := by
    rw [List.length_replicate]
    omega
  rw [hnswWriteFailure, clear_eq_overwrite (Nat.zero_le _) (by omega), ok_bind,
    writeWords_eq _
      (by rw [length_overwrite hinside, List.length_cons, List.length_singleton]; omega)]
  refine congrArg Except.ok ?_
  simp only [overwrite, List.take_zero, List.nil_append, Nat.zero_add, List.length_replicate,
    Nat.sub_zero, List.length_cons, List.length_nil, failureWords, List.append_assoc]
  rw [List.drop_append_of_le_length (by rw [List.length_replicate]; decide), List.drop_replicate]

end Records

/-! ## A chunk -/

/-- The chunks hold a query and the index. -/
structure HoldsChunk (index : HnswIndex) (rows : ℕ) (query queryPayload queryWords
    graph : List Word) : Prop where
  nodeCount : readNat queryWords 2 = .ok rows
  dimensions : readNat queryWords 3 = .ok query.length
  entryPoint : readNat queryWords 4 = .ok index.entryPoint.toNat
  maxLevel : readNat queryWords 5 = .ok index.maxLevel.toNat
  queryAt : query <+: queryPayload.drop queryHeader
  vector : ∀ v < rows, (HnswIndex.matrixRow index.vectors v).length = query.length ∧
    HnswIndex.matrixRow index.vectors v <+:
      queryPayload.drop (queryHeader + query.length + u32 (v * query.length))
  links : HoldsLinks graph index

/-- The counters of `SearchStats`, in their order in the output. -/
def statsCounters (stats : HnswIndex.SearchStats) : List ℕ :=
  [stats.visitedCount, stats.distanceCount, stats.upperHops, stats.baseExpansions,
    stats.terminatedByBound.toNat, stats.candidatePeak, stats.topPeak]

/-- The first words that the kernel writes to a chunk, as `search_index` has it. -/
def chunkWords (header : Header) (efSearch resultCount : ℕ)
    (outcome : List (SearchEntry Distance) × HnswIndex.SearchStats) : List Word :=
  if outcome.1.length < resultCount then failureWords .badSearch
  else outputWords header efSearch resultCount (statsCounters outcome.2) outcome.1

section Chunk

variable {index : HnswIndex} {rows : ℕ} {query queryPayload queryWords graph output : List Word}
  (math : DistanceArithmetic)

/-- The kernel writes the results and the counts of `search_index`, or that they are too few. -/
theorem hnswSearchChunk_eq (arrays : Arrays) {k efSearch : ℤ}
    (hvalid : index.toHnswFields.Valid rows) (hrows : rows ≤ maxNodes)
    (hmaxLevel : index.maxLevel < maxLevels)
    (hchunk : HoldsChunk index rows query queryPayload queryWords graph)
    (hdimension : query.length = index.vectors.shape.getD 1 0)
    (hfinite : ∀ value ∈ query, Binary32.isFinite value = true)
    (hefSearch : efSearch ≤ rows) (hmaxEf : efSearch ≤ maxEf) (hk : 0 < k) (hkle : k ≤ efSearch)
    (hmaxK : k ≤ maxK) (houtput : output.length = chunkElements) :
    ∃ outcome, index.searchIndex (searchDistance math) query k efSearch = .ok outcome ∧
      hnswSearchChunk math arrays queryPayload queryWords graph efSearch.toNat k.toNat output =
        .ok (chunkWords ⟨rows, query.length, index.entryPoint.toNat, index.maxLevel.toNat⟩
          efSearch.toNat k.toNat outcome ++ output.drop outputElements) := by
  have hpos : 0 < efSearch.toNat := by omega
  obtain ⟨descent, outcome, hdescent, hsearch, hat, frontier, top, hfrontier, htop, hresults,
    hstats⟩ := HnswIndex.searchIndex_found (searchDistance math) hvalid hdimension hfinite hpos
      hefSearch hk hkle
  refine ⟨outcome, hsearch, ?_⟩
  have hread : ∀ v < rows, hnswDistance math queryPayload queryHeader
      (queryHeader + query.length) query.length v =
        .ok (searchDistance math query (HnswIndex.matrixRow index.vectors v)) := fun v hv =>
    hnswDistance_eq hchunk.queryAt (hchunk.vector v hv).2 (hchunk.vector v hv).1
  obtain ⟨kernel, hkernel, frontier', hkeeps, hfrontier'⟩ := (returns_search hpos
    (by omega) hrows hvalid hchunk.links hread arrays hat).exists_ok
  obtain ⟨first, hfirst, hloop⟩ := bind_eq_ok_iff.1 hkernel
  obtain ⟨rfl, hbounded⟩ := hfrontier.unique hfrontier'
  have hperm : (sortedBy id top).Perm top := perm_sortedBy
  have hholds : kernel.1.top.Holds hnswWorse (sortedBy id top : Multiset _) := by
    rw [Multiset.coe_eq_coe.2 hperm, htop]
    exact hkeeps.top
  have hsorted : (sortedBy id top).Pairwise (· < ·) :=
    strict_sortedBy Function.injective_id htop.nodup
  have hcounters : counterWords descent.upperHops kernel = statsCounters outcome.2 := by
    have hcounted := hkeeps.distanceCount_eq
    rw [counterWords, statsCounters, hstats, ← hbounded, hkeeps.visitedCount_eq,
      hkeeps.baseExpansions_eq, hkeeps.candidatePeak_eq, hkeeps.topPeak_eq]
    simp only [List.cons.injEq, true_and, and_true]
    omega
  rw [hnswSearchChunk, hchunk.nodeCount, ok_bind, hchunk.dimensions, ok_bind, hchunk.entryPoint,
    ok_bind, hchunk.maxLevel, ok_bind]
  dsimp only
  rw [descend_eq hvalid hchunk.links hread hmaxLevel hdescent]
  dsimp only [ifRefused]
  rw [hfirst, ok_bind, hloop]
  dsimp only
  have hsize : kernel.1.top.size = (sortedBy id top).length := by
    rw [← hholds.card_eq, Multiset.coe_card]
  unfold chunkWords
  rw [hresults]
  split_ifs with hfew
  · rw [List.length_take] at hfew
    rw [writeResults, if_pos (by omega), hnswWriteFailure_eq _ houtput]
  · rw [List.length_take] at hfew
    rw [writeResults_eq hholds hsorted (by omega) (by omega) houtput, hcounters]

end Chunk

end HnswKernel

end Npunlock
