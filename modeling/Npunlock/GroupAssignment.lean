import Mathlib.Data.List.Flatten
import Npunlock.Backtracking
import Npunlock.Bindings
import Npunlock.Counting

/-!
# Automatic group assignment

`_automatic_group_indices` assigns the discovered ACT groups to the custom nodes. With as
many groups as computational nodes the assignment is by position. Otherwise it searches
for the ways to cut the groups into runs, one for each computational node in order
(`IsSegmentation`), and gives an assignment if there is one way.

`automaticGroupIndices_spec` : the assignment is sound and complete in both cases, its
groups increase from node to node, and `_resolve_bindings` accepts it.
-/

namespace Npunlock

/-- The nodes that are neither parameters nor constants. -/
def Graph.computationalNodes (graph : Graph) : List NodeId :=
  graph.nodes.filter fun id =>
    (graph.heap.node id).op ≠ "Parameter" ∧ (graph.heap.node id).op ≠ "Const"

/-- The reason that goes with an automatic assignment or with its absence. -/
inductive MappingReason
  | positional
  | incompatible (index : ℕ) (label : String) (reason : TargetsMismatch)
  | unique
  | notUnique (groups nodes : ℕ) (found : Bool)
  deriving DecidableEq

/-- The text of the reason, with the text `repr` gives for a name. -/
def MappingReason.text (repr : String → String) : MappingReason → String
  | .positional => "one-to-one positional mapping"
  | .incompatible index label reason =>
    "discovered ACT group " ++ toString index ++ " for custom node " ++ repr label ++
      " is incompatible: " ++ reason.text
  | .unique => "unique validated multi-group mapping"
  | .notUnique groups nodes found =>
    "native graph has " ++ toString groups ++ " positional ACT groups for " ++ toString nodes ++
      " computational nodes and " ++ (if found then "multiple" else "no") ++ " valid mapping; " ++
      "automatic selection requires a one-to-one positional mapping or one unique " ++
      "validated multi-group mapping"

section Assignment

variable (graph : Graph) (groups : List GroupTargets)

/-- The groups may belong to the node. -/
def acceptsRun (id : NodeId) : List GroupTargets → Bool
  | [] => false
  | [targets] => targets ≠ [] ∧
    (id ∈ graph.customNodes → customTargetsMismatch (graph.heap.node id) targets false = none)
  | run => (combinedTargets (graph.heap.node id) run).isSome

/-- How many groups the node may take from `groupIndex` on, when the nodes `rest` follow. -/
def groupTakes (id : NodeId) (rest : List NodeId) (groupIndex : ℕ) : List ℕ :=
  let maximumTake := groups.length - groupIndex - rest.length
  if maximumTake < 1 then []
  else
    (if id ∈ graph.customNodes then List.range' 1 maximumTake else [1]).filter fun take =>
      acceptsRun graph id ((groups.drop groupIndex).take take)

/-- The takes of the ways to cut the groups that the search finds. It stops at two. -/
def findTakes : List (List ℕ) :=
  search (groupTakes graph groups) (· + ·) (fun groupIndex => groupIndex = groups.length)
    (fun solutions => decide (2 ≤ solutions.length)) (fun solutions takes => solutions ++ [takes])
    graph.computationalNodes 0 [] []

/-- The consecutive ranges of indices with the given lengths. -/
def takeRanges : ℕ → List ℕ → List (List ℕ)
  | _, [] => []
  | start, take :: takes => List.range' start take :: takeRanges (start + take) takes

/-- The ranges of the custom nodes. -/
def customRanges (takes : List ℕ) : List (List ℕ) :=
  ((graph.computationalNodes.zip (takeRanges 0 takes)).filter fun entry =>
    entry.1 ∈ graph.customNodes).map Prod.snd

/-- The group at the position of each custom node among the computational nodes. -/
def positionalIndices : List (List ℕ) :=
  graph.customNodes.map fun id => [graph.computationalNodes.idxOf id]

/-- The first custom node that the group at its position does not fit. -/
def positionalMismatch : Option MappingReason :=
  graph.customNodes.findSome? fun id =>
    let index := graph.computationalNodes.idxOf id
    (customTargetsMismatch (graph.heap.node id) (groups.getD index []) false).map
      (MappingReason.incompatible index (graph.heap.node id).label)

/-- `_automatic_group_indices`. -/
def automaticGroupIndices : Option (List (List ℕ)) × MappingReason :=
  if groups.length = graph.computationalNodes.length then
    match positionalMismatch graph groups with
    | some reason => (none, reason)
    | none => (some (positionalIndices graph), .positional)
  else
    match findTakes graph groups with
    | [takes] => (some (customRanges graph takes), .unique)
    | solutions =>
      (none, .notUnique groups.length graph.computationalNodes.length (decide (solutions ≠ [])))

end Assignment

/-! ## Ways to cut the groups -/

/-- A run of groups that the node may take : a custom node takes one group that fits it or
several that combine, any other node takes one group. -/
def TakesRun (graph : Graph) (id : NodeId) (run : List GroupTargets) : Prop :=
  if id ∈ graph.customNodes then
    (∃ targets, run = [targets] ∧
      customTargetsMismatch (graph.heap.node id) targets false = none) ∨
        2 ≤ run.length ∧ (combinedTargets (graph.heap.node id) run).isSome
  else run.length = 1

/-- A way to cut the groups into consecutive runs, one for each computational node. -/
structure IsSegmentation (graph : Graph) (groups : List GroupTargets)
    (runs : List (List GroupTargets)) : Prop where
  flatten_eq : runs.flatten = groups
  takes_run : List.Forall₂ (TakesRun graph) graph.computationalNodes runs

/-- The group indices that a segmentation gives the custom nodes. -/
def runAssignment (graph : Graph) (runs : List (List GroupTargets)) : List (List ℕ) :=
  customRanges graph (runs.map List.length)

section Search

variable {graph : Graph} {groups : List GroupTargets}

theorem TakesRun.length_pos {id : NodeId} {run : List GroupTargets} (h : TakesRun graph id run) :
    1 ≤ run.length := by
  rw [TakesRun] at h
  split_ifs at h with hcustom
  · rcases h with ⟨targets, rfl, -⟩ | ⟨hlength, -⟩
    · simp
    · omega
  · exact h.ge

theorem length_le_flatten {nodes : List NodeId} {runs : List (List GroupTargets)}
    (h : List.Forall₂ (TakesRun graph) nodes runs) : nodes.length ≤ runs.flatten.length := by
  induction h with
  | nil => simp
  | cons hrun _ ih =>
    have hpos := hrun.length_pos
    rw [List.flatten_cons, List.length_append, List.length_cons]
    omega

/-- On nonempty groups the check of the loop is what a run must meet. -/
theorem acceptsRun_iff (hgroups : ∀ targets ∈ groups, targets ≠ []) {id : NodeId}
    {run : List GroupTargets} (hrun : ∀ targets ∈ run, targets ∈ groups)
    (hlength : id ∉ graph.customNodes → run.length = 1) :
    acceptsRun graph id run = true ↔ TakesRun graph id run := by
  rw [TakesRun]
  match run with
  | [] =>
    by_cases hcustom : id ∈ graph.customNodes
    · simp [acceptsRun, hcustom]
    · simp [acceptsRun, hcustom]
  | [targets] =>
    have hne : targets ≠ [] := hgroups targets (hrun targets (by simp))
    by_cases hcustom : id ∈ graph.customNodes
    · simp [acceptsRun, hcustom, hne]
    · simp [acceptsRun, hcustom, hne]
  | first :: second :: rest =>
    have hcustom : id ∈ graph.customNodes := by
      by_contra hnot
      simpa using hlength hnot
    simp [acceptsRun, hcustom]

theorem mem_groupTakes_iff (hgroups : ∀ targets ∈ groups, targets ≠ []) {id : NodeId}
    {rest : List NodeId} {groupIndex take : ℕ} (hindex : groupIndex ≤ groups.length) :
    take ∈ groupTakes graph groups id rest groupIndex ↔
      groupIndex + take + rest.length ≤ groups.length ∧ 1 ≤ take ∧
        TakesRun graph id ((groups.drop groupIndex).take take) := by
  have hmem : ∀ targets ∈ (groups.drop groupIndex).take take, targets ∈ groups := fun _ h =>
    List.mem_of_mem_drop (List.mem_of_mem_take h)
  unfold groupTakes
  dsimp only
  by_cases hroom : groups.length - groupIndex - rest.length < 1
  · rw [if_pos hroom]
    refine iff_of_false List.not_mem_nil fun h => ?_
    omega
  rw [if_neg hroom, List.mem_filter]
  by_cases hcustom : id ∈ graph.customNodes
  · rw [if_pos hcustom, List.mem_range'_1,
      acceptsRun_iff hgroups hmem fun hnot => absurd hcustom hnot]
    constructor
    · rintro ⟨hrange, htakes⟩
      exact ⟨by omega, hrange.1, htakes⟩
    · rintro ⟨hle, hpos, htakes⟩
      exact ⟨by omega, htakes⟩
  · rw [if_neg hcustom, List.mem_singleton]
    have hone : TakesRun graph id ((groups.drop groupIndex).take take) ↔
        ((groups.drop groupIndex).take take).length = 1 := by
      rw [TakesRun, if_neg hcustom]
    constructor
    · rintro ⟨rfl, haccepts⟩
      have hlength : ((groups.drop groupIndex).take 1).length = 1 := by
        rw [List.length_take, List.length_drop]
        omega
      exact ⟨by omega, le_rfl, hone.2 hlength⟩
    · rintro ⟨hle, hpos, htakes⟩
      have hlength := hone.1 htakes
      have htake : take = 1 := by
        rw [List.length_take, List.length_drop] at hlength
        omega
      exact ⟨htake, (acceptsRun_iff hgroups hmem fun _ => hlength).2 htakes⟩

/-- The search completes the cut of the first `groupIndex` groups : the takes it adds are
the lengths of runs of the remaining groups. -/
theorem isCompletion_takes_iff (hgroups : ∀ targets ∈ groups, targets ≠ []) :
    ∀ {nodes : List NodeId} {groupIndex : ℕ} {takes : List ℕ}, groupIndex ≤ groups.length →
      (IsCompletion (groupTakes graph groups) (· + ·)
          (fun groupIndex => decide (groupIndex = groups.length)) nodes groupIndex takes ↔
        ∃ runs : List (List GroupTargets), runs.map List.length = takes ∧
          runs.flatten = groups.drop groupIndex ∧ List.Forall₂ (TakesRun graph) nodes runs)
  | [], groupIndex, [], hindex => by
    rw [IsCompletion, decide_eq_true_eq]
    constructor
    · rintro rfl
      exact ⟨[], rfl, by simp, .nil⟩
    · rintro ⟨runs, -, hflatten, hruns⟩
      obtain rfl := List.forall₂_nil_left_iff.1 hruns
      have hdrop : groups.length - groupIndex = 0 := by
        rw [← List.length_drop, ← hflatten, List.flatten_nil, List.length_nil]
      omega
  | [], groupIndex, take :: takes, hindex => by
    rw [IsCompletion, false_iff]
    rintro ⟨runs, hlengths, -, hruns⟩
    obtain rfl := List.forall₂_nil_left_iff.1 hruns
    simp at hlengths
  | id :: nodes, groupIndex, [], hindex => by
    rw [IsCompletion, false_iff]
    rintro ⟨runs, hlengths, -, hruns⟩
    obtain rfl := List.map_eq_nil_iff.1 hlengths
    simp at hruns
  | id :: nodes, groupIndex, take :: takes, hindex => by
    rw [IsCompletion, mem_groupTakes_iff hgroups hindex]
    constructor
    · rintro ⟨⟨hle, hpos, htakes⟩, hrest⟩
      obtain ⟨runs, hlengths, hflatten, hruns⟩ :=
        (isCompletion_takes_iff hgroups (by omega)).1 hrest
      refine ⟨(groups.drop groupIndex).take take :: runs, ?_, ?_, .cons htakes hruns⟩
      · rw [List.map_cons, hlengths, List.length_take, List.length_drop]
        congr 1
        omega
      · rw [List.flatten_cons, hflatten, ← List.drop_drop, List.take_append_drop]
    · rintro ⟨runs, hlengths, hflatten, hruns⟩
      obtain ⟨run, runs', htakes, hruns', rfl⟩ := List.forall₂_cons_left_iff.1 hruns
      obtain ⟨rfl, hlengths'⟩ := List.cons.inj hlengths
      have hrun : (groups.drop groupIndex).take run.length = run := by
        rw [← hflatten, List.flatten_cons, List.take_left]
      have hrest : runs'.flatten = groups.drop (groupIndex + run.length) := by
        rw [← List.drop_drop, ← hflatten, List.flatten_cons, List.drop_left]
      have hsum := congrArg List.length hflatten
      rw [List.flatten_cons, List.length_append, List.length_drop] at hsum
      have hnodes := length_le_flatten hruns'
      refine ⟨⟨by omega, htakes.length_pos, by rwa [hrun]⟩, ?_⟩
      exact (isCompletion_takes_iff hgroups (by omega)).2 ⟨runs', hlengths', hrest, hruns'⟩

/-- The takes of every segmentation. -/
def segmentationTakes (graph : Graph) (groups : List GroupTargets) : List (List ℕ) :=
  completions (groupTakes graph groups) (· + ·)
    (fun groupIndex => decide (groupIndex = groups.length)) graph.computationalNodes 0

theorem mem_segmentationTakes_iff (hgroups : ∀ targets ∈ groups, targets ≠ []) {takes : List ℕ} :
    takes ∈ segmentationTakes graph groups ↔
      ∃ runs, IsSegmentation graph groups runs ∧ runs.map List.length = takes := by
  rw [segmentationTakes, mem_completions_iff,
    isCompletion_takes_iff hgroups (Nat.zero_le groups.length), List.drop_zero]
  constructor
  · rintro ⟨runs, hlengths, hflatten, hruns⟩
    exact ⟨runs, ⟨hflatten, hruns⟩, hlengths⟩
  · rintro ⟨runs, hruns, hlengths⟩
    exact ⟨runs, hlengths, hruns.flatten_eq, hruns.takes_run⟩

theorem nodup_segmentationTakes : (segmentationTakes graph groups).Nodup := by
  refine nodup_completions (fun id _ rest groupIndex => ?_) 0
  unfold groupTakes
  dsimp only
  split_ifs
  · exact List.nodup_nil
  · exact (List.nodup_range' ..).filter _
  · exact (List.nodup_singleton 1).filter _

/-- The search keeps two segmentations. -/
theorem findTakes_eq : findTakes graph groups = (segmentationTakes graph groups).take 2 := by
  rw [findTakes, search_eq_foldl, foldl_stopAt, segmentationTakes]
  simp

/-- The lengths of its runs determine a segmentation. -/
theorem IsSegmentation.eq {runs runs' : List (List GroupTargets)}
    (h : IsSegmentation graph groups runs) (h' : IsSegmentation graph groups runs')
    (hlengths : runs.map List.length = runs'.map List.length) : runs = runs' :=
  List.eq_iff_flatten_eq.2 ⟨h.flatten_eq.trans h'.flatten_eq.symm, hlengths⟩

/-- The search finds one cut just when there is one. -/
theorem findTakes_eq_singleton_iff (hgroups : ∀ targets ∈ groups, targets ≠ [])
    {takes : List ℕ} : findTakes graph groups = [takes] ↔
      ∃ runs, IsSegmentation graph groups runs ∧
        (∀ runs', IsSegmentation graph groups runs' → runs' = runs) ∧
          runs.map List.length = takes := by
  have hsingleton : findTakes graph groups = [takes] ↔
      ∀ takes', takes' ∈ segmentationTakes graph groups ↔ takes' = takes := by
    rw [findTakes_eq]
    constructor
    · intro htake
      have hlength := congrArg List.length htake
      rw [List.length_take, List.length_singleton] at hlength
      rw [List.take_of_length_le (by omega)] at htake
      simp [htake]
    · intro hmem
      have hperm : (segmentationTakes graph groups).Perm [takes] :=
        (List.perm_ext_iff_of_nodup nodup_segmentationTakes (List.nodup_singleton _)).2
          fun takes' => by simp [hmem]
      rw [List.perm_singleton.1 hperm]
      rfl
  rw [hsingleton]
  constructor
  · intro hmem
    obtain ⟨runs, hruns, hlengths⟩ := (mem_segmentationTakes_iff hgroups).1 ((hmem takes).2 rfl)
    refine ⟨runs, hruns, fun runs' hruns' => hruns'.eq hruns ?_, hlengths⟩
    rw [hlengths]
    exact (hmem _).1 ((mem_segmentationTakes_iff hgroups).2 ⟨runs', hruns', rfl⟩)
  · rintro ⟨runs, hruns, hunique, rfl⟩ takes'
    rw [mem_segmentationTakes_iff hgroups]
    constructor
    · rintro ⟨runs', hruns', rfl⟩
      rw [hunique runs' hruns']
    · rintro rfl
      exact ⟨runs, hruns, rfl⟩

end Search

/-! ## Ranges of groups -/

theorem mem_takeRanges_le : ∀ {takes : List ℕ} {start : ℕ} {range : List ℕ},
    range ∈ takeRanges start takes → ∀ index ∈ range, start ≤ index
  | take :: takes, start, range, h, index, hindex => by
    rcases List.mem_cons.1 h with rfl | h
    · exact (List.mem_range'_1.1 hindex).1
    · have hle := mem_takeRanges_le h index hindex
      omega

/-- The ranges count up. -/
theorem pairwise_takeRanges : ∀ (takes : List ℕ) (start : ℕ),
    (takeRanges start takes).flatten.Pairwise (· < ·)
  | [], _ => .nil
  | take :: takes, start => by
    rw [takeRanges, List.flatten_cons, List.pairwise_append]
    refine ⟨List.pairwise_lt_range', pairwise_takeRanges takes _,
      fun index hindex later hlater => ?_⟩
    obtain ⟨range, hrange, hlater⟩ := List.mem_flatten.1 hlater
    have hle := mem_takeRanges_le hrange later hlater
    have hlt := (List.mem_range'_1.1 hindex).2
    omega

/-- The groups of the indices may belong to the node. -/
def FitsGroups (graph : Graph) (groups : List GroupTargets) (id : NodeId) (indices : List ℕ) :
    Prop :=
  ∃ run, indices.mapM (groups[·]?) = some run ∧ TakesRun graph id run

section Ranges

variable {graph : Graph} {groups : List GroupTargets}

/-- The range of a run holds the groups of the run. -/
theorem forall₂_fitsGroups {start : ℕ} {nodes : List NodeId} {runs : List (List GroupTargets)}
    (hflatten : runs.flatten = groups.drop start)
    (hruns : List.Forall₂ (TakesRun graph) nodes runs) :
    List.Forall₂ (FitsGroups graph groups) nodes (takeRanges start (runs.map List.length)) := by
  induction hruns generalizing start with
  | nil => exact .nil
  | @cons id run nodes runs htakes _ ih =>
    rw [List.flatten_cons] at hflatten
    have hrest : runs.flatten = groups.drop (start + run.length) := by
      rw [← List.drop_drop, ← hflatten, List.drop_left]
    refine .cons ⟨run, mapM_eq_some_iff.2 ?_, htakes⟩ (ih hrest)
    refine List.forall₂_iff_get.2 ⟨by simp, fun offset _ hoffset => ?_⟩
    have hget : (groups.drop start)[offset]? = (run ++ runs.flatten)[offset]? := by rw [hflatten]
    rw [List.getElem?_drop, List.getElem?_append_left hoffset,
      List.getElem?_eq_getElem hoffset] at hget
    simpa using hget

/-- A relation of two lists holds of what is left when the first is filtered. -/
theorem forall₂_filter_zip {α β : Type} {R : α → β → Prop} {p : α → Bool} {l : List α}
    {l' : List β} (h : List.Forall₂ R l l') :
    List.Forall₂ R (l.filter p) (((l.zip l').filter fun entry => p entry.1).map Prod.snd) := by
  induction h with
  | nil => exact .nil
  | @cons a b _ _ hab _ ih =>
    rw [List.zip_cons_cons, List.filter_cons, List.filter_cons]
    split_ifs
    · exact .cons hab ih
    · exact ih

/-- The custom nodes are computational. -/
theorem Graph.filter_computationalNodes :
    graph.computationalNodes.filter (fun id => decide (id ∈ graph.customNodes)) =
      graph.customNodes := by
  rw [Graph.computationalNodes, List.filter_filter, Graph.customNodes]
  refine List.filter_congr fun id hid => ?_
  by_cases hop : (graph.heap.node id).op = "Custom"
  · simp [hop, hid]
  · simp [hop]

theorem Graph.customNodes_subset {id : NodeId} (h : id ∈ graph.customNodes) :
    id ∈ graph.computationalNodes := by
  rw [← Graph.filter_computationalNodes] at h
  exact List.mem_of_mem_filter h

theorem Graph.computationalNodes_nodup : graph.computationalNodes.Nodup :=
  graph.nodes_nodup.filter _

/-- The custom nodes get groups that fit them. -/
theorem IsSegmentation.fits {runs : List (List GroupTargets)}
    (h : IsSegmentation graph groups runs) :
    List.Forall₂ (FitsGroups graph groups) graph.customNodes (runAssignment graph runs) := by
  have hall : List.Forall₂ (FitsGroups graph groups) graph.computationalNodes
      (takeRanges 0 (runs.map List.length)) := forall₂_fitsGroups h.flatten_eq h.takes_run
  have hfits := forall₂_filter_zip (p := fun id => decide (id ∈ graph.customNodes)) hall
  rwa [Graph.filter_computationalNodes] at hfits

/-- The ranges of the custom nodes are some of all ranges. -/
theorem customRanges_sublist {takes : List ℕ}
    (h : takes.length = graph.computationalNodes.length) :
    (customRanges graph takes).Sublist (takeRanges 0 takes) := by
  have hlength : ∀ (takes : List ℕ) (start : ℕ),
      (takeRanges start takes).length = takes.length := by
    intro takes
    induction takes with
    | nil => exact fun _ => rfl
    | cons _ _ ih => exact fun _ => congrArg (· + 1) (ih _)
  have hzip : (graph.computationalNodes.zip (takeRanges 0 takes)).map Prod.snd =
      takeRanges 0 takes := List.map_snd_zip (by rw [hlength, h])
  rw [← hzip]
  exact List.filter_sublist.map Prod.snd

theorem pairwise_runAssignment {runs : List (List GroupTargets)}
    (h : IsSegmentation graph groups runs) :
    (runAssignment graph runs).flatten.Pairwise (· < ·) :=
  (pairwise_takeRanges _ 0).sublist
    (customRanges_sublist (by rw [List.length_map, h.takes_run.length_eq])).flatten

/-- The positions of the nodes of a list in a list that holds it in order count up. -/
theorem pairwise_idxOf {nodes all : List NodeId} (h : nodes.Sublist all) (hall : all.Nodup) :
    (nodes.map fun id => all.idxOf id).Pairwise (· < ·) := by
  rw [List.pairwise_map]
  exact List.Pairwise.sublist h (List.pairwise_iff_getElem.2 fun i j hi hj hlt => by
    rwa [hall.idxOf_getElem i hi, hall.idxOf_getElem j hj])

theorem pairwise_positionalIndices : (positionalIndices graph).flatten.Pairwise (· < ·) := by
  have hsublist : graph.customNodes.Sublist graph.computationalNodes := by
    rw [← Graph.filter_computationalNodes]
    exact List.filter_sublist
  have hflatten : (positionalIndices graph).flatten =
      graph.customNodes.map fun id => graph.computationalNodes.idxOf id := by
    rw [positionalIndices, ← List.flatMap_def]
    exact List.flatMap_pure_eq_map _ _
  rw [hflatten]
  exact pairwise_idxOf hsublist graph.computationalNodes_nodup

end Ranges

/-! ## Resolving an assignment -/

section Resolve

variable {prepared : PreparedGraph}

/-- Groups that are not used yet can be used. -/
theorem useGroups_eq (prepared : PreparedGraph) (id : NodeId) :
    ∀ {indices : List ℕ} {used : List (ℕ × NodeId)}, indices.Nodup →
      (∀ index ∈ indices, index ∉ used.map Prod.fst) →
        prepared.useGroups id used indices = .ok (used ++ indices.map (·, id))
  | [], used, _, _ => by simp [PreparedGraph.useGroups]; rfl
  | index :: indices, used, hnodup, hfresh => by
    obtain ⟨hindex, hnodup⟩ := List.nodup_cons.1 hnodup
    have hlookup : used.lookup index = none := by
      rw [List.lookup_eq_none_iff]
      rintro entry hentry
      refine bne_iff_ne.2 fun heq => hfresh index (by simp) ?_
      exact List.mem_map.2 ⟨entry, hentry, heq.symm⟩
    have hrest : prepared.useGroups id (used ++ [(index, id)]) indices =
        .ok (used ++ [(index, id)] ++ indices.map (·, id)) := by
      refine useGroups_eq prepared id hnodup fun later hlater => ?_
      rw [List.map_append, List.mem_append, not_or]
      refine ⟨hfresh later (List.mem_cons_of_mem _ hlater), ?_⟩
      rintro hmem
      obtain rfl : later = index := by simpa using hmem
      exact hindex hlater
    rw [PreparedGraph.useGroups, List.foldlM_cons, hlookup]
    refine (bind_eq_ok_iff.2 ⟨_, rfl, hrest⟩).trans ?_
    simp

/-- A run of a custom node is selected. -/
theorem exists_selectTargets {id : NodeId} {indices : List ℕ}
    (hcustom : id ∈ prepared.graph.customNodes)
    (hfits : FitsGroups prepared.graph prepared.discovered id indices) :
    ∃ targets, prepared.selectTargets id indices = .ok targets := by
  obtain ⟨run, hrun, htakes⟩ := hfits
  have hforall := mapM_eq_some_iff.1 hrun
  have hgroups : indices.mapM prepared.groupTargets = .ok run := by
    refine mapM_eq_ok_iff.2 (hforall.imp fun index targets hget => ?_)
    rw [PreparedGraph.groupTargets, prepared.getElem?_groups, hget]
    rfl
  have hlengths := hforall.length_eq
  rw [TakesRun, if_pos hcustom] at htakes
  rcases htakes with ⟨targets, rfl, hmismatch⟩ | ⟨hlength, hcombined⟩
  · obtain ⟨index, rfl⟩ := List.length_eq_one_iff.1 hlengths
    refine ⟨PreparedGraph.patchTargets targets, bind_eq_ok_iff.2 ⟨[targets], hgroups, ?_⟩⟩
    dsimp only [PreparedGraph.node]
    rw [hmismatch]
  · obtain ⟨targets, htargets⟩ := Option.isSome_iff_exists.1 hcombined
    refine ⟨targets, bind_eq_ok_iff.2 ⟨run, hgroups, ?_⟩⟩
    split
    · simp at hlength
    · dsimp only [PreparedGraph.node]
      rw [htargets]

/-- The loop accepts groups that fit their nodes and differ from each other. -/
theorem exists_foldlM_resolveNode {chosen : List PreparedGraph.BoundNode} :
    ∀ {ids : List NodeId} {assignment : List (List ℕ)}
      (found : ResolvedBindings × List (ℕ × NodeId)),
      List.Forall₂ (fun id indices => chosen.lookup id = some (indices, none) ∧
        id ∈ prepared.graph.customNodes ∧
          FitsGroups prepared.graph prepared.discovered id indices) ids assignment →
      assignment.flatten.Nodup →
      (∀ index ∈ assignment.flatten, index ∉ found.2.map Prod.fst) →
        ∃ resolved, ids.foldlM (prepared.resolveNode chosen) found = .ok resolved ∧
          resolved.1.indices = found.1.indices ++ assignment
  | _, _, found, .nil, _, _ => ⟨found, rfl, by simp⟩
  | id :: ids, indices :: assignment, found, .cons ⟨hlookup, hcustom, hfits⟩ hrest, hnodup,
      hfresh => by
    rw [List.flatten_cons, List.nodup_append] at hnodup
    obtain ⟨hindices, hnodup, hdisjoint⟩ := hnodup
    have hused := useGroups_eq prepared id hindices fun index hindex =>
      hfresh index (by simp [hindex])
    obtain ⟨targets, htargets⟩ := exists_selectTargets hcustom hfits
    have hstep : prepared.resolveNode chosen found id =
        .ok ({
          indices := found.1.indices ++ [indices]
          targets := found.1.targets ++ [targets]
          reviews := found.1.reviews ++ [none] }, found.2 ++ indices.map (·, id)) := by
      rw [PreparedGraph.resolveNode, hlookup]
      exact bind_eq_ok_iff.2 ⟨_, hused, bind_eq_ok_iff.2 ⟨targets, htargets, rfl⟩⟩
    have hfresh' : ∀ index ∈ assignment.flatten,
        index ∉ (found.2 ++ indices.map (·, id)).map Prod.fst := by
      intro index hindex
      rw [List.map_append, List.mem_append, not_or]
      refine ⟨hfresh index (by simp [hindex]), fun hmem => ?_⟩
      have hmem : index ∈ indices := by simpa using hmem
      exact hdisjoint index hmem index hindex rfl
    obtain ⟨resolved, hresolved, hresult⟩ :=
      exists_foldlM_resolveNode (_, found.2 ++ indices.map (·, id)) hrest hnodup hfresh'
    refine ⟨resolved, ?_, hresult.trans ?_⟩
    · rw [List.foldlM_cons]
      exact bind_eq_ok_iff.2 ⟨_, hstep, hresolved⟩
    · simp

/-- Without bindings of its own a graph is bound by its automatic assignment. -/
theorem exists_resolveBindings {digest : List UInt8 → String} {assignment : List (List ℕ)}
    (hembedded : prepared.embeddedTargets = none) (hsaved : prepared.savedIndices = none)
    (hreviews : prepared.savedReviews = none)
    (hautomatic : prepared.automaticIndices = some assignment)
    (hfits : List.Forall₂ (FitsGroups prepared.graph prepared.discovered)
      prepared.graph.customNodes assignment)
    (hnodup : assignment.flatten.Nodup) :
    ∃ resolved, prepared.resolveBindings digest [] = .ok resolved ∧
      resolved.indices = assignment := by
  have hlength := hfits.length_eq
  have hdefault : prepared.defaultNodes = prepared.graph.customNodes.zip
      (assignment.zip (prepared.graph.customNodes.map fun _ => none)) := by
    rw [PreparedGraph.defaultNodes, hsaved, hreviews, hautomatic, prepared.customNodes_eq]
    rfl
  have hlookups : List.Forall₂ (fun id indices =>
      prepared.defaultNodes.lookup id = some (indices, none) ∧
        id ∈ prepared.graph.customNodes ∧
          FitsGroups prepared.graph prepared.discovered id indices)
      prepared.graph.customNodes assignment := by
    have hnones : assignment.zip (prepared.graph.customNodes.map fun _ => none) =
        assignment.map fun indices => (indices, (none : Option ReviewedBinding)) :=
      List.ext_getElem (by simp [hlength]) (by simp)
    have hzip := forall₂_lookup_zip (assignment.map fun indices =>
      (indices, (none : Option ReviewedBinding))) prepared.graph.customNodes_nodup
        (by simpa using hlength)
    rw [List.forall₂_map_right_iff, ← hnones, ← hdefault] at hzip
    have hcustom := (List.forall₂_and_left (p := (· ∈ prepared.graph.customNodes)) _ _).2
      ⟨fun id hid => hid, hfits⟩
    refine List.forall₂_iff_get.2 ⟨hlength, fun i hi hi' => ?_⟩
    exact ⟨(List.forall₂_iff_get.1 hzip).2 i hi hi', (List.forall₂_iff_get.1 hcustom).2 i hi hi'⟩
  obtain ⟨resolved, hresolved, hindices⟩ :=
    exists_foldlM_resolveNode (⟨[], [], []⟩, []) hlookups hnodup (by simp)
  refine ⟨resolved.1, ?_, hindices⟩
  have hmissing : prepared.customNodes.filter
      (fun id => id ∉ ([] ++ prepared.defaultNodes).map Prod.fst) = [] := by
    rw [List.filter_eq_nil_iff]
    intro id hid
    rw [prepared.customNodes_eq] at hid
    rw [List.nil_append, hdefault, List.map_fst_zip (by simp [hlength])]
    simp [hid]
  rw [PreparedGraph.resolveBindings, hembedded]
  refine bind_eq_ok_iff.2 ⟨[], rfl, ?_⟩
  dsimp only
  rw [refuseIf_of_not _ (not_not.2 hmissing)]
  refine bind_eq_ok_iff.2 ⟨(), rfl, bind_eq_ok_iff.2 ⟨resolved, ?_, rfl⟩⟩
  rwa [prepared.customNodes_eq]

end Resolve

/-! ## Automatic assignments -/

/-- What `_automatic_group_indices` assigns. -/
structure AutomaticGroupsSpec (graph : Graph) (groups : List GroupTargets) : Prop where
  /-- With a group for each computational node, the assignment by position, if it fits. -/
  positional : groups.length = graph.computationalNodes.length →
    ∀ assignment, (automaticGroupIndices graph groups).1 = some assignment ↔
      assignment = positionalIndices graph ∧
        ∀ id ∈ graph.customNodes, ∃ targets,
          groups[graph.computationalNodes.idxOf id]? = some targets ∧
            customTargetsMismatch (graph.heap.node id) targets false = none
  /-- Otherwise the only way to cut the groups, if there is one. -/
  segmented : groups.length ≠ graph.computationalNodes.length →
    ∀ assignment, (automaticGroupIndices graph groups).1 = some assignment ↔
      ∃ runs, IsSegmentation graph groups runs ∧
        (∀ runs', IsSegmentation graph groups runs' → runs' = runs) ∧
          assignment = runAssignment graph runs
  increasing : ∀ assignment, (automaticGroupIndices graph groups).1 = some assignment →
    assignment.Pairwise fun earlier later => ∀ index ∈ earlier, ∀ index' ∈ later, index < index'
  disjoint : ∀ assignment, (automaticGroupIndices graph groups).1 = some assignment →
    assignment.Pairwise List.Disjoint
  resolved : ∀ (digest : List UInt8 → String) (prepared : PreparedGraph),
    prepared.graph = graph → prepared.discovered = groups → prepared.embeddedTargets = none →
      prepared.savedIndices = none → prepared.savedReviews = none →
        prepared.automaticIndices = (automaticGroupIndices graph groups).1 →
          ∀ assignment, prepared.automaticIndices = some assignment →
            ∃ resolved, prepared.resolveBindings digest [] = .ok resolved ∧
              resolved.indices = assignment

section Spec

variable {graph : Graph} {groups : List GroupTargets}

theorem positionalMismatch_eq_none_iff
    (hlength : groups.length = graph.computationalNodes.length) :
    positionalMismatch graph groups = none ↔ ∀ id ∈ graph.customNodes, ∃ targets,
      groups[graph.computationalNodes.idxOf id]? = some targets ∧
        customTargetsMismatch (graph.heap.node id) targets false = none := by
  rw [positionalMismatch, List.findSome?_eq_none_iff]
  refine forall₂_congr fun id hid => ?_
  have hindex : graph.computationalNodes.idxOf id < groups.length :=
    hlength ▸ List.idxOf_lt_length_of_mem (Graph.customNodes_subset hid)
  simp [hindex]

theorem positional_iff (hlength : groups.length = graph.computationalNodes.length)
    {assignment : List (List ℕ)} :
    (automaticGroupIndices graph groups).1 = some assignment ↔
      assignment = positionalIndices graph ∧
        ∀ id ∈ graph.customNodes, ∃ targets,
          groups[graph.computationalNodes.idxOf id]? = some targets ∧
            customTargetsMismatch (graph.heap.node id) targets false = none := by
  rw [← positionalMismatch_eq_none_iff hlength, automaticGroupIndices, if_pos hlength]
  cases positionalMismatch graph groups with
  | none => simp [eq_comm]
  | some reason => simp

theorem segmented_iff (hgroups : ∀ targets ∈ groups, targets ≠ [])
    (hlength : groups.length ≠ graph.computationalNodes.length) {assignment : List (List ℕ)} :
    (automaticGroupIndices graph groups).1 = some assignment ↔
      ∃ runs, IsSegmentation graph groups runs ∧
        (∀ runs', IsSegmentation graph groups runs' → runs' = runs) ∧
          assignment = runAssignment graph runs := by
  have hfound : (automaticGroupIndices graph groups).1 = some assignment ↔
      ∃ takes, findTakes graph groups = [takes] ∧ assignment = customRanges graph takes := by
    rw [automaticGroupIndices, if_neg hlength]
    split
    case h_1 takes htakes => simp [htakes, eq_comm]
    case h_2 hnot =>
      refine iff_of_false (by simp) ?_
      rintro ⟨takes, htakes, -⟩
      exact hnot takes htakes
  rw [hfound]
  simp only [findTakes_eq_singleton_iff hgroups]
  constructor
  · rintro ⟨takes, ⟨runs, hruns, hunique, rfl⟩, rfl⟩
    exact ⟨runs, hruns, hunique, rfl⟩
  · rintro ⟨runs, hruns, hunique, rfl⟩
    exact ⟨_, ⟨runs, hruns, hunique, rfl⟩, rfl⟩

/-- The groups of an assignment count up, and fit their nodes. -/
theorem of_automaticGroupIndices (hgroups : ∀ targets ∈ groups, targets ≠ [])
    {assignment : List (List ℕ)}
    (h : (automaticGroupIndices graph groups).1 = some assignment) :
    assignment.flatten.Pairwise (· < ·) ∧
      List.Forall₂ (FitsGroups graph groups) graph.customNodes assignment := by
  rcases eq_or_ne groups.length graph.computationalNodes.length with hlength | hlength
  · obtain ⟨rfl, hfits⟩ := (positional_iff hlength).1 h
    refine ⟨pairwise_positionalIndices, ?_⟩
    rw [positionalIndices, List.forall₂_map_right_iff, List.forall₂_same]
    intro id hid
    obtain ⟨targets, htargets, hmismatch⟩ := hfits id hid
    refine ⟨[targets], by simp [htargets], ?_⟩
    rw [TakesRun, if_pos hid]
    exact .inl ⟨targets, rfl, hmismatch⟩
  · obtain ⟨runs, hruns, -, rfl⟩ := (segmented_iff hgroups hlength).1 h
    exact ⟨pairwise_runAssignment hruns, hruns.fits⟩

end Spec

/-- The automatic assignment is sound and complete, counts up, and is accepted. -/
theorem automaticGroupIndices_spec (graph : Graph) (groups : List GroupTargets)
    (hgroups : ∀ targets ∈ groups, targets ≠ []) : AutomaticGroupsSpec graph groups where
  positional hlength _ := positional_iff hlength
  segmented hlength _ := segmented_iff hgroups hlength
  increasing _ h := (List.pairwise_flatten.1 (of_automaticGroupIndices hgroups h).1).2
  disjoint _ h :=
    (List.pairwise_flatten.1 (of_automaticGroupIndices hgroups h).1).2.imp
      fun hlt _ hearlier hlater => (hlt _ hearlier _ hlater).false
  resolved := by
    rintro digest prepared rfl rfl hembedded hsaved hreviews hautomatic assignment hassignment
    obtain ⟨hincreasing, hfits⟩ :=
      of_automaticGroupIndices hgroups (hautomatic.symm.trans hassignment)
    exact exists_resolveBindings hembedded hsaved hreviews hassignment hfits
      (hincreasing.imp ne_of_lt)

/-- The groups of an operation on 16 elements that the compiler split into two halves. -/
def halfGroups : List GroupTargets :=
  [[.legacy ⟨0, 0, 1, 8, 16, 0x1F⟩], [.legacy ⟨1, 1, 1, 8, 16, 0x1F⟩]]

theorem automaticGroupIndices_spec_halfGroups :
    AutomaticGroupsSpec customGraph halfGroups ∧
      (automaticGroupIndices customGraph halfGroups).1 = some [[0, 1]] :=
  ⟨automaticGroupIndices_spec customGraph halfGroups (by decide), by decide +kernel⟩

end Npunlock
