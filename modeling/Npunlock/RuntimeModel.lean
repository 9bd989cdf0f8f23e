import Npunlock.PaddedBuffer
import Npunlock.RuntimeSafety
import Npunlock.TreeWalk

/-!
# Packed models

What the chunk of `modelChunk` holds. Every word of a node gives back the fields it was
packed from (`HoldsTree`), the trees follow each other (`HoldsForest`), and the kernels
that read such a chunk accept it (`validateModel_of_holds`) and add up the predictions of
`predictOne` in their order (`addTrees_of_holds`). A walk of the kernel and the loop of the
host are both compared with `Tree.Leads`.
-/

namespace Npunlock

namespace Runtime

/-! ## Nodes -/

/-- The metadata of a node, without its checks. -/
def metadataOf (tree : Tree) (node : ℕ) : ℕ :=
  if tree.leftOf node = -1 then leafFeature
  else (tree.featureOf node).toNat + (tree.leftOf node).toNat * 2 ^ 6 +
    (tree.rightOf node).toNat * 2 ^ 10 + (if tree.defaultOf node then 1 else 0) * 2 ^ 14

/-- The number of nodes, in the first node of a tree. -/
def sizeBits (tree : Tree) (node : ℕ) : ℕ :=
  if node = 0 then (tree.nodeCount - 1) * 2 ^ 15 else 0

/-- The entries of a split fit their fields. -/
structure FitsFields (tree : Tree) (node : ℕ) : Prop where
  feature_nonneg : 0 ≤ tree.featureOf node
  feature_lt : tree.featureOf node < maxFeatures
  left_nonneg : 0 ≤ tree.leftOf node
  left_le : tree.leftOf node ≤ 15
  right_nonneg : 0 ≤ tree.rightOf node
  right_le : tree.rightOf node ≤ 15

/-- A chunk holds a node of a tree. -/
structure HoldsNode (model : List Word) (root : ℕ) (tree : Tree) (node : ℕ) : Prop where
  word : ∃ word, model[modelHeaderWords + (root + node) * 2]? = some word ∧
    hasBase word = true ∧ metadata word = metadataOf tree node + sizeBits tree node
  value : model[modelHeaderWords + (root + node) * 2 + 1]? = some (tree.valueOf node)
  fits : tree.leftOf node ≠ -1 → FitsFields tree node
  finite : Binary32.isFinite (tree.valueOf node) = true

/-- A chunk holds a tree. -/
structure HoldsTree (model : List Word) (root : ℕ) (tree : Tree) : Prop where
  small : tree.nodeCount ≤ maxTreeNodes
  node : ∀ node < tree.nodeCount, HoldsNode model root tree node

/-- A chunk holds trees that follow each other. -/
def HoldsForest (model : List Word) : ℕ → List Tree → Prop
  | _, [] => True
  | root, tree :: trees =>
    HoldsTree model root tree ∧ HoldsForest model (root + tree.nodeCount) trees

/-! ## Packing -/

theorem nodeMetadata_eq_ok {tree : Tree} {node m : ℕ} (h : nodeMetadata tree node = .ok m) :
    m = metadataOf tree node ∧ (tree.leftOf node ≠ -1 → FitsFields tree node) := by
  unfold nodeMetadata at h
  unfold metadataOf
  by_cases hleaf : tree.leftOf node = -1
  · rw [if_pos hleaf] at h ⊢
    exact ⟨(Except.ok.inj h).symm, fun hsplit => absurd hleaf hsplit⟩
  · rw [if_neg hleaf] at h ⊢
    obtain ⟨hfeature, h⟩ := refuseIf_bind_eq_ok_iff.1 h
    obtain ⟨hchildren, h⟩ := refuseIf_bind_eq_ok_iff.1 h
    push Not at hfeature hchildren
    obtain ⟨⟨hl, hl'⟩, hr, hr'⟩ := hchildren
    exact ⟨(Except.ok.inj h).symm, fun _ => ⟨hfeature.1, hfeature.2, hl, hl', hr, hr'⟩⟩

theorem metadataOf_lt {tree : Tree} {node : ℕ} (h : tree.leftOf node ≠ -1 → FitsFields tree node) :
    metadataOf tree node < 2 ^ 15 := by
  unfold metadataOf
  split_ifs with hleaf hdefault
  · decide
  all_goals
    obtain ⟨_, hfeature, _, hleft, _, hright⟩ := h hleaf
    have : (maxFeatures : ℤ) = 63 := rfl
    omega

theorem sizeBits_le {tree : Tree} (hsmall : tree.nodeCount ≤ maxTreeNodes) (node : ℕ) :
    sizeBits tree node ≤ 15 * 2 ^ 15 := by
  have hcap : tree.nodeCount ≤ 16 := hsmall
  unfold sizeBits
  split_ifs
  · exact Nat.mul_le_mul_right _ (by omega)
  · exact Nat.zero_le _

/-- The fields below the base of a metadata word. -/
theorem metadata_ofNat {m : ℕ} (h : m < 2 ^ 19) :
    hasBase (UInt32.ofNat (metadataBase + m)) = true ∧
      metadata (UInt32.ofNat (metadataBase + m)) = m := by
  have hbase : metadataBase = 0x3F800000 := rfl
  have hword : (UInt32.ofNat (metadataBase + m)).toNat = metadataBase + m := by
    rw [UInt32.toNat_ofNat']
    exact Nat.mod_eq_of_lt (by omega)
  rw [hasBase, metadata, hword, decide_eq_true_eq]
  omega

theorem nodeWords_eq_ok {tree : Tree} (hsmall : tree.nodeCount ≤ maxTreeNodes) {node : ℕ}
    {words : List Word} (h : nodeWords tree node = .ok words) :
    ∃ word, words = [word, tree.valueOf node] ∧ hasBase word = true ∧
      metadata word = metadataOf tree node + sizeBits tree node ∧
      (tree.leftOf node ≠ -1 → FitsFields tree node) ∧
      Binary32.isFinite (tree.valueOf node) = true := by
  unfold nodeWords at h
  obtain ⟨hfinite, h⟩ := refuseIf_bind_eq_ok_iff.1 h
  obtain ⟨m, hm, h⟩ := bind_eq_ok_iff.1 h
  obtain ⟨rfl, hfits⟩ := nodeMetadata_eq_ok hm
  obtain rfl := Except.ok.inj h
  have hlt := metadataOf_lt hfits
  have hsize := sizeBits_le hsmall node
  obtain ⟨hbase, hmetadata⟩ := metadata_ofNat
    (show metadataOf tree node + sizeBits tree node < 2 ^ 19 by omega)
  refine ⟨_, rfl, ?_, ?_, hfits, by simpa using hfinite⟩
  · rw [Nat.add_assoc]
    exact hbase
  · rw [Nat.add_assoc]
    exact hmetadata

/-- The words of a tree, wherever they stand in a chunk. -/
theorem holdsTree_of_treeWords {tree : Tree} {words before : List Word} {root : ℕ}
    (rest : List Word) (h : treeWords tree = .ok words)
    (hbefore : before.length = modelHeaderWords + root * 2) :
    words.length = tree.nodeCount * 2 ∧ HoldsTree (before ++ (words ++ rest)) root tree := by
  unfold treeWords at h
  obtain ⟨hsmall, h⟩ := refuseIf_bind_eq_ok_iff.1 h
  obtain ⟨pairs, hpairs, h⟩ := bind_eq_ok_iff.1 h
  obtain rfl := Except.ok.inj h
  have hsmall : tree.nodeCount ≤ maxTreeNodes := not_lt.1 hsmall
  obtain ⟨hlength, hnode⟩ := mapRange_eq_ok_iff.1 hpairs
  have hpair : ∀ pair ∈ pairs, pair.length = 2 := by
    intro pair hmem
    obtain ⟨i, hi, rfl⟩ := List.getElem_of_mem hmem
    obtain ⟨word, hwords, _⟩ := nodeWords_eq_ok hsmall (hnode i hi)
    rw [hwords]
    rfl
  refine ⟨?_, hsmall, fun node hlt => ?_⟩
  · rw [List.length_flatten, List.map_congr_left (g := fun _ => 2) hpair, List.map_const',
      List.sum_replicate_nat, hlength]
  · rw [← hlength] at hlt
    obtain ⟨word, hwords, hbase, hmetadata, hfits, hfinite⟩ := nodeWords_eq_ok hsmall
      (hnode node hlt)
    have hfirst := getElem?_flatten_rows rest (j := 0) hpair hlt (by omega)
    have hsecond := getElem?_flatten_rows rest (j := 1) hpair hlt (by omega)
    rw [hwords] at hfirst hsecond
    refine ⟨⟨word, ?_, hbase, hmetadata⟩, ?_, hfits, hfinite⟩
    · rw [List.getElem?_append_right (by omega), hbefore,
        show modelHeaderWords + (root + node) * 2 - (modelHeaderWords + root * 2) = node * 2
          by omega]
      exact hfirst
    · rw [List.getElem?_append_right (by omega), hbefore,
        show modelHeaderWords + (root + node) * 2 + 1 - (modelHeaderWords + root * 2) =
          node * 2 + 1 by omega]
      exact hsecond

theorem holdsForest_of_treeWords (rest : List Word) : ∀ {trees : List Tree}
    {words : List (List Word)} (before : List Word) (root : ℕ)
    (_ : List.Forall₂ (fun tree words => treeWords tree = .ok words) trees words)
    (_ : before.length = modelHeaderWords + root * 2),
    HoldsForest (before ++ (words.flatten ++ rest)) root trees
  | _, _, _, _, .nil, _ => trivial
  | tree :: trees, words :: others, before, root, .cons h hrest, hbefore => by
    rw [List.flatten_cons, List.append_assoc]
    obtain ⟨hlength, hholds⟩ := holdsTree_of_treeWords (others.flatten ++ rest) h hbefore
    refine ⟨hholds, ?_⟩
    have hnext := holdsForest_of_treeWords rest (before ++ words) (root + tree.nodeCount) hrest
      (by rw [List.length_append]; omega)
    rwa [List.append_assoc] at hnext

/-- What a packed chunk holds. -/
structure HoldsModel (model : List Word) (ensemble : Ensemble) : Prop where
  length : model.length = chunkElements
  magic : model[0]? = some (Binary32.ofNat modelMagic)
  treeCount : model[1]? = some (Binary32.ofNat ensemble.trees.length)
  nodeCount : model[2]? = some (Binary32.ofNat ensemble.nodeCount)
  featureCount : model[3]? = some (Binary32.ofNat ensemble.featureCount)
  base : model[4]? = some ensemble.baseMargin
  forest : HoldsForest model 0 ensemble.trees
  features_pos : 0 < ensemble.featureCount
  features_le : ensemble.featureCount ≤ maxFeatures
  trees_pos : 0 < ensemble.trees.length
  trees_le : ensemble.trees.length ≤ maxTrees
  nodes_le : ensemble.nodeCount ≤ maxTotalNodes
  base_finite : Binary32.isFinite ensemble.baseMargin = true

theorem chunkOf_eq_ok {words chunk : List Word} (h : chunkOf words = .ok chunk) :
    chunk.length = chunkElements ∧
      chunk = words ++ List.replicate (chunkElements - words.length) 0 := by
  unfold chunkOf at h
  obtain ⟨hlength, h⟩ := refuseIf_bind_eq_ok_iff.1 h
  obtain rfl := Except.ok.inj h
  refine ⟨?_, rfl⟩
  rw [List.length_append, List.length_replicate]
  omega

theorem holdsModel_of_modelChunk {ensemble : Ensemble} {chunk : List Word}
    (h : modelChunk ensemble = .ok chunk) : HoldsModel chunk ensemble := by
  unfold modelChunk at h
  obtain ⟨hfeatures, h⟩ := refuseIf_bind_eq_ok_iff.1 h
  obtain ⟨htrees, h⟩ := refuseIf_bind_eq_ok_iff.1 h
  obtain ⟨hnodes, h⟩ := refuseIf_bind_eq_ok_iff.1 h
  obtain ⟨hbase, h⟩ := refuseIf_bind_eq_ok_iff.1 h
  obtain ⟨words, hwords, h⟩ := bind_eq_ok_iff.1 h
  obtain ⟨hlength, hchunk⟩ := chunkOf_eq_ok h
  have hforest := holdsForest_of_treeWords (List.replicate (chunkElements -
    (([modelMagic, ensemble.trees.length, ensemble.nodeCount, ensemble.featureCount].map
      Binary32.ofNat ++ [ensemble.baseMargin] ++ words.flatten)).length) 0)
    ([modelMagic, ensemble.trees.length, ensemble.nodeCount,
      ensemble.featureCount].map Binary32.ofNat ++ [ensemble.baseMargin]) 0
    (mapM_eq_ok_iff.1 hwords) rfl
  rw [← List.append_assoc, ← hchunk] at hforest
  push Not at hfeatures htrees
  refine ⟨hlength, ?_, ?_, ?_, ?_, ?_, hforest, hfeatures.1, hfeatures.2, htrees.1, htrees.2,
    not_lt.1 hnodes, by simpa using hbase⟩
  all_goals
    rw [hchunk]
    rfl

/-! ## Fields -/

section Fields

variable {model : List Word} {root node total : ℕ} {tree : Tree}
  (h : HoldsNode model root tree node) (hinside : root + node < total)
  (htotal : total ≤ maxTotalNodes)

include h hinside htotal

theorem metadataAt_of_holds :
    metadataAt model (root + node) = metadataOf tree node + sizeBits tree node := by
  have hcap : total ≤ 509 := htotal
  obtain ⟨word, hword, _, hmetadata⟩ := h.word
  rw [metadataAt, nodeWord_of_lt (by omega), ← hmetadata]
  exact congrArg (fun entry : Option Word => metadata (entry.getD 0)) hword

theorem valueAt_of_holds : valueAt model (root + node) = tree.valueOf node := by
  have hcap : total ≤ 509 := htotal
  have hvalue : model[5 + (root + node) * 2 + 1]? = some (tree.valueOf node) := h.value
  rw [valueAt, nodeWord_of_lt (by omega), hvalue]
  rfl

theorem isLeafAt_iff_of_holds : IsLeafAt model (root + node) ↔ tree.leftOf node = -1 := by
  rw [IsLeafAt, metadataAt_of_holds h hinside htotal, featureOf, metadataOf, leafFeature]
  have hsize : sizeBits tree node % 2 ^ 6 = 0 := by
    unfold sizeBits
    split_ifs
    · omega
    · rfl
  by_cases hleaf : tree.leftOf node = -1
  · rw [if_pos hleaf]
    omega
  · rw [if_neg hleaf]
    obtain ⟨hfeature, hlt, _⟩ := h.fits hleaf
    have : (maxFeatures : ℤ) = 63 := rfl
    omega

theorem readNode_of_holds : ∃ word, readWord model (nodeWord (root + node)) = .ok word ∧
    hasBase word = true ∧ metadata word = metadataOf tree node + sizeBits tree node := by
  have hcap : total ≤ 509 := htotal
  obtain ⟨word, hword, hbase, hmetadata⟩ := h.word
  rw [nodeWord_of_lt (by omega)]
  exact ⟨word, readWord_of_getElem? hword, hbase, hmetadata⟩

/-- The fields of a split. -/
theorem fields_of_holds (hsmall : tree.nodeCount ≤ maxTreeNodes) (hsplit : tree.leftOf node ≠ -1) :
    featureOf (metadataAt model (root + node)) = (tree.featureOf node).toNat ∧
      leftOf (metadataAt model (root + node)) = (tree.leftOf node).toNat ∧
      rightOf (metadataAt model (root + node)) = (tree.rightOf node).toNat ∧
      (defaultOf (metadataAt model (root + node)) ≠ 0 ↔ tree.defaultOf node = true) := by
  rw [metadataAt_of_holds h hinside htotal, metadataOf, if_neg hsplit]
  obtain ⟨hfeature, hlt, hleft, hleft', hright, hright'⟩ := h.fits hsplit
  have : (maxFeatures : ℤ) = 63 := rfl
  have hsize : ∃ size, size < 16 ∧ sizeBits tree node = size * 2 ^ 15 := by
    have hcap : tree.nodeCount ≤ 16 := hsmall
    unfold sizeBits
    split_ifs
    · exact ⟨tree.nodeCount - 1, by omega, rfl⟩
    · exact ⟨0, by omega, rfl⟩
  obtain ⟨size, hsize, heq⟩ := hsize
  rw [heq]
  unfold featureOf leftOf rightOf defaultOf
  cases tree.defaultOf node
  · simp only [Bool.false_eq_true, if_false, iff_false]
    omega
  · simp only [if_true, iff_true]
    omega

end Fields

/-- The first node of a tree holds the number of its nodes. -/
theorem treeNodesOf_of_holds {model : List Word} {root : ℕ} {tree : Tree}
    (h : HoldsTree model root tree) (hpos : 0 < tree.nodeCount) {word : Word}
    (hword : metadata word = metadataOf tree 0 + sizeBits tree 0) :
    treeNodesOf (metadata word) = tree.nodeCount := by
  have hlt := metadataOf_lt (h.node 0 hpos).fits
  have hcap : tree.nodeCount ≤ 16 := h.small
  rw [hword, sizeBits, if_pos rfl, treeNodesOf]
  omega

theorem treeNodesAt_of_holds {model : List Word} {root total : ℕ} {tree : Tree}
    (h : HoldsTree model root tree) (hpos : 0 < tree.nodeCount)
    (hinside : root + tree.nodeCount ≤ total) (htotal : total ≤ maxTotalNodes) :
    treeNodesAt model root = tree.nodeCount := by
  have hcap : total ≤ 509 := htotal
  obtain ⟨word, hword, _, hmetadata⟩ := (h.node 0 hpos).word
  have hlt : root < 509 := by omega
  have hat : metadataAt model root = metadata word := by
    rw [metadataAt, nodeWord_of_lt hlt]
    exact congrArg (fun entry : Option Word => metadata (entry.getD 0)) hword
  rw [treeNodesAt, hat, treeNodesOf_of_holds h hpos hmetadata]

theorem validTree_of_holds {model : List Word} {root total featureCount : ℕ} {tree : Tree}
    (h : HoldsTree model root tree) (hsound : tree.Sound featureCount)
    (hinside : root + tree.nodeCount ≤ total) (htotal : total ≤ maxTotalNodes) :
    ValidTree model featureCount total root := by
  have hsize := treeNodesAt_of_holds h hsound.nodes_pos hinside htotal
  refine ⟨by rwa [hsize], fun node hnode => ?_⟩
  rw [hsize] at hnode ⊢
  have hlt : root + node < total := by omega
  have hnode' := h.node node hnode
  rw [isLeafAt_iff_of_holds hnode' hlt htotal]
  by_cases hleaf : tree.leftOf node = -1
  · exact .inl hleaf
  · obtain ⟨hfeature, hleft, hright, _⟩ := fields_of_holds hnode' hlt htotal h.small hleaf
    have hsplit := hsound.split node hnode hleaf
    rw [hfeature, hleft, hright]
    have := hsplit.feature_nonneg
    have := hsplit.feature_lt
    have := hsplit.left_lt
    have := hsplit.right_lt
    have := hsound.nodes_pos
    exact .inr ⟨by omega, by omega, by omega⟩

/-! ## Validation -/

theorem validateNode_of_holds {model : List Word} {root node total featureCount : ℕ} {tree : Tree}
    (h : HoldsTree model root tree) (hsound : tree.Sound featureCount)
    (hinside : root + tree.nodeCount ≤ total) (htotal : total ≤ maxTotalNodes)
    (hnode : node < tree.nodeCount) :
    validateNode model featureCount root tree.nodeCount node = .ok () := by
  obtain ⟨word, hword, hbase, hmetadata⟩ :=
    readNode_of_holds (h.node node hnode) (show root + node < total by omega) htotal
  have hat : metadataAt model (root + node) = metadata word := by
    rw [metadataAt_of_holds (h.node node hnode) (show root + node < total by omega) htotal,
      hmetadata]
  have hvalid := (validTree_of_holds h hsound hinside htotal).nodes node
    (by rwa [treeNodesAt_of_holds h hsound.nodes_pos hinside htotal])
  rw [treeNodesAt_of_holds h hsound.nodes_pos hinside htotal, IsLeafAt, hat] at hvalid
  unfold validateNode
  rw [hword, ok_bind, refuseIf_of_not _ (by simp [hbase]), ok_bind]
  dsimp only
  split_ifs with hleaf
  · obtain ⟨hfeature, hleft, hright⟩ := hvalid.resolve_left hleaf
    exact refuseIf_of_not _ (by omega)
  · rfl

theorem validateTree_of_holds {model : List Word} {root total featureCount : ℕ} {tree : Tree}
    (h : HoldsTree model root tree) (hsound : tree.Sound featureCount)
    (hinside : root + tree.nodeCount ≤ total) (htotal : total ≤ maxTotalNodes) :
    validateTree model featureCount total root = .ok (root + tree.nodeCount) := by
  have hcap : total ≤ 509 := htotal
  have hpos := hsound.nodes_pos
  obtain ⟨word, hword, hbase, hmetadata⟩ :=
    readNode_of_holds (h.node 0 hpos) (show root + 0 < total by omega) htotal
  have hwrap : u32 (root + tree.nodeCount) = root + tree.nodeCount := u32_of_lt (by omega)
  unfold validateTree
  rw [Nat.add_zero] at hword
  rw [refuseIf_of_not _ (by omega), ok_bind, hword, ok_bind, refuseIf_of_not _ (by simp [hbase]),
    ok_bind,
    treeNodesOf_of_holds h hpos hmetadata]
  dsimp only
  rw [hwrap, refuseIf_of_not _ (by omega), ok_bind,
    (checkRange_eq_ok_iff (u := ())).2 fun node _ hnode =>
      validateNode_of_holds h hsound hinside htotal hnode]
  rfl

theorem loop_validateTree {model : List Word} {total featureCount : ℕ}
    (htotal : total ≤ maxTotalNodes) : ∀ (first : ℕ) {trees : List Tree} {root : ℕ},
      HoldsForest model root trees → (∀ tree ∈ trees, tree.Sound featureCount) →
      root + (trees.map Tree.nodeCount).sum ≤ total →
      loop (fun _ root => validateTree model featureCount total root) first trees.length root =
        .ok (root + (trees.map Tree.nodeCount).sum)
  | _, [], _, _, _, _ => rfl
  | first, tree :: trees, root, h, hsound, hinside => by
    rw [List.map_cons, List.sum_cons] at hinside ⊢
    rw [List.length_cons, loop, validateTree_of_holds h.1 (hsound tree List.mem_cons_self)
      (by omega) htotal, ok_bind, ← Nat.add_assoc]
    exact loop_validateTree htotal (first + 1) h.2
      (fun other hother => hsound other (List.mem_cons_of_mem tree hother)) (by omega)

section Ensemble

variable {model : List Word} {ensemble : Ensemble} (h : HoldsModel model ensemble)
  (hsound : ∀ tree ∈ ensemble.trees, tree.Sound ensemble.featureCount)

include h hsound

/-- The kernels accept a packed model. -/
theorem validateModel_of_holds :
    validateModel model ensemble.featureCount ensemble.trees.length ensemble.nodeCount =
      .ok () := by
  have hloop := loop_validateTree h.nodes_le 0 h.forest hsound
    (Nat.zero_add _).le
  unfold validateModel forRange
  rw [Nat.sub_zero, hloop, ok_bind]
  exact refuseIf_of_not _ (by simp [Ensemble.nodeCount])

omit hsound in
theorem treeCountOf_of_holds : treeCountOf model = .ok ensemble.trees.length := by
  unfold treeCountOf
  rw [readWord_of_getElem? h.magic, ok_bind, countOf_ofNat (by decide) le_rfl, ok_bind,
    refuseIf_of_not _ (by simp), ok_bind, readWord_of_getElem? h.treeCount, ok_bind,
    countOf_ofNat (by decide) h.trees_le, ok_bind, refuseIf_of_not _ h.trees_pos.ne', ok_bind]

theorem nodeCount_pos : 0 < ensemble.nodeCount := by
  obtain ⟨tree, hmem⟩ := List.exists_mem_of_length_pos h.trees_pos
  have hle : tree.nodeCount ≤ ensemble.nodeCount :=
    List.single_le_sum (fun _ _ => Nat.zero_le _) _ (List.mem_map_of_mem hmem)
  exact (hsound tree hmem).nodes_pos.trans_le hle

theorem nodeCountOf_of_holds :
    nodeCountOf model ensemble.featureCount = .ok ensemble.nodeCount := by
  unfold nodeCountOf
  rw [readWord_of_getElem? h.nodeCount, ok_bind, countOf_ofNat (by decide) h.nodes_le, ok_bind,
    refuseIf_of_not _ (nodeCount_pos h hsound).ne', ok_bind,
    readWord_of_getElem? h.featureCount, ok_bind, countOf_ofNat (by decide) h.features_le, ok_bind,
    refuseIf_of_not _ (by simp), ok_bind]

end Ensemble

/-! ## Walks -/

/-- A chunk of features holds a row of values. -/
def HoldsRow (features : List Word) (sample featureCount : ℕ) (row : List Word) : Prop :=
  ∀ feature < featureCount,
    features[featureHeader + sample * featureCount + feature]? = some (row.getD feature 0)

section Walk

variable {math : Arithmetic} {features model row : List Word}
  {sample featureCount root total : ℕ} {tree : Tree}
  (hfeatures : features.length = chunkElements) (hmodel : model.length = chunkElements)
  (htotal : total ≤ maxTotalNodes)
  (hsample : (sample + 1) * featureCount ≤ chunkElements - featureHeader)
  (hrow : HoldsRow features sample featureCount row)

include hrow htotal in
theorem childAt_of_holds (h : HoldsTree model root tree) (hsound : tree.Sound featureCount)
    (hinside : root + tree.nodeCount ≤ total) {node : ℕ} (hnode : node < tree.nodeCount)
    (hsplit : tree.leftOf node ≠ -1) :
    childAt features model sample featureCount root node = tree.next row node := by
  have hlt : root + node < total := by omega
  obtain ⟨hfeature, hleft, hright, hdefault⟩ :=
    fields_of_holds (h.node node hnode) hlt htotal h.small hsplit
  have hentries := hsound.split node hnode hsplit
  have hbound : (tree.featureOf node).toNat < featureCount := by
    have := hentries.feature_nonneg
    have := hentries.feature_lt
    omega
  rw [childAt, Tree.next, Tree.goesLeft, hfeature, hleft, hright, hrow _ hbound,
    valueAt_of_holds (h.node node hnode) hlt htotal]
  simp only [Option.getD_some]
  split_ifs <;> grind

include hfeatures hmodel htotal hsample hrow

/-- The walk of the kernel follows a walk to its leaf. -/
theorem walkTree_of_leads (h : HoldsTree model root tree) (hsound : tree.Sound featureCount)
    (hinside : root + tree.nodeCount ≤ total) {node steps : ℕ} {value : Word}
    (hleads : tree.Leads row node steps value) : ∀ {bound : ℕ}, node < tree.nodeCount →
      steps < bound → walkTree features model sample featureCount root bound node = .ok value := by
  have hvalid := validTree_of_holds h hsound hinside htotal
  have hsize := treeNodesAt_of_holds h hsound.nodes_pos hinside htotal
  induction hleads with
  | @leaf node hleaf =>
    intro bound hnode hbound
    have hlt : root + node < total := by omega
    obtain ⟨bound, rfl⟩ := Nat.exists_eq_succ_of_ne_zero (by omega : bound ≠ 0)
    rw [walkTree_succ hfeatures hmodel htotal hsample hvalid (by rwa [hsize]),
      if_pos (show featureOf _ = leafFeature from
        (isLeafAt_iff_of_holds (h.node node hnode) hlt htotal).2 hleaf),
      valueAt_of_holds (h.node node hnode) hlt htotal]
  | @step node steps value hsplit _ ih =>
    intro bound hnode hbound
    have hlt : root + node < total := by omega
    obtain ⟨bound, rfl⟩ := Nat.exists_eq_succ_of_ne_zero (by omega : bound ≠ 0)
    have hleaf : ¬featureOf (metadataAt model (root + node)) = leafFeature :=
      (isLeafAt_iff_of_holds (h.node node hnode) hlt htotal).not.2 hsplit
    rw [walkTree_succ hfeatures hmodel htotal hsample hvalid (by rwa [hsize]), if_neg hleaf,
      childAt_of_holds htotal hrow h hsound hinside hnode hsplit]
    exact ih (Tree.lt_of_isChild hsound hnode (Tree.isChild_next hsound row hnode hsplit))
      (by omega)

theorem walkTree_of_holds (h : HoldsTree model root tree) (hsound : tree.Sound featureCount)
    (hinside : root + tree.nodeCount ≤ total) {value : Word}
    (hvalue : tree.predictOne row = .ok value) :
    walkTree features model sample featureCount root maxTreeNodes 0 = .ok value := by
  obtain ⟨steps, leaf, hsteps, hleads⟩ := Tree.exists_leads hsound row
  obtain rfl := Except.ok.inj
    (hvalue.symm.trans (Tree.whileLoop_of_leads hleads (Nat.lt_succ_of_lt hsteps)))
  exact walkTree_of_leads hfeatures hmodel htotal hsample hrow h hsound hinside hleads
    hsound.nodes_pos (hsteps.trans_le h.small)

/-- One tree after the other. -/
theorem loop_addTrees : ∀ (first : ℕ) {trees : List Tree} {root : ℕ} {start margin : Word},
    HoldsForest model root trees → (∀ tree ∈ trees, tree.Sound featureCount) →
    root + (trees.map Tree.nodeCount).sum ≤ total →
    trees.foldlM (fun margin tree => do
      let value ← tree.predictOne row
      .ok (math.add margin value)) start = .ok margin →
    loop (fun _ (state : ℕ × Word) => do
      let rootWord ← readWord model (nodeWord state.1)
      let leaf ← walkTree features model sample featureCount state.1 maxTreeNodes 0
      .ok (u32 (state.1 + treeNodesOf (metadata rootWord)), math.add state.2 leaf))
      first trees.length (root, start) = .ok (root + (trees.map Tree.nodeCount).sum, margin)
  | _, [], root, start, margin, _, _, _, hfold => by
    obtain rfl : start = margin := Except.ok.inj hfold
    rfl
  | first, tree :: trees, root, start, margin, h, hsound, hinside, hfold => by
    have hcap : total ≤ 509 := htotal
    rw [List.map_cons, List.sum_cons] at hinside ⊢
    rw [List.foldlM_cons] at hfold
    obtain ⟨next, hnext, hfold⟩ := bind_eq_ok_iff.1 hfold
    obtain ⟨value, hvalue, hnext⟩ := bind_eq_ok_iff.1 hnext
    obtain rfl := Except.ok.inj hnext
    have htree := hsound tree List.mem_cons_self
    have hpos := htree.nodes_pos
    obtain ⟨word, hword, _, hmetadata⟩ :=
      readNode_of_holds (h.1.node 0 hpos) (show root + 0 < total by omega) htotal
    rw [Nat.add_zero] at hword
    rw [List.length_cons, loop]
    dsimp only
    rw [hword, ok_bind,
      walkTree_of_holds hfeatures hmodel htotal hsample hrow h.1 htree (by omega) hvalue, ok_bind,
      treeNodesOf_of_holds h.1 hpos hmetadata, ok_bind, u32_of_lt (by omega),
      ← Nat.add_assoc]
    exact loop_addTrees (first + 1) h.2
      (fun other hother => hsound other (List.mem_cons_of_mem tree hother))
      (by omega) hfold

end Walk

/-- The trees of a packed model are added up as the host adds them. -/
theorem addTrees_of_holds {math : Arithmetic} {features model row : List Word} {sample : ℕ}
    {ensemble : Ensemble} (h : HoldsModel model ensemble)
    (hsound : ∀ tree ∈ ensemble.trees, tree.Sound ensemble.featureCount)
    (hfeatures : features.length = chunkElements)
    (hsample : (sample + 1) * ensemble.featureCount ≤ chunkElements - featureHeader)
    (hrow : HoldsRow features sample ensemble.featureCount row) {start margin : Word}
    (hfold : ensemble.trees.foldlM (fun margin tree => do
      let value ← tree.predictOne row
      .ok (math.add margin value)) start = .ok margin) :
    addTrees math features model sample ensemble.featureCount ensemble.trees.length
      ensemble.nodeCount start = .ok margin := by
  have hloop := loop_addTrees hfeatures h.length h.nodes_le hsample hrow 0 h.forest
    hsound (Nat.zero_add _).le hfold
  unfold addTrees forRange
  rw [Nat.sub_zero, hloop, ok_bind, refuseIf_of_not _ (by simp [Ensemble.nodeCount]), ok_bind]

end Runtime

end Npunlock
