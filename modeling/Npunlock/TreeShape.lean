import Mathlib.Data.List.Perm.Subperm
import Npunlock.TreeWalk

/-!
# Shapes of validated trees

`Tree.validate` counts parents and walks from the root. A tree passes exactly if its
children unfold, from node 0, to one binary tree of nodes that lists every node once
(`Tree.IsBinaryTree`) :

* the walk of `max_depth` lists the nodes of the unfolded tree, and raises if one of them
  comes twice (`Tree.whileLoop_shape_iff`);
* the parents counted over the nodes of the unfolded tree are the occurrences of a node in
  it, less one for the root (`NodeTree.sum_childCount`);
* a sound tree unfolds from every node, by its depth (`Tree.exists_shape`).
-/

namespace Npunlock

/-- A binary tree of nodes. -/
inductive NodeTree
  | leaf (node : ℕ)
  | split (node : ℕ) (left right : NodeTree)

namespace NodeTree

/-- The node at the top. -/
def root : NodeTree → ℕ
  | leaf node => node
  | split node _ _ => node

/-- All nodes, in the order a walk with a stack takes them from the last to the first. -/
def nodes : NodeTree → List ℕ
  | leaf node => [node]
  | split node left right => left.nodes ++ right.nodes ++ [node]

/-- The longest way down. -/
def height : NodeTree → ℕ
  | leaf _ => 0
  | split _ left right => max left.height right.height + 1

@[simp] theorem nodes_split (node : ℕ) (left right : NodeTree) :
    (split node left right).nodes = left.nodes ++ right.nodes ++ [node] := rfl

theorem root_mem_nodes (shape : NodeTree) : shape.root ∈ shape.nodes := by
  cases shape <;> simp [root, nodes]

end NodeTree

namespace Tree

variable {tree : Tree} {featureCount : ℕ}

/-! ## Unfolded trees -/

/-- The children below the top of `shape` are those of the arrays : none at a leaf, both at
a split, whose feature index is in range. -/
inductive Unfolds (tree : Tree) (featureCount : ℕ) : NodeTree → Prop
  | leaf {node : ℕ} : tree.leftOf node = -1 → tree.rightOf node = -1 →
      Unfolds tree featureCount (.leaf node)
  | split {node : ℕ} {left right : NodeTree} :
      tree.leftOf node = left.root → tree.rightOf node = right.root →
      0 ≤ tree.featureOf node → tree.featureOf node < featureCount →
      Unfolds tree featureCount left → Unfolds tree featureCount right →
      Unfolds tree featureCount (.split node left right)

/-- The children from node 0 make one binary tree, which contains every node once. -/
def IsBinaryTree (tree : Tree) (featureCount : ℕ) : Prop :=
  ∃ shape : NodeTree, shape.root = 0 ∧ tree.Unfolds featureCount shape ∧
    shape.nodes.Perm (List.range tree.nodeCount)

/-! ## The walk of `max_depth` -/

theorem depthStep_nil {seen : List ℕ} {maximum : ℕ} :
    tree.depthStep ⟨[], seen, maximum⟩ = .ok (.inr ⟨[], seen, maximum⟩) :=
  rfl

/-- The pairs that a node's round puts on the stack. -/
def childrenAt (tree : Tree) (node depth : ℕ) : List (ℕ × ℕ) :=
  if tree.leftOf node ≠ -1
  then [((tree.rightOf node).toNat, depth + 1), ((tree.leftOf node).toNat, depth + 1)] else []

/-- One more round of a walk that ends. -/
theorem whileLoop_node_iff {bound node depth maximum : ℕ} {stack : List (ℕ × ℕ)}
    {seen : List ℕ} {final : DepthSearch} :
    whileLoop .endless tree.depthStep (bound + 1) ⟨(node, depth) :: stack, seen, maximum⟩ =
        .ok final ↔
      node ∉ seen ∧ whileLoop .endless tree.depthStep bound
        ⟨tree.childrenAt node depth ++ stack, node :: seen, max maximum depth⟩ = .ok final := by
  rw [whileLoop, depthStep]
  simp only [bind_eq_ok_iff, refuseIf_eq_ok_iff]
  constructor
  · rintro ⟨_, ⟨_, hseen, hnext⟩, hrest⟩
    obtain rfl := Except.ok.inj hnext
    exact ⟨hseen, hrest⟩
  · rintro ⟨hseen, hrest⟩
    exact ⟨_, ⟨(), hseen, rfl⟩, hrest⟩

/-- The walk over the tree that unfolds from the top of the stack : it raises if a node
comes twice, and goes on with the rest of the stack. -/
theorem whileLoop_shape_iff {shape : NodeTree} (h : tree.Unfolds featureCount shape) :
    ∀ {bound depth maximum : ℕ} {stack : List (ℕ × ℕ)} {seen : List ℕ} {final : DepthSearch},
      whileLoop .endless tree.depthStep (bound + shape.nodes.length)
          ⟨(shape.root, depth) :: stack, seen, maximum⟩ = .ok final ↔
        (shape.nodes.Nodup ∧ shape.nodes.Disjoint seen) ∧
          whileLoop .endless tree.depthStep bound
            ⟨stack, shape.nodes ++ seen, max maximum (depth + shape.height)⟩ = .ok final := by
  induction h with
  | @leaf node hleft hright =>
    intro bound depth maximum stack seen final
    have hnone : tree.childrenAt node depth = [] := if_neg (by simpa using hleft)
    rw [NodeTree.nodes, List.length_singleton, NodeTree.root, whileLoop_node_iff, hnone]
    simp [NodeTree.height]
  | @split node left right hleft hright _ _ _ _ ihleft ihright =>
    intro bound depth maximum stack seen final
    have hchildren : tree.childrenAt node depth =
        [(right.root, depth + 1), (left.root, depth + 1)] := by
      rw [childrenAt, if_pos (by omega), hleft, hright]
      rfl
    have hlength : bound + (NodeTree.split node left right).nodes.length =
        bound + left.nodes.length + right.nodes.length + 1 := by
      simp [NodeTree.nodes]
      omega
    have hheight : max (max (max maximum depth) (depth + 1 + right.height))
        (depth + 1 + left.height) =
          max maximum (depth + (NodeTree.split node left right).height) := by
      simp only [NodeTree.height]
      omega
    rw [hlength, NodeTree.root, whileLoop_node_iff, hchildren, List.cons_append, List.cons_append,
      List.nil_append, ihright, ihleft, hheight]
    simp only [NodeTree.nodes, List.nodup_append, List.append_assoc, List.singleton_append,
      List.disjoint_left, List.mem_append, List.mem_cons]
    grind

/-- A walk that ends needs no smaller bound. -/
theorem whileLoop_mono {ε σ τ : Type} {exhausted : ε} {body : σ → Except ε (σ ⊕ τ)} {final : τ} :
    ∀ {bound more : ℕ} {s : σ}, whileLoop exhausted body bound s = .ok final →
      whileLoop exhausted body (bound + more) s = .ok final
  | 0, _, _, h => by simp [whileLoop] at h
  | bound + 1, more, s, h => by
    rw [Nat.add_right_comm, whileLoop]
    rw [whileLoop] at h
    obtain ⟨next, hnext, h⟩ := bind_eq_ok_iff.1 h
    refine bind_eq_ok_iff.2 ⟨next, hnext, ?_⟩
    cases next with
    | inl s' => exact whileLoop_mono h
    | inr t => exact h

theorem maxDepth_eq_ok_iff {shape : NodeTree} (h : tree.Unfolds featureCount shape)
    (hroot : shape.root = 0) {depth : ℕ} :
    tree.maxDepth = .ok depth ↔
      shape.nodes.Nodup ∧ shape.nodes.length = tree.nodeCount ∧ depth = shape.height := by
  have hend (bound : ℕ) : whileLoop .endless tree.depthStep (bound + 1)
      ⟨[], shape.nodes ++ [], max 0 (0 + shape.height)⟩ =
        .ok ⟨[], shape.nodes, shape.height⟩ := by
    simp [whileLoop, depthStep_nil]
  have hwalk (bound : ℕ) (final : DepthSearch) :=
    @whileLoop_shape_iff tree featureCount shape h (bound + 1) 0 0 [] [] final
  simp only [hroot, hend] at hwalk
  unfold maxDepth
  constructor
  · intro hok
    obtain ⟨final, hfinal, hok⟩ := bind_eq_ok_iff.1 hok
    obtain ⟨hcount, hok⟩ := refuseIf_bind_eq_ok_iff.1 hok
    have hlong := @whileLoop_mono _ _ _ _ _ _ _ shape.nodes.length _ hfinal
    obtain ⟨⟨hnodup, _⟩, hsame⟩ := (hwalk _ _).1 hlong
    obtain rfl := Except.ok.inj hsame
    exact ⟨hnodup, not_not.1 hcount, (Except.ok.inj hok).symm⟩
  · rintro ⟨hnodup, hlength, rfl⟩
    have hdone := (hwalk 1 _).2 ⟨⟨hnodup, by simp⟩, rfl⟩
    rw [hlength, Nat.add_comm] at hdone
    exact bind_eq_ok_iff.2 ⟨_, hdone, refuseIf_bind_eq_ok_iff.2 ⟨not_not.2 hlength, rfl⟩⟩

/-- Every round adds a node of the tree to `seen`, or raises. -/
theorem meets_maxDepth (hpos : 0 < tree.nodeCount)
    (hchecked : ∀ node < tree.nodeCount, tree.CheckedNode featureCount node) :
    Meets (fun error => error = ModelError.endless) tree.maxDepth (fun _ => True) := by
  have hwalk : Meets (fun error => error = ModelError.endless)
      (whileLoop .endless tree.depthStep (tree.nodeCount + 2) ⟨[(0, 0)], [], 0⟩)
      (fun _ => True) := by
    refine Meets.whileLoop (fun search => (∀ entry ∈ search.stack, entry.1 < tree.nodeCount) ∧
        search.seen.Nodup ∧ ∀ node ∈ search.seen, node < tree.nodeCount)
      (fun search => tree.nodeCount + 1 - search.seen.length) ?_ ⟨by simpa, by simp, by simp⟩
      (by simp)
    rintro ⟨stack, seen, maximum⟩ ⟨hstack, hnodup, hseen⟩
    cases stack with
    | nil => exact Meets.ok trivial
    | cons entry stack =>
      obtain ⟨node, depth⟩ := entry
      have hnode : node < tree.nodeCount := hstack (node, depth) List.mem_cons_self
      refine Meets.refuseIf_bind (by simp) fun hfresh => Meets.ok ?_
      have hnodup' : (node :: seen).Nodup := List.nodup_cons.2 ⟨hfresh, hnodup⟩
      have hseen' : ∀ x ∈ node :: seen, x < tree.nodeCount := by
        simpa using ⟨hnode, hseen⟩
      have hle := (List.subperm_of_subset hnodup' fun x hx =>
        List.mem_range.2 (hseen' x hx)).length_le
      rw [List.length_range, List.length_cons] at hle
      refine ⟨⟨fun entry hentry => ?_, hnodup', hseen'⟩, ?_⟩
      · rcases List.mem_append.1 hentry with hentry | hentry
        · split_ifs at hentry with hleaf
          · have hsplit := (hchecked node hnode).split hleaf
            have := hsplit.left_lt
            have := hsplit.right_lt
            simp only [List.mem_cons, List.not_mem_nil, or_false] at hentry
            rcases hentry with rfl | rfl <;> dsimp only <;> omega
          · simp at hentry
        · exact hstack entry (List.mem_cons_of_mem _ hentry)
      · simp only [List.length_cons]
        omega
  exact hwalk.bind fun search _ => Meets.refuseIf_bind (by simp) fun _ => Meets.ok trivial

/-! ## Parents and occurrences -/

variable (tree) in
theorem parentCount_eq_sum (child n : ℕ) :
    tree.parentCount child n = ((List.range n).map (tree.childCount · child)).sum := by
  induction n with
  | zero => rfl
  | succ n ih => rw [parentCount, ih, List.range_succ, List.map_append, List.sum_append]; simp

theorem count_node (node child : ℕ) : [node].count child = if node = child then 1 else 0 := by
  rw [List.count_singleton]
  simp only [beq_iff_eq]

/-- A node is counted as a child once for each occurrence, but not as the root. -/
theorem sum_childCount {shape : NodeTree} (h : tree.Unfolds featureCount shape) (child : ℕ) :
    (shape.nodes.map (tree.childCount · child)).sum + (if shape.root = child then 1 else 0) =
      shape.nodes.count child := by
  induction h with
  | @leaf node hleft =>
    change _ + (if node = child then 1 else 0) = [node].count child
    simp [NodeTree.nodes, childCount, hleft, count_node]
  | @split node left right hleft hright _ _ _ _ ihleft ihright =>
    have hchild : tree.childCount node child = (if left.root = child then 1 else 0) +
        if right.root = child then 1 else 0 := by
      rw [childCount, if_neg (by omega), hleft, hright]
      simp only [Nat.cast_inj]
    change _ + (if node = child then 1 else 0) = _
    simp only [NodeTree.nodes_split, List.map_append, List.sum_append, List.map_cons,
      List.map_nil, List.sum_cons, List.sum_nil, List.count_append, hchild, count_node]
    omega

theorem singleParents_of_unfolds {shape : NodeTree} (h : tree.Unfolds featureCount shape)
    (hroot : shape.root = 0) (hall : shape.nodes.Perm (List.range tree.nodeCount)) :
    tree.SingleParents := by
  have hcount (child : ℕ) : tree.parentCount child tree.nodeCount +
      (if 0 = child then 1 else 0) = (List.range tree.nodeCount).count child := by
    rw [parentCount_eq_sum, ← (hall.map _).sum_eq, ← hall.count_eq, ← sum_childCount h, hroot]
  have hone (child : ℕ) (hlt : child < tree.nodeCount) :
      (List.range tree.nodeCount).count child = 1 :=
    List.count_eq_one_of_mem List.nodup_range (List.mem_range.2 hlt)
  have hpos : 0 < tree.nodeCount :=
    List.mem_range.1 (hall.mem_iff.1 (hroot ▸ shape.root_mem_nodes))
  constructor
  · have := hcount 0
    rw [hone 0 hpos, if_pos rfl] at this
    omega
  · intro child hchild hlt
    have := hcount child
    rw [hone child hlt, if_neg hchild.ne] at this
    omega

/-- The nodes of an unfolded tree pass their checks. -/
theorem checkedNode_of_unfolds {shape : NodeTree} (h : tree.Unfolds featureCount shape)
    (hnodup : shape.nodes.Nodup) (hlt : ∀ node ∈ shape.nodes, node < tree.nodeCount) :
    ∀ node ∈ shape.nodes, tree.CheckedNode featureCount node := by
  induction h with
  | leaf hleft hright =>
    intro node hnode
    obtain rfl := List.mem_singleton.1 hnode
    exact ⟨by simp [hleft, hright], fun hsplit => absurd hleft hsplit,
      fun hsplit => absurd hleft hsplit⟩
  | @split top left right hleft hright hnonneg hfeature _ _ ihleft ihright =>
    rw [NodeTree.nodes, List.append_assoc] at hnodup
    obtain ⟨hnodupLeft, hrest, hdisjoint⟩ := List.nodup_append'.1 hnodup
    obtain ⟨hnodupRight, _, _⟩ := List.nodup_append'.1 hrest
    simp only [NodeTree.nodes, List.mem_append, List.mem_singleton] at hlt ⊢
    have hleftRoot := hlt _ (.inl (.inl left.root_mem_nodes))
    have hrightRoot := hlt _ (.inl (.inr right.root_mem_nodes))
    have hne : left.root ≠ right.root := fun heq => hdisjoint left.root_mem_nodes
      (List.mem_append_left _ (heq ▸ right.root_mem_nodes))
    rintro node ((hnode | hnode) | rfl)
    · exact ihleft hnodupLeft (fun x hx => hlt x (.inl (.inl hx))) node hnode
    · exact ihright hnodupRight (fun x hx => hlt x (.inl (.inr hx))) node hnode
    · exact ⟨by omega, fun _ => ⟨hnonneg, hfeature, by omega, by omega, by omega, by omega⟩,
        fun _ => by omega⟩

/-! ## Unfolding a sound tree -/

/-- The children below a node of a sound tree unfold : the depth is bounded. -/
theorem exists_shape (h : tree.Sound featureCount)
    (hchecked : ∀ node < tree.nodeCount, tree.CheckedNode featureCount node) :
    ∀ (fuel : ℕ) {depth node : ℕ}, tree.Depth depth node → node < tree.nodeCount →
      tree.nodeCount ≤ depth + fuel → ∃ shape : NodeTree, shape.root = node ∧
        tree.Unfolds featureCount shape ∧ ∀ x ∈ shape.nodes, x < tree.nodeCount
  | 0, _, _, hdepth, hnode, hfuel => by
    have := depth_lt h hdepth hnode
    omega
  | fuel + 1, depth, node, hdepth, hnode, hfuel => by
    by_cases hleaf : tree.leftOf node = -1
    · exact ⟨.leaf node, rfl, .leaf hleaf ((hchecked node hnode).both.1 hleaf),
        by simpa [NodeTree.nodes] using hnode⟩
    · have hsplit := h.split node hnode hleaf
      have hleft := Int.toNat_of_nonneg hsplit.left_nonneg
      have hright := Int.toNat_of_nonneg hsplit.right_nonneg
      have below (child : ℕ) (hchild : tree.IsChild node child) :=
        exists_shape h hchecked fuel (hdepth.child hnode hchild) (lt_of_isChild h hnode hchild)
          (by omega)
      obtain ⟨left, hl, hleftUnfolds, hleftNodes⟩ := below _ ⟨hleaf, .inl hleft.symm⟩
      obtain ⟨right, hr, hrightUnfolds, hrightNodes⟩ := below _ ⟨hleaf, .inr hright.symm⟩
      refine ⟨.split node left right, rfl, .split (by rw [hl, hleft]) (by rw [hr, hright])
        hsplit.feature_nonneg hsplit.feature_lt hleftUnfolds hrightUnfolds, fun x hx => ?_⟩
      simp only [NodeTree.nodes, List.mem_append, List.mem_singleton] at hx
      rcases hx with (hx | hx) | rfl
      · exact hleftNodes x hx
      · exact hrightNodes x hx
      · exact hnode

/-! ## Validation -/

theorem validate_ne_endless : tree.validate featureCount ≠ .error .endless := by
  have hvalidate : Meets (fun error => error = ModelError.endless)
      (tree.validate featureCount) (fun _ => True) := by
    refine Meets.refuseIf_bind (by simp) fun hshape => ?_
    have hpos : 0 < tree.nodeCount := Nat.pos_of_ne_zero fun hzero => hshape (.inl hzero)
    refine (tree.meets_validateNodes featureCount).bind fun counts hcounts => ?_
    refine Meets.refuseIf_bind (by simp) fun _ => ?_
    exact (meets_maxDepth hpos hcounts.checked).bind fun _ _ => Meets.ok trivial
  exact fun hendless => hvalidate.not_bad _ hendless rfl

/-- Validation accepts exactly the binary trees. -/
theorem validate_eq_ok_iff_isBinaryTree :
    tree.validate featureCount = .ok () ↔
      tree.HasEqualArrays ∧ tree.IsBinaryTree featureCount := by
  rw [validate_eq_ok_iff]
  constructor
  · rintro ⟨⟨harrays, hpos⟩, hchecked, hparents, depth, hdepth⟩
    have hsound := sound_of_checked hpos hchecked hparents
    obtain ⟨shape, hroot, hunfolds, hlt⟩ :=
      exists_shape hsound hchecked tree.nodeCount Depth.root hpos (by omega)
    obtain ⟨hnodup, hlength, _⟩ := (maxDepth_eq_ok_iff hunfolds hroot).1 hdepth
    have hsub := List.subperm_of_subset hnodup fun x hx => List.mem_range.2 (hlt x hx)
    refine ⟨harrays, shape, hroot, hunfolds, hsub.perm_of_length_le ?_⟩
    rw [List.length_range, hlength]
  · rintro ⟨harrays, shape, hroot, hunfolds, hall⟩
    have hmem (node : ℕ) : node ∈ shape.nodes ↔ node < tree.nodeCount :=
      hall.mem_iff.trans List.mem_range
    have hpos : 0 < tree.nodeCount := (hmem 0).1 (hroot ▸ shape.root_mem_nodes)
    have hnodup : shape.nodes.Nodup := hall.nodup_iff.2 List.nodup_range
    have hlength : shape.nodes.length = tree.nodeCount := by
      rw [hall.length_eq, List.length_range]
    refine ⟨⟨harrays, hpos⟩, fun node hnode => ?_,
      singleParents_of_unfolds hunfolds hroot hall, shape.height, ?_⟩
    · exact checkedNode_of_unfolds hunfolds hnodup (fun x hx => (hmem x).1 hx) node
        ((hmem node).2 hnode)
    · exact (maxDepth_eq_ok_iff hunfolds hroot).2 ⟨hnodup, hlength, rfl⟩

variable (tree featureCount) in
/-- Validation ends, and accepts exactly the trees whose children make one binary tree with
every node in it once. A prediction of an accepted tree reaches a leaf in fewer steps than
there are nodes. -/
theorem tree_validation_exact :
    tree.validate featureCount ≠ .error .endless ∧
      (tree.validate featureCount = .ok () ↔
        tree.HasEqualArrays ∧ tree.IsBinaryTree featureCount) ∧
      (tree.validate featureCount = .ok () → ∀ features : List Word, ∃ steps value,
        steps < tree.nodeCount ∧ tree.Leads features 0 steps value ∧
          tree.predictOne features = .ok value) := by
  refine ⟨validate_ne_endless, validate_eq_ok_iff_isBinaryTree, fun hvalid features => ?_⟩
  obtain ⟨steps, value, hsteps, hleads⟩ := exists_leads (sound_of_validate hvalid) features
  exact ⟨steps, value, hsteps, hleads, whileLoop_of_leads hleads (by omega)⟩

/-- A split with two leaves. -/
def stump : Tree :=
  ⟨[1, -1, -1], [2, -1, -1], [0, 0, 0], [0, 1, 2], [true, false, false]⟩

theorem tree_validation_exact_stump : stump.validate 1 = .ok () ∧
    ∃ steps value, steps < 3 ∧ stump.Leads [0x7FC00000] 0 steps value ∧
      stump.predictOne [0x7FC00000] = .ok value :=
  have hvalid : stump.validate 1 = .ok () := by decide +kernel
  ⟨hvalid, (tree_validation_exact stump 1).2.2 hvalid [0x7FC00000]⟩

end Tree

end Npunlock
