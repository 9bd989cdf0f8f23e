import Npunlock.Counting
import Npunlock.Ensemble

/-!
# Walks of validated trees

What `Tree.validate` establishes, as far as a walk from the root needs it : the entries
are in range, no node has two parents and the root has none (`Tree.Sound`). The nodes of
a walk are then distinct, so a walk meets a leaf within as many steps as the tree has
nodes (`Tree.exists_leads`). `Tree.Leads` is a walk to a leaf, whatever loop makes it.
-/

namespace Npunlock

namespace Tree

variable (tree : Tree)

/-! ## Children -/

/-- `child` is a child of `node`. -/
def IsChild (node child : ℕ) : Prop :=
  tree.leftOf node ≠ -1 ∧ (tree.leftOf node = child ∨ tree.rightOf node = child)

/-- The entries of a split. -/
structure IsSplit (featureCount node : ℕ) : Prop where
  feature_nonneg : 0 ≤ tree.featureOf node
  feature_lt : tree.featureOf node < featureCount
  left_nonneg : 0 ≤ tree.leftOf node
  left_lt : tree.leftOf node < tree.nodeCount
  right_nonneg : 0 ≤ tree.rightOf node
  right_lt : tree.rightOf node < tree.nodeCount

/-- What validation checks at one node. -/
structure CheckedNode (featureCount node : ℕ) : Prop where
  both : tree.leftOf node = -1 ↔ tree.rightOf node = -1
  split : tree.leftOf node ≠ -1 → tree.IsSplit featureCount node
  distinct : tree.leftOf node ≠ -1 → tree.leftOf node ≠ tree.rightOf node

/-- The arrays have one length. -/
structure HasEqualArrays : Prop where
  right : tree.right.length = tree.nodeCount
  feature : tree.splitFeature.length = tree.nodeCount
  value : tree.splitOrLeaf.length = tree.nodeCount
  default : tree.defaultLeft.length = tree.nodeCount

/-- What a walk needs of the arrays. -/
structure Sound (featureCount : ℕ) : Prop where
  nodes_pos : 0 < tree.nodeCount
  split : ∀ node < tree.nodeCount, tree.leftOf node ≠ -1 → tree.IsSplit featureCount node
  unique : ∀ a b child, a < tree.nodeCount → b < tree.nodeCount →
    tree.IsChild a child → tree.IsChild b child → a = b
  root : ∀ a < tree.nodeCount, ¬tree.IsChild a 0

/-! ## Counting parents -/

/-- How often `child` is a child of `node`. -/
def childCount (node child : ℕ) : ℕ :=
  if tree.leftOf node = -1 then 0
  else (if tree.leftOf node = child then 1 else 0) + if tree.rightOf node = child then 1 else 0

/-- How often `child` is a child of one of the first nodes. -/
def parentCount (child : ℕ) : ℕ → ℕ
  | 0 => 0
  | node + 1 => parentCount child node + tree.childCount node child

/-- Every node is a child once, except the root. -/
structure SingleParents : Prop where
  root : tree.parentCount 0 tree.nodeCount = 0
  child : ∀ child, 0 < child → child < tree.nodeCount → tree.parentCount child tree.nodeCount = 1

/-- Where `validate` is after some nodes, with its counts. -/
structure Counted (featureCount index : ℕ) (counts : List ℕ) : Prop where
  length : counts.length = tree.nodeCount
  count : ∀ child, counts.getD child 0 = tree.parentCount child index
  checked : ∀ node < index, tree.CheckedNode featureCount node

variable {tree}

theorem childCount_pos {node child : ℕ} (h : tree.IsChild node child) :
    0 < tree.childCount node child := by
  unfold childCount
  rw [if_neg h.1]
  rcases h.2 with h | h
  · rw [if_pos h]
    omega
  · rw [if_pos h]
    omega

variable (tree) in
theorem parentCount_mono (child : ℕ) {m n : ℕ} (h : m ≤ n) :
    tree.parentCount child m ≤ tree.parentCount child n := by
  induction h with
  | refl => exact le_rfl
  | step _ ih => exact ih.trans (Nat.le_add_right _ _)

theorem parentCount_pos {node child n : ℕ} (hnode : node < n) (h : tree.IsChild node child) :
    0 < tree.parentCount child n := by
  have hle := parentCount_mono tree child hnode
  have hpos := childCount_pos h
  rw [parentCount] at hle
  omega

theorem one_lt_parentCount {a b child n : ℕ} (hab : a < b) (hb : b < n)
    (ha : tree.IsChild a child) (h : tree.IsChild b child) : 1 < tree.parentCount child n := by
  have hle := parentCount_mono tree child hb
  have hfirst := parentCount_pos hab ha
  have hpos := childCount_pos h
  rw [parentCount] at hle
  omega

/-! ## Validation -/

theorem getD_modify {l : List ℕ} {i : ℕ} (hi : i < l.length) (j : ℕ) :
    (l.modify i (· + 1)).getD j 0 = l.getD j 0 + if i = j then 1 else 0 := by
  rw [List.getD_eq_getElem?_getD, List.getD_eq_getElem?_getD, List.getElem?_modify]
  split_ifs with h
  · subst h
    simp [List.getElem?_eq_getElem hi]
  · simp

variable (tree) in
theorem counted_zero (featureCount : ℕ) :
    tree.Counted featureCount 0 (List.replicate tree.nodeCount 0) := by
  refine ⟨List.length_replicate, fun child => ?_, fun _ h => absurd h (Nat.not_lt_zero _)⟩
  rw [List.getD_eq_getElem?_getD, List.getElem?_replicate]
  split_ifs <;> rfl

/-- One node's checks, and what they add to the counts. -/
theorem meets_validateNode {featureCount index : ℕ} {counts : List ℕ}
    (h : tree.Counted featureCount index counts) :
    Meets (fun error => error = ModelError.endless)
      (tree.validateNode featureCount index counts)
      (tree.Counted featureCount (index + 1)) := by
  have next {after : List ℕ} (hafter : after.length = tree.nodeCount)
      (hcount : ∀ child, after.getD child 0 =
        tree.parentCount child index + tree.childCount index child)
      (hnode : tree.CheckedNode featureCount index) :
      tree.Counted featureCount (index + 1) after := by
    refine ⟨hafter, hcount, fun node hlt => ?_⟩
    rcases Nat.lt_succ_iff_lt_or_eq.1 hlt with hlt | rfl
    · exact h.checked node hlt
    · exact hnode
  unfold validateNode
  dsimp only
  refine Meets.refuseIf_bind (by simp) fun hboth => ?_
  have hboth : tree.leftOf index = -1 ↔ tree.rightOf index = -1 := by
    simpa using hboth
  refine Meets.ite (fun hleaf => Meets.ok ?_) fun hsplit => ?_
  · refine next h.length (fun child => ?_) ⟨hboth, fun hne => absurd hleaf.1 hne,
      fun hne => absurd hleaf.1 hne⟩
    rw [h.count, childCount, if_pos hleaf.1, Nat.add_zero]
  · have hleaf : tree.leftOf index ≠ -1 := fun hleaf => hsplit ⟨hleaf, hboth.1 hleaf⟩
    refine Meets.refuseIf_bind (by simp) fun hfeature => ?_
    refine Meets.refuseIf_bind (by simp) fun hchildren => Meets.ok ?_
    push Not at hfeature hchildren
    obtain ⟨⟨hl, hl', hr, hr'⟩, hdistinct⟩ := hchildren
    have hlength := h.length
    refine next (by simpa using hlength) (fun child => ?_)
      ⟨hboth, fun _ => ⟨hfeature.1, hfeature.2, hl, hl', hr, hr'⟩, fun _ => hdistinct⟩
    have hfirst : (tree.leftOf index).toNat < counts.length := by omega
    have hsecond : (tree.rightOf index).toNat <
        (counts.modify (tree.leftOf index).toNat (· + 1)).length := by
      rw [List.length_modify]
      omega
    rw [getD_modify hsecond, getD_modify hfirst, h.count, childCount, if_neg hleaf, Nat.add_assoc]
    have hcast : ∀ z : ℤ, 0 ≤ z → (z.toNat = child ↔ z = child) := fun z hz => by omega
    simp only [hcast _ hl, hcast _ hr]

variable (tree) in
/-- The checks of all nodes. -/
theorem meets_validateNodes (featureCount : ℕ) :
    Meets (fun error => error = ModelError.endless)
      (forRange 0 tree.nodeCount (List.replicate tree.nodeCount 0)
        (tree.validateNode featureCount))
      (tree.Counted featureCount tree.nodeCount) :=
  Meets.forRange _ (Nat.zero_le _) (tree.counted_zero featureCount)
    fun _ _ _ _ hcounts => meets_validateNode hcounts

/-- Nothing else is checked. -/
theorem exists_validateNode {featureCount index : ℕ} (h : tree.CheckedNode featureCount index)
    (counts : List ℕ) : ∃ after, tree.validateNode featureCount index counts = .ok after := by
  unfold validateNode
  dsimp only
  rw [refuseIf_of_not _ (by simpa using h.both), ok_bind]
  by_cases hleaf : tree.leftOf index = -1
  · exact ⟨counts, if_pos ⟨hleaf, h.both.1 hleaf⟩⟩
  · have hsplit := h.split hleaf
    rw [if_neg (fun h => hleaf h.1),
      refuseIf_of_not _ (not_not.2 ⟨hsplit.feature_nonneg, hsplit.feature_lt⟩), ok_bind,
      refuseIf_of_not _ (not_or.2 ⟨not_not.2 ⟨hsplit.left_nonneg, hsplit.left_lt,
        hsplit.right_nonneg, hsplit.right_lt⟩, h.distinct hleaf⟩), ok_bind]
    exact ⟨_, rfl⟩

theorem singleParents_iff {featureCount : ℕ} {counts : List ℕ}
    (h : tree.Counted featureCount tree.nodeCount counts) :
    ¬(counts.getD 0 0 ≠ 0 ∨ ∃ count ∈ counts.drop 1, count ≠ 1) ↔ tree.SingleParents := by
  have hlength := h.length
  push Not
  constructor
  · rintro ⟨hroot, hchild⟩
    refine ⟨by rw [← h.count, hroot], fun child hpos hlt => ?_⟩
    rw [← h.count, List.getD_eq_getElem _ _ (by omega)]
    refine hchild _ (List.mem_iff_getElem.2 ⟨child - 1, by rw [List.length_drop]; omega, ?_⟩)
    rw [List.getElem_drop]
    congr 1
    omega
  · rintro ⟨hroot, hchild⟩
    refine ⟨by rw [h.count, hroot], fun count hcount => ?_⟩
    obtain ⟨child, hlt, rfl⟩ := List.mem_iff_getElem.1 hcount
    rw [List.length_drop] at hlt
    rw [List.getElem_drop, ← List.getD_eq_getElem _ 0, h.count]
    exact hchild _ (by omega) (by omega)

/-- What validation checks, before its walk. -/
theorem validate_eq_ok_iff {featureCount : ℕ} :
    tree.validate featureCount = .ok () ↔
      (tree.HasEqualArrays ∧ 0 < tree.nodeCount) ∧
      (∀ node < tree.nodeCount, tree.CheckedNode featureCount node) ∧
      tree.SingleParents ∧ ∃ depth, tree.maxDepth = .ok depth := by
  unfold validate
  rw [refuseIf_bind_eq_ok_iff]
  refine and_congr ⟨fun h => ?_, fun h => ?_⟩ ⟨fun h => ?_, fun h => ?_⟩
  · push Not at h
    obtain ⟨hpos, hright, hfeature, hvalue, hdefault⟩ := h
    exact ⟨⟨hright, hfeature, hvalue, hdefault⟩, Nat.pos_of_ne_zero hpos⟩
  · exact not_or.2 ⟨by omega, not_not.2 ⟨h.1.right, h.1.feature, h.1.value, h.1.default⟩⟩
  · obtain ⟨counts, hcounts, h⟩ := bind_eq_ok_iff.1 h
    obtain ⟨hparents, h⟩ := refuseIf_bind_eq_ok_iff.1 h
    obtain ⟨depth, hdepth, _⟩ := bind_eq_ok_iff.1 h
    have hcounted := (tree.meets_validateNodes featureCount).value counts hcounts
    exact ⟨hcounted.checked, (singleParents_iff hcounted).1 hparents, depth, hdepth⟩
  · obtain ⟨hchecked, hparents, depth, hdepth⟩ := h
    obtain ⟨counts, hcounts, hcount⟩ := Returns.exists_ok
      (Meets.forRange (tree.Counted featureCount) (Nat.zero_le _)
        (tree.counted_zero featureCount) fun index before _ hlt hbefore => by
          obtain ⟨after, hafter⟩ := exists_validateNode (hchecked index hlt) before
          exact Returns.of_eq hafter ((meets_validateNode hbefore).value after hafter))
    rw [hcounts, ok_bind, refuseIf_of_not _ ((singleParents_iff hcount).2 hparents), ok_bind,
      hdepth]
    rfl

/-- A tree whose nodes pass their checks, with single parents, is sound. -/
theorem sound_of_checked {featureCount : ℕ} (hpos : 0 < tree.nodeCount)
    (hchecked : ∀ node < tree.nodeCount, tree.CheckedNode featureCount node)
    (hparents : tree.SingleParents) : tree.Sound featureCount := by
  have hsplit (node : ℕ) (hnode : node < tree.nodeCount) := (hchecked node hnode).split
  have hle (node child : ℕ) (hnode : node < tree.nodeCount) (hchild : tree.IsChild node child) :
      tree.parentCount child tree.nodeCount ≤ 1 := by
    rcases Nat.eq_zero_or_pos child with rfl | hpos
    · rw [hparents.root]
      exact Nat.zero_le 1
    · have hentries := hsplit node hnode hchild.1
      have := hentries.left_lt
      have := hentries.right_lt
      rw [hparents.child child hpos (by rcases hchild.2 with heq | heq <;> omega)]
  refine ⟨hpos, hsplit, fun a b child ha hb hachild hbchild => ?_, fun a ha hchild => ?_⟩
  · have := hle a child ha hachild
    rcases Nat.lt_trichotomy a b with hlt | heq | hlt
    · have := one_lt_parentCount hlt hb hachild hbchild
      omega
    · exact heq
    · have := one_lt_parentCount hlt ha hbchild hachild
      omega
  · have := parentCount_pos ha hchild
    rw [hparents.root] at this
    omega

/-- A validated tree is sound. -/
theorem sound_of_validate {featureCount : ℕ} (h : tree.validate featureCount = .ok ()) :
    tree.Sound featureCount := by
  obtain ⟨⟨_, hpos⟩, hchecked, hparents, _⟩ := validate_eq_ok_iff.1 h
  exact sound_of_checked hpos hchecked hparents

/-! ## Walks -/

/-- Whether a walk goes to the left child of a split. -/
def goesLeft (tree : Tree) (features : List Word) (node : ℕ) : Bool :=
  let value := features.getD (tree.featureOf node).toNat 0
  if Binary32.isNaN value then tree.defaultOf node
  else Binary32.lt value (tree.valueOf node)

/-- The child that a walk goes to. -/
def next (tree : Tree) (features : List Word) (node : ℕ) : ℕ :=
  if tree.goesLeft features node then (tree.leftOf node).toNat else (tree.rightOf node).toNat

/-- A walk from `node` that meets a leaf after some steps. -/
inductive Leads (tree : Tree) (features : List Word) : ℕ → ℕ → Word → Prop
  | leaf {node : ℕ} : tree.leftOf node = -1 → Leads tree features node 0 (tree.valueOf node)
  | step {node steps : ℕ} {value : Word} : tree.leftOf node ≠ -1 →
      Leads tree features (tree.next features node) steps value →
      Leads tree features node (steps + 1) value

theorem predictStep_leaf {features : List Word} {node : ℕ} (h : tree.leftOf node = -1) :
    tree.predictStep features node = .ok (.inr (tree.valueOf node)) :=
  if_pos h

theorem predictStep_split {features : List Word} {node : ℕ} (h : tree.leftOf node ≠ -1) :
    tree.predictStep features node = .ok (.inl (tree.next features node)) :=
  if_neg h

/-- The loop of `predict_one` follows a walk to its leaf. -/
theorem whileLoop_of_leads {features : List Word} {node steps : ℕ} {value : Word}
    (h : tree.Leads features node steps value) : ∀ {bound : ℕ}, steps < bound →
      whileLoop .endless (tree.predictStep features) bound node = .ok value := by
  induction h with
  | leaf hleaf =>
    intro bound hbound
    obtain ⟨bound, rfl⟩ := Nat.exists_eq_succ_of_ne_zero (by omega : bound ≠ 0)
    rw [whileLoop, predictStep_leaf hleaf]
    rfl
  | step hsplit _ ih =>
    intro bound hbound
    obtain ⟨bound, rfl⟩ := Nat.exists_eq_succ_of_ne_zero (by omega : bound ≠ 0)
    rw [whileLoop, predictStep_split hsplit]
    exact ih (by omega)

/-- `node` is reached from the root in `depth` steps. -/
inductive Depth (tree : Tree) : ℕ → ℕ → Prop
  | root : Depth tree 0 0
  | child {depth node child : ℕ} : Depth tree depth node → node < tree.nodeCount →
      tree.IsChild node child → Depth tree (depth + 1) child

section Sound

variable {featureCount : ℕ} (h : tree.Sound featureCount)

include h

theorem lt_of_isChild {node child : ℕ} (hnode : node < tree.nodeCount)
    (hchild : tree.IsChild node child) : child < tree.nodeCount := by
  have hsplit := h.split node hnode hchild.1
  have := hsplit.left_lt
  have := hsplit.right_lt
  rcases hchild.2 with heq | heq <;> omega

theorem isChild_next (features : List Word) {node : ℕ} (hnode : node < tree.nodeCount)
    (hsplit : tree.leftOf node ≠ -1) : tree.IsChild node (tree.next features node) := by
  have hentries := h.split node hnode hsplit
  refine ⟨hsplit, ?_⟩
  unfold next
  split_ifs
  · exact .inl (Int.toNat_of_nonneg hentries.left_nonneg).symm
  · exact .inr (Int.toNat_of_nonneg hentries.right_nonneg).symm

theorem depth_unique {d node : ℕ} (hd : tree.Depth d node) :
    ∀ {d' : ℕ}, tree.Depth d' node → d = d' := by
  induction hd with
  | root =>
    intro d' hd'
    cases hd' with
    | root => rfl
    | child _ hnode hchild => exact absurd hchild (h.root _ hnode)
  | child _ hnode hchild ih =>
    intro d' hd'
    cases hd' with
    | root => exact absurd hchild (h.root _ hnode)
    | child hdepth hnode' hchild' =>
      obtain rfl := h.unique _ _ _ hnode hnode' hchild hchild'
      rw [ih hdepth]

/-- The nodes above a node are distinct, so the depth is below the number of nodes. -/
theorem depth_lt {d node : ℕ} (hd : tree.Depth d node) (hnode : node < tree.nodeCount) :
    d < tree.nodeCount := by
  have hpath : ∃ path : List ℕ, path.length = d + 1 ∧ path.Nodup ∧
      ∀ x ∈ path, x < tree.nodeCount ∧ ∃ j ≤ d, tree.Depth j x := by
    induction hd with
    | root => exact ⟨[0], rfl, List.nodup_singleton 0, by
        simpa using ⟨hnode, Depth.root⟩⟩
    | @child depth parent child hdepth hparent hchild ih =>
      obtain ⟨path, hlength, hnodup, hall⟩ := ih hparent
      refine ⟨child :: path, by simp [hlength], List.nodup_cons.2 ⟨fun hmem => ?_, hnodup⟩, ?_⟩
      · obtain ⟨_, j, hj, hjdepth⟩ := hall child hmem
        have := depth_unique h hjdepth (hdepth.child hparent hchild)
        omega
      · intro x hx
        rcases List.mem_cons.1 hx with rfl | hx
        · exact ⟨hnode, depth + 1, le_rfl, hdepth.child hparent hchild⟩
        · obtain ⟨hlt, j, hj, hjdepth⟩ := hall x hx
          exact ⟨hlt, j, by omega, hjdepth⟩
  obtain ⟨path, hlength, hnodup, hall⟩ := hpath
  have hsub : path.length ≤ (List.range tree.nodeCount).length :=
    (List.Nodup.subperm hnodup fun x hx => List.mem_range.2 (hall x hx).1).length_le
  rw [List.length_range] at hsub
  omega

/-- Every walk from a node of the tree meets a leaf before the depth reaches the number
of nodes. -/
theorem leads_of_depth (features : List Word) : ∀ (fuel : ℕ) {d node : ℕ}, tree.Depth d node →
    node < tree.nodeCount → tree.nodeCount ≤ d + fuel →
    ∃ steps value, d + steps < tree.nodeCount ∧ tree.Leads features node steps value
  | 0, d, node, hd, hnode, hfuel => by
    have := depth_lt h hd hnode
    omega
  | fuel + 1, d, node, hd, hnode, hfuel => by
    by_cases hleaf : tree.leftOf node = -1
    · exact ⟨0, _, depth_lt h hd hnode, .leaf hleaf⟩
    · have hchild := isChild_next h features hnode hleaf
      obtain ⟨steps, value, hsteps, hleads⟩ := leads_of_depth features fuel
        (hd.child hnode hchild) (lt_of_isChild h hnode hchild) (by omega)
      exact ⟨steps + 1, value, by omega, .step hleaf hleads⟩

/-- A walk from the root meets a leaf. -/
theorem exists_leads (features : List Word) :
    ∃ steps value, steps < tree.nodeCount ∧ tree.Leads features 0 steps value := by
  obtain ⟨steps, value, hsteps, hleads⟩ :=
    leads_of_depth h features tree.nodeCount Depth.root h.nodes_pos (by omega)
  exact ⟨steps, value, by omega, hleads⟩

end Sound

end Tree

end Npunlock
