import Mathlib.Data.Int.Notation
import Npunlock.Binary32
import Npunlock.WhileLoops

/-!
# Tree ensembles

The host's model of a binary XGBoost classifier. A tree is five parallel arrays, as the
source has it, and `Tree.validate` checks that they form a tree. Thresholds, leaves and
the base margin are held as the binary32 words they are rounded to, and the addition of
two numbers is a parameter.
-/

namespace Npunlock

/-- What the host code raises. `endless` is no exception : it stands for a loop that does
not come to an end. -/
inductive ModelError
  | value (message : String)
  | overflow (message : String)
  | endless
  deriving DecidableEq

/-- `Tree`. -/
structure Tree where
  left : List ℤ
  right : List ℤ
  splitFeature : List ℤ
  splitOrLeaf : List Word
  defaultLeft : List Bool
  deriving DecidableEq

namespace Tree

variable (tree : Tree)

/-- `node_count`. -/
def nodeCount : ℕ :=
  tree.left.length

/-- `left[node]`. The readers of the entries are used on nodes of the tree only. -/
def leftOf (node : ℕ) : ℤ :=
  tree.left.getD node (-1)

/-- `right[node]`. -/
def rightOf (node : ℕ) : ℤ :=
  tree.right.getD node (-1)

/-- `split_feature[node]`. -/
def featureOf (node : ℕ) : ℤ :=
  tree.splitFeature.getD node 0

/-- `split_or_leaf[node]`. -/
def valueOf (node : ℕ) : Word :=
  tree.splitOrLeaf.getD node 0

/-- `default_left[node]`. -/
def defaultOf (node : ℕ) : Bool :=
  tree.defaultLeft.getD node false

/-! ## Validation -/

/-- The state of `max_depth`. The end of the stack of the source is its head here. -/
structure DepthSearch where
  stack : List (ℕ × ℕ)
  seen : List ℕ
  maximum : ℕ

/-- One round of `max_depth`. -/
def depthStep (search : DepthSearch) : Except ModelError (DepthSearch ⊕ DepthSearch) :=
  match search.stack with
  | [] => .ok (.inr search)
  | (node, depth) :: stack => do
    refuseIf (node ∈ search.seen)
      (.value "tree contains a cycle or a multiply referenced node")
    let children := if tree.leftOf node ≠ -1
      then [((tree.rightOf node).toNat, depth + 1), ((tree.leftOf node).toNat, depth + 1)] else []
    .ok (.inl ⟨children ++ stack, node :: search.seen, max search.maximum depth⟩)

/-- `max_depth`. Every round adds a node to `seen` or raises. -/
def maxDepth : Except ModelError ℕ := do
  let search ← whileLoop .endless tree.depthStep (tree.nodeCount + 2) ⟨[(0, 0)], [], 0⟩
  refuseIf (search.seen.length ≠ tree.nodeCount) (.value "tree contains unreachable nodes")
  .ok search.maximum

/-- The checks of one node, which count the parents of its children. -/
def validateNode (featureCount index : ℕ) (parentCounts : List ℕ) :
    Except ModelError (List ℕ) := do
  let left := tree.leftOf index
  let right := tree.rightOf index
  refuseIf ((left = -1) ≠ (right = -1)) (.value s!"tree node {index} has only one child")
  if left = -1 ∧ right = -1 then .ok parentCounts
  else do
    refuseIf (¬(0 ≤ tree.featureOf index ∧ tree.featureOf index < featureCount))
      (.value s!"tree node {index} has an out-of-range feature index")
    refuseIf (¬(0 ≤ left ∧ left < tree.nodeCount ∧ 0 ≤ right ∧ right < tree.nodeCount) ∨
      left = right) (.value s!"tree node {index} has invalid child indices")
    let parentCounts := parentCounts.modify left.toNat (· + 1)
    .ok (parentCounts.modify right.toNat (· + 1))

/-- `validate`. -/
def validate (featureCount : ℕ) : Except ModelError Unit := do
  refuseIf (tree.nodeCount = 0 ∨ ¬(tree.right.length = tree.nodeCount ∧
      tree.splitFeature.length = tree.nodeCount ∧ tree.splitOrLeaf.length = tree.nodeCount ∧
      tree.defaultLeft.length = tree.nodeCount))
    (.value "tree arrays must be nonempty and equal length")
  let parentCounts ← forRange 0 tree.nodeCount (List.replicate tree.nodeCount 0)
    (tree.validateNode featureCount)
  refuseIf (parentCounts.getD 0 0 ≠ 0 ∨ ∃ count ∈ parentCounts.drop 1, count ≠ 1)
    (.value "tree root/child parent counts are invalid")
  let _ ← tree.maxDepth
  .ok ()

/-! ## Predictions -/

/-- One round of `predict_one` at `node`. -/
def predictStep (features : List Word) (node : ℕ) : Except ModelError (ℕ ⊕ Word) :=
  if tree.leftOf node = -1 then .ok (.inr (tree.valueOf node))
  else
    let value := features.getD (tree.featureOf node).toNat 0
    let goesLeft := if Binary32.isNaN value then tree.defaultOf node
      else Binary32.lt value (tree.valueOf node)
    .ok (.inl (if goesLeft then (tree.leftOf node).toNat else (tree.rightOf node).toNat))

/-- `predict_one`. -/
def predictOne (features : List Word) : Except ModelError Word :=
  whileLoop .endless (tree.predictStep features) (tree.nodeCount + 1) 0

end Tree

/-- `Ensemble`, without its names and version. -/
structure Ensemble where
  featureCount : ℕ
  baseMargin : Word
  trees : List Tree
  deriving DecidableEq

/-- A two-dimensional array of features, after the conversion to binary32. -/
@[ext]
structure FeatureMatrix where
  width : ℕ
  rows : List (List Word)
  rows_width : ∀ row ∈ rows, row.length = width

namespace Ensemble

variable (ensemble : Ensemble)

/-- `node_count`. -/
def nodeCount : ℕ :=
  (ensemble.trees.map Tree.nodeCount).sum

/-- Every tree passes its own validation. -/
def Valid : Prop :=
  ∀ tree ∈ ensemble.trees, tree.validate ensemble.featureCount = .ok ()

instance : Decidable ensemble.Valid :=
  inferInstanceAs (Decidable (∀ tree ∈ ensemble.trees,
    tree.validate ensemble.featureCount = .ok ()))

/-- The margin of one row. -/
def rowMargin (add : Word → Word → Word) (row : List Word) : Except ModelError Word :=
  ensemble.trees.foldlM (fun margin tree => do
    let value ← tree.predictOne row
    .ok (add margin value)) ensemble.baseMargin

/-- `predict_margin`. -/
def predictMargin (add : Word → Word → Word) (features : FeatureMatrix) :
    Except ModelError (List Word) := do
  refuseIf (features.width ≠ ensemble.featureCount)
    (.value s!"features must have shape (N, {ensemble.featureCount})")
  features.rows.mapM (ensemble.rowMargin add)

end Ensemble

end Npunlock
