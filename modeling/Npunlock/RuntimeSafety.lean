import Npunlock.Counting
import Npunlock.RuntimePacking

/-!
# Safety of the XGBoost runtime kernels

What the runtime kernels do on buffers of any content. Every word that is used as an
index is checked first : `validateModel` ends in a `ValidForest`, whose trees lie inside
the model chunk with their children inside the tree, and the counts of the headers bound
the features and the records. So every kernel returns, with no access outside its
chunks.

A valid forest may still hold cycles. A walk that meets no leaf within its bound
(`Stuck`) makes the sample fail, and a failed stage leaves `-1` in the fourth word of its
output (`Failed`). The second stage refuses such a chunk, and so does the host.
-/

namespace Npunlock

namespace Runtime

/-! ## Forests in a model chunk -/

section Forest

variable (model : List Word)

/-- The metadata of a node. -/
def metadataAt (node : ℕ) : ℕ :=
  metadata ((model[nodeWord node]?).getD 0)

/-- The threshold or leaf of a node. -/
def valueAt (node : ℕ) : Word :=
  (model[nodeWord node + 1]?).getD 0

/-- The number of nodes of the tree at `root`. -/
def treeNodesAt (root : ℕ) : ℕ :=
  treeNodesOf (metadataAt model root)

/-- The root of a tree. -/
def rootAt : ℕ → ℕ
  | 0 => 0
  | tree + 1 => rootAt tree + treeNodesAt model (rootAt tree)

/-- Whether a node is a leaf. -/
def IsLeafAt (node : ℕ) : Prop :=
  featureOf (metadataAt model node) = leafFeature

/-- A tree inside the chunk whose nodes refer to the features and to each other. -/
structure ValidTree (featureCount nodeCount root : ℕ) : Prop where
  inside : root + treeNodesAt model root ≤ nodeCount
  nodes : ∀ node < treeNodesAt model root, IsLeafAt model (root + node) ∨
    featureOf (metadataAt model (root + node)) < featureCount ∧
      leftOf (metadataAt model (root + node)) < treeNodesAt model root ∧
      rightOf (metadataAt model (root + node)) < treeNodesAt model root

/-- The trees of a validated model. -/
structure ValidForest (featureCount treeCount nodeCount : ℕ) : Prop where
  trees : ∀ tree < treeCount, ValidTree model featureCount nodeCount (rootAt model tree)
  total : rootAt model treeCount = nodeCount

end Forest

theorem treeNodesOf_le (metadata : ℕ) : treeNodesOf metadata ≤ 16 := by
  unfold treeNodesOf
  omega

theorem treeNodesOf_pos (metadata : ℕ) : 0 < treeNodesOf metadata :=
  Nat.succ_pos _

theorem nodeWord_of_lt {node : ℕ} (h : node < 509) : nodeWord node = 5 + node * 2 := by
  unfold nodeWord modelHeaderWords
  exact u32_of_lt (by omega)

section Model

variable {model : List Word} (hmodel : model.length = chunkElements)

include hmodel

theorem stays_readNode {node : ℕ} (h : node < 509) :
    Stays (readWord model (nodeWord node)) fun word => metadata word = metadataAt model node := by
  have hindex : nodeWord node < model.length := by
    rw [nodeWord_of_lt h, hmodel, chunkElements]
    omega
  refine (stays_readWord hindex).mono fun word hword => ?_
  rw [metadataAt, hword]
  rfl

/-! ## Validation -/

theorem stays_validateNode {featureCount nodeCount root treeNodes node : ℕ}
    (hcount : nodeCount ≤ maxTotalNodes) (hnode : root + node < nodeCount) :
    Stays (validateNode model featureCount root treeNodes node) fun _ =>
      IsLeafAt model (root + node) ∨ featureOf (metadataAt model (root + node)) < featureCount ∧
        leftOf (metadataAt model (root + node)) < treeNodes ∧
        rightOf (metadataAt model (root + node)) < treeNodes := by
  have hcap : nodeCount ≤ 509 := hcount
  refine (stays_readNode hmodel (show root + node < 509 by omega)).bind fun word hword => ?_
  refine Meets.refuseIf_bind (by simp) fun _ => ?_
  rw [IsLeafAt, ← hword]
  refine Meets.ite (fun _ => ?_) fun hleaf => Meets.ok (.inl (not_not.1 hleaf))
  refine (Meets.refuseIf (by simp)).mono fun _ hok => .inr ?_
  omega

theorem stays_validateTree {featureCount nodeCount root : ℕ}
    (hcount : nodeCount ≤ maxTotalNodes) :
    Stays (validateTree model featureCount nodeCount root) fun next =>
      ValidTree model featureCount nodeCount root ∧ next = root + treeNodesAt model root := by
  have hcap : nodeCount ≤ 509 := hcount
  unfold validateTree
  refine Meets.refuseIf_bind (by simp) fun hroot => ?_
  have hlt : root < nodeCount := not_le.1 hroot
  refine (stays_readNode hmodel (show root < 509 by omega)).bind fun word hword => ?_
  refine Meets.refuseIf_bind (by simp) fun _ => ?_
  rw [hword]
  change Stays (refuseIf (nodeCount < u32 (root + treeNodesAt model root)) _ >>= _) _
  have hle : treeNodesAt model root ≤ 16 := treeNodesOf_le _
  have hwrap : u32 (root + treeNodesAt model root) = root + treeNodesAt model root :=
    u32_of_lt (by omega)
  rw [hwrap]
  refine Meets.refuseIf_bind (by simp) fun hinside => ?_
  have hinside : root + treeNodesAt model root ≤ nodeCount := not_lt.1 hinside
  have hnodes : ∀ node, 0 ≤ node → node < treeNodesAt model root →
      Stays (validateNode model featureCount root (treeNodesAt model root) node) _ :=
    fun node _ hnode => stays_validateNode hmodel hcount (by omega)
  refine (Meets.checkRange hnodes).bind fun _ hall => Meets.ok ⟨⟨hinside, ?_⟩, hwrap⟩
  exact fun node hnode => hall node (Nat.zero_le _) hnode

theorem stays_validateModel {featureCount treeCount nodeCount : ℕ}
    (hcount : nodeCount ≤ maxTotalNodes) :
    Stays (validateModel model featureCount treeCount nodeCount) fun _ =>
      ValidForest model featureCount treeCount nodeCount := by
  have hloop : Stays (forRange 0 treeCount 0 fun _ root =>
      validateTree model featureCount nodeCount root) fun root => root = rootAt model treeCount ∧
        ∀ before < treeCount, ValidTree model featureCount nodeCount (rootAt model before) := by
    refine Meets.forRange (fun tree root => root = rootAt model tree ∧
      ∀ before < tree, ValidTree model featureCount nodeCount (rootAt model before))
      (Nat.zero_le treeCount) ⟨rfl, fun _ h => absurd h (Nat.not_lt_zero _)⟩ ?_
    rintro tree root _ _ ⟨rfl, hbefore⟩
    refine (stays_validateTree hmodel hcount).mono fun next hnext => ⟨hnext.2, ?_⟩
    intro before hlt
    rcases Nat.lt_succ_iff_lt_or_eq.1 hlt with hlt | rfl
    · exact hbefore before hlt
    · exact hnext.1
  refine hloop.bind fun root hroot => ?_
  refine (Meets.refuseIf (by simp)).mono fun _ htotal => ⟨hroot.2, ?_⟩
  rw [← hroot.1]
  exact not_not.1 htotal

end Model

/-! ## Walks -/

section Walk

variable (features model : List Word) (sample featureCount root : ℕ)

/-- The node a walk goes to from a split. -/
def childAt (node : ℕ) : ℕ :=
  let metadata := metadataAt model (root + node)
  let value := (features[featureHeader + sample * featureCount + featureOf metadata]?).getD 0
  let goesLeft := if Binary32.isNaN value then defaultOf metadata ≠ 0
    else Binary32.lt value (valueAt model (root + node))
  if goesLeft then leftOf metadata else rightOf metadata

/-- The node after some steps from the root. -/
def pathNode : ℕ → ℕ
  | 0 => 0
  | step + 1 => childAt features model sample featureCount root (pathNode step)

/-- The walk meets no leaf among its first nodes. -/
def Stuck : Prop :=
  ∀ step < maxTreeNodes,
    ¬IsLeafAt model (root + pathNode features model sample featureCount root step)

end Walk

section Margin

variable {math : Arithmetic} {features model : List Word}
  {sample featureCount treeCount nodeCount root : ℕ}

theorem ite_lt {c : Prop} {_ : Decidable c} {a b n : ℕ} (ha : a < n) (hb : b < n) :
    (if c then a else b) < n := by
  split_ifs
  · exact ha
  · exact hb

theorem childAt_lt (htree : ValidTree model featureCount nodeCount root) {node : ℕ}
    (hnode : node < treeNodesAt model root) (hleaf : ¬IsLeafAt model (root + node)) :
    childAt features model sample featureCount root node < treeNodesAt model root := by
  obtain ⟨_, hleft, hright⟩ := (htree.nodes node hnode).resolve_left hleaf
  unfold childAt
  dsimp only
  exact ite_lt hleft hright

/-- One step of a walk in a valid tree, whose accesses are all inside the chunks. -/
theorem walkTree_succ (hfeatures : features.length = chunkElements)
    (hmodel : model.length = chunkElements) (hcount : nodeCount ≤ maxTotalNodes)
    (hsample : (sample + 1) * featureCount ≤ chunkElements - featureHeader)
    (htree : ValidTree model featureCount nodeCount root) {node : ℕ}
    (hnode : node < treeNodesAt model root) (steps : ℕ) :
    walkTree features model sample featureCount root (steps + 1) node =
      if featureOf (metadataAt model (root + node)) = leafFeature
      then .ok (valueAt model (root + node))
      else walkTree features model sample featureCount root steps
        (childAt features model sample featureCount root node) := by
  have hinside := htree.inside
  have hcap : nodeCount ≤ 509 := hcount
  have hlt : root + node < 509 := by omega
  have hword : nodeWord (root + node) < model.length := by
    rw [nodeWord_of_lt hlt, hmodel, chunkElements]
    omega
  have hvalue : nodeWord (root + node) + 1 < model.length := by
    rw [nodeWord_of_lt hlt, hmodel, chunkElements]
    omega
  have hwrap : u32 (nodeWord (root + node) + 1) = nodeWord (root + node) + 1 :=
    u32_of_lt (by rw [nodeWord_of_lt hlt]; omega)
  have hmetadata : metadata model[nodeWord (root + node)] = metadataAt model (root + node) := by
    rw [metadataAt, List.getElem?_eq_getElem hword]
    rfl
  have hsplit : model[nodeWord (root + node) + 1] = valueAt model (root + node) := by
    rw [valueAt, List.getElem?_eq_getElem hvalue]
    rfl
  rw [walkTree]
  dsimp only
  rw [readWord_of_getElem? (List.getElem?_eq_getElem hword), ok_bind, hwrap,
    readWord_of_getElem? (List.getElem?_eq_getElem hvalue), ok_bind, hmetadata, hsplit]
  split_ifs with hleaf
  · rfl
  · obtain ⟨hfeature, _, _⟩ := (htree.nodes node hnode).resolve_left hleaf
    have hindex : featureHeader + sample * featureCount +
        featureOf (metadataAt model (root + node)) < features.length := by
      rw [Nat.succ_mul] at hsample
      have : featureHeader + (chunkElements - featureHeader) = chunkElements := rfl
      omega
    have hbound : features.length < 2 ^ 32 := by
      rw [hfeatures]
      decide
    rw [u32_of_lt (by omega), readWord_of_getElem? (List.getElem?_eq_getElem hindex), ok_bind,
      childAt, List.getElem?_eq_getElem hindex]
    rfl

/-- A walk in a valid tree stays inside the chunks, and returns only from a leaf that it
meets within its steps. -/
theorem stays_walkTree (hfeatures : features.length = chunkElements)
    (hmodel : model.length = chunkElements) (hcount : nodeCount ≤ maxTotalNodes)
    (hsample : (sample + 1) * featureCount ≤ chunkElements - featureHeader)
    (htree : ValidTree model featureCount nodeCount root) :
    ∀ (steps first : ℕ),
      pathNode features model sample featureCount root first < treeNodesAt model root →
      Stays (walkTree features model sample featureCount root steps
        (pathNode features model sample featureCount root first)) fun _ =>
        ∃ step, first ≤ step ∧ step < first + steps ∧
          IsLeafAt model (root + pathNode features model sample featureCount root step)
  | 0, _, _ => Meets.error (by simp)
  | steps + 1, first, hnode => by
    rw [walkTree_succ hfeatures hmodel hcount hsample htree hnode]
    refine Meets.ite (fun hleaf => Meets.ok ⟨first, le_rfl, by omega, hleaf⟩) fun hleaf => ?_
    have hnext := stays_walkTree hfeatures hmodel hcount hsample htree steps (first + 1)
      (childAt_lt htree hnode hleaf)
    refine hnext.mono fun _ hstep => ?_
    obtain ⟨step, hle, hlt, hleaf⟩ := hstep
    exact ⟨step, by omega, by omega, hleaf⟩

/-- The trees of a sample stay inside the chunks, and no walk of a sample that returns is
stuck. -/
theorem stays_addTrees (hfeatures : features.length = chunkElements)
    (hmodel : model.length = chunkElements) (hcount : nodeCount ≤ maxTotalNodes)
    (hsample : (sample + 1) * featureCount ≤ chunkElements - featureHeader)
    (hforest : ValidForest model featureCount treeCount nodeCount) (start : Word) :
    Stays (addTrees math features model sample featureCount treeCount nodeCount start) fun _ =>
      ∀ tree < treeCount, ¬Stuck features model sample featureCount (rootAt model tree) := by
  have hcap : nodeCount ≤ 509 := hcount
  unfold addTrees
  refine Meets.bind (P := fun state : ℕ × Word => state.1 = rootAt model treeCount ∧
    ∀ tree < treeCount, ¬Stuck features model sample featureCount (rootAt model tree)) ?_ ?_
  · refine Meets.forRange (fun tree (state : ℕ × Word) => state.1 = rootAt model tree ∧
      ∀ before < tree, ¬Stuck features model sample featureCount (rootAt model before))
      (Nat.zero_le treeCount) ⟨rfl, fun _ h => absurd h (Nat.not_lt_zero _)⟩ ?_
    rintro tree ⟨root, total⟩ _ htree ⟨hroot, hbefore⟩
    dsimp only at hroot ⊢
    subst hroot
    have hvalid := hforest.trees tree htree
    have hinside := hvalid.inside
    have hpos : 0 < treeNodesAt model (rootAt model tree) := treeNodesOf_pos _
    refine (stays_readNode hmodel (show rootAt model tree < 509 by omega)).bind fun word hword => ?_
    refine (stays_walkTree hfeatures hmodel hcount hsample hvalid maxTreeNodes 0 hpos).bind
      fun leaf hleaf => Meets.ok ⟨?_, ?_⟩
    · rw [hword]
      exact u32_of_lt (show rootAt model tree + treeNodesAt model (rootAt model tree) < 2 ^ 32
        by omega)
    · intro before hlt
      rcases Nat.lt_succ_iff_lt_or_eq.1 hlt with hlt | rfl
      · exact hbefore before hlt
      · obtain ⟨step, _, hstep, hleaf⟩ := hleaf
        exact fun hstuck => hstuck step (by omega) hleaf
  · rintro state ⟨_, hnone⟩
    exact Meets.refuseIf_bind (by simp) fun _ => Meets.ok hnone

end Margin

/-! ## Headers -/

/-- What an accepted header satisfies, for records of `width` words a sample. -/
structure HeaderBounds (model : List Word) (width : ℕ) (header : Header) : Prop where
  nodes_le : header.nodeCount ≤ maxTotalNodes
  forest : ValidForest model header.featureCount header.treeCount header.nodeCount
  features_le : header.sampleCount * header.featureCount ≤ chunkElements - featureHeader
  records_le : header.sampleCount * width ≤ chunkElements - featureHeader

theorem mul_le_of_le_div {a b c : ℕ} (h : ¬c / b < a) : a * b ≤ c :=
  (Nat.mul_le_mul_right b (not_lt.1 h)).trans (Nat.div_mul_le_self c b)

section Headers

variable {math : Arithmetic} {features model output : List Word}
  (hfeatures : features.length = chunkElements) (hmodel : model.length = chunkElements)

include hmodel

theorem stays_treeCountOf : Stays (treeCountOf model) fun treeCount => treeCount ≤ maxTrees := by
  unfold treeCountOf
  refine (stays_readWord (by rw [hmodel]; decide)).bind fun magic _ => ?_
  refine (stays_countOf magic (by decide)).bind fun _ _ => ?_
  refine Meets.refuseIf_bind (by simp) fun _ => ?_
  refine (stays_readWord (by rw [hmodel]; decide)).bind fun count _ => ?_
  refine (stays_countOf count (by decide)).bind fun treeCount hcount => ?_
  exact Meets.refuseIf_bind (by simp) fun _ => Meets.ok hcount

theorem stays_nodeCountOf (featureCount : ℕ) :
    Stays (nodeCountOf model featureCount) fun nodeCount => nodeCount ≤ maxTotalNodes := by
  unfold nodeCountOf
  refine (stays_readWord (by rw [hmodel]; decide)).bind fun count _ => ?_
  refine (stays_countOf count (by decide)).bind fun nodeCount hcount => ?_
  refine Meets.refuseIf_bind (by simp) fun _ => ?_
  refine (stays_readWord (by rw [hmodel]; decide)).bind fun width _ => ?_
  refine (stays_countOf width (by decide)).bind fun _ _ => ?_
  exact Meets.refuseIf_bind (by simp) fun _ => Meets.ok hcount

include hfeatures

theorem stays_runtimeHeader :
    Stays (runtimeHeader features model) (HeaderBounds model outputWords) := by
  unfold runtimeHeader
  refine (stays_readWord (by rw [hfeatures]; decide)).bind fun word _ => ?_
  refine (stays_countOf word (by decide)).bind fun sampleCount _ => ?_
  refine (stays_readWord (by rw [hfeatures]; decide)).bind fun word _ => ?_
  refine (stays_countOf word (by decide)).bind fun featureCount _ => ?_
  refine Meets.refuseIf_bind (by simp) fun _ => ?_
  refine Meets.refuseIf_bind (by simp) fun hvalues => ?_
  refine Meets.refuseIf_bind (by simp) fun hrecords => ?_
  refine (stays_treeCountOf hmodel).bind fun treeCount _ => ?_
  refine (stays_nodeCountOf hmodel featureCount).bind fun nodeCount hnodes => ?_
  refine (stays_validateModel hmodel hnodes).bind fun _ hforest => Meets.ok ?_
  exact ⟨hnodes, hforest, mul_le_of_le_div hvalues, mul_le_of_le_div hrecords⟩

theorem stays_firstHeader : Stays (firstHeader features model) fun entry =>
    HeaderBounds model (entry.1.featureCount + 1) entry.1 := by
  unfold firstHeader
  refine (stays_readWord (by rw [hfeatures]; decide)).bind fun word _ => ?_
  refine (stays_countOf word (by decide)).bind fun sampleCount _ => ?_
  refine (stays_readWord (by rw [hfeatures]; decide)).bind fun word _ => ?_
  refine (stays_countOf word (by decide)).bind fun featureCount _ => ?_
  refine Meets.refuseIf_bind (by simp) fun _ => ?_
  refine Meets.refuseIf_bind (by simp) fun hvalues => ?_
  refine (stays_readWord (by rw [hfeatures]; decide)).bind fun word _ => ?_
  refine (stays_countOf word (by decide)).bind fun total _ => ?_
  refine (stays_treeCountOf hmodel).bind fun treeCount _ => ?_
  refine Meets.refuseIf_bind (by simp) fun _ => ?_
  refine (stays_nodeCountOf hmodel featureCount).bind fun nodeCount hnodes => ?_
  refine (stays_validateModel hmodel hnodes).bind fun _ hforest => Meets.ok ?_
  have hle := mul_le_of_le_div hvalues
  refine ⟨hnodes, hforest, ?_, hle⟩
  exact (Nat.mul_le_mul_left sampleCount (Nat.le_succ featureCount)).trans hle

theorem stays_chainHeader : Stays (chainHeader features model) fun entry =>
    HeaderBounds model outputWords entry.1 ∧
      HeaderBounds model (entry.1.featureCount + 1) entry.1 ∧
      ∃ word total, features[3]? = some word ∧ countOf word maxTrees = .ok total := by
  unfold chainHeader
  refine (stays_readWord (by rw [hfeatures]; decide)).bind fun word _ => ?_
  refine (stays_countOf word (by decide)).bind fun sampleCount _ => ?_
  refine (stays_readWord (by rw [hfeatures]; decide)).bind fun word _ => ?_
  refine (stays_countOf word (by decide)).bind fun featureCount _ => ?_
  refine Meets.refuseIf_bind (by simp) fun _ => ?_
  refine Meets.refuseIf_bind (by simp) fun hvalues => ?_
  refine Meets.refuseIf_bind (by simp) fun hrecords => ?_
  refine (stays_readWord (by rw [hfeatures]; decide)).bind fun word _ => ?_
  refine (stays_countOf word (by decide)).bind fun first _ => ?_
  refine Meets.refuseIf_bind (by simp) fun _ => ?_
  refine (stays_readWord (by rw [hfeatures]; decide)).bind fun word hword => ?_
  refine (stays_countOf word (by decide)).of_eq.bind fun total htotal => ?_
  refine (stays_treeCountOf hmodel).bind fun treeCount _ => ?_
  refine Meets.refuseIf_bind (by simp) fun _ => ?_
  refine (stays_nodeCountOf hmodel featureCount).bind fun nodeCount hnodes => ?_
  refine (stays_readWord (by rw [hmodel]; decide)).bind fun base _ => ?_
  refine Meets.refuseIf_bind (by simp) fun _ => ?_
  refine (stays_validateModel hmodel hnodes).bind fun _ hforest => Meets.ok ?_
  have hle := mul_le_of_le_div hvalues
  have hfeatures := (Nat.mul_le_mul_left sampleCount (Nat.le_succ featureCount)).trans hle
  exact ⟨⟨hnodes, hforest, hfeatures, mul_le_of_le_div hrecords⟩,
    ⟨hnodes, hforest, hfeatures, hle⟩, word, total, hword, htotal.1⟩

/-! ## Samples -/

theorem stays_margin {width : ℕ} {header : Header} (hheader : HeaderBounds model width header)
    {sample : ℕ} (hsample : sample < header.sampleCount) :
    Stays (margin math features model sample header.featureCount header.treeCount
      header.nodeCount) fun _ => ∀ tree < header.treeCount,
        ¬Stuck features model sample header.featureCount (rootAt model tree) := by
  unfold margin
  refine (stays_readWord (by rw [hmodel]; decide)).bind fun base _ => ?_
  exact stays_addTrees hfeatures hmodel hheader.nodes_le
    ((Nat.mul_le_mul_right _ hsample).trans hheader.features_le) hheader.forest base

theorem stays_chainedMargin {header : Header}
    (hheader : HeaderBounds model (header.featureCount + 1) header) {sample : ℕ}
    (hsample : sample < header.sampleCount) :
    Stays (chainedMargin math features model sample header.sampleCount header.featureCount
      header.treeCount header.nodeCount) fun _ => ∀ tree < header.treeCount,
        ¬Stuck features model sample header.featureCount (rootAt model tree) := by
  have hrecords := hheader.records_le
  rw [Nat.mul_succ] at hrecords
  have hindex : featureHeader + header.sampleCount * header.featureCount + sample <
      chunkElements := by
    have : featureHeader + (chunkElements - featureHeader) = chunkElements := rfl
    omega
  have hwrap : u32 (featureHeader + header.sampleCount * header.featureCount + sample) =
      featureHeader + header.sampleCount * header.featureCount + sample :=
    u32_of_lt (hindex.trans (by decide))
  unfold chainedMargin
  rw [hwrap]
  refine (stays_readWord (by rw [hfeatures]; exact hindex)).bind fun carried _ => ?_
  refine Meets.refuseIf_bind (by simp) fun _ => ?_
  exact stays_addTrees hfeatures hmodel hheader.nodes_le
    ((Nat.mul_le_mul_right _ hsample).trans hheader.features_le) hheader.forest carried

end Headers

/-! ## Outputs -/

/-- A failed invocation leaves `-1` in the fourth word of its output. -/
def Failed (output : List Word) : Prop :=
  output[3]? = some Binary32.minusOne

section Outputs

variable {math : Arithmetic} {output : List Word}

theorem returns_clear (houtput : output.length = chunkElements) :
    Returns (clear output) fun after => after.length = chunkElements := by
  refine Meets.forRange (fun _ (after : List Word) => after.length = chunkElements)
    (Nat.zero_le _) houtput ?_
  intro index after _ hindex hafter
  exact (returns_writeWord (by rwa [hafter]) 0).mono fun last hlast => hlast.trans hafter

theorem returns_writeMinusOne (houtput : output.length = chunkElements) :
    Returns (writeWord output 3 Binary32.minusOne) fun after =>
      after.length = chunkElements ∧ Failed after := by
  have hindex : 3 < output.length := by
    rw [houtput]
    decide
  refine Returns.of_eq (writeWord_of_lt hindex _) ⟨List.length_set.trans houtput, ?_⟩
  rw [Failed, List.getElem?_set_self hindex]

theorem returns_writeFailure (houtput : output.length = chunkElements) :
    Returns (writeFailure output) fun after =>
      after.length = chunkElements ∧ Failed after := by
  unfold writeFailure
  exact (returns_clear houtput).bind fun after hafter => returns_writeMinusOne hafter

theorem returns_writeRecord (houtput : output.length = chunkElements) {sample sampleCount : ℕ}
    (hsample : sample < sampleCount)
    (hrecords : sampleCount * outputWords ≤ chunkElements - featureHeader) (margin : Word) :
    Returns (writeRecord math sample margin output) fun after =>
      after.length = chunkElements := by
  have hinside : featureHeader + sample * outputWords + 3 ≤ chunkElements := by
    have hle := (Nat.mul_le_mul_right outputWords hsample).trans hrecords
    rw [Nat.succ_mul] at hle
    have : featureHeader + (chunkElements - featureHeader) = chunkElements := rfl
    have : outputWords = 3 := rfl
    omega
  have hwrap : u32 (featureHeader + sample * outputWords) =
      featureHeader + sample * outputWords := by
    have : chunkElements < 2 ^ 32 := by decide
    exact u32_of_lt (by omega)
  unfold writeRecord
  dsimp only
  rw [hwrap]
  refine (returns_writeWords _ ?_).mono fun after hafter => hafter.trans houtput
  rw [houtput]
  exact hinside

/-- The loop over the samples returns, and leaves a failed output if some sample fails. -/
theorem returns_sampleLoop {margin : ℕ → Except KernelHalt Word}
    {emit : ℕ → Word → List Word → Except KernelHalt (List Word)} {sampleCount : ℕ}
    (hmargin : ∀ sample < sampleCount, Stays (margin sample) fun _ => True)
    (hemit : ∀ sample < sampleCount, ∀ value output, output.length = chunkElements →
      Returns (emit sample value output) fun after => after.length = chunkElements) :
    ∀ (remaining sample : ℕ) (output : List Word), sample + remaining = sampleCount →
      output.length = chunkElements →
      Returns (sampleLoop margin emit remaining sample output) fun after =>
        after.length = chunkElements ∧
          ((∃ other, sample ≤ other ∧ other < sampleCount ∧ margin other = .error .refused) →
            Failed after)
  | 0, sample, output, hsum, houtput =>
    Meets.ok ⟨houtput, fun ⟨other, hle, hlt, _⟩ => by omega⟩
  | remaining + 1, sample, output, hsum, houtput => by
    refine returns_ifRefused (hmargin sample (by omega)).of_eq (fun _ => ?_) fun value hvalue => ?_
    · exact (returns_writeMinusOne houtput).mono fun after hafter => ⟨hafter.1, fun _ => hafter.2⟩
    · refine (hemit sample (by omega) value output houtput).bind fun after hafter => ?_
      refine (returns_sampleLoop hmargin hemit remaining (sample + 1) after (by omega)
        hafter).mono fun last hlast => ⟨hlast.1, fun ⟨other, hle, hlt, hother⟩ => ?_⟩
      rcases Nat.eq_or_lt_of_le hle with rfl | hlt'
      · exact absurd (hvalue.1.symm.trans hother) (by simp)
      · exact hlast.2 ⟨other, hlt', hlt, hother⟩

end Outputs

/-! ## Kernels -/

/-- A call that stays inside its buffers and has no value to end in returns zero. -/
theorem refused_of_stays {α : Type} {x : Except KernelHalt α} {P : α → Prop} (h : Stays x P)
    (hnone : ∀ value, ¬P value) : x = .error .refused := by
  cases hx : x with
  | ok value => exact absurd (h.value value hx) (hnone value)
  | error halt =>
    cases halt with
    | refused => rfl
    | outOfBounds => exact absurd rfl (h.not_bad _ hx)

/-- What a kernel leaves in its output chunk, from the header it accepts and the margins
of its samples. -/
structure ActSpec {H : Type} (accepted : Except KernelHalt H) (header : H → Header)
    (margins : H → ℕ → Except KernelHalt Word) (features model after : List Word) : Prop where
  length : after.length = chunkElements
  refused : accepted = .error .refused → Failed after
  sample : ∀ h, accepted = .ok h → ∀ sample < (header h).sampleCount,
    margins h sample = .error .refused → Failed after
  stuck : ∀ h, accepted = .ok h → ∀ sample < (header h).sampleCount,
    ∀ tree < (header h).treeCount,
      Stuck features model sample (header h).featureCount (rootAt model tree) → Failed after

section Acts

variable {math : Arithmetic} {features model output : List Word}

/-- The common end of the kernels : their headers are accepted and their samples follow. -/
theorem actSpec_of_loop {H : Type} {accepted : Except KernelHalt H} {header : H → Header}
    {margins : H → ℕ → Except KernelHalt Word} {h : H} (haccepted : accepted = .ok h)
    (hmargins : ∀ sample < (header h).sampleCount, Stays (margins h sample) fun _ =>
      ∀ tree < (header h).treeCount,
        ¬Stuck features model sample (header h).featureCount (rootAt model tree))
    {after : List Word} (hlength : after.length = chunkElements)
    (hfailed : (∃ other, 0 ≤ other ∧ other < (header h).sampleCount ∧
      margins h other = .error .refused) → Failed after) :
    ActSpec accepted header margins features model after where
  length := hlength
  refused hrefused := absurd (haccepted.symm.trans hrefused) (by simp)
  sample h' h'accepted sample hsample hrefused := by
    obtain rfl := Except.ok.inj (haccepted.symm.trans h'accepted)
    exact hfailed ⟨sample, Nat.zero_le _, hsample, hrefused⟩
  stuck h' h'accepted sample hsample tree htree hstuck := by
    obtain rfl := Except.ok.inj (haccepted.symm.trans h'accepted)
    refine hfailed ⟨sample, Nat.zero_le _, hsample, ?_⟩
    exact refused_of_stays (hmargins sample hsample) fun _ hnone => hnone tree htree hstuck

theorem actSpec_of_refused {H : Type} {accepted : Except KernelHalt H} {header : H → Header}
    {margins : H → ℕ → Except KernelHalt Word} (hrefused : accepted = .error .refused)
    {after : List Word} (h : after.length = chunkElements ∧ Failed after) :
    ActSpec accepted header margins features model after where
  length := h.1
  refused _ := h.2
  sample _ haccepted := absurd (hrefused.symm.trans haccepted) (by simp)
  stuck _ haccepted := absurd (hrefused.symm.trans haccepted) (by simp)

/-- The margins of the single-stage kernel and of the first stage. -/
def marginsOf (math : Arithmetic) (features model : List Word) (header : Header) (sample : ℕ) :
    Except KernelHalt Word :=
  margin math features model sample header.featureCount header.treeCount header.nodeCount

/-- The margins of the second stage. -/
def chainedMarginsOf (math : Arithmetic) (features model : List Word) (header : Header)
    (sample : ℕ) : Except KernelHalt Word :=
  chainedMargin math features model sample header.sampleCount header.featureCount
    header.treeCount header.nodeCount

variable (hfeatures : features.length = chunkElements) (hmodel : model.length = chunkElements)
  (houtput : output.length = chunkElements)

include hfeatures hmodel houtput

theorem returns_runtimeAct :
    Returns (runtimeAct math features model chunkElements output)
      (ActSpec (runtimeHeader features model) id (marginsOf math features model) features
        model) := by
  unfold runtimeAct
  rw [if_neg (by simp)]
  refine returns_ifRefused (stays_runtimeHeader hfeatures hmodel).of_eq (fun hrefused => ?_)
    fun header hheader => ?_
  · exact (returns_writeFailure houtput).mono fun after => actSpec_of_refused hrefused
  · obtain ⟨haccepted, hbounds⟩ := hheader
    have hmargins : ∀ sample < header.sampleCount, Stays (marginsOf math features model header
        sample) _ := fun sample => stays_margin hfeatures hmodel hbounds
    refine (returns_clear houtput).bind fun cleared hcleared => ?_
    refine (returns_writeWords _ (by simp [hcleared, chunkElements])).bind
      fun started hstarted => ?_
    refine (returns_sampleLoop (fun sample hsample => (hmargins sample hsample).mono
      fun _ _ => trivial) (fun sample hsample value output houtput =>
        returns_writeRecord houtput hsample hbounds.records_le value) header.sampleCount 0 started
      (Nat.zero_add _) (hstarted.trans hcleared)).mono fun after hafter => ?_
    exact actSpec_of_loop haccepted hmargins hafter.1 hafter.2

theorem returns_chainAct :
    Returns (chainAct math features model chunkElements output)
      (ActSpec (chainHeader features model) Prod.fst
        (fun entry => chainedMarginsOf math features model entry.1) features model) := by
  unfold chainAct
  rw [if_neg (by simp)]
  refine returns_ifRefused (stays_chainHeader hfeatures hmodel).of_eq (fun hrefused => ?_)
    fun entry hentry => ?_
  · exact (returns_writeFailure houtput).mono fun after => actSpec_of_refused hrefused
  · obtain ⟨haccepted, hrecords, hbounds, _⟩ := hentry
    have hmargins : ∀ sample < entry.1.sampleCount, Stays (chainedMarginsOf math features model
        entry.1 sample) _ := fun sample => stays_chainedMargin hfeatures hmodel hbounds
    refine (returns_clear houtput).bind fun cleared hcleared => ?_
    refine (returns_writeWords _ (by simp [hcleared, chunkElements])).bind
      fun started hstarted => ?_
    refine (returns_sampleLoop (fun sample hsample => (hmargins sample hsample).mono
      fun _ _ => trivial) (fun sample hsample value output houtput =>
        returns_writeRecord houtput hsample hrecords.records_le value) entry.1.sampleCount 0
      started (Nat.zero_add _) (hstarted.trans hcleared)).mono fun after hafter => ?_
    exact actSpec_of_loop haccepted hmargins hafter.1 hafter.2

/-- The first stage copies the features behind its header. -/
theorem returns_copyFeatures {count : ℕ} (hcount : count ≤ chunkElements - featureHeader) :
    Returns (forRange 0 count output fun index output => do
      let word ← readWord features (u32 (featureHeader + index))
      writeWord output (u32 (featureHeader + index)) word) fun after =>
        after.length = chunkElements := by
  refine Meets.forRange (fun _ (after : List Word) => after.length = chunkElements)
    (Nat.zero_le _) houtput ?_
  intro index after _ hindex hafter
  have hinside : featureHeader + index < chunkElements := by
    have : featureHeader + (chunkElements - featureHeader) = chunkElements := rfl
    omega
  rw [u32_of_lt (hinside.trans (by decide))]
  refine (returns_readWord (by rw [hfeatures]; exact hinside)).bind fun word _ => ?_
  refine (returns_writeWord (by rw [hafter]; exact hinside) word).mono fun last hlast => ?_
  exact hlast.trans hafter

theorem returns_firstAct :
    Returns (firstAct math features model chunkElements output)
      (ActSpec (firstHeader features model) Prod.fst
        (fun entry => marginsOf math features model entry.1) features model) := by
  unfold firstAct
  rw [if_neg (by simp)]
  refine returns_ifRefused (stays_firstHeader hfeatures hmodel).of_eq (fun hrefused => ?_)
    fun entry hentry => ?_
  · exact (returns_writeFailure houtput).mono fun after => actSpec_of_refused hrefused
  · obtain ⟨haccepted, hbounds⟩ := hentry
    have hmargins : ∀ sample < entry.1.sampleCount, Stays (marginsOf math features model
        entry.1 sample) _ := fun sample => stays_margin hfeatures hmodel hbounds
    have hrecords := hbounds.records_le
    rw [Nat.mul_succ] at hrecords
    have hchunk : featureHeader + (chunkElements - featureHeader) = chunkElements := rfl
    have hsmall : chunkElements < 2 ^ 32 := by decide
    have hwrap : u32 (entry.1.sampleCount * entry.1.featureCount) =
        entry.1.sampleCount * entry.1.featureCount := u32_of_lt (by omega)
    dsimp only
    rw [hwrap]
    refine (returns_clear houtput).bind fun cleared hcleared => ?_
    refine (returns_writeWords _ (by simp [hcleared, chunkElements])).bind
      fun started hstarted => ?_
    refine (returns_copyFeatures hfeatures hmodel (hstarted.trans hcleared)
      hbounds.features_le).bind fun copied hcopied => ?_
    refine (returns_sampleLoop (fun sample hsample => (hmargins sample hsample).mono
      fun _ _ => trivial) ?_ entry.1.sampleCount 0 copied (Nat.zero_add _) hcopied).mono
      fun after hafter => ?_
    · intro sample hsample value output houtput
      have hinside : featureHeader + entry.1.sampleCount * entry.1.featureCount + sample <
          chunkElements := by
        omega
      rw [u32_of_lt (hinside.trans hsmall)]
      exact (returns_writeWord (by rw [houtput]; exact hinside) value).mono fun last hlast =>
        hlast.trans houtput
    · exact actSpec_of_loop haccepted hmargins hafter.1 hafter.2

omit houtput in
/-- The second stage refuses the output of a failed first stage. -/
theorem chainHeader_of_failed (hfailed : Failed features) :
    chainHeader features model = .error .refused := by
  refine refused_of_stays (stays_chainHeader hfeatures hmodel) ?_
  rintro entry ⟨_, _, word, total, hword, htotal⟩
  obtain rfl : word = Binary32.minusOne := Option.some.inj (hword.symm.trans hfailed)
  exact absurd htotal (by simp [countOf, show Binary32.exactNat Binary32.minusOne maxTrees = none
    by decide])

end Acts

/-! ## The host -/

/-- A logical tensor of four chunks. -/
def IsLogical (buffer : List (List Word)) : Prop :=
  buffer.map List.length = List.replicate replicas chunkElements

theorem IsLogical.length {buffer : List (List Word)} (h : IsLogical buffer) :
    buffer.length = replicas := by
  have := congrArg List.length h
  simpa using this

theorem IsLogical.chunk {buffer : List (List Word)} (h : IsLogical buffer) {chunk : List Word}
    (hchunk : chunk ∈ buffer) : chunk.length = chunkElements := by
  have hmem : chunk.length ∈ buffer.map List.length := List.mem_map_of_mem hchunk
  rw [h] at hmem
  exact List.eq_of_mem_replicate hmem

theorem isLogical_of_forall {buffer : List (List Word)} (hlength : buffer.length = replicas)
    (h : ∀ chunk ∈ buffer, chunk.length = chunkElements) : IsLogical buffer := by
  refine List.eq_replicate_iff.2 ⟨by simpa using hlength, fun n hn => ?_⟩
  obtain ⟨chunk, hchunk, rfl⟩ := List.mem_map.1 hn
  exact h chunk hchunk

/-- A header that the host accepts does not hold a failure. -/
theorem not_failed_of_checkHeader {what : String} {chunk : List Word}
    {size featureCount treeCount : ℕ} {u : Unit}
    (h : checkHeader what chunk size featureCount treeCount = .ok u) : ¬Failed chunk := by
  intro hfailed
  unfold checkHeader at h
  obtain ⟨header, hheader, h⟩ := bind_eq_ok_iff.1 h
  have heq : header = [(size : ℤ), featureCount, outputWords, treeCount] :=
    not_not.1 (refuseIf_eq_ok_iff.1 h)
  have hword : (chunk.take featureHeader)[3]? = some Binary32.minusOne := by
    rw [List.getElem?_take_of_lt (by decide)]
    exact hfailed
  have hrelated := mapM_eq_ok_iff.1 hheader
  obtain ⟨hlt, hget⟩ := List.getElem?_eq_some_iff.1 hword
  have hentry := (List.forall₂_iff_get.1 hrelated).2 3 hlt (by
    rw [← (List.forall₂_iff_get.1 hrelated).1]
    exact hlt)
  have hminus : decodeInt Binary32.minusOne = .ok (-1) := by decide
  rw [List.get_eq_getElem, hget, hminus] at hentry
  have htree := Except.ok.inj hentry
  subst heq
  simp only [List.get_eq_getElem, List.getElem_cons_succ, List.getElem_cons_zero] at htree
  omega

theorem shardSizes_bounds {sampleCount capacity : ℕ} {sizes : List ℕ}
    (h : shardSizes sampleCount capacity = .ok sizes) :
    0 < sizes.length ∧ sizes.length ≤ replicas := by
  unfold shardSizes at h
  obtain ⟨_, h⟩ := refuseIf_bind_eq_ok_iff.1 h
  obtain ⟨_, h⟩ := refuseIf_bind_eq_ok_iff.1 h
  obtain ⟨_, h⟩ := refuseIf_bind_eq_ok_iff.1 h
  obtain rfl := Except.ok.inj h
  simp only [balancedSizes, List.length_map, List.length_range, replicas]
  omega

/-- If the active chunks have accepted headers and the others repeat the first, no chunk
holds a failure. -/
theorem not_failed_of_chunks {output : List (List Word)} {sizes : List ℕ}
    (hsizes : 0 < sizes.length ∧ sizes.length ≤ output.length)
    (hactive : ∀ entry ∈ output.zip sizes, ¬Failed entry.1)
    (hinactive : ∀ chunk ∈ output.drop sizes.length, chunk = output.getD 0 []) :
    ∀ chunk ∈ output, ¬Failed chunk := by
  have hat : ∀ i (hi : i < output.length), i < sizes.length → ¬Failed output[i] := by
    intro i hi hlt
    have hzip : i < (output.zip sizes).length := by
      rw [List.length_zip]
      omega
    have hmem := List.getElem_mem hzip
    rw [List.getElem_zip] at hmem
    exact hactive _ hmem
  intro chunk hchunk
  obtain ⟨i, hi, rfl⟩ := List.getElem_of_mem hchunk
  rcases Nat.lt_or_ge i sizes.length with hlt | hge
  · exact hat i hi hlt
  · have hmem : output[i] ∈ output.drop sizes.length := by
      refine List.mem_iff_getElem.2 ⟨i - sizes.length, by rw [List.length_drop]; omega, ?_⟩
      rw [List.getElem_drop]
      congr 1
      omega
    rw [hinactive _ hmem, List.getD_eq_getElem _ _ (by omega)]
    exact hat 0 (by omega) (by omega)

/-- No chunk has failed of an output whose shards are read one by one. -/
theorem not_failed_of_read {α β : Type} {label message : String} {output : List (List Word)}
    {expectedSamples capacity : ℕ} {read : List Word × ℕ → Except ModelError α}
    {next : List α → Except ModelError β} {result : β}
    (hread : ∀ entry a, read entry = .ok a → ¬Failed entry.1)
    (h : (do
      checkSize label output
      let sizes ← shardSizes expectedSamples capacity
      let shards ← (output.zip sizes).mapM read
      refuseIf (∃ chunk ∈ output.drop sizes.length, chunk ≠ output.getD 0 []) (.value message)
      next shards) = .ok result) : ∀ chunk ∈ output, ¬Failed chunk := by
  obtain ⟨_, hsize, h⟩ := bind_eq_ok_iff.1 h
  obtain ⟨sizes, hsizes, h⟩ := bind_eq_ok_iff.1 h
  obtain ⟨shards, hshards, h⟩ := bind_eq_ok_iff.1 h
  obtain ⟨hinactive, _⟩ := refuseIf_bind_eq_ok_iff.1 h
  push Not at hinactive
  have hlogical : IsLogical output := not_not.1 (refuseIf_eq_ok_iff.1 hsize)
  have hbounds := shardSizes_bounds hsizes
  refine not_failed_of_chunks ⟨hbounds.1, hlogical.length ▸ hbounds.2⟩ (fun entry hentry => ?_)
    hinactive
  obtain ⟨a, _, ha⟩ := exists_of_forall₂ (mapM_eq_ok_iff.1 hshards) hentry
  exact hread entry a ha

theorem not_failed_of_unpackPredictions {output : List (List Word)}
    {expectedSamples featureCount treeCount capacity : ℕ} {predictions : Predictions}
    (h : unpackPredictions output expectedSamples featureCount treeCount capacity =
      .ok predictions) : ∀ chunk ∈ output, ¬Failed chunk := by
  refine not_failed_of_read (fun entry records hrecords => ?_) h
  obtain ⟨_, hheader, _⟩ := bind_eq_ok_iff.1 hrecords
  exact not_failed_of_checkHeader hheader

theorem not_failed_of_validatePartial {output : List (List Word)}
    {expectedSamples featureCount treeCount capacity : ℕ} {margins : List (List Word)}
    (h : validatePartial output expectedSamples featureCount treeCount capacity = .ok margins) :
    ∀ chunk ∈ output, ¬Failed chunk := by
  refine not_failed_of_read (fun entry values hvalues => ?_) h
  obtain ⟨_, hheader, _⟩ := bind_eq_ok_iff.1 hvalues
  exact not_failed_of_checkHeader hheader

/-! ## Runs -/

/-- A kernel that returns on every chunk returns on the four chunks of its tensors. -/
theorem exists_runReplicas
    {act : List Word → List Word → List Word → Except KernelHalt (List Word)}
    {P : List Word → List Word → List Word → Prop}
    (hact : ∀ features model output, features.length = chunkElements →
      model.length = chunkElements → output.length = chunkElements →
      Returns (act features model output) fun after =>
        after.length = chunkElements ∧ P features model after)
    {features model output : List (List Word)} (hfeatures : IsLogical features)
    (hmodel : IsLogical model) (houtput : IsLogical output) :
    ∃ after, runReplicas act features model output = .ok after ∧ IsLogical after ∧
      List.Forall₂ (fun entry after => P entry.1 entry.2.1 after)
        (features.zip (model.zip output)) after := by
  have hentries : ∀ entry ∈ features.zip (model.zip output), ∃ after,
      act entry.1 entry.2.1 entry.2.2 = .ok after ∧
        after.length = chunkElements ∧ P entry.1 entry.2.1 after := by
    rintro ⟨f, m, o⟩ hentry
    obtain ⟨hf, hrest⟩ := List.of_mem_zip hentry
    obtain ⟨hm, ho⟩ := List.of_mem_zip hrest
    exact (hact f m o (hfeatures.chunk hf) (hmodel.chunk hm) (houtput.chunk ho)).exists_ok
  obtain ⟨after, hafter⟩ : ∃ after, List.Forall₂ (fun entry after =>
      act entry.1 entry.2.1 entry.2.2 = .ok after ∧
        after.length = chunkElements ∧ P entry.1 entry.2.1 after)
      (features.zip (model.zip output)) after := by
    generalize features.zip (model.zip output) = entries at hentries
    induction entries with
    | nil => exact ⟨[], .nil⟩
    | cons entry entries ih =>
      obtain ⟨first, hfirst⟩ := hentries entry List.mem_cons_self
      obtain ⟨rest, hrest⟩ := ih fun other hother =>
        hentries other (List.mem_cons_of_mem entry hother)
      exact ⟨first :: rest, .cons hfirst hrest⟩
  refine ⟨after, mapM_eq_ok_iff.2 (hafter.imp fun _ _ h => h.1), ?_, hafter.imp fun _ _ h => h.2.2⟩
  refine isLogical_of_forall ?_ fun chunk hchunk => ?_
  · rw [← hafter.length_eq, List.length_zip, List.length_zip, hfeatures.length, hmodel.length,
      houtput.length, Nat.min_self, Nat.min_self]
  · obtain ⟨entry, _, h⟩ := exists_of_forall₂ hafter.flip hchunk
    exact h.2.1

/-- The first stage of a connected run. -/
def runFirst (math : Arithmetic) (features model output : List (List Word)) :
    Except KernelHalt (List (List Word)) :=
  runReplicas (fun features model output => firstAct math features model chunkElements output)
    features model output

/-- The second stage, on the output of a first stage. -/
def runChain (math : Arithmetic) (features model output : List (List Word)) :
    Except KernelHalt (List (List Word)) :=
  runReplicas (fun features model output => chainAct math features model chunkElements output)
    features model output

/-- The single-stage kernel. -/
def runSingle (math : Arithmetic) (features model output : List (List Word)) :
    Except KernelHalt (List (List Word)) :=
  runReplicas (fun features model output => runtimeAct math features model chunkElements output)
    features model output

/-- A two-stage run of which the first stage fails on some chunk ends in no predictions. -/
theorem exists_connected (math : Arithmetic)
    {features firstModel secondModel firstOutput secondOutput : List (List Word)}
    (hfeatures : IsLogical features) (hfirstModel : IsLogical firstModel)
    (hsecondModel : IsLogical secondModel) (hfirstOutput : IsLogical firstOutput)
    (hsecondOutput : IsLogical secondOutput) :
    ∃ first second, runFirst math features firstModel firstOutput = .ok first ∧
      runChain math first secondModel secondOutput = .ok second ∧
      ∀ expectedSamples featureCount treeCount capacity predictions,
        unpackPredictions second expectedSamples featureCount treeCount capacity =
          .ok predictions → ∀ chunk ∈ first, ¬Failed chunk := by
  obtain ⟨first, hfirst, hlogical, _⟩ := exists_runReplicas
    (P := fun _ _ _ => True) (fun f m o hf hm ho =>
      (show Returns (firstAct math f m chunkElements o) _ from returns_firstAct hf hm ho).mono
        fun _ h => ⟨h.length, trivial⟩)
    hfeatures hfirstModel hfirstOutput
  obtain ⟨second, hsecond, _, hrelated⟩ := exists_runReplicas
    (P := fun features _ after => Failed features → Failed after) (fun f m o hf hm ho =>
      (show Returns (chainAct math f m chunkElements o) _ from returns_chainAct hf hm ho).mono
        fun after h => ⟨h.length, fun hfailed =>
          h.refused (chainHeader_of_failed hf hm hfailed)⟩)
    hlogical hsecondModel hsecondOutput
  refine ⟨first, second, hfirst, hsecond, ?_⟩
  intro expectedSamples featureCount treeCount capacity predictions hunpack chunk hchunk hfailed
  obtain ⟨i, hi, rfl⟩ := List.getElem_of_mem hchunk
  have hzip : i < (first.zip (secondModel.zip secondOutput)).length := by
    rw [List.length_zip, List.length_zip, hsecondModel.length, hsecondOutput.length]
    rw [hlogical.length] at hi
    omega
  have hentry := List.getElem_mem hzip
  rw [List.getElem_zip] at hentry
  obtain ⟨after, hafter, himp⟩ := exists_of_forall₂ hrelated hentry
  exact not_failed_of_unpackPredictions hunpack after hafter (himp hfailed)

/-- The runtime kernels return on buffers of any content, with every access inside their
chunks; a sample with a walk that meets no leaf leaves a failed output; and a failure of
the first stage of a connected or of a partitioned run is an error of the host. -/
theorem kernels_safe (math : Arithmetic) :
    (∀ features model output : List Word, features.length = chunkElements →
      model.length = chunkElements → output.length = chunkElements →
      Returns (runtimeAct math features model chunkElements output)
          (ActSpec (runtimeHeader features model) id (marginsOf math features model) features
            model) ∧
        Returns (firstAct math features model chunkElements output)
          (ActSpec (firstHeader features model) Prod.fst
            (fun entry => marginsOf math features model entry.1) features model) ∧
        Returns (chainAct math features model chunkElements output)
          (ActSpec (chainHeader features model) Prod.fst
            (fun entry => chainedMarginsOf math features model entry.1) features model)) ∧
    (∀ features firstModel secondModel firstOutput secondOutput : List (List Word),
      IsLogical features → IsLogical firstModel → IsLogical secondModel →
      IsLogical firstOutput → IsLogical secondOutput →
      ∃ first second, runFirst math features firstModel firstOutput = .ok first ∧
        runChain math first secondModel secondOutput = .ok second ∧
        ∀ expectedSamples featureCount treeCount capacity predictions,
          unpackPredictions second expectedSamples featureCount treeCount capacity =
            .ok predictions → ∀ chunk ∈ first, ¬Failed chunk) ∧
    (∀ features model output : List (List Word), IsLogical features → IsLogical model →
      IsLogical output → ∃ first, runSingle math features model output = .ok first ∧
        ∀ expectedSamples featureCount treeCount capacity margins,
          validatePartial first expectedSamples featureCount treeCount capacity = .ok margins →
            ∀ chunk ∈ first, ¬Failed chunk) := by
  refine ⟨fun features model output hf hm ho => ⟨returns_runtimeAct hf hm ho,
    returns_firstAct hf hm ho, returns_chainAct hf hm ho⟩, ?_, ?_⟩
  · intro features firstModel secondModel firstOutput secondOutput h₁ h₂ h₃ h₄ h₅
    exact exists_connected math h₁ h₂ h₃ h₄ h₅
  · intro features model output hfeatures hmodel houtput
    obtain ⟨first, hfirst, _, _⟩ := exists_runReplicas (P := fun _ _ _ => True)
      (fun f m o hf hm ho =>
        (show Returns (runtimeAct math f m chunkElements o) _ from
          returns_runtimeAct hf hm ho).mono fun _ h => ⟨h.length, trivial⟩)
      hfeatures hmodel houtput
    exact ⟨first, hfirst, fun _ _ _ _ _ => not_failed_of_validatePartial⟩

/-! ### A cycle -/

/-- Sums of zeros and of ones, and the probability of the margin zero. -/
def zeroArithmetic : Arithmetic where
  add a b := if a = Binary32.one then 0x40000000
    else if Binary32.isFinite a = false then a else if a = 0 then b else a
  sub _ _ := 0
  div _ _ := Binary32.half
  exp _ := Binary32.one

/-- A tensor of zeros. -/
def zeroTensor : List (List Word) :=
  List.replicate replicas (List.replicate chunkElements 0)

/-- A sample with a quarter, for two trees in two stages. -/
def quarterFeatures : List Word :=
  [Binary32.one, Binary32.one, 0x40000000, 0, 0x3E800000] ++ List.replicate 1019 0

/-- One tree whose only node is its own child. -/
def cyclicModel : List Word :=
  [Binary32.ofNat modelMagic, Binary32.one, Binary32.one, Binary32.one, 0, 0x3F804000,
    Binary32.half] ++ List.replicate 1017 0

/-- The cycle fails the sample in the single-stage kernel and in the first stage, and the second
stage has no predictions for the host. -/
theorem kernels_safe_cyclic :
    (∃ after, runtimeAct zeroArithmetic quarterFeatures cyclicModel chunkElements
      (List.replicate chunkElements 0) = .ok after ∧ Failed after) ∧
    ∃ first second,
      runFirst zeroArithmetic (List.replicate replicas quarterFeatures)
        (List.replicate replicas cyclicModel) zeroTensor = .ok first ∧
      (∀ chunk ∈ first, Failed chunk) ∧
      runChain zeroArithmetic first (List.replicate replicas cyclicModel) zeroTensor =
        .ok second ∧
      ∀ expectedSamples featureCount treeCount capacity predictions,
        unpackPredictions second expectedSamples featureCount treeCount capacity ≠
          .ok predictions := by
  obtain ⟨hacts, hstages, -⟩ := kernels_safe zeroArithmetic
  have hlogical {chunk : List Word} (h : chunk.length = chunkElements) :
      IsLogical (List.replicate replicas chunk) := by
    rw [IsLogical, List.map_replicate, h]
  have hfeatures : quarterFeatures.length = chunkElements := by decide +kernel
  have hmodel : cyclicModel.length = chunkElements := by decide +kernel
  have houtput : (List.replicate chunkElements (0 : Word)).length = chunkElements :=
    List.length_replicate
  obtain ⟨hsingle, hfirst, -⟩ := hacts _ _ _ hfeatures hmodel houtput
  obtain ⟨after, hafter, hspec⟩ := hsingle.exists_ok
  obtain ⟨after', hafter', hspec'⟩ := hfirst.exists_ok
  have hfailed : Failed after' :=
    hspec'.sample (⟨1, 1, 1, 1⟩, 2) (by decide +kernel) 0 Nat.one_pos (by decide +kernel)
  obtain ⟨first, second, hrun, hchain, hunpack⟩ := hstages _ _ _ _ _ (hlogical hfeatures)
    (hlogical hmodel) (hlogical hmodel) (hlogical houtput) (hlogical houtput)
  have hfirsts : ∀ chunk ∈ first, Failed chunk := by
    intro chunk hchunk
    obtain ⟨entry, hentry, hact⟩ := exists_of_forall₂ (mapM_eq_ok_iff.1 hrun).flip hchunk
    obtain ⟨hf, hrest⟩ := List.of_mem_zip hentry
    obtain ⟨hm, ho⟩ := List.of_mem_zip hrest
    rw [List.eq_of_mem_replicate hf, List.eq_of_mem_replicate hm,
      List.eq_of_mem_replicate ho] at hact
    obtain rfl := Except.ok.inj (hafter'.symm.trans hact)
    exact hfailed
  refine ⟨⟨after, hafter, hspec.sample ⟨1, 1, 1, 1⟩ (by decide +kernel) 0 Nat.one_pos
    (by decide +kernel)⟩, first, second, hrun, hfirsts, hchain, ?_⟩
  intro expectedSamples featureCount treeCount capacity predictions hpredictions
  obtain ⟨chunk, hchunk⟩ : ∃ chunk, chunk ∈ first := by
    have hrelated := (mapM_eq_ok_iff.1 hrun).length_eq
    exact List.exists_mem_of_length_pos (hrelated ▸ by decide +kernel)
  exact hunpack _ _ _ _ _ hpredictions chunk hchunk (hfirsts chunk hchunk)

end Runtime

end Npunlock
