import Npunlock.RuntimeSpec
import Npunlock.SpecializedKernel

/-!
# The specialised XGBoost kernel serves the batches whose records fit

The packer admits as many rows as fit the input chunk, and the kernel as many as fit both
chunks. A record has three numbers, so the two differ for a model of one or two features :
the kernel returns without an output for the batches between the two bounds. `serves_iff`
says that the batches whose records fit are exactly the ones that are served, and that the
margins come back as the transport stores them, which is unchanged for single precision.
-/

namespace Npunlock

namespace Specialized

open Npunlock.Runtime (Arithmetic Predictions sigmoid FoldsFrom)

/-! ## Transports -/

theorem Transport.chunk_le (transport : Transport) : transport.spec.chunkElements ≤ 2048 := by
  cases transport <;> decide

theorem Transport.header_le (transport : Transport) :
    headerWords ≤ transport.spec.chunkElements := by
  cases transport <;> decide

theorem Transport.logical_eq (transport : Transport) :
    transport.spec.logicalElements =
      transport.spec.chunkElements + transport.spec.chunkElements := by
  cases transport <;> rfl

/-- Counts keep their value in either transport. -/
theorem Transport.widen_narrow_ofNat (transport : Transport) {n : ℕ} (h : n < 2049) :
    transport.spec.widen (transport.spec.narrow (Binary32.ofNat n)) = Binary32.ofNat n := by
  cases transport with
  | f16 => exact Binary16.widen_narrow_ofNat n h
  | f32 => rfl

/-! ## Trees -/

/-- The buffer has the features of a row from `start` on. -/
def HoldsFeatures (widen : Word → Word) (input : List Word) (start featureCount : ℕ)
    (row : List Word) : Prop :=
  ∀ feature < featureCount, ∃ word, input[start + feature]? = some word ∧
    widen word = row.getD feature 0

theorem literal_eq_ok {value word : Word} (h : literal value = .ok word) : word = value := by
  obtain ⟨_, h⟩ := refuseIf_bind_eq_ok_iff.1 h
  exact (Except.ok.inj h).symm

theorem meets_literal (value : Word) : Meets (· = .endless) (literal value) fun _ => True :=
  Meets.refuseIf_bind (by simp) fun _ => Meets.ok trivial

section Trees

variable {tree : Tree} {featureCount : ℕ} (hsound : tree.Sound featureCount)

include hsound

/-- A generated function follows the walk of the tree to its leaf. -/
theorem run_of_leads {widen : Word → Word} {input row : List Word} {start node steps : ℕ}
    {value : Word} (hholds : HoldsFeatures widen input start featureCount row)
    (hstart : start + featureCount ≤ 2 ^ 32) (h : tree.Leads row node steps value) :
    ∀ {depth : ℕ} {body : TreeBody}, node < tree.nodeCount → treeBody tree depth node = .ok body →
      body.run widen input start = .ok value := by
  induction h with
  | @leaf node hleaf =>
    intro depth body hnode hbody
    cases depth with
    | zero => cases hbody
    | succ depth =>
      rw [treeBody, if_pos hleaf] at hbody
      obtain ⟨word, hword, hbody⟩ := bind_eq_ok_iff.1 hbody
      obtain rfl := Except.ok.inj hbody
      rw [literal_eq_ok hword]
      rfl
  | @step node steps value hsplit _ ih =>
    intro depth body hnode hbody
    cases depth with
    | zero => cases hbody
    | succ depth =>
      rw [treeBody, if_neg hsplit] at hbody
      obtain ⟨threshold, hthreshold, hbody⟩ := bind_eq_ok_iff.1 hbody
      obtain ⟨missing, hmissing, hbody⟩ := bind_eq_ok_iff.1 hbody
      obtain ⟨left, hleft, hbody⟩ := bind_eq_ok_iff.1 hbody
      obtain ⟨right, hright, hbody⟩ := bind_eq_ok_iff.1 hbody
      obtain rfl := Except.ok.inj hbody
      rw [literal_eq_ok hthreshold]
      have hentries := hsound.split node hnode hsplit
      have hnonneg := hentries.feature_nonneg
      have hfeature : (tree.featureOf node).toNat < featureCount := by
        have := hentries.feature_lt
        omega
      obtain ⟨word, hword, hwiden⟩ := hholds _ hfeature
      have hnext := Tree.lt_of_isChild hsound hnode (Tree.isChild_next hsound row hnode hsplit)
      rw [TreeBody.run, u32_of_lt (by omega), readWord_of_getElem? hword, ok_bind]
      dsimp only
      rw [hwiden]
      -- the three branches are the three ways of `Tree.next`
      cases hnan : Binary32.isNaN (row.getD (tree.featureOf node).toNat 0) with
      | true =>
        have hgoes : tree.goesLeft row node = tree.defaultOf node := by
          rw [Tree.goesLeft, hnan, if_pos rfl]
        have hchild : tree.next row node =
            (if tree.defaultOf node then tree.leftOf node else tree.rightOf node).toNat := by
          rw [Tree.next, hgoes]
          split_ifs <;> rfl
        rw [if_pos rfl]
        exact ih hnext (hchild ▸ hmissing)
      | false =>
        have hgoes : tree.goesLeft row node =
            Binary32.lt (row.getD (tree.featureOf node).toNat 0) (tree.valueOf node) := by
          rw [Tree.goesLeft, hnan, if_neg Bool.false_ne_true]
        rw [if_neg Bool.false_ne_true]
        split_ifs with hless
        · have hchild : tree.next row node = (tree.leftOf node).toNat := by
            rw [Tree.next, hgoes, if_pos hless]
          exact ih hnext (hchild ▸ hleft)
        · have hchild : tree.next row node = (tree.rightOf node).toNat := by
            rw [Tree.next, hgoes, if_neg hless]
          exact ih hnext (hchild ▸ hright)

/-- The depth that the generator allows is enough for every tree. -/
theorem meets_treeBody : ∀ (depth : ℕ) {d node : ℕ}, tree.Depth d node →
    node < tree.nodeCount → tree.nodeCount ≤ d + depth →
    Meets (· = .endless) (treeBody tree depth node) fun _ => True
  | 0, d, node, hd, hnode, hdepth => by
    have := Tree.depth_lt hsound hd hnode
    omega
  | depth + 1, d, node, hd, hnode, hdepth => by
    rw [treeBody]
    refine Meets.ite (fun _ => (meets_literal _).bind fun _ _ => Meets.ok trivial)
      fun hsplit => ?_
    have hentries := hsound.split node hnode hsplit
    have hchild : ∀ child : ℤ, 0 ≤ child → (tree.leftOf node = child ∨ tree.rightOf node = child) →
        Meets (· = .endless) (treeBody tree depth child.toNat) fun _ => True := by
      intro child hnonneg hchild
      have hischild : tree.IsChild node child.toNat :=
        ⟨hsplit, by rwa [Int.toNat_of_nonneg hnonneg]⟩
      exact meets_treeBody depth (hd.child hnode hischild)
        (Tree.lt_of_isChild hsound hnode hischild) (by omega)
    have hleft := hchild _ hentries.left_nonneg (.inl rfl)
    have hright := hchild _ hentries.right_nonneg (.inr rfl)
    refine (meets_literal _).bind fun _ _ => ?_
    refine Meets.bind (P := fun _ => True) ?_ fun _ _ =>
      hleft.bind fun _ _ => hright.bind fun _ _ => Meets.ok trivial
    split_ifs
    · exact hleft
    · exact hright

end Trees

/-! ## Generated kernels -/

section Kernel

variable {math : Arithmetic} {transport : Transport} {ensemble : Ensemble}
  {kernel : SpecializedKernel}

/-- What a generated kernel has of its ensemble. -/
structure Generates (ensemble : Ensemble) (transport : Transport) (kernel : SpecializedKernel) :
    Prop where
  sent : kernel.transport = transport
  features : kernel.featureCount = ensemble.featureCount
  base : kernel.baseMargin = ensemble.baseMargin
  trees : List.Forall₂ (fun tree body => treeBody tree tree.nodeCount 0 = .ok body)
    ensemble.trees kernel.trees
  features_le : headerWords + ensemble.featureCount ≤ transport.spec.chunkElements
  trees_le : ensemble.trees.length ≤ maxTrees

theorem generates_of_generateKernelSource
    (h : generateKernelSource ensemble transport = .ok kernel) :
    Generates ensemble transport kernel := by
  unfold generateKernelSource at h
  obtain ⟨hfeatures, h⟩ := refuseIf_bind_eq_ok_iff.1 h
  obtain ⟨htrees, h⟩ := refuseIf_bind_eq_ok_iff.1 h
  obtain ⟨_, h⟩ := refuseIf_bind_eq_ok_iff.1 h
  obtain ⟨depth, _, h⟩ := bind_eq_ok_iff.1 h
  obtain ⟨_, h⟩ := refuseIf_bind_eq_ok_iff.1 h
  obtain ⟨trees, hbodies, h⟩ := bind_eq_ok_iff.1 h
  obtain ⟨baseMargin, hbase, h⟩ := bind_eq_ok_iff.1 h
  obtain rfl := Except.ok.inj h
  have hheader := transport.header_le
  exact ⟨rfl, rfl, literal_eq_ok hbase, mapM_eq_ok_iff.1 hbodies, by omega, not_lt.1 htrees⟩

/-- The margin of a row that the chunk holds. -/
theorem margin_of_holds (hsound : ∀ tree ∈ ensemble.trees, tree.Sound ensemble.featureCount)
    (h : Generates ensemble transport kernel) {input row : List Word} {start : ℕ} {margin : Word}
    (hholds : HoldsFeatures transport.spec.widen input start ensemble.featureCount row)
    (hstart : start + ensemble.featureCount ≤ 2 ^ 32)
    (hfold : FoldsFrom math ensemble ensemble.baseMargin row margin) :
    kernel.margin math input start = .ok margin := by
  have hrun : ∀ {trees bodies acc}, List.Forall₂ (fun (tree : Tree) body =>
      treeBody tree tree.nodeCount 0 = .ok body) trees bodies →
      (∀ tree ∈ trees, tree.Sound ensemble.featureCount) →
      trees.foldlM (fun margin tree => do
        let value ← tree.predictOne row
        .ok (math.add margin value)) acc = .ok margin →
      bodies.foldlM (fun margin tree => do
        let value ← tree.run transport.spec.widen input start
        .ok (math.add margin value)) acc = .ok margin := by
    intro trees bodies acc hbodies
    induction hbodies generalizing acc with
    | nil =>
      intro _ hfold
      exact congrArg Except.ok (Except.ok.inj hfold)
    | @cons tree body trees bodies hbody _ ih =>
      intro hsound hfold
      have htree := hsound tree List.mem_cons_self
      obtain ⟨steps, value, hsteps, hleads⟩ := Tree.exists_leads htree row
      have hvalue : tree.predictOne row = .ok value :=
        Tree.whileLoop_of_leads hleads (by omega)
      rw [List.foldlM_cons, hvalue] at hfold
      rw [List.foldlM_cons, run_of_leads htree hholds hstart hleads htree.nodes_pos hbody]
      exact ih (fun other hother => hsound other (List.mem_cons_of_mem _ hother)) hfold
  unfold SpecializedKernel.margin
  rw [h.sent, h.base]
  exact hrun h.trees hsound hfold

/-- The generator comes to an end for every validated ensemble. -/
theorem meets_generateKernelSource (hvalid : ensemble.Valid) (transport : Transport) :
    Meets (· = .endless) (generateKernelSource ensemble transport) fun _ => True := by
  have hdepths : Meets (· = .endless) (ensemble.trees.mapM Tree.maxDepth) fun _ => True := by
    refine (Meets.mapM (P := fun _ => True) fun tree htree => ?_).mono fun _ _ => trivial
    obtain ⟨_, h⟩ := refuseIf_bind_eq_ok_iff.1 (hvalid tree htree)
    obtain ⟨_, _, h⟩ := bind_eq_ok_iff.1 h
    obtain ⟨_, h⟩ := refuseIf_bind_eq_ok_iff.1 h
    obtain ⟨depth, hdepth, _⟩ := bind_eq_ok_iff.1 h
    rw [hdepth]
    exact Meets.ok trivial
  have hdepth : Meets (· = .endless) (ensembleDepth ensemble) fun _ => True := by
    refine hdepths.bind fun depths _ => ?_
    cases depths.max? with
    | some depth => exact Meets.ok trivial
    | none => exact Meets.error (by simp)
  refine Meets.refuseIf_bind (by simp) fun _ => Meets.refuseIf_bind (by simp) fun _ =>
    Meets.refuseIf_bind (by simp) fun _ => hdepth.bind fun _ _ =>
    Meets.refuseIf_bind (by simp) fun _ => ?_
  refine (Meets.mapM (P := fun _ => True) fun tree htree => ?_).bind fun trees _ =>
    Meets.bind (P := fun _ => True) ?_ fun _ _ => Meets.ok trivial
  · have hsound := Tree.sound_of_validate (hvalid tree htree)
    exact meets_treeBody hsound _ .root hsound.nodes_pos (Nat.zero_add _).ge
  · exact Meets.refuseIf_bind (by simp) fun _ => Meets.ok trivial

end Kernel

/-! ## Batches -/

/-- The records of a batch fit a chunk. -/
def RecordsFit (transport : Transport) (sampleCount : ℕ) : Prop :=
  headerWords + sampleCount * outputWordsPerSample ≤ transport.spec.chunkElements

instance (transport : Transport) (sampleCount : ℕ) : Decidable (RecordsFit transport sampleCount) :=
  inferInstanceAs (Decidable (_ ≤ _))

/-- The features as the transport stores them. -/
def transported (transport : Transport) (features : FeatureMatrix) : FeatureMatrix where
  width := features.width
  rows := features.rows.map
    (List.map fun value => transport.spec.widen (transport.spec.narrow value))
  rows_width := by
    intro row hrow
    obtain ⟨row, hmem, rfl⟩ := List.mem_map.1 hrow
    rw [List.length_map, features.rows_width row hmem]

/-- The record of a margin, as the kernel writes it. -/
def storedRecord (math : Arithmetic) (transport : Transport) (margin : Word) : List Word :=
  [margin, sigmoid math margin,
    if Binary32.le Binary32.half (sigmoid math margin) then Binary32.one else 0].map
      transport.spec.narrow

/-- The predictions as the transport stores them. -/
def storedPredictions (math : Arithmetic) (transport : Transport) (margins : List Word) :
    Predictions where
  margins := margins.map fun margin => transport.spec.widen (transport.spec.narrow margin)
  probabilities := margins.map fun margin =>
    transport.spec.widen (transport.spec.narrow (sigmoid math margin))
  classes := margins.map fun margin =>
    if Binary32.le Binary32.half (sigmoid math margin) then 1 else 0

/-- The words of an input chunk. -/
def inputWords (transport : Transport) (featureCount : ℕ) (rows : List (List Word)) : List Word :=
  [rows.length, featureCount, 0, 0].map (fun n => transport.spec.narrow (Binary32.ofNat n)) ++
    (rows.map (List.map transport.spec.narrow)).flatten

/-- A packed batch, which both invocations get. -/
def packedBatch (transport : Transport) (featureCount : ℕ) (rows : List (List Word)) : List Word :=
  paddedTo transport.spec.chunkElements (inputWords transport featureCount rows) ++
    paddedTo transport.spec.chunkElements (inputWords transport featureCount rows)

/-- The words of an output chunk. -/
def outputWords (math : Arithmetic) (transport : Transport) (featureCount treeCount : ℕ)
    (margins : List Word) : List Word :=
  [margins.length, featureCount, outputWordsPerSample, treeCount].map
    (fun n => transport.spec.narrow (Binary32.ofNat n)) ++
      margins.flatMap (storedRecord math transport)

/-- A launch of the kernel on a packed batch : the kernel takes the chunk, both invocations
stay inside their own chunks, and the host reads the predictions. -/
structure Serves (math : Arithmetic) (kernel : SpecializedKernel) (sampleCount featureCount : ℕ)
    (packed : List Word) (predictions : Predictions) : Prop where
  takes : kernel.sampleCountOf (packed.take kernel.transport.spec.chunkElements) =
    .ok sampleCount
  serves : ∀ output : List Word, output.length = kernel.transport.spec.logicalElements →
    ∃ after, kernel.run math packed output = .ok after ∧ after.length = output.length ∧
      unpackPredictions after sampleCount featureCount kernel.transport = .ok predictions

section Batches

variable {math : Arithmetic} {transport : Transport} {ensemble : Ensemble}
  {kernel : SpecializedKernel} {features : FeatureMatrix} {rows : List (List Word)}
  {margins : List Word} {featureCount : ℕ}

theorem length_inputWords (transport : Transport)
    (hrows : ∀ row ∈ rows, row.length = featureCount) :
    (inputWords transport featureCount rows).length = headerWords + rows.length * featureCount := by
  have hwidth : ∀ row ∈ rows.map (List.map transport.spec.narrow), row.length = featureCount := by
    intro row hrow
    obtain ⟨row, hmem, rfl⟩ := List.mem_map.1 hrow
    rw [List.length_map, hrows row hmem]
  rw [inputWords, List.length_append, length_flatten_rows hwidth, List.length_map,
    List.length_map]
  rfl

/-- A packed batch, and its bound. -/
theorem packFeatures_eq_ok {packed : List Word}
    (h : packFeatures features featureCount transport = .ok packed) :
    features.width = featureCount ∧ 0 < featureCount ∧
      features.rows.length ≤ (transport.spec.chunkElements - headerWords) / featureCount ∧
      packed = packedBatch transport featureCount features.rows := by
  unfold packFeatures at h
  obtain ⟨_, hcheck, h⟩ := bind_eq_ok_iff.1 h
  obtain ⟨hwidth, _⟩ := refuseIf_bind_eq_ok_iff.1 hcheck
  obtain ⟨capacity, hcapacity, h⟩ := bind_eq_ok_iff.1 h
  obtain ⟨hpos, hcapacity⟩ := refuseIf_bind_eq_ok_iff.1 hcapacity
  obtain rfl := Except.ok.inj hcapacity
  obtain ⟨hbatch, h⟩ := refuseIf_bind_eq_ok_iff.1 h
  obtain ⟨_, h⟩ := refuseIf_bind_eq_ok_iff.1 h
  exact ⟨not_not.1 hwidth, Nat.pos_of_ne_zero hpos, not_lt.1 hbatch, (Except.ok.inj h).symm⟩

theorem getElem?_inputWords {i : ℕ} (hi : i < 4) :
    (inputWords transport featureCount rows)[i]? =
      ([rows.length, featureCount, 0, 0].map
        fun n => transport.spec.narrow (Binary32.ofNat n))[i]? :=
  List.getElem?_append_left (by simpa using hi)

/-- The rows lie one after the other behind the header. -/
theorem holdsFeatures_inputWords (transport : Transport)
    (hrows : ∀ row ∈ rows, row.length = featureCount) {sample : ℕ}
    (hsample : sample < rows.length) (size : ℕ) :
    HoldsFeatures transport.spec.widen (paddedTo size (inputWords transport featureCount rows))
      (headerWords + sample * featureCount) featureCount
      (rows[sample].map fun value => transport.spec.widen (transport.spec.narrow value)) := by
  intro feature hfeature
  have hwidth : ∀ row ∈ rows.map (List.map transport.spec.narrow), row.length = featureCount := by
    intro row hrow
    obtain ⟨row, hmem, rfl⟩ := List.mem_map.1 hrow
    rw [List.length_map, hrows row hmem]
  have hrow := hrows _ (List.getElem_mem hsample)
  have hlength := length_inputWords transport hrows
  have hle : (sample + 1) * featureCount ≤ rows.length * featureCount :=
    Nat.mul_le_mul_right _ hsample
  rw [Nat.succ_mul] at hle
  have hsample' : sample < (rows.map (List.map transport.spec.narrow)).length := by
    rwa [List.length_map]
  have hentry := getElem?_flatten_rows [] hwidth hsample' hfeature
  rw [List.append_nil, List.getElem_map] at hentry
  have hheader : headerWords = 4 := rfl
  have hvalue : (rows[sample].map transport.spec.narrow)[feature]? =
      some (transport.spec.narrow (rows[sample].get ⟨feature, by omega⟩)) := by
    rw [List.getElem?_map, List.getElem?_eq_getElem (by omega)]
    rfl
  refine ⟨transport.spec.narrow (rows[sample].get ⟨feature, by omega⟩), ?_, ?_⟩
  · rw [getElem?_paddedTo (by omega), inputWords, List.getElem?_append_right (by simp; omega),
      List.length_map, show headerWords + sample * featureCount + feature -
        [rows.length, featureCount, 0, 0].length = sample * featureCount + feature by
          simp; omega]
    exact hentry.trans hvalue
  · rw [List.getD_eq_getElem?_getD, List.getElem?_map, List.getElem?_eq_getElem (by omega)]
    rfl

/-- The number of samples that the kernel takes from a packed chunk. -/
theorem sampleCountOf_inputWords (h : Generates ensemble transport kernel)
    (hfeatures : 0 < ensemble.featureCount)
    (hbatch : rows.length ≤ (transport.spec.chunkElements - headerWords) / ensemble.featureCount) :
    kernel.sampleCountOf (paddedTo transport.spec.chunkElements
      (inputWords transport ensemble.featureCount rows)) =
        if RecordsFit transport rows.length then .ok rows.length else .error .refused := by
  have hchunk := transport.chunk_le
  have hheader := transport.header_le
  have hfeaturesLe := h.features_le
  have hcapacity : (transport.spec.chunkElements - headerWords) / ensemble.featureCount ≤
      transport.spec.chunkElements - headerWords := Nat.div_le_self _ _
  have hread : ∀ i (hi : i < 2), readWord (paddedTo transport.spec.chunkElements
      (inputWords transport ensemble.featureCount rows)) i =
        .ok (transport.spec.narrow
          (Binary32.ofNat ([rows.length, ensemble.featureCount].getD i 0))) := by
    intro i hi
    refine readWord_of_getElem? ((getElem?_paddedTo ?_).trans ?_)
    · rw [inputWords, List.length_append]
      simp
      omega
    · rw [getElem?_inputWords (by omega)]
      match i, hi with
      | 0, _ => rfl
      | 1, _ => rfl
  have hwrap : u32 (headerWords + rows.length * outputWordsPerSample) =
      headerWords + rows.length * outputWordsPerSample := by
    refine u32_of_lt ?_
    have hmul : rows.length * outputWordsPerSample = rows.length * 3 := rfl
    omega
  have hequal : Binary32.eq (Binary32.ofNat ensemble.featureCount)
      (Binary32.ofNat ensemble.featureCount) = true := by
    simp [Binary32.eq, Binary32.isNaN_ofNat (show ensemble.featureCount < 2 ^ 24 by omega)]
  unfold SpecializedKernel.sampleCountOf
  rw [h.sent, h.features, hread 0 (by omega), ok_bind, hread 1 (by omega)]
  change (countOf (transport.spec.widen (transport.spec.narrow (Binary32.ofNat rows.length)))
    _ >>= _) = _
  rw [transport.widen_narrow_ofNat (by omega), countOf_ofNat (by omega) hbatch, ok_bind, ok_bind]
  change (refuseIf (¬Binary32.eq (transport.spec.widen (transport.spec.narrow
    (Binary32.ofNat ensemble.featureCount))) _ = true) _ >>= _) = _
  rw [transport.widen_narrow_ofNat (by omega), refuseIf_of_not _ (not_not.2 hequal), ok_bind, hwrap]
  by_cases hfit : RecordsFit transport rows.length
  · rw [if_pos hfit, refuseIf_of_not _ (not_lt.2 hfit)]
    rfl
  · rw [if_neg hfit, refuseIf_of _ (not_le.1 hfit)]
    rfl

/-- What both invocations of a batch work on. -/
structure Launch (math : Arithmetic) (transport : Transport) (ensemble : Ensemble)
    (kernel : SpecializedKernel) (rows : List (List Word)) (margins : List Word) : Prop where
  generates : Generates ensemble transport kernel
  sound : ∀ tree ∈ ensemble.trees, tree.Sound ensemble.featureCount
  features_pos : 0 < ensemble.featureCount
  widths : ∀ row ∈ rows, row.length = ensemble.featureCount
  batch : rows.length ≤ (transport.spec.chunkElements - headerWords) / ensemble.featureCount
  margins : List.Forall₂ (FoldsFrom math ensemble ensemble.baseMargin)
    (rows.map (List.map fun value => transport.spec.widen (transport.spec.narrow value))) margins

section Launch

variable (h : Launch math transport ensemble kernel rows margins)

include h

theorem Launch.length_margins : margins.length = rows.length := by
  rw [← h.margins.length_eq, List.length_map]

/-- The words of the features of a batch fit the chunk. -/
theorem Launch.features_fit :
    headerWords + rows.length * ensemble.featureCount ≤ transport.spec.chunkElements := by
  have hmul := (Nat.le_div_iff_mul_le h.features_pos).1 h.batch
  have hheader := transport.header_le
  omega

theorem Launch.length_chunk : (paddedTo transport.spec.chunkElements
    (inputWords transport ensemble.featureCount rows)).length = transport.spec.chunkElements :=
  length_paddedTo ((length_inputWords transport h.widths).le.trans h.features_fit)

/-- The round of a sample appends its record. -/
theorem Launch.writeSample_eq (hfit : RecordsFit transport rows.length) {sample : ℕ}
    (hsample : sample < rows.length) {before : List Word}
    (hbefore : before.length = headerWords + sample * outputWordsPerSample) :
    kernel.writeSample math (paddedTo transport.spec.chunkElements
      (inputWords transport ensemble.featureCount rows)) sample
        (paddedTo transport.spec.chunkElements before) =
      .ok (paddedTo transport.spec.chunkElements
        (before ++ storedRecord math transport (margins.getD sample 0))) := by
  have hchunk := transport.chunk_le
  have hfeatures := h.features_fit
  have hmargin : sample < margins.length := by rwa [h.length_margins]
  have hfold := h.margins.get (by rwa [List.length_map]) hmargin
  have hle : (sample + 1) * ensemble.featureCount ≤ rows.length * ensemble.featureCount :=
    Nat.mul_le_mul_right _ hsample
  have hle' : (sample + 1) * outputWordsPerSample ≤ rows.length * outputWordsPerSample :=
    Nat.mul_le_mul_right _ hsample
  have hthree : outputWordsPerSample = 3 := rfl
  rw [Nat.succ_mul] at hle hle'
  unfold RecordsFit at hfit
  simp only [List.get_eq_getElem, List.getElem_map] at hfold
  have hrun := margin_of_holds h.sound h.generates
    (holdsFeatures_inputWords transport h.widths hsample transport.spec.chunkElements)
    (by omega) hfold
  unfold SpecializedKernel.writeSample
  rw [h.generates.sent, h.generates.features, u32_of_lt (by omega), u32_of_lt (by omega), hrun,
    ok_bind, ← hbefore, List.getD_eq_getElem _ _ hmargin]
  exact writeWords_paddedTo (storedRecord math transport margins[sample]) before
    (by rw [hbefore]; simp [storedRecord]; omega)

/-- The kernel on a packed chunk. -/
theorem Launch.controlledAct_eq (hfit : RecordsFit transport rows.length) {output : List Word}
    (houtput : output.length = transport.spec.chunkElements) :
    kernel.controlledAct math transport.spec.chunkElements (paddedTo transport.spec.chunkElements
      (inputWords transport ensemble.featureCount rows)) output =
        .ok (paddedTo transport.spec.chunkElements
          (outputWords math transport ensemble.featureCount ensemble.trees.length margins)) := by
  have hheader := transport.header_le
  have htake := sampleCountOf_inputWords h.generates h.features_pos h.batch
  rw [if_pos hfit] at htake
  have hwords : ∀ header : List Word, header.length = headerWords →
      writeWords (paddedTo transport.spec.chunkElements []) 0 header =
        .ok (paddedTo transport.spec.chunkElements header) := fun header hlength =>
    writeWords_paddedTo header [] (by rw [List.length_nil, Nat.zero_add, hlength]; exact hheader)
  unfold SpecializedKernel.controlledAct
  rw [h.generates.sent, if_neg (not_not.2 rfl), htake]
  change (clearWords _ _ >>= _) = _
  rw [clearWords_eq houtput, ok_bind, hwords _ rfl, ok_bind]
  refine (forRange_paddedTo (fun sample => storedRecord math transport (margins.getD sample 0))
    (fun _ => rfl) fun sample hsample before hbefore =>
      h.writeSample_eq hfit hsample hbefore).trans ?_
  rw [h.generates.features, ← h.generates.trees.length_eq, outputWords, ← h.length_margins,
    flatMap_range_getD]

/-- Both invocations write the same records. -/
theorem Launch.run_eq (hfit : RecordsFit transport rows.length) {output : List Word}
    (houtput : output.length = transport.spec.logicalElements) :
    kernel.run math (packedBatch transport ensemble.featureCount rows) output =
      .ok (paddedTo transport.spec.chunkElements
          (outputWords math transport ensemble.featureCount ensemble.trees.length margins) ++
        paddedTo transport.spec.chunkElements
          (outputWords math transport ensemble.featureCount ensemble.trees.length margins)) := by
  rw [transport.logical_eq] at houtput
  unfold SpecializedKernel.run packedBatch
  rw [h.generates.sent]
  dsimp only
  rw [List.take_left' h.length_chunk, List.drop_left' h.length_chunk,
    h.controlledAct_eq hfit (by rw [List.length_take]; omega), ok_bind,
    h.controlledAct_eq hfit (by rw [List.length_drop]; omega)]
  rfl

theorem Launch.length_outputWords (hfit : RecordsFit transport rows.length) :
    (outputWords math transport ensemble.featureCount ensemble.trees.length margins).length ≤
      transport.spec.chunkElements := by
  have hrecords : (margins.flatMap (storedRecord math transport)).length =
      margins.length * outputWordsPerSample := by
    rw [List.length_flatMap]
    change (margins.map fun _ => outputWordsPerSample).sum = _
    rw [List.map_const', List.sum_replicate_nat]
  rw [outputWords, List.length_append, hrecords, h.length_margins]
  exact hfit

/-- The host reads the predictions of the records. -/
theorem Launch.unpack_eq (hfit : RecordsFit transport rows.length) :
    unpackPredictions (paddedTo transport.spec.chunkElements
        (outputWords math transport ensemble.featureCount ensemble.trees.length margins) ++
      paddedTo transport.spec.chunkElements
        (outputWords math transport ensemble.featureCount ensemble.trees.length margins))
      rows.length ensemble.featureCount transport =
        .ok (storedPredictions math transport margins) := by
  have hlength := length_paddedTo (h.length_outputWords hfit)
  have hchunk := transport.chunk_le
  have hfeatures := h.generates.features_le
  have htrees : ensemble.trees.length ≤ 64 := h.generates.trees_le
  have hcount : rows.length ≤ transport.spec.chunkElements := by
    have hmul : rows.length * outputWordsPerSample = rows.length * 3 := rfl
    unfold RecordsFit at hfit
    omega
  have hdecode : ∀ n < 2049, Runtime.decodeInt (transport.spec.widen
      (transport.spec.narrow (Binary32.ofNat n))) = .ok (n : ℤ) := fun n hn => by
    rw [transport.widen_narrow_ofNat hn, Runtime.decodeInt_ofNat (by omega)]
  have hheader : ((paddedTo transport.spec.chunkElements (outputWords math transport
      ensemble.featureCount ensemble.trees.length margins)).take headerWords).mapM
        (fun word => Runtime.decodeInt (transport.spec.widen word)) =
      .ok [(rows.length : ℤ), ensemble.featureCount, outputWordsPerSample,
        ensemble.trees.length] := by
    rw [← h.length_margins]
    change ([margins.length, ensemble.featureCount, outputWordsPerSample,
      ensemble.trees.length].map fun n => transport.spec.narrow (Binary32.ofNat n)).mapM
        (fun word => Runtime.decodeInt (transport.spec.widen word)) = _
    simp only [List.map_cons, List.map_nil, List.mapM_cons, List.mapM_nil,
      hdecode margins.length (by rw [h.length_margins]; omega),
      hdecode ensemble.featureCount (by omega), hdecode outputWordsPerSample (by decide),
      hdecode ensemble.trees.length (by omega), ok_bind]
    rfl
  have hrecords : Runtime.recordsOf rows.length (((paddedTo transport.spec.chunkElements
      (outputWords math transport ensemble.featureCount ensemble.trees.length margins)).drop
        headerWords).map transport.spec.widen) =
      margins.map fun margin => (storedRecord math transport margin).map transport.spec.widen := by
    have hdrop : ∀ rest : List Word, (([margins.length, ensemble.featureCount,
        outputWordsPerSample, ensemble.trees.length].map
          fun n => transport.spec.narrow (Binary32.ofNat n)) ++ rest).drop headerWords = rest :=
      fun _ => rfl
    rw [paddedTo, outputWords, List.append_assoc, hdrop, List.map_append, List.map_flatMap,
      ← h.length_margins]
    exact Runtime.recordsOf_flatMap (fun _ => rfl) _ margins
  have hclass : ∀ margin, Runtime.classOf ((storedRecord math transport margin).map
      transport.spec.widen) =
        some (if Binary32.le Binary32.half (sigmoid math margin) then 1 else 0) := by
    intro margin
    have hzero := transport.widen_narrow_ofNat (show 0 < 2049 by decide)
    have hone := transport.widen_narrow_ofNat (show 1 < 2049 by decide)
    change Binary32.toInt? (transport.spec.widen (transport.spec.narrow _)) = _
    cases Binary32.le Binary32.half (sigmoid math margin) with
    | true => exact (congrArg Binary32.toInt? hone).trans (by decide)
    | false => exact (congrArg Binary32.toInt? hzero).trans (by decide)
  unfold unpackPredictions
  dsimp only
  rw [List.take_left' hlength, List.drop_left' hlength,
    refuseIf_of_not _ (by rw [List.length_append, hlength, transport.logical_eq]; simp), ok_bind,
    refuseIf_of_not _ (by simp), ok_bind, hheader, ok_bind,
    refuseIf_of_not _ (by simp [outputWordsPerSample]), ok_bind,
    refuseIf_of_not _ (not_lt.2 hfit), ok_bind, hrecords, refuseIf_of_not _ (by
      rintro ⟨record, hrecord, hnot⟩
      obtain ⟨margin, _, rfl⟩ := List.mem_map.1 hrecord
      rw [hclass] at hnot
      split_ifs at hnot <;> simp at hnot), ok_bind]
  refine congrArg Except.ok ?_
  simp only [storedPredictions, List.map_map, Predictions.mk.injEq]
  refine ⟨rfl, rfl, List.map_congr_left fun margin _ => ?_⟩
  exact congrArg (Option.getD · 0) (hclass margin)

/-- A chunk that the kernel takes has room for its records. -/
theorem Launch.recordsFit_of_serves {predictions : Predictions}
    (hserves : Serves math kernel rows.length ensemble.featureCount
      (packedBatch transport ensemble.featureCount rows) predictions) :
    RecordsFit transport rows.length := by
  have htakes := hserves.takes
  rw [h.generates.sent, packedBatch, List.take_left' h.length_chunk,
    sampleCountOf_inputWords h.generates h.features_pos h.batch] at htakes
  by_contra hfit
  rw [if_neg hfit] at htakes
  cases htakes

theorem Launch.serves (hfit : RecordsFit transport rows.length) :
    Serves math kernel rows.length ensemble.featureCount
      (packedBatch transport ensemble.featureCount rows)
      (storedPredictions math transport margins) where
  takes := by
    rw [h.generates.sent, packedBatch, List.take_left' h.length_chunk,
      sampleCountOf_inputWords h.generates h.features_pos h.batch, if_pos hfit]
  serves := fun output houtput => by
    rw [h.generates.sent] at houtput ⊢
    refine ⟨_, h.run_eq hfit houtput, ?_, h.unpack_eq hfit⟩
    rw [List.length_append, length_paddedTo (h.length_outputWords hfit), houtput,
      transport.logical_eq]

/-- The kernel returns without an output if the records do not fit. -/
theorem Launch.run_of_not_fit (hfit : ¬RecordsFit transport rows.length) (output : List Word) :
    kernel.run math (packedBatch transport ensemble.featureCount rows) output = .ok output := by
  have hrefused := sampleCountOf_inputWords h.generates h.features_pos h.batch
  rw [if_neg hfit] at hrefused
  have hact : ∀ output, kernel.controlledAct math transport.spec.chunkElements
      (paddedTo transport.spec.chunkElements
        (inputWords transport ensemble.featureCount rows)) output = .ok output := by
    intro output
    unfold SpecializedKernel.controlledAct
    rw [h.generates.sent, if_neg (not_not.2 rfl), hrefused]
    rfl
  unfold SpecializedKernel.run packedBatch
  rw [h.generates.sent]
  dsimp only
  rw [List.take_left' h.length_chunk, List.drop_left' h.length_chunk, hact, ok_bind, hact,
    ok_bind, List.take_append_drop]

/-- No other predictions are read. -/
theorem Launch.eq_storedPredictions {predictions : Predictions}
    (hserves : Serves math kernel rows.length ensemble.featureCount
      (packedBatch transport ensemble.featureCount rows) predictions) :
    predictions = storedPredictions math transport margins := by
  have hfit := h.recordsFit_of_serves hserves
  obtain ⟨after, hafter, _, hread⟩ := hserves.serves
    (List.replicate kernel.transport.spec.logicalElements 0) (List.length_replicate ..)
  rw [h.generates.sent] at hafter hread
  obtain rfl := Except.ok.inj (hafter.symm.trans (h.run_eq hfit (List.length_replicate ..)))
  exact Except.ok.inj (hread.symm.trans (h.unpack_eq hfit))

end Launch

end Batches

/-- Every batch that the packer takes is a launch. -/
theorem exists_launch (math : Arithmetic) {transport : Transport} {ensemble : Ensemble}
    {kernel : SpecializedKernel} {features : FeatureMatrix} {packed : List Word}
    (hvalid : ensemble.Valid) (hkernel : generateKernelSource ensemble transport = .ok kernel)
    (hpacked : packFeatures features ensemble.featureCount transport = .ok packed) :
    packed = packedBatch transport ensemble.featureCount features.rows ∧
      ∃ margins, ensemble.predictMargin math.add (transported transport features) = .ok margins ∧
        Launch math transport ensemble kernel features.rows margins := by
  obtain ⟨hwidth, hpos, hbatch, heq⟩ := packFeatures_eq_ok hpacked
  have hwidth' : (transported transport features).width = ensemble.featureCount := hwidth
  obtain ⟨margins, hmargins⟩ := Runtime.exists_predictMargin math hvalid hwidth'
  exact ⟨heq, margins, hmargins, generates_of_generateKernelSource hkernel,
    fun tree htree => Tree.sound_of_validate (hvalid tree htree), hpos,
    fun row hrow => (features.rows_width row hrow).trans hwidth, hbatch,
    (Runtime.predictMargin_eq_ok_iff hwidth').1 hmargins⟩

/-- A packed batch is served exactly if its records fit a chunk. The predictions are then
those of the ensemble on the transported features, as the transport stores them, so the
margins are the ensemble's own exactly if the transport keeps them. -/
theorem serves_iff (math : Arithmetic) (transport : Transport) {ensemble : Ensemble}
    {kernel : SpecializedKernel} {features : FeatureMatrix} {packed : List Word}
    (hvalid : ensemble.Valid) (hkernel : generateKernelSource ensemble transport = .ok kernel)
    (hpacked : packFeatures features ensemble.featureCount transport = .ok packed) :
    ∃ margins, ensemble.predictMargin math.add (transported transport features) = .ok margins ∧
      (Serves math kernel features.rows.length ensemble.featureCount packed
        (storedPredictions math transport margins) ↔ RecordsFit transport features.rows.length) ∧
      ((∃ predictions, Serves math kernel features.rows.length ensemble.featureCount packed
          predictions ∧ predictions.margins = margins) ↔
        RecordsFit transport features.rows.length ∧
          ∀ margin ∈ margins, transport.spec.widen (transport.spec.narrow margin) = margin) := by
  obtain ⟨rfl, margins, hmargins, h⟩ := exists_launch math hvalid hkernel hpacked
  have hkept : (storedPredictions math transport margins).margins = margins ↔
      ∀ margin ∈ margins, transport.spec.widen (transport.spec.narrow margin) = margin := by
    refine Iff.trans ?_ List.map_eq_map_iff
    rw [List.map_id']
    rfl
  refine ⟨margins, hmargins, ⟨h.recordsFit_of_serves, h.serves⟩,
    fun ⟨predictions, hserves, heq⟩ => ?_,
    fun ⟨hfit, hkeeps⟩ => ⟨_, h.serves hfit, hkept.2 hkeeps⟩⟩
  rw [h.eq_storedPredictions hserves] at heq
  exact ⟨h.recordsFit_of_serves hserves, hkept.1 heq⟩

/-- The records of three features or more always fit. -/
theorem recordsFit_of_three_le (transport : Transport) {featureCount sampleCount : ℕ}
    (hfeatures : outputWordsPerSample ≤ featureCount)
    (hbatch : sampleCount ≤ (transport.spec.chunkElements - headerWords) / featureCount) :
    RecordsFit transport sampleCount := by
  have hheader := transport.header_le
  have hmul := (Nat.le_div_iff_mul_le ((by decide : 0 < outputWordsPerSample).trans_le
    hfeatures)).1 hbatch
  have hle := Nat.mul_le_mul_left sampleCount hfeatures
  unfold RecordsFit
  omega

/-! ### One feature -/

open Npunlock.Runtime (exampleEnsemble exampleFeatures zeroArithmetic)

/-- A missing value is served in half precision. -/
theorem serves_missing : ∃ kernel packed,
    generateKernelSource (exampleEnsemble 1) .f16 = .ok kernel ∧
      packFeatures exampleFeatures 1 .f16 = .ok packed ∧
        Serves zeroArithmetic kernel 2 1 packed (storedPredictions zeroArithmetic .f16 [0, 0]) := by
  have hgenerated : succeeds (generateKernelSource (exampleEnsemble 1) .f16) = true := by
    decide +kernel
  have hpacked : succeeds (packFeatures exampleFeatures 1 .f16) = true := by decide +kernel
  obtain ⟨kernel, hkernel⟩ := succeeds_iff.1 hgenerated
  obtain ⟨packed, hpacked⟩ := succeeds_iff.1 hpacked
  obtain ⟨margins, hmargins, hserves, _⟩ := serves_iff zeroArithmetic .f16
    (show (exampleEnsemble 1).Valid by decide +kernel) hkernel hpacked
  obtain rfl : margins = [0, 0] := Except.ok.inj (hmargins.symm.trans (by decide +kernel))
  exact ⟨kernel, packed, hkernel, hpacked, hserves.2 (by decide)⟩

/-- A batch of one more row than the records have room for. -/
def narrowFeatures : FeatureMatrix :=
  ⟨1, List.replicate 341 [0], by decide +kernel⟩

/-- The packer takes the batch, and the kernel returns without an output. -/
theorem narrow_not_served : (exampleEnsemble 1).Valid ∧ ∃ kernel packed,
    generateKernelSource (exampleEnsemble 1) .f32 = .ok kernel ∧
      packFeatures narrowFeatures 1 .f32 = .ok packed ∧
      (∀ output : List Word, kernel.run zeroArithmetic packed output = .ok output) ∧
      ¬∃ predictions, Serves zeroArithmetic kernel 341 1 packed predictions := by
  have hgenerated : succeeds (generateKernelSource (exampleEnsemble 1) .f32) = true := by
    decide +kernel
  have hpacked : succeeds (packFeatures narrowFeatures 1 .f32) = true := by decide +kernel
  have hvalid : (exampleEnsemble 1).Valid := by decide +kernel
  obtain ⟨kernel, hkernel⟩ := succeeds_iff.1 hgenerated
  obtain ⟨packed, hpacked⟩ := succeeds_iff.1 hpacked
  obtain ⟨rfl, margins, _, h⟩ := exists_launch zeroArithmetic hvalid hkernel hpacked
  have hfit : ¬RecordsFit .f32 narrowFeatures.rows.length := by decide +kernel
  refine ⟨hvalid, kernel, _, hkernel, hpacked, h.run_of_not_fit hfit, ?_⟩
  rintro ⟨predictions, hserves⟩
  have hrows : narrowFeatures.rows.length = 341 := List.length_replicate ..
  rw [← hrows] at hserves
  exact hfit (h.recordsFit_of_serves hserves)

end Specialized

end Npunlock
