import Npunlock.RuntimeShards

/-!
# Predictions of the XGBoost runtime

The runtime computes the fold of `Ensemble.predictMargin` : packing, the kernels and the
reading of their outputs succeed on every batch within the capacity whose margins are
finite, and return the margins of the fold word by word (`Serves`, `serves_of_valid`). An
ensemble that is split goes through two stages, connected in one run or carried over by
the host, and both end in the same words (`ServesStages`).

Addition is any operation; what is used of the arithmetic of the device is collected in
`Arithmetic.Lawful`.
-/

namespace Npunlock

namespace Runtime

/-! ## Arithmetic -/

/-- The arithmetic of binary32, as far as the runtime relies on it. -/
structure Arithmetic.Lawful (math : Arithmetic) : Prop where
  /-- The exponential of a number that is not positive lies between zero and one. -/
  exp_le : ∀ value, Binary32.isFinite value = true → Binary32.le value 0 = true →
    Binary32.le 0 (math.exp value) = true ∧ Binary32.le (math.exp value) Binary32.one = true
  /-- One and a number between zero and one are at least one. -/
  one_add : ∀ value, Binary32.le 0 value = true → Binary32.le value Binary32.one = true →
    Binary32.le Binary32.one (math.add Binary32.one value) = true ∧
      Binary32.isFinite (math.add Binary32.one value) = true
  /-- The quotient by a larger number, which is at least one, lies between zero and one. -/
  div_le : ∀ a b, Binary32.le 0 a = true → Binary32.le a b = true →
    Binary32.le Binary32.one b = true → Binary32.isFinite b = true →
      Binary32.le 0 (math.div a b) = true ∧ Binary32.le (math.div a b) Binary32.one = true
  /-- The difference of a finite number and itself is zero. -/
  sub_self : ∀ value, Binary32.isFinite value = true → Binary32.eq (math.sub value value) 0 = true
  /-- A finite sum has a finite first operand. -/
  finite_of_add : ∀ a b, Binary32.isFinite (math.add a b) = true → Binary32.isFinite a = true

theorem sigmoid_spec {math : Arithmetic} (laws : math.Lawful) {value : Word}
    (h : Binary32.isFinite value = true) :
    Binary32.isFinite (sigmoid math value) = true ∧
      Binary32.lt (sigmoid math value) 0 = false ∧
      Binary32.lt Binary32.one (sigmoid math value) = false := by
  have hnan := Binary32.not_isNaN_of_isFinite h
  have hzero : Binary32.order 0 = 0 := by decide
  have hrange : Binary32.le 0 (sigmoid math value) = true ∧
      Binary32.le (sigmoid math value) Binary32.one = true := by
    unfold sigmoid
    cases hsign : Binary32.le 0 value with
    | true =>
      rw [if_pos rfl]
      have hneg : Binary32.le (Binary32.neg value) 0 = true := by
        rw [Binary32.le_iff] at hsign ⊢
        refine ⟨?_, by decide, ?_⟩
        · rwa [Binary32.isNaN, Binary32.magnitude_neg]
        · rw [Binary32.order_neg]
          omega
      have hfinite : Binary32.isFinite (Binary32.neg value) = true := by
        rwa [Binary32.isFinite, Binary32.magnitude_neg]
      obtain ⟨hexp, hexp'⟩ := laws.exp_le _ hfinite hneg
      obtain ⟨hadd, hadd'⟩ := laws.one_add _ hexp hexp'
      exact laws.div_le _ _ (by decide) hadd hadd hadd'
    | false =>
      rw [if_neg Bool.false_ne_true]
      have hneg : Binary32.le value 0 = true := by
        have hnot := mt Binary32.le_iff.2 (by rw [hsign]; exact Bool.false_ne_true)
        rw [Binary32.le_iff]
        refine ⟨hnan, by decide, ?_⟩
        by_contra hlt
        exact hnot ⟨by decide, hnan, by omega⟩
      obtain ⟨hexp, hexp'⟩ := laws.exp_le _ h hneg
      obtain ⟨hadd, hadd'⟩ := laws.one_add _ hexp hexp'
      exact laws.div_le _ _ hexp (Binary32.le_trans hexp' hadd) hadd hadd'
  exact ⟨Binary32.isFinite_of_between hrange.1 hrange.2 (by decide) (by decide),
    Binary32.lt_eq_false_of_le hrange.1, Binary32.lt_eq_false_of_le hrange.2⟩

/-! ## Folds -/

section Folds

variable {math : Arithmetic} {ensemble : Ensemble}

/-- A validated ensemble has a margin for every row. -/
theorem exists_foldsFrom (math : Arithmetic) {trees : List Tree} {featureCount : ℕ}
    (h : ∀ tree ∈ trees, tree.Sound featureCount) (row : List Word) : ∀ start : Word,
    ∃ margin, trees.foldlM (fun margin tree => do
      let value ← tree.predictOne row
      .ok (math.add margin value)) start = .ok margin := by
  induction trees with
  | nil => exact fun start => ⟨start, rfl⟩
  | cons tree trees ih =>
    intro start
    obtain ⟨steps, value, hsteps, hleads⟩ := Tree.exists_leads (h tree List.mem_cons_self) row
    have hvalue : tree.predictOne row = .ok value :=
      Tree.whileLoop_of_leads hleads (Nat.lt_succ_of_lt hsteps)
    obtain ⟨margin, hmargin⟩ := ih (fun other hother => h other (List.mem_cons_of_mem tree hother))
      (math.add start value)
    refine ⟨margin, ?_⟩
    rw [List.foldlM_cons, hvalue]
    exact hmargin

/-- A fold with a finite result starts from a finite number. -/
theorem finite_start (laws : math.Lawful) {row : List Word} : ∀ {trees : List Tree}
    {start margin : Word}, trees.foldlM (fun margin tree => do
      let value ← tree.predictOne row
      .ok (math.add margin value)) start = .ok margin →
    Binary32.isFinite margin = true → Binary32.isFinite start = true
  | [], start, margin, h, hfinite => by
    obtain rfl : start = margin := Except.ok.inj h
    exact hfinite
  | tree :: trees, start, margin, h, hfinite => by
    rw [List.foldlM_cons] at h
    obtain ⟨next, hnext, h⟩ := bind_eq_ok_iff.1 h
    obtain ⟨value, _, hnext⟩ := bind_eq_ok_iff.1 hnext
    obtain rfl := Except.ok.inj hnext
    exact laws.finite_of_add _ _ (finite_start laws h hfinite)

theorem predictMargin_eq_ok_iff {features : FeatureMatrix}
    (hwidth : features.width = ensemble.featureCount) {margins : List Word} :
    ensemble.predictMargin math.add features = .ok margins ↔
      List.Forall₂ (FoldsFrom math ensemble ensemble.baseMargin) features.rows margins := by
  unfold Ensemble.predictMargin
  rw [refuseIf_of_not _ (not_not.2 hwidth), ok_bind, mapM_eq_ok_iff]
  rfl

/-- The margins of a batch. -/
theorem exists_predictMargin (math : Arithmetic) (hvalid : ensemble.Valid)
    {features : FeatureMatrix}
    (hwidth : features.width = ensemble.featureCount) :
    ∃ margins, ensemble.predictMargin math.add features = .ok margins := by
  have hsound : ∀ tree ∈ ensemble.trees, tree.Sound ensemble.featureCount :=
    fun tree htree => Tree.sound_of_validate (hvalid tree htree)
  simp only [predictMargin_eq_ok_iff hwidth]
  induction features.rows with
  | nil => exact ⟨[], .nil⟩
  | cons row rows ih =>
    obtain ⟨margin, hmargin⟩ := exists_foldsFrom math hsound row ensemble.baseMargin
    obtain ⟨margins, hmargins⟩ := ih
    exact ⟨margin :: margins, .cons hmargin hmargins⟩

/-- The fold of all trees goes on from the fold of the first ones. -/
theorem foldsFrom_append {first second : Ensemble} (htrees : ensemble.trees =
    first.trees ++ second.trees) {start margin : Word} {row : List Word}
    (h : FoldsFrom math ensemble start row margin) :
    ∃ carried, FoldsFrom math first start row carried ∧
      FoldsFrom math second carried row margin := by
  unfold FoldsFrom at h
  rw [htrees, List.foldlM_append] at h
  exact bind_eq_ok_iff.1 h

theorem exists_carried {first second : Ensemble} (htrees : ensemble.trees =
    first.trees ++ second.trees) {start : Word} {rows : List (List Word)} {margins : List Word}
    (h : List.Forall₂ (FoldsFrom math ensemble start) rows margins) :
    ∃ carried, List.Forall₂ (FoldsFrom math first start) rows carried ∧
      List.Forall₂ (fun entry margin => FoldsFrom math second entry.2 entry.1 margin)
        (rows.zip carried) margins := by
  induction h with
  | nil => exact ⟨[], .nil, .nil⟩
  | cons hrow _ ih =>
    obtain ⟨value, hfirst, hsecond⟩ := foldsFrom_append htrees hrow
    obtain ⟨carried, hfirst', hsecond'⟩ := ih
    exact ⟨value :: carried, .cons hfirst hfirst', .cons hsecond hsecond'⟩

/-- What the first stage carries is finite, as the margins are. -/
theorem carried_spec (laws : math.Lawful) {second : Ensemble} {rows : List (List Word)}
    {carried margins : List Word} (hlength : rows.length = carried.length)
    (h : List.Forall₂ (fun entry margin => FoldsFrom math second entry.2 entry.1 margin)
      (rows.zip carried) margins)
    (hfinite : ∀ margin ∈ margins, Binary32.isFinite margin = true) :
    carried = (rows.zip carried).map Prod.snd ∧
      (∀ entry ∈ rows.zip carried, Binary32.isFinite entry.2 = true) ∧
      ∀ value ∈ carried, Binary32.isFinite value = true := by
  have hcarried := (List.map_snd_zip hlength.ge).symm
  have hzip : ∀ entry ∈ rows.zip carried, Binary32.isFinite entry.2 = true := by
    intro entry hentry
    obtain ⟨margin, hmargin, hfold⟩ := exists_of_forall₂ h hentry
    exact finite_start laws hfold (hfinite margin hmargin)
  refine ⟨hcarried, hzip, fun value hvalue => ?_⟩
  rw [hcarried] at hvalue
  obtain ⟨entry, hentry, rfl⟩ := List.mem_map.1 hvalue
  exact hzip entry hentry

end Folds

/-! ## Capacities -/

theorem capacity_bounds {width : ℕ} (h : width ≤ maxFeatures + 1) :
    0 < (chunkElements - featureHeader) / max width outputWords ∧
      (chunkElements - featureHeader) / max width outputWords * width ≤
        chunkElements - featureHeader ∧
      (chunkElements - featureHeader) / max width outputWords * outputWords ≤
        chunkElements - featureHeader := by
  have hmax : maxFeatures + 1 = 64 := rfl
  have hthree : outputWords = 3 := rfl
  have hpos : 0 < max width outputWords := by omega
  have hmul := Nat.div_mul_le_self (chunkElements - featureHeader) (max width outputWords)
  refine ⟨Nat.div_pos ?_ hpos, (Nat.mul_le_mul_left _ (le_max_left _ _)).trans hmul,
    (Nat.mul_le_mul_left _ (le_max_right _ _)).trans hmul⟩
  have hchunk : chunkElements - featureHeader = 1020 := rfl
  omega

theorem checkFeatureCount_eq {featureCount : ℕ} (hpos : 0 < featureCount)
    (hle : featureCount ≤ maxFeatures) : checkFeatureCount featureCount = .ok () :=
  refuseIf_of_not _ (not_not.2 ⟨hpos, hle⟩)

/-! ## Runs -/

section Runs

variable {math : Arithmetic} {capacity : ℕ} {output : List (List Word)}

/-- The kernel of a single stage answers the batch. -/
theorem runSingle_eq (math : Arithmetic) {ensemble : Ensemble} {model : List Word}
    (h : HoldsModel model ensemble)
    (hsound : ∀ tree ∈ ensemble.trees, tree.Sound ensemble.featureCount)
    {rows : List (List Word)} {margins : List Word}
    (hrows : ∀ row ∈ rows, row.length = ensemble.featureCount)
    (hvalues : capacity * ensemble.featureCount ≤ chunkElements - featureHeader)
    (hrecords : capacity * outputWords ≤ chunkElements - featureHeader)
    (hbatch : rows.length ≤ replicas * capacity)
    (hmargins : List.Forall₂ (FoldsFrom math ensemble ensemble.baseMargin) rows margins)
    (houtput : IsLogical output) :
    runSingle math (fillReplicas ((cutRows (balancedSizes rows.length) rows).map fun shard =>
      featuresChunk ensemble.featureCount [0, 0] shard [])) (List.replicate replicas model) output =
        .ok (recordsOutput math ensemble.featureCount ensemble.trees.length margins) := by
  obtain ⟨hpos, hle⟩ := cutRows_bounds rows
  refine runReplicas_fill houtput (by rwa [List.length_map]) (by rwa [List.length_map]) ?_
  rw [List.forall₂_map_left_iff, List.forall₂_map_right_iff]
  refine (forall₂_shards hmargins).imp ?_
  rintro shard values ⟨hshard, hfolds⟩ old hold
  have hlength := length_le_of_mem_cutRows hbatch hshard
  exact runtimeAct_of_holds h hsound
    (fun row hrow => hrows row (mem_of_mem_cutRows hshard row hrow))
    ((Nat.mul_le_mul_right _ hlength).trans hvalues)
    ((Nat.mul_le_mul_right _ hlength).trans hrecords) hold hfolds

/-- The chunks that carry the margins of a first stage. -/
def carriedOutput (featureCount firstTreeCount totalTreeCount : ℕ)
    (entries : List (List Word × Word)) : List (List Word) :=
  fillReplicas ((cutRows (balancedSizes entries.length) entries).map fun shard =>
    featuresChunk featureCount [firstTreeCount, totalTreeCount] (shard.map Prod.fst)
      (shard.map Prod.snd))

section Stages

variable {whole first second : Ensemble} {firstModel secondModel : List Word}
  {entries : List (List Word × Word)}
  (h : Stages whole first second firstModel secondModel)
  (hrows : ∀ entry ∈ entries, entry.1.length = whole.featureCount)
  (hvalues : capacity * (whole.featureCount + 1) ≤ chunkElements - featureHeader)
  (hbatch : entries.length ≤ replicas * capacity)

include hrows in
theorem rows_of_shard {shard : List (List Word × Word)}
    (hshard : shard ∈ cutRows (balancedSizes entries.length) entries) :
    ∀ row ∈ shard.map Prod.fst, row.length = whole.featureCount := by
  intro row hrow
  obtain ⟨entry, hentry, rfl⟩ := List.mem_map.1 hrow
  exact hrows entry (mem_of_mem_cutRows hshard entry hentry)

include hbatch in
theorem length_shard_mul_le {shard : List (List Word × Word)}
    (hshard : shard ∈ cutRows (balancedSizes entries.length) entries) {width room : ℕ}
    (hroom : capacity * width ≤ room) : (shard.map Prod.fst).length * width ≤ room := by
  rw [List.length_map]
  exact (Nat.mul_le_mul_right _ (length_le_of_mem_cutRows hbatch hshard)).trans hroom

include hrows hvalues hbatch in
theorem length_carriedChunk {shard : List (List Word × Word)}
    (hshard : shard ∈ cutRows (balancedSizes entries.length) entries) (a b : ℕ) :
    (featuresChunk whole.featureCount [a, b] (shard.map Prod.fst)
      (shard.map Prod.snd)).length = chunkElements := by
  have hwords := length_featuresWords (rows_of_shard hrows hshard) a b (shard.map Prod.snd)
  have hmul := (Nat.mul_le_mul_right _ (length_le_of_mem_cutRows hbatch hshard)).trans hvalues
  have hheader : featureHeader + (chunkElements - featureHeader) = chunkElements := rfl
  have hrows' : (shard.map Prod.fst).length = shard.length := List.length_map _
  have hcarried : (shard.map Prod.snd).length = shard.length := List.length_map _
  rw [hrows'] at hwords
  rw [Nat.mul_succ] at hmul
  refine length_padded ?_
  rw [hrows']
  omega

include hrows hvalues hbatch in
theorem isLogical_carriedOutput (a b : ℕ) :
    IsLogical (carriedOutput whole.featureCount a b entries) := by
  obtain ⟨hpos, hle⟩ := cutRows_bounds entries
  refine isLogical_fillReplicas (by rwa [List.length_map]) (by rwa [List.length_map])
    fun chunk hmem => ?_
  obtain ⟨shard, hshard, rfl⟩ := List.mem_map.1 hmem
  exact length_carriedChunk hrows hvalues hbatch hshard a b

include h hrows hvalues hbatch

/-- The first stage of a connected run. -/
theorem runFirst_eq (math : Arithmetic) (hbase : first.baseMargin = whole.baseMargin)
    (hfolds : ∀ entry ∈ entries, FoldsFrom math first whole.baseMargin entry.1 entry.2)
    (houtput : IsLogical output) :
    runFirst math (fillReplicas ((cutRows (balancedSizes (entries.map Prod.fst).length)
      (entries.map Prod.fst)).map fun shard =>
        featuresChunk whole.featureCount [whole.trees.length, 0] shard []))
      (List.replicate replicas firstModel) output =
        .ok (carriedOutput whole.featureCount first.trees.length whole.trees.length entries) := by
  obtain ⟨hpos, hle⟩ := cutRows_bounds entries
  rw [List.length_map, cutRows_map, List.map_map]
  refine runReplicas_fill houtput (by rwa [List.length_map]) (by rwa [List.length_map]) ?_
  rw [List.forall₂_map_left_iff, List.forall₂_map_right_iff, List.forall₂_same]
  intro shard hshard old hold
  refine firstAct_of_holds h (rows_of_shard hrows hshard)
    (length_shard_mul_le hbatch hshard hvalues) hold ?_ hbase
  rw [List.forall₂_map_left_iff, List.forall₂_map_right_iff, List.forall₂_same]
  exact fun entry hentry => hfolds entry (mem_of_mem_cutRows hshard entry hentry)

/-- The margin that the second stage computes for a row of a shard. -/
theorem chainedMargin_of_shard {shard : List (List Word × Word)}
    (hshard : shard ∈ cutRows (balancedSizes entries.length) entries) {values : List Word}
    (hfolds : List.Forall₂ (fun entry margin => FoldsFrom math second entry.2 entry.1 margin)
      shard values) {i : ℕ} (hi : i < values.length) (hi' : i < shard.length) :
    chainedMargin math (featuresChunk whole.featureCount [first.trees.length, whole.trees.length]
        (shard.map Prod.fst) (shard.map Prod.snd)) secondModel i (shard.map Prod.fst).length
        whole.featureCount second.trees.length second.nodeCount =
      if Binary32.isNaN shard[i].2 ∨ ¬Binary32.eq (math.sub shard[i].2 shard[i].2) 0
      then .error .refused else .ok values[i] := by
  have hrow : i < (shard.map Prod.fst).length := by rwa [List.length_map]
  have hbase : i < (shard.map Prod.snd).length := by rwa [List.length_map]
  have hfold : FoldsFrom math second (shard.map Prod.snd)[i] (shard.map Prod.fst)[i]
      values[i] := by
    simpa using hfolds.get hi' hi
  rw [chainedMargin_of_holds h (rows_of_shard hrows hshard)
    (length_shard_mul_le hbatch hshard hvalues) hrow (by simp) hfold, List.getElem_map]

/-- The second stage, on the chunks of a connected run or of the host. -/
theorem runChain_eq (laws : math.Lawful)
    (hrecords : capacity * outputWords ≤ chunkElements - featureHeader)
    (hfinite : ∀ entry ∈ entries, Binary32.isFinite entry.2 = true) {margins : List Word}
    (hfolds : List.Forall₂ (fun entry margin => FoldsFrom math second entry.2 entry.1 margin)
      entries margins) (houtput : IsLogical output) :
    runChain math (carriedOutput whole.featureCount first.trees.length whole.trees.length entries)
      (List.replicate replicas secondModel) output =
        .ok (recordsOutput math whole.featureCount whole.trees.length margins) := by
  obtain ⟨hpos, hle⟩ := cutRows_bounds entries
  refine runReplicas_fill houtput (by rwa [List.length_map]) (by rwa [List.length_map]) ?_
  rw [List.forall₂_map_left_iff, List.forall₂_map_right_iff]
  refine (forall₂_shards hfolds).imp ?_
  rintro shard values ⟨hshard, hfolds'⟩ old hold
  refine chainAct_of_margins h (length_shard_mul_le hbatch hshard hvalues) hold
    (length_shard_mul_le hbatch hshard hrecords)
    (by rw [List.length_map, hfolds'.length_eq]) fun i hi => ?_
  have hi' : i < shard.length := by rwa [hfolds'.length_eq]
  have hvalue := hfinite _ (mem_of_mem_cutRows hshard _ (List.getElem_mem hi'))
  rw [chainedMargin_of_shard h hrows hvalues hbatch hshard hfolds' hi hi']
  refine if_neg ?_
  rw [laws.sub_self _ hvalue, Binary32.not_isNaN_of_isFinite hvalue]
  simp

/-- A second stage that does not fail goes on from the margins of the first, whatever they
are. -/
theorem runChain_of_not_failed (hrecords : capacity * outputWords ≤ chunkElements - featureHeader)
    {margins : List Word} (hfolds : List.Forall₂
      (fun entry margin => FoldsFrom math second entry.2 entry.1 margin) entries margins)
    (houtput : IsLogical output) {after : List (List Word)}
    (hrun : runChain math (carriedOutput whole.featureCount first.trees.length whole.trees.length
      entries) (List.replicate replicas secondModel) output = .ok after)
    (hgood : ∀ chunk ∈ after, ¬Failed chunk) :
    after = recordsOutput math whole.featureCount whole.trees.length margins := by
  obtain ⟨hpos, hle⟩ := cutRows_bounds entries
  refine eq_fillReplicas_of_runReplicas houtput (by rwa [List.length_map])
    (by rwa [List.length_map]) ?_ hrun hgood
  rw [List.forall₂_map_left_iff, List.forall₂_map_right_iff]
  refine (forall₂_shards hfolds).imp ?_
  rintro shard values ⟨hshard, hfolds'⟩ old new hold hnew hnot
  have hmul := length_shard_mul_le hbatch hshard hvalues
  have hmul' := length_shard_mul_le hbatch hshard hrecords
  have hchunk := length_carriedChunk hrows hvalues hbatch hshard first.trees.length
    whole.trees.length
  have hspec := (returns_chainAct hchunk h.holds_second.length hold).value new hnew
  have hrecorded := chainAct_of_margins h hmul hold hmul'
    (show values.length = _ by rw [List.length_map, hfolds'.length_eq]) fun i hi => by
      have hi' : i < shard.length := by rwa [hfolds'.length_eq]
      have hmargin := chainedMargin_of_shard h hrows hvalues hbatch hshard hfolds' hi hi'
      split_ifs at hmargin with hrefused
      · exact absurd (hspec.sample _ (chainHeader_of_holds h hmul hmul') i
          (by rwa [List.length_map]) hmargin) hnot
      · exact hmargin
  exact Except.ok.inj (hnew.symm.trans hrecorded)

omit h in
/-- The chunks that the host packs from the margins of the first stage. -/
theorem chainedShards_eq (first : Ensemble) :
    ((cutRows (balancedSizes entries.length) (entries.map Prod.fst)).zip
      (cutRows (balancedSizes entries.length) (entries.map Prod.snd))).mapM
        (chainedChunk whole.featureCount first.trees.length whole.trees.length) =
      .ok ((cutRows (balancedSizes entries.length) entries).map fun shard =>
        featuresChunk whole.featureCount [first.trees.length, whole.trees.length]
          (shard.map Prod.fst) (shard.map Prod.snd)) := by
  rw [cutRows_map, cutRows_map, List.zip_map', mapM_eq_ok_iff, List.forall₂_map_left_iff,
    List.forall₂_map_right_iff, List.forall₂_same]
  intro shard hshard
  have hwords := length_featuresWords (rows_of_shard hrows hshard) first.trees.length
    whole.trees.length (shard.map Prod.snd)
  have hlength := length_le_of_mem_cutRows hbatch hshard
  have hmul := (Nat.mul_le_mul_right _ hlength).trans hvalues
  have hheader : featureHeader + (chunkElements - featureHeader) = chunkElements := rfl
  rw [List.length_map, List.length_map] at hwords
  rw [Nat.mul_succ] at hmul
  refine chunkOf_padded ?_
  dsimp only
  rw [List.length_map, hwords]
  omega

end Stages

end Runs

/-! ## Models -/

theorem packRuntimeModel_eq_ok {ensemble : Ensemble} {model : List (List Word)}
    (h : packRuntimeModel ensemble = .ok model) :
    ∃ chunk, model = List.replicate replicas chunk ∧ HoldsModel chunk ensemble := by
  unfold packRuntimeModel at h
  obtain ⟨chunk, hchunk, h⟩ := bind_eq_ok_iff.1 h
  exact ⟨chunk, (Except.ok.inj h).symm, holdsModel_of_modelChunk hchunk⟩

/-- The two parts of an ensemble. -/
structure IsPartition (ensemble first second : Ensemble) : Prop where
  trees : ensemble.trees = first.trees ++ second.trees
  first_features : first.featureCount = ensemble.featureCount
  second_features : second.featureCount = ensemble.featureCount
  base : first.baseMargin = ensemble.baseMargin
  zero : second.baseMargin = 0
  two_le : 1 < ensemble.trees.length
  trees_le : ensemble.trees.length ≤ maxTrees

theorem isPartition_of_partitionEnsemble {ensemble first second : Ensemble}
    (h : partitionEnsemble ensemble = .ok (first, second)) : IsPartition ensemble first second := by
  unfold partitionEnsemble at h
  obtain ⟨htrees, h⟩ := refuseIf_bind_eq_ok_iff.1 h
  obtain ⟨_, h⟩ := refuseIf_bind_eq_ok_iff.1 h
  obtain ⟨_, h⟩ := refuseIf_bind_eq_ok_iff.1 h
  have htrees := not_not.1 htrees
  cases hindex :
    ((List.range' 1 (ensemble.trees.length - 1)).filter (fitsAt ensemble)).getLast? with
  | none =>
    rw [hindex] at h
    exact absurd h (by simp)
  | some index =>
    rw [hindex] at h
    obtain ⟨rfl, rfl⟩ := Prod.mk.inj (Except.ok.inj h)
    exact ⟨(List.take_append_drop index _).symm, rfl, rfl, rfl, rfl, htrees.1, htrees.2⟩

/-- An ensemble that is too large for one chunk is split whenever two chunks hold it. -/
theorem exists_partition {ensemble : Ensemble} (htwo : 1 < ensemble.trees.length)
    (htrees : ensemble.trees.length ≤ maxTrees) (hlarge : maxTotalNodes < ensemble.nodeCount)
    {index : ℕ} (hpos : 0 < index) (hindex : index < ensemble.trees.length)
    (hfits : fitsAt ensemble index = true) : ∃ parts, partitionEnsemble ensemble = .ok parts := by
  have hmem : index ∈ (List.range' 1 (ensemble.trees.length - 1)).filter (fitsAt ensemble) :=
    List.mem_filter.2 ⟨List.mem_range'_1.2 (by omega), hfits⟩
  have hnodes : ¬2 * maxTotalNodes < ensemble.nodeCount := by
    simp only [fitsAt, decide_eq_true_eq] at hfits
    omega
  unfold partitionEnsemble
  rw [refuseIf_of_not _ (not_not.2 ⟨htwo, htrees⟩), ok_bind, refuseIf_of_not _ (not_le.2 hlarge),
    ok_bind, refuseIf_of_not _ hnodes, ok_bind,
    List.getLast?_eq_some_getLast (List.ne_nil_of_mem hmem)]
  exact ⟨_, rfl⟩

theorem stages_of_partition {ensemble first second : Ensemble} (hvalid : ensemble.Valid)
    (h : IsPartition ensemble first second) {firstModel secondModel : List Word}
    (hfirst : HoldsModel firstModel first) (hsecond : HoldsModel secondModel second) :
    Stages ensemble first second firstModel secondModel := by
  have hsound : ∀ tree ∈ first.trees ++ second.trees, tree.Sound ensemble.featureCount :=
    fun tree htree => Tree.sound_of_validate (hvalid tree (h.trees ▸ htree))
  refine ⟨hfirst, hsecond, fun tree htree => ?_, fun tree htree => ?_, h.first_features,
    h.second_features, by rw [h.trees, List.length_append], h.trees_le, h.zero⟩
  · rw [h.first_features]
    exact hsound tree (List.mem_append_left _ htree)
  · rw [h.second_features]
    exact hsound tree (List.mem_append_right _ htree)

/-! ## Batches -/

/-- A batch that the host accepts. -/
structure Accepts (features : FeatureMatrix) (featureCount : ℕ) : Prop where
  width : features.width = featureCount
  not_inf : ∀ row ∈ features.rows, ∀ value ∈ row, Binary32.isInf value = false

theorem checkFeatures_eq {features : FeatureMatrix} {featureCount : ℕ}
    (h : Accepts features featureCount) : checkFeatures features featureCount = .ok () := by
  unfold checkFeatures
  rw [refuseIf_of_not _ (not_not.2 h.width), ok_bind]
  refine refuseIf_of_not _ ?_
  rintro ⟨row, hrow, value, hvalue, hinf⟩
  rw [h.not_inf row hrow value hvalue] at hinf
  exact absurd hinf Bool.false_ne_true

section Batches

variable {math : Arithmetic} {ensemble : Ensemble} {features : FeatureMatrix} {margins : List Word}

/-- A batch goes through a single stage. -/
def ServesSingle (math : Arithmetic) (ensemble : Ensemble) (model : List (List Word))
    (features : FeatureMatrix) (output : List (List Word)) (predictions : Predictions) : Prop :=
  ∃ capacity chunks after,
    invocationCapacity ensemble.featureCount = .ok capacity ∧
    packRuntimeFeatures features ensemble.featureCount capacity = .ok chunks ∧
    runSingle math chunks model output = .ok after ∧
    unpackPredictions after features.rows.length ensemble.featureCount ensemble.trees.length
      capacity = .ok predictions

/-- A batch goes through two stages that are connected in one run. -/
def ServesConnected (math : Arithmetic) (ensemble : Ensemble)
    (firstModel secondModel : List (List Word)) (features : FeatureMatrix)
    (firstOutput secondOutput : List (List Word)) (predictions : Predictions) : Prop :=
  ∃ capacity chunks carried after,
    partitionedInvocationCapacity ensemble.featureCount = .ok capacity ∧
    packConnectedFeatures features ensemble.featureCount ensemble.trees.length = .ok chunks ∧
    runFirst math chunks firstModel firstOutput = .ok carried ∧
    runChain math carried secondModel secondOutput = .ok after ∧
    unpackPredictions after features.rows.length ensemble.featureCount ensemble.trees.length
      capacity = .ok predictions

/-- A batch goes through two stages, with the margins carried over by the host. -/
def ServesPartitioned (math : Arithmetic) (ensemble first : Ensemble)
    (firstModel secondModel : List (List Word)) (features : FeatureMatrix)
    (firstOutput secondOutput : List (List Word)) (predictions : Predictions) : Prop :=
  ∃ capacity chunks stage carried after,
    partitionedInvocationCapacity ensemble.featureCount = .ok capacity ∧
    packRuntimeFeatures features ensemble.featureCount capacity = .ok chunks ∧
    runSingle math chunks firstModel firstOutput = .ok stage ∧
    packChainedFeatures features stage ensemble.featureCount first.trees.length
      ensemble.trees.length = .ok carried ∧
    runChain math carried secondModel secondOutput = .ok after ∧
    unpackPredictions after features.rows.length ensemble.featureCount ensemble.trees.length
      capacity = .ok predictions

theorem packRuntimeFeatures_eq {featureCount capacity : ℕ} (h : Accepts features featureCount)
    (hpos : 0 < capacity) (hbatch : features.rows.length ≤ replicas * capacity)
    (hvalues : capacity * featureCount ≤ chunkElements - featureHeader) :
    packRuntimeFeatures features featureCount capacity =
      .ok (fillReplicas ((cutRows (balancedSizes features.rows.length) features.rows).map
        fun shard => featuresChunk featureCount [0, 0] shard [])) := by
  unfold packRuntimeFeatures
  rw [checkFeatures_eq h, ok_bind, refuseIf_of_not _ (not_lt.2 hbatch), ok_bind]
  exact packFeatureShards_eq hpos hbatch (h.width ▸ features.rows_width) hvalues 0 0

/-- A single stage returns the fold. -/
theorem servesSingle (laws : math.Lawful) (hvalid : ensemble.Valid) {model : List (List Word)}
    (hmodel : packRuntimeModel ensemble = .ok model) (haccepts : Accepts features
      ensemble.featureCount) {capacity : ℕ}
    (hcapacity : batchCapacity ensemble.featureCount = .ok capacity)
    (hbatch : features.rows.length ≤ capacity) {output : List (List Word)}
    (houtput : IsLogical output)
    (hmargins : ensemble.predictMargin math.add features = .ok margins)
    (hfinite : ∀ margin ∈ margins, Binary32.isFinite margin = true) :
    ServesSingle math ensemble model features output (predictionsOf math margins) := by
  obtain ⟨chunk, rfl, hholds⟩ := packRuntimeModel_eq_ok hmodel
  have hsound : ∀ tree ∈ ensemble.trees, tree.Sound ensemble.featureCount :=
    fun tree htree => Tree.sound_of_validate (hvalid tree htree)
  have hcheck := checkFeatureCount_eq hholds.features_pos hholds.features_le
  obtain ⟨hpos, hvalues, hrecords⟩ := capacity_bounds (hholds.features_le.trans (Nat.le_succ _))
  have hinvocation : invocationCapacity ensemble.featureCount =
      .ok ((chunkElements - featureHeader) / max ensemble.featureCount outputWords) := by
    unfold invocationCapacity
    rw [hcheck, ok_bind]
  unfold batchCapacity at hcapacity
  rw [hinvocation, ok_bind] at hcapacity
  rw [← Except.ok.inj hcapacity] at hbatch
  have hfolds := (predictMargin_eq_ok_iff haccepts.width).1 hmargins
  have hlength := hfolds.length_eq
  refine ⟨_, _, _, hinvocation, packRuntimeFeatures_eq haccepts hpos hbatch hvalues,
    runSingle_eq math hholds hsound (haccepts.width ▸ features.rows_width) hvalues hrecords hbatch
      hfolds houtput, ?_⟩
  have hfeatures : maxFeatures < 2 ^ 24 := by decide
  have htrees : maxTrees < 2 ^ 24 := by decide
  rw [hlength] at hbatch ⊢
  exact unpackPredictions_eq hpos hbatch hrecords (hholds.features_le.trans_lt hfeatures)
    (hholds.trees_le.trans_lt htrees) hfinite fun margin hmargin =>
      sigmoid_spec laws (hfinite margin hmargin)

/-- Two stages return the fold of all trees. -/
theorem servesStages (laws : math.Lawful) (hvalid : ensemble.Valid) {first second : Ensemble}
    (hpartition : partitionEnsemble ensemble = .ok (first, second))
    {firstModel secondModel : List (List Word)} (hfirst : packRuntimeModel first = .ok firstModel)
    (hsecond : packRuntimeModel second = .ok secondModel)
    (haccepts : Accepts features ensemble.featureCount) {capacity : ℕ}
    (hcapacity : partitionedBatchCapacity ensemble.featureCount = .ok capacity)
    (hbatch : features.rows.length ≤ capacity) {firstOutput secondOutput : List (List Word)}
    (hfirstOutput : IsLogical firstOutput) (hsecondOutput : IsLogical secondOutput)
    (hmargins : ensemble.predictMargin math.add features = .ok margins)
    (hfinite : ∀ margin ∈ margins, Binary32.isFinite margin = true) :
    ServesConnected math ensemble firstModel secondModel features firstOutput secondOutput
        (predictionsOf math margins) ∧
      ServesPartitioned math ensemble first firstModel secondModel features firstOutput
        secondOutput (predictionsOf math margins) := by
  have hparts := isPartition_of_partitionEnsemble hpartition
  obtain ⟨firstChunk, rfl, hfirstHolds⟩ := packRuntimeModel_eq_ok hfirst
  obtain ⟨secondChunk, rfl, hsecondHolds⟩ := packRuntimeModel_eq_ok hsecond
  have hstages := stages_of_partition hvalid hparts hfirstHolds hsecondHolds
  have hfeaturesPos := hfirstHolds.features_pos
  have hfeaturesLe := hfirstHolds.features_le
  rw [hparts.first_features] at hfeaturesPos hfeaturesLe
  have hcheck := checkFeatureCount_eq hfeaturesPos hfeaturesLe
  obtain ⟨hpos, hvalues, hrecords⟩ := capacity_bounds (Nat.succ_le_succ hfeaturesLe)
  have hinvocation : partitionedInvocationCapacity ensemble.featureCount =
      .ok ((chunkElements - featureHeader) / max (ensemble.featureCount + 1) outputWords) := by
    unfold partitionedInvocationCapacity
    rw [hcheck, ok_bind]
  unfold partitionedBatchCapacity at hcapacity
  rw [hinvocation, ok_bind] at hcapacity
  rw [← Except.ok.inj hcapacity] at hbatch
  generalize (chunkElements - featureHeader) / max (ensemble.featureCount + 1) outputWords =
    perInvocation at *
  have hrowValues : perInvocation * ensemble.featureCount ≤ chunkElements - featureHeader :=
    (Nat.mul_le_mul_left _ (Nat.le_succ _)).trans hvalues
  have hwidths : ∀ row ∈ features.rows, row.length = ensemble.featureCount :=
    haccepts.width ▸ features.rows_width
  have hfolds := (predictMargin_eq_ok_iff haccepts.width).1 hmargins
  obtain ⟨carried, hcarried, hchained⟩ := exists_carried hparts.trees hfolds
  have hlength := hcarried.length_eq
  have hmarginsLength := hfolds.length_eq
  have hentries : features.rows = (features.rows.zip carried).map Prod.fst :=
    (List.map_fst_zip hlength.le).symm
  obtain ⟨hcarriedEntries, hzipFinite, hcarriedFinite⟩ := carried_spec laws hlength hchained hfinite
  have hzipLength : (features.rows.zip carried).length = features.rows.length := by
    rw [List.length_zip, hlength, Nat.min_self]
  have hzipBatch : (features.rows.zip carried).length ≤ replicas * perInvocation := by
    rwa [hzipLength]
  have hzipWidths : ∀ entry ∈ features.rows.zip carried,
      entry.1.length = ensemble.featureCount :=
    fun entry hentry => hwidths _ (List.of_mem_zip hentry).1
  have hzipFolds : ∀ entry ∈ features.rows.zip carried,
      FoldsFrom math first ensemble.baseMargin entry.1 entry.2 := by
    intro entry hentry
    exact (List.forall₂_iff_zip.1 hcarried).2 hentry
  have hchain := runChain_eq hstages hzipWidths hvalues hzipBatch laws hrecords hzipFinite hchained
    hsecondOutput
  have hsmall : maxFeatures < 2 ^ 24 := by decide
  have htrees : maxTrees < 2 ^ 24 := by decide
  have hread : unpackPredictions (recordsOutput math ensemble.featureCount ensemble.trees.length
      margins) features.rows.length ensemble.featureCount ensemble.trees.length perInvocation =
        .ok (predictionsOf math margins) := by
    rw [hmarginsLength] at hbatch ⊢
    exact unpackPredictions_eq hpos hbatch hrecords (hfeaturesLe.trans_lt hsmall)
      (hparts.trees_le.trans_lt htrees) hfinite fun margin hmargin =>
        sigmoid_spec laws (hfinite margin hmargin)
  have htwo := hstages.trees
  have hfirstTrees := hfirstHolds.trees_pos
  have hsecondTrees := hsecondHolds.trees_pos
  constructor
  · have hpack : packConnectedFeatures features ensemble.featureCount ensemble.trees.length =
        .ok (fillReplicas ((cutRows (balancedSizes features.rows.length) features.rows).map
          fun shard =>
            featuresChunk ensemble.featureCount [ensemble.trees.length, 0] shard [])) := by
      unfold packConnectedFeatures
      rw [checkFeatures_eq haccepts, ok_bind, hinvocation, ok_bind,
        refuseIf_of_not _ (not_lt.2 hbatch), ok_bind,
        refuseIf_of_not _ (not_not.2 ⟨hparts.two_le, hparts.trees_le⟩), ok_bind]
      exact packFeatureShards_eq hpos hbatch hwidths hrowValues _ 0
    have hfirstRun := runFirst_eq hstages hzipWidths hvalues hzipBatch math hparts.base hzipFolds
      hfirstOutput
    rw [← hentries] at hfirstRun
    exact ⟨_, _, _, _, hinvocation, hpack, hfirstRun, hchain, hread⟩
  · have hsound : ∀ tree ∈ first.trees, tree.Sound first.featureCount := hstages.first_sound
    have hfirstRun := runSingle_eq math hfirstHolds hsound
      (by rwa [hparts.first_features]) (by rwa [hparts.first_features]) hrecords hbatch
      (by rwa [hparts.base]) hfirstOutput
    rw [hparts.first_features] at hfirstRun
    have hpartial := validatePartial_eq hpos (hlength ▸ hbatch) hrecords
      (hfeaturesLe.trans_lt hsmall) (hfirstHolds.trees_le.trans_lt htrees) math hcarriedFinite
    have hshards := chainedShards_eq hzipWidths hvalues hzipBatch first
    rw [← hentries, ← hcarriedEntries, hzipLength] at hshards
    have hpack : packChainedFeatures features (recordsOutput math ensemble.featureCount
        first.trees.length carried) ensemble.featureCount first.trees.length
        ensemble.trees.length = .ok (carriedOutput ensemble.featureCount first.trees.length
          ensemble.trees.length (features.rows.zip carried)) := by
      unfold packChainedFeatures
      rw [checkFeatures_eq haccepts, ok_bind, hinvocation, ok_bind,
        refuseIf_of_not _ (not_lt.2 hbatch), ok_bind,
        refuseIf_of_not _ (not_not.2 ⟨hfirstTrees, by omega, hparts.trees_le⟩), ok_bind, hlength,
        hpartial, ok_bind, shardSizes_eq hpos (hlength ▸ hbatch), ok_bind, ← hlength, hshards,
        ok_bind, carriedOutput, hzipLength]
    exact ⟨_, _, _, _, _, hinvocation, packRuntimeFeatures_eq haccepts hpos hbatch hrowValues,
      hfirstRun, hpack, hchain, hread⟩

end Batches

/-! ## Pipelines -/

/-- The runtime returns the fold of the ensemble. On every batch within the capacity,
without infinite values, `predictMargin` returns margins; if they are finite, the run of a
packed model returns them, and so do the two runs of a model that is split. A model
between the capacities of one and of two chunks is split whenever some boundary allows
it. -/
theorem runtime_predicts (math : Arithmetic) (laws : math.Lawful) :
    (∀ (ensemble : Ensemble) (model : List (List Word)) (features : FeatureMatrix)
      (output : List (List Word)) (capacity : ℕ), ensemble.Valid →
      packRuntimeModel ensemble = .ok model → Accepts features ensemble.featureCount →
      batchCapacity ensemble.featureCount = .ok capacity → features.rows.length ≤ capacity →
      IsLogical output →
      ∃ margins, ensemble.predictMargin math.add features = .ok margins ∧
        ((∀ margin ∈ margins, Binary32.isFinite margin = true) →
          ServesSingle math ensemble model features output (predictionsOf math margins))) ∧
    (∀ (ensemble first second : Ensemble) (firstModel secondModel : List (List Word))
      (features : FeatureMatrix) (firstOutput secondOutput : List (List Word)) (capacity : ℕ),
      ensemble.Valid → partitionEnsemble ensemble = .ok (first, second) →
      packRuntimeModel first = .ok firstModel → packRuntimeModel second = .ok secondModel →
      Accepts features ensemble.featureCount →
      partitionedBatchCapacity ensemble.featureCount = .ok capacity →
      features.rows.length ≤ capacity → IsLogical firstOutput → IsLogical secondOutput →
      ∃ margins, ensemble.predictMargin math.add features = .ok margins ∧
        ((∀ margin ∈ margins, Binary32.isFinite margin = true) →
          ServesConnected math ensemble firstModel secondModel features firstOutput secondOutput
              (predictionsOf math margins) ∧
            ServesPartitioned math ensemble first firstModel secondModel features firstOutput
              secondOutput (predictionsOf math margins))) ∧
    (∀ (ensemble : Ensemble) (index : ℕ), 1 < ensemble.trees.length →
      ensemble.trees.length ≤ maxTrees → maxTotalNodes < ensemble.nodeCount → 0 < index →
      index < ensemble.trees.length → fitsAt ensemble index = true →
      ∃ parts, partitionEnsemble ensemble = .ok parts) := by
  refine ⟨?_, ?_, ?_⟩
  · intro ensemble model features output capacity hvalid hmodel haccepts hcapacity hbatch houtput
    obtain ⟨margins, hmargins⟩ := exists_predictMargin math hvalid haccepts.width
    exact ⟨margins, hmargins, servesSingle laws hvalid hmodel haccepts hcapacity hbatch houtput
      hmargins⟩
  · intro ensemble first second firstModel secondModel features firstOutput secondOutput capacity
      hvalid hpartition hfirst hsecond haccepts hcapacity hbatch hfirstOutput hsecondOutput
    obtain ⟨margins, hmargins⟩ := exists_predictMargin math hvalid haccepts.width
    exact ⟨margins, hmargins, servesStages laws hvalid hpartition hfirst hsecond haccepts hcapacity
      hbatch hfirstOutput hsecondOutput hmargins⟩
  · intro ensemble index htwo htrees hlarge hpos hindex hfits
    exact exists_partition htwo htrees hlarge hpos hindex hfits

/-! ### A run with missing values -/

theorem lawful_zeroArithmetic : zeroArithmetic.Lawful where
  exp_le _ _ _ := show Binary32.le 0 Binary32.one = true ∧
    Binary32.le Binary32.one Binary32.one = true by decide
  one_add _ _ _ := show Binary32.le Binary32.one 0x40000000 = true ∧
    Binary32.isFinite 0x40000000 = true by decide
  div_le _ _ _ _ _ _ := show Binary32.le 0 Binary32.half = true ∧
    Binary32.le Binary32.half Binary32.one = true by decide
  sub_self _ _ := show Binary32.eq 0 0 = true by decide
  finite_of_add a b h := by
    by_contra hfinite
    have hfalse : Binary32.isFinite a = false := by simpa using hfinite
    have hone : a ≠ Binary32.one := by
      rintro rfl
      exact absurd hfalse (by decide)
    rw [show zeroArithmetic.add a b = a by simp [zeroArithmetic, hone, hfalse]] at h
    exact hfinite h

/-- A tree of fifteen nodes whose leftmost leaf is zero. -/
def exampleTree : Tree where
  left := [1, 3, 5, 7, 9, 11, 13] ++ List.replicate 8 (-1)
  right := [2, 4, 6, 8, 10, 12, 14] ++ List.replicate 8 (-1)
  splitFeature := List.replicate 15 0
  splitOrLeaf := List.replicate 7 Binary32.half ++ [0] ++ List.replicate 7 Binary32.one
  defaultLeft := List.replicate 15 true

/-- An ensemble of some such trees. -/
def exampleEnsemble (count : ℕ) : Ensemble :=
  ⟨1, 0, List.replicate count exampleTree⟩

/-- A missing value and a quarter. -/
def exampleFeatures : FeatureMatrix :=
  ⟨1, [[0x7FC00000], [0x3E800000]], by decide⟩

theorem accepts_exampleFeatures : Accepts exampleFeatures 1 where
  width := rfl
  not_inf := by
    have hquiet : Binary32.isInf 0x7FC00000 = false ∧ Binary32.isInf 0x3E800000 = false := by
      decide
    simp [exampleFeatures, hquiet]

theorem isFinite_zeros : ∀ margin ∈ [(0 : Word), 0], Binary32.isFinite margin = true := by
  have hzero : Binary32.isFinite 0 = true := by decide
  simp [hzero]

theorem runtime_predicts_missing :
    (∃ model, packRuntimeModel (exampleEnsemble 1) = .ok model ∧
      ServesSingle zeroArithmetic (exampleEnsemble 1) model exampleFeatures zeroTensor
        (predictionsOf zeroArithmetic [0, 0])) ∧
    ∃ first second firstModel secondModel,
      partitionEnsemble (exampleEnsemble 34) = .ok (first, second) ∧
        packRuntimeModel first = .ok firstModel ∧ packRuntimeModel second = .ok secondModel ∧
        ServesConnected zeroArithmetic (exampleEnsemble 34) firstModel secondModel exampleFeatures
          zeroTensor zeroTensor (predictionsOf zeroArithmetic [0, 0]) := by
  obtain ⟨hsingle, hstages, hfound⟩ := runtime_predicts zeroArithmetic lawful_zeroArithmetic
  have hlogical : zeroTensor.map List.length = List.replicate replicas chunkElements := by
    decide +kernel
  have hpacked : ∀ ensemble : Ensemble, succeeds (packRuntimeModel ensemble) = true →
      ∃ model, packRuntimeModel ensemble = .ok model := fun ensemble => succeeds_iff.1
  constructor
  · obtain ⟨model, hmodel⟩ := hpacked (exampleEnsemble 1) (by decide +kernel)
    obtain ⟨margins, hmargins, hserves⟩ := hsingle (exampleEnsemble 1) model exampleFeatures
      zeroTensor 1360 (by decide +kernel) hmodel accepts_exampleFeatures rfl (by decide) hlogical
    obtain rfl : margins = [0, 0] := Except.ok.inj (hmargins.symm.trans (by decide +kernel))
    exact ⟨model, hmodel, hserves isFinite_zeros⟩
  · obtain ⟨⟨first, second⟩, hparts⟩ := hfound (exampleEnsemble 34) 17 (by decide) (by decide)
      (by decide +kernel) (by decide) (by decide) (by decide +kernel)
    obtain ⟨rfl, rfl⟩ : exampleEnsemble 33 = first ∧ exampleEnsemble 1 = second :=
      Prod.mk.inj (Except.ok.inj ((show partitionEnsemble (exampleEnsemble 34) =
        .ok (exampleEnsemble 33, exampleEnsemble 1) by decide +kernel).symm.trans hparts))
    obtain ⟨firstModel, hfirst⟩ := hpacked (exampleEnsemble 33) (by decide +kernel)
    obtain ⟨secondModel, hsecond⟩ := hpacked (exampleEnsemble 1) (by decide +kernel)
    obtain ⟨margins, hmargins, hserves⟩ := hstages (exampleEnsemble 34) _ _ firstModel secondModel
      exampleFeatures zeroTensor zeroTensor 1360 (by decide +kernel) hparts hfirst hsecond
      accepts_exampleFeatures rfl (by decide) hlogical hlogical
    obtain rfl : margins = [0, 0] := Except.ok.inj (hmargins.symm.trans (by decide +kernel))
    exact ⟨_, _, firstModel, secondModel, hparts, hfirst, hsecond, (hserves isFinite_zeros).1⟩

/-- An ensemble of two leaves fits two chunks, but is not split, as it fits one. -/
theorem small_not_split : ∃ ensemble : Ensemble, ensemble.Valid ∧ fitsAt ensemble 1 = true ∧
    (∃ first second, packRuntimeModel { ensemble with trees := ensemble.trees.take 1 } = .ok first ∧
      packRuntimeModel { ensemble with trees := ensemble.trees.drop 1 } = .ok second) ∧
    partitionEnsemble ensemble = .error (.value ("partitioned runtime requires a model that " ++
      "exceeds the single-stage capacity of 509 nodes")) := by
  refine ⟨⟨1, 0, List.replicate 2 ⟨[-1], [-1], [0], [0], [false]⟩⟩, by decide +kernel,
    by decide +kernel, ?_, by decide +kernel⟩
  have hpacked : succeeds (packRuntimeModel ⟨1, 0, [⟨[-1], [-1], [0], [0], [false]⟩]⟩) = true := by
    decide +kernel
  obtain ⟨model, hmodel⟩ := succeeds_iff.1 hpacked
  exact ⟨model, model, hmodel, hmodel⟩

end Runtime

end Npunlock
