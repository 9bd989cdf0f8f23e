import Npunlock.RuntimeApi
import Npunlock.RuntimeSpec

/-!
# Model replacement of the XGBoost runtime

The model in force is the ensemble that the runtime records, with a backend of its kind
that holds its packed trees (`InForce`). Every call keeps this, whichever of its steps
raises, except for a load that changes the kind of the backend and meets a raising release
of the old one (`MixesModels`) : it has exchanged the backend already and leaves the old
ensemble recorded.
-/

namespace Npunlock

namespace Runtime

open Effect

theorem mapError_eq_error_iff {ε ε' α : Type} {f : ε → ε'} {result : Except ε α} {error' : ε'} :
    result.mapError f = .error error' ↔ ∃ error, result = .error error ∧ f error = error' := by
  cases result <;> simp [Except.mapError]

/-! ## Backends -/

/-- The backend is of a kind and holds the packed model of an ensemble. -/
def Backend.Holds (ensemble : Ensemble) : BackendKind → Backend → Prop
  | .single, .single recorded forest output =>
    recorded = ensemble ∧ packRuntimeModel ensemble = .ok forest ∧ IsLogical output
  | .connected, .connected recorded forestA forestB output =>
    recorded = ensemble ∧ packPartitions ensemble = .ok (forestA, forestB) ∧ IsLogical output
  | _, _ => False

/-- The capacity of a kind. -/
def BackendKind.capacity (featureCount : ℕ) : BackendKind → Except ModelError ℕ
  | .single => batchCapacity featureCount
  | .connected => partitionedBatchCapacity featureCount

theorem accepts_of_checkFeatures {features : FeatureMatrix} {featureCount : ℕ} {u : Unit}
    (h : checkFeatures features featureCount = .ok u) : Accepts features featureCount := by
  unfold checkFeatures at h
  obtain ⟨hwidth, h⟩ := refuseIf_bind_eq_ok_iff.1 h
  have hinf := refuseIf_eq_ok_iff.1 h
  push Not at hinf
  refine ⟨not_not.1 hwidth, fun row hrow value hvalue => ?_⟩
  simpa using hinf row hrow value hvalue

theorem packPartitions_eq_ok {ensemble : Ensemble} {forestA forestB : List (List Word)}
    (h : packPartitions ensemble = .ok (forestA, forestB)) :
    ∃ first second, partitionEnsemble ensemble = .ok (first, second) ∧
      packRuntimeModel first = .ok forestA ∧ packRuntimeModel second = .ok forestB := by
  unfold packPartitions at h
  obtain ⟨⟨first, second⟩, hparts, h⟩ := bind_eq_ok_iff.1 h
  obtain ⟨a, ha, h⟩ := bind_eq_ok_iff.1 h
  obtain ⟨b, hb, h⟩ := bind_eq_ok_iff.1 h
  obtain ⟨rfl, rfl⟩ := Prod.mk.inj (Except.ok.inj h)
  exact ⟨first, second, hparts, ha, hb⟩

section Backends

variable {math : Arithmetic} {ensemble : Ensemble} {features : FeatureMatrix} {kind : BackendKind}
  {backend : Backend}

theorem Backend.Holds.withOutput {output : List (List Word)} (h : backend.Holds ensemble kind)
    (houtput : IsLogical output) : (backend.withOutput output).Holds ensemble kind := by
  cases kind <;> cases backend
  · exact ⟨h.1, h.2.1, houtput⟩
  · exact h.elim
  · exact h.elim
  · exact ⟨h.1, h.2.1, houtput⟩

/-- What a run of the single backend ends in. -/
theorem single_program (math : Arithmetic) (hvalid : ensemble.Valid)
    {forest output packed : List (List Word)}
    (hforest : packRuntimeModel ensemble = .ok forest) (houtput : IsLogical output)
    (hpacked : (Backend.single ensemble forest output).packFeatures features = .ok packed) :
    ∃ margins, ensemble.predictMargin math.add features = .ok margins ∧
      ∀ scratch after, (Backend.single ensemble forest output).program math packed scratch =
        .ok after → IsLogical after ∧ ∀ predictions,
          (Backend.single ensemble forest output).unpack after features.rows.length =
            .ok predictions → predictions = predictionsOf math margins := by
  have hpack : (do
      checkFeatures features ensemble.featureCount
      let capacity ← invocationCapacity ensemble.featureCount
      packRuntimeFeatures features ensemble.featureCount capacity) = .ok packed := hpacked
  obtain ⟨u, hcheck, hpack⟩ := bind_eq_ok_iff.1 hpack
  obtain ⟨capacity, hcapacity, hpack⟩ := bind_eq_ok_iff.1 hpack
  have haccepts := accepts_of_checkFeatures hcheck
  obtain ⟨chunk, rfl, hholds⟩ := packRuntimeModel_eq_ok hforest
  have hsound : ∀ tree ∈ ensemble.trees, tree.Sound ensemble.featureCount :=
    fun tree htree => Tree.sound_of_validate (hvalid tree htree)
  have hcount := checkFeatureCount_eq hholds.features_pos hholds.features_le
  obtain ⟨hpos, hvalues, hrecords⟩ := capacity_bounds (hholds.features_le.trans (Nat.le_succ _))
  have hinvocation := hcapacity
  unfold invocationCapacity at hcapacity
  rw [hcount, ok_bind] at hcapacity
  rw [Except.ok.inj hcapacity] at hpos hvalues hrecords
  have hbatch : features.rows.length ≤ replicas * capacity := by
    unfold packRuntimeFeatures at hpack
    obtain ⟨_, _, hpack⟩ := bind_eq_ok_iff.1 hpack
    exact not_lt.1 (refuseIf_bind_eq_ok_iff.1 hpack).1
  obtain ⟨margins, hmargins⟩ := exists_predictMargin math hvalid haccepts.width
  have hfolds := (predictMargin_eq_ok_iff haccepts.width).1 hmargins
  have hlength := hfolds.length_eq
  rw [packRuntimeFeatures_eq haccepts hpos hbatch hvalues] at hpack
  obtain rfl := Except.ok.inj hpack
  refine ⟨margins, hmargins, fun scratch after hafter => ?_⟩
  obtain rfl := Except.ok.inj (hafter.symm.trans (runSingle_eq math hholds hsound
    (haccepts.width ▸ features.rows_width) hvalues hrecords hbatch hfolds houtput))
  rw [hlength] at hbatch ⊢
  refine ⟨isLogical_recordsOutput hbatch hrecords math _ _, fun predictions hpredictions => ?_⟩
  change (invocationCapacity ensemble.featureCount >>= fun capacity =>
    unpackPredictions _ _ _ _ capacity) = _ at hpredictions
  rw [hinvocation, ok_bind] at hpredictions
  have hfeatures : maxFeatures < 2 ^ 24 := by decide
  have htrees : maxTrees < 2 ^ 24 := by decide
  exact predictions_of_unpack hpos hbatch hrecords (hholds.features_le.trans_lt hfeatures)
    (hholds.trees_le.trans_lt htrees) hpredictions

/-- What a run of the connected backend ends in. -/
theorem connected_program (hvalid : ensemble.Valid)
    {forestA forestB output packed : List (List Word)}
    (hforests : packPartitions ensemble = .ok (forestA, forestB)) (houtput : IsLogical output)
    (hpacked : (Backend.connected ensemble forestA forestB output).packFeatures features =
      .ok packed) :
    ∃ margins, ensemble.predictMargin math.add features = .ok margins ∧
      ∀ scratch after, IsLogical scratch →
        (Backend.connected ensemble forestA forestB output).program math packed scratch =
          .ok after → IsLogical after ∧ ∀ predictions,
            (Backend.connected ensemble forestA forestB output).unpack after
              features.rows.length = .ok predictions →
                predictions = predictionsOf math margins := by
  have hpack : packConnectedFeatures features ensemble.featureCount ensemble.trees.length =
    .ok packed := hpacked
  unfold packConnectedFeatures at hpack
  obtain ⟨u, hcheck, hpack⟩ := bind_eq_ok_iff.1 hpack
  obtain ⟨capacity, hcapacity, hpack⟩ := bind_eq_ok_iff.1 hpack
  obtain ⟨hbatch, hpack⟩ := refuseIf_bind_eq_ok_iff.1 hpack
  obtain ⟨_, hpack⟩ := refuseIf_bind_eq_ok_iff.1 hpack
  have hbatch := not_lt.1 hbatch
  have haccepts := accepts_of_checkFeatures hcheck
  obtain ⟨first, second, hpartition, hfirst, hsecond⟩ := packPartitions_eq_ok hforests
  have hparts := isPartition_of_partitionEnsemble hpartition
  obtain ⟨firstChunk, rfl, hfirstHolds⟩ := packRuntimeModel_eq_ok hfirst
  obtain ⟨secondChunk, rfl, hsecondHolds⟩ := packRuntimeModel_eq_ok hsecond
  have hstages := stages_of_partition hvalid hparts hfirstHolds hsecondHolds
  have hfeaturesPos := hfirstHolds.features_pos
  have hfeaturesLe := hfirstHolds.features_le
  rw [hparts.first_features] at hfeaturesPos hfeaturesLe
  have hcount := checkFeatureCount_eq hfeaturesPos hfeaturesLe
  obtain ⟨hpos, hvalues, hrecords⟩ := capacity_bounds (Nat.succ_le_succ hfeaturesLe)
  have hinvocation := hcapacity
  unfold partitionedInvocationCapacity at hcapacity
  rw [hcount, ok_bind] at hcapacity
  rw [Except.ok.inj hcapacity] at hpos hvalues hrecords
  have hrowValues : capacity * ensemble.featureCount ≤ chunkElements - featureHeader :=
    (Nat.mul_le_mul_left _ (Nat.le_succ _)).trans hvalues
  have hwidths : ∀ row ∈ features.rows, row.length = ensemble.featureCount :=
    haccepts.width ▸ features.rows_width
  obtain ⟨margins, hmargins⟩ := exists_predictMargin math hvalid haccepts.width
  have hfolds := (predictMargin_eq_ok_iff haccepts.width).1 hmargins
  obtain ⟨carried, hcarried, hchained⟩ := exists_carried hparts.trees hfolds
  have hlength := hcarried.length_eq
  have hmarginsLength := hfolds.length_eq
  have hzipBatch : (features.rows.zip carried).length ≤ replicas * capacity := by
    rwa [List.length_zip, ← hlength, Nat.min_self]
  have hzipWidths : ∀ entry ∈ features.rows.zip carried,
      entry.1.length = ensemble.featureCount :=
    fun entry hentry => hwidths _ (List.of_mem_zip hentry).1
  rw [packFeatureShards_eq hpos hbatch hwidths hrowValues] at hpack
  obtain rfl := Except.ok.inj hpack
  refine ⟨margins, hmargins, fun scratch after hscratch hafter => ?_⟩
  change (runFirst math _ _ scratch >>= fun carried => runChain math carried _ output) = _ at hafter
  have hfirstRun := runFirst_eq hstages hzipWidths hvalues hzipBatch math hparts.base
    (fun entry hentry => (List.forall₂_iff_zip.1 hcarried).2 hentry) hscratch
  rw [List.map_fst_zip hlength.le] at hfirstRun
  rw [hfirstRun, ok_bind] at hafter
  obtain ⟨after', hafter', hlogical, _⟩ := exists_runReplicas (P := fun _ _ _ => True)
    (fun f m o hf hm ho => (show Returns (chainAct math f m chunkElements o) _ from
      returns_chainAct hf hm ho).mono fun _ h => ⟨h.length, trivial⟩)
    (isLogical_carriedOutput hzipWidths hvalues hzipBatch first.trees.length
      ensemble.trees.length)
    (isLogical_of_forall (List.length_replicate ..) fun chunk hchunk => by
      rw [List.eq_of_mem_replicate hchunk, hsecondHolds.length]) houtput
  obtain rfl := Except.ok.inj (hafter'.symm.trans hafter)
  refine ⟨hlogical, fun predictions hpredictions => ?_⟩
  change (partitionedInvocationCapacity ensemble.featureCount >>= fun capacity =>
    unpackPredictions _ _ _ _ capacity) = _ at hpredictions
  rw [hinvocation, ok_bind] at hpredictions
  have hrun := runChain_of_not_failed hstages hzipWidths hvalues hzipBatch hrecords hchained
    houtput hafter (not_failed_of_unpackPredictions hpredictions)
  have hfeatures : maxFeatures < 2 ^ 24 := by decide
  have htrees : maxTrees < 2 ^ 24 := by decide
  rw [hrun, hmarginsLength] at hpredictions
  rw [hmarginsLength] at hbatch
  exact predictions_of_unpack hpos hbatch hrecords (hfeaturesLe.trans_lt hfeatures)
    (hparts.trees_le.trans_lt htrees) hpredictions

theorem Backend.Holds.program (math : Arithmetic) (hvalid : ensemble.Valid)
    (h : backend.Holds ensemble kind) {packed : List (List Word)}
    (hpacked : backend.packFeatures features = .ok packed) :
    ∃ margins, ensemble.predictMargin math.add features = .ok margins ∧
      ∀ scratch after, IsLogical scratch → backend.program math packed scratch = .ok after →
        IsLogical after ∧ ∀ predictions, backend.unpack after features.rows.length =
          .ok predictions → predictions = predictionsOf math margins := by
  cases kind <;> cases backend
  · obtain ⟨rfl, hforest, houtput⟩ := h
    obtain ⟨margins, hmargins, hrun⟩ := single_program math hvalid hforest houtput hpacked
    exact ⟨margins, hmargins, fun scratch after _ => hrun scratch after⟩
  · exact h.elim
  · exact h.elim
  · obtain ⟨rfl, hforests, houtput⟩ := h
    exact connected_program hvalid hforests houtput hpacked

/-- A run returns the predictions of the model, and keeps it however it ends. -/
theorem ensures_backendRun (math : Arithmetic) (features : FeatureMatrix)
    (hvalid : ensemble.Valid) (h : backend.Holds ensemble kind) (answer : DeviceAnswer) :
    Ensures (Backend.run math features answer) backend
      (fun predictions after => after.Holds ensemble kind ∧
        ∃ margins, ensemble.predictMargin math.add features = .ok margins ∧
          predictions = predictionsOf math margins)
      fun _ after => after.Holds ensemble kind := by
  simp only [Backend.run, ensures_bind, ensures_get, ensures_ofExcept, mapError_eq_ok_iff]
  refine ⟨fun packed hpacked => ?_, fun _ _ => h⟩
  obtain ⟨margins, hmargins, hprogram⟩ := h.program math hvalid hpacked
  cases answer with
  | raises message left =>
    simp only [ensures_bind, ensures_modify, ensures_throw]
    exact h.withOutput left.2
  | completes scratch =>
    simp only [ensures_bind, ensures_modify, ensures_ofExcept, mapError_eq_ok_iff]
    refine ⟨fun after hafter => ?_, fun _ _ => h⟩
    obtain ⟨hlogical, hread⟩ := hprogram scratch.1 after scratch.2 hafter
    exact ⟨fun predictions hpredictions => ⟨h.withOutput hlogical, margins, hmargins,
      hread predictions hpredictions⟩, fun _ _ => h.withOutput hlogical⟩

/-- A batch within the capacity, with finite margins, is answered by a device that
completes. -/
theorem ensures_backendRun_completes (laws : math.Lawful) (hvalid : ensemble.Valid)
    (h : backend.Holds ensemble kind) (haccepts : Accepts features ensemble.featureCount)
    {capacity : ℕ} (hcapacity : kind.capacity ensemble.featureCount = .ok capacity)
    (hbatch : features.rows.length ≤ capacity) {margins : List Word}
    (hmargins : ensemble.predictMargin math.add features = .ok margins)
    (hfinite : ∀ margin ∈ margins, Binary32.isFinite margin = true) (scratch : Tensor) :
    Ensures (Backend.run math features (.completes scratch)) backend
      (fun predictions _ => predictions = predictionsOf math margins) fun _ _ => False := by
  have hruns : ∃ packed after, backend.packFeatures features = .ok packed ∧
      backend.program math packed scratch.1 = .ok after ∧
      backend.unpack after features.rows.length = .ok (predictionsOf math margins) := by
    cases kind <;> cases backend
    · obtain ⟨rfl, hforest, houtput⟩ := h
      obtain ⟨perInvocation, packed, after, hinvocation, hpacked, hafter, hread⟩ :=
        servesSingle laws hvalid hforest haccepts hcapacity hbatch houtput hmargins hfinite
      exact ⟨packed, after, bind_eq_ok_iff.2 ⟨(), checkFeatures_eq haccepts,
        bind_eq_ok_iff.2 ⟨perInvocation, hinvocation, hpacked⟩⟩, hafter,
        bind_eq_ok_iff.2 ⟨perInvocation, hinvocation, hread⟩⟩
    · exact h.elim
    · exact h.elim
    · obtain ⟨rfl, hforests, houtput⟩ := h
      obtain ⟨first, second, hpartition, hfirst, hsecond⟩ := packPartitions_eq_ok hforests
      obtain ⟨⟨perInvocation, packed, carried, after, hinvocation, hpacked, hcarried, hafter,
        hread⟩, _⟩ := servesStages laws hvalid hpartition hfirst hsecond haccepts hcapacity hbatch
          scratch.2 houtput hmargins hfinite
      exact ⟨packed, after, hpacked, bind_eq_ok_iff.2 ⟨carried, hcarried, hafter⟩,
        bind_eq_ok_iff.2 ⟨perInvocation, hinvocation, hread⟩⟩
  obtain ⟨packed, after, hpacked, hafter, hread⟩ := hruns
  simp [Backend.run, hpacked, hafter, hread, Except.mapError]

end Backends

/-! ## Batches -/

theorem capacity_pos {kind : BackendKind} {featureCount capacity : ℕ}
    (h : kind.capacity featureCount = .ok capacity) : 0 < capacity := by
  have hwidth : ∀ width, 0 < featureCount ∧ featureCount ≤ maxFeatures → width ≤ featureCount + 1 →
      0 < replicas * ((chunkElements - featureHeader) / max width outputWords) :=
    fun width hcount hle => Nat.mul_pos (by decide) (capacity_bounds (by omega)).1
  cases kind
  · change (do
      let perInvocation ← invocationCapacity featureCount
      .ok (replicas * perInvocation)) = Except.ok capacity at h
    obtain ⟨perInvocation, hperInvocation, h⟩ := bind_eq_ok_iff.1 h
    unfold invocationCapacity at hperInvocation
    obtain ⟨_, hcount, hperInvocation⟩ := bind_eq_ok_iff.1 hperInvocation
    obtain rfl := Except.ok.inj hperInvocation
    obtain rfl := Except.ok.inj h
    exact hwidth _ (not_not.1 (refuseIf_eq_ok_iff.1 hcount)) (Nat.le_succ _)
  · change (do
      let perInvocation ← partitionedInvocationCapacity featureCount
      .ok (replicas * perInvocation)) = Except.ok capacity at h
    obtain ⟨perInvocation, hperInvocation, h⟩ := bind_eq_ok_iff.1 h
    unfold partitionedInvocationCapacity at hperInvocation
    obtain ⟨_, hcount, hperInvocation⟩ := bind_eq_ok_iff.1 hperInvocation
    obtain rfl := Except.ok.inj hperInvocation
    obtain rfl := Except.ok.inj h
    exact hwidth _ (not_not.1 (refuseIf_eq_ok_iff.1 hcount)) le_rfl

/-- The batches cover the rows. -/
theorem le_batches {n capacity : ℕ} (h : 0 < capacity) :
    n ≤ (n + capacity - 1) / capacity * capacity := by
  have hlt := Nat.lt_div_mul_add (a := n + capacity - 1) h
  omega

theorem take_slice (features : FeatureMatrix) (index capacity : ℕ) :
    features.rows.take ((index + 1) * capacity) =
      features.rows.take (index * capacity) ++
        (slice features (index * capacity) capacity).rows := by
  rw [Nat.succ_mul, List.take_add]
  rfl

theorem accepts_slice {features : FeatureMatrix} {featureCount : ℕ}
    (h : Accepts features featureCount) (start size : ℕ) :
    Accepts (slice features start size) featureCount :=
  ⟨h.width, fun row hrow => h.not_inf row (List.mem_of_mem_drop (List.mem_of_mem_take hrow))⟩

theorem concatenate_append (predictions : List Predictions) (batch : Predictions) :
    concatenate (predictions ++ [batch]) =
      ⟨(concatenate predictions).margins ++ batch.margins,
        (concatenate predictions).probabilities ++ batch.probabilities,
        (concatenate predictions).classes ++ batch.classes⟩ := by
  simp [concatenate]

theorem predictionsOf_append (math : Arithmetic) (before after : List Word) :
    predictionsOf math (before ++ after) =
      ⟨(predictionsOf math before).margins ++ (predictionsOf math after).margins,
        (predictionsOf math before).probabilities ++ (predictionsOf math after).probabilities,
        (predictionsOf math before).classes ++ (predictionsOf math after).classes⟩ := by
  simp [predictionsOf]

/-! ## Runs -/

namespace XGBoostRuntime

section Run

variable {math : Arithmetic} {ensemble : Ensemble} {runtime : XGBoostRuntime}
  {features : FeatureMatrix}

/-- The backend holds an ensemble, whose features are those of the recorded one. -/
structure Answers (ensemble : Ensemble) (runtime : XGBoostRuntime) : Prop where
  valid : ensemble.Valid
  backend : runtime.backend.Holds ensemble runtime.backendKind
  features : runtime.ensemble.featureCount = ensemble.featureCount

theorem ensures_onBackend {α : Type} {action : Effect RuntimeError Backend α}
    {post : α → XGBoostRuntime → Prop} {failed : RuntimeError → XGBoostRuntime → Prop} :
    Ensures (onBackend action) runtime post failed ↔
      Ensures action runtime.backend
        (fun value backend => post value { runtime with backend })
        fun error backend => failed error { runtime with backend } := by
  unfold Ensures onBackend
  rcases action runtime.backend with ⟨_ | _, _⟩ <;> rfl

theorem capacity_eq (h : Answers ensemble runtime) :
    runtime.capacity = runtime.backendKind.capacity ensemble.featureCount := by
  rw [← h.features]
  unfold capacity BackendKind.capacity
  cases runtime.backendKind <;> rfl

/-- A run changes nothing but the output buffer. -/
structure Kept (ensemble : Ensemble) (runtime after : XGBoostRuntime) : Prop where
  kind : after.backendKind = runtime.backendKind
  recorded : after.ensemble = runtime.ensemble
  backend : after.backend.Holds ensemble runtime.backendKind

/-- The batches answered so far. -/
structure Answered (math : Arithmetic) (ensemble : Ensemble) (runtime : XGBoostRuntime)
    (rows : List (List Word)) (predictions : List Predictions) (after : XGBoostRuntime) :
    Prop extends Kept ensemble runtime after where
  margins : ∃ margins, List.Forall₂ (FoldsFrom math ensemble ensemble.baseMargin) rows margins ∧
    concatenate predictions = predictionsOf math margins

/-- One batch. -/
theorem ensures_batch (hwidth : features.width = ensemble.featureCount)
    {index capacity : ℕ} {predictions : List Predictions} {after : XGBoostRuntime}
    (hanswered : Answered math ensemble runtime (features.rows.take (index * capacity)) predictions
      after) {answer : DeviceAnswer} {failed : RuntimeError → XGBoostRuntime → Prop}
    (hbackend : Ensures (Backend.run math (slice features (index * capacity) capacity) answer)
      after.backend (fun predictions backend => backend.Holds ensemble runtime.backendKind ∧
        ∃ margins, ensemble.predictMargin math.add (slice features (index * capacity) capacity) =
          .ok margins ∧ predictions = predictionsOf math margins)
      fun error backend => failed error { after with backend }) :
    Ensures (do
      let batch ← onBackend
        (Backend.run math (slice features (index * capacity) capacity) answer)
      pure (predictions ++ [batch])) after
      (Answered math ensemble runtime (features.rows.take ((index + 1) * capacity))) failed := by
  rw [ensures_bind, ensures_onBackend]
  refine hbackend.mono (fun batch backend hbatch => ?_) fun _ _ hfailed => hfailed
  obtain ⟨hholds, margins, hmargins, rfl⟩ := hbatch
  obtain ⟨before, hbefore, hconcatenate⟩ := hanswered.margins
  refine ⟨⟨hanswered.kind, hanswered.recorded, hholds⟩, before ++ margins, ?_, ?_⟩
  · rw [take_slice]
    have hslice : (slice features (index * capacity) capacity).width = ensemble.featureCount :=
      hwidth
    exact List.rel_append hbefore ((predictMargin_eq_ok_iff hslice).1 hmargins)
  · rw [concatenate_append, hconcatenate, predictionsOf_append]

/-- What a run does, from what its batches do. -/
theorem ensures_run_of_batches (h : Answers ensemble runtime) {answers : ℕ → DeviceAnswer}
    {failed : RuntimeError → XGBoostRuntime → Prop}
    (hcheck : ∀ error, checkFeatures features ensemble.featureCount = .error error →
      failed (.host error) runtime)
    (hcapacity : ∀ error, runtime.backendKind.capacity ensemble.featureCount = .error error →
      failed (.host error) runtime)
    (hbatches : ∀ index capacity predictions after, Accepts features ensemble.featureCount →
      runtime.backendKind.capacity ensemble.featureCount = .ok capacity →
      Answered math ensemble runtime (features.rows.take (index * capacity)) predictions after →
        Ensures (Backend.run math (slice features (index * capacity) capacity) (answers index))
          after.backend (fun predictions backend => backend.Holds ensemble runtime.backendKind ∧
            ∃ margins, ensemble.predictMargin math.add
              (slice features (index * capacity) capacity) = .ok margins ∧
                predictions = predictionsOf math margins)
          fun error backend => failed error { after with backend }) :
    Ensures (run math features answers) runtime (fun predictions after =>
      Kept ensemble runtime after ∧ ∃ margins,
        ensemble.predictMargin math.add features = .ok margins ∧
          predictions = predictionsOf math margins) failed := by
  simp only [run, ensures_bind, ensures_get, ensures_ofExcept, mapError_eq_ok_iff,
    mapError_eq_error_iff, ensures_ite, ensures_pure]
  rw [h.features]
  refine ⟨fun _ hok => ?_, ?_⟩
  · have haccepts := accepts_of_checkFeatures hok
    have hkept : Kept ensemble runtime runtime := ⟨rfl, rfl, h.backend⟩
    refine ⟨fun hzero => ⟨hkept, [], ?_, rfl⟩, fun hrows => ?_⟩
    · rw [predictMargin_eq_ok_iff haccepts.width, List.length_eq_zero_iff.1 hzero]
      exact .nil
    · rw [capacity_eq h]
      refine ⟨fun capacity hok => ?_, ?_⟩
      · have hpos := capacity_pos hok
        refine (ensures_foldlM (fun before predictions after => Answered math ensemble runtime
          (features.rows.take (before.length * capacity)) predictions after) ?_
          ⟨hkept, [], by simp, rfl⟩).mono ?_ fun _ _ hfailed => hfailed
        · intro before index rest hitems predictions after hanswered
          have hindex : index = before.length := by
            have hlt : before.length < (List.range
                ((features.rows.length + capacity - 1) / capacity)).length := by
              rw [hitems, List.length_append, List.length_cons]
              omega
            have hget := List.getElem_range (h := hlt)
            simp only [hitems] at hget
            simpa using hget
          subst hindex
          rw [List.length_append, List.length_singleton]
          exact ensures_batch haccepts.width hanswered
            (hbatches _ _ _ _ haccepts hok hanswered)
        · intro predictions after hanswered
          rw [List.length_range, List.take_of_length_le (le_batches hpos)] at hanswered
          obtain ⟨margins, hfolds, hconcatenate⟩ := hanswered.margins
          exact ⟨hanswered.toKept, margins, (predictMargin_eq_ok_iff haccepts.width).2 hfolds,
            hconcatenate⟩
      · rintro _ ⟨error, herror, rfl⟩
        exact hcapacity error herror
  · rintro _ ⟨error, herror, rfl⟩
    exact hcheck error herror

/-- A run returns the predictions of the model that the backend holds. -/
theorem ensures_run (math : Arithmetic) (features : FeatureMatrix)
    (h : Answers ensemble runtime) (answers : ℕ → DeviceAnswer) :
    Ensures (run math features answers) runtime (fun predictions after =>
      Kept ensemble runtime after ∧ ∃ margins,
        ensemble.predictMargin math.add features = .ok margins ∧
          predictions = predictionsOf math margins) fun _ => Kept ensemble runtime := by
  have hkept : Kept ensemble runtime runtime := ⟨rfl, rfl, h.backend⟩
  refine ensures_run_of_batches h (fun _ _ => hkept) (fun _ _ => hkept) ?_
  intro index capacity predictions after _ _ hanswered
  exact (ensures_backendRun math _ h.valid hanswered.backend (answers index)).mono (fun _ _ h => h)
    fun _ _ h => ⟨hanswered.kind, hanswered.recorded, h⟩

theorem mem_of_predictMargin_slice {start size : ℕ}
    (hwidth : features.width = ensemble.featureCount) {margins batch : List Word}
    (hmargins : ensemble.predictMargin math.add features = .ok margins)
    (hbatch : ensemble.predictMargin math.add (slice features start size) = .ok batch) :
    ∀ margin ∈ batch, margin ∈ margins := by
  have hall := (predictMargin_eq_ok_iff hwidth).1 hmargins
  have hcutWidth : (slice features start size).width = ensemble.featureCount := hwidth
  have hslice := (predictMargin_eq_ok_iff hcutWidth).1 hbatch
  have hcut := List.forall₂_take size (List.forall₂_drop start hall)
  obtain rfl := eq_of_forall₂ hslice hcut fun _ _ _ _ hb hc => Except.ok.inj (hb.symm.trans hc)
  exact fun margin hmem => List.mem_of_mem_drop (List.mem_of_mem_take hmem)

/-- A batch of any size, with finite margins, is answered by a device that completes. -/
theorem exists_run (laws : math.Lawful) (h : Answers ensemble runtime)
    {answers : ℕ → DeviceAnswer} (hanswers : ∀ index, ∃ scratch, answers index = .completes scratch)
    (hcapacity : ∃ capacity, runtime.backendKind.capacity ensemble.featureCount = .ok capacity)
    (haccepts : Accepts features ensemble.featureCount) {margins : List Word}
    (hmargins : ensemble.predictMargin math.add features = .ok margins)
    (hfinite : ∀ margin ∈ margins, Binary32.isFinite margin = true) :
    ∃ after, run math features answers runtime = (.ok (predictionsOf math margins), after) := by
  have hrun : Ensures (run math features answers) runtime (fun predictions after =>
      Kept ensemble runtime after ∧ ∃ margins,
        ensemble.predictMargin math.add features = .ok margins ∧
          predictions = predictionsOf math margins) fun _ _ => False := by
    refine ensures_run_of_batches h (fun error herror => ?_) (fun error herror => ?_) ?_
    · rw [checkFeatures_eq haccepts] at herror
      cases herror
    · obtain ⟨capacity, hok⟩ := hcapacity
      rw [hok] at herror
      cases herror
    · intro index capacity predictions after haccepts hok hanswered
      obtain ⟨scratch, hscratch⟩ := hanswers index
      obtain ⟨batch, hbatch⟩ := exists_predictMargin math h.valid
        (accepts_slice haccepts (index * capacity) capacity).width
      have hcompletes := ensures_backendRun_completes laws h.valid hanswered.backend
        (accepts_slice haccepts (index * capacity) capacity) hok (List.length_take_le _ _) hbatch
        (fun margin hmem => hfinite margin
          (mem_of_predictMargin_slice haccepts.width hmargins hbatch margin hmem)) scratch
      have hkeeps := ensures_backendRun math (slice features (index * capacity) capacity) h.valid
        hanswered.backend (.completes scratch)
      rw [hscratch]
      exact (hcompletes.and hkeeps).mono (fun _ _ h => h.2) fun _ _ h => h.1
  obtain ⟨predictions, after, hok, _, margins', hmargins', rfl⟩ := hrun.exists_returned
  obtain rfl := Except.ok.inj (hmargins.symm.trans hmargins')
  exact ⟨after, hok⟩

end Run

/-! ## Loads -/

/-- The model in force : it is recorded, and a backend of its kind holds it. -/
structure InForce (ensemble : Ensemble) (runtime : XGBoostRuntime) : Prop where
  valid : ensemble.Valid
  recorded : runtime.ensemble = ensemble
  kind : backendKindOf ensemble = .ok runtime.backendKind
  backend : runtime.backend.Holds ensemble runtime.backendKind

/-- A load exchanges the backend for one of the other kind, and the release of the old one
raises. -/
def MixesModels (runtime : XGBoostRuntime) (model : Loaded) (creation : Except String Tensor)
    (close : Except String Unit) : Prop :=
  ∃ ensemble kind replacement message, model = .ok ensemble ∧
    backendKindOf ensemble.1 = .ok kind ∧ kind ≠ runtime.backendKind ∧
    createBackend ensemble.1 kind creation = .ok replacement ∧ close = .error message

section Load

variable {ensemble : Ensemble} {runtime : XGBoostRuntime}

theorem InForce.answers (h : InForce ensemble runtime) : Answers ensemble runtime :=
  ⟨h.valid, h.backend, by rw [h.recorded]⟩

theorem InForce.kept {after : XGBoostRuntime} (h : InForce ensemble runtime)
    (hkept : Kept ensemble runtime after) : InForce ensemble after :=
  ⟨h.valid, hkept.recorded.trans h.recorded, by rw [hkept.kind, h.kind],
    by rw [hkept.kind]; exact hkept.backend⟩

theorem InForce.capacity (h : InForce ensemble runtime) :
    ∃ capacity, runtime.backendKind.capacity ensemble.featureCount = .ok capacity := by
  have hfeatures : 0 < ensemble.featureCount ∧ ensemble.featureCount ≤ maxFeatures := by
    have hbackend := h.backend
    cases hkind : runtime.backendKind <;> cases hcase : runtime.backend <;>
      rw [hkind, hcase] at hbackend
    · obtain ⟨rfl, hforest, _⟩ := hbackend
      obtain ⟨_, _, hholds⟩ := packRuntimeModel_eq_ok hforest
      exact ⟨hholds.features_pos, hholds.features_le⟩
    · exact hbackend.elim
    · exact hbackend.elim
    · obtain ⟨rfl, hforests, _⟩ := hbackend
      obtain ⟨first, second, hpartition, hfirst, _⟩ := packPartitions_eq_ok hforests
      obtain ⟨_, _, hholds⟩ := packRuntimeModel_eq_ok hfirst
      rw [← (isPartition_of_partitionEnsemble hpartition).first_features]
      exact ⟨hholds.features_pos, hholds.features_le⟩
  have hcheck := checkFeatureCount_eq hfeatures.1 hfeatures.2
  cases runtime.backendKind
  all_goals exact ⟨_, bind_eq_ok_iff.2 ⟨_, bind_eq_ok_iff.2 ⟨(), hcheck, rfl⟩, rfl⟩⟩

theorem holds_of_createBackend {kind : BackendKind} {creation : Except String Tensor}
    {backend : Backend} (h : createBackend ensemble kind creation = .ok backend) :
    backend.Holds ensemble kind := by
  cases kind
  · obtain ⟨forest, hforest, h⟩ := bind_eq_ok_iff.1 h
    obtain ⟨output, _, h⟩ := bind_eq_ok_iff.1 h
    obtain rfl := Except.ok.inj h
    exact ⟨rfl, mapError_eq_ok_iff.1 hforest, output.2⟩
  · obtain ⟨forests, hforests, h⟩ := bind_eq_ok_iff.1 h
    obtain ⟨output, _, h⟩ := bind_eq_ok_iff.1 h
    obtain rfl := Except.ok.inj h
    exact ⟨rfl, mapError_eq_ok_iff.1 hforests, output.2⟩

theorem holds_of_loadModel {kind : BackendKind} {loaded : Ensemble} {backend after : Backend}
    (hholds : backend.Holds ensemble kind) (h : backend.loadModel loaded = .ok after) :
    after.Holds loaded kind := by
  cases kind <;> cases backend
  · obtain ⟨forest, hforest, h⟩ := bind_eq_ok_iff.1 h
    obtain rfl := Except.ok.inj h
    exact ⟨rfl, hforest, hholds.2.2⟩
  · exact hholds.elim
  · exact hholds.elim
  · obtain ⟨forests, hforests, h⟩ := bind_eq_ok_iff.1 h
    obtain rfl := Except.ok.inj h
    exact ⟨rfl, hforests, hholds.2.2⟩

theorem inForce_of_create {loaded : { ensemble : Ensemble // ensemble.Valid }}
    {creation : Except String Tensor} (h : create (.ok loaded) creation = .ok runtime) :
    InForce loaded.1 runtime := by
  obtain ⟨loaded', hloaded, h⟩ := bind_eq_ok_iff.1 h
  obtain rfl : loaded = loaded' := Except.ok.inj hloaded
  obtain ⟨kind, hkind, h⟩ := bind_eq_ok_iff.1 h
  obtain ⟨backend, hbackend, h⟩ := bind_eq_ok_iff.1 h
  obtain rfl := Except.ok.inj h
  exact ⟨loaded.2, rfl, mapError_eq_ok_iff.1 hkind, holds_of_createBackend hbackend⟩

/-- A load puts its model in force if it returns. If it raises it keeps the old one, or it
has mixed the two. -/
theorem ensures_loadModel (h : InForce ensemble runtime) (model : Loaded)
    (creation : Except String Tensor) (close : Except String Unit) :
    Ensures (loadModel model creation close) runtime
      (fun _ after => ∃ loaded, model = .ok loaded ∧ InForce loaded.1 after)
      fun _ after => (MixesModels runtime model creation close ∧ ¬InForce ensemble after) ∨
        (¬MixesModels runtime model creation close ∧ InForce ensemble after) := by
  simp only [loadModel, ensures_bind, ensures_get, ensures_ofExcept, mapError_eq_ok_iff,
    ensures_ite, ensures_modify]
  refine ⟨fun loaded hloaded => ⟨fun kind hkind => ⟨fun hsame => ⟨fun backend hbackend => ?_,
    fun _ _ => ?_⟩, fun hother => ⟨fun replacement hreplacement => ⟨fun _ _ => ?_,
      fun _ hclose => ?_⟩, fun _ hcreate => ?_⟩⟩, fun _ hkind => ?_⟩, fun _ hmodel => ?_⟩
  · exact ⟨loaded, hloaded, loaded.2, rfl, hsame ▸ hkind, holds_of_loadModel h.backend hbackend⟩
  · refine .inr ⟨?_, h⟩
    rintro ⟨loaded', kind', _, _, hloaded', hkind', hother, _⟩
    obtain rfl := Except.ok.inj (hloaded.symm.trans hloaded')
    exact hother ((Except.ok.inj (hkind'.symm.trans hkind)).trans hsame)
  · exact ⟨loaded, hloaded, loaded.2, rfl, hkind, holds_of_createBackend hreplacement⟩
  · obtain ⟨message, hmessage, _⟩ := mapError_eq_error_iff.1 hclose
    refine .inl ⟨⟨loaded, kind, replacement, message, hloaded, hkind, hother, hreplacement,
      hmessage⟩, fun hinforce => hother ?_⟩
    exact Except.ok.inj (hinforce.kind.symm.trans h.kind)
  · refine .inr ⟨?_, h⟩
    rintro ⟨loaded', kind', replacement, _, hloaded', hkind', _, hreplacement, _⟩
    obtain rfl := Except.ok.inj (hloaded.symm.trans hloaded')
    obtain rfl := Except.ok.inj (hkind.symm.trans hkind')
    exact absurd (hcreate.symm.trans hreplacement) (by simp)
  · refine .inr ⟨?_, h⟩
    rintro ⟨loaded', kind', _, _, hloaded', hkind', _⟩
    obtain rfl := Except.ok.inj (hloaded.symm.trans hloaded')
    obtain ⟨_, herror, _⟩ := mapError_eq_error_iff.1 hkind
    exact absurd (herror.symm.trans hkind') (by simp)
  · refine .inr ⟨?_, h⟩
    rintro ⟨loaded', _, _, _, hloaded', _⟩
    obtain ⟨_, herror, _⟩ := mapError_eq_error_iff.1 hmodel
    exact absurd (herror.symm.trans hloaded') (by simp)

end Load

/-! ## Histories -/

/-- A runtime after some calls, with the model of the last constructor or load that
returned. No load of the history mixes two models. -/
inductive Reaches (math : Arithmetic) : Ensemble → XGBoostRuntime → Prop
  | create {loaded : { ensemble : Ensemble // ensemble.Valid }} {creation : Except String Tensor}
      {runtime : XGBoostRuntime} : create (.ok loaded) creation = .ok runtime →
      Reaches math loaded.1 runtime
  | loaded {ensemble : Ensemble} {runtime after : XGBoostRuntime}
      {loaded : { ensemble : Ensemble // ensemble.Valid }} {creation : Except String Tensor}
      {close : Except String Unit} : Reaches math ensemble runtime →
      loadModel (.ok loaded) creation close runtime = (.ok (), after) →
      Reaches math loaded.1 after
  | raised {ensemble : Ensemble} {runtime after : XGBoostRuntime} {model : Loaded}
      {creation : Except String Tensor} {close : Except String Unit} {error : RuntimeError} :
      Reaches math ensemble runtime → ¬MixesModels runtime model creation close →
      loadModel model creation close runtime = (.error error, after) →
      Reaches math ensemble after
  | ran {ensemble : Ensemble} {runtime : XGBoostRuntime} (features : FeatureMatrix)
      (answers : ℕ → DeviceAnswer) : Reaches math ensemble runtime →
      Reaches math ensemble (run math features answers runtime).2

theorem inForce_of_reaches {math : Arithmetic} {ensemble : Ensemble} {runtime : XGBoostRuntime}
    (h : Reaches math ensemble runtime) : InForce ensemble runtime := by
  induction h with
  | create hcreate => exact inForce_of_create hcreate
  | @loaded _ _ _ loaded creation close _ hload ih =>
    obtain ⟨loaded', hloaded, hinforce⟩ :=
      (ensures_loadModel ih (.ok loaded) creation close).returned hload
    obtain rfl : loaded = loaded' := Except.ok.inj hloaded
    exact hinforce
  | @raised _ _ _ model creation close _ _ hmixes hload ih =>
    rcases (ensures_loadModel ih model creation close).raised hload with h | h
    · exact absurd h.1 hmixes
    · exact h.2
  | ran features answers _ ih =>
    have hrun := ensures_run math features ih.answers answers
    exact (hrun.mono (fun _ _ h => ih.kept h.1) fun _ _ h => ih.kept h).always

/-- In every history without a mixing load, the model of the last constructor or load that
returned is in force : every run that returns has its predictions, and a batch of any size
with finite margins is answered if the device completes. A load that raises keeps it in
force unless it mixes two models. -/
theorem model_in_force {math : Arithmetic} {ensemble : Ensemble} {runtime : XGBoostRuntime}
    (h : Reaches math ensemble runtime) :
    InForce ensemble runtime ∧
    (∀ features answers predictions after,
      run math features answers runtime = (.ok predictions, after) →
      ∃ margins, ensemble.predictMargin math.add features = .ok margins ∧
        predictions = predictionsOf math margins) ∧
    (math.Lawful → ∀ features (answers : ℕ → DeviceAnswer) margins,
      Accepts features ensemble.featureCount →
      ensemble.predictMargin math.add features = .ok margins →
      (∀ margin ∈ margins, Binary32.isFinite margin = true) →
      (∀ index, ∃ scratch, answers index = .completes scratch) →
      ∃ after, run math features answers runtime = (.ok (predictionsOf math margins), after)) ∧
    (∀ model creation close error after,
      loadModel model creation close runtime = (.error error, after) →
      (InForce ensemble after ↔ ¬MixesModels runtime model creation close)) := by
  have hinforce := inForce_of_reaches h
  refine ⟨hinforce, fun features answers predictions after hrun => ?_,
    fun laws features answers margins haccepts hmargins hfinite hanswers => ?_,
    fun model creation close error after hload => ?_⟩
  · exact ((ensures_run math features hinforce.answers answers).returned hrun).2
  · exact exists_run laws hinforce.answers hanswers hinforce.capacity haccepts hmargins hfinite
  · rcases (ensures_loadModel hinforce model creation close).raised hload with h | h
    · exact ⟨fun hafter => absurd hafter h.2, fun hmixes => absurd h.1 hmixes⟩
    · exact ⟨fun _ => h.1, fun _ => h.2⟩

/-! ### A mixed state -/

/-- One leaf. -/
def leafEnsemble : Ensemble :=
  ⟨1, 0, [⟨[-1], [-1], [0], [Binary32.one], [false]⟩]⟩

/-- The packed model, or nothing. -/
def forestOf (ensemble : Ensemble) : List (List Word) :=
  (packRuntimeModel ensemble).toOption.getD []

/-- A runtime with one leaf. -/
def leafRuntime : XGBoostRuntime :=
  ⟨.single leafEnsemble (forestOf leafEnsemble) zeroTensor, .single, leafEnsemble⟩

/-- A runtime with a connected backend of 34 trees. -/
def largeRuntime (recorded : Ensemble) : XGBoostRuntime :=
  ⟨.connected (exampleEnsemble 34) (forestOf (exampleEnsemble 33)) (forestOf (exampleEnsemble 1))
    zeroTensor, .connected, recorded⟩

theorem isLogical_zeroTensor : IsLogical zeroTensor := by
  simp [IsLogical, zeroTensor]

theorem reaches_leafRuntime (math : Arithmetic) : Reaches math leafEnsemble leafRuntime := by
  have hcreate : create (.ok ⟨leafEnsemble, by decide⟩) (.ok ⟨zeroTensor, isLogical_zeroTensor⟩) =
      .ok leafRuntime := by decide +kernel
  exact Reaches.create hcreate

theorem valid_exampleEnsemble : (exampleEnsemble 34).Valid := by
  decide

theorem answers_largeRuntime {recorded : Ensemble} (h : recorded.featureCount = 1) :
    Answers (exampleEnsemble 34) (largeRuntime recorded) :=
  ⟨valid_exampleEnsemble, ⟨rfl, by decide +kernel, isLogical_zeroTensor⟩, h⟩

/-- After a bad file and a load of 34 trees, their predictions are returned. -/
theorem model_in_force_large : ∃ after, run zeroArithmetic exampleFeatures
    (fun _ => .completes ⟨zeroTensor, isLogical_zeroTensor⟩) (largeRuntime (exampleEnsemble 34)) =
      (.ok (predictionsOf zeroArithmetic [0, 0]), after) := by
  have hmixes : ¬MixesModels leafRuntime (.error (.value "bad model")) (.error "unused")
      (.ok ()) := by
    rintro ⟨_, _, _, _, hmodel, _⟩
    cases hmodel
  have hbad : Reaches zeroArithmetic leafEnsemble leafRuntime :=
    (reaches_leafRuntime zeroArithmetic).raised hmixes rfl
  have hload : loadModel (.ok ⟨exampleEnsemble 34, valid_exampleEnsemble⟩)
      (.ok ⟨zeroTensor, isLogical_zeroTensor⟩) (.ok ()) leafRuntime =
        (.ok (), largeRuntime (exampleEnsemble 34)) := by decide +kernel
  have hlarge : Reaches zeroArithmetic (exampleEnsemble 34) (largeRuntime (exampleEnsemble 34)) :=
    hbad.loaded hload
  exact (model_in_force hlarge).2.2.1 lawful_zeroArithmetic exampleFeatures _ [0, 0]
    accepts_exampleFeatures (by decide +kernel) isFinite_zeros fun _ => ⟨_, rfl⟩

/-- A load whose release of the old backend raises leaves the old model recorded, and runs
the new one. -/
theorem mixed_model_runs :
    Reaches zeroArithmetic leafEnsemble leafRuntime ∧
    loadModel (.ok ⟨exampleEnsemble 34, valid_exampleEnsemble⟩)
      (.ok ⟨zeroTensor, isLogical_zeroTensor⟩) (.error "close failed") leafRuntime =
        (.error (.device "close failed"), largeRuntime leafEnsemble) ∧
    leafEnsemble.predictMargin zeroArithmetic.add exampleFeatures =
      .ok [Binary32.one, Binary32.one] ∧
    ∃ after, run zeroArithmetic exampleFeatures
      (fun _ => .completes ⟨zeroTensor, isLogical_zeroTensor⟩) (largeRuntime leafEnsemble) =
        (.ok (predictionsOf zeroArithmetic [0, 0]), after) := by
  refine ⟨reaches_leafRuntime zeroArithmetic, by decide +kernel, by decide +kernel, ?_⟩
  exact exists_run lawful_zeroArithmetic (answers_largeRuntime rfl) (fun _ => ⟨_, rfl⟩)
    ⟨1360, rfl⟩ accepts_exampleFeatures (by decide +kernel) isFinite_zeros

end XGBoostRuntime

end Runtime

end Npunlock
