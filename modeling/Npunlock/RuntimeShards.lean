import Npunlock.RuntimeOutputs

/-!
# Shards of a batch

A batch is cut into shards of balanced sizes, one for each active replica, and the other
replicas repeat the first. A kernel that answers every shard answers the four replicas
(`runReplicas_fill`), and what the host reads from them is the batch in its own order
(`unpackPredictions_eq`, `validatePartial_eq`), whatever the number of active replicas.
-/

namespace Npunlock

namespace Runtime

/-! ## Sizes -/

theorem length_balancedSizes (n : ℕ) :
    (balancedSizes n).length = min replicas (max 1 n) := by
  rw [balancedSizes, List.length_map, List.length_range]

/-- The shards have all samples, and none more than its share. -/
theorem balancedSizes_spec (n : ℕ) :
    (balancedSizes n).sum = n ∧ ∀ size ∈ balancedSizes n, size ≤ (n + 3) / 4 := by
  rcases Nat.lt_or_ge n 4 with hlt | hge
  · have hsmall : ∀ m < 4, (balancedSizes m).sum = m ∧
        ∀ size ∈ balancedSizes m, size ≤ (m + 3) / 4 := by decide
    exact hsmall n hlt
  · have hactive : min replicas (max 1 n) = 4 := by
      have : replicas = 4 := rfl
      omega
    simp only [balancedSizes, hactive]
    have hrange : List.range 4 = [0, 1, 2, 3] := rfl
    simp only [hrange, List.map_cons, List.map_nil, List.sum_cons, List.sum_nil,
      List.forall_mem_cons]
    refine ⟨by split_ifs <;> omega, ?_, ?_, ?_, ?_, by simp⟩
    all_goals
      split_ifs <;> omega

theorem balancedSizes_le {n capacity : ℕ} (h : n ≤ replicas * capacity) :
    ∀ size ∈ balancedSizes n, size ≤ capacity := by
  intro size hsize
  have hshare := (balancedSizes_spec n).2 size hsize
  have hfour : replicas * capacity = 4 * capacity := rfl
  omega

theorem shardSizes_eq {n capacity : ℕ} (hpos : 0 < capacity) (h : n ≤ replicas * capacity) :
    shardSizes n capacity = .ok (balancedSizes n) := by
  unfold shardSizes
  rw [refuseIf_of_not _ hpos.ne', ok_bind, refuseIf_of_not _ (not_lt.2 h), ok_bind]
  dsimp only
  rw [refuseIf_of_not _ (by push Not; exact balancedSizes_le h), ok_bind]

/-! ## Cutting -/

section Cut

variable {α β : Type}

theorem flatten_cutRows : ∀ {sizes : List ℕ} {rows : List α}, sizes.sum = rows.length →
    (cutRows sizes rows).flatten = rows
  | [], rows, h => (List.length_eq_zero_iff.1 h.symm).symm
  | size :: sizes, rows, h => by
    rw [List.sum_cons] at h
    rw [cutRows, List.flatten_cons, flatten_cutRows (by rw [List.length_drop]; omega),
      List.take_append_drop]

theorem map_length_cutRows : ∀ {sizes : List ℕ} {rows : List α}, sizes.sum = rows.length →
    (cutRows sizes rows).map List.length = sizes
  | [], _, _ => rfl
  | size :: sizes, rows, h => by
    rw [List.sum_cons] at h
    rw [cutRows, List.map_cons, List.length_take, Nat.min_eq_left (by omega),
      map_length_cutRows (by rw [List.length_drop]; omega)]

theorem forall₂_cutRows {R : α → β → Prop} : ∀ {sizes : List ℕ} {rows : List α} {values : List β},
    List.Forall₂ R rows values →
      List.Forall₂ (List.Forall₂ R) (cutRows sizes rows) (cutRows sizes values)
  | [], _, _, _ => .nil
  | _ :: _, _, _, h => .cons (List.forall₂_take _ h) (forall₂_cutRows (List.forall₂_drop _ h))

theorem mem_of_mem_cutRows : ∀ {sizes : List ℕ} {rows shard : List α}, shard ∈ cutRows sizes rows →
    ∀ row ∈ shard, row ∈ rows
  | size :: sizes, rows, shard, h, row, hrow => by
    rcases List.mem_cons.1 h with rfl | h
    · exact List.mem_of_mem_take hrow
    · exact List.mem_of_mem_drop (mem_of_mem_cutRows h row hrow)

theorem cutRows_map (f : α → β) : ∀ {sizes : List ℕ} {rows : List α},
    cutRows sizes (rows.map f) = (cutRows sizes rows).map (List.map f)
  | [], _ => rfl
  | size :: sizes, rows => by
    rw [cutRows, cutRows, List.map_cons, ← List.map_take, ← List.map_drop, cutRows_map]

end Cut

/-! ## Replicas -/

section Replicas

variable {chunks outs : List (List Word)}

theorem length_fillReplicas (h : chunks.length ≤ replicas) :
    (fillReplicas chunks).length = replicas := by
  rw [fillReplicas, List.length_append, List.length_replicate]
  omega

theorem isLogical_fillReplicas (hpos : 0 < chunks.length) (hle : chunks.length ≤ replicas)
    (h : ∀ chunk ∈ chunks, chunk.length = chunkElements) : IsLogical (fillReplicas chunks) := by
  refine isLogical_of_forall (length_fillReplicas hle) fun chunk hmem => ?_
  rcases List.mem_append.1 hmem with hmem | hmem
  · exact h chunk hmem
  · rw [List.eq_of_mem_replicate hmem, List.getD_eq_getElem _ _ hpos]
    exact h _ (List.getElem_mem _)

theorem forall₂_fillReplicas {P : List Word → List Word → Prop} (hpos : 0 < chunks.length)
    (h : List.Forall₂ P chunks outs) :
    List.Forall₂ P (fillReplicas chunks) (fillReplicas outs) := by
  have hlength := h.length_eq
  unfold fillReplicas
  rw [← hlength]
  refine List.rel_append h ?_
  have hfirst : P (chunks.getD 0 []) (outs.getD 0 []) := by
    rw [List.getD_eq_getElem _ _ hpos, List.getD_eq_getElem _ _ (hlength ▸ hpos)]
    exact h.get hpos _
  induction replicas - chunks.length with
  | zero => exact .nil
  | succ n ih => exact .cons hfirst ih

theorem zip_append_of_length {α β : Type} {l r : List α} {m : List β} (h : l.length = m.length) :
    (l ++ r).zip m = l.zip m := by
  calc (l ++ r).zip m = (l ++ r).zip (m ++ []) := by rw [List.append_nil]
    _ = l.zip m ++ r.zip [] := List.zip_append h
    _ = l.zip m := by rw [List.zip_nil_right, List.append_nil]

theorem forall₂_zip_left {α β γ : Type} {P : α → γ → Prop} {Q : β → Prop} :
    ∀ {l : List α} {m : List β} {out : List γ}, List.Forall₂ P l out → m.length = l.length →
      (∀ b ∈ m, Q b) → List.Forall₂ (fun entry c => P entry.1 c ∧ Q entry.2) (l.zip m) out
  | _, m, _, .nil, _, _ => by
    rw [List.zip_nil_left]
    exact .nil
  | a :: l, [], _, .cons _ _, hlength, _ => by simp at hlength
  | a :: l, b :: m, _, .cons h hrest, hlength, hQ =>
    .cons ⟨h, hQ b List.mem_cons_self⟩ (forall₂_zip_left hrest (by simpa using hlength)
      fun other hother => hQ other (List.mem_cons_of_mem b hother))

/-- Each replica has its own chunk, the model and its own part of the output. -/
theorem forall₂_replicas {P : List Word → List Word → Prop} {model : List Word}
    {output : List (List Word)} (houtput : IsLogical output) (hpos : 0 < chunks.length)
    (hle : chunks.length ≤ replicas) (h : List.Forall₂ P chunks outs) :
    List.Forall₂ (fun entry out =>
      P entry.1 out ∧ entry.2.1 = model ∧ entry.2.2.length = chunkElements)
      ((fillReplicas chunks).zip ((List.replicate replicas model).zip output))
      (fillReplicas outs) := by
  refine forall₂_zip_left (Q := fun entry : List Word × List Word =>
    entry.1 = model ∧ entry.2.length = chunkElements) (forall₂_fillReplicas hpos h) ?_ ?_
  · rw [List.length_zip, List.length_replicate, houtput.length, length_fillReplicas hle,
      Nat.min_self]
  · rintro ⟨m, old⟩ hentry
    obtain ⟨hm, hold⟩ := List.of_mem_zip hentry
    exact ⟨List.eq_of_mem_replicate hm, houtput.chunk hold⟩

/-- The four replicas answer as their shards do. -/
theorem runReplicas_fill
    {act : List Word → List Word → List Word → Except KernelHalt (List Word)} {model : List Word}
    {output : List (List Word)} (houtput : IsLogical output) (hpos : 0 < chunks.length)
    (hle : chunks.length ≤ replicas)
    (h : List.Forall₂ (fun chunk out => ∀ old : List Word, old.length = chunkElements →
      act chunk model old = .ok out) chunks outs) :
    runReplicas act (fillReplicas chunks) (List.replicate replicas model) output =
      .ok (fillReplicas outs) := by
  refine mapM_eq_ok_iff.2 ((forall₂_replicas houtput hpos hle h).imp ?_)
  rintro ⟨chunk, m, old⟩ out ⟨hact, rfl, hold⟩
  exact hact old hold

theorem eq_of_forall₂ {α β : Type} {R S : α → β → Prop} : ∀ {l : List α} {bs cs : List β},
    List.Forall₂ R l bs → List.Forall₂ S l cs → (∀ b ∈ bs, ∀ a c, R a b → S a c → b = c) → bs = cs
  | _, _, _, .nil, .nil, _ => rfl
  | _, _, _, .cons hb hbs, .cons hc hcs, h => by
    rw [h _ List.mem_cons_self _ _ hb hc,
      eq_of_forall₂ hbs hcs fun b hmem => h b (List.mem_cons_of_mem _ hmem)]

/-- What the four replicas answer, if only the good answers of a shard are known. -/
theorem eq_fillReplicas_of_runReplicas
    {act : List Word → List Word → List Word → Except KernelHalt (List Word)} {model : List Word}
    {output after : List (List Word)} {Good : List Word → Prop} (houtput : IsLogical output)
    (hpos : 0 < chunks.length) (hle : chunks.length ≤ replicas)
    (h : List.Forall₂ (fun chunk out => ∀ old new : List Word, old.length = chunkElements →
      act chunk model old = .ok new → Good new → new = out) chunks outs)
    (hrun : runReplicas act (fillReplicas chunks) (List.replicate replicas model) output =
      .ok after) (hgood : ∀ new ∈ after, Good new) : after = fillReplicas outs := by
  refine eq_of_forall₂ (mapM_eq_ok_iff.1 hrun) (forall₂_replicas houtput hpos hle h) ?_
  rintro new hnew ⟨chunk, m, old⟩ out hact ⟨hout, rfl, hold⟩
  exact hout old new hold hact (hgood new hnew)

end Replicas

/-! ## Packing -/

theorem mapM_eq_ok_map {ε α β : Type} {f : α → Except ε β} {g : α → β} {l : List α}
    (h : ∀ a ∈ l, f a = .ok (g a)) : l.mapM f = .ok (l.map g) := by
  rw [mapM_eq_ok_iff, List.forall₂_map_right_iff, List.forall₂_same]
  exact h

section Packing

variable {featureCount capacity : ℕ} {rows : List (List Word)}

/-- The shards of two related lists are related, and are those of the first list. -/
theorem forall₂_shards {α β : Type} {R : α → β → Prop} {entries : List α} {values : List β}
    (h : List.Forall₂ R entries values) :
    List.Forall₂ (fun shard values =>
      shard ∈ cutRows (balancedSizes entries.length) entries ∧ List.Forall₂ R shard values)
      (cutRows (balancedSizes entries.length) entries)
      (cutRows (balancedSizes values.length) values) := by
  rw [← h.length_eq]
  exact (List.forall₂_and_left _ _).2 ⟨fun _ h => h, forall₂_cutRows h⟩

theorem length_le_of_mem_cutRows {α : Type} {entries shard : List α}
    (hbatch : entries.length ≤ replicas * capacity)
    (hshard : shard ∈ cutRows (balancedSizes entries.length) entries) :
    shard.length ≤ capacity := by
  refine balancedSizes_le hbatch _ ?_
  rw [← map_length_cutRows (balancedSizes_spec entries.length).1]
  exact List.mem_map_of_mem hshard

theorem length_cutRows {α : Type} (entries : List α) :
    (cutRows (balancedSizes entries.length) entries).length =
      (balancedSizes entries.length).length := by
  rw [← List.length_map (f := List.length), map_length_cutRows (balancedSizes_spec _).1]

theorem cutRows_bounds {α : Type} (entries : List α) :
    0 < (cutRows (balancedSizes entries.length) entries).length ∧
      (cutRows (balancedSizes entries.length) entries).length ≤ replicas := by
  have hfour : replicas = 4 := rfl
  rw [length_cutRows, length_balancedSizes]
  omega

theorem packFeatureShards_eq (hpos : 0 < capacity) (hbatch : rows.length ≤ replicas * capacity)
    (hrows : ∀ row ∈ rows, row.length = featureCount)
    (hfits : capacity * featureCount ≤ chunkElements - featureHeader) (a b : ℕ) :
    packFeatureShards rows featureCount capacity [a, b] =
      .ok (fillReplicas ((cutRows (balancedSizes rows.length) rows).map fun shard =>
        featuresChunk featureCount [a, b] shard [])) := by
  have hshards : (cutRows (balancedSizes rows.length) rows).mapM (shardChunk featureCount [a, b]) =
      .ok ((cutRows (balancedSizes rows.length) rows).map fun shard =>
        featuresChunk featureCount [a, b] shard []) := by
    refine mapM_eq_ok_map fun shard hshard => ?_
    have hwords := length_featuresWords
      (fun row hrow => hrows row (mem_of_mem_cutRows hshard row hrow)) a b []
    have hle := (Nat.mul_le_mul_right featureCount (length_le_of_mem_cutRows hbatch hshard)).trans
      hfits
    have hheader : featureHeader + (chunkElements - featureHeader) = chunkElements := rfl
    rw [List.append_nil, List.length_nil] at hwords
    rw [featuresChunk, List.append_nil]
    exact chunkOf_padded (by omega)
  unfold packFeatureShards
  rw [shardSizes_eq hpos hbatch, ok_bind, hshards, ok_bind]

end Packing

/-! ## Reading -/

section Reading

variable {math : Arithmetic} {featureCount treeCount capacity : ℕ} {margins : List Word}

theorem decodeInt_ofNat {n : ℕ} (h : n < 2 ^ 24) : decodeInt (Binary32.ofNat n) = .ok (n : ℤ) := by
  rw [decodeInt, Binary32.toInt?_ofNat h]

theorem checkHeader_eq {what : String} {size : ℕ} {rest : List Word} (hsize : size < 2 ^ 24)
    (hfeatures : featureCount < 2 ^ 24) (htrees : treeCount < 2 ^ 24) :
    checkHeader what (padded ([size, featureCount, outputWords, treeCount].map Binary32.ofNat ++
      rest)) size featureCount treeCount = .ok () := by
  have hheader : decodeHeader (padded ([size, featureCount, outputWords, treeCount].map
      Binary32.ofNat ++ rest)) = .ok [(size : ℤ), featureCount, outputWords, treeCount] := by
    change [Binary32.ofNat size, Binary32.ofNat featureCount, Binary32.ofNat outputWords,
      Binary32.ofNat treeCount].mapM decodeInt = _
    simp only [List.mapM_cons, List.mapM_nil, decodeInt_ofNat hsize, decodeInt_ofNat hfeatures,
      decodeInt_ofNat (show outputWords < 2 ^ 24 by decide), decodeInt_ofNat htrees, ok_bind]
    rfl
  unfold checkHeader
  rw [hheader, ok_bind]
  exact refuseIf_of_not _ (by simp)

/-- The records that were written are cut again. -/
theorem recordsOf_flatMap {record : Word → List Word}
    (hlength : ∀ margin, (record margin).length = outputWords) (rest : List Word) :
    ∀ margins : List Word,
      recordsOf margins.length (margins.flatMap record ++ rest) = margins.map record
  | [] => rfl
  | margin :: margins => by
    have hfirst := hlength margin
    rw [List.length_cons, recordsOf, List.flatMap_cons, List.append_assoc, List.map_cons,
      List.take_left' hfirst, List.drop_left' hfirst]
    exact congrArg _ (recordsOf_flatMap hlength rest margins)

theorem length_recordOf (math : Arithmetic) (margin : Word) :
    (recordOf math margin).length = outputWords :=
  rfl

theorem drop_padded {header rest : List Word} (h : header.length = featureHeader) :
    (padded (header ++ rest)).drop featureHeader =
      rest ++ List.replicate (chunkElements - (header ++ rest).length) 0 := by
  rw [padded, List.append_assoc, ← h, List.drop_left]

theorem chunkRecords_eq {size : ℕ} (hsize : size = margins.length) (hsmall : size < 2 ^ 24)
    (hfeatures : featureCount < 2 ^ 24) (htrees : treeCount < 2 ^ 24) :
    chunkRecords featureCount treeCount (recordsChunk math featureCount treeCount margins, size) =
      .ok (margins.map (recordOf math)) := by
  subst hsize
  unfold chunkRecords recordsChunk
  rw [checkHeader_eq hsmall hfeatures htrees, ok_bind, drop_padded rfl,
    recordsOf_flatMap (length_recordOf math)]

theorem partialMargins_eq {size : ℕ} (hsize : size = margins.length) (hsmall : size < 2 ^ 24)
    (hfeatures : featureCount < 2 ^ 24) (htrees : treeCount < 2 ^ 24)
    (hfinite : ∀ margin ∈ margins, Binary32.isFinite margin = true) :
    partialMargins featureCount treeCount (recordsChunk math featureCount treeCount margins, size) =
      .ok margins := by
  subst hsize
  have hmargins : (margins.map (recordOf math)).map (fun record => record.getD 0 0) = margins := by
    rw [List.map_map]
    exact List.map_id margins
  unfold partialMargins recordsChunk
  rw [checkHeader_eq hsmall hfeatures htrees, ok_bind, drop_padded rfl,
    recordsOf_flatMap (length_recordOf math), hmargins]
  dsimp only
  rw [refuseIf_of_not _ (by push Not; exact hfinite), ok_bind]

/-- The outputs of the four replicas. -/
def recordsOutput (math : Arithmetic) (featureCount treeCount : ℕ) (margins : List Word) :
    List (List Word) :=
  fillReplicas ((cutRows (balancedSizes margins.length) margins).map
    (recordsChunk math featureCount treeCount))

/-- What the host returns for a batch. -/
def predictionsOf (math : Arithmetic) (margins : List Word) : Predictions where
  margins := margins
  probabilities := margins.map (sigmoid math)
  classes := margins.map fun margin =>
    if Binary32.le Binary32.half (sigmoid math margin) then 1 else 0

variable (hpos : 0 < capacity) (hbatch : margins.length ≤ replicas * capacity)
  (hrecords : capacity * outputWords ≤ chunkElements - featureHeader)
  (hfeatures : featureCount < 2 ^ 24) (htrees : treeCount < 2 ^ 24)

include hbatch hrecords in
theorem isLogical_recordsOutput (math : Arithmetic) (featureCount treeCount : ℕ) :
    IsLogical (recordsOutput math featureCount treeCount margins) := by
  obtain ⟨hcut, hcut'⟩ := cutRows_bounds margins
  have hheader : featureHeader + (chunkElements - featureHeader) = chunkElements := rfl
  refine isLogical_fillReplicas (by rwa [List.length_map]) (by rwa [List.length_map])
    fun chunk hmem => ?_
  obtain ⟨shard, hshard, rfl⟩ := List.mem_map.1 hmem
  have hle := (Nat.mul_le_mul_right outputWords (length_le_of_mem_cutRows hbatch hshard)).trans
    hrecords
  refine length_padded ?_
  rw [List.length_append, length_flatMap_recordOf]
  exact (Nat.add_le_add_left hle _).trans hheader.le

/-- What the host reads from the active replicas, chunk by chunk. -/
theorem mapM_recordsOutput {β : Type} (math : Arithmetic) (featureCount treeCount : ℕ)
    (margins : List Word) (read : List Word × ℕ → Except ModelError β) (result : List Word → β)
    (h : ∀ shard ∈ cutRows (balancedSizes margins.length) margins,
      read (recordsChunk math featureCount treeCount shard, shard.length) = .ok (result shard)) :
    ((recordsOutput math featureCount treeCount margins).zip (balancedSizes margins.length)).mapM
      read = .ok ((cutRows (balancedSizes margins.length) margins).map result) := by
  have hsizes := map_length_cutRows (balancedSizes_spec margins.length).1
  have hzip : (recordsOutput math featureCount treeCount margins).zip
      (balancedSizes margins.length) = (cutRows (balancedSizes margins.length) margins).map
        fun shard => (recordsChunk math featureCount treeCount shard, shard.length) := by
    rw [recordsOutput, fillReplicas, zip_append_of_length (by rw [List.length_map, length_cutRows])]
    nth_rewrite 2 [← hsizes]
    exact List.zip_map' ..
  rw [hzip, mapM_eq_ok_iff, List.forall₂_map_left_iff, List.forall₂_map_right_iff,
    List.forall₂_same]
  exact h

/-- The inactive replicas repeat the first. -/
theorem drop_recordsOutput : ∀ chunk ∈ (recordsOutput math featureCount treeCount margins).drop
    (balancedSizes margins.length).length,
      chunk = (recordsOutput math featureCount treeCount margins).getD 0 [] := by
  intro chunk hmem
  have hlength := length_cutRows margins
  obtain ⟨hcut, _⟩ := cutRows_bounds margins
  rw [recordsOutput, fillReplicas, List.drop_append_of_le_length (by
    rw [List.length_map, hlength]), List.drop_eq_nil_of_le (by rw [List.length_map, hlength]),
    List.nil_append] at hmem
  rw [List.eq_of_mem_replicate hmem, recordsOutput, fillReplicas, List.getD_append _ _ _ _
    (by rwa [List.length_map])]

theorem checkSize_eq {what : String} {output : List (List Word)} (h : IsLogical output) :
    checkSize what output = .ok () :=
  refuseIf_of_not _ (not_not.2 h)

theorem classOf_recordOf (margin : Word) : classOf (recordOf math margin) =
    some (if Binary32.le Binary32.half (sigmoid math margin) then 1 else 0) := by
  unfold classOf recordOf
  cases Binary32.le Binary32.half (sigmoid math margin)
  · exact show Binary32.toInt? 0 = some 0 by decide
  · exact show Binary32.toInt? Binary32.one = some 1 by decide

include hpos hbatch hrecords hfeatures htrees

omit hpos in
/-- The records that the host reads, in the order of the batch. -/
theorem records_of_recordsOutput (math : Arithmetic) :
    ∃ shards, ((recordsOutput math featureCount treeCount margins).zip
      (balancedSizes margins.length)).mapM (chunkRecords featureCount treeCount) = .ok shards ∧
        shards.flatten = margins.map (recordOf math) := by
  have hsmall : capacity < 2 ^ 24 := by
    have : chunkElements - featureHeader < 2 ^ 24 := by decide
    have : capacity ≤ capacity * outputWords := Nat.le_mul_of_pos_right _ (by decide)
    omega
  have hread := mapM_recordsOutput math featureCount treeCount margins
    (chunkRecords featureCount treeCount) (List.map (recordOf math))
    fun shard hshard => chunkRecords_eq rfl
      ((length_le_of_mem_cutRows hbatch hshard).trans_lt hsmall) hfeatures htrees
  refine ⟨_, hread, ?_⟩
  rw [← List.map_flatten, flatten_cutRows (balancedSizes_spec _).1]

omit hpos hbatch hrecords hfeatures htrees in
theorem predictionsOf_records :
    ({ margins := (margins.map (recordOf math)).map fun record => record.getD 0 0
       probabilities := (margins.map (recordOf math)).map fun record => record.getD 1 0
       classes := (margins.map (recordOf math)).map fun record => (classOf record).getD 0 } :
        Predictions) = predictionsOf math margins := by
  simp only [predictionsOf, List.map_map, Predictions.mk.injEq]
  refine ⟨List.map_id margins, rfl, List.map_congr_left fun margin _ => ?_⟩
  exact congrArg (Option.getD · 0) (classOf_recordOf margin)

/-- What the host reads, if it reads the records at all. -/
theorem predictions_of_unpack {predictions : Predictions}
    (h : unpackPredictions (recordsOutput math featureCount treeCount margins) margins.length
      featureCount treeCount capacity = .ok predictions) :
    predictions = predictionsOf math margins := by
  obtain ⟨shards, hread, hflatten⟩ := records_of_recordsOutput hbatch hrecords hfeatures
    htrees math
  unfold unpackPredictions at h
  obtain ⟨_, _, h⟩ := bind_eq_ok_iff.1 h
  rw [shardSizes_eq hpos hbatch, ok_bind, hread, ok_bind] at h
  obtain ⟨_, h⟩ := refuseIf_bind_eq_ok_iff.1 h
  obtain ⟨_, h⟩ := refuseIf_bind_eq_ok_iff.1 h
  obtain ⟨_, h⟩ := refuseIf_bind_eq_ok_iff.1 h
  obtain ⟨_, h⟩ := refuseIf_bind_eq_ok_iff.1 h
  rw [hflatten] at h
  exact (Except.ok.inj h).symm.trans predictionsOf_records

/-- The host reads the margins of the batch, in its order. -/
theorem unpackPredictions_eq (hfinite : ∀ margin ∈ margins, Binary32.isFinite margin = true)
    (hsigmoid : ∀ margin ∈ margins, Binary32.isFinite (sigmoid math margin) = true ∧
      Binary32.lt (sigmoid math margin) 0 = false ∧
      Binary32.lt Binary32.one (sigmoid math margin) = false) :
    unpackPredictions (recordsOutput math featureCount treeCount margins) margins.length
      featureCount treeCount capacity = .ok (predictionsOf math margins) := by
  have hlogical := isLogical_recordsOutput hbatch hrecords math featureCount treeCount
  obtain ⟨shards, hread, hflatten⟩ := records_of_recordsOutput hbatch hrecords hfeatures
    htrees math
  unfold unpackPredictions
  rw [checkSize_eq hlogical, ok_bind, shardSizes_eq hpos hbatch, ok_bind, hread,
    ok_bind, refuseIf_of_not _ (by push Not; exact drop_recordsOutput), ok_bind, hflatten]
  dsimp only
  rw [refuseIf_of_not, ok_bind, refuseIf_of_not, ok_bind, refuseIf_of_not, ok_bind,
    predictionsOf_records]
  · rintro ⟨record, hrecord, hclass⟩
    obtain ⟨margin, _, rfl⟩ := List.mem_map.1 hrecord
    rw [classOf_recordOf] at hclass
    split_ifs at hclass <;> simp at hclass
  · rintro ⟨record, hrecord, hrange⟩
    obtain ⟨margin, hmargin, rfl⟩ := List.mem_map.1 hrecord
    obtain ⟨_, hlow, hhigh⟩ := hsigmoid margin hmargin
    simp [recordOf, hlow, hhigh] at hrange
  · rintro ⟨record, hrecord, value, hvalue, hinfinite⟩
    obtain ⟨margin, hmargin, rfl⟩ := List.mem_map.1 hrecord
    obtain ⟨hprobability, _⟩ := hsigmoid margin hmargin
    have hcases : value = margin ∨ value = sigmoid math margin := by
      simpa [recordOf] using hvalue
    rcases hcases with rfl | rfl
    · exact hinfinite (hfinite _ hmargin)
    · exact hinfinite hprobability

/-- The host reads the margins of a first stage, shard by shard. -/
theorem validatePartial_eq (math : Arithmetic)
    (hfinite : ∀ margin ∈ margins, Binary32.isFinite margin = true) :
    validatePartial (recordsOutput math featureCount treeCount margins) margins.length
      featureCount treeCount capacity =
        .ok (cutRows (balancedSizes margins.length) margins) := by
  have hlogical := isLogical_recordsOutput hbatch hrecords math featureCount treeCount
  have hsmall : capacity < 2 ^ 24 := by
    have : chunkElements - featureHeader < 2 ^ 24 := by decide
    have : capacity ≤ capacity * outputWords := Nat.le_mul_of_pos_right _ (by decide)
    omega
  have hread := mapM_recordsOutput math featureCount treeCount margins
    (partialMargins featureCount treeCount) id fun shard hshard => partialMargins_eq rfl
      ((length_le_of_mem_cutRows hbatch hshard).trans_lt hsmall) hfeatures htrees
      fun margin hmargin => hfinite margin (mem_of_mem_cutRows hshard margin hmargin)
  rw [List.map_id] at hread
  unfold validatePartial
  rw [checkSize_eq hlogical, ok_bind, shardSizes_eq hpos hbatch, ok_bind, hread,
    ok_bind, refuseIf_of_not _ (by push Not; exact drop_recordsOutput), ok_bind]

end Reading

end Runtime

end Npunlock
