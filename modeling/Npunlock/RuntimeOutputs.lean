import Npunlock.PaddedBuffer
import Npunlock.RuntimeModel

/-!
# Outputs of the runtime kernels

The exact output chunks of the kernels on packed chunks. A chunk that begins with some
words and is zero behind them is `padded`; every write of a kernel, after its output is
cleared, appends to the words of such a chunk (`writeWords_padded`), and so does the loop
over the samples (`sampleLoop_eq`). The first stage of a connected run leaves the chunk
that the second stage reads, and the second stage leaves the chunk that a single stage
with all trees would leave.
-/

namespace Npunlock

namespace Runtime

/-! ## Padded chunks -/

/-- The words, and zeros behind them. -/
def padded (words : List Word) : List Word :=
  words ++ List.replicate (chunkElements - words.length) 0

theorem length_padded {words : List Word} (h : words.length ≤ chunkElements) :
    (padded words).length = chunkElements :=
  length_paddedTo h

theorem getElem?_padded {words : List Word} {i : ℕ} (h : i < words.length) :
    (padded words)[i]? = words[i]? :=
  getElem?_paddedTo h

theorem chunkOf_padded {words : List Word} (h : words.length ≤ chunkElements) :
    chunkOf words = .ok (padded words) := by
  unfold chunkOf
  rw [refuseIf_of_not _ (by omega), ok_bind]
  rfl

theorem writeWord_padded {words : List Word} (h : words.length < chunkElements) (word : Word) :
    writeWord (padded words) words.length word = .ok (padded (words ++ [word])) :=
  writeWord_paddedTo h word

theorem writeWords_padded (new words : List Word) (h : words.length + new.length ≤ chunkElements) :
    writeWords (padded words) words.length new = .ok (padded (words ++ new)) :=
  writeWords_paddedTo new words h

theorem clear_eq {output : List Word} (h : output.length = chunkElements) :
    clear output = .ok (padded []) :=
  clearWords_eq h

/-- The common beginning of the kernels : the output is cleared and its header written. -/
theorem clear_header {output : List Word} (h : output.length = chunkElements) (a b c d : Word)
    (next : List Word → Except KernelHalt (List Word)) :
    (do
      let output ← clear output
      let output ← writeWords output 0 [a, b, c, d]
      next output) = next (padded [a, b, c, d]) := by
  have hheader : writeWords (padded []) 0 [a, b, c, d] = .ok (padded [a, b, c, d]) :=
    writeWords_padded [a, b, c, d] [] (show 0 + 4 ≤ chunkElements by decide)
  rw [clear_eq h, ok_bind, hheader, ok_bind]

/-! ## Samples -/

/-- The loop over the samples appends what each sample emits. -/
theorem sampleLoop_eq (margin : ℕ → Except KernelHalt Word)
    (emit : ℕ → Word → List Word → Except KernelHalt (List Word)) (record : Word → List Word)
    (start width sampleCount : ℕ) (hwidth : ∀ value, (record value).length = width)
    (hemit : ∀ sample < sampleCount, ∀ value output,
      emit sample value output = writeWords output (start + sample * width) (record value))
    (hinside : start + sampleCount * width ≤ chunkElements) :
    ∀ (margins : List Word) (sample : ℕ) (words : List Word),
      sample + margins.length = sampleCount → words.length = start + sample * width →
      (∀ i (hi : i < margins.length), margin (sample + i) = .ok margins[i]) →
      sampleLoop margin emit margins.length sample (padded words) =
        .ok (padded (words ++ margins.flatMap record))
  | [], _, words, _, _, _ => by
    rw [List.flatMap_nil, List.append_nil]
    rfl
  | value :: margins, sample, words, hsum, hwords, hmargin => by
    rw [List.length_cons] at hsum
    have hfirst : margin sample = .ok value := hmargin 0 (Nat.succ_pos _)
    have hle : (sample + 1) * width ≤ sampleCount * width := Nat.mul_le_mul_right _ (by omega)
    rw [Nat.succ_mul] at hle
    have hwrite := writeWords_padded (record value) words (by rw [hwidth, hwords]; omega)
    have hrest := sampleLoop_eq margin emit record start width sampleCount hwidth hemit hinside
      margins (sample + 1) (words ++ record value)
      (by omega) (by rw [List.length_append, hwidth, hwords, Nat.succ_mul]; omega) fun i hi => by
        rw [Nat.add_right_comm, Nat.add_assoc]
        exact hmargin (i + 1) (Nat.succ_lt_succ hi)
    rw [List.append_assoc] at hrest
    rw [List.length_cons, sampleLoop, hfirst, List.flatMap_cons]
    change emit sample value (padded words) >>= _ = _
    rw [hemit sample (by omega), ← hwords, hwrite, ok_bind]
    exact hrest

/-- The record of a margin. -/
def recordOf (math : Arithmetic) (margin : Word) : List Word :=
  [margin, sigmoid math margin,
    if Binary32.le Binary32.half (sigmoid math margin) then Binary32.one else 0]

/-- The output of a stage that writes records. -/
def recordsChunk (math : Arithmetic) (featureCount treeCount : ℕ) (margins : List Word) :
    List Word :=
  padded ([margins.length, featureCount, outputWords, treeCount].map Binary32.ofNat ++
    margins.flatMap (recordOf math))

/-- The chunk of a shard, and the same with the margins of a first stage. -/
def featuresChunk (featureCount : ℕ) (tail : List ℕ) (rows : List (List Word))
    (margins : List Word) : List Word :=
  padded ((rows.length :: featureCount :: tail).map Binary32.ofNat ++ rows.flatten ++ margins)

theorem length_flatMap_recordOf (math : Arithmetic) (margins : List Word) :
    (margins.flatMap (recordOf math)).length = margins.length * outputWords := by
  rw [List.length_flatMap]
  change (margins.map fun _ => outputWords).sum = _
  rw [List.map_const', List.sum_replicate_nat]

theorem flatMap_singleton_self (margins : List Word) :
    margins.flatMap (fun m => [m]) = margins := by
  induction margins with
  | nil => rfl
  | cons m margins ih => rw [List.flatMap_cons, ih]; rfl

/-! ## Chunks of features -/

section Features

variable {featureCount : ℕ} {a b : ℕ} {rows : List (List Word)} {margins : List Word}

theorem getElem?_featuresChunk {i : ℕ} (hi : i < 4) :
    (featuresChunk featureCount [a, b] rows margins)[i]? =
      ([rows.length, featureCount, a, b].map Binary32.ofNat)[i]? := by
  rw [featuresChunk, getElem?_padded (by simp; omega), List.append_assoc,
    List.getElem?_append_left (by simpa using hi)]

variable (hrows : ∀ row ∈ rows, row.length = featureCount)

include hrows

theorem length_featuresWords (a b : ℕ) (margins : List Word) :
    ([rows.length, featureCount, a, b].map Binary32.ofNat ++ rows.flatten ++ margins).length =
      featureHeader + rows.length * featureCount + margins.length := by
  rw [List.length_append, List.length_append, length_flatten_rows hrows]
  rfl

theorem holdsRow_featuresChunk {sample : ℕ} (hsample : sample < rows.length) :
    HoldsRow (featuresChunk featureCount [a, b] rows margins) sample featureCount
      rows[sample] := by
  intro feature hfeature
  have hrow := hrows _ (List.getElem_mem hsample)
  have hlength := length_featuresWords hrows a b margins
  have hle : (sample + 1) * featureCount ≤ rows.length * featureCount :=
    Nat.mul_le_mul_right _ hsample
  rw [Nat.succ_mul] at hle
  have hheader : featureHeader = 4 := rfl
  rw [featuresChunk, getElem?_padded (by omega), List.append_assoc,
    List.getElem?_append_right (by simp [hheader]; omega)]
  have hentry := getElem?_flatten_rows margins hrows hsample hfeature
  rw [List.length_map, show featureHeader + sample * featureCount + feature -
    [rows.length, featureCount, a, b].length = sample * featureCount + feature by
      simp [hheader]; omega, hentry, List.getD_eq_getElem?_getD,
    List.getElem?_eq_getElem (by omega)]
  rfl

theorem getElem?_featuresChunk_margin {i : ℕ} (hi : i < margins.length) :
    (featuresChunk featureCount [a, b] rows margins)[featureHeader +
      rows.length * featureCount + i]? = some margins[i] := by
  have hlength := length_featuresWords hrows a b margins
  have hlength' := length_featuresWords hrows a b []
  rw [List.append_nil, List.length_nil, Nat.add_zero] at hlength'
  rw [featuresChunk, getElem?_padded (by omega), List.getElem?_append_right (by omega), hlength',
    Nat.add_sub_cancel_left, List.getElem?_eq_getElem hi]

end Features

/-! ## The single stage -/

section Acts

variable {math : Arithmetic} {model output : List Word} {rows : List (List Word)}
  {margins : List Word} {ensemble : Ensemble} {a b : ℕ}

/-- The margins of the rows of a chunk. -/
def FoldsFrom (math : Arithmetic) (ensemble : Ensemble) (start : Word) (row : List Word)
    (margin : Word) : Prop :=
  ensemble.trees.foldlM (fun margin tree => do
    let value ← tree.predictOne row
    .ok (math.add margin value)) start = .ok margin

theorem le_div_of_mul_le {n w c : ℕ} (hw : 0 < w) (h : n * w ≤ c) : ¬c / w < n :=
  not_lt.2 ((Nat.le_div_iff_mul_le hw).2 h)

variable (h : HoldsModel model ensemble)
  (hsound : ∀ tree ∈ ensemble.trees, tree.Sound ensemble.featureCount)
  (hrows : ∀ row ∈ rows, row.length = ensemble.featureCount)
  (hvalues : rows.length * ensemble.featureCount ≤ chunkElements - featureHeader)

include h hsound hrows hvalues

/-- A sample of a chunk of features is folded as the host folds its row. -/
theorem margin_of_holds {sample : ℕ} (hsample : sample < rows.length) {margin' : Word}
    (hfold : FoldsFrom math ensemble ensemble.baseMargin rows[sample] margin') {carried : List Word}
    (hfits : (featuresChunk ensemble.featureCount [a, b] rows carried).length = chunkElements) :
    margin math (featuresChunk ensemble.featureCount [a, b] rows carried) model sample
      ensemble.featureCount ensemble.trees.length ensemble.nodeCount = .ok margin' := by
  unfold margin
  rw [readWord_of_getElem? h.base, ok_bind]
  exact addTrees_of_holds h hsound hfits ((Nat.mul_le_mul_right _ hsample).trans hvalues)
    (holdsRow_featuresChunk hrows hsample) hfold

omit hrows in
theorem runtimeHeader_of_holds
    (hrecords : rows.length * outputWords ≤ chunkElements - featureHeader)
    (carried : List Word) :
    runtimeHeader (featuresChunk ensemble.featureCount [a, b] rows carried) model =
      .ok ⟨rows.length, ensemble.featureCount, ensemble.trees.length, ensemble.nodeCount⟩ := by
  have hcount : rows.length ≤ chunkElements - featureHeader := by
    exact (Nat.le_mul_of_pos_right _ (by decide)).trans hrecords
  unfold runtimeHeader
  rw [readWord_of_getElem? (getElem?_featuresChunk (by omega)), ok_bind,
    countOf_ofNat (by decide) (by rwa [Nat.div_one]), ok_bind,
    readWord_of_getElem? (getElem?_featuresChunk (by omega)), ok_bind,
    countOf_ofNat (by decide) h.features_le, ok_bind, refuseIf_of_not _ h.features_pos.ne', ok_bind,
    refuseIf_of_not _ (le_div_of_mul_le h.features_pos hvalues), ok_bind,
    refuseIf_of_not _ (le_div_of_mul_le (by decide) hrecords), ok_bind,
    treeCountOf_of_holds h, ok_bind, nodeCountOf_of_holds h hsound, ok_bind,
    validateModel_of_holds h hsound, ok_bind]

omit h hsound hrows hvalues in
theorem writeRecord_of_lt {sample : ℕ}
    (hrecords : rows.length * outputWords ≤ chunkElements - featureHeader)
    (hsample : sample < rows.length) (margin : Word) (output : List Word) :
    writeRecord math sample margin output =
      writeWords output (featureHeader + sample * outputWords) (recordOf math margin) := by
  have hlt : sample * outputWords < rows.length * outputWords :=
    Nat.mul_lt_mul_of_pos_right hsample (by decide)
  have hchunk : featureHeader + (chunkElements - featureHeader) < 2 ^ 32 := by decide
  unfold writeRecord
  rw [u32_of_lt (by omega)]
  rfl

/-- The single-stage kernel on a chunk of features. -/
theorem runtimeAct_of_holds
    (hrecords : rows.length * outputWords ≤ chunkElements - featureHeader)
    (houtput : output.length = chunkElements)
    (hmargins : List.Forall₂ (FoldsFrom math ensemble ensemble.baseMargin) rows margins) :
    runtimeAct math (featuresChunk ensemble.featureCount [a, b] rows []) model chunkElements
      output = .ok (recordsChunk math ensemble.featureCount ensemble.trees.length margins) := by
  have hlength := hmargins.length_eq
  have hheader : featureHeader + (chunkElements - featureHeader) = chunkElements := rfl
  have hwords := length_featuresWords hrows a b []
  rw [List.length_nil] at hwords
  have hfits : (featuresChunk ensemble.featureCount [a, b] rows []).length = chunkElements :=
    length_padded (by omega)
  have hloop := sampleLoop_eq
    (fun sample => margin math (featuresChunk ensemble.featureCount [a, b] rows []) model
      sample ensemble.featureCount ensemble.trees.length ensemble.nodeCount)
    (writeRecord math) (recordOf math) featureHeader outputWords rows.length (fun _ => rfl)
    (fun sample hsample value output => writeRecord_of_lt hrecords hsample value output)
    (by omega) margins 0
    ([rows.length, ensemble.featureCount, outputWords, ensemble.trees.length].map Binary32.ofNat)
    (by omega) rfl fun i hi => by
      rw [Nat.zero_add]
      exact margin_of_holds h hsound hrows hvalues (by omega) (hmargins.get (by omega) hi) hfits
  unfold runtimeAct
  rw [if_neg (by simp), runtimeHeader_of_holds h hsound hvalues hrecords []]
  refine (clear_header houtput _ _ _ _ _).trans ?_
  rw [recordsChunk, ← hlength]
  rw [← hlength] at hloop
  exact hloop

end Acts

/-! ## Two stages -/

/-- What the two stages of a connected run share. -/
structure Stages (whole first second : Ensemble) (firstModel secondModel : List Word) :
    Prop where
  holds_first : HoldsModel firstModel first
  holds_second : HoldsModel secondModel second
  first_sound : ∀ tree ∈ first.trees, tree.Sound first.featureCount
  second_sound : ∀ tree ∈ second.trees, tree.Sound second.featureCount
  first_features : first.featureCount = whole.featureCount
  second_features : second.featureCount = whole.featureCount
  trees : whole.trees.length = first.trees.length + second.trees.length
  trees_le : whole.trees.length ≤ maxTrees
  zero : second.baseMargin = 0

section Stages

variable {math : Arithmetic} {whole first second : Ensemble}
  {firstModel secondModel output : List Word}
  {rows : List (List Word)} {partials margins : List Word}
  (h : Stages whole first second firstModel secondModel)
  (hrows : ∀ row ∈ rows, row.length = whole.featureCount)
  (hvalues : rows.length * (whole.featureCount + 1) ≤ chunkElements - featureHeader)

include h hvalues

theorem count_le_half : rows.length ≤ (chunkElements - featureHeader) / 2 := by
  have hpos := h.holds_first.features_pos
  rw [h.first_features] at hpos
  rw [Nat.le_div_iff_mul_le (by decide)]
  exact (Nat.mul_le_mul_left _ (by omega)).trans hvalues

theorem firstHeader_of_holds :
    firstHeader (featuresChunk whole.featureCount [whole.trees.length, 0] rows []) firstModel =
      .ok (⟨rows.length, whole.featureCount, first.trees.length, first.nodeCount⟩,
        whole.trees.length) := by
  have hpos := h.holds_first.features_pos
  have hle := h.holds_first.features_le
  have hnodes := nodeCountOf_of_holds h.holds_first h.first_sound
  have hvalid := validateModel_of_holds h.holds_first h.first_sound
  have hsecond := h.holds_second.trees_pos
  have htrees := h.trees
  rw [h.first_features] at hpos hle hnodes hvalid
  unfold firstHeader
  rw [readWord_of_getElem? (getElem?_featuresChunk (by omega)), ok_bind,
    countOf_ofNat (by decide) (count_le_half h hvalues), ok_bind,
    readWord_of_getElem? (getElem?_featuresChunk (by omega)), ok_bind,
    countOf_ofNat (by decide) hle, ok_bind, refuseIf_of_not _ hpos.ne', ok_bind,
    refuseIf_of_not _ (le_div_of_mul_le (Nat.succ_pos _) hvalues), ok_bind,
    readWord_of_getElem? (getElem?_featuresChunk (by omega)), ok_bind,
    countOf_ofNat (by decide) h.trees_le, ok_bind, treeCountOf_of_holds h.holds_first, ok_bind,
    refuseIf_of_not _ (by omega), ok_bind, hnodes, ok_bind, hvalid, ok_bind]

theorem chainHeader_of_holds
    (hrecords : rows.length * outputWords ≤ chunkElements - featureHeader) :
    chainHeader (featuresChunk whole.featureCount [first.trees.length, whole.trees.length] rows
      partials) secondModel =
      .ok (⟨rows.length, whole.featureCount, second.trees.length, second.nodeCount⟩,
        whole.trees.length) := by
  have hpos := h.holds_second.features_pos
  have hle := h.holds_second.features_le
  have hnodes := nodeCountOf_of_holds h.holds_second h.second_sound
  have hvalid := validateModel_of_holds h.holds_second h.second_sound
  have htrees := h.trees
  have hfirst := h.holds_first.trees_pos
  have hfirst' := h.holds_first.trees_le
  have hcap : maxTrees = 64 := rfl
  rw [h.second_features] at hpos hle hnodes hvalid
  have hbase : secondModel[4]? = some 0 := by rw [h.holds_second.base, h.zero]
  have hwrap : u32 (first.trees.length + second.trees.length) =
      first.trees.length + second.trees.length := by
    have := h.trees_le
    exact u32_of_lt (by omega)
  unfold chainHeader
  rw [readWord_of_getElem? (getElem?_featuresChunk (by omega)), ok_bind,
    countOf_ofNat (by decide) (count_le_half h hvalues), ok_bind,
    readWord_of_getElem? (getElem?_featuresChunk (by omega)), ok_bind,
    countOf_ofNat (by decide) hle, ok_bind, refuseIf_of_not _ hpos.ne', ok_bind,
    refuseIf_of_not _ (le_div_of_mul_le (Nat.succ_pos _) hvalues), ok_bind,
    refuseIf_of_not _ (le_div_of_mul_le (by decide) hrecords), ok_bind,
    readWord_of_getElem? (getElem?_featuresChunk (by omega)), ok_bind,
    countOf_ofNat (by decide) hfirst', ok_bind, refuseIf_of_not _ hfirst.ne', ok_bind,
    readWord_of_getElem? (getElem?_featuresChunk (by omega)), ok_bind,
    countOf_ofNat (by decide) h.trees_le, ok_bind, treeCountOf_of_holds h.holds_second, ok_bind,
    hwrap,
    refuseIf_of_not _ (by omega), ok_bind, hnodes, ok_bind, readWord_of_getElem? hbase, ok_bind,
    refuseIf_of_not _ (by decide), ok_bind, hvalid, ok_bind]

omit h hvalues in
/-- The copy of the features behind a header of four words. -/
theorem copyFeatures_eq (features header values : List Word)
    (hheader : header.length = featureHeader)
    (hinside : featureHeader + values.length ≤ chunkElements)
    (hfeatures : ∀ i (hi : i < values.length), features[featureHeader + i]? = some values[i]) :
    (forRange 0 values.length (padded header) fun index output => do
      let word ← readWord features (u32 (featureHeader + index))
      writeWord output (u32 (featureHeader + index)) word) = .ok (padded (header ++ values)) := by
  have hsmall : chunkElements < 2 ^ 32 := by decide
  have hloop : Returns (forRange 0 values.length (padded header) fun index output => do
      let word ← readWord features (u32 (featureHeader + index))
      writeWord output (u32 (featureHeader + index)) word) fun after =>
        after = padded (header ++ values.take values.length) := by
    refine Meets.forRange (fun index (after : List Word) =>
      after = padded (header ++ values.take index)) (Nat.zero_le _) (by simp) ?_
    rintro index after _ hindex rfl
    have hlength : (header ++ values.take index).length = featureHeader + index := by
      rw [List.length_append, hheader, List.length_take, Nat.min_eq_left hindex.le]
    have hwrite := writeWord_padded (show (header ++ values.take index).length < chunkElements
      by omega) values[index]
    rw [hlength, List.append_assoc, List.take_append_getElem hindex] at hwrite
    rw [u32_of_lt (by omega), readWord_of_getElem? (hfeatures index hindex), ok_bind]
    exact Returns.of_eq hwrite rfl
  obtain ⟨after, hafter, heq⟩ := hloop.exists_ok
  rw [hafter, heq, List.take_length]

include hrows

/-- The first stage leaves the features and the margins of its own trees. -/
theorem firstAct_of_holds (houtput : output.length = chunkElements)
    (hmargins : List.Forall₂ (FoldsFrom math first whole.baseMargin) rows partials)
    (hbase : first.baseMargin = whole.baseMargin) :
    firstAct math (featuresChunk whole.featureCount [whole.trees.length, 0] rows []) firstModel
      chunkElements output = .ok (featuresChunk whole.featureCount
        [first.trees.length, whole.trees.length] rows partials) := by
  have hlength := hmargins.length_eq
  have hheader : featureHeader + (chunkElements - featureHeader) = chunkElements := rfl
  have hfour : featureHeader = 4 := rfl
  have hsmall : chunkElements < 2 ^ 32 := by decide
  have hmul := hvalues
  rw [Nat.mul_succ] at hmul
  have hwords := length_featuresWords hrows whole.trees.length 0 []
  rw [List.length_nil] at hwords
  have hfits : (featuresChunk whole.featureCount [whole.trees.length, 0] rows []).length =
      chunkElements := length_padded (by omega)
  have hflat := length_flatten_rows hrows
  have hwrap : u32 (rows.length * whole.featureCount) = rows.length * whole.featureCount :=
    u32_of_lt (by omega)
  have hcopy := copyFeatures_eq
    (featuresChunk whole.featureCount [whole.trees.length, 0] rows [])
    ([rows.length, whole.featureCount, first.trees.length, whole.trees.length].map
      Binary32.ofNat) rows.flatten rfl (by omega) fun i hi => by
        rw [featuresChunk, getElem?_padded (by omega), List.append_nil,
          List.getElem?_append_right (by simp; omega), ← List.getElem?_eq_getElem hi]
        congr 1
        simp [hfour]
  have hloop := sampleLoop_eq
    (fun sample => margin math
      (featuresChunk whole.featureCount [whole.trees.length, 0] rows []) firstModel sample
      whole.featureCount first.trees.length first.nodeCount)
    (fun sample margin output => writeWord output
      (u32 (featureHeader + rows.length * whole.featureCount + sample)) margin)
    (fun value => [value]) (featureHeader + rows.length * whole.featureCount) 1 rows.length
    (fun _ => rfl)
    (fun sample hsample value output => by
      rw [u32_of_lt (by omega), Nat.mul_one, writeWords]
      cases writeWord output _ value <;> rfl)
    (by omega) partials 0
    ([rows.length, whole.featureCount, first.trees.length, whole.trees.length].map
      Binary32.ofNat ++ rows.flatten)
    (by omega) (by rw [List.length_append, hflat]; rfl) fun i hi => by
      have hfold : FoldsFrom math first first.baseMargin rows[i] partials[i] := by
        rw [hbase]
        exact hmargins.get (by omega) hi
      have hmargin := margin_of_holds h.holds_first h.first_sound (by rwa [h.first_features])
        (by rw [h.first_features]; omega) (show i < rows.length by omega) hfold
        (by rw [h.first_features]; exact hfits)
      rw [Nat.zero_add]
      rwa [h.first_features] at hmargin
  unfold firstAct
  rw [if_neg (by simp), firstHeader_of_holds h hvalues]
  refine (clear_header houtput _ _ _ _ _).trans ?_
  dsimp only
  rw [hwrap, ← hflat]
  refine (congrArg (· >>= _) hcopy).trans ?_
  rw [ok_bind, hflat]
  rw [← hlength, flatMap_singleton_self] at hloop
  exact hloop

/-- A sample whose carried margin is accepted is folded from there. -/
theorem chainedMargin_of_holds {sample : ℕ} (hsample : sample < rows.length)
    (hpartials : partials.length = rows.length) {margin' : Word}
    (hfold : FoldsFrom math second partials[sample] rows[sample] margin') :
    chainedMargin math (featuresChunk whole.featureCount [first.trees.length, whole.trees.length]
      rows partials) secondModel sample rows.length whole.featureCount second.trees.length
      second.nodeCount =
        if Binary32.isNaN partials[sample] ∨
            ¬Binary32.eq (math.sub partials[sample] partials[sample]) 0 then .error .refused
        else .ok margin' := by
  have hheader : featureHeader + (chunkElements - featureHeader) = chunkElements := rfl
  have hsmall : chunkElements < 2 ^ 32 := by decide
  have hmul := hvalues
  rw [Nat.mul_succ] at hmul
  have hwords := length_featuresWords hrows first.trees.length whole.trees.length partials
  have hfits : (featuresChunk whole.featureCount [first.trees.length, whole.trees.length] rows
      partials).length = chunkElements := length_padded (by omega)
  have hinside : (sample + 1) * second.featureCount ≤ chunkElements - featureHeader := by
    have := Nat.mul_le_mul_right whole.featureCount hsample
    rw [h.second_features]
    rw [Nat.succ_mul] at this ⊢
    omega
  have hadd := addTrees_of_holds h.holds_second h.second_sound hfits hinside
    (by rw [h.second_features]; exact holdsRow_featuresChunk hrows hsample) hfold
  rw [h.second_features] at hadd
  unfold chainedMargin
  rw [u32_of_lt (by omega), readWord_of_getElem?
    (getElem?_featuresChunk_margin hrows (show sample < partials.length by omega)), ok_bind]
  split_ifs with hrefused
  · rw [refuseIf_of _ hrefused]
    rfl
  · rw [refuseIf_of_not _ hrefused, ok_bind]
    exact hadd

omit hrows in
/-- The second stage goes on from the margins of the first. -/
theorem chainAct_of_margins (houtput : output.length = chunkElements)
    (hrecords : rows.length * outputWords ≤ chunkElements - featureHeader)
    (hlength : margins.length = rows.length)
    (hmargins : ∀ i (hi : i < margins.length), chainedMargin math (featuresChunk whole.featureCount
      [first.trees.length, whole.trees.length] rows partials) secondModel i rows.length
      whole.featureCount second.trees.length second.nodeCount = .ok margins[i]) :
    chainAct math (featuresChunk whole.featureCount [first.trees.length, whole.trees.length] rows
      partials) secondModel chunkElements output =
        .ok (recordsChunk math whole.featureCount whole.trees.length margins) := by
  have hheader : featureHeader + (chunkElements - featureHeader) = chunkElements := rfl
  have hloop := sampleLoop_eq
    (fun sample => chainedMargin math (featuresChunk whole.featureCount
      [first.trees.length, whole.trees.length] rows partials) secondModel sample rows.length
      whole.featureCount second.trees.length second.nodeCount)
    (writeRecord math) (recordOf math) featureHeader outputWords rows.length (fun _ => rfl)
    (fun sample hsample value output => writeRecord_of_lt hrecords hsample value output)
    (by omega) margins 0
    ([rows.length, whole.featureCount, outputWords, whole.trees.length].map Binary32.ofNat)
    (by omega) rfl fun i hi => by
      rw [Nat.zero_add]
      exact hmargins i hi
  unfold chainAct
  rw [if_neg (by simp), chainHeader_of_holds h hvalues hrecords]
  refine (clear_header houtput _ _ _ _ _).trans ?_
  rw [recordsChunk, hlength]
  rw [hlength] at hloop
  exact hloop

end Stages

end Runtime

end Npunlock
