import Npunlock.Postcondition
import Npunlock.RecodedDiscovery

/-!
# Chains of patches

`BuildPlan.build` patches a graph once for each custom node. Every patch is applied to
the output of the one before it, with targets that were discovered in the first graph.
`discovery_stable` : discovery returns the same records on every graph of such a chain,
so the targets stay valid. `patch_sequence` : if the patches have disjoint targets, every
range designates in the end the image that was patched onto it, or the code it had, in
whatever order the patches were made.
-/

namespace Npunlock

variable {layout layout' : GraphLayout}

/-! ## Chains -/

/-- The arguments of one patch, except for the graph. -/
structure PatchStep where
  abi : Abi
  image : View
  targets : List abi.Target
  imageAlignment : ℕ
  tailPadding : ℕ

namespace PatchStep

/-- `patch_graph(blob, elf, target_values).graph_blob`. -/
def patchGraph (step : PatchStep) (graphBlob : View) : Result View :=
  (patchGraphBlobWith step.abi.version graphBlob step.image step.targets step.imageAlignment
    step.tailPadding).map (·.1)

/-- The invocations and ranges of the targets. -/
def selections (step : PatchStep) : List (ℕ × ℕ) :=
  step.targets.map step.abi.version.selection

/-- No target is in both steps. -/
def Disjoint (left right : PatchStep) : Prop :=
  ∀ selection ∈ left.selections, selection ∉ right.selections

/-- A target of the step selects the range. -/
def Selects (step : PatchStep) (rangeIndex : ℕ) : Prop :=
  ∃ target ∈ step.targets, step.abi.version.rangeIndex target = rangeIndex

end PatchStep

/-- The loop of `BuildPlan.build` over the custom nodes. -/
def build (steps : List PatchStep) (graphBlob : View) : Result View :=
  steps.foldlM (fun blob step => step.patchGraph blob) graphBlob

/-- The checks that a patch makes of its targets. -/
def checkTargets {τ : Type} (version : TargetVersion τ) (graphBlob : View) (targets : List τ) :
    Result Unit := do
  let layout ← parseGraph graphBlob
  let parameterBases ← invocationParameterBases layout
  let _ ← planTargets version layout parameterBases targets
  .ok ()

theorem build_cons_eq_ok_iff {step : PatchStep} {steps : List PatchStep}
    {graphBlob final : View} :
    build (step :: steps) graphBlob = .ok final ↔
      ∃ output, step.patchGraph graphBlob = .ok output ∧ build steps output = .ok final := by
  rw [build, List.foldlM_cons, bind_eq_ok_iff]
  rfl

theorem build_singleton {step : PatchStep} {graphBlob output : View}
    (h : step.patchGraph graphBlob = .ok output) : build [step] graphBlob = .ok output :=
  build_cons_eq_ok_iff.2 ⟨output, h, rfl⟩

theorem PatchStep.exists_run {step : PatchStep} {graphBlob output : View}
    (h : step.patchGraph graphBlob = .ok output) :
    ∃ layout details plan, PatchRun step.abi.version graphBlob step.image step.targets
      step.imageAlignment step.tailPadding layout details plan ∧
        output = patchedView layout plan step.image details := by
  obtain ⟨⟨_, summary⟩, hpatch, rfl⟩ := map_eq_ok_iff.1 h
  exact patchRun_of_eq_ok step.abi.lawful hpatch

/-! ## Discovery along a chain -/

section Discovery

variable {τ γ : Type} {version : TargetVersion τ} {contract : τ → γ} {graphBlob output : View}
  {step : PatchStep}

/-- A patch does not change what discovery returns. -/
theorem PatchStep.discover_eq (hs : version.Stable) (h : step.patchGraph graphBlob = .ok output) :
    discoverGraphTargetsWith version output = discoverGraphTargetsWith version graphBlob := by
  obtain ⟨layout, details, plan, hrun, rfl⟩ := PatchStep.exists_run h
  unfold discoverGraphTargetsWith
  rw [hrun.parse_eq, hrun.parse_patched, ok_bind, ok_bind]
  exact (discoverRecords_recoded hs hrun.valid hrun.recoded).eq.symm

/-- A patch does not change which targets pass the checks. -/
theorem PatchStep.checkTargets_eq (hl : version.Lawful contract) (hs : version.Stable)
    (h : step.patchGraph graphBlob = .ok output) (targets : List τ) :
    checkTargets version output targets = checkTargets version graphBlob targets := by
  obtain ⟨layout, details, plan, hrun, rfl⟩ := PatchStep.exists_run h
  unfold checkTargets
  rw [hrun.parse_eq, hrun.parse_patched, ok_bind, ok_bind]
  refine (Agree.eq ?_).symm
  refine (invocationParameterBases_recoded hrun.recoded).bind
    fun parameterBases _ hbases _ heq => ?_
  subst heq
  replace hbases := (invocationParameterBases_spec hrun.valid).value _ hbases
  exact (planTargets_recoded hl hs hrun.valid hrun.recoded hbases targets).bind
    fun _ _ _ _ _ => Agree.ok rfl

/-- The run lemma of both. -/
theorem build_discovery (hl : version.Lawful contract) (hs : version.Stable)
    {steps : List PatchStep} (h : build steps graphBlob = .ok output) :
    discoverGraphTargetsWith version output = discoverGraphTargetsWith version graphBlob ∧
      ∀ targets, checkTargets version output targets = checkTargets version graphBlob targets := by
  refine foldlM_inv (fun blob =>
    discoverGraphTargetsWith version blob = discoverGraphTargetsWith version graphBlob ∧
      ∀ targets, checkTargets version blob targets = checkTargets version graphBlob targets)
    (fun blob step blob' hinv hstep => ⟨?_, fun targets => ?_⟩) ⟨rfl, fun _ => rfl⟩ h
  · exact (step.discover_eq hs hstep).trans hinv.1
  · exact (step.checkTargets_eq hl hs hstep targets).trans (hinv.2 targets)

end Discovery

/-- If every invocation is selected, every replica group is. -/
theorem Abi.checkReplicaGroups_eq_ok (h : layout.Valid) : ∀ {abi : Abi} {targets : List abi.Target},
    (∀ target ∈ targets, abi.version.invocationIndex target < layout.invocations.size / 0x40) →
    (∀ i < layout.invocations.size / 0x40,
      ∃ target ∈ targets, abi.version.invocationIndex target = i) →
    abi.version.checkReplicaGroups layout (layout.invocations.size / 0x40) targets = .ok ()
  | .v1, _, _, _ => rfl
  | .v2, targets, hlt, hall => by
    refine forM_eq_ok_iff.2 fun target htarget => ?_
    split_ifs
    · rfl
    · refine checkRange_eq_ok_iff.2 fun i _ hi => ?_
      refine bind_eq_ok_iff.2 ⟨_, invocationGroupIdentityEqual_eq h (hlt target htarget) hi, ?_⟩
      exact refuseIf_of_not _ fun hmissing => hmissing.2 (hall i hi)

/-- The targets of all records pass the checks of a patch. -/
theorem checkTargets_discovered {abi : Abi} {graphBlob : View}
    {records : List (DiscoveredTarget abi.Target)} {groupCount : ℕ}
    (h : discoverGraphTargetsWith abi.version graphBlob = .ok (records, groupCount)) :
    checkTargets abi.version graphBlob (records.map (·.target)) = .ok () := by
  obtain ⟨layout, parameterBases, hparse, hbases, hbasesOf, -, hrun⟩ :=
    (discoverGraphTargetsWith_spec abi.lawful graphBlob).value _ h
  have hvalid := GraphLayout.Valid.of_parse hparse
  obtain ⟨hlen, hindices, hvalidated, hfound, -, -, -, hranges, -, -⟩ := hrun
  simp only at hlen hindices hvalidated hfound hranges
  have hplan : ∃ details, planTargets abi.version layout parameterBases
      (records.map (·.target)) = .ok details := by
    unfold planTargets
    refine exists_bind (exists_mapRange fun i hi => ?_) fun details _ => ?_
    · rw [List.length_map] at hi
      obtain ⟨detail, hdetail⟩ := hvalidated _ (List.getElem_mem hi)
      obtain ⟨relocation, hrelocation⟩ := hfound _ (List.getElem_mem hi)
      -- an earlier record has another invocation and another range
      have hunique : ¬∃ other ∈ (records.map (·.target)).take i,
          abi.version.invocationIndex other = abi.version.invocationIndex records[i].target ∨
            abi.version.rangeIndex other = abi.version.rangeIndex records[i].target := by
        rintro ⟨other, hother, hsame⟩
        obtain ⟨j, hj, rfl⟩ := List.mem_take_iff_getElem.1 hother
        rw [List.length_map] at hj
        rw [List.getElem_map] at hsame
        rcases hsame with hsame | hsame
        · rw [hindices i hi, hindices j (by omega)] at hsame
          omega
        · have := hranges j i (by omega) hi hsame
          omega
      rw [List.getElem?_eq_getElem (by rwa [List.length_map]), List.getElem_map]
      dsimp only
      rw [planTarget, refuseIf_of_not _ hunique, ok_bind, hdetail, ok_bind, hrelocation]
      exact ⟨_, rfl⟩
    · rw [hbasesOf.length_eq] at hlen ⊢
      refine exists_bind ⟨(), Abi.checkReplicaGroups_eq_ok hvalid (fun target htarget => ?_)
        fun i hi => ?_⟩ fun _ _ => ⟨_, rfl⟩
      · obtain ⟨record, hrecord, rfl⟩ := List.mem_map.1 htarget
        obtain ⟨i, hi, rfl⟩ := List.getElem_of_mem hrecord
        rw [hindices i hi]
        omega
      · have hi' : i < records.length := by omega
        exact ⟨_, List.mem_map_of_mem (List.getElem_mem hi'), hindices i hi'⟩
  obtain ⟨details, hdetails⟩ := hplan
  unfold checkTargets
  rw [hparse, ok_bind, hbases, ok_bind, hdetails]
  rfl

/-- Along a chain of successful patches, discovery returns the records it returned on the
first graph. Their targets pass the checks of a patch, and so does any other list of
targets that passed on the first graph. -/
theorem discovery_stable (abi : Abi) (graphBlob final : View) (steps : List PatchStep)
    (records : List (DiscoveredTarget abi.Target)) (groupCount : ℕ)
    (hdiscover : discoverGraphTargetsWith abi.version graphBlob = .ok (records, groupCount))
    (hbuild : build steps graphBlob = .ok final) :
    discoverGraphTargetsWith abi.version final = .ok (records, groupCount) ∧
      checkTargets abi.version final (records.map (·.target)) = .ok () ∧
      ∀ targets, checkTargets abi.version final targets =
        checkTargets abi.version graphBlob targets := by
  obtain ⟨hsame, htargets⟩ := build_discovery abi.lawful abi.stable hbuild
  rw [hdiscover] at hsame
  exact ⟨hsame, checkTargets_discovered hsame, htargets⟩

/-- A patch of the first invocation with sixteen bytes of code. -/
def exampleStep : PatchStep where
  abi := .v1
  image := exampleImage
  targets := [exampleTarget 0]
  imageAlignment := 16
  tailPadding := 0

theorem exampleStep_patchGraph {g : ExampleGraph} (h : g.request [exampleTarget 0] = .ok true) :
    ∃ output, exampleStep.patchGraph g.view = .ok output := by
  obtain ⟨layout, details, plan, patched, hrequest, hwrite, hfits⟩ :=
    ExampleGraph.exists_of_request h
  obtain ⟨summary, hpatch⟩ :=
    (patchGraphBlobWith_iff (Abi.lawful .v1) hrequest hwrite).2 (hfits.1 rfl)
  exact ⟨patched, map_eq_ok_iff.2 ⟨_, hpatch, rfl⟩⟩

theorem discovery_stable_example :
    ∃ final records groupCount, build [exampleStep] (ExampleGraph.view {}) = .ok final ∧
      discoverGraphTargetsWith (Abi.version .v1) final = .ok (records, groupCount) ∧
      checkTargets (Abi.version .v1) final (records.map (·.target)) = .ok () := by
  obtain ⟨⟨records, groupCount⟩, hdiscover⟩ := succeeds_iff.1 example_discovery
  obtain ⟨final, hpatch⟩ := exampleStep_patchGraph example_request
  have hbuild := build_singleton hpatch
  obtain ⟨hsame, hvalid, -⟩ := discovery_stable .v1 _ _ _ _ _ hdiscover hbuild
  exact ⟨final, records, groupCount, hbuild, hsame, hvalid⟩

/-! ## Code along a chain -/

/-- What the patches of a chain have made of a range : a patch that selects it put its
image there, and if there is none the range is as it was. -/
structure RangeAfter (steps : List PatchStep) (layout layout' : GraphLayout) (rangeIndex : ℕ) :
    Prop where
  patched : ∀ step ∈ steps, step.Selects rangeIndex →
    codeExtent layout' rangeIndex = step.image.size ∧
      designatedCode layout' rangeIndex = some (slice step.image.data 0 step.image.size)
  kept : (∀ step ∈ steps, ¬step.Selects rangeIndex) →
    codeExtent layout' rangeIndex = codeExtent layout rangeIndex ∧
      rangeCode layout' rangeIndex = rangeCode layout rangeIndex ∧
      ∀ code, designatedCode layout rangeIndex = some code →
        designatedCode layout' rangeIndex = some code

theorem RangeAfter.refl (layout : GraphLayout) (rangeIndex : ℕ) :
    RangeAfter [] layout layout rangeIndex :=
  ⟨by simp, fun _ => ⟨rfl, rfl, fun _ h => h⟩⟩

/-- What one patch makes of a range. -/
theorem PatchRun.rangeAfter {step : PatchStep} {graphBlob : View} {details : List PatchDetail}
    {plan : PatchPlan} (hrun : PatchRun step.abi.version graphBlob step.image step.targets
      step.imageAlignment step.tailPadding layout details plan) {rangeIndex : ℕ}
    (hrange : rangeIndex < layout.ranges.size / 0x18) :
    RangeAfter [step] layout (patchedLayout layout plan step.image details) rangeIndex := by
  refine ⟨?_, fun hnone => ?_⟩
  · rintro _ hstep ⟨target, htarget, rfl⟩
    obtain rfl := List.mem_singleton.1 hstep
    obtain ⟨detail, hdetail, -, heq⟩ := hrun.exists_detail htarget
    rw [← heq]
    exact ⟨hrun.codeExtent_targeted hdetail, hrun.designatedCode_targeted hdetail⟩
  · have huntargeted := hrun.untargeted_of fun target htarget heq =>
      hnone step (List.mem_singleton_self _) ⟨target, htarget, heq⟩
    exact ⟨hrun.codeExtent_untargeted hrange huntargeted, hrun.rangeCode_untargeted huntargeted,
      fun _ hcode => hrun.designatedCode_untargeted huntargeted hcode⟩

/-- A patch before a chain that does not select its ranges again. -/
theorem RangeAfter.cons {step : PatchStep} {steps : List PatchStep}
    {first second third : GraphLayout} {rangeIndex : ℕ}
    (hstep : RangeAfter [step] first second rangeIndex)
    (hsteps : RangeAfter steps second third rangeIndex)
    (hdisjoint : step.Selects rangeIndex → ∀ other ∈ steps, ¬other.Selects rangeIndex) :
    RangeAfter (step :: steps) first third rangeIndex := by
  refine ⟨fun other hother hselects => ?_, fun hnone => ?_⟩
  · rcases List.mem_cons.1 hother with rfl | hother
    · obtain ⟨hextent, hcode⟩ := hstep.patched other (List.mem_singleton_self _) hselects
      obtain ⟨hextent', -, hcode'⟩ := hsteps.kept (hdisjoint hselects)
      exact ⟨hextent'.trans hextent, hcode' _ hcode⟩
    · exact hsteps.patched other hother hselects
  · rw [List.forall_mem_cons] at hnone
    obtain ⟨hextent, hrange, hcode⟩ := hstep.kept (by simpa using hnone.1)
    obtain ⟨hextent', hrange', hcode'⟩ := hsteps.kept hnone.2
    exact ⟨hextent'.trans hextent, hrange'.trans hrange, fun _ h => hcode' _ (hcode _ h)⟩

/-- The targets of a chain select the ranges that their invocations refer to in the first
graph. -/
theorem build_selections : ∀ {steps : List PatchStep} {graphBlob final : View}
    {layout : GraphLayout}, build steps graphBlob = .ok final →
    parseGraph graphBlob = .ok layout → ∀ step ∈ steps, ∀ selection ∈ step.selections,
      selection.1 < layout.invocations.size / 0x40 ∧
        invocationRange layout selection.1 = selection.2 ∧
          selection.2 < layout.ranges.size / 0x18
  | [], _, _, _, _, _ => by simp
  | step :: steps, graphBlob, final, layout, hbuild, hparse => by
    obtain ⟨output, hstep, hrest⟩ := build_cons_eq_ok_iff.1 hbuild
    obtain ⟨run, details, plan, hrun, rfl⟩ := PatchStep.exists_run hstep
    obtain rfl : run = layout := Except.ok.inj (hrun.parse_eq.symm.trans hparse)
    refine List.forall_mem_cons.2 ⟨fun selection hselection => ?_, fun other hother => ?_⟩
    · rw [PatchStep.selections, ← hrun.details_of.selections_eq] at hselection
      obtain ⟨detail, hdetail, rfl⟩ := List.mem_map.1 hselection
      have hvalid := (hrun.details_of.planned detail hdetail).valid
      exact ⟨hvalid.invocation_lt, hvalid.selects, hvalid.range.lt⟩
    · intro selection hselection
      obtain ⟨hlt, hrange, hrangeLt⟩ :=
        build_selections hrest hrun.parse_patched other hother selection hselection
      rw [hrun.recoded.invocations_size_eq] at hlt
      rw [hrun.recoded.invocationRange_eq hlt] at hrange
      rw [hrun.recoded.ranges_size_eq] at hrangeLt
      exact ⟨hlt, hrange, hrangeLt⟩

/-- What a chain makes of the ranges, by induction on the chain. -/
theorem build_rangeAfter : ∀ {steps : List PatchStep} {graphBlob final : View}
    {layout : GraphLayout}, build steps graphBlob = .ok final →
    parseGraph graphBlob = .ok layout →
    steps.Pairwise (fun left right => ∀ r, left.Selects r → ¬right.Selects r) →
      ∃ layout', parseGraph final = .ok layout' ∧
        ∀ r < layout.ranges.size / 0x18, RangeAfter steps layout layout' r
  | [], _, _, layout, hbuild, hparse, _ => by
    cases hbuild
    exact ⟨layout, hparse, fun r _ => .refl layout r⟩
  | step :: steps, graphBlob, final, layout, hbuild, hparse, hdisjoint => by
    obtain ⟨output, hstep, hrest⟩ := build_cons_eq_ok_iff.1 hbuild
    obtain ⟨run, details, plan, hrun, rfl⟩ := PatchStep.exists_run hstep
    obtain rfl : run = layout := Except.ok.inj (hrun.parse_eq.symm.trans hparse)
    obtain ⟨hfirst, hdisjoint⟩ := List.pairwise_cons.1 hdisjoint
    obtain ⟨layout', hparse', hafter⟩ := build_rangeAfter hrest hrun.parse_patched hdisjoint
    refine ⟨layout', hparse', fun r hr => (hrun.rangeAfter hr).cons (hafter r ?_) ?_⟩
    · rwa [hrun.recoded.ranges_size_eq]
    · exact fun hselects other hother => hfirst other hother r hselects

/-- Where discovery succeeds, no two invocations share a range. -/
theorem invocationRange_injective {abi : Abi} {graphBlob : View}
    {records : List (DiscoveredTarget abi.Target)} {groupCount : ℕ}
    (h : discoverGraphTargetsWith abi.version graphBlob = .ok (records, groupCount))
    (hparse : parseGraph graphBlob = .ok layout) {i j : ℕ}
    (hi : i < layout.invocations.size / 0x40) (hj : j < layout.invocations.size / 0x40)
    (heq : invocationRange layout i = invocationRange layout j) : i = j := by
  obtain ⟨run, parameterBases, hparse', -, hbases, -, hrun⟩ :=
    (discoverGraphTargetsWith_spec abi.lawful graphBlob).value _ h
  obtain rfl : run = layout := Except.ok.inj (hparse'.symm.trans hparse)
  have hlen := hrun.length_eq
  have hdistinct := hrun.ranges
  rw [hbases.length_eq] at hlen
  simp only at hlen hdistinct
  have hrange : ∀ k (hk : k < records.length),
      abi.version.rangeIndex records[k].target = invocationRange run k := by
    intro k hk
    obtain ⟨detail, hdetail⟩ := hrun.validated _ (List.getElem_mem hk)
    have hselects := ((abi.lawful.validate_spec _ (GraphLayout.Valid.of_parse hparse)
      hbases).value _ hdetail).selects
    rw [hrun.index_eq k hk] at hselects
    exact hselects.symm
  refine hdistinct i j (by omega) (by omega) ?_
  rw [hrange i (by omega), hrange j (by omega), heq]

/-- Disjoint steps select disjoint ranges, in a graph on which discovery succeeds. -/
theorem pairwise_selects {abi : Abi} {graphBlob final : View}
    {records : List (DiscoveredTarget abi.Target)} {groupCount : ℕ} {steps : List PatchStep}
    (h : discoverGraphTargetsWith abi.version graphBlob = .ok (records, groupCount))
    (hparse : parseGraph graphBlob = .ok layout) (hbuild : build steps graphBlob = .ok final)
    (hdisjoint : steps.Pairwise PatchStep.Disjoint) :
    steps.Pairwise fun left right => ∀ r, left.Selects r → ¬right.Selects r := by
  have hselections := build_selections hbuild hparse
  refine hdisjoint.imp_of_mem fun {left right} hleft hright hne => ?_
  rintro _ ⟨target, htarget, rfl⟩ ⟨target', htarget', heq⟩
  have hmem : left.abi.version.selection target ∈ left.selections := List.mem_map_of_mem htarget
  have hmem' : right.abi.version.selection target' ∈ right.selections :=
    List.mem_map_of_mem htarget'
  obtain ⟨hlt, hrange, -⟩ := hselections left hleft _ hmem
  obtain ⟨hlt', hrange', -⟩ := hselections right hright _ hmem'
  have hsame := invocationRange_injective h hparse hlt hlt'
    (hrange.trans (heq.symm.trans hrange'.symm))
  refine hne _ hmem ?_
  rwa [show left.abi.version.selection target = right.abi.version.selection target' from
    Prod.ext hsame heq.symm]

/-- Two chains with the same steps agree on every range that is patched, or whose code is
in `KernelText`. -/
theorem RangeAfter.agree {steps steps' : List PatchStep} {first second third : GraphLayout}
    {rangeIndex : ℕ} (hmem : ∀ step, step ∈ steps' ↔ step ∈ steps)
    (h : RangeAfter steps first second rangeIndex)
    (h' : RangeAfter steps' first third rangeIndex) :
    codeExtent third rangeIndex = codeExtent second rangeIndex ∧
      ((∃ step ∈ steps, step.Selects rangeIndex) ∨ designatedCode first rangeIndex ≠ none →
        designatedCode third rangeIndex = designatedCode second rangeIndex) := by
  by_cases hselected : ∃ step ∈ steps, step.Selects rangeIndex
  · obtain ⟨step, hstep, hselects⟩ := hselected
    obtain ⟨hextent, hcode⟩ := h.patched step hstep hselects
    obtain ⟨hextent', hcode'⟩ := h'.patched step ((hmem step).2 hstep) hselects
    exact ⟨hextent'.trans hextent.symm, fun _ => hcode'.trans hcode.symm⟩
  · have hnone : ∀ step ∈ steps, ¬step.Selects rangeIndex :=
      fun step hstep hselects => hselected ⟨step, hstep, hselects⟩
    obtain ⟨hextent, -, hcode⟩ := h.kept hnone
    obtain ⟨hextent', -, hcode'⟩ := h'.kept fun step hstep => hnone step ((hmem step).1 hstep)
    refine ⟨hextent'.trans hextent.symm, fun hdesignates => ?_⟩
    obtain ⟨code, hfirst⟩ := Option.ne_none_iff_exists'.1 (hdesignates.resolve_left hselected)
    exact (hcode' code hfirst).trans (hcode code hfirst).symm

/-- A chain of successful patches with disjoint targets, on a graph on which discovery
succeeds : every patched range designates its image, every other range is kept, and any
other successful order of the patches gives the same extents, contracts and code. -/
theorem patch_sequence (abi : Abi) (graphBlob final : View) (steps : List PatchStep)
    (records : List (DiscoveredTarget abi.Target)) (groupCount : ℕ) (layout layout' : GraphLayout)
    (hdiscover : discoverGraphTargetsWith abi.version graphBlob = .ok (records, groupCount))
    (hdisjoint : steps.Pairwise PatchStep.Disjoint) (hbuild : build steps graphBlob = .ok final)
    (hparse : parseGraph graphBlob = .ok layout) (hparse' : parseGraph final = .ok layout') :
    (∀ r < layout.ranges.size / 0x18, RangeAfter steps layout layout' r) ∧
      ∀ (steps' : List PatchStep) (final' : View) (layout'' : GraphLayout), steps'.Perm steps →
        build steps' graphBlob = .ok final' → parseGraph final' = .ok layout'' →
          (∀ r < layout.ranges.size / 0x18, codeExtent layout'' r = codeExtent layout' r ∧
            ((∃ step ∈ steps, step.Selects r) ∨ designatedCode layout r ≠ none →
              designatedCode layout'' r = designatedCode layout' r)) ∧
          ∀ abi : Abi, discoverGraphTargetsWith abi.version final' =
            discoverGraphTargetsWith abi.version final := by
  have hselects := pairwise_selects hdiscover hparse hbuild hdisjoint
  have hafter : ∀ r < layout.ranges.size / 0x18, RangeAfter steps layout layout' r := by
    obtain ⟨_, hparse'', hafter⟩ := build_rangeAfter hbuild hparse hselects
    obtain rfl := Except.ok.inj (hparse''.symm.trans hparse')
    exact hafter
  refine ⟨hafter, fun steps' final' layout'' hperm hbuild' hparse'' =>
    ⟨fun r hr => ?_, fun abi => ?_⟩⟩
  · have hselects' := hselects.perm hperm.symm fun hne r hright hleft => hne r hleft hright
    obtain ⟨_, hparse₃, hafter'⟩ := build_rangeAfter hbuild' hparse hselects'
    obtain rfl := Except.ok.inj (hparse₃.symm.trans hparse'')
    exact (hafter r hr).agree (fun step => hperm.mem_iff) (hafter' r hr)
  · exact (build_discovery abi.lawful abi.stable hbuild').1.trans
      (build_discovery abi.lawful abi.stable hbuild).1.symm

/-- Whether the plan of a step fits the graph. -/
def PatchStep.fits (step : PatchStep) (layout : GraphLayout) : Result Bool := do
  let plan ← planPatch layout step.image step.imageAlignment step.tailPadding
  .ok (step.image.size ≤ uint32Max ∧ plan.imageBase ≤ int64Max ∧
    layout.Fits plan.insertedSize ∧ layout.HoldsImage step.image plan.insertedSize)

/-- A step succeeds if its targets pass the checks and its plan fits. -/
theorem PatchStep.exists_patchGraph {step : PatchStep} {graphBlob : View}
    (hparse : parseGraph graphBlob = .ok layout)
    (hchecks : checkTargets step.abi.version graphBlob step.targets = .ok ())
    (hfits : step.fits layout = .ok true) : ∃ output, step.patchGraph graphBlob = .ok output := by
  have hvalid := GraphLayout.Valid.of_parse hparse
  rw [checkTargets, hparse, ok_bind] at hchecks
  obtain ⟨parameterBases, hbases, hchecks⟩ := bind_eq_ok_iff.1 hchecks
  obtain ⟨details, hdetails, -⟩ := bind_eq_ok_iff.1 hchecks
  obtain ⟨plan, hplan, hfits⟩ := bind_eq_ok_iff.1 hfits
  rw [Except.ok.injEq, decide_eq_true_eq] at hfits
  obtain ⟨himage, hbase, hfits, hholds⟩ := hfits
  have hrequest : planRequest step.abi.version graphBlob step.image step.targets
      step.imageAlignment step.tailPadding = .ok (layout, details, plan) := by
    rw [planRequest, hparse, ok_bind, hbases, ok_bind, hdetails, ok_bind, hplan]
    rfl
  have hfields : FieldsFit plan step.image details := .inr ⟨himage, hbase⟩
  have hwrite := (writePatch_eq_ok_iff hvalid).2 ⟨hfields, rfl⟩
  obtain ⟨summary, hpatch⟩ :=
    (patchGraphBlobWith_iff step.abi.lawful hrequest hwrite).2 ⟨hfits, hholds⟩
  exact ⟨_, map_eq_ok_iff.2 ⟨_, hpatch, rfl⟩⟩

/-- Whether two steps succeed, one after the other. -/
def PatchStep.pairFits (first second : PatchStep) (graphBlob : View) : Result Bool := do
  checkTargets second.abi.version graphBlob second.targets
  let (layout, details, plan) ← planRequest first.abi.version graphBlob first.image first.targets
    first.imageAlignment first.tailPadding
  let firstFits ← first.fits layout
  let secondFits ← second.fits (patchedLayout layout plan first.image details)
  .ok (firstFits && secondFits)

/-- The targets of the second step pass before the first step, so they pass after it. -/
theorem PatchStep.exists_build {first second : PatchStep} {graphBlob : View}
    (h : first.pairFits second graphBlob = .ok true) :
    ∃ final layout', build [first, second] graphBlob = .ok final ∧
      parseGraph final = .ok layout' := by
  obtain ⟨⟨⟩, hchecks, h⟩ := bind_eq_ok_iff.1 h
  obtain ⟨⟨layout, details, plan⟩, hrequest, h⟩ := bind_eq_ok_iff.1 h
  obtain ⟨firstFits, hfirst, h⟩ := bind_eq_ok_iff.1 h
  obtain ⟨secondFits, hsecond, h⟩ := bind_eq_ok_iff.1 h
  rw [Except.ok.injEq, Bool.and_eq_true] at h
  obtain ⟨rfl, rfl⟩ := h
  obtain ⟨hparse, -⟩ := (planRequest_spec first.abi.lawful graphBlob first.image first.targets
    first.imageAlignment first.tailPadding).value _ hrequest
  have hfirstChecks : checkTargets first.abi.version graphBlob first.targets = .ok () := by
    unfold planRequest at hrequest
    unfold checkTargets
    obtain ⟨layout, hlayout, hrequest⟩ := bind_eq_ok_iff.1 hrequest
    obtain ⟨parameterBases, hbases, hrequest⟩ := bind_eq_ok_iff.1 hrequest
    obtain ⟨details, hdetails, -⟩ := bind_eq_ok_iff.1 hrequest
    rw [hlayout, ok_bind, hbases, ok_bind, hdetails]
    rfl
  obtain ⟨output, hpatch⟩ := exists_patchGraph hparse hfirstChecks hfirst
  have hafter := first.checkTargets_eq second.abi.lawful second.abi.stable hpatch second.targets
  obtain ⟨layout', details', plan', hrun, rfl⟩ := PatchStep.exists_run hpatch
  obtain ⟨rfl, rfl, rfl⟩ : layout' = layout ∧ details' = details ∧ plan' = plan := by
    simpa using hrun.request_eq.symm.trans hrequest
  obtain ⟨final, hfinal⟩ := exists_patchGraph hrun.parse_patched (hafter.trans hchecks) hsecond
  obtain ⟨_, _, _, hrun', rfl⟩ := PatchStep.exists_run hfinal
  exact ⟨_, _, build_cons_eq_ok_iff.2 ⟨_, hpatch, build_singleton hfinal⟩, hrun'.parse_patched⟩

/-- A patch of the second invocation with other code. -/
def secondStep : PatchStep where
  abi := .v1
  image := viewOf 8 (by decide) 0x4444444444444444
  targets := [exampleTarget 1]
  imageAlignment := 16
  tailPadding := 0

theorem both_orders :
    exampleStep.pairFits secondStep (ExampleGraph.view {}) = .ok true ∧
      secondStep.pairFits exampleStep (ExampleGraph.view {}) = .ok true := by
  decide +kernel

theorem patch_sequence_example :
    ∃ final final' layout layout' layout'',
      build [exampleStep, secondStep] (ExampleGraph.view {}) = .ok final ∧
      build [secondStep, exampleStep] (ExampleGraph.view {}) = .ok final' ∧
      parseGraph (ExampleGraph.view {}) = .ok layout ∧ parseGraph final = .ok layout' ∧
      parseGraph final' = .ok layout'' ∧
      ∀ r < layout.ranges.size / 0x18, RangeAfter [exampleStep, secondStep] layout layout' r ∧
        codeExtent layout'' r = codeExtent layout' r ∧ (designatedCode layout r ≠ none →
          designatedCode layout'' r = designatedCode layout' r) := by
  obtain ⟨⟨records, groupCount⟩, hdiscover⟩ := succeeds_iff.1 example_discovery
  obtain ⟨layout, -, hparse, -⟩ :=
    (discoverGraphTargetsWith_spec (Abi.lawful .v1) _).value _ hdiscover
  obtain ⟨final, layout', hbuild, hparse'⟩ := PatchStep.exists_build both_orders.1
  obtain ⟨final', layout'', hbuild', hparse''⟩ := PatchStep.exists_build both_orders.2
  have hdisjoint : [exampleStep, secondStep].Pairwise PatchStep.Disjoint :=
    List.pairwise_pair.2 (by unfold PatchStep.Disjoint; decide)
  obtain ⟨hafter, hperm⟩ := patch_sequence .v1 _ _ _ _ _ _ _ hdiscover hdisjoint hbuild hparse
    hparse'
  obtain ⟨hsame, -⟩ := hperm _ _ _ (.swap _ _ _) hbuild' hparse''
  exact ⟨final, final', layout, layout', layout'', hbuild, hbuild', hparse, hparse', hparse'',
    fun r hr => ⟨hafter r hr, (hsame r hr).1, fun h => (hsame r hr).2 (.inr h)⟩⟩

/-- The example graph with a `KernelText` too short for the code of the second range. -/
def shortGraph : ExampleGraph :=
  { textSize := 20 }

theorem short_request : shortGraph.request [exampleTarget 0] = .ok true := by
  decide +kernel

/-- A range that designates no code in the graph designates some after another range was
patched : discovery does not look at extents, and the gap is behind `KernelText`. -/
theorem patch_sequence_extends :
    ∃ final layout layout', succeeds (discoverGraphTargetsWith (Abi.version .v1)
        shortGraph.view) = true ∧
      build [exampleStep] shortGraph.view = .ok final ∧
      parseGraph shortGraph.view = .ok layout ∧ parseGraph final = .ok layout' ∧
      1 < layout.ranges.size / 0x18 ∧ ¬exampleStep.Selects 1 ∧
      designatedCode layout 1 = none ∧ designatedCode layout' 1 ≠ none := by
  obtain ⟨final, hpatch⟩ := exampleStep_patchGraph short_request
  obtain ⟨layout, details, plan, hrun, rfl⟩ := PatchStep.exists_run hpatch
  have hcode : (parseGraph shortGraph.view).map (fun layout =>
      (layout.ranges.size, layout.text.size, rangeCode layout 1)) =
        .ok (48, 20, some (16, 8)) := by
    decide +kernel
  rw [hrun.parse_eq, map_ok, Except.ok.injEq, Prod.mk.injEq, Prod.mk.injEq] at hcode
  obtain ⟨hranges, htext, hcode⟩ := hcode
  have hselects : ¬exampleStep.Selects 1 := by
    rintro ⟨target, htarget, heq⟩
    obtain rfl := List.mem_singleton.1 htarget
    exact absurd heq (by decide)
  have hkept := ((hrun.rangeAfter (show 1 < _ by rw [hranges]; decide)).kept
    (by simpa using hselects)).2.1
  have hsize : 24 ≤ (patchedLayout layout plan exampleStep.image details).text.size := by
    have himage := hrun.plan_of.image_le
    have hbase := hrun.plan_of.text_le_base
    rw [patchedLayout_text hrun.valid, moveSection_text_size, hrun.plan_of.newTextSize_eq]
    change plan.imageBase + 16 + 0 ≤ _ at himage
    omega
  refine ⟨_, layout, _, by decide +kernel, build_singleton hpatch, hrun.parse_eq,
    hrun.parse_patched, by rw [hranges]; decide, hselects, ?_, ?_⟩
  · rw [designatedCode, hcode, Option.bind_some, codeAt, htext]
    rfl
  · rw [designatedCode, hkept, hcode, Option.bind_some, codeAt, if_pos ⟨by decide, hsize⟩]
    simp

end Npunlock
