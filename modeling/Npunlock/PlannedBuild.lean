import Npunlock.PlanTargets

/-!
# Builds of a plan

`BuildPlan.build` patches the image of every kernel into the graph at the targets of its node.
`planned_build` : the targets of a plan on discovered groups are distinct, and where the ranges
of a plan are distinct, every target designates in the final graph the image of its own node.
Two nodes with one embedded target are refused by nobody (`embedded_targets_twice`).
-/

namespace Npunlock

/-! ## Patches of the front end -/

def TensorRole.code : TensorRole → ℕ
  | .input => patchblobTensorRoleInputV2
  | .output => patchblobTensorRoleOutputV2

def TensorDtype.code : TensorDtype → ℕ
  | .f16 => 1
  | .f32 => 2
  | .i32 => 3
  | .i8 => 4
  | .i16 => 5
  | .u8 => 6
  | .u16 => 7
  | .u32 => 8

/-- The native record of a tensor. -/
def PatchTensorContract.native (tensor : PatchTensorContract) : TensorContractV2 where
  structSize := tensorContractV2Size
  role := tensor.role.code
  tensorIndex := tensor.index
  precision := tensor.dtype.code
  elementCount := tensor.elementCount
  spanBytes := tensor.spanBytes
  observedFlags := tensor.observedFlags

/-- The native record of a version 2 target. -/
def ActTargetV2.native (target : ActTargetV2) : PatchblobTargetV2 where
  abiVersion := patchblobTargetV2AbiVersion
  invocationIndex := target.invocationIndex
  rangeIndex := target.rangeIndex
  targetFlags := target.targetFlags
  tensors := target.tensors.map PatchTensorContract.native

/-- The native call of `patch_graph` on targets, which are of one version. -/
def patchStep (image : View) (targets : GroupTargets) : Option PatchStep :=
  if targets = [] then none
  else
    match targets.mapM PatchTargetContract.asVersioned,
        targets.mapM PatchTargetContract.asLegacy with
    | some versioned, _ => some {
        abi := .v2, image
        targets := versioned.map ActTargetV2.native
        imageAlignment := 0x400
        tailPadding := 0x80 }
    | none, some legacy => some {
        abi := .v1, image
        targets := legacy
        imageAlignment := 0x400
        tailPadding := 0x80 }
    | none, none => none

/-- The native targets have the indices of the targets. -/
theorem patchStep_spec {image : View} {targets : GroupTargets} {step : PatchStep}
    (h : patchStep image targets = some step) :
    step.image = image ∧ step.selections = selections targets := by
  unfold patchStep at h
  split_ifs at h
  split at h
  · rename_i versioned hversioned
    cases h
    refine ⟨rfl, ?_⟩
    change (versioned.map ActTargetV2.native).map targetVersion2.selection = _
    rw [eq_map_of_mapM (fun _ _ => asVersioned_eq_some) hversioned, selections, List.map_map,
      List.map_map]
    rfl
  · rename_i legacy _ hlegacy
    cases h
    refine ⟨rfl, ?_⟩
    change legacy.map targetVersion1.selection = _
    rw [eq_map_of_mapM (fun _ _ => asLegacy_eq_some) hlegacy, selections, List.map_map]
    rfl
  · cases h

/-- A range is selected by the targets that have it. -/
theorem patchStep_selects {image : View} {targets : GroupTargets} {step : PatchStep}
    (h : patchStep image targets = some step) {rangeIndex : ℕ} :
    step.Selects rangeIndex ↔ rangeIndex ∈ targets.map PatchTargetContract.rangeIndex := by
  have hranges : step.selections.map Prod.snd = targets.map PatchTargetContract.rangeIndex := by
    rw [(patchStep_spec h).2, selections, List.map_map]
    rfl
  rw [← hranges, PatchStep.selections, List.map_map, List.mem_map]
  rfl

/-! ## The chain of a build -/

/-- The libraries patch as the native code does. `view` is a blob, and `image` the code of an
ELF, as the native code receives them. -/
def PatchesNatively (libraries : BuildLibraries) (view image : List UInt8 → View) : Prop :=
  ∀ blob elf targets output report, libraries.patchGraph blob elf targets = .ok (output, report) →
    ∃ step, patchStep (image elf) targets = some step ∧
      step.patchGraph (view blob) = .ok (view output)

/-- The ELF of a kernel, without the cache of a build. -/
def Kernel.elf (libraries : BuildLibraries) : Kernel → Except NativeError (List UInt8)
  | .compiled kernel => .ok kernel.elf
  | .spec kernel => libraries.compileShave kernel

/-- The step that patches a kernel in. -/
def StepOf (libraries : BuildLibraries) (image : List UInt8 → View)
    (entry : Kernel × GroupTargets) (step : PatchStep) : Prop :=
  ∃ elf, entry.1.elf libraries = .ok elf ∧ patchStep (image elf) entry.2 = some step

section Chain

variable {libraries : BuildLibraries} {view image : List UInt8 → View}

/-- Every ELF in the cache is the one its kernel compiles to. -/
def CacheHolds (libraries : BuildLibraries) (cache : List (KernelSpec × List UInt8)) : Prop :=
  ∀ entry ∈ cache, libraries.compileShave entry.1 = .ok entry.2

theorem kernelElf_spec {cache cache' : List (KernelSpec × List UInt8)} {kernel : Kernel}
    {elf : List UInt8} (hcache : CacheHolds libraries cache)
    (h : kernelElf libraries cache kernel = .ok (elf, cache')) :
    kernel.elf libraries = .ok elf ∧ CacheHolds libraries cache' := by
  unfold kernelElf at h
  split at h
  · cases h
    exact ⟨rfl, hcache⟩
  · rename_i kernel
    split at h
    · rename_i found hfound
      cases h
      obtain ⟨_, _, rfl, -⟩ := List.lookup_eq_some_iff.1 hfound
      exact ⟨hcache (kernel, elf) (by simp), hcache⟩
    · obtain ⟨compiled, hcompiled, h⟩ := bind_eq_ok_iff.1 h
      cases h
      exact ⟨hcompiled, List.forall_mem_cons.2 ⟨hcompiled, hcache⟩⟩

/-- A build is a chain of native patches, one for every kernel. -/
theorem patchAll_steps (hpatches : PatchesNatively libraries view image) :
    ∀ {entries : List (Kernel × GroupTargets)} {state state' : BuildState},
      CacheHolds libraries state.elfCache →
      entries.foldlM (BuildState.patch libraries) state = .ok state' →
        ∃ steps, List.Forall₂ (StepOf libraries image) entries steps ∧
          build steps (view state.blob) = .ok (view state'.blob)
  | [], state, state', _, h => by
    cases h
    exact ⟨[], .nil, rfl⟩
  | entry :: entries, state, state', hcache, h => by
    rw [List.foldlM_cons] at h
    obtain ⟨next, hnext, hrest⟩ := bind_eq_ok_iff.1 h
    obtain ⟨⟨elf, cache⟩, helf, hnext⟩ := bind_eq_ok_iff.1 hnext
    obtain ⟨⟨blob, report⟩, hpatch, hnext⟩ := bind_eq_ok_iff.1 hnext
    cases hnext
    obtain ⟨hkernel, hcache'⟩ := kernelElf_spec hcache helf
    obtain ⟨step, hstep, houtput⟩ := hpatches _ _ _ _ _ hpatch
    obtain ⟨steps, hsteps, hbuild⟩ := patchAll_steps hpatches hcache' hrest
    exact ⟨step :: steps, .cons ⟨elf, hkernel, hstep⟩ hsteps,
      build_cons_eq_ok_iff.2 ⟨_, houtput, hbuild⟩⟩

end Chain

/-- Invocations keep their ranges along a chain. -/
theorem build_invocationRange : ∀ {steps : List PatchStep} {graphBlob final : View}
    {layout layout' : GraphLayout}, build steps graphBlob = .ok final →
    parseGraph graphBlob = .ok layout → parseGraph final = .ok layout' →
      ∀ index < layout.invocations.size / 0x40,
        invocationRange layout' index = invocationRange layout index
  | [], _, _, _, _, hbuild, hparse, hparse' => by
    cases hbuild
    obtain rfl := Except.ok.inj (hparse.symm.trans hparse')
    exact fun _ _ => rfl
  | step :: steps, graphBlob, final, layout, layout', hbuild, hparse, hparse' => by
    intro index hindex
    obtain ⟨output, hstep, hrest⟩ := build_cons_eq_ok_iff.1 hbuild
    obtain ⟨run, details, plan, hrun, rfl⟩ := PatchStep.exists_run hstep
    obtain rfl : run = layout := Except.ok.inj (hrun.parse_eq.symm.trans hparse)
    rw [build_invocationRange hrest hrun.parse_patched hparse' index
      (by rwa [hrun.recoded.invocations_size_eq]), hrun.recoded.invocationRange_eq hindex]

/-- A patch refuses targets that are not distinct. -/
theorem distinct_of_patchGraph {image graphBlob output : View} {targets : GroupTargets}
    {step : PatchStep} (hstep : patchStep image targets = some step)
    (h : step.patchGraph graphBlob = .ok output) : DistinctTargets targets := by
  obtain ⟨layout, details, plan, hrun, -⟩ := PatchStep.exists_run h
  have hselections : selections targets = details.map fun detail =>
      (detail.invocationIndex, detail.rangeIndex) :=
    (patchStep_spec hstep).2.symm.trans hrun.details_of.selections_eq.symm
  rw [distinctTargets_iff, hselections, List.map_map, List.map_map]
  exact ⟨List.pairwise_map.2 (hrun.details_of.distinct.imp And.left),
    List.pairwise_map.2 (hrun.details_of.distinct.imp And.right)⟩

theorem build_distinct {libraries : BuildLibraries} {image : List UInt8 → View} :
    ∀ {entries : List (Kernel × GroupTargets)} {steps : List PatchStep} {graphBlob final : View},
      List.Forall₂ (StepOf libraries image) entries steps → build steps graphBlob = .ok final →
        ∀ entry ∈ entries, DistinctTargets entry.2
  | _, _, _, _, .nil, _ => by simp
  | _, _, _, _, .cons ⟨elf, _, hstep⟩ hsteps, hbuild => by
    obtain ⟨output, hpatch, hrest⟩ := build_cons_eq_ok_iff.1 hbuild
    exact List.forall_mem_cons.2
      ⟨distinct_of_patchGraph hstep hpatch, build_distinct hsteps hrest⟩

/-! ## Plans -/

/-- In the final graph every target designates the image. -/
structure Designates (layout : GraphLayout) (image : View) (targets : GroupTargets) : Prop where
  selects : ∀ target ∈ targets, invocationRange layout target.invocationIndex = target.rangeIndex
  extent : ∀ target ∈ targets, codeExtent layout target.rangeIndex = image.size
  code : ∀ target ∈ targets, designatedCode layout target.rangeIndex =
    some (slice image.data 0 image.size)

/-- The ranges of a list of entries are distinct between entries. -/
def ApartRanges (entries : List (Kernel × GroupTargets)) : Prop :=
  entries.Pairwise fun left right => List.Disjoint
    (left.2.map PatchTargetContract.rangeIndex) (right.2.map PatchTargetContract.rangeIndex)

/-- A chain on disjoint ranges puts every image where its targets are. -/
theorem designates_of_build {libraries : BuildLibraries} {image : List UInt8 → View}
    {entries : List (Kernel × GroupTargets)} {steps : List PatchStep} {graphBlob final : View}
    (hsteps : List.Forall₂ (StepOf libraries image) entries steps) (hapart : ApartRanges entries)
    (hbuild : build steps graphBlob = .ok final) :
    ∀ entry ∈ entries, ∃ layout elf, parseGraph final = .ok layout ∧
      entry.1.elf libraries = .ok elf ∧ Designates layout (image elf) entry.2 := by
  intro entry hentry
  obtain ⟨step, hstep, elf, helf, hpatch⟩ := exists_of_forall₂ hsteps hentry
  obtain ⟨himage, hselections⟩ := patchStep_spec hpatch
  obtain ⟨layout, hparse⟩ : ∃ layout, parseGraph graphBlob = .ok layout := by
    cases steps with
    | nil => cases hstep
    | cons first rest =>
      obtain ⟨output, hfirst, -⟩ := build_cons_eq_ok_iff.1 hbuild
      obtain ⟨layout, details, plan, hrun, -⟩ := PatchStep.exists_run hfirst
      exact ⟨layout, hrun.parse_eq⟩
  have hdisjoint : steps.Pairwise fun left right => ∀ r, left.Selects r → ¬right.Selects r := by
    refine pairwise_of_forall₂ (fun _ _ _ _ hleft hright hne r => ?_) hsteps hapart
    obtain ⟨_, _, hleft⟩ := hleft
    obtain ⟨_, _, hright⟩ := hright
    rw [patchStep_selects hleft, patchStep_selects hright]
    exact fun hr hr' => hne hr hr'
  obtain ⟨layout', hparse', hafter⟩ := build_rangeAfter hbuild hparse hdisjoint
  have hfinal : ∀ target ∈ entry.2,
      invocationRange layout' target.invocationIndex = target.rangeIndex ∧
        codeExtent layout' target.rangeIndex = (image elf).size ∧
        designatedCode layout' target.rangeIndex =
          some (slice (image elf).data 0 (image elf).size) := by
    intro target htarget
    have hselection : (target.invocationIndex, target.rangeIndex) ∈ step.selections := by
      rw [hselections]
      exact List.mem_map_of_mem htarget
    obtain ⟨hinvocation, hrange, hlt⟩ := build_selections hbuild hparse step hstep _ hselection
    have hselects : step.Selects target.rangeIndex :=
      (patchStep_selects hpatch).2 (List.mem_map_of_mem htarget)
    have hpatched := (hafter _ hlt).patched step hstep hselects
    rw [himage] at hpatched
    exact ⟨(build_invocationRange hbuild hparse hparse' _ hinvocation).trans hrange, hpatched⟩
  exact ⟨layout', elf, hparse', helf, fun target h => (hfinal target h).1,
    fun target h => (hfinal target h).2.1, fun target h => (hfinal target h).2.2⟩

/-- The groups of a prepared graph were discovered in the graph, as `prepare` does. -/
structure PreparedGraph.DiscoveredIn (prepared : PreparedGraph) (graph : View) : Prop where
  discovers : DiscoversNatively prepared.libraries prepared.irProvenance.graphBlob graph
  discovered : ∃ automatic, discoverPreparedContract prepared.libraries prepared.graph
    prepared.irProvenance.graphBlob prepared.embeddedTargets = .ok (prepared.discovered, automatic)

/-- `prepare` discovers the groups in the compiled blob. -/
theorem discoveredIn_of_prepare {libraries : NativeLibraries} {graph : Graph}
    {patchTargets : NodeId → Option GroupTargets} {buildFlags : String} {prepared : PreparedGraph}
    {view : View} (h : prepare libraries graph patchTargets buildFlags = .ok prepared)
    (hdiscovers : DiscoversNatively libraries prepared.irProvenance.graphBlob view) :
    prepared.DiscoveredIn view := by
  unfold prepare at h
  split at h
  · cases h
  · obtain ⟨flags, -, h⟩ := bind_eq_ok_iff.1 h
    obtain ⟨embedded, -, h⟩ := bind_eq_ok_iff.1 h
    obtain ⟨-, h⟩ := refuseIf_bind_eq_ok_iff.1 h
    obtain ⟨result, -, h⟩ := bind_eq_ok_iff.1 h
    obtain ⟨-, h⟩ := refuseIf_bind_eq_ok_iff.1 h
    obtain ⟨⟨groups, automatic⟩, hgroups, h⟩ := bind_eq_ok_iff.1 h
    cases h
    exact ⟨hdiscovers, automatic, hgroups⟩

/-- What a plan and its builds do with the targets. -/
structure PlannedTargets (prepared : PreparedGraph) (plan : BuildPlan) (graph : View) : Prop where
  /-- The targets of discovered groups are distinct, within a node and between nodes. -/
  discovered : prepared.embeddedTargets = none → DistinctTargets plan.targetGroups.flatten
  /-- Embedded targets are taken as they are. -/
  embedded : ∀ targets, prepared.embeddedTargets = some targets → plan.targetGroups = targets
  /-- A build refuses targets of one node that are not distinct. -/
  within : ∀ libraries view image program, PatchesNatively libraries view image →
    view prepared.irProvenance.graphBlob = graph → plan.build libraries = .ok program →
      ∀ entry ∈ plan.kernels.zip plan.targetGroups, DistinctTargets entry.2
  /-- If no range goes to two nodes, every target designates the image of its node. -/
  designated : ∀ libraries view image program, PatchesNatively libraries view image →
    view prepared.irProvenance.graphBlob = graph → plan.build libraries = .ok program →
      prepared.embeddedTargets = none ∨ ApartRanges (plan.kernels.zip plan.targetGroups) →
        ∀ entry ∈ plan.kernels.zip plan.targetGroups, ∃ layout elf,
          parseGraph (view program.graphBlob) = .ok layout ∧
            entry.1.elf libraries = .ok elf ∧ Designates layout (image elf) entry.2

/-- Entries with distinct targets have distinct ranges. -/
theorem apartRanges_zip {kernels : List Kernel} {groups : List GroupTargets}
    (h : DistinctTargets groups.flatten) : ApartRanges (kernels.zip groups) := by
  have hranges := h.ranges
  rw [List.map_flatten, List.nodup_flatten, List.pairwise_map] at hranges
  refine List.pairwise_iff_getElem.2 fun i j hi hj hlt => ?_
  rw [List.getElem_zip, List.getElem_zip]
  exact List.pairwise_iff_getElem.1 hranges.2 i j _ _ hlt

/-- The chain of a build. -/
theorem build_steps {libraries : BuildLibraries} {view image : List UInt8 → View}
    {plan : BuildPlan} {program : Program} (hpatches : PatchesNatively libraries view image)
    (h : plan.build libraries = .ok program) :
    ∃ steps, List.Forall₂ (StepOf libraries image) (plan.kernels.zip plan.targetGroups) steps ∧
      build steps (view plan.prepared.irProvenance.graphBlob) = .ok (view program.graphBlob) := by
  obtain ⟨state, hstate, h⟩ := bind_eq_ok_iff.1 h
  obtain ⟨inputs, -, hprogram⟩ := bind_eq_ok_iff.1 (mapError_eq_ok_iff.1 h)
  obtain ⟨steps, hsteps, hbuild⟩ := patchAll_steps hpatches (by simp [CacheHolds])
    (mapError_eq_ok_iff.1 hstate)
  cases hprogram
  exact ⟨steps, hsteps, hbuild⟩

/-- The targets of a plan. -/
theorem planned_targets (prepared : PreparedGraph) (graph : View)
    (hdiscovered : prepared.DiscoveredIn graph) (digest : List UInt8 → String)
    (files : KernelFiles) (bindings : List (Tensor × BindingValue)) (arguments : KernelArguments)
    (plan : BuildPlan) (h : prepared.plan digest files bindings arguments = .ok plan) :
    PlannedTargets prepared plan graph := by
  obtain ⟨found, hfound, h⟩ := bind_eq_ok_iff.1 h
  obtain ⟨kernels, -, h⟩ := bind_eq_ok_iff.1 h
  cases h
  rw [mapError_eq_ok_iff] at hfound
  obtain ⟨hdiscovers, automatic, hgroups⟩ := hdiscovered
  have hdistinct : prepared.embeddedTargets = none → DistinctTargets found.targets.flatten := by
    intro hembedded
    obtain ⟨hnodup, picked, hpicked, hselections⟩ :=
      resolveBindings_selections hembedded hfound
    exact ((distinctTargets_discovered hdiscovers hgroups).pick hnodup hpicked).congr hselections
  refine ⟨hdistinct, fun targets hembedded => ?_, ?_, ?_⟩
  · rw [PreparedGraph.resolveBindings, hembedded, refuseIf_bind_eq_ok_iff] at hfound
    cases hfound.2
    rfl
  · rintro libraries view image program hpatches rfl hbuild
    obtain ⟨steps, hsteps, hchain⟩ := build_steps hpatches hbuild
    exact build_distinct hsteps hchain
  · rintro libraries view image program hpatches rfl hbuild hapart
    obtain ⟨steps, hsteps, hchain⟩ := build_steps hpatches hbuild
    refine designates_of_build hsteps ?_ hchain
    exact hapart.elim (fun hembedded => apartRanges_zip (hdistinct hembedded)) id

/-! ## Examples -/

/-- The example graph with two operations, each of one invocation on 16 elements. -/
def splitGraph : ExampleGraph :=
  { elementCount := 16, secondOperation := 1 }

/-- The version 1 target of an operation. -/
def splitTarget (index : ℕ) : PatchblobTarget :=
  { exampleTarget index with expectedElementCount := 16, expectedSpanBytes := 32 }

/-- `splitTarget` in version 2. -/
def splitActTarget (index : ℕ) : ActTargetV2 where
  invocationIndex := index
  rangeIndex := index
  tensors := [⟨.input, 0, .f16, 16, 32, 0x07⟩, ⟨.output, 0, .f16, 16, 32, 0x0f⟩]
  targetFlags := 0
  one_output := by decide

/-- Libraries that compile every carrier to one blob, whose two invocations are two groups. -/
def pairLibraries : NativeLibraries where
  discoverPatchTargets _ := .ok [[splitTarget 0], [splitTarget 1]]
  discoverPatchTargetsV2 _ := .ok [[splitActTarget 0], [splitActTarget 1]]
  inspectExactRelations _ := .ok []
  inspectGraphIoSymbols _ := .ok []
  inspectGroupCoverage _ := .ok []
  compareGraphs _ _ := .ok ⟨0, [], true, false⟩
  compileIr _ _ := .ok ⟨[1], 0, 0, 1, 0x8086, 0x7d1d, 1, (8, 3)⟩
  queryIrProvenance := .ok ⟨[], 0, 0, 1, 0x8086, 0x7d1d, 1, (8, 3)⟩

/-- Every node has one linked kernel. -/
def linkedArguments : KernelArguments where
  metadata _ := some (.kernel (.compiled ⟨[0x7f]⟩))
  kernels := []
  definitions := []
  linkerScript := none

def pairPrepared : PreparedGraph :=
  (prepare pairLibraries pairGraph (fun _ => none) "").toOption.get (by decide +kernel)

/-- Each node takes the group of the other one's invocation. -/
def crossedBindings : List (Tensor × BindingValue) :=
  [(customNode.firstOutput 1, .items [.index 1]), (nextNode.firstOutput 2, .items [.index 0])]

def pairPlan : BuildPlan :=
  (pairPrepared.plan (fun _ => "") (fun _ => none) crossedBindings linkedArguments).toOption.get
    (by decide +kernel)

theorem ok_of_toOption {ε α : Type} {result : Except ε α} {value : α}
    (h : result.toOption = some value) : result = .ok value := by
  cases result with
  | error _ => cases h
  | ok _ => rw [Option.some.inj h]

theorem pairLibraries_discover :
    DiscoversNatively pairLibraries [1] splitGraph.view where
  version1 := by
    rintro groups ⟨⟩
    have hread : ((discoverGraphTargets splitGraph.view).toOption.bind (readGroups some)) =
        some [[splitTarget 0], [splitTarget 1]] := by
      decide +kernel
    obtain ⟨answer, hanswer, hgroups⟩ := Option.bind_eq_some_iff.1 hread
    exact ⟨answer, ok_of_toOption hanswer, hgroups⟩
  version2 := by
    rintro groups ⟨⟩
    have hread : ((discoverGraphTargetsV2 splitGraph.view).toOption.bind
        (readGroups readActTarget)) = some [[splitActTarget 0], [splitActTarget 1]] := by
      decide +kernel
    obtain ⟨answer, hanswer, hgroups⟩ := Option.bind_eq_some_iff.1 hread
    exact ⟨answer, ok_of_toOption hanswer, hgroups⟩

theorem pairPrepared_eq :
    prepare pairLibraries pairGraph (fun _ => none) "" = .ok pairPrepared :=
  ok_of_toOption (Option.some_get _).symm

/-- Two custom nodes are bound to the targets of two groups. -/
theorem planned_targets_pairGraph :
    pairPlan.targetGroups = [[.legacy (splitTarget 1)], [.legacy (splitTarget 0)]] ∧
      PlannedTargets pairPrepared pairPlan splitGraph.view := by
  refine ⟨by decide +kernel, ?_⟩
  exact planned_targets pairPrepared _
    (discoveredIn_of_prepare pairPrepared_eq pairLibraries_discover)
    (fun _ => "") (fun _ => none) crossedBindings linkedArguments pairPlan
    (ok_of_toOption (Option.some_get _).symm)

/-- A second custom node that reads the output of node 0. -/
def secondNode : Node :=
  { customNode with name := some "z" }

def forkGraph : Graph :=
  (Graph.init (.ofNodes [parameterNode, customNode, secondNode] (by decide)) 2 customGraph.inputs
    [customNode.firstOutput 1, secondNode.firstOutput 2] "fork"
      (by decide) (by decide)).toOption.get (by decide)

/-- Both nodes carry the first target. -/
def forkTargets (_ : NodeId) : Option GroupTargets :=
  some [.legacy (exampleTarget 0)]

def forkPrepared : PreparedGraph :=
  (prepare pairLibraries forkGraph forkTargets "").toOption.get (by decide +kernel)

def forkPlan : BuildPlan :=
  (forkPrepared.plan (fun _ => "") (fun _ => none) [] linkedArguments).toOption.get
    (by decide +kernel)

/-- A plan gives one embedded target to two nodes. -/
theorem embedded_targets_twice :
    prepare pairLibraries forkGraph forkTargets "" = .ok forkPrepared ∧
      forkPrepared.plan (fun _ => "") (fun _ => none) [] linkedArguments = .ok forkPlan ∧
      forkPrepared.customNodes = [1, 2] ∧
      forkPlan.targetGroups = [[.legacy (exampleTarget 0)], [.legacy (exampleTarget 0)]] ∧
      ¬DistinctTargets forkPlan.targetGroups.flatten := by
  have hcustom : forkPrepared.customNodes = [1, 2] := by
    decide +kernel
  have htargets : forkPlan.targetGroups =
      [[.legacy (exampleTarget 0)], [.legacy (exampleTarget 0)]] := by
    decide +kernel
  refine ⟨ok_of_toOption (Option.some_get _).symm, ok_of_toOption (Option.some_get _).symm,
    hcustom, htargets, fun hdistinct => ?_⟩
  rw [htargets] at hdistinct
  exact absurd hdistinct.invocations (by decide)

end Npunlock
