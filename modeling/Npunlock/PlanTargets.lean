import Npunlock.BuildPlan
import Npunlock.Sequence

/-!
# Targets of a plan

`PreparedGraph.plan` gives every custom node its targets. Targets of discovered groups keep
the indices of the records they come from (`resolveBindings_selections`), and discovery lists
every invocation and every range once, so that no two nodes of such a plan share a target.
Embedded targets go into the plan as they are.
-/

namespace Npunlock

/-! ## Indices of targets -/

namespace PatchTargetContract

def invocationIndex : PatchTargetContract → ℕ
  | .legacy target => target.invocationIndex
  | .versioned target => target.invocationIndex

def rangeIndex : PatchTargetContract → ℕ
  | .legacy target => target.rangeIndex
  | .versioned target => target.rangeIndex

end PatchTargetContract

/-- The invocations and ranges of targets. -/
def selections (targets : GroupTargets) : List (ℕ × ℕ) :=
  targets.map fun target => (target.invocationIndex, target.rangeIndex)

@[simp]
theorem selections_append (first second : GroupTargets) :
    selections (first ++ second) = selections first ++ selections second :=
  List.map_append

/-- No invocation and no range occurs twice. -/
structure DistinctTargets (targets : GroupTargets) : Prop where
  invocations : (targets.map PatchTargetContract.invocationIndex).Nodup
  ranges : (targets.map PatchTargetContract.rangeIndex).Nodup

theorem distinctTargets_iff {targets : GroupTargets} : DistinctTargets targets ↔
    ((selections targets).map Prod.fst).Nodup ∧ ((selections targets).map Prod.snd).Nodup := by
  rw [selections, List.map_map, List.map_map]
  exact ⟨fun h => ⟨h.invocations, h.ranges⟩, fun h => ⟨h.1, h.2⟩⟩

/-- Targets with the indices of distinct targets are distinct. -/
theorem DistinctTargets.congr {targets targets' : GroupTargets} (h : DistinctTargets targets)
    (heq : selections targets' = selections targets) : DistinctTargets targets' := by
  rw [distinctTargets_iff] at h ⊢
  rwa [heq]

/-! ## Selected targets -/

/-- A projected target keeps its indices. -/
theorem legacyTarget_indices {target : PatchTargetV2} {projected : PatchblobTarget}
    (h : legacyTarget target = some projected) :
    projected.invocationIndex = target.invocationIndex ∧
      projected.rangeIndex = target.rangeIndex := by
  unfold legacyTarget at h
  dsimp only at h
  rw [Option.ite_none_left_eq_some] at h
  obtain ⟨-, h⟩ := h
  split at h
  · rw [Option.ite_none_left_eq_some, Option.ite_none_left_eq_some,
      Option.ite_none_left_eq_some, Option.map_eq_some_iff] at h
    obtain ⟨-, -, -, scalar, -, rfl⟩ := h
    exact ⟨rfl, rfl⟩
  · cases h

/-- Where the elements of a list are read by `f`, and `g` undoes it. -/
theorem eq_map_of_mapM {α β : Type} {f : α → Option β} {g : β → α}
    (hg : ∀ a b, f a = some b → g b = a) {l : List α} {l' : List β} (h : l.mapM f = some l') :
    l = l'.map g := by
  have hmap := map_eq_map_of_forall₂ (f := id) hg (mapM_eq_some_iff.1 h)
  rw [hmap, List.map_id]

theorem asLegacy_eq_some {target : PatchTargetContract} {legacy : PatchblobTarget} :
    target.asLegacy = some legacy → .legacy legacy = target := by
  cases target <;> simp [PatchTargetContract.asLegacy, eq_comm]

theorem asVersioned_eq_some {target : PatchTargetContract} {versioned : ActTargetV2} :
    target.asVersioned = some versioned → .versioned versioned = target := by
  cases target <;> simp [PatchTargetContract.asVersioned, eq_comm]

/-- The choice of the version does not change the indices. -/
theorem selections_patchTargets (targets : GroupTargets) :
    selections (PreparedGraph.patchTargets targets) = selections targets := by
  unfold PreparedGraph.patchTargets
  split
  · rfl
  · rename_i versioned hversioned
    split
    · rfl
    · rename_i legacy hlegacy
      split_ifs
      · rfl
      · rw [eq_map_of_mapM (fun _ _ => asVersioned_eq_some) hversioned, selections, selections,
          List.map_map, List.map_map]
        have hforall := List.forall₂_map_left_iff.1 (mapM_eq_some_iff.1 hlegacy)
        refine map_eq_map_of_forall₂ (fun target projected h => ?_) hforall
        obtain ⟨hinvocation, hrange⟩ := legacyTarget_indices h
        exact Prod.ext hinvocation hrange

/-- Combined targets are the targets of the groups. -/
theorem combinedTargets_eq {node : Node} {groups : List GroupTargets} {targets : GroupTargets}
    (h : combinedTargets node groups = some targets) : targets = groups.flatten := by
  unfold combinedTargets at h
  split at h
  · rename_i legacy hlegacy
    obtain ⟨combined, hcombined, rfl⟩ := Option.map_eq_some_iff.1 h
    rw [eq_map_of_mapM (g := List.map PatchTargetContract.legacy)
      (fun _ _ hgroup => (eq_map_of_mapM (fun _ _ => asLegacy_eq_some) hgroup).symm) hlegacy,
      ← List.map_flatten]
    unfold combinedCustomTargets at hcombined
    dsimp only at hcombined
    rw [Option.ite_none_left_eq_some] at hcombined
    replace hcombined := hcombined.2
    split at hcombined
    · cases hcombined
    · cases hcombined
    · simp only [Option.ite_none_left_eq_some, Option.some.injEq] at hcombined
      rw [hcombined.2.2.2.2.2]
  · rename_i versioned _ hversioned
    obtain ⟨combined, hcombined, rfl⟩ := Option.map_eq_some_iff.1 h
    rw [eq_map_of_mapM (g := List.map PatchTargetContract.versioned)
      (fun _ _ hgroup => (eq_map_of_mapM (fun _ _ => asVersioned_eq_some) hgroup).symm) hversioned,
      ← List.map_flatten]
    unfold combinedHybridPerRowTargetsV2 at hcombined
    simp only [Option.ite_none_left_eq_some, Option.some.injEq] at hcombined
    rw [hcombined.2.2.2.2]
  · cases h

/-! ## Resolved targets -/

section Resolved

variable {prepared : PreparedGraph}

/-- The targets of a node have the indices of the groups it is bound to. -/
theorem selectTargets_selections {id : NodeId} {indices : List ℕ} {targets : GroupTargets}
    (h : prepared.selectTargets id indices = .ok targets) :
    ∃ groups, List.Forall₂ (fun index group => prepared.discovered[index]? = some group)
        indices groups ∧
      selections targets = selections groups.flatten := by
  obtain ⟨groups, hgroups, hselect⟩ := bind_eq_ok_iff.1 h
  have hforall : List.Forall₂ (fun index group => prepared.discovered[index]? = some group)
      indices groups := by
    refine (mapM_eq_ok_iff.1 hgroups).imp fun index group hgroup => ?_
    rw [PreparedGraph.groupTargets, prepared.getElem?_groups] at hgroup
    cases hdiscovered : prepared.discovered[index]? with
    | none =>
      rw [hdiscovered] at hgroup
      cases hgroup
    | some targets =>
      rw [hdiscovered] at hgroup
      cases hgroup
      rfl
  refine ⟨groups, hforall, ?_⟩
  split at hselect
  · split at hselect
    · cases hselect
    · cases hselect
      rw [selections_patchTargets, List.flatten_cons, List.flatten_nil, List.append_nil]
  · split at hselect
    · rename_i combined hcombined
      cases hselect
      rw [combinedTargets_eq hcombined]
    · cases hselect

/-- Groups are noted once. -/
theorem useGroups_nodup {id : NodeId} {used used' : List (ℕ × NodeId)} {indices : List ℕ}
    (h : prepared.useGroups id used indices = .ok used') (hnodup : (used.map Prod.fst).Nodup) :
    used'.map Prod.fst = used.map Prod.fst ++ indices ∧ (used'.map Prod.fst).Nodup := by
  induction indices generalizing used with
  | nil =>
    cases h
    exact ⟨by simp, hnodup⟩
  | cons index indices ih =>
    obtain ⟨next, hnext, hrest⟩ := bind_eq_ok_iff.1 h
    dsimp only at hnext
    split at hnext
    · cases hnext
    · rename_i hlookup
      cases hnext
      rw [List.lookup_eq_none_iff] at hlookup
      have hfresh : index ∉ used.map Prod.fst := by
        intro hmem
        obtain ⟨entry, hentry, rfl⟩ := List.mem_map.1 hmem
        simpa using hlookup entry hentry
      have hnodup' : ((used ++ [(index, id)]).map Prod.fst).Nodup := by
        rw [List.map_append, List.map_singleton, List.nodup_append]
        refine ⟨hnodup, by simp, ?_⟩
        rintro a ha b hb rfl
        obtain rfl := List.mem_singleton.1 hb
        exact hfresh ha
      obtain ⟨heq, hfinal⟩ := ih hrest hnodup'
      exact ⟨by rw [heq]; simp, hfinal⟩

/-- What the loop over the custom nodes has found. -/
structure Resolved (prepared : PreparedGraph)
    (found : ResolvedBindings × List (ℕ × NodeId)) : Prop where
  used : found.2.map Prod.fst = found.1.indices.flatten
  nodup : found.1.indices.flatten.Nodup
  targets : ∃ groups, List.Forall₂ (fun index group => prepared.discovered[index]? = some group)
      found.1.indices.flatten groups ∧
    selections found.1.targets.flatten = selections groups.flatten

theorem Resolved.step {chosen : List PreparedGraph.BoundNode}
    {found found' : ResolvedBindings × List (ℕ × NodeId)} {id : NodeId}
    (h : Resolved prepared found) (hstep : prepared.resolveNode chosen found id = .ok found') :
    Resolved prepared found' := by
  unfold PreparedGraph.resolveNode at hstep
  split at hstep
  · cases hstep
  · rename_i indices review _
    obtain ⟨used, hused, hstep⟩ := bind_eq_ok_iff.1 hstep
    obtain ⟨targets, htargets, hstep⟩ := bind_eq_ok_iff.1 hstep
    cases hstep
    obtain ⟨groups, hgroups, hselections⟩ := h.targets
    obtain ⟨more, hmore, hselected⟩ := selectTargets_selections htargets
    obtain ⟨heq, hnodup⟩ := useGroups_nodup hused (by rw [h.used]; exact h.nodup)
    rw [h.used] at heq
    refine ⟨?_, ?_, groups ++ more, ?_, ?_⟩
    · rw [heq, List.flatten_append, List.flatten_singleton]
    · rwa [List.flatten_append, List.flatten_singleton, ← heq]
    · rw [List.flatten_append, List.flatten_singleton]
      exact List.rel_append hgroups hmore
    · rw [List.flatten_append, List.flatten_singleton, List.flatten_append, selections_append,
        selections_append, hselections, hselected]

/-- Every group is bound to one node, and the targets have the indices of these groups. -/
theorem resolveBindings_selections {digest : List UInt8 → String}
    {bindings : List (Tensor × BindingValue)} {found : ResolvedBindings}
    (hembedded : prepared.embeddedTargets = none)
    (h : prepared.resolveBindings digest bindings = .ok found) :
    found.indices.flatten.Nodup ∧
      ∃ groups, List.Forall₂ (fun index group => prepared.discovered[index]? = some group)
          found.indices.flatten groups ∧
        selections found.targets.flatten = selections groups.flatten := by
  rw [PreparedGraph.resolveBindings, hembedded] at h
  obtain ⟨bound, -, h⟩ := bind_eq_ok_iff.1 h
  dsimp only at h
  rw [refuseIf_bind_eq_ok_iff] at h
  obtain ⟨resolved, hresolved, hfound⟩ := bind_eq_ok_iff.1 h.2
  cases hfound
  have hinv : Resolved prepared resolved :=
    foldlM_inv (Resolved prepared) (fun _ _ _ => Resolved.step)
      ⟨rfl, by simp, [], .nil, rfl⟩ hresolved
  exact ⟨hinv.nodup, hinv.targets⟩

end Resolved

/-! ## Distinct groups -/

/-- Elements related to different elements of a list. -/
theorem pairwise_of_forall₂ {α β : Type} {R : α → β → Prop} {P : α → α → Prop} {Q : β → β → Prop}
    (hPQ : ∀ a a' b b', R a b → R a' b' → P a a' → Q b b') :
    ∀ {l : List α} {l' : List β}, List.Forall₂ R l l' → l.Pairwise P → l'.Pairwise Q
  | _, _, .nil, _ => .nil
  | _, _, .cons hhead htail, h => by
    obtain ⟨hfirst, hrest⟩ := List.pairwise_cons.1 h
    refine List.pairwise_cons.2 ⟨fun b hb => ?_, pairwise_of_forall₂ hPQ htail hrest⟩
    obtain ⟨a, ha, hab⟩ := exists_of_forall₂ htail.flip hb
    exact hPQ _ _ _ _ hhead hab (hfirst a ha)

/-- Lists picked from lists without common elements have none. -/
theorem nodup_flatten_pick {α : Type} {lists picked : List (List α)} {indices : List ℕ}
    (h : lists.flatten.Nodup) (hindices : indices.Nodup)
    (hpicked : List.Forall₂ (fun index list => lists[index]? = some list) indices picked) :
    picked.flatten.Nodup := by
  obtain ⟨hnodup, hdisjoint⟩ := List.nodup_flatten.1 h
  refine List.nodup_flatten.2 ⟨fun list hlist => ?_, ?_⟩
  · obtain ⟨index, -, hget⟩ := exists_of_forall₂ hpicked.flip hlist
    exact hnodup list (List.mem_of_getElem? hget)
  · refine pairwise_of_forall₂ (fun index index' _ _ hget hget' hne => ?_) hpicked hindices
    obtain ⟨hlt, rfl⟩ := List.getElem?_eq_some_iff.1 hget
    obtain ⟨hlt', rfl⟩ := List.getElem?_eq_some_iff.1 hget'
    rw [List.pairwise_iff_getElem] at hdisjoint
    rcases lt_or_gt_of_ne hne with hless | hless
    · exact hdisjoint _ _ hlt hlt' hless
    · exact (hdisjoint _ _ hlt' hlt hless).symm

/-- Targets of different groups are distinct, if all groups together are. -/
theorem DistinctTargets.pick {groups picked : List GroupTargets} {indices : List ℕ}
    (h : DistinctTargets groups.flatten) (hindices : indices.Nodup)
    (hpicked : List.Forall₂ (fun index group => groups[index]? = some group) indices picked) :
    DistinctTargets picked.flatten := by
  have hmap : ∀ f : PatchTargetContract → ℕ, (groups.flatten.map f).Nodup →
      (picked.flatten.map f).Nodup := by
    intro f hnodup
    rw [List.map_flatten] at hnodup ⊢
    refine nodup_flatten_pick hnodup hindices (List.forall₂_map_right_iff.2 ?_)
    refine hpicked.imp fun index group hgroup => ?_
    rw [List.getElem?_map, hgroup, Option.map_some]
  exact ⟨hmap _ h.invocations, hmap _ h.ranges⟩

/-! ## Discovered groups -/

/-- The groups that the front end makes of the records of a discovery. -/
def readGroups {τ σ : Type} (read : τ → Option σ) (answer : List (DiscoveredTarget τ) × ℕ) :
    Option (List (List σ)) :=
  if ∃ record ∈ answer.1, answer.2 ≤ record.groupIndex then none
  else
    match (List.range answer.2).mapM fun index => (groupTargets answer.1 index).mapM read with
    | some groups => if groups.any List.isEmpty then none else some groups
    | none => none

/-- A version 2 target of `discover_patch_targets_v2`. -/
def readActTarget (target : PatchblobTargetV2) : Option ActTargetV2 :=
  (readTarget target).bind fun read =>
    if h : (tensorsOfRole .output read.tensors).length = 1 then some ⟨read, h⟩ else none

/-- The libraries discover in the blob what the native code discovers in the graph. -/
structure DiscoversNatively (libraries : NativeLibraries) (blob : List UInt8) (graph : View) :
    Prop where
  version1 : ∀ groups, libraries.discoverPatchTargets blob = .ok groups →
    ∃ answer, discoverGraphTargets graph = .ok answer ∧ readGroups some answer = some groups
  version2 : ∀ groups, libraries.discoverPatchTargetsV2 blob = .ok groups →
    ∃ answer, discoverGraphTargetsV2 graph = .ok answer ∧
      readGroups readActTarget answer = some groups

/-- The elements of a list by their keys. -/
theorem nodup_flatten_filter {α : Type} {key : α → ℕ} {l : List α} (h : l.Nodup) (n : ℕ) :
    ((List.range n).map fun index => l.filter fun a => key a = index).flatten.Nodup := by
  refine List.nodup_flatten.2 ⟨?_, ?_⟩
  · intro part hpart
    obtain ⟨index, -, rfl⟩ := List.mem_map.1 hpart
    exact h.filter _
  · refine List.pairwise_map.2 (List.nodup_range.imp fun {first second} hne => ?_)
    intro a hfirst hsecond
    rw [List.mem_filter, decide_eq_true_eq] at hfirst hsecond
    exact hne (hfirst.2.symm.trans hsecond.2)

/-- Groups keep what distinguishes the records. -/
theorem nodup_groupTargets {τ β : Type} {records : List (DiscoveredTarget τ)} {f : τ → β}
    (h : (records.map fun record => f record.target).Nodup) (n : ℕ) :
    (((List.range n).map (groupTargets records)).flatten.map f).Nodup := by
  have hflatten : ((List.range n).map (groupTargets records)).flatten.map f =
      ((List.range n).map fun index =>
        records.filter fun record => record.groupIndex = index).flatten.map fun record =>
          f record.target := by
    rw [List.map_flatten, List.map_flatten, List.map_map, List.map_map]
    refine congrArg List.flatten (List.map_congr_left fun index _ => ?_)
    simp [groupTargets]
  rw [hflatten]
  refine (nodup_flatten_filter h.of_map n).map_on fun first hfirst second hsecond heq => ?_
  have hmem : ∀ {record}, record ∈ ((List.range n).map fun index =>
      records.filter fun record => record.groupIndex = index).flatten → record ∈ records := by
    intro record hrecord
    obtain ⟨part, hpart, hrecord⟩ := List.mem_flatten.1 hrecord
    obtain ⟨index, -, rfl⟩ := List.mem_map.1 hpart
    exact (List.mem_filter.1 hrecord).1
  exact List.inj_on_of_nodup_map h (hmem hfirst) (hmem hsecond) heq

/-- What distinguishes the records distinguishes the targets read from them. -/
theorem nodup_readGroups {τ σ β : Type} {read : τ → Option σ} {f : τ → β} {g : σ → β}
    (hread : ∀ target target', read target = some target' → g target' = f target)
    {answer : List (DiscoveredTarget τ) × ℕ} {groups : List (List σ)}
    (hgroups : readGroups read answer = some groups)
    (h : (answer.1.map fun record => f record.target).Nodup) : (groups.flatten.map g).Nodup := by
  unfold readGroups at hgroups
  split_ifs at hgroups
  split at hgroups
  · rename_i found hfound
    obtain rfl : found = groups := by
      split_ifs at hgroups
      exact Option.some.inj hgroups
    have hforall : List.Forall₂ (fun part group => group.map g = part.map f)
        ((List.range answer.2).map (groupTargets answer.1)) found := by
      refine List.forall₂_map_left_iff.2
        ((mapM_eq_some_iff.1 hfound).imp fun index group hgroup => ?_)
      exact map_eq_map_of_forall₂ hread (mapM_eq_some_iff.1 hgroup)
    have hmap := nodup_groupTargets h answer.2
    rw [List.map_flatten] at hmap ⊢
    rwa [map_eq_map_of_forall₂ (fun _ _ heq => heq) hforall]
  · cases hgroups

/-- Discovery lists every invocation and every range once. -/
theorem discovered_nodup (abi : Abi) {graph : View}
    {answer : List (DiscoveredTarget abi.Target) × ℕ}
    (h : discoverGraphTargetsWith abi.version graph = .ok answer) :
    (answer.1.map fun record => abi.version.invocationIndex record.target).Nodup ∧
      (answer.1.map fun record => abi.version.rangeIndex record.target).Nodup := by
  obtain ⟨layout, parameterBases, -, -, -, -, hrun⟩ :=
    (discoverGraphTargetsWith_spec abi.lawful graph).value _ h
  constructor
  · refine List.pairwise_map.2 (List.pairwise_iff_getElem.2 fun i j hi hj hlt heq => ?_)
    rw [hrun.index_eq i hi, hrun.index_eq j hj] at heq
    omega
  · refine List.pairwise_map.2 (List.pairwise_iff_getElem.2 fun i j hi hj hlt heq => ?_)
    have := hrun.ranges i j hi hj heq
    omega

theorem readActTarget_indices {target : PatchblobTargetV2} {read : ActTargetV2}
    (h : readActTarget target = some read) :
    read.invocationIndex = target.invocationIndex ∧ read.rangeIndex = target.rangeIndex := by
  obtain ⟨first, hfirst, hread⟩ := Option.bind_eq_some_iff.1 h
  obtain ⟨tensors, -, hfirst⟩ := Option.bind_eq_some_iff.1 hfirst
  cases hfirst
  split_ifs at hread
  cases hread
  exact ⟨rfl, rfl⟩

/-- The targets of all discovered groups are distinct. -/
theorem distinctTargets_discovered {libraries : NativeLibraries} {graph : Graph}
    {blob : List UInt8} {view : View} {embedded : Option (List GroupTargets)}
    {groups : List GroupTargets} {automatic : Option (List (List ℕ))}
    (hdiscovers : DiscoversNatively libraries blob view)
    (h : discoverPreparedContract libraries graph blob embedded = .ok (groups, automatic)) :
    DistinctTargets groups.flatten := by
  have hlegacy : ∀ {discovered : List (List PatchblobTarget)},
      libraries.discoverPatchTargets blob = .ok discovered →
        DistinctTargets (discovered.map (·.map PatchTargetContract.legacy)).flatten := by
    intro discovered hdiscovered
    obtain ⟨answer, hanswer, hread⟩ := hdiscovers.version1 _ hdiscovered
    obtain ⟨hinvocations, hranges⟩ := discovered_nodup .v1 hanswer
    constructor
    · rw [← List.map_flatten, List.map_map]
      exact nodup_readGroups (by rintro target _ ⟨⟩; rfl) hread hinvocations
    · rw [← List.map_flatten, List.map_map]
      exact nodup_readGroups (by rintro target _ ⟨⟩; rfl) hread hranges
  have hversioned : ∀ {discovered : List (List ActTargetV2)},
      libraries.discoverPatchTargetsV2 blob = .ok discovered →
        DistinctTargets (discovered.map (·.map PatchTargetContract.versioned)).flatten := by
    intro discovered hdiscovered
    obtain ⟨answer, hanswer, hread⟩ := hdiscovers.version2 _ hdiscovered
    obtain ⟨hinvocations, hranges⟩ := discovered_nodup .v2 hanswer
    constructor
    · rw [← List.map_flatten, List.map_map]
      exact nodup_readGroups (fun _ _ htarget => (readActTarget_indices htarget).1) hread
        hinvocations
    · rw [← List.map_flatten, List.map_map]
      exact nodup_readGroups (fun _ _ htarget => (readActTarget_indices htarget).2) hread hranges
  unfold discoverPreparedContract at h
  split_ifs at h
  · cases h
    exact ⟨List.nodup_nil, List.nodup_nil⟩
  · split at h
    · rename_i discovered hdiscovered
      cases h
      exact hlegacy hdiscovered
    · split_ifs at h
      split at h
      · cases h
      · rename_i discovered hdiscovered
        dsimp only at h
        split_ifs at h
        · cases h
          exact hversioned hdiscovered
        · cases h
          exact hversioned hdiscovered

end Npunlock
