import Mathlib.Data.List.Zip
import Npunlock.CompareSpec

/-!
# The comparison is an equivalence check

`npunlock_compare_graph_routing_observations` finds nothing between a graph and itself
(`compare_self`) and the same in both directions (`compare_comm`). The groups it lists are
those with changed code, in ascending order (`changedGroups_sorted`). A comparison that is
stable and lists no group says that the observations and the code are equal
(`unchanged_iff`), so such comparisons can be chained.
-/

namespace Npunlock

variable {a b c : GraphRoutingObservations}

/-! ## Symmetry -/

theorem codeEqual_iff {left right : InvocationRoutingObservation} :
    codeEqual left right = true ↔
      left.codeExtent = right.codeExtent ∧ left.codeSha256 = right.codeSha256 := by
  simp [codeEqual]

theorem codeEqual_comm (left right : InvocationRoutingObservation) :
    codeEqual left right = codeEqual right left := by
  rw [Bool.eq_iff_iff, codeEqual_iff, codeEqual_iff, eq_comm, @eq_comm _ left.codeSha256]

theorem sameStructure_comm : SameStructure a b ↔ SameStructure b a := by
  simp only [SameStructure, eq_comm]

theorem mem_zip_swap {pair : InvocationRoutingObservation × InvocationRoutingObservation} :
    pair.swap ∈ b.invocations.zip a.invocations ↔ pair ∈ a.invocations.zip b.invocations := by
  rw [← List.zip_swap, List.mem_map]
  constructor
  · rintro ⟨other, hother, heq⟩
    rwa [← Prod.swap_injective heq]
  · exact fun h => ⟨pair, h, rfl⟩

theorem groupHasCode_comm (ha : a.InGroups) (hb : b.InGroups) (equal : Bool) (groupIndex : ℕ) :
    groupHasCode a b equal groupIndex = groupHasCode b a equal groupIndex := by
  rw [Bool.eq_iff_iff, groupHasCode_iff ha, groupHasCode_iff hb]
  constructor
  all_goals
    rintro ⟨pair, hpair, hgroup, hgroup', hcode⟩
    exact ⟨pair.swap, mem_zip_swap.2 hpair, hgroup', hgroup, (codeEqual_comm _ _).trans hcode⟩

theorem changedGroups_comm (ha : a.InGroups) (hb : b.InGroups) :
    changedGroups a b = changedGroups b a := by
  unfold changedGroups
  by_cases h : SameStructure a b
  · rw [if_pos h, if_pos (sameStructure_comm.1 h), h.1]
    exact List.filter_congr fun groupIndex _ => groupHasCode_comm ha hb false groupIndex
  · rw [if_neg h, if_neg fun h' => h (sameStructure_comm.1 h')]

theorem invocationFlags_swap (ha : a.InGroups) (hb : b.InGroups)
    {pair : InvocationRoutingObservation × InvocationRoutingObservation}
    (hpair : pair ∈ a.invocations.zip b.invocations) :
    invocationFlags b pair.swap = invocationFlags a pair := by
  have hsame : sameGroup b pair.swap = sameGroup a pair := by
    rw [Bool.eq_iff_iff, sameGroup_iff hb (mem_zip_swap.2 hpair), sameGroup_iff ha hpair]
    exact eq_comm
  unfold invocationFlags
  simp only [hsame, Prod.fst_swap, Prod.snd_swap, ne_comm]

theorem structureFlags_comm (ha : a.InGroups) (hb : b.InGroups) :
    structureFlags a b = structureFlags b a := by
  unfold structureFlags
  by_cases h : SameStructure a b
  · have hinvocations : (b.invocations.zip a.invocations).map (invocationFlags b) =
        (a.invocations.zip b.invocations).map (invocationFlags a) := by
      rw [← List.zip_swap, List.map_map]
      exact List.map_congr_left fun pair hpair => invocationFlags_swap ha hb hpair
    rw [if_pos h, if_pos (sameStructure_comm.1 h), hinvocations, changedGroups_comm ha hb]
    simp only [groupHasCode_comm ha hb true]
  · rw [if_neg h, if_neg fun h' => h (sameStructure_comm.1 h')]

theorem tableFlags_comm (a b : GraphRoutingObservations) : tableFlags a b = tableFlags b a := by
  simp only [tableFlags, ne_comm]

/-- The comparison does not depend on which graph is the baseline. -/
theorem compare_comm (ha : a.InGroups) (hb : b.InGroups) :
    compareGraphRoutingObservations a b = compareGraphRoutingObservations b a := by
  unfold compareGraphRoutingObservations
  rw [structureFlags_comm ha hb, tableFlags_comm a b, changedGroups_comm ha hb]

/-! ## Changed groups -/

/-- Without a structure flag, the graphs have one structure, and every invocation is in the
same group of both. -/
theorem sameStructure_of_flag
    (h : (compareGraphRoutingObservations a b).mismatchFlags.testBit 0 = false) :
    SameStructure a b ∧
      ∀ pair ∈ a.invocations.zip b.invocations, sameGroup a pair = true := by
  have hflags : (structureFlags a b).testBit 0 = false := by
    have hor : (structureFlags a b ||| tableFlags a b).testBit 0 = false := h
    rw [Nat.testBit_or, Bool.or_eq_false_iff] at hor
    exact hor.1
  unfold structureFlags at hflags
  split_ifs at hflags with hstructure
  · refine ⟨hstructure, fun pair hpair => ?_⟩
    by_contra hsame
    rw [Nat.testBit_or, Bool.or_eq_false_iff, ← Bool.not_eq_true, testBit_orAll] at hflags
    refine hflags.1 ⟨_, List.mem_map_of_mem hpair, ?_⟩
    rw [invocationFlags, if_neg hsame]
    rfl
  · exact absurd hflags (by decide)

theorem changedGroups_sorted : (changedGroups a b).Pairwise (· < ·) := by
  unfold changedGroups
  split_ifs
  · exact List.pairwise_lt_range.filter _
  · exact List.Pairwise.nil

/-- Without a structure flag, the groups that are listed are those with changed code. -/
theorem mem_changedGroups_of_flag (ha : a.InGroups)
    (h : (compareGraphRoutingObservations a b).mismatchFlags.testBit 0 = false)
    (groupIndex : ℕ) :
    groupIndex ∈ (compareGraphRoutingObservations a b).changedGroupIndices ↔
      ∃ pair ∈ a.invocations.zip b.invocations, pair.1.groupIndex = groupIndex ∧
        ¬(pair.1.codeExtent = pair.2.codeExtent ∧ pair.1.codeSha256 = pair.2.codeSha256) := by
  obtain ⟨hstructure, hsame⟩ := sameStructure_of_flag h
  have hmem : groupIndex ∈ (compareGraphRoutingObservations a b).changedGroupIndices ↔
      GroupChanged a b groupIndex := mem_changedGroups ha
  rw [hmem]
  constructor
  · rintro ⟨-, pair, hpair, hgroup, -, hcode⟩
    refine ⟨pair, hpair, hgroup, ?_⟩
    rwa [← codeEqual_iff, Bool.not_eq_true]
  · rintro ⟨pair, hpair, hgroup, hcode⟩
    have hgroup' := (sameGroup_iff ha hpair).1 (hsame pair hpair)
    refine ⟨hstructure, pair, hpair, hgroup, hgroup'.trans hgroup, ?_⟩
    rwa [← codeEqual_iff, Bool.not_eq_true] at hcode

/-! ## Unchanged graphs -/

theorem NonCodeEqual.refl (a : GraphRoutingObservations) : NonCodeEqual a a :=
  ⟨rfl, rfl⟩

theorem NonCodeEqual.trans (h : NonCodeEqual a b) (h' : NonCodeEqual b c) : NonCodeEqual a c :=
  ⟨h.invocations.trans h'.invocations, h.tables.trans h'.tables⟩

theorem NonCodeEqual.length_eq (h : NonCodeEqual a b) :
    a.invocations.length = b.invocations.length := by
  simpa using congrArg List.length h.invocations

theorem NonCodeEqual.sameStructure (h : NonCodeEqual a b) : SameStructure a b := by
  have hgroups := congrArg (fun tables : GraphRoutingObservations => tables.groupCount) h.tables
  have htiles := congrArg (fun tables : GraphRoutingObservations => tables.tileCountObserved)
    h.tables
  exact ⟨hgroups, h.length_eq, htiles⟩

theorem NonCodeEqual.group_eq (h : NonCodeEqual a b)
    {pair : InvocationRoutingObservation × InvocationRoutingObservation}
    (hpair : pair ∈ a.invocations.zip b.invocations) :
    pair.2.groupIndex = pair.1.groupIndex := by
  have hcode := (map_eq_map_iff_zip h.length_eq).1 h.invocations pair hpair
  have hgroup := congrArg InvocationRoutingObservation.groupIndex hcode
  exact hgroup.symm

/-- No group has both an invocation whose code differs and one whose code is equal. -/
def NoPartialGroup (a b : GraphRoutingObservations) : Prop :=
  ¬∃ differs ∈ a.invocations.zip b.invocations, ∃ equal ∈ a.invocations.zip b.invocations,
    differs.1.groupIndex = equal.1.groupIndex ∧ codeEqual differs.1 differs.2 = false ∧
      codeEqual equal.1 equal.2 = true

/-- When the contract is stable. -/
theorem contractStable_iff_noPartialGroup (ha : a.InGroups) :
    (compareGraphRoutingObservations a b).contractStable = true ↔
      NonCodeEqual a b ∧ NoPartialGroup a b := by
  rw [contractStable_iff ha]
  refine and_congr_right fun hequal => ?_
  constructor
  · rintro hwhole ⟨differs, hdiffers, equal, hmem, hgroup, hcode, hcode'⟩
    have hchanged : GroupChanged a b equal.1.groupIndex :=
      ⟨hequal.sameStructure, differs, hdiffers, hgroup,
        (hequal.group_eq hdiffers).trans hgroup, hcode⟩
    rw [hwhole _ hchanged equal hmem rfl] at hcode'
    exact Bool.false_ne_true hcode'
  · rintro hnone groupIndex ⟨-, differs, hdiffers, hgroup, -, hcode⟩ pair hpair hpairGroup
    rw [← Bool.not_eq_true]
    exact fun hequalCode =>
      hnone ⟨differs, hdiffers, pair, hpair, hgroup.trans hpairGroup.symm, hcode, hequalCode⟩

/-- The comparison is stable and lists no group. -/
def Unchanged (a b : GraphRoutingObservations) : Prop :=
  (compareGraphRoutingObservations a b).contractStable = true ∧
    (compareGraphRoutingObservations a b).changedGroupIndices = []

/-- All observations are equal, and the code too. -/
theorem unchanged_iff (ha : a.InGroups) : Unchanged a b ↔ NonCodeEqual a b ∧
    a.invocations.map (fun invocation => (invocation.codeExtent, invocation.codeSha256)) =
      b.invocations.map fun invocation => (invocation.codeExtent, invocation.codeSha256) := by
  have hlisted : (compareGraphRoutingObservations a b).changedGroupIndices = [] ↔
      ∀ groupIndex, ¬GroupChanged a b groupIndex := by
    simp only [List.eq_nil_iff_forall_not_mem, ← mem_changedGroups ha]
    rfl
  have hcodes : ∀ hequal : NonCodeEqual a b,
      a.invocations.map (fun invocation => (invocation.codeExtent, invocation.codeSha256)) =
        b.invocations.map (fun invocation => (invocation.codeExtent, invocation.codeSha256)) ↔
      ∀ pair ∈ a.invocations.zip b.invocations, codeEqual pair.1 pair.2 = true := by
    intro hequal
    simp only [map_eq_map_iff_zip hequal.length_eq, codeEqual_iff, Prod.mk.injEq]
  rw [Unchanged, contractStable_iff ha, hlisted]
  constructor
  · rintro ⟨⟨hequal, -⟩, hnone⟩
    refine ⟨hequal, (hcodes hequal).2 fun pair hpair => ?_⟩
    by_contra hcode
    rw [Bool.not_eq_true] at hcode
    exact hnone _ ⟨hequal.sameStructure, pair, hpair, rfl, hequal.group_eq hpair, hcode⟩
  · rintro ⟨hequal, hcode⟩
    have hnone : ∀ groupIndex, ¬GroupChanged a b groupIndex := by
      rintro groupIndex ⟨-, pair, hpair, -, -, hdiffers⟩
      rw [(hcodes hequal).1 hcode pair hpair] at hdiffers
      exact Bool.false_ne_true hdiffers.symm
    exact ⟨⟨hequal, fun groupIndex h => absurd h (hnone groupIndex)⟩, hnone⟩

theorem unchanged_refl (ha : a.InGroups) : Unchanged a a :=
  (unchanged_iff ha).2 ⟨NonCodeEqual.refl a, rfl⟩

theorem Unchanged.trans (ha : a.InGroups) (hb : b.InGroups) (h : Unchanged a b)
    (h' : Unchanged b c) : Unchanged a c := by
  obtain ⟨hequal, hcode⟩ := (unchanged_iff ha).1 h
  obtain ⟨hequal', hcode'⟩ := (unchanged_iff hb).1 h'
  exact (unchanged_iff ha).2 ⟨hequal.trans hequal', hcode.trans hcode'⟩

/-- The laws of the comparison, for observations whose groups are below the group count. -/
theorem compare_laws (a b c : GraphRoutingObservations) (ha : a.InGroups) (hb : b.InGroups) :
    ((compareGraphRoutingObservations a a).mismatchFlags = 0 ∧
      (compareGraphRoutingObservations a a).changedGroupIndices = []) ∧
    ((compareGraphRoutingObservations a b).mismatchFlags =
        (compareGraphRoutingObservations b a).mismatchFlags ∧
      (compareGraphRoutingObservations a b).changedGroupIndices =
        (compareGraphRoutingObservations b a).changedGroupIndices) ∧
    ((compareGraphRoutingObservations a b).contractStable = true ↔
      NonCodeEqual a b ∧ NoPartialGroup a b) ∧
    ((compareGraphRoutingObservations a b).mismatchFlags.testBit 0 = false →
      (compareGraphRoutingObservations a b).changedGroupIndices.Pairwise (· < ·) ∧
        ∀ groupIndex, groupIndex ∈ (compareGraphRoutingObservations a b).changedGroupIndices ↔
          ∃ pair ∈ a.invocations.zip b.invocations, pair.1.groupIndex = groupIndex ∧
            ¬(pair.1.codeExtent = pair.2.codeExtent ∧
              pair.1.codeSha256 = pair.2.codeSha256)) ∧
    (Unchanged a b → Unchanged b c → Unchanged a c) := by
  refine ⟨⟨?_, (unchanged_refl ha).2⟩, ?_, contractStable_iff_noPartialGroup ha, fun hflag => ?_,
    Unchanged.trans ha hb⟩
  · exact beq_iff_eq.1 (unchanged_refl ha).1
  · rw [compare_comm ha hb]
    exact ⟨rfl, rfl⟩
  · exact ⟨changedGroups_sorted, mem_changedGroups_of_flag ha hflag⟩

theorem compare_laws_example : ∃ a b : GraphRoutingObservations,
    inspectGraphRouting (RoutedGraph.view {}) = .ok a ∧
      inspectGraphRouting (RoutedGraph.view { codeExtra := 8 }) = .ok b ∧
      (compareGraphRoutingObservations a b).mismatchFlags =
        (compareGraphRoutingObservations b a).mismatchFlags ∧
      ((compareGraphRoutingObservations a b).contractStable = true ↔
        NonCodeEqual a b ∧ NoPartialGroup a b) ∧
      (Unchanged a b → Unchanged b a → Unchanged a a) := by
  have hinspected : succeeds (inspectGraphRouting (RoutedGraph.view {})) = true ∧
      succeeds (inspectGraphRouting (RoutedGraph.view { codeExtra := 8 })) = true := by
    decide +kernel
  obtain ⟨a, ha⟩ := succeeds_iff.1 hinspected.1
  obtain ⟨b, hb⟩ := succeeds_iff.1 hinspected.2
  obtain ⟨-, hsymm, hstable, -, htrans⟩ := compare_laws a b a
    (fromGraph_of_inspect ha).in_groups (fromGraph_of_inspect hb).in_groups
  exact ⟨a, b, ha, hb, hsymm.1, hstable, htrans⟩

end Npunlock
