import Npunlock.DiscoverySpec
import Npunlock.Routing

/-!
# What an inspected graph satisfies

Discovery describes every invocation of a graph, with an input and an output at least, and
numbers the groups from 0 without gaps. So the invocations that `readRoutingTables` observes
lie in the groups it counts, and their indices are their positions (`fromGraph_of_read`).
-/

namespace Npunlock

/-! ## The discovered targets -/

section Pass

variable {τ γ : Type} {version : TargetVersion τ} {contract : τ → γ} {layout : GraphLayout}
  {parameterBases : List ℕ} {n : ℕ} {state : List (DiscoveredTarget τ) × ℕ}

/-- Every record is in one of the groups counted. -/
theorem DiscoveryRun.group_lt (h : DiscoveryRun version contract layout parameterBases n state)
    {i : ℕ} (hi : i < state.1.length) : state.1[i].groupIndex < state.2 := by
  have hlen := h.length_eq
  have hle := h.grouped.group_le (show i ≤ n - 1 by omega) (by omega)
  have hcount := h.count_eq (n - 1) (by omega)
  rw [groupAt_eq hi] at hle
  omega

/-- There are no more groups than records. -/
theorem DiscoveryRun.count_le (h : DiscoveryRun version contract layout parameterBases n state) :
    state.2 ≤ n := by
  have hbound : ∀ i < n, groupAt state.1 i ≤ i := by
    intro i hi
    induction i with
    | zero => exact (h.grouped.first hi).le
    | succ i ih =>
      have ih := ih (by omega)
      rcases h.grouped.group_step hi with hsame | hstep <;> omega
  rcases Nat.eq_zero_or_pos n with hzero | hpos
  · exact (h.count_zero hzero).trans_le (Nat.zero_le _)
  · have hcount := h.count_eq (n - 1) (by omega)
    have hlast := hbound (n - 1) (by omega)
    omega

end Pass

/-- A described target has an input and an output at least. -/
theorem tensorCount_of_describe {layout : GraphLayout} {parameterBases : List ℕ} {index : ℕ}
    {target : PatchblobTargetV2}
    (h : describeTargetV2 layout parameterBases index = .ok target) :
    2 ≤ target.tensorCount ∧ target.tensorCount ≤ patchblobTargetV2MaxTensors := by
  unfold describeTargetV2 at h
  obtain ⟨⟨recordCount, base⟩, hcount, h⟩ := bind_eq_ok_iff.1 h
  obtain ⟨invocations, -, h⟩ := bind_eq_ok_iff.1 h
  obtain ⟨rangeIndex, -, h⟩ := bind_eq_ok_iff.1 h
  obtain ⟨tensors, htensors, h⟩ := bind_eq_ok_iff.1 h
  cases h
  have hlength : tensors.length = recordCount := (mapRange_eq_ok_iff.1 htensors).1
  unfold countRecords at hcount
  obtain ⟨params, -, hcount⟩ := bind_eq_ok_iff.1 hcount
  obtain ⟨base', -, hcount⟩ := bind_eq_ok_iff.1 hcount
  obtain ⟨records, -, hcount⟩ := bind_eq_ok_iff.1 hcount
  obtain ⟨blockSize, -, hcount⟩ := bind_eq_ok_iff.1 hcount
  obtain ⟨hguard, hcount⟩ := refuseIf_bind_eq_ok_iff.1 hcount
  cases hcount
  rw [show ∀ target : PatchblobTargetV2, target.tensorCount = target.tensors.length from
    fun _ => rfl, hlength]
  omega

/-! ## The observed invocations -/

/-- An observation has the group, the target and the tensors of the record at its position. -/
theorem readInvocation_eq_ok {layout : GraphLayout} {parameterBases : List ℕ}
    {discovered : List (DiscoveredTarget PatchblobTargetV2)} {index : ℕ}
    {invocation : InvocationRoutingObservation}
    (h : readInvocation layout parameterBases discovered index = .ok invocation) :
    ∃ record, discovered[index]? = some record ∧ invocation.groupIndex = record.groupIndex ∧
      invocation.target = record.target ∧
      invocation.tensors.length = record.target.tensorCount := by
  unfold readInvocation at h
  obtain ⟨invocations, -, h⟩ := bind_eq_ok_iff.1 h
  split at h
  · cases h
  · next groupIndex target hrecord =>
    refine ⟨_, hrecord, ?_⟩
    obtain ⟨code, -, h⟩ := bind_eq_ok_iff.1 h
    obtain ⟨tileCandidate, -, h⟩ := bind_eq_ok_iff.1 h
    obtain ⟨parameterBase, -, h⟩ := bind_eq_ok_iff.1 h
    obtain ⟨waitMask, -, h⟩ := bind_eq_ok_iff.1 h
    obtain ⟨postMask, -, h⟩ := bind_eq_ok_iff.1 h
    obtain ⟨barrierGroup, -, h⟩ := bind_eq_ok_iff.1 h
    obtain ⟨barrierMask, -, h⟩ := bind_eq_ok_iff.1 h
    obtain ⟨startAfter, -, h⟩ := bind_eq_ok_iff.1 h
    obtain ⟨cleanAfter, -, h⟩ := bind_eq_ok_iff.1 h
    obtain ⟨tensors, htensors, h⟩ := bind_eq_ok_iff.1 h
    cases h
    exact ⟨rfl, rfl, (mapRange_eq_ok_iff.1 htensors).1⟩

/-- The invocations of a graph are in the groups it has. -/
def RoutingTables.InGroups (tables : RoutingTables) : Prop :=
  ∀ invocation ∈ tables.invocations, invocation.groupIndex < tables.groupCount

/-- What the tables of a graph satisfy. -/
structure RoutingTables.FromGraph (tables : RoutingTables) : Prop where
  indices : tables.invocations.map (·.invocationIndex) = List.range tables.invocations.length
  in_groups : tables.InGroups
  groupCount_le : tables.groupCount ≤ tables.invocations.length
  length_le : tables.invocations.length ≤ uint32Max
  tensorCount : ∀ invocation ∈ tables.invocations,
    2 ≤ invocation.tensorCount ∧ invocation.tensorCount ≤ patchblobTargetV2MaxTensors
  tensors_length : ∀ invocation ∈ tables.invocations,
    invocation.tensors.length = invocation.tensorCount

theorem fromGraph_of_read {blob : View} {tables : RoutingTables}
    (h : readRoutingTables blob = .ok tables) : tables.FromGraph := by
  unfold readRoutingTables at h
  obtain ⟨⟨discovered, groupCount⟩, hdiscovered, h⟩ := bind_eq_ok_iff.1 h
  obtain ⟨layout', parameterBases', hparse', hbases', -, -, hrun⟩ :=
    (discoverGraphTargetsWith_spec targetVersion2_lawful blob).value _ hdiscovered
  dsimp only at h
  obtain ⟨layout, hparse, h⟩ := bind_eq_ok_iff.1 h
  obtain ⟨parameterBases, hbases, h⟩ := bind_eq_ok_iff.1 h
  obtain rfl := Except.ok.inj (hparse.symm.trans hparse')
  obtain rfl := Except.ok.inj (hbases.symm.trans hbases')
  obtain ⟨-, h⟩ := refuseIf_bind_eq_ok_iff.1 h
  obtain ⟨networkOutputRoutes, -, h⟩ := bind_eq_ok_iff.1 h
  obtain ⟨dmaTasks, -, h⟩ := bind_eq_ok_iff.1 h
  obtain ⟨dpuInvariants, -, h⟩ := bind_eq_ok_iff.1 h
  obtain ⟨invocations, hinvocations, h⟩ := bind_eq_ok_iff.1 h
  cases h
  obtain ⟨hlength, hget⟩ := mapRange_eq_ok_iff.1 hinvocations
  have hrecord : ∀ i (hi : i < invocations.length), ∃ hi' : i < discovered.length,
      invocations[i].groupIndex = discovered[i].groupIndex ∧
      invocations[i].target = discovered[i].target ∧
      invocations[i].tensors.length = discovered[i].target.tensorCount := by
    intro i hi
    obtain ⟨record, hrecord, hrest⟩ := readInvocation_eq_ok (hget i hi)
    obtain ⟨hi', rfl⟩ := List.getElem?_eq_some_iff.1 hrecord
    exact ⟨hi', hrest⟩
  refine ⟨?_, ?_, ?_, ?_, ?_, ?_⟩
  · refine List.ext_getElem (by simp) fun i hi _ => ?_
    rw [List.length_map] at hi
    obtain ⟨hi', -, htarget, -⟩ := hrecord i hi
    rw [List.getElem_map, List.getElem_range, InvocationRoutingObservation.invocationIndex, htarget]
    exact hrun.index_eq i hi'
  · intro invocation hmem
    obtain ⟨i, hi, rfl⟩ := List.mem_iff_getElem.1 hmem
    obtain ⟨hi', hgroup, -⟩ := hrecord i hi
    rw [hgroup]
    exact hrun.group_lt hi'
  · exact hrun.count_le.trans_eq hlength.symm
  · unfold discoverGraphTargetsV2 discoverGraphTargetsWith at hdiscovered
    rw [hparse, ok_bind] at hdiscovered
    unfold discoverRecords at hdiscovered
    rw [hbases, ok_bind] at hdiscovered
    obtain ⟨ranges, -, hdiscovered⟩ := bind_eq_ok_iff.1 hdiscovered
    obtain ⟨hguard, -⟩ := refuseIf_bind_eq_ok_iff.1 hdiscovered
    dsimp only
    omega
  · intro invocation hmem
    obtain ⟨i, hi, rfl⟩ := List.mem_iff_getElem.1 hmem
    obtain ⟨hi', -, htarget, -⟩ := hrecord i hi
    rw [InvocationRoutingObservation.tensorCount, htarget]
    exact tensorCount_of_describe (hrun.described _ (List.getElem_mem hi'))
  · intro invocation hmem
    obtain ⟨i, hi, rfl⟩ := List.mem_iff_getElem.1 hmem
    obtain ⟨hi', -, htarget, htensors⟩ := hrecord i hi
    rw [InvocationRoutingObservation.tensorCount, htarget, htensors]

/-- The derivations keep the tables they start from. -/
theorem deriveRouting_tables {tables : RoutingTables} {graph : GraphRoutingObservations}
    (h : deriveRouting tables = .ok graph) : graph.toRoutingTables = tables := by
  unfold deriveRouting at h
  iterate 14 obtain ⟨_, -, h⟩ := bind_eq_ok_iff.1 h
  cases h
  rfl

theorem fromGraph_of_inspect {blob : View} {graph : GraphRoutingObservations}
    (h : inspectGraphRouting blob = .ok graph) : graph.FromGraph := by
  unfold inspectGraphRouting at h
  obtain ⟨tables, htables, h⟩ := bind_eq_ok_iff.1 h
  rw [deriveRouting_tables h]
  exact fromGraph_of_read htables

/-! ## An example graph -/

/-- What differs between the example graphs. -/
structure RoutedGraph where
  codeExtra : ℕ := 0
  startAfter : ℕ := 0

namespace RoutedGraph

open ExampleGraph (sectionHeader memref)

/-- Fields moved by `offset`. -/
def moved (offset : ℕ) (fields : List (ℕ × ℕ)) : List (ℕ × ℕ) :=
  fields.map fun field => (field.1 + offset, field.2)

/-- Texts with their offsets in a table. -/
def texts (table : ℕ) (entries : List (ℕ × String)) : List (ℕ × ℕ) :=
  entries.map fun entry => (table + entry.1, textImage entry.2)

/-- A RELA entry of type `R_VPU_64`. -/
def wideRelocation (entry targetOffset symbol addend : ℕ) : List (ℕ × ℕ) :=
  [(entry, targetOffset), (entry + 8, rVpu64), (entry + 12, symbol), (entry + 16, addend)]

def elfHeader : List (ℕ × ℕ) :=
  [(0, 0x464c457f), (4, 2), (5, 1), (0x10, 1), (0x28, 64), (0x34, 64), (0x3a, 64), (0x3c, 21),
    (0x3e, 1)]

def sectionHeaders : List (ℕ × ℕ) :=
  sectionHeader 0 0 shtNull 0 0 0 0 0 4 0 ++
  sectionHeader 1 0x01 shtStrtab 0 3568 376 0 0 4 0 ++
  sectionHeader 2 0x09 shtProgbits 0x40000000 3072 32 0 0 1024 1 ++
  sectionHeader 3 0x1a shtProgbits 0x40000000 2752 176 0 0 64 1 ++
  sectionHeader 4 0x2d shtProgbits 0x20000004 2944 128 0 0 64 1 ++
  sectionHeader 5 0x48 shtProgbits 0x20000004 3136 48 0 0 64 1 ++
  sectionHeader 6 0x5e shtRela 0x40 3184 48 9 5 8 0x18 ++
  sectionHeader 7 0x78 shtRela 0x40 3232 48 9 4 8 0x18 ++
  sectionHeader 8 0x97 shtRela 0x40 3280 192 9 3 8 0x18 ++
  sectionHeader 9 0xae shtSymtab 0 2472 48 10 0 8 0x18 ++
  sectionHeader 10 0xbc shtStrtab 0 4160 60 0 0 4 0 ++
  sectionHeader 11 0x97 shtRela 0x40 3472 96 vpuRtSymtab 3 8 0x18 ++
  sectionHeader 12 0xc7 shtVpuCompatibility 0 2567 44 0 0 1 1 ++
  sectionHeader 13 0xdc shtNote 0 2612 0x20 0 0 4 1 ++
  sectionHeader 14 0xf3 shtNote 0 2644 0x20 0 0 4 1 ++
  sectionHeader 15 0x110 shtVpuPlatformInfo 0 2680 0x28 0 0 8 1 ++
  sectionHeader 16 291 shtProgbits 0 4224 256 0 0 64 1 ++
  sectionHeader 17 307 shtRela 0x40 4480 48 vpuRtSymtab 16 8 0x18 ++
  sectionHeader 18 327 shtRela 0x500040 4528 48 20 16 8 0x18 ++
  sectionHeader 19 347 shtSymtab 0x200000 4576 48 10 0 8 0x18 ++
  sectionHeader 20 361 shtSymtab 0x400000 4624 48 10 0 8 0x18

def strings : List (ℕ × ℕ) :=
  texts 3568 [(0x01, ".strtab"), (0x09, ".text.KernelText"), (0x1a, ".text.KernelParams"),
    (0x2d, ".text.ActKernelInvocations"), (0x48, ".text.ActKernelRanges"),
    (0x5e, ".rlt.text.ActKernelRanges"), (0x78, ".rlt.text.ActKernelInvocations"),
    (0x97, ".rlt.text.KernelParams"), (0xae, ".symtab.tasks"), (0xbc, ".symstrtab"),
    (0xc7, "compatibility_string"), (0xdc, ".note.LoaderABIVersion"),
    (0xf3, ".note.MappedInferenceVersion"), (0x110, ".meta.PlatformInfo"),
    (291, ".text.dmaTasks0"), (307, ".rlt.text.dmaTasks0"), (327, ".rlt.DMA_NetOutput0"),
    (347, ".symtab.input"), (361, ".symtab.output")] ++
  texts 4160 [(1, "sym_kernelTextSection"), (23, "sym_kernelParamsSection"), (47, "input"),
    (53, "output")] ++
  texts 2567 [(0, "compiler=8.3;npu=3720;t=2;elf=1.2.0;mi=7.0.4")]

/-- An input of 16 bytes and an output of 32. -/
def symbols : List (ℕ × ℕ) :=
  [(4600, 47), (4616, 16), (4648, 53), (4664, 32)]

variable (g : RoutedGraph)

/-- The carrier of the first example graph, with longer code. -/
def carrier : List (ℕ × ℕ) :=
  moved 1024 (ExampleGraph.records ++ ExampleGraph.carrier {} ++ ExampleGraph.relocations ++
    ExampleGraph.code {}) ++
  [(3136 + 12, g.codeExtra), (3160 + 12, g.codeExtra)]

/-- The output of each invocation is half of the network output. -/
def dmaTasks : List (ℕ × ℕ) :=
  [(4224 + 0x20, 16), (4224 + 0x50, g.startAfter), (4352 + 0x20, 16)] ++
  wideRelocation 4480 0x10 0 0x100 ++ wideRelocation 4504 0x90 0 0x300 ++
  wideRelocation 4528 0x18 1 0 ++ wideRelocation 4552 0x98 1 16

def view : View :=
  viewOf 4672 (by decide)
    (imageOf (elfHeader ++ sectionHeaders ++ strings ++ symbols ++ g.carrier ++ g.dmaTasks))

end RoutedGraph

end Npunlock
