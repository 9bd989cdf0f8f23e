import Npunlock.Bundle
import Npunlock.ProgramRun

/-!
# Exporting and loading a program

`load_export_iff` : the bundle of a program loads as the same program just when the program
is within what `load` admits (`IsLoadable`). `export` checks none of it, so it also writes
bundles that cannot be loaded.
-/

namespace Npunlock

/-! ## Paths -/

theorem ofDigitChars_padIndex (index : ℕ) :
    Nat.ofDigitChars 10 (padIndex index).toList 0 = index := by
  simp [padIndex, Nat.ofDigitChars_append]

/-- Reports with different indices have different paths. -/
theorem reportPath_injective : Function.Injective reportPath := by
  intro first second h
  have hlist := congrArg String.toList h
  simp only [reportPath, String.toList_append, List.append_assoc, List.append_cancel_left_eq,
    List.append_cancel_right_eq] at hlist
  rw [← ofDigitChars_padIndex first, hlist, ofDigitChars_padIndex]

theorem reportPath_ne {index : ℕ} {name : String} (h : name.toList.head? ≠ some 'p') :
    reportPath index ≠ name := by
  rintro rfl
  exact h (by simp [reportPath])

/-- The file names in a path to a report. -/
theorem pathParts_reportPath (index : ℕ) :
    pathParts (reportPath index) =
      ["patch-reports".toList, (padIndex index ++ ".json").toList] := by
  have hdigit : ∀ character ∈ (padIndex index).toList, character.isDigit = true := by
    intro character hmem
    rw [padIndex, String.toList_ofList, List.mem_append, List.mem_replicate] at hmem
    rcases hmem with ⟨-, rfl⟩ | hmem
    · rfl
    · exact Nat.isDigit_of_mem_toDigits (by decide) (by decide) hmem
  have hname : ∀ character ∈ (padIndex index ++ ".json").toList,
      decide (character = '/' ∨ character = '\\') = false := by
    intro character hmem
    rw [String.toList_append, List.mem_append] at hmem
    rw [decide_eq_false_iff_not]
    rcases hmem with hmem | hmem
    · rintro (rfl | rfl)
      · exact absurd (hdigit _ hmem) (by decide)
      · exact absurd (hdigit _ hmem) (by decide)
    · rintro (rfl | rfl)
      · exact absurd hmem (by decide)
      · exact absurd hmem (by decide)
  have hlist : (reportPath index).toList =
      "patch-reports".toList ++ '/' :: (padIndex index ++ ".json").toList := by
    simp [reportPath]
  rw [pathParts, hlist]
  change List.splitOnP _ ("patch-reports".toList ++ '/' :: _) = _
  rw [List.splitOnP_append_cons_of_forall_mem (by simp) '/' rfl,
    List.splitOnP_eq_singleton hname]

theorem isMemberPath_reportPath (index : ℕ) : IsMemberPath (reportPath index) := by
  have hfirst : (reportPath index).toList.head? = some 'p' := by simp [reportPath]
  refine ⟨?_, by simp [hfirst], by simp [hfirst], ?_⟩
  · intro hempty
    rw [hempty] at hfirst
    cases hfirst
  · rw [pathParts_reportPath, List.mem_cons, List.mem_singleton, not_or]
    refine ⟨by decide, fun hdots => ?_⟩
    have hjson : ".json".toList.getLast? = some 'n' := by decide
    have hlast := congrArg List.getLast? hdots
    rw [String.toList_append, List.getLast?_append, hjson, Option.some_or] at hlast
    exact absurd hlast (by decide)

/-- The members of an exported bundle. -/
def exportedMembers (manifestBytes graphBlob : List UInt8) (patchReports : List (List UInt8)) :
    Bundle :=
  ("manifest.json", manifestBytes) :: ("graph.blob", graphBlob) ::
    patchReports.mapIdx fun index report => (reportPath index, report)

section Members

variable {manifestBytes graphBlob : List UInt8} {patchReports : List (List UInt8)}

theorem map_fst_exportedMembers :
    (exportedMembers manifestBytes graphBlob patchReports).map Prod.fst =
      "manifest.json" :: "graph.blob" :: (List.range patchReports.length).map reportPath := by
  rw [exportedMembers, List.map_cons, List.map_cons]
  congr 2
  exact List.ext_getElem (by simp) (by simp)

theorem nodup_exportedMembers :
    ((exportedMembers manifestBytes graphBlob patchReports).map Prod.fst).Nodup := by
  have hne : ∀ name : String, name.toList.head? ≠ some 'p' →
      name ∉ (List.range patchReports.length).map reportPath := by
    rintro name hname hmem
    obtain ⟨index, -, hindex⟩ := List.mem_map.1 hmem
    exact reportPath_ne hname hindex
  rw [map_fst_exportedMembers, List.nodup_cons, List.nodup_cons, List.mem_cons, not_or]
  exact ⟨⟨by decide, hne _ (by decide)⟩, hne _ (by decide),
    List.nodup_range.map reportPath_injective⟩

theorem lookup_exportedMembers {name : String} {data : List UInt8}
    (h : (name, data) ∈ exportedMembers manifestBytes graphBlob patchReports) :
    (exportedMembers manifestBytes graphBlob patchReports).lookup name = some data :=
  lookup_eq_some_of_mem nodup_exportedMembers h

theorem lookup_reportPath {index : ℕ} {report : List UInt8}
    (h : patchReports[index]? = some report) :
    (exportedMembers manifestBytes graphBlob patchReports).lookup (reportPath index) =
      some report := by
  refine lookup_exportedMembers (List.mem_cons_of_mem _ (List.mem_cons_of_mem _ ?_))
  obtain ⟨hindex, hreport⟩ := List.getElem?_eq_some_iff.1 h
  exact List.mem_mapIdx.2 ⟨index, hindex, by rw [hreport]⟩

end Members

/-! ## Contracts -/

/-- Within the contract of `graphinfer`. -/
def TensorContract.IsExecutable (contract : TensorContract) : Prop :=
  contract.dtype ∈ graphinferDtypes ∧ contract.shape.length ≤ 5

theorem normalizeDtype_name (dtype : DType) : normalizeDtype dtype.name = some dtype := by
  cases dtype <;> rfl

theorem readSpec_contractJson (contract : TensorContract) :
    readSpec (.array (contract.shape.map fun dimension : ℕ => .number dimension))
      (.string contract.dtype.name) = .ok contract.spec := by
  have hshape : normalizeShape
      (.array (contract.shape.map fun dimension : ℕ => .number dimension)) =
        .ok contract.shape := by
    rw [normalizeShape, mapM_eq_ok_iff, List.forall₂_map_left_iff, List.forall₂_same]
    intro dimension hdimension
    have hpos := contract.spec.positive dimension hdimension
    simp [hpos]
  rw [readSpec, hshape, ok_bind, Json.string?_string, Option.bind_some, normalizeDtype_name]
  exact dif_pos contract.spec.positive

theorem readContract_eq_ok_iff {label : String} {contracts next : List TensorContract}
    {contract : TensorContract} :
    readContract label contracts (contractJson contract) = .ok next ↔
      (contract.name ∉ contracts.map TensorContract.name ∧ contract.IsExecutable) ∧
        contracts ++ [contract] = next := by
  have hkeys : (contractJson contract).HasKeys ["dtype", "name", "shape"] := rfl
  have hmake : TensorContract.make contract.name contract.spec = .ok contract :=
    dif_neg contract.name_ne_empty
  have hname : ((contractJson contract).get? "name").bind Json.string? = some contract.name := rfl
  have hshape : (contractJson contract).get? "shape" =
      some (.array (contract.shape.map fun dimension : ℕ => .number dimension)) := rfl
  have hdtype : (contractJson contract).get? "dtype" = some (.string contract.dtype.name) := rfl
  rw [readContract, refuseIf_bind_eq_ok_iff, hname, hshape, hdtype]
  dsimp only
  rw [refuseIf_bind_eq_ok_iff, refuseIf_bind_eq_ok_iff, readSpec_contractJson, ok_bind, hmake,
    bind_eq_ok_iff]
  constructor
  · rintro ⟨-, hname, -, _, hok, h⟩
    obtain rfl := Except.ok.inj hok
    rw [refuseIf_bind_eq_ok_iff, not_or, not_not, not_lt] at h
    exact ⟨⟨hname, h.1⟩, Except.ok.inj h.2⟩
  · rintro ⟨⟨hname, hexecutable⟩, rfl⟩
    refine ⟨not_not.2 hkeys, hname, contract.name_ne_empty, contract, rfl, ?_⟩
    rw [refuseIf_of_not _ (not_or.2 ⟨not_not.2 hexecutable.1, not_lt.2 hexecutable.2⟩)]
    rfl

/-- The contracts are read back if their names differ and each is executable. -/
theorem foldlM_readContract_eq_ok_iff {label : String} :
    ∀ {contracts earlier all : List TensorContract},
      (contracts.map contractJson).foldlM (readContract label) earlier = .ok all ↔
        ((contracts.map TensorContract.name).Nodup ∧
          (∀ contract ∈ contracts, contract.name ∉ earlier.map TensorContract.name) ∧
            ∀ contract ∈ contracts, contract.IsExecutable) ∧ earlier ++ contracts = all
  | [], earlier, all => by simp [pure, Except.pure]
  | contract :: contracts, earlier, all => by
    simp only [List.map_cons, List.foldlM_cons, bind_eq_ok_iff, readContract_eq_ok_iff]
    constructor
    · rintro ⟨_, ⟨⟨hfresh, hexecutable⟩, rfl⟩, hrest⟩
      obtain ⟨⟨hnodup, hlater, hall⟩, rfl⟩ := foldlM_readContract_eq_ok_iff.1 hrest
      have hname : contract.name ∉ contracts.map TensorContract.name := by
        intro hmem
        obtain ⟨later, hmem, heq⟩ := List.mem_map.1 hmem
        exact hlater later hmem (by simp [heq])
      refine ⟨⟨List.nodup_cons.2 ⟨hname, hnodup⟩, ?_, ?_⟩, by simp⟩
      · exact List.forall_mem_cons.2 ⟨hfresh, fun later hmem hearlier =>
          hlater later hmem (by simp [hearlier])⟩
      · exact List.forall_mem_cons.2 ⟨hexecutable, hall⟩
    · rintro ⟨⟨hnodup, hfresh, hall⟩, rfl⟩
      obtain ⟨hname, hnodup⟩ := List.nodup_cons.1 hnodup
      obtain ⟨hfirst, hfresh⟩ := List.forall_mem_cons.1 hfresh
      obtain ⟨hexecutable, hall⟩ := List.forall_mem_cons.1 hall
      refine ⟨_, ⟨⟨hfirst, hexecutable⟩, rfl⟩, foldlM_readContract_eq_ok_iff.2
        ⟨⟨hnodup, fun later hmem hearlier => ?_, hall⟩, by simp⟩⟩
      rw [List.map_append, List.mem_append] at hearlier
      rcases hearlier with hearlier | hearlier
      · exact hfresh later hmem hearlier
      · exact hname (List.mem_map.2 ⟨later, hmem, by simpa using hearlier⟩)

theorem manifestContracts_eq_ok_iff {label : String} {contracts all : List TensorContract}
    (hne : contracts ≠ []) :
    manifestContracts label (.array (contracts.map contractJson)) = .ok all ↔
      ((contracts.map TensorContract.name).Nodup ∧
        ∀ contract ∈ contracts, contract.IsExecutable) ∧ contracts = all := by
  have hloop : (contracts.map contractJson).foldlM (readContract label) [] = .ok all ↔ _ :=
    foldlM_readContract_eq_ok_iff
  rw [manifestContracts, Json.array?_array]
  split
  case h_1 h => exact absurd h (by simp)
  case h_2 h => exact absurd (List.map_eq_nil_iff.1 (Option.some.inj h)) hne
  case h_3 entries _ h =>
    obtain rfl := Option.some.inj h
    simpa using hloop

/-! ## Entries -/

theorem manifestBlobEntry_entryJson (label : String) {path : String} (h : IsMemberPath path)
    (data : List UInt8) :
    manifestBlobEntry label (entryJson path data) = .ok (path, data.length, hexdigest data) := by
  have hkeys : (entryJson path data).HasKeys ["path", "sha256", "size"] := rfl
  have hpath : ((entryJson path data).get? "path").bind Json.string? = some path := rfl
  have hsize : ((entryJson path data).get? "size").bind Json.natural? = some data.length :=
    Json.natural?_number data.length
  have hdigest : ((entryJson path data).get? "sha256").bind Json.string? =
      some (hexdigest data) := rfl
  rw [manifestBlobEntry, refuseIf_of_not _ (not_not.2 hkeys), hpath, hsize, hdigest]
  refine bind_eq_ok_iff.2 ⟨(), rfl, ?_⟩
  dsimp only
  rw [refuseIf_of_not _ (not_not.2 h), refuseIf_of_not _ (not_not.2 (isSha256_hexdigest data))]
  rfl

theorem bundleMember_eq_ok_iff {archive : Bundle} {name : String} {maximumSize : ℕ}
    {data read : List UInt8} (h : archive.lookup name = some data) :
    bundleMember archive name maximumSize = .ok read ↔
      data.length ≤ maximumSize ∧ data = read := by
  rw [bundleMember, h]
  dsimp only
  split_ifs with hlarge
  · simp only [false_iff]
    omega
  · simp [not_lt.1 hlarge]

theorem loadReport_eq_ok_iff {archive : Bundle} {read next : ℕ × List (List UInt8)} {index : ℕ}
    {report : List UInt8} (h : archive.lookup (reportPath index) = some report) :
    loadReport archive read (entryJson (reportPath index) report, index) = .ok next ↔
      (report.length ≤ 0x1000000 ∧ read.1 + report.length ≤ 0x4000000) ∧
        (read.1 + report.length, read.2 ++ [report]) = next := by
  rw [loadReport, manifestBlobEntry_entryJson _ (isMemberPath_reportPath index), bind_eq_ok_iff]
  constructor
  · rintro ⟨_, hentry, hrest⟩
    obtain rfl := Except.ok.inj hentry
    dsimp only at hrest
    obtain ⟨hsize, hrest⟩ := refuseIf_bind_eq_ok_iff.1 hrest
    rw [not_or] at hsize
    obtain ⟨htotal, hrest⟩ := refuseIf_bind_eq_ok_iff.1 hrest
    obtain ⟨found, hmember, hrest⟩ := bind_eq_ok_iff.1 hrest
    obtain ⟨-, rfl⟩ := (bundleMember_eq_ok_iff h).1 hmember
    exact ⟨⟨not_lt.1 hsize.2, not_lt.1 htotal⟩, Except.ok.inj (refuseIf_bind_eq_ok_iff.1 hrest).2⟩
  · rintro ⟨⟨hsize, htotal⟩, rfl⟩
    exact ⟨_, rfl, refuseIf_bind_eq_ok_iff.2 ⟨not_or.2 ⟨not_not.2 rfl, not_lt.2 hsize⟩,
      refuseIf_bind_eq_ok_iff.2 ⟨not_lt.2 htotal,
        bind_eq_ok_iff.2 ⟨report, (bundleMember_eq_ok_iff h).2 ⟨hsize, rfl⟩,
          refuseIf_bind_eq_ok_iff.2 ⟨by simp, rfl⟩⟩⟩⟩⟩

/-- The entries of the reports from an offset on, with their indices. -/
def reportEntries (offset : ℕ) (reports : List (List UInt8)) : List (Json × ℕ) :=
  (reports.zipIdx offset).map fun entry => (entryJson (reportPath entry.2) entry.1, entry.2)

theorem reportEntries_eq (reports : List (List UInt8)) :
    (reports.mapIdx fun index report => entryJson (reportPath index) report).zipIdx =
      reportEntries 0 reports := by
  refine List.ext_getElem (by simp [reportEntries]) fun index _ _ => ?_
  simp [reportEntries]

/-- The reports are read back if each of them and all of them together are small. -/
theorem foldlM_loadReport_eq_ok_iff {archive : Bundle} :
    ∀ {reports : List (List UInt8)} {offset : ℕ} {read next : ℕ × List (List UInt8)},
      (∀ entry ∈ reports.zipIdx offset, archive.lookup (reportPath entry.2) = some entry.1) →
        read.1 ≤ 0x4000000 →
          ((reportEntries offset reports).foldlM (loadReport archive) read = .ok next ↔
            ((∀ report ∈ reports, report.length ≤ 0x1000000) ∧
              read.1 + (reports.map List.length).sum ≤ 0x4000000) ∧
                (read.1 + (reports.map List.length).sum, read.2 ++ reports) = next)
  | [], offset, read, next, _, hread => by
    simp [reportEntries, pure, Except.pure, hread]
  | report :: reports, offset, read, next, h, hread => by
    rw [List.zipIdx_cons, List.forall_mem_cons] at h
    dsimp only at h
    rw [reportEntries, List.zipIdx_cons, List.map_cons, List.foldlM_cons, bind_eq_ok_iff,
      List.forall_mem_cons, List.map_cons, List.sum_cons]
    constructor
    · rintro ⟨_, hfirst, hrest⟩
      obtain ⟨⟨hsize, htotal⟩, rfl⟩ := (loadReport_eq_ok_iff h.1).1 hfirst
      obtain ⟨⟨hsizes, hall⟩, rfl⟩ := (foldlM_loadReport_eq_ok_iff h.2 htotal).1 hrest
      exact ⟨⟨⟨hsize, hsizes⟩, by omega⟩, by simp [Nat.add_assoc]⟩
    · rintro ⟨⟨⟨hsize, hsizes⟩, htotal⟩, rfl⟩
      have hfirst : read.1 + report.length ≤ 0x4000000 := by omega
      refine ⟨_, (loadReport_eq_ok_iff h.1).2 ⟨⟨hsize, hfirst⟩, rfl⟩, ?_⟩
      exact (foldlM_loadReport_eq_ok_iff h.2 hfirst).2
        ⟨⟨hsizes, by omega⟩, by simp [Nat.add_assoc]⟩

/-! ## The round trip -/

namespace Program

variable (codec : JsonCodec) (program : Program)

/-- Within what `load` admits. -/
structure IsLoadable : Prop where
  inputs : ∀ contract ∈ program.inputs, contract.IsExecutable
  outputs : ∀ contract ∈ program.outputs, contract.IsExecutable
  inputNames : program.inputNames.Nodup
  outputNames : program.outputNames.Nodup
  graphBlob : program.graphBlob ≠ [] ∧ program.graphBlob.length ≤ 0x80000000
  reportCount : program.patchReports.length ≤ 1024
  reportSize : ∀ report ∈ program.patchReports, report.length ≤ 0x1000000
  reportTotal : (program.patchReports.map List.length).sum ≤ 0x4000000
  manifestSize : ∀ manifest, program.manifest codec = .ok manifest →
    (codec.dumps manifest).length ≤ 0x100000

/-- The bundle is loaded as a program with the same blob, contracts, reports and provenance,
which is exported with the same manifest. -/
def LoadsBack (archive : Bundle) : Prop :=
  ∃ loaded, load codec archive = .ok loaded ∧ loaded.graphBlob = program.graphBlob ∧
    loaded.inputs = program.inputs ∧ loaded.outputs = program.outputs ∧
      loaded.patchReports = program.patchReports ∧
        loaded.provenance codec = program.provenance codec ∧
          loaded.manifest codec = program.manifest codec

variable {codec program}

/-- The manifest of a program with this provenance. -/
def manifestOf (program : Program) (provenance : Option NpuProvenance) : Json :=
  .object [("graph", entryJson "graph.blob" program.graphBlob),
    ("inputs", .array (program.inputs.map contractJson)),
    ("outputs", .array (program.outputs.map contractJson)),
    ("patch_reports", .array (program.patchReports.mapIdx fun index report =>
      entryJson (reportPath index) report)),
    ("provenance", (provenance.map NpuProvenance.toJson).getD .null),
    ("schema", .string "npunlock.program.v1")]

theorem manifest_eq {provenance : Option NpuProvenance}
    (h : program.provenance codec = .ok provenance) :
    program.manifest codec = .ok (program.manifestOf provenance) := by
  rw [manifest, h]
  rfl

theorem exportBundle_eq_ok_iff {archive : Bundle} :
    program.exportBundle codec = .ok archive ↔
      ∃ provenance, program.provenance codec = .ok provenance ∧
        exportedMembers (codec.dumps (program.manifestOf provenance)) program.graphBlob
          program.patchReports = archive := by
  constructor
  · intro h
    obtain ⟨manifest, hmanifest, harchive⟩ := bind_eq_ok_iff.1 h
    obtain ⟨provenance, hprovenance, hok⟩ := bind_eq_ok_iff.1 hmanifest
    obtain rfl := Except.ok.inj hok
    exact ⟨provenance, hprovenance, Except.ok.inj harchive⟩
  · rintro ⟨provenance, hprovenance, rfl⟩
    exact bind_eq_ok_iff.2 ⟨_, manifest_eq hprovenance, rfl⟩

/-- A loaded program has the provenance of its manifest. -/
theorem provenance_of_manifest {provenance : Option NpuProvenance} {bytes : List UInt8}
    {loaded : Program} (hir : loaded.irProvenance = none)
    (hbytes : loaded.artifactManifest = some bytes)
    (hloads : codec.loads bytes = some (program.manifestOf provenance)) :
    loaded.provenance codec = .ok provenance := by
  rw [Program.provenance, hir, hbytes]
  dsimp only
  rw [hloads, Option.bind_some]
  have hfield : (program.manifestOf provenance).get? "provenance" =
      some ((provenance.map NpuProvenance.toJson).getD .null) := rfl
  rw [hfield]
  cases provenance with
  | none => rfl
  | some provenance =>
    dsimp only [Option.map_some, Option.getD_some]
    split
    case h_1 h => exact absurd h (by simp)
    case h_2 h => exact absurd (Option.some.inj h) (by simp [NpuProvenance.toJson])
    case h_3 value _ _ h =>
      obtain rfl := Option.some.inj h
      rw [provenance.fromJson_toJson]
      rfl

/-- What `load` makes of the manifest of an exported bundle. -/
theorem loadManifest_eq_ok_iff {provenance : Option NpuProvenance} {bytes : List UInt8}
    {loaded : Program} (hinputs : program.inputs ≠ []) (houtputs : program.outputs ≠ []) :
    loadManifest (exportedMembers bytes program.graphBlob program.patchReports) bytes
        (program.manifestOf provenance) = .ok loaded ↔
      ((program.graphBlob ≠ [] ∧ program.graphBlob.length ≤ 0x80000000) ∧
        (program.inputNames.Nodup ∧ ∀ contract ∈ program.inputs, contract.IsExecutable) ∧
        (program.outputNames.Nodup ∧ ∀ contract ∈ program.outputs, contract.IsExecutable) ∧
        program.patchReports.length ≤ 1024 ∧
        (∀ report ∈ program.patchReports, report.length ≤ 0x1000000) ∧
        (program.patchReports.map List.length).sum ≤ 0x4000000) ∧
      { program with irProvenance := none, artifactManifest := some bytes } = loaded := by
  have hkeys : (program.manifestOf provenance).HasKeys ["graph", "inputs", "outputs",
      "patch_reports", "provenance", "schema"] := rfl
  have hpath : IsMemberPath "graph.blob" := by decide +kernel
  have hgraph : (exportedMembers bytes program.graphBlob program.patchReports).lookup
      "graph.blob" = some program.graphBlob :=
    lookup_exportedMembers (List.mem_cons_of_mem _ List.mem_cons_self)
  have hreports : ∀ entry ∈ program.patchReports.zipIdx 0,
      (exportedMembers bytes program.graphBlob program.patchReports).lookup
        (reportPath entry.2) = some entry.1 := fun entry hentry =>
    lookup_reportPath (List.mem_zipIdx_iff_getElem?.1 hentry)
  have hprovenance : ¬(((provenance.map NpuProvenance.toJson).getD .null).isNull = false ∧
      ((provenance.map NpuProvenance.toJson).getD .null).isObject = false) := by
    cases provenance <;> simp [NpuProvenance.toJson, Json.isNull, Json.isObject]
  have hnames : ((exportedMembers bytes program.graphBlob program.patchReports).map
      Prod.fst).toFinset = ("manifest.json" :: "graph.blob" ::
        (List.range (program.patchReports.mapIdx fun index report =>
          entryJson (reportPath index) report).length).map reportPath).toFinset := by
    rw [map_fst_exportedMembers, List.length_mapIdx]
  rw [loadManifest]
  constructor
  · intro h
    obtain ⟨-, h⟩ := refuseIf_bind_eq_ok_iff.1 h
    obtain ⟨-, h⟩ := refuseIf_bind_eq_ok_iff.1 h
    obtain ⟨-, h⟩ := refuseIf_bind_eq_ok_iff.1 h
    obtain ⟨entry, hentry, h⟩ := bind_eq_ok_iff.1 h
    obtain rfl := Except.ok.inj ((manifestBlobEntry_entryJson _ hpath _).symm.trans hentry)
    dsimp only at h
    obtain ⟨hne, h⟩ := refuseIf_bind_eq_ok_iff.1 h
    rw [not_or] at hne
    obtain ⟨blob, hblob, h⟩ := bind_eq_ok_iff.1 h
    obtain ⟨hsize, rfl⟩ := (bundleMember_eq_ok_iff hgraph).1 hblob
    obtain ⟨-, h⟩ := refuseIf_bind_eq_ok_iff.1 h
    obtain ⟨inputs, hread, h⟩ := bind_eq_ok_iff.1 h
    obtain ⟨hinputs, rfl⟩ := (manifestContracts_eq_ok_iff hinputs).1 hread
    obtain ⟨outputs, hread, h⟩ := bind_eq_ok_iff.1 h
    obtain ⟨houtputs, rfl⟩ := (manifestContracts_eq_ok_iff houtputs).1 hread
    obtain ⟨hcount, h⟩ := refuseIf_bind_eq_ok_iff.1 h
    obtain ⟨read, hread, h⟩ := bind_eq_ok_iff.1 h
    rw [reportEntries_eq] at hread
    obtain ⟨⟨hsizes, htotal⟩, rfl⟩ :=
      (foldlM_loadReport_eq_ok_iff hreports (Nat.zero_le _)).1 hread
    obtain ⟨-, h⟩ := refuseIf_bind_eq_ok_iff.1 h
    rw [List.length_mapIdx, not_lt] at hcount
    rw [zero_add] at htotal
    exact ⟨⟨⟨fun hnil => hne.2 (by rw [hnil]; rfl), hsize⟩, hinputs, houtputs, hcount, hsizes,
      htotal⟩, Except.ok.inj h⟩
  · rintro ⟨⟨⟨hne, hsize⟩, hin, hout, hcount, hsizes, htotal⟩, rfl⟩
    refine refuseIf_bind_eq_ok_iff.2 ⟨not_not.2 rfl, refuseIf_bind_eq_ok_iff.2
      ⟨not_not.2 hkeys, refuseIf_bind_eq_ok_iff.2 ⟨hprovenance, bind_eq_ok_iff.2
        ⟨_, manifestBlobEntry_entryJson _ hpath _, refuseIf_bind_eq_ok_iff.2
          ⟨not_or.2 ⟨not_not.2 rfl, fun hzero => hne (List.length_eq_zero_iff.1 hzero)⟩,
            bind_eq_ok_iff.2
            ⟨_, (bundleMember_eq_ok_iff hgraph).2 ⟨hsize, rfl⟩, ?_⟩⟩⟩⟩⟩⟩
    refine refuseIf_bind_eq_ok_iff.2 ⟨by simp, bind_eq_ok_iff.2
      ⟨_, (manifestContracts_eq_ok_iff hinputs).2 ⟨hin, rfl⟩, bind_eq_ok_iff.2
        ⟨_, (manifestContracts_eq_ok_iff houtputs).2 ⟨hout, rfl⟩, refuseIf_bind_eq_ok_iff.2
          ⟨by rwa [List.length_mapIdx, not_lt], ?_⟩⟩⟩⟩
    have hread : (reportEntries 0 program.patchReports).foldlM (loadReport
        (exportedMembers bytes program.graphBlob program.patchReports)) (0, []) =
          .ok (0 + (program.patchReports.map List.length).sum, [] ++ program.patchReports) :=
      (foldlM_loadReport_eq_ok_iff hreports (Nat.zero_le _)).2
        ⟨⟨hsizes, by rwa [zero_add]⟩, rfl⟩
    rw [← reportEntries_eq] at hread
    exact bind_eq_ok_iff.2 ⟨_, hread, refuseIf_bind_eq_ok_iff.2 ⟨not_not.2 hnames, rfl⟩⟩

theorem load_exportedMembers_eq_ok_iff {provenance : Option NpuProvenance} {loaded : Program}
    (hloads : codec.Lossless (program.manifestOf provenance)) :
    load codec (exportedMembers (codec.dumps (program.manifestOf provenance)) program.graphBlob
        program.patchReports) = .ok loaded ↔
      (codec.dumps (program.manifestOf provenance)).length ≤ 0x100000 ∧
        loadManifest (exportedMembers (codec.dumps (program.manifestOf provenance))
          program.graphBlob program.patchReports) (codec.dumps (program.manifestOf provenance))
            (program.manifestOf provenance) = .ok loaded := by
  have hfirst : (exportedMembers (codec.dumps (program.manifestOf provenance)) program.graphBlob
      program.patchReports).lookup "manifest.json" =
        some (codec.dumps (program.manifestOf provenance)) :=
    lookup_exportedMembers List.mem_cons_self
  rw [load, refuseIf_bind_eq_ok_iff, bind_eq_ok_iff]
  constructor
  · rintro ⟨-, _, hmember, h⟩
    obtain ⟨hsize, rfl⟩ := (bundleMember_eq_ok_iff hfirst).1 hmember
    rw [hloads] at h
    exact ⟨hsize, h⟩
  · rintro ⟨hsize, h⟩
    refine ⟨not_not.2 nodup_exportedMembers, _,
      (bundleMember_eq_ok_iff hfirst).2 ⟨hsize, rfl⟩, ?_⟩
    rw [hloads]
    exact h

/-- For every program of a graph that is exported : the bundle is loaded back just when the
program is within what `load` admits. -/
theorem load_export_iff {graph : Graph} {graphBlob : List UInt8}
    {irProvenance : Option IrCompileResult} {patchReports : List (List UInt8)}
    {archive : Bundle}
    (hprogram : Program.ofGraph graph graphBlob irProvenance patchReports = .ok program)
    (hexport : program.exportBundle codec = .ok archive)
    (hcodec : ∀ manifest, program.manifest codec = .ok manifest → codec.Lossless manifest) :
    program.LoadsBack codec archive ↔ program.IsLoadable codec := by
  have hinputs := inputs_ne_nil_ofGraph hprogram
  have houtputs := outputs_ne_nil_ofGraph hprogram
  obtain ⟨provenance, hprovenance, rfl⟩ := exportBundle_eq_ok_iff.1 hexport
  have hmanifest := manifest_eq hprovenance
  have hloads := hcodec _ hmanifest
  constructor
  · rintro ⟨loaded, h, -⟩
    obtain ⟨hsize, h⟩ := (load_exportedMembers_eq_ok_iff hloads).1 h
    obtain ⟨⟨hblob, hin, hout, hcount, hsizes, htotal⟩, -⟩ :=
      (loadManifest_eq_ok_iff hinputs houtputs).1 h
    exact {
      inputs := hin.2
      outputs := hout.2
      inputNames := hin.1
      outputNames := hout.1
      graphBlob := hblob
      reportCount := hcount
      reportSize := hsizes
      reportTotal := htotal
      manifestSize := fun manifest h => by
        obtain rfl := Except.ok.inj (hmanifest.symm.trans h)
        exact hsize }
  · intro h
    have hloaded : ({ program with
        irProvenance := none
        artifactManifest := some (codec.dumps (program.manifestOf provenance)) } :
          Program).provenance codec = .ok provenance := provenance_of_manifest rfl rfl hloads
    refine ⟨_, (load_exportedMembers_eq_ok_iff hloads).2 ⟨h.manifestSize _ hmanifest,
      (loadManifest_eq_ok_iff hinputs houtputs).2 ⟨⟨h.graphBlob, ⟨h.inputNames, h.inputs⟩,
        ⟨h.outputNames, h.outputs⟩, h.reportCount, h.reportSize, h.reportTotal⟩, rfl⟩⟩,
      rfl, rfl, rfl, rfl, ?_, ?_⟩
    · rw [hloaded, hprovenance]
    · rw [manifest_eq hloaded, hmanifest]
      rfl

end Program

/-! ## Two small bundles -/

/-- The codec of one text. -/
def textCodec (text : List UInt8) (value : Json) : JsonCodec where
  dumps _ := text
  loads bytes := if bytes = text then some value else none

theorem lossless_textCodec (text : List UInt8) (value : Json) :
    (textCodec text value).Lossless value :=
  if_pos rfl

/-- The text of the manifest of a program with the blob `[1]`, where both contracts have the
shape `2,8`. -/
def manifestLines (inputDtype outputDtype : DType) (input output : String)
    (reports provenance : List String) : List UInt8 :=
  let contract := fun (name : String) (dtype : DType) =>
    ["    \x7b", "      \"dtype\": \"" ++ dtype.name ++ "\",",
      "      \"name\": \"" ++ name ++ "\",", "      \"shape\": [", "        2,", "        8",
      "      ]", "    \x7d"]
  (String.intercalate "\n" (["\x7b", "  \"graph\": \x7b", "    \"path\": \"graph.blob\",",
    "    \"sha256\": \"4bf5122f344554c53bde2ebb8cd2b7e3d1600ad631c385a5d7cce23c7785459a\",",
    "    \"size\": 1", "  \x7d,", "  \"inputs\": ["] ++ contract input inputDtype ++
    ["  ],", "  \"outputs\": ["] ++ contract output outputDtype ++ ["  ],"] ++ reports ++
    provenance ++ ["  \"schema\": \"npunlock.program.v1\"", "\x7d", ""])).toUTF8.toList

/-- The text without reports and without provenance. -/
def manifestText (inputDtype outputDtype : DType) (input output : String) : List UInt8 :=
  manifestLines inputDtype outputDtype input output ["  \"patch_reports\": [],"]
    ["  \"provenance\": null,"]

/-- The text with one report, of two bytes, and the provenance of `reportedProgram`. -/
def reportedText : List UInt8 :=
  manifestLines .f16 .f16 "x" "y"
    ["  \"patch_reports\": [", "    \x7b", "      \"path\": \"patch-reports/000.json\",",
      "      \"sha256\": \"44136fa355b3678a1146ad16f7e8649e94fb4fc21fe77e8310c060f61caaff8a\",",
      "      \"size\": 2", "    \x7d", "  ],"]
    ["  \"provenance\": \x7b", "    \"compiler_version\": [", "      8,", "      3", "    ],",
      "    \"device_id\": 32029,", "    \"device_index\": 0,", "    \"driver_index\": 0,",
      "    \"driver_version\": 1,", "    \"graph_extension_version\": 1,",
      "    \"vendor_id\": 32902", "  \x7d,"]

def reportedResult : IrCompileResult :=
  ⟨[1], 0, 0, 1, 0x8086, 0x7d1d, 1, (8, 3)⟩

/-- A program with a patch report and a provenance. -/
def reportedProgram : Program :=
  (Program.ofGraph customGraph [1] (some reportedResult) [[0x7b, 0x7d]]).toOption.get (by decide)

theorem reportedProgram_eq :
    Program.ofGraph customGraph [1] (some reportedResult) [[0x7b, 0x7d]] = .ok reportedProgram :=
  rfl

def reportedProvenance : NpuProvenance :=
  (NpuProvenance.fromIrResult reportedResult).toOption.get (by decide)

theorem provenance_reportedProgram (codec : JsonCodec) :
    reportedProgram.provenance codec = .ok (some reportedProvenance) :=
  rfl

def reportedCodec : JsonCodec :=
  textCodec reportedText (reportedProgram.manifestOf (some reportedProvenance))

theorem isLoadable_reportedProgram : reportedProgram.IsLoadable reportedCodec where
  inputs := by unfold TensorContract.IsExecutable; decide
  outputs := by unfold TensorContract.IsExecutable; decide
  inputNames := by decide
  outputNames := by decide
  graphBlob := by decide
  reportCount := by decide
  reportSize := by decide
  reportTotal := by decide
  manifestSize _ _ := by
    change reportedText.length ≤ 0x100000
    decide +kernel

theorem load_export_iff_reportedProgram :
    reportedProgram.LoadsBack reportedCodec
      (exportedMembers reportedText [1] [[0x7b, 0x7d]]) := by
  have hexport : reportedProgram.exportBundle reportedCodec =
      .ok (exportedMembers reportedText [1] [[0x7b, 0x7d]]) :=
    Program.exportBundle_eq_ok_iff.2 ⟨_, provenance_reportedProgram _, rfl⟩
  refine (Program.load_export_iff reportedProgram_eq hexport fun manifest h => ?_).2
    isLoadable_reportedProgram
  rw [Program.manifest_eq (provenance_reportedProgram _)] at h
  obtain rfl := Except.ok.inj h
  exact lossless_textCodec _ _

/-- The graph whose output is its input, of truth values. -/
def flagGraph : Graph :=
  (Graph.init (.ofNodes [{ parameterNode with
    outputSpecs := [⟨[2, 8], .boolean, exampleShape_positive⟩]
    outputSpecs_ne_nil := by simp }] (by decide)) 1
      [⟨0, 0, ⟨[2, 8], .boolean, exampleShape_positive⟩, some "x"⟩]
        [⟨0, 0, ⟨[2, 8], .boolean, exampleShape_positive⟩, some "x"⟩] "flag"
          (by decide) (by decide)).toOption.get (by decide)

def flagProgram : Program :=
  (Program.ofGraph flagGraph [1] none []).toOption.get (by decide)

def flagCodec : JsonCodec :=
  textCodec (manifestText .boolean .boolean "x" "x") (flagProgram.manifestOf none)

/-- The program of `flagGraph` is exported to a bundle that cannot be loaded. -/
theorem load_refuses_exported :
    Program.ofGraph flagGraph [1] none [] = .ok flagProgram ∧
      flagCodec.Lossless (flagProgram.manifestOf none) ∧
        flagProgram.exportBundle flagCodec =
          .ok (exportedMembers (manifestText .boolean .boolean "x" "x") [1] []) ∧
          ¬flagProgram.LoadsBack flagCodec
            (exportedMembers (manifestText .boolean .boolean "x" "x") [1] []) := by
  refine ⟨rfl, lossless_textCodec _ _, rfl, ?_⟩
  rintro ⟨loaded, h, -⟩
  obtain ⟨-, hmanifest⟩ :=
    (Program.load_exportedMembers_eq_ok_iff (lossless_textCodec _ _)).1 h
  obtain ⟨⟨-, hinputs, -⟩, -⟩ :=
    (Program.loadManifest_eq_ok_iff (by decide) (by decide)).1 hmanifest
  have hexecutable :=
    hinputs.2 ⟨"x", ⟨[2, 8], .boolean, exampleShape_positive⟩, by simp⟩ (by decide)
  exact absurd hexecutable.1 (by decide)

end Npunlock
