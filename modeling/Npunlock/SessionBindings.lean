import Mathlib.Data.List.Perm.Basic
import Npunlock.InferenceSession

/-!
# Bindings of a session

A session binds its arguments by name, so the order of the inputs and of the bindings does not
matter. `inferCopied_eq_ok_iff` and `infer_eq_ok_iff` : a call succeeds just when its inputs and
bindings are, in some order, those of the arguments, and the device then reads them in the
order of the arguments.
-/

namespace Npunlock

/-- Lists of the same elements, which their keys put in the same order. -/
theorem eq_of_perm_of_map_eq {α κ : Type} {key : α → κ} {l l' : List α} (hperm : l.Perm l')
    (hkeys : l.map key = l'.map key) (hnodup : (l.map key).Nodup) : l = l' := by
  have hlength : l.length = l'.length := hperm.length_eq
  refine List.ext_getElem hlength fun i hi hi' => ?_
  refine List.inj_on_of_nodup_map hnodup (List.getElem_mem hi)
    (hperm.mem_iff.2 (List.getElem_mem hi')) ?_
  have hkey : (l.map key)[i]? = (l'.map key)[i]? := by rw [hkeys]
  simpa [hi, hi'] using hkey

/-- Two relations between the same lists. -/
theorem forall₂_both {α β : Type} {R S : α → β → Prop} :
    ∀ {l : List α} {l' : List β}, List.Forall₂ R l l' → List.Forall₂ S l l' →
      List.Forall₂ (fun a b => R a b ∧ S a b) l l'
  | _, _, .nil, .nil => .nil
  | _, _, .cons h hrest, .cons h' hrest' => .cons ⟨h, h'⟩ (forall₂_both hrest hrest')

namespace Session

variable {session : Session} {device : Device} {memory : Memory}

/-- Different entries of a type, as many as there are. -/
theorem perm_selected {type : ArgumentType} {entries : List (SessionArgument × ℕ)}
    (hmem : ∀ entry ∈ entries, entry ∈ session.arguments.zipIdx ∧ entry.1.type = type)
    (hnodup : (entries.map Prod.snd).Nodup)
    (hlength : (session.ofType type).length ≤ entries.length) :
    (session.selected fun argument => argument.type = type).Perm entries := by
  refine ((List.subperm_of_subset hnodup.of_map fun entry hentry => ?_).perm_of_length_le ?_).symm
  · exact List.mem_filter.2 ⟨(hmem entry hentry).1, by simpa using (hmem entry hentry).2⟩
  · rw [ofType, ← session.map_fst_selected, List.length_map] at hlength
    exact hlength

/-! ## Copied inputs -/

/-- The arguments that inputs were matched with. -/
theorem of_matchInputs :
    ∀ {inputs : List InferenceInput} {matched all : List ℕ},
      inputs.foldlM session.matchInput matched = .ok all →
        ∃ entries, List.Forall₂ (fun entry (input : InferenceInput) =>
            (entry ∈ session.arguments.zipIdx ∧ entry.1.type = .input) ∧
              input.name = entry.1.name ∧ input.data.length = entry.1.byteSize) entries inputs ∧
          (entries.map Prod.snd).Nodup ∧ ∀ index ∈ matched, index ∉ entries.map Prod.snd
  | [], _, _, _ => ⟨[], .nil, by simp, by simp⟩
  | input :: inputs, matched, all, h => by
    obtain ⟨next, hstep, hrest⟩ := bind_eq_ok_iff.1 h
    rw [matchInput] at hstep
    split at hstep
    case h_1 => cases hstep
    case h_3 => cases hstep
    case h_2 argument index hselected =>
      split_ifs at hstep with hfits
      cases hstep
      obtain ⟨hindex, hlength⟩ := not_or.1 hfits
      have hentry : (argument, index) ∈ session.selected fun argument =>
          argument.type = .input ∧ argument.name = input.name := by
        rw [hselected]
        exact List.mem_singleton_self _
      rw [selected, List.mem_filter, decide_eq_true_eq] at hentry
      obtain ⟨entries, hentries, hnodup, hfresh⟩ := of_matchInputs hrest
      refine ⟨(argument, index) :: entries,
        .cons ⟨⟨hentry.1, hentry.2.1⟩, hentry.2.2.symm, not_not.1 hlength⟩ hentries,
        List.nodup_cons.2 ⟨hfresh index (by simp), hnodup⟩, fun other hother => ?_⟩
      rw [List.map_cons, List.mem_cons, not_or]
      exact ⟨fun heq : other = index => hindex (heq ▸ hother), hfresh other (by simp [hother])⟩

/-- The data of the input with the name of the argument. -/
theorem copiedData_eq {inputs : List InferenceInput} {argument : SessionArgument}
    {input : InferenceInput} (hinput : input ∈ inputs) (hname : input.name = argument.name)
    (hnames : (inputs.map InferenceInput.name).Nodup) :
    copiedData inputs argument = input.data := by
  have hfind : inputs.find? (fun input => input.name = argument.name) = some input := by
    cases hfound : inputs.find? fun input => input.name = argument.name with
    | none => simpa [hname] using List.find?_eq_none.1 hfound input hinput
    | some found =>
      have hkey := List.find?_some hfound
      rw [List.inj_on_of_nodup_map hnames (List.mem_of_find?_eq_some hfound) hinput
        ((by simpa using hkey : found.name = _).trans hname.symm)]
  rw [copiedData, hfind]
  rfl

/-- The device reads the inputs in the order of the arguments. -/
theorem map_copiedData_perm {inputs order : List InferenceInput} (hperm : order.Perm inputs)
    (hcarries : List.Forall₂ Carries (session.ofType .input) order)
    (hnames : (order.map InferenceInput.name).Nodup) :
    (session.ofType .input).map (copiedData inputs) = order.map InferenceInput.data := by
  refine (map_eq_map_of_forall₂ (fun _ _ h => h) ?_).symm
  refine List.forall₂_iff_get.2 ⟨hcarries.length_eq, fun i hi hi' => ?_⟩
  exact (copiedData_eq (hperm.mem_iff.1 (List.get_mem order ⟨i, hi'⟩))
    ((List.forall₂_iff_get.1 hcarries).2 i hi hi').1 ((hperm.map _).nodup_iff.1 hnames)).symm

/-- Inputs of the arguments are valid and matched, in whatever order. -/
theorem exists_matched {inputs order : List InferenceInput} (hperm : order.Perm inputs)
    (hcarries : List.Forall₂ Carries (session.ofType .input) order)
    (hnames : (order.map InferenceInput.name).Nodup) :
    (∃ all, inputs.foldlM validateInput [] = .ok all) ∧
      ∃ matched, inputs.foldlM session.matchInput [] = .ok matched := by
  constructor
  · refine (exists_validateInputs_iff _ []).2
      ⟨fun input hinput => ?_, (hperm.map _).nodup_iff.1 hnames, by simp⟩
    obtain ⟨argument, hargument, hname, hne, hsize⟩ :=
      exists_of_forall₂ hcarries.flip (hperm.mem_iff.2 hinput)
    have hpos := byteSize_pos (List.mem_of_mem_filter hargument)
    have hnul := argument.name_nul_free
    rw [← hname] at hnul
    have hdata : input.data ≠ [] := List.ne_nil_of_length_pos (by omega)
    simp [InferenceInput.isValid, hne, hnul, hdata]
  · have hentries : List.Forall₂ (fun entry input => Carries entry.1 input)
        (session.selected fun argument => argument.type = .input) order := by
      rw [ofType, ← session.map_fst_selected, List.forall₂_map_left_iff] at hcarries
      exact hcarries
    obtain ⟨entries, hmatch, hentriesPerm⟩ := List.perm_comp_forall₂ hperm.symm hentries.flip
    have hargumentNames : ((session.ofType .input).map SessionArgument.name).Nodup := by
      rwa [← map_eq_map_of_forall₂ (fun _ _ hcarries => hcarries.1) hcarries]
    refine exists_matchInputs hargumentNames [] hmatch.flip (fun entry hentry => ?_)
      ((hentriesPerm.map _).nodup_iff.2 (session.nodup_indices .input)) (by simp)
    simpa [selected] using hentriesPerm.mem_iff.1 hentry

/-- Copied inputs are run just when they are, in some order, those of the arguments. -/
theorem inferCopied_eq_ok_iff {inputs : List InferenceInput}
    {outputs : List (SessionArgument × List UInt8)} :
    session.inferCopied device inputs = .ok outputs ↔
      ∃ order, order.Perm inputs ∧ List.Forall₂ Carries (session.ofType .input) order ∧
        (order.map InferenceInput.name).Nodup ∧
          ∃ written, device (order.map InferenceInput.data) = .ok written ∧
            (session.ofType .output).zip written = outputs := by
  constructor
  · intro h
    rw [inferCopied, refuseIf_bind_eq_ok_iff, bind_eq_ok_iff] at h
    obtain ⟨-, all, hall, h⟩ := h
    rw [refuseIf_bind_eq_ok_iff, not_not, bind_eq_ok_iff] at h
    obtain ⟨hlength, matched, hmatched, h⟩ := h
    obtain ⟨written, hwritten, h⟩ := bind_eq_ok_iff.1 h
    obtain ⟨hvalid, hnames, -⟩ := (exists_validateInputs_iff _ _).1 ⟨all, hall⟩
    obtain ⟨entries, hentries, hnodup, -⟩ := of_matchInputs hmatched
    have hentriesPerm := perm_selected
      (fun entry hentry => (exists_of_forall₂ hentries hentry).elim fun _ h => h.2.1) hnodup
      (hentries.length_eq.trans hlength).ge
    obtain ⟨order, horder, hperm⟩ := List.perm_comp_forall₂ hentriesPerm hentries
    have hcarries : List.Forall₂ Carries (session.ofType .input) order := by
      rw [ofType, ← session.map_fst_selected, List.forall₂_map_left_iff]
      refine List.forall₂_iff_get.2 ⟨horder.length_eq, fun i hi hi' => ?_⟩
      obtain ⟨-, hname, hdata⟩ := (List.forall₂_iff_get.1 horder).2 i hi hi'
      have hinput := hvalid _ (hperm.mem_iff.1 (List.get_mem order ⟨i, hi'⟩))
      rw [InferenceInput.isValid, decide_eq_true_eq] at hinput
      exact ⟨hname, hinput.1, hdata⟩
    have hnodupNames := (hperm.map _).nodup_iff.2 hnames
    rw [map_copiedData_perm hperm hcarries hnodupNames, mapError_eq_ok_iff] at hwritten
    exact ⟨order, hperm, hcarries, hnodupNames, written, hwritten, Except.ok.inj h⟩
  · rintro ⟨order, hperm, hcarries, hnames, written, hdevice, rfl⟩
    obtain ⟨⟨all, hall⟩, matched, hmatched⟩ := exists_matched hperm hcarries hnames
    have hlength := hcarries.length_eq.trans hperm.length_eq
    have hne := session.ofType_ne_nil .input
    have hle := session.length_ofType_le .input
    rw [inferCopied, refuseIf_of_not _ ?_]
    · refine bind_eq_ok_iff.2 ⟨(), rfl, bind_eq_ok_iff.2 ⟨all, hall, ?_⟩⟩
      rw [refuseIf_of_not _ (not_not.2 hlength.symm)]
      refine bind_eq_ok_iff.2 ⟨(), rfl, bind_eq_ok_iff.2 ⟨matched, hmatched, ?_⟩⟩
      rw [map_copiedData_perm hperm hcarries hnames, hdevice]
      rfl
    · rw [not_or, ← List.length_eq_zero_iff]
      rw [← List.length_pos_iff] at hne
      omega

/-- Inputs with different names that fit the arguments are run. -/
theorem inferCopied_eq {inputs : List InferenceInput} {outputs : List (List UInt8)}
    (h : List.Forall₂ Carries (session.ofType .input) inputs)
    (hnames : (inputs.map InferenceInput.name).Nodup)
    (hdevice : device (inputs.map InferenceInput.data) = .ok outputs) :
    session.inferCopied device inputs = .ok ((session.ofType .output).zip outputs) :=
  inferCopied_eq_ok_iff.2 ⟨inputs, .refl _, h, hnames, outputs, hdevice, rfl⟩

/-- A run with copied inputs needs inputs with different names. -/
theorem nodup_of_inferCopied {inputs : List InferenceInput}
    {outputs : List (SessionArgument × List UInt8)}
    (h : session.inferCopied device inputs = .ok outputs) :
    (inputs.map InferenceInput.name).Nodup := by
  obtain ⟨order, hperm, -, hnames, -⟩ := inferCopied_eq_ok_iff.1 h
  exact (hperm.map _).nodup_iff.1 hnames

/-! ## Shared buffers -/

/-- A binding selects the argument of the entry and fits it. -/
structure Collected (session : Session) (memory : Memory) (type : ArgumentType)
    (entry : SessionArgument × ℕ) (binding : String × SharedBuffer) : Prop where
  selects : (session.selected fun argument => argument.name = binding.1) = [entry]
  type_eq : entry.1.type = type
  binds : Binds session memory entry.1 binding

theorem Collected.mem {type : ArgumentType} {entry : SessionArgument × ℕ}
    {binding : String × SharedBuffer} (h : Collected session memory type entry binding) :
    entry ∈ session.arguments.zipIdx := by
  have hentry : entry ∈ session.selected fun argument => argument.name = binding.1 := by
    rw [h.selects]
    exact List.mem_singleton_self _
  exact (List.mem_filter.1 hentry).1

/-- The arguments that bindings were collected for. -/
theorem entries_of_collectBindings {type : ArgumentType} :
    ∀ {bindings : List (String × SharedBuffer)} {allocations all : List (ℕ × ℕ)},
      bindings.foldlM (session.collectBinding memory type) allocations = .ok all →
        ∃ entries, List.Forall₂ (Collected session memory type) entries bindings ∧
          (entries.map Prod.snd).Nodup ∧
            (∀ index ∈ allocations.map Prod.fst, index ∉ entries.map Prod.snd) ∧
              all = allocations ++
                (entries.map Prod.snd).zip (bindings.map fun binding => binding.2.allocation)
  | [], _, _, h => by
    cases h
    exact ⟨[], .nil, by simp, by simp, by simp⟩
  | binding :: bindings, allocations, all, h => by
    obtain ⟨next, hstep, hrest⟩ := bind_eq_ok_iff.1 h
    rw [collectBinding, refuseIf_bind_eq_ok_iff, not_or] at hstep
    obtain ⟨⟨hne, -⟩, hstep⟩ := hstep
    split at hstep
    case h_1 => cases hstep
    case h_3 => cases hstep
    case h_2 argument index hselected =>
      rw [refuseIf_bind_eq_ok_iff, refuseIf_bind_eq_ok_iff, not_or, not_or, not_not, not_not,
        not_not] at hstep
      obtain ⟨⟨htype, hindex⟩, ⟨howner, hsize⟩, hnext⟩ := hstep
      cases hnext
      have hentry : (argument, index) ∈ session.selected fun argument =>
          argument.name = binding.1 := by
        rw [hselected]
        exact List.mem_singleton_self _
      rw [selected, List.mem_filter, decide_eq_true_eq] at hentry
      obtain ⟨entries, hentries, hnodup, hfresh, rfl⟩ := entries_of_collectBindings hrest
      refine ⟨(argument, index) :: entries,
        .cons ⟨hselected, htype, hentry.2.symm, hne, howner, hsize⟩ hentries,
        List.nodup_cons.2 ⟨hfresh index (by simp), hnodup⟩, fun other hother => ?_, by simp⟩
      rw [List.map_cons, List.mem_cons, not_or]
      exact ⟨fun heq : other = index => hindex (heq ▸ hother),
        hfresh other (by rw [List.map_append]; exact List.mem_append_left _ hother)⟩

/-- A binding fits its argument, whose index is bound to its buffer. -/
def BoundTo (session : Session) (memory : Memory) (allocations : List (ℕ × ℕ))
    (entry : SessionArgument × ℕ) (binding : String × SharedBuffer) : Prop :=
  Binds session memory entry.1 binding ∧
    allocations.lookup entry.2 = some binding.2.allocation

/-- Bindings in the order of the arguments. -/
theorem exists_order {type : ArgumentType} {allocations : List (ℕ × ℕ)}
    {entries : List (SessionArgument × ℕ)} {bindings : List (String × SharedBuffer)}
    (hperm : (session.selected fun argument => argument.type = type).Perm entries)
    (hbound : List.Forall₂ (BoundTo session memory allocations) entries bindings) :
    ∃ order, order.Perm bindings ∧
      List.Forall₂ (Binds session memory) (session.ofType type) order ∧
      List.Forall₂ (fun index allocation => allocations.lookup index = some allocation)
        (session.indices type) (order.map fun binding => binding.2.allocation) := by
  obtain ⟨order, horder, hpermOrder⟩ := List.perm_comp_forall₂ hperm hbound
  refine ⟨order, hpermOrder, ?_, ?_⟩
  · rw [ofType, ← session.map_fst_selected, List.forall₂_map_left_iff]
    exact horder.imp fun _ _ h => h.1
  · rw [indices, List.forall₂_map_left_iff, List.forall₂_map_right_iff]
    exact horder.imp fun _ _ h => h.2

/-- What a run does when the bindings of the entries were collected : it reads and writes in
the order of the arguments. -/
theorem infer_of_entries (device : Device) {inputs outputs : List (String × SharedBuffer)}
    {entries entries' : List (SessionArgument × ℕ)}
    (hinputs : List.Forall₂ (fun entry binding => Binds session memory entry.1 binding)
      entries inputs)
    (houtputs : List.Forall₂ (fun entry binding => Binds session memory entry.1 binding)
      entries' outputs)
    (hperm : (session.selected fun argument => argument.type = .input).Perm entries)
    (hperm' : (session.selected fun argument => argument.type = .output).Perm entries')
    (hbound : inputs.foldlM (session.collectBinding memory .input) [] =
      .ok ((entries.map Prod.snd).zip (inputs.map fun binding => binding.2.allocation)))
    (hall : outputs.foldlM (session.collectBinding memory .output)
        ((entries.map Prod.snd).zip (inputs.map fun binding => binding.2.allocation)) =
      .ok ((entries.map Prod.snd).zip (inputs.map fun binding => binding.2.allocation) ++
        (entries'.map Prod.snd).zip (outputs.map fun binding => binding.2.allocation))) :
    ∃ ins outs, ins.Perm inputs ∧ outs.Perm outputs ∧
      List.Forall₂ (Binds session memory) (session.ofType .input) ins ∧
      List.Forall₂ (Binds session memory) (session.ofType .output) outs ∧
      session.infer device memory inputs outputs =
        ((device (ins.map fun binding => memory binding.2.allocation)).mapError
          SessionError.driver).bind fun written =>
            .ok (writeAll memory ((outs.map fun binding => binding.2.allocation).zip written)) := by
  have hkeys : (entries.map Prod.snd ++ entries'.map Prod.snd).Perm
      (session.indices .input ++ session.indices .output) :=
    ((hperm.map _).symm).append ((hperm'.map _).symm)
  have hlength : entries.length = inputs.length := hinputs.length_eq
  have hlength' : entries'.length = outputs.length := houtputs.length_eq
  have hzip : (entries.map Prod.snd).zip (inputs.map fun binding => binding.2.allocation) ++
      (entries'.map Prod.snd).zip (outputs.map fun binding => binding.2.allocation) =
        (entries.map Prod.snd ++ entries'.map Prod.snd).zip
          ((inputs ++ outputs).map fun binding => binding.2.allocation) := by
    rw [List.map_append, List.zip_append (by simp [hlength])]
  rw [hzip] at hall
  have hlookup := forall₂_lookup_zip ((inputs ++ outputs).map fun binding => binding.2.allocation)
    (hkeys.nodup_iff.2 session.nodup_allIndices) (by simp [hlength, hlength'])
  generalize hallocations : (entries.map Prod.snd ++ entries'.map Prod.snd).zip
    ((inputs ++ outputs).map fun binding => binding.2.allocation) = allocations at hall hlookup
  have hfst : allocations.map Prod.fst = entries.map Prod.snd ++ entries'.map Prod.snd := by
    rw [← hallocations, List.map_fst_zip (by simp [hlength, hlength'])]
  rw [List.map_append] at hlookup
  have hread := List.forall₂_take_append _ _ _ hlookup
  have hwrite := List.forall₂_drop_append _ _ _ hlookup
  rw [List.length_map, ← hlength, List.take_left' (List.length_map _), List.forall₂_map_left_iff,
    List.forall₂_map_right_iff] at hread
  rw [List.length_map, ← hlength, List.drop_left' (List.length_map _), List.forall₂_map_left_iff,
    List.forall₂_map_right_iff] at hwrite
  obtain ⟨ins, hins, hinsBinds, hinsLookup⟩ := exists_order hperm
    (forall₂_both hinputs hread)
  obtain ⟨outs, houts, houtsBinds, houtsLookup⟩ := exists_order hperm'
    (forall₂_both houtputs hwrite)
  refine ⟨ins, outs, hins, houts, hinsBinds, houtsBinds, ?_⟩
  have hcontents : (session.indices .input).map (fun index =>
      ((allocations.lookup index).map memory).getD []) =
        ins.map fun binding => memory binding.2.allocation := by
    refine (map_eq_map_of_forall₂ (fun index binding hallocation => ?_)
      (List.forall₂_map_right_iff.1 hinsLookup)).symm
    rw [hallocation]
    rfl
  have hcount := hinsBinds.length_eq.trans hins.length_eq
  have hcount' := houtsBinds.length_eq.trans houts.length_eq
  have hnone : ¬∃ index ∈ List.range session.arguments.length,
      index ∉ allocations.map Prod.fst := by
    rintro ⟨index, hindex, hnot⟩
    rw [hfst, hkeys.mem_iff] at hnot
    exact hnot (session.mem_allIndices (List.mem_range.1 hindex))
  rw [infer, refuseIf_of_not _ (by simp [hcount, hcount']), ok_bind, hbound, ok_bind, hall, ok_bind,
    refuseIf_of_not _ hnone, ok_bind]
  dsimp only
  rw [hcontents]
  refine congrArg _ (funext fun written => ?_)
  rw [writeOutputs_eq houtsLookup]

/-- The names of all arguments differ where each is selected by the name of its binding. -/
theorem nodup_names_of_collected {inputs outputs : List (String × SharedBuffer)}
    {entries entries' : List (SessionArgument × ℕ)}
    (hinputs : List.Forall₂ (Collected session memory .input) entries inputs)
    (houtputs : List.Forall₂ (Collected session memory .output) entries' outputs)
    (hperm : (session.selected fun argument => argument.type = .input).Perm entries)
    (hperm' : (session.selected fun argument => argument.type = .output).Perm entries') :
    (session.arguments.map SessionArgument.name).Nodup := by
  have honly : ∀ entry ∈ session.arguments.zipIdx, ∀ other ∈ session.arguments.zipIdx,
      entry.1.name = other.1.name → entry = other := by
    intro entry hentry other hother hname
    have hselects : ∃ name, (session.selected fun argument => argument.name = name) = [entry] ∧
        name = entry.1.name := by
      cases htype : entry.1.type with
      | input =>
        have hmem : entry ∈ entries := hperm.mem_iff.1
          (List.mem_filter.2 ⟨hentry, by simpa using htype⟩)
        obtain ⟨binding, -, hcollected⟩ := exists_of_forall₂ hinputs hmem
        exact ⟨_, hcollected.selects, hcollected.binds.1⟩
      | output =>
        have hmem : entry ∈ entries' := hperm'.mem_iff.1
          (List.mem_filter.2 ⟨hentry, by simpa using htype⟩)
        obtain ⟨binding, -, hcollected⟩ := exists_of_forall₂ houtputs hmem
        exact ⟨_, hcollected.selects, hcollected.binds.1⟩
    obtain ⟨_, hselects, rfl⟩ := hselects
    have hmem : other ∈ session.selected fun argument => argument.name = entry.1.name :=
      List.mem_filter.2 ⟨hother, by simpa using hname.symm⟩
    rw [hselects, List.mem_singleton] at hmem
    exact hmem.symm
  have hnodup : (session.arguments.zipIdx.map fun entry => entry.1.name).Nodup :=
    session.nodup_zipIdx.map_on honly
  rwa [← Function.comp_def SessionArgument.name Prod.fst, ← List.map_map,
    List.zipIdx_map_fst] at hnodup

/-- Bindings of the arguments are collected, in whatever order. -/
theorem exists_entries {type : ArgumentType} {bindings order : List (String × SharedBuffer)}
    (hperm : order.Perm bindings)
    (hbinds : List.Forall₂ (Binds session memory) (session.ofType type) order) :
    ∃ entries, List.Forall₂ (fun entry binding => Binds session memory entry.1 binding)
        entries bindings ∧
      (session.selected fun argument => argument.type = type).Perm entries ∧
        (∀ entry ∈ entries, entry ∈ session.arguments.zipIdx ∧ entry.1.type = type) ∧
          (entries.map Prod.snd).Perm (session.indices type) := by
  rw [ofType, ← session.map_fst_selected, List.forall₂_map_left_iff] at hbinds
  obtain ⟨entries, hentries, hentriesPerm⟩ := List.perm_comp_forall₂ hperm.symm hbinds.flip
  refine ⟨entries, hentries.flip, hentriesPerm.symm, fun entry hentry => ?_, hentriesPerm.map _⟩
  simpa [selected] using hentriesPerm.mem_iff.1 hentry

/-- The order of the arguments is the only one in which bindings fit them. -/
theorem order_unique {type : ArgumentType} {bindings order order' : List (String × SharedBuffer)}
    (hnames : (session.arguments.map SessionArgument.name).Nodup)
    (hperm : order.Perm bindings) (hperm' : order'.Perm bindings)
    (hbinds : List.Forall₂ (Binds session memory) (session.ofType type) order)
    (hbinds' : List.Forall₂ (Binds session memory) (session.ofType type) order') :
    order = order' := by
  have hkeys : order.map Prod.fst = (session.ofType type).map SessionArgument.name :=
    map_eq_map_of_forall₂ (fun _ _ h => h.1) hbinds
  have hkeys' : order'.map Prod.fst = (session.ofType type).map SessionArgument.name :=
    map_eq_map_of_forall₂ (fun _ _ h => h.1) hbinds'
  refine eq_of_perm_of_map_eq (hperm.trans hperm'.symm) (hkeys.trans hkeys'.symm) ?_
  rw [hkeys]
  exact hnames.sublist (List.filter_sublist.map _)

/-- Bindings are run on just when all arguments have names of their own and the bindings are,
in some order, those of the arguments. -/
theorem infer_eq_ok_iff {inputs outputs : List (String × SharedBuffer)} {memory' : Memory} :
    session.infer device memory inputs outputs = .ok memory' ↔
      (session.arguments.map SessionArgument.name).Nodup ∧
        ∃ ins outs, ins.Perm inputs ∧ outs.Perm outputs ∧
          List.Forall₂ (Binds session memory) (session.ofType .input) ins ∧
          List.Forall₂ (Binds session memory) (session.ofType .output) outs ∧
          ∃ written, device (ins.map fun binding => memory binding.2.allocation) = .ok written ∧
            writeAll memory ((outs.map fun binding => binding.2.allocation).zip written) =
              memory' := by
  constructor
  · intro h
    have hrun := h
    rw [infer, refuseIf_bind_eq_ok_iff, not_or, not_not, not_not, bind_eq_ok_iff] at h
    obtain ⟨⟨hlength, hlength'⟩, bound, hbound, h⟩ := h
    obtain ⟨allocations, hall, -⟩ := bind_eq_ok_iff.1 h
    obtain ⟨entries, hinputs, hnodup, -, rfl⟩ := entries_of_collectBindings hbound
    obtain ⟨entries', houtputs, hnodup', -, rfl⟩ := entries_of_collectBindings hall
    have hperm := perm_selected (fun entry hentry => (exists_of_forall₂ hinputs hentry).elim
      fun _ h => ⟨h.2.mem, h.2.type_eq⟩) hnodup (hinputs.length_eq.trans hlength).ge
    have hperm' := perm_selected (fun entry hentry => (exists_of_forall₂ houtputs hentry).elim
      fun _ h => ⟨h.2.mem, h.2.type_eq⟩) hnodup' (houtputs.length_eq.trans hlength').ge
    refine ⟨nodup_names_of_collected hinputs houtputs hperm hperm', ?_⟩
    obtain ⟨ins, outs, hins, houts, hinsBinds, houtsBinds, heq⟩ :=
      infer_of_entries device (hinputs.imp fun _ _ h => h.binds)
        (houtputs.imp fun _ _ h => h.binds) hperm hperm' hbound hall
    rw [heq] at hrun
    obtain ⟨written, hwritten, hrun⟩ := bind_eq_ok_iff.1 hrun
    exact ⟨ins, outs, hins, houts, hinsBinds, houtsBinds, written, mapError_eq_ok_iff.1 hwritten,
      Except.ok.inj hrun⟩
  · rintro ⟨hnames, ins, outs, hins, houts, hinsBinds, houtsBinds, written, hdevice, rfl⟩
    obtain ⟨entries, hentries, hperm, hmem, hindices⟩ := exists_entries hins hinsBinds
    obtain ⟨entries', hentries', hperm', hmem', hindices'⟩ := exists_entries houts houtsBinds
    have hlength : entries.length = inputs.length := hentries.length_eq
    have hbound := collectBindings_eq hnames [] hentries hmem
      (hindices.nodup_iff.2 (session.nodup_indices _)) (by simp)
    rw [List.nil_append] at hbound
    have hall := collectBindings_eq hnames
      ((entries.map Prod.snd).zip (inputs.map fun binding => binding.2.allocation)) hentries' hmem'
      (hindices'.nodup_iff.2 (session.nodup_indices _)) fun entry hentry hkey => by
        rw [List.map_fst_zip (by simp [hlength])] at hkey
        exact (List.nodup_append.1 session.nodup_allIndices).2.2 _ (hindices.mem_iff.1 hkey) _
          (hindices'.mem_iff.1 (List.mem_map_of_mem hentry)) rfl
    obtain ⟨ins', outs', hins', houts', hinsBinds', houtsBinds', heq⟩ :=
      infer_of_entries device hentries hentries' hperm hperm' hbound hall
    obtain rfl := order_unique hnames hins hins' hinsBinds hinsBinds'
    obtain rfl := order_unique hnames houts houts' houtsBinds houtsBinds'
    rw [heq, hdevice]
    rfl

/-- Buffers that fit arguments with names of their own are run on. -/
theorem infer_eq {inputs outputs : List (String × SharedBuffer)} {written : List (List UInt8)}
    (hnames : (session.arguments.map SessionArgument.name).Nodup)
    (hinputs : List.Forall₂ (Binds session memory) (session.ofType .input) inputs)
    (houtputs : List.Forall₂ (Binds session memory) (session.ofType .output) outputs)
    (hdevice : device (inputs.map fun binding => memory binding.2.allocation) = .ok written) :
    session.infer device memory inputs outputs =
      .ok (writeAll memory ((outputs.map fun binding => binding.2.allocation).zip written)) :=
  infer_eq_ok_iff.2 ⟨hnames, inputs, outputs, .refl _, .refl _, hinputs, houtputs, written, hdevice,
    rfl⟩

/-- The inputs before the outputs. -/
theorem ofType_append_perm :
    (session.ofType .input ++ session.ofType .output).Perm session.arguments := by
  have hnot : session.ofType .output =
      session.arguments.filter fun argument => !decide (argument.type = .input) := by
    refine List.filter_congr fun argument _ => ?_
    cases argument.type <;> rfl
  rw [hnot]
  exact List.filter_append_perm _ _

/-- A run on shared buffers needs different names for all of them. -/
theorem nodup_of_infer {memory' : Memory} {inputs outputs : List (String × SharedBuffer)}
    (h : session.infer device memory inputs outputs = .ok memory') :
    ((inputs ++ outputs).map Prod.fst).Nodup := by
  obtain ⟨hnames, ins, outs, hins, houts, hinsBinds, houtsBinds, -⟩ := infer_eq_ok_iff.1 h
  have hkeys : (ins ++ outs).map Prod.fst =
      (session.ofType .input ++ session.ofType .output).map SessionArgument.name :=
    map_eq_map_of_forall₂ (fun _ _ h => h.1) (List.rel_append hinsBinds houtsBinds)
  have hperm : ((inputs ++ outputs).map Prod.fst).Perm
      (session.arguments.map SessionArgument.name) := by
    refine ((hins.append houts).map _).symm.trans ?_
    rw [hkeys]
    exact ofType_append_perm.map _
  exact hperm.nodup_iff.2 hnames

end Session

end Npunlock
