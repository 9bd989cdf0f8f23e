import Npunlock.InferenceSession

/-!
# Resolution of tensor bindings

`graphinfer_session_infer` resolves the selectors of shared tensors, an index or a name each,
over all arguments of the graph, and `npunlock_graphinfer_infer_copied` those of copied inputs
over the input arguments. An execution is reached just when the bindings and the arguments
correspond one to one (`resolveBindings_eq_ok_iff`).
-/

namespace Npunlock

/-! ## The code -/

/-- `GRAPHINFER_AUTO_INDEX`. -/
def graphinferAutoIndex : ℕ :=
  0xffffffff

/-- `session_argument`, as far as bindings depend on it. Its index is its place. -/
structure TableArgument where
  type : ArgumentType
  name : List UInt8
  dataSize : ℕ
  deriving DecidableEq

/-- The arguments of a session, at most `SESSION_MAX_ARGUMENTS`. -/
structure ArgumentTable where
  arguments : List TableArgument
  length_le : arguments.length ≤ 64

/-- The selector of a tensor. -/
structure TensorSelector where
  argumentIndex : ℕ
  argumentName : List UInt8
  deriving DecidableEq

/-- `shared_buffer_impl`. -/
structure SharedBufferImpl where
  session : ℕ
  allocation : ℕ
  size : ℕ
  deriving DecidableEq

/-- `graphinfer_shared_buffer`. -/
structure GraphinferSharedBuffer where
  data : ℕ
  size : ℕ
  implementation : Option SharedBufferImpl
  deriving DecidableEq

/-- `graphinfer_shared_tensor`. -/
structure GraphinferSharedTensor where
  selector : TensorSelector
  buffer : Option GraphinferSharedBuffer
  deriving DecidableEq

/-- `graphinfer_input`. -/
structure CopiedTensor where
  selector : TensorSelector
  data : List UInt8
  deriving DecidableEq

inductive TensorBindingError
  | notCovered
  | closed
  | invalidBinding
  | selectorCount
  | ambiguous
  | notUnique
  | wrongBuffer
  | notBound
  | inputMismatch
  | invalidInputs
  | invalidInput
  | duplicateSelector
  deriving DecidableEq

namespace TensorSelector

variable (selector : TensorSelector)

def byIndex : Bool :=
  selector.argumentIndex ≠ graphinferAutoIndex

def byName : Bool :=
  selector.argumentName ≠ []

/-- The test of `collect_bindings` on a candidate. -/
def accepts (candidate : TableArgument × ℕ) : Bool :=
  (selector.byIndex && selector.argumentIndex == candidate.2) ||
    (selector.byName && selector.argumentName == candidate.1.name)

/-- `copied_input_matches`. -/
def copiedInputMatches (candidate : TableArgument × ℕ) : Bool :=
  if selector.argumentIndex ≠ graphinferAutoIndex then selector.argumentIndex == candidate.2
  else selector.argumentName == candidate.1.name

end TensorSelector

namespace CopiedTensor

/-- `input_is_valid`. -/
def isValid (input : CopiedTensor) : Bool :=
  input.data ≠ [] && 0 ∉ input.selector.argumentName &&
    (input.selector.byIndex != input.selector.byName)

/-- The tests `same_index` and `same_name` of `validate_inputs`. -/
def hasSelectorOf (input previous : CopiedTensor) : Bool :=
  (input.selector.byIndex && input.selector.argumentIndex == previous.selector.argumentIndex) ||
    (input.selector.byName && input.selector.argumentName == previous.selector.argumentName)

/-- A round of `validate_inputs`, after the inputs `seen`. -/
def validateInput (seen : List CopiedTensor) (input : CopiedTensor) :
    Except TensorBindingError (List CopiedTensor) := do
  refuseIf (input.isValid = false) .invalidInput
  refuseIf (∃ previous ∈ seen, input.hasSelectorOf previous = true) .duplicateSelector
  .ok (seen ++ [input])

/-- `validate_inputs`. -/
def validateInputs (inputs : List CopiedTensor) : Except TensorBindingError Unit := do
  refuseIf (inputs.length = 0 ∨ 64 < inputs.length) .invalidInputs
  let _ ← inputs.foldlM validateInput []
  .ok ()

end CopiedTensor

namespace ArgumentTable

variable (table : ArgumentTable)

/-- The arguments that pass a test, with their indices. -/
def candidates (test : TableArgument × ℕ → Bool) : List (TableArgument × ℕ) :=
  table.arguments.zipIdx.filter test

/-- The arguments of a type. -/
def countOf (type : ArgumentType) : ℕ :=
  table.arguments.countP fun argument => argument.type = type

/-- The argument of a selector in `collect_bindings`. -/
def resolveShared (type : ArgumentType) (selector : TensorSelector) :
    Except TensorBindingError (TableArgument × ℕ) :=
  match table.candidates selector.accepts with
  | [] => .error .notUnique
  | [candidate] => if candidate.1.type ≠ type then .error .notUnique else .ok candidate
  | _ :: _ :: _ => .error .ambiguous

/-- The argument of a selector in `npunlock_graphinfer_infer_copied`. -/
def resolveCopied (selector : TensorSelector) : Except TensorBindingError (TableArgument × ℕ) :=
  match table.candidates fun candidate =>
      candidate.1.type == .input && selector.copiedInputMatches candidate with
  | [] => .error .inputMismatch
  | [candidate] => .ok candidate
  | _ :: _ :: _ => .error .ambiguous

/-- A round of `collect_bindings`. `bound` holds the allocations of the matched arguments. -/
def collectSharedTensor (session : ℕ) (type : ArgumentType) (bound : ℕ → Option ℕ)
    (binding : GraphinferSharedTensor) : Except TensorBindingError (ℕ → Option ℕ) :=
  match binding.buffer with
  | none => .error .invalidBinding
  | some buffer => do
    refuseIf (0 ∈ binding.selector.argumentName) .invalidBinding
    refuseIf (binding.selector.byIndex = binding.selector.byName) .selectorCount
    let (argument, index) ← table.resolveShared type binding.selector
    refuseIf (bound index ≠ none) .notUnique
    match buffer.implementation with
    | none => .error .wrongBuffer
    | some implementation => do
      refuseIf (implementation.session ≠ session ∨ buffer.data ≠ implementation.allocation ∨
        buffer.size ≠ implementation.size ∨ implementation.size ≠ argument.dataSize) .wrongBuffer
      .ok (Function.update bound index (some implementation.allocation))

/-- `graphinfer_session_infer` up to its execution : the allocations that the arguments
receive. -/
def resolveBindings (session : ℕ) (active : Bool) (inputs outputs : List GraphinferSharedTensor) :
    Except TensorBindingError (List ℕ) := do
  refuseIf (inputs.length ≠ table.countOf .input ∨ outputs.length ≠ table.countOf .output)
    .notCovered
  refuseIf (active = false) .closed
  let bound ← inputs.foldlM (table.collectSharedTensor session .input) fun _ => none
  let bound ← outputs.foldlM (table.collectSharedTensor session .output) bound
  refuseIf (∃ index ∈ List.range table.arguments.length, bound index = none) .notBound
  .ok ((List.range table.arguments.length).map fun index => (bound index).getD 0)

/-- A round of the first loop of `npunlock_graphinfer_infer_copied`, after the arguments
`matched`. -/
def matchCopied (matched : List ℕ) (input : CopiedTensor) : Except TensorBindingError (List ℕ) := do
  let (argument, index) ← table.resolveCopied input.selector
  refuseIf (index ∈ matched ∨ input.data.length ≠ argument.dataSize) .inputMismatch
  .ok (matched ++ [index])

/-- The data that the second loop of `npunlock_graphinfer_infer_copied` copies to an input
argument. -/
def copiedTo (inputs : List CopiedTensor) (candidate : TableArgument × ℕ) :
    Option (List UInt8) :=
  (inputs.find? fun input => input.selector.copiedInputMatches candidate).map CopiedTensor.data

/-- `npunlock_graphinfer_infer_copied` up to its execution : the data of the input arguments,
in their order. -/
def resolveInputs (active : Bool) (inputs : List CopiedTensor) :
    Except TensorBindingError (List (Option (List UInt8))) := do
  refuseIf (inputs.length ≠ table.countOf .input) .notCovered
  refuseIf (active = false) .closed
  let _ ← inputs.foldlM table.matchCopied []
  .ok ((table.candidates fun candidate => candidate.1.type == .input).map (copiedTo inputs))

/-- `graphinfer_session_infer_copied` up to its execution. -/
def resolveCopiedInputs (active : Bool) (inputs : List CopiedTensor) :
    Except TensorBindingError (List (Option (List UInt8))) := do
  CopiedTensor.validateInputs inputs
  table.resolveInputs active inputs

end ArgumentTable

/-! ## What selectors select -/

namespace ArgumentTable

variable {table : ArgumentTable} {session : ℕ} {type : ArgumentType} {selector : TensorSelector}

/-- The selector has an index or a name, and not both. -/
def HasOneSelector (selector : TensorSelector) : Prop :=
  selector.byIndex ≠ selector.byName

/-- The selector has the index or the name of an argument. -/
def Names (table : ArgumentTable) (selector : TensorSelector) (candidate : TableArgument × ℕ) :
    Prop :=
  candidate ∈ table.arguments.zipIdx ∧
    (selector.byIndex = true ∧ selector.argumentIndex = candidate.2 ∨
      selector.byName = true ∧ selector.argumentName = candidate.1.name)

/-- The selector has those of one argument only. -/
def Selects (table : ArgumentTable) (selector : TensorSelector) (candidate : TableArgument × ℕ) :
    Prop :=
  table.Names selector candidate ∧ ∀ other, table.Names selector other → other = candidate

theorem nodup_arguments (table : ArgumentTable) : table.arguments.zipIdx.Nodup :=
  (List.nodup_zipIdx_map_snd table.arguments).of_map _

theorem mem_candidates_iff {test : TableArgument × ℕ → Bool} {candidate : TableArgument × ℕ} :
    candidate ∈ table.candidates test ↔
      candidate ∈ table.arguments.zipIdx ∧ test candidate = true :=
  List.mem_filter

theorem names_iff {candidate : TableArgument × ℕ} :
    table.Names selector candidate ↔ candidate ∈ table.candidates selector.accepts := by
  rw [mem_candidates_iff]
  simp [Names, TensorSelector.accepts]

theorem candidates_eq_singleton_iff {test : TableArgument × ℕ → Bool}
    {candidate : TableArgument × ℕ} :
    table.candidates test = [candidate] ↔
      candidate ∈ table.candidates test ∧ ∀ other ∈ table.candidates test, other = candidate := by
  refine ⟨fun h => by simp [h], fun ⟨hmem, honly⟩ => ?_⟩
  refine (filter_eq_singleton_iff table.nodup_arguments).2 ⟨(mem_candidates_iff.1 hmem).1,
    (mem_candidates_iff.1 hmem).2, fun other hother htest => ?_⟩
  exact honly other (mem_candidates_iff.2 ⟨hother, htest⟩)

theorem resolveShared_eq_ok_iff {candidate : TableArgument × ℕ} :
    table.resolveShared type selector = .ok candidate ↔
      table.Selects selector candidate ∧ candidate.1.type = type := by
  have hselects : table.Selects selector candidate ↔
      table.candidates selector.accepts = [candidate] := by
    rw [candidates_eq_singleton_iff]
    simp only [Selects, names_iff]
  rw [hselects]
  unfold resolveShared
  split
  · rename_i h
    simp [h]
  · rename_i found h
    rw [h, List.singleton_inj]
    split_ifs with htype
    · simp only [false_iff, not_and]
      rintro rfl
      exact htype
    · rw [Except.ok.injEq]
      refine ⟨?_, And.left⟩
      rintro rfl
      exact ⟨rfl, not_not.1 htype⟩
  · rename_i h
    simp [h]

theorem copiedInputMatches_eq (h : HasOneSelector selector) (candidate : TableArgument × ℕ) :
    selector.copiedInputMatches candidate = selector.accepts candidate := by
  unfold HasOneSelector at h
  unfold TensorSelector.copiedInputMatches TensorSelector.accepts
  by_cases hindex : selector.argumentIndex = graphinferAutoIndex
  · have hby : selector.byIndex = false := by simp [TensorSelector.byIndex, hindex]
    rw [hby] at h ⊢
    rw [if_neg (not_not.2 hindex), Bool.false_and, Bool.false_or,
      Bool.eq_true_of_not_eq_false h.symm, Bool.true_and]
  · have hby : selector.byIndex = true := by simp [TensorSelector.byIndex, hindex]
    rw [hby] at h ⊢
    rw [if_pos hindex, Bool.true_and, Bool.eq_false_of_not_eq_true h.symm, Bool.false_and,
      Bool.or_false]

theorem mem_copied_iff (h : HasOneSelector selector) {candidate : TableArgument × ℕ} :
    (candidate ∈ table.candidates fun candidate =>
      candidate.1.type == .input && selector.copiedInputMatches candidate) ↔
      candidate.1.type = .input ∧ table.Names selector candidate := by
  rw [names_iff, mem_candidates_iff, mem_candidates_iff, copiedInputMatches_eq h, Bool.and_eq_true,
    beq_iff_eq]
  exact and_left_comm

theorem resolveCopied_eq_ok_iff (h : HasOneSelector selector) {candidate : TableArgument × ℕ} :
    table.resolveCopied selector = .ok candidate ↔
      (candidate.1.type = .input ∧ table.Names selector candidate) ∧
        ∀ other, other.1.type = .input → table.Names selector other → other = candidate := by
  have hselects : (table.candidates fun candidate =>
      candidate.1.type == .input && selector.copiedInputMatches candidate) = [candidate] ↔ _ :=
    candidates_eq_singleton_iff
  simp only [mem_copied_iff h, and_imp] at hselects
  rw [← hselects]
  unfold resolveCopied
  split
  · rename_i hcandidates
    simp [hcandidates]
  · rename_i found hcandidates
    rw [hcandidates, List.singleton_inj, Except.ok.injEq]
  · rename_i hcandidates
    simp [hcandidates]

theorem resolveShared_iff_resolveCopied (h : HasOneSelector selector)
    {candidate : TableArgument × ℕ} :
    table.resolveShared .input selector = .ok candidate ↔
      table.resolveCopied selector = .ok candidate ∧
        ∀ other, table.Names selector other → other.1.type = .input := by
  rw [resolveShared_eq_ok_iff, resolveCopied_eq_ok_iff h]
  constructor
  · rintro ⟨⟨hnames, honly⟩, htype⟩
    refine ⟨⟨⟨htype, hnames⟩, fun other _ hother => honly other hother⟩, fun other hother => ?_⟩
    rw [honly other hother, htype]
  · rintro ⟨⟨⟨htype, hnames⟩, honly⟩, hinputs⟩
    exact ⟨⟨hnames, fun other hother => honly other (hinputs other hother) hother⟩, htype⟩

/-- An index is that of one argument. -/
theorem Names.unique (h : HasOneSelector selector) (hindex : selector.byIndex = true)
    {candidate other : TableArgument × ℕ} (hcandidate : table.Names selector candidate)
    (hother : table.Names selector other) : other = candidate := by
  have hname : selector.byName ≠ true := fun hname => h (hindex.trans hname.symm)
  obtain ⟨hmem, ⟨-, heq⟩ | ⟨hby, -⟩⟩ := hcandidate
  · obtain ⟨hmem', ⟨-, heq'⟩ | ⟨hby, -⟩⟩ := hother
    · obtain ⟨argument, index⟩ := candidate
      obtain ⟨argument', index'⟩ := other
      obtain rfl : index' = index := heq'.symm.trans heq
      rw [List.mk_mem_zipIdx_iff_getElem?] at hmem hmem'
      rw [Option.some.inj (hmem'.symm.trans hmem)]
    · exact absurd hby hname
  · exact absurd hby hname

/-- How a selector is resolved among shared tensors and among copied inputs. -/
structure ResolvesInputs (table : ArgumentTable) (selector : TensorSelector) : Prop where
  /-- It is resolved to the same input or rejected by both, unless it is the name of an output. -/
  alike : (selector.byIndex = true ∨
      ∀ other, table.Names selector other → other.1.type = .input) →
    (table.resolveShared .input selector).toOption = (table.resolveCopied selector).toOption
  /-- The name of an output is rejected by the shared tensors. -/
  shared : (∃ output, table.Names selector output ∧ output.1.type = .output) →
    (table.resolveShared .input selector).toOption = none
  /-- Copied inputs are resolved to the only input with the name. -/
  copied : ∀ candidate, table.resolveCopied selector = .ok candidate ↔
    (candidate.1.type = .input ∧ table.Names selector candidate) ∧
      ∀ other, other.1.type = .input → table.Names selector other → other = candidate

theorem toOption_eq_of_ok_iff {ε α : Type} {first second : Except ε α}
    (h : ∀ value, first = .ok value ↔ second = .ok value) : first.toOption = second.toOption := by
  cases first with
  | ok value => rw [(h value).1 rfl]
  | error =>
    cases second with
    | ok value => exact nomatch (h value).2 rfl
    | error => rfl

theorem resolvesInputs (h : HasOneSelector selector) : table.ResolvesInputs selector where
  alike := by
    intro hor
    refine toOption_eq_of_ok_iff fun candidate => ?_
    rw [resolveShared_iff_resolveCopied h, and_iff_left_iff_imp]
    intro hcopied other hother
    rcases hor with hindex | hinputs
    · obtain ⟨⟨htype, hnames⟩, -⟩ := (resolveCopied_eq_ok_iff h).1 hcopied
      rw [hnames.unique h hindex hother, htype]
    · exact hinputs other hother
  shared := by
    rintro ⟨output, hnames, htype⟩
    cases hshared : table.resolveShared .input selector with
    | error => rfl
    | ok candidate =>
      have hinput := (resolveShared_iff_resolveCopied h).1 hshared
      exact nomatch htype.symm.trans (hinput.2 output hnames)
  copied := fun _ => resolveCopied_eq_ok_iff h

/-! ## Shared tensors -/

/-- The binding has a live buffer of the session with this size and allocation. -/
def IsLive (session : ℕ) (binding : GraphinferSharedTensor) (size allocation : ℕ) : Prop :=
  ∃ buffer implementation, binding.buffer = some buffer ∧
    buffer.implementation = some implementation ∧ implementation.session = session ∧
      buffer.data = implementation.allocation ∧ buffer.size = implementation.size ∧
        implementation.size = size ∧ implementation.allocation = allocation

/-- The binding selects an argument of the type and binds a live buffer of its size : an entry
is the index of the argument and the allocation of the buffer. -/
structure Fits (table : ArgumentTable) (session : ℕ) (type : ArgumentType)
    (binding : GraphinferSharedTensor) (entry : ℕ × ℕ) : Prop where
  nul_free : 0 ∉ binding.selector.argumentName
  one : HasOneSelector binding.selector
  argument : ∃ argument, table.Selects binding.selector (argument, entry.1) ∧
    argument.type = type ∧ IsLive session binding argument.dataSize entry.2

theorem Fits.mem {binding : GraphinferSharedTensor} {entry : ℕ × ℕ}
    (h : table.Fits session type binding entry) :
    ∃ argument, table.arguments[entry.1]? = some argument ∧ argument.type = type := by
  obtain ⟨argument, hselects, htype, -⟩ := h.argument
  exact ⟨argument, List.mk_mem_zipIdx_iff_getElem?.1 hselects.1.1, htype⟩

theorem collectSharedTensor_eq_ok_iff {bound bound' : ℕ → Option ℕ}
    {binding : GraphinferSharedTensor} :
    table.collectSharedTensor session type bound binding = .ok bound' ↔
      ∃ entry, table.Fits session type binding entry ∧ bound entry.1 = none ∧
        bound' = Function.update bound entry.1 (some entry.2) := by
  unfold collectSharedTensor
  cases hbuffer : binding.buffer with
  | none =>
    simp only [reduceCtorEq, false_iff]
    rintro ⟨entry, hfits, -⟩
    obtain ⟨argument, -, -, buffer, implementation, hsome, -⟩ := hfits.argument
    rw [hbuffer] at hsome
    cases hsome
  | some buffer =>
    dsimp only
    rw [refuseIf_bind_eq_ok_iff, refuseIf_bind_eq_ok_iff, bind_eq_ok_iff]
    constructor
    · rintro ⟨hnul, hone, ⟨argument, index⟩, hresolve, h⟩
      obtain ⟨hfree, h⟩ := refuseIf_bind_eq_ok_iff.1 h
      cases himplementation : buffer.implementation with
      | none =>
        rw [himplementation] at h
        cases h
      | some implementation =>
        rw [himplementation] at h
        obtain ⟨hlive, h⟩ := refuseIf_bind_eq_ok_iff.1 h
        simp only [not_or, not_not] at hlive
        obtain ⟨hselects, htype⟩ := resolveShared_eq_ok_iff.1 hresolve
        exact ⟨(index, implementation.allocation), ⟨hnul, hone, argument, hselects, htype, buffer,
          implementation, hbuffer, himplementation, hlive.1, hlive.2.1, hlive.2.2.1,
            hlive.2.2.2, rfl⟩, not_not.1 hfree, (Except.ok.inj h).symm⟩
    · rintro ⟨⟨index, allocation⟩, ⟨hnul, hone, argument, hselects, htype, buffer',
        implementation, hsome, himplementation, hsession, hdata, hsize, hexact, rfl⟩, hfree, rfl⟩
      rw [hbuffer] at hsome
      cases hsome
      refine ⟨hnul, hone, (argument, index), resolveShared_eq_ok_iff.2 ⟨hselects, htype⟩, ?_⟩
      dsimp only at hfree ⊢
      rw [refuseIf_of_not _ (not_not.2 hfree), himplementation, ok_bind]
      dsimp only
      rw [refuseIf_of_not]
      · rfl
      · simp only [not_or, not_not]
        exact ⟨hsession, hdata, hsize, hexact⟩

/-- The allocations after some entries were bound. -/
def bindAll (bound : ℕ → Option ℕ) (entries : List (ℕ × ℕ)) : ℕ → Option ℕ :=
  entries.foldl (fun bound entry => Function.update bound entry.1 (some entry.2)) bound

theorem bindAll_of_not_mem {index : ℕ} :
    ∀ {entries : List (ℕ × ℕ)} {bound : ℕ → Option ℕ}, index ∉ entries.map Prod.fst →
      bindAll bound entries index = bound index
  | [], _, _ => rfl
  | entry :: entries, bound, h => by
    rw [List.map_cons, List.mem_cons, not_or] at h
    rw [bindAll, List.foldl_cons]
    exact (bindAll_of_not_mem h.2).trans (Function.update_of_ne h.1 _ _)

theorem bindAll_of_mem {entry : ℕ × ℕ} :
    ∀ {entries : List (ℕ × ℕ)} {bound : ℕ → Option ℕ}, (entries.map Prod.fst).Nodup →
      entry ∈ entries → bindAll bound entries entry.1 = some entry.2
  | first :: entries, bound, hnodup, hmem => by
    obtain ⟨hfresh, hnodup⟩ := List.nodup_cons.1 hnodup
    rw [bindAll, List.foldl_cons]
    rcases List.mem_cons.1 hmem with rfl | hmem
    · exact (bindAll_of_not_mem hfresh).trans (Function.update_self ..)
    · exact bindAll_of_mem hnodup hmem

theorem collectSharedTensors_eq_ok_iff :
    ∀ {bindings : List GraphinferSharedTensor} {bound bound' : ℕ → Option ℕ},
      bindings.foldlM (table.collectSharedTensor session type) bound = .ok bound' ↔
        ∃ entries, List.Forall₂ (table.Fits session type) bindings entries ∧
          (entries.map Prod.fst).Nodup ∧ (∀ entry ∈ entries, bound entry.1 = none) ∧
            bound' = bindAll bound entries
  | [], bound, bound' => by
    rw [List.foldlM_nil]
    constructor
    · intro h
      cases h
      exact ⟨[], .nil, List.nodup_nil, by simp, rfl⟩
    · rintro ⟨entries, hfits, -, -, rfl⟩
      cases hfits
      rfl
  | binding :: bindings, bound, bound' => by
    rw [List.foldlM_cons, bind_eq_ok_iff]
    constructor
    · rintro ⟨middle, hstep, hrest⟩
      obtain ⟨entry, hentry, hfree, rfl⟩ := collectSharedTensor_eq_ok_iff.1 hstep
      obtain ⟨entries, hentries, hnodup, hunbound, rfl⟩ :=
        collectSharedTensors_eq_ok_iff.1 hrest
      have hfresh : ∀ other ∈ entries, other.1 ≠ entry.1 := by
        intro other hother heq
        have hnone := hunbound other hother
        rw [heq, Function.update_self] at hnone
        cases hnone
      refine ⟨entry :: entries, .cons hentry hentries, ?_, ?_, rfl⟩
      · refine List.nodup_cons.2 ⟨fun hmem => ?_, hnodup⟩
        obtain ⟨other, hother, heq⟩ := List.mem_map.1 hmem
        exact hfresh other hother heq
      · refine List.forall_mem_cons.2 ⟨hfree, fun other hother => ?_⟩
        have hnone := hunbound other hother
        rwa [Function.update_of_ne (hfresh other hother)] at hnone
    · rintro ⟨_, hfits, hnodup, hunbound, rfl⟩
      obtain ⟨entry, entries, hentry, hentries, rfl⟩ := List.forall₂_cons_left_iff.1 hfits
      obtain ⟨hfresh, hnodup⟩ := List.nodup_cons.1 hnodup
      obtain ⟨hfree, hunbound⟩ := List.forall_mem_cons.1 hunbound
      refine ⟨_, collectSharedTensor_eq_ok_iff.2 ⟨entry, hentry, hfree, rfl⟩,
        collectSharedTensors_eq_ok_iff.2 ⟨entries, hentries, hnodup, fun other hother => ?_, rfl⟩⟩
      rw [Function.update_of_ne fun heq => hfresh (List.mem_map.2 ⟨other, hother, heq⟩)]
      exact hunbound other hother

/-- The bindings and the arguments correspond one to one, inputs to inputs and outputs to
outputs, and each argument has the allocation of its binding. -/
structure Corresponds (table : ArgumentTable) (session : ℕ)
    (inputs outputs : List GraphinferSharedTensor) (allocations : List ℕ) : Prop where
  length_eq : allocations.length = table.arguments.length
  entries : ∃ ins outs, List.Forall₂ (table.Fits session .input) inputs ins ∧
    List.Forall₂ (table.Fits session .output) outputs outs ∧
      ((ins ++ outs).map Prod.fst).Perm (List.range table.arguments.length) ∧
        ∀ entry ∈ ins ++ outs, allocations[entry.1]? = some entry.2

/-- The argument at an index has the type. -/
def hasType (table : ArgumentTable) (type : ArgumentType) (index : ℕ) : Bool :=
  table.arguments[index]?.any fun argument => argument.type = type

theorem countOf_eq (type : ArgumentType) :
    table.countOf type =
      ((List.range table.arguments.length).filter (table.hasType type)).length := by
  have hmap : table.arguments.map (fun argument => decide (argument.type = type)) =
      (List.range table.arguments.length).map (table.hasType type) := by
    refine List.ext_getElem (by simp) fun index hindex _ => ?_
    rw [List.length_map] at hindex
    simp [hasType, hindex]
  rw [countOf, ← List.countP_eq_length_filter, ← Function.id_comp fun argument : TableArgument =>
    decide (argument.type = type), ← List.countP_map, hmap, List.countP_map, Function.id_comp]

theorem hasType_of_fits {bindings : List GraphinferSharedTensor} {entries : List (ℕ × ℕ)}
    (h : List.Forall₂ (table.Fits session type) bindings entries) {index : ℕ}
    (hindex : index ∈ entries.map Prod.fst) (other : ArgumentType) :
    index < table.arguments.length ∧ (table.hasType other index = true ↔ type = other) := by
  obtain ⟨entry, hentry, rfl⟩ := List.mem_map.1 hindex
  obtain ⟨binding, -, hfits⟩ := exists_of_forall₂ h.flip hentry
  obtain ⟨argument, hargument, rfl⟩ := hfits.mem
  refine ⟨(List.getElem?_eq_some_iff.1 hargument).1, ?_⟩
  simp [hasType, hargument]

/-- As many bindings as there are arguments of their type. -/
theorem length_of_perm {ins outs : List (ℕ × ℕ)} {inputs outputs : List GraphinferSharedTensor}
    (hins : List.Forall₂ (table.Fits session .input) inputs ins)
    (houts : List.Forall₂ (table.Fits session .output) outputs outs)
    (hperm : ((ins ++ outs).map Prod.fst).Perm (List.range table.arguments.length)) :
    inputs.length = table.countOf .input ∧ outputs.length = table.countOf .output := by
  have hcount (type : ArgumentType) : table.countOf type =
      ((ins.map Prod.fst).filter (table.hasType type)).length +
        ((outs.map Prod.fst).filter (table.hasType type)).length := by
    rw [countOf_eq, ← (hperm.filter _).length_eq, List.map_append, List.filter_append,
      List.length_append]
  rw [hcount, hcount, List.filter_eq_self.2, List.filter_eq_nil_iff.2, List.filter_eq_nil_iff.2,
    List.filter_eq_self.2]
  · simp [hins.length_eq, houts.length_eq]
  · exact fun index hindex => ((hasType_of_fits houts hindex .output).2).2 rfl
  · exact fun index hindex h =>
      ArgumentType.noConfusion (((hasType_of_fits hins hindex .output).2).1 h)
  · exact fun index hindex h =>
      ArgumentType.noConfusion (((hasType_of_fits houts hindex .input).2).1 h)
  · exact fun index hindex => ((hasType_of_fits hins hindex .input).2).2 rfl

theorem bindAll_append (bound : ℕ → Option ℕ) (first second : List (ℕ × ℕ)) :
    bindAll (bindAll bound first) second = bindAll bound (first ++ second) := by
  rw [bindAll, bindAll, bindAll, List.foldl_append]

/-- An execution is reached just when the session is open and the bindings and the arguments
correspond. -/
theorem resolveBindings_eq_ok_iff {active : Bool} {inputs outputs : List GraphinferSharedTensor}
    {allocations : List ℕ} :
    table.resolveBindings session active inputs outputs = .ok allocations ↔
      active = true ∧ table.Corresponds session inputs outputs allocations := by
  unfold resolveBindings
  rw [refuseIf_bind_eq_ok_iff, refuseIf_bind_eq_ok_iff, Bool.not_eq_false]
  simp only [bind_eq_ok_iff, collectSharedTensors_eq_ok_iff]
  constructor
  · rintro ⟨-, hactive, _, ⟨ins, hins, hinsNodup, -, rfl⟩, _, ⟨outs, houts, houtsNodup, hfree, rfl⟩,
      h⟩
    obtain ⟨_, hall, h⟩ := h
    rw [refuseIf_eq_ok_iff] at hall
    obtain rfl := Except.ok.inj h
    have hapart : ∀ index ∈ outs.map Prod.fst, index ∉ ins.map Prod.fst := by
      intro index hindex hmem
      obtain ⟨entry, hentry, rfl⟩ := List.mem_map.1 hindex
      obtain ⟨entry', hentry', heq⟩ := List.mem_map.1 hmem
      have hnone := hfree entry hentry
      rw [← heq, bindAll_of_mem hinsNodup hentry'] at hnone
      cases hnone
    have hnodup : ((ins ++ outs).map Prod.fst).Nodup := by
      rw [List.map_append, List.nodup_append]
      exact ⟨hinsNodup, houtsNodup, fun index hindex other hother heq =>
        hapart other hother (heq ▸ hindex)⟩
    rw [bindAll_append] at hall ⊢
    refine ⟨hactive, by simp, ins, outs, hins, houts, ?_, fun entry hentry => ?_⟩
    · refine (List.perm_ext_iff_of_nodup hnodup List.nodup_range).2 fun index => ?_
      rw [List.mem_range]
      constructor
      · intro hindex
        rw [List.map_append, List.mem_append] at hindex
        rcases hindex with hindex | hindex
        · exact (hasType_of_fits hins hindex .input).1
        · exact (hasType_of_fits houts hindex .output).1
      · intro hindex
        by_contra hnot
        exact hall ⟨index, List.mem_range.2 hindex, bindAll_of_not_mem hnot⟩
    · have hindex : entry.1 < table.arguments.length := by
        rcases List.mem_append.1 hentry with hmem | hmem
        · exact (hasType_of_fits hins (List.mem_map_of_mem hmem) .input).1
        · exact (hasType_of_fits houts (List.mem_map_of_mem hmem) .output).1
      simp [hindex, bindAll_of_mem hnodup hentry]
  · rintro ⟨hactive, hlength, ins, outs, hins, houts, hperm, hget⟩
    have hnodup := hperm.nodup_iff.2 List.nodup_range
    have hcounts := length_of_perm hins houts hperm
    have hparts := hnodup
    rw [List.map_append, List.nodup_append] at hparts
    refine ⟨by simp [hcounts], hactive, _, ⟨ins, hins, hparts.1, by simp, rfl⟩, _,
      ⟨outs, houts, hparts.2.1, fun entry hentry => ?_, rfl⟩, (), ?_, ?_⟩
    · refine bindAll_of_not_mem fun hmem => ?_
      exact hparts.2.2 _ hmem _ (List.mem_map_of_mem hentry) rfl
    · rw [refuseIf_eq_ok_iff, bindAll_append]
      rintro ⟨index, hindex, hnone⟩
      obtain ⟨entry, hentry, rfl⟩ := List.mem_map.1 (hperm.mem_iff.2 hindex)
      rw [bindAll_of_mem hnodup hentry] at hnone
      cases hnone
    · rw [Except.ok.injEq, bindAll_append]
      refine List.ext_getElem (by simp [hlength]) fun index hindex hindex' => ?_
      rw [hlength] at hindex'
      obtain ⟨entry, hentry, rfl⟩ := List.mem_map.1 (hperm.mem_iff.2 (List.mem_range.2 hindex'))
      have hallocation := hget entry hentry
      rw [List.getElem?_eq_getElem (by omega), Option.some.injEq] at hallocation
      simp [bindAll_of_mem hnodup hentry, hallocation]

/-! ## Copied inputs -/

theorem matchCopied_eq_ok_iff {matched matched' : List ℕ} {input : CopiedTensor} :
    table.matchCopied matched input = .ok matched' ↔
      ∃ candidate, table.resolveCopied input.selector = .ok candidate ∧
        candidate.2 ∉ matched ∧ input.data.length = candidate.1.dataSize ∧
          matched' = matched ++ [candidate.2] := by
  unfold matchCopied
  rw [bind_eq_ok_iff]
  simp only [refuseIf_bind_eq_ok_iff, not_or, not_not, Except.ok.injEq, and_assoc,
    eq_comm (a := matched')]

/-- Each copied input resolves to an argument of its size, and no two to the same. -/
theorem of_matchCopied :
    ∀ {inputs : List CopiedTensor} {matched matched' : List ℕ},
      inputs.foldlM table.matchCopied matched = .ok matched' →
        ∃ found, List.Forall₂ (fun (input : CopiedTensor) (candidate : TableArgument × ℕ) =>
            table.resolveCopied input.selector = .ok candidate ∧
              input.data.length = candidate.1.dataSize) inputs found ∧
          (found.map Prod.snd).Nodup ∧ ∀ index ∈ matched, index ∉ found.map Prod.snd
  | [], _, _, _ => ⟨[], .nil, List.nodup_nil, by simp⟩
  | input :: inputs, matched, matched', h => by
    rw [List.foldlM_cons] at h
    obtain ⟨_, hstep, hrest⟩ := bind_eq_ok_iff.1 h
    obtain ⟨candidate, hresolve, hfresh, hsize, rfl⟩ := matchCopied_eq_ok_iff.1 hstep
    obtain ⟨found, hfound, hnodup, hlater⟩ := of_matchCopied hrest
    refine ⟨candidate :: found, .cons ⟨hresolve, hsize⟩ hfound,
      List.nodup_cons.2 ⟨hlater _ (by simp), hnodup⟩, fun index hindex => ?_⟩
    rw [List.map_cons, List.mem_cons, not_or]
    exact ⟨fun heq => hfresh (heq ▸ hindex), hlater index (by simp [hindex])⟩

theorem hasOneSelector_of_validateInput {inputs seen seen' : List CopiedTensor}
    (h : inputs.foldlM CopiedTensor.validateInput seen = .ok seen') :
    ∀ input ∈ inputs, HasOneSelector input.selector := by
  intro input hinput
  obtain ⟨_, _, hstep⟩ := exists_step_of_foldlM h input hinput
  obtain ⟨hvalid, -⟩ := refuseIf_bind_eq_ok_iff.1 hstep
  simp only [CopiedTensor.isValid, Bool.not_eq_false, Bool.and_eq_true, bne_iff_ne] at hvalid
  exact hvalid.2

/-- The data are copied to the argument that the selector resolves to. -/
theorem copiedTo_of_resolveInputs {active : Bool} {inputs : List CopiedTensor}
    {data : List (Option (List UInt8))} (hone : ∀ input ∈ inputs, HasOneSelector input.selector)
    (h : table.resolveInputs active inputs = .ok data) {input : CopiedTensor}
    (hinput : input ∈ inputs) :
    ∃ candidate, table.resolveCopied input.selector = .ok candidate ∧
      input.data.length = candidate.1.dataSize ∧ copiedTo inputs candidate = some input.data := by
  unfold resolveInputs at h
  obtain ⟨-, h⟩ := refuseIf_bind_eq_ok_iff.1 h
  obtain ⟨-, h⟩ := refuseIf_bind_eq_ok_iff.1 h
  obtain ⟨matched, hmatched, -⟩ := bind_eq_ok_iff.1 h
  obtain ⟨found, hfound, hnodup, -⟩ := of_matchCopied hmatched
  obtain ⟨i, hi, rfl⟩ := List.getElem_of_mem hinput
  have hget := List.forall₂_iff_get.1 hfound
  have hi' : i < found.length := hget.1 ▸ hi
  obtain ⟨hresolve, hsize⟩ := hget.2 i hi hi'
  rw [List.get_eq_getElem] at hresolve hsize
  obtain ⟨⟨htype, hnames⟩, -⟩ :=
    (resolveCopied_eq_ok_iff (hone _ (List.getElem_mem hi))).1 hresolve
  refine ⟨_, hresolve, hsize, ?_⟩
  have haccepts : inputs[i].selector.copiedInputMatches (found.get ⟨i, hi'⟩) = true := by
    rw [copiedInputMatches_eq (hone _ (List.getElem_mem hi))]
    exact (mem_candidates_iff.1 (names_iff.1 hnames)).2
  unfold copiedTo
  cases hfind : inputs.find? fun input =>
      input.selector.copiedInputMatches (found.get ⟨i, hi'⟩) with
  | none => exact absurd haccepts (List.find?_eq_none.1 hfind _ (List.getElem_mem hi))
  | some other =>
    -- the first input that matches resolves to the same argument, so it is this one
    obtain ⟨j, hj, rfl⟩ := List.getElem_of_mem (List.mem_of_find?_eq_some hfind)
    have hj' : j < found.length := hget.1 ▸ hj
    have hother := hone _ (List.getElem_mem hj)
    have hmatches := List.find?_some hfind
    rw [copiedInputMatches_eq hother] at hmatches
    have hresolve' := (hget.2 j hj hj').1
    obtain ⟨-, honly⟩ := (resolveCopied_eq_ok_iff hother).1 hresolve'
    have heq := honly _ htype (names_iff.2 (mem_candidates_iff.2 ⟨hnames.1, hmatches⟩))
    have hi'' : i < (found.map Prod.snd).length := by simpa using hi'
    have hj'' : j < (found.map Prod.snd).length := by simpa using hj'
    have hindex : (found.map Prod.snd)[i] = (found.map Prod.snd)[j] := by
      simpa using congrArg Prod.snd heq
    obtain rfl := hnodup.getElem_inj_iff.1 hindex
    rfl

/-- Every copied input of an execution is resolved and copied to its argument. -/
theorem copiedTo_of_resolveCopiedInputs {active : Bool} {inputs : List CopiedTensor}
    {data : List (Option (List UInt8))} (h : table.resolveCopiedInputs active inputs = .ok data)
    {input : CopiedTensor} (hinput : input ∈ inputs) :
    ∃ candidate, table.resolveCopied input.selector = .ok candidate ∧
      input.data.length = candidate.1.dataSize ∧ copiedTo inputs candidate = some input.data := by
  unfold resolveCopiedInputs CopiedTensor.validateInputs at h
  obtain ⟨_, hvalid, h⟩ := bind_eq_ok_iff.1 h
  obtain ⟨-, hvalid⟩ := refuseIf_bind_eq_ok_iff.1 hvalid
  obtain ⟨_, hvalid, -⟩ := bind_eq_ok_iff.1 hvalid
  exact copiedTo_of_resolveInputs (hasOneSelector_of_validateInput hvalid) h hinput

/-! ## Both resolutions -/

/-- An execution of shared tensors is reached just when the bindings and the arguments
correspond, and each argument receives the allocation of its binding. An input selector is
resolved alike for shared tensors and copied inputs, but for the name of an output. -/
theorem tensor_binding_resolution (table : ArgumentTable) (session : ℕ) :
    (∀ (active : Bool) (inputs outputs : List GraphinferSharedTensor) (allocations : List ℕ),
      table.resolveBindings session active inputs outputs = .ok allocations ↔
        active = true ∧ table.Corresponds session inputs outputs allocations) ∧
      (∀ selector, HasOneSelector selector → table.ResolvesInputs selector) ∧
        ∀ (active : Bool) (inputs : List CopiedTensor) (data : List (Option (List UInt8))),
          table.resolveCopiedInputs active inputs = .ok data → ∀ input ∈ inputs,
            ∃ candidate, table.resolveCopied input.selector = .ok candidate ∧
              input.data.length = candidate.1.dataSize ∧
                copiedTo inputs candidate = some input.data :=
  ⟨fun _ _ _ _ => resolveBindings_eq_ok_iff, fun _ h => resolvesInputs h,
    fun _ _ _ h _ hinput => copiedTo_of_resolveCopiedInputs h hinput⟩

/-- An input and an output of one name. -/
def sharedNameTable : ArgumentTable where
  arguments := [⟨.input, [120], 4⟩, ⟨.output, [120], 8⟩]
  length_le := by decide

def sharedNameSelector : TensorSelector :=
  ⟨graphinferAutoIndex, [120]⟩

theorem tensor_binding_resolution_sharedName :
    sharedNameTable.ResolvesInputs sharedNameSelector ∧
      (∃ candidate, sharedNameTable.resolveCopied sharedNameSelector = .ok candidate ∧
        [1, 2, 3, 4].length = candidate.1.dataSize ∧
          copiedTo [⟨sharedNameSelector, [1, 2, 3, 4]⟩] candidate = some [1, 2, 3, 4]) :=
  ⟨(tensor_binding_resolution sharedNameTable 0).2.1 sharedNameSelector
      (by unfold HasOneSelector; decide),
    (tensor_binding_resolution sharedNameTable 0).2.2 true [⟨sharedNameSelector, [1, 2, 3, 4]⟩]
      [some [1, 2, 3, 4]] (by decide) ⟨sharedNameSelector, [1, 2, 3, 4]⟩ (by simp)⟩

/-- The name is that of one input, and ambiguous as the selector of a shared tensor. -/
theorem input_name_of_output_rejected :
    sharedNameTable.resolveCopied sharedNameSelector = .ok (⟨.input, [120], 4⟩, 0) ∧
      sharedNameTable.resolveShared .input sharedNameSelector = .error .ambiguous ∧
        sharedNameTable.resolveBindings 7 true
            [⟨sharedNameSelector, some ⟨64, 4, some ⟨7, 64, 4⟩⟩⟩]
            [⟨⟨1, []⟩, some ⟨128, 8, some ⟨7, 128, 8⟩⟩⟩] = .error .ambiguous ∧
          sharedNameTable.resolveCopiedInputs true [⟨sharedNameSelector, [1, 2, 3, 4]⟩] =
            .ok [some [1, 2, 3, 4]] := by
  decide

end ArgumentTable

end Npunlock
