import Mathlib.Data.List.Range
import Npunlock.SubmissionSpec

/-!
# Runs of a session

What `serve` does to a session, for every sequence of calls and every driver. A call that
returns has run a list that was recorded for its own allocations; a session whose submission
failed submits nothing again, and every other session serves the next correct call.
-/

namespace Npunlock

namespace GraphSession

open Effect

variable {graph : GraphSession} {driver : GraphDriver} {bound : Option (List ℕ)}
  {s s' : SessionState}

/-! ## Arguments -/

/-- Only arguments have been set. -/
structure SetsArguments (graph : GraphSession) (bound : Option (List ℕ)) (s s' : SessionState) :
    Prop where
  state : s' = { s with log := s'.log }
  conforms : graph.Conforms bound s.log s'.log
  replay : replay s'.log = { replay s.log with arguments := (replay s'.log).arguments }

theorem SetsArguments.logged (h : SetsArguments graph bound s s') {index allocation code : ℕ} :
    SetsArguments graph bound s (s'.logged (.setArgument index allocation, code)) where
  state := by
    rw [h.state]
    rfl
  conforms := h.conforms.snoc trivial
  replay := by
    rw [SessionState.logged, replay_append, h.replay]
    by_cases hcode : code = 0
    · subst hcode
      rfl
    · rw [DriverState.step_of_ne _ hcode]
      rfl

theorem SetsArguments.consistent (h : SetsArguments graph bound s s') (hs : s.Consistent graph) :
    s'.Consistent graph := by
  rw [SessionState.Consistent, h.replay, h.state]
  exact { hs with }

theorem ensures_setArguments (graph : GraphSession) (bound : Option (List ℕ))
    {allocations : List ℕ} :
    Ensures (setArguments driver allocations) s
      (fun _ s' => SetsArguments graph bound s s' ∧ ∀ index allocation,
        allocations[index]? = some allocation →
          (replay s'.log).arguments index = some allocation)
      fun _ s' => SetsArguments graph bound s s' ∧ Refuses driver s.log := by
  have hloop : Ensures (setArguments driver allocations) s
      (fun _ s' => SetsArguments graph bound s s' ∧
        ∀ entry ∈ allocations.zipIdx, (replay s'.log).arguments entry.2 = some entry.1)
      fun _ s' => SetsArguments graph bound s s' ∧ Refuses driver s.log := by
    refine ensures_foldlM (fun (before : List (ℕ × ℕ)) _ s' => SetsArguments graph bound s s' ∧
      ∀ entry ∈ before, (replay s'.log).arguments entry.2 = some entry.1) ?_
        ⟨⟨rfl, .refl, rfl⟩, by simp⟩
    rintro before ⟨allocation, index⟩ after hitems _ s' ⟨hsets, hset⟩
    rw [ensures_perform]
    refine ⟨fun _ => ⟨hsets.logged, fun entry hentry => ?_⟩, fun code hcode hcall =>
      ⟨hsets.logged, .later hsets.conforms (.here hcall hcode)⟩⟩
    rw [SessionState.logged, replay_append]
    rcases List.mem_append.1 hentry with hentry | hentry
    · have hnodup := List.nodup_zipIdx_map_snd allocations
      rw [hitems, List.map_append, List.map_cons, List.nodup_append] at hnodup
      have hne : entry.2 ≠ index :=
        hnodup.2.2 _ (List.mem_map_of_mem hentry) _ List.mem_cons_self
      exact (Function.update_of_ne hne _ _).trans (hset entry hentry)
    · obtain rfl := List.mem_singleton.1 hentry
      exact Function.update_self ..
  refine hloop.mono (fun _ s' h => ⟨h.1, fun index allocation hmem => ?_⟩) fun _ _ h => h
  exact h.2 (allocation, index) (List.mk_mem_zipIdx_iff_getElem?.2 hmem)

/-! ## Initialisation -/

/-- How far the graph is initialised. Before it is, the stage of the command list has not
succeeded, and the direct stage only where the other is still to come. -/
def Progress (graph : GraphSession) (initialized : Bool) (state : DriverState) : Prop :=
  (initialized = true → graph.Ready state.direct state.onList) ∧
    (initialized = false → state.onList = false ∧
      (state.direct = true → graph.Requires commandListInitializeStage))

/-- The driver offers what the required stages need. -/
def EntryPoints (graph : GraphSession) : Prop :=
  (graph.Requires initializeStage → graph.hasInitialize = true) ∧
    (graph.Requires commandListInitializeStage → graph.hasAppendInitialize = true)

/-- Why an inference fails whose arguments are right. -/
def Hindered (graph : GraphSession) (driver : GraphDriver) (s : SessionState) : Prop :=
  s.submissionFailed = true ∨ Refuses driver s.log ∨ ¬graph.EntryPoints

theorem Hindered.later (hconforms : graph.Conforms bound s.log s'.log)
    (hfailed : s'.submissionFailed = s.submissionFailed) (h : Hindered graph driver s') :
    Hindered graph driver s := by
  rcases h with h | h | h
  · exact .inl (hfailed.symm.trans h)
  · exact .inr (.inl (h.later hconforms))
  · exact .inr (.inr h)

/-- What the parts of an inference keep. -/
structure Moves (graph : GraphSession) (bound : Option (List ℕ)) (s s' : SessionState) : Prop where
  consistent : s'.Consistent graph
  conforms : graph.Conforms bound s.log s'.log
  copiedAllocations : s'.copiedAllocations = s.copiedAllocations
  initialized : s'.initialized = s.initialized

theorem Moves.refl (h : s.Consistent graph) : Moves graph bound s s :=
  ⟨h, .refl, rfl, rfl⟩

theorem Moves.trans {s'' : SessionState} (h : Moves graph bound s s')
    (h' : Moves graph bound s' s'') : Moves graph bound s s'' :=
  ⟨h'.consistent, h.conforms.trans h'.conforms, h'.copiedAllocations.trans h.copiedAllocations,
    h'.initialized.trans h.initialized⟩

theorem SetsArguments.moves (h : SetsArguments graph bound s s') (hs : s.Consistent graph) :
    Moves graph bound s s' := by
  refine ⟨h.consistent hs, h.conforms, ?_, ?_⟩
  · rw [h.state]
  · rw [h.state]

theorem moves_of_advances (h : s.Advances graph bound s') : Moves graph bound s s' :=
  ⟨h.consistent, h.conforms, congrArg (·.2.1) h.recording, h.initialized⟩

theorem ensures_initializeDirectly (bound : Option (List ℕ)) (h : s.Consistent graph)
    (honList : (replay s.log).onList = false)
    (hdirect : (replay s.log).direct = true → graph.Requires commandListInitializeStage) :
    Ensures (graph.initializeDirectly driver) s
      (fun _ s' => Moves graph bound s s' ∧ s'.submissionFailed = s.submissionFailed ∧
        (replay s'.log).onList = false ∧
          (graph.Requires initializeStage → (replay s'.log).direct = true))
      fun _ s' => (Moves graph bound s s' ∧ replay s'.log = replay s.log) ∧
        Hindered graph driver s := by
  have hallows : graph.Allows bound (replay s.log) .graphInitialize :=
    fun h => ⟨hdirect h, honList⟩
  rw [initializeDirectly, ensures_ite]
  refine ⟨fun hrequires => ?_, fun hnot => ⟨.refl h, rfl, honList, fun h => absurd h hnot⟩⟩
  simp only [ensures_bind, ensures_refuse, ensures_perform]
  refine ⟨fun hmissing => ⟨⟨.refl h, trivial⟩, .inr (.inr fun hentry => ?_)⟩, fun _ =>
    ⟨fun _ => ⟨⟨?_, .single hallows, rfl, rfl⟩, rfl, ?_, fun _ => ?_⟩, fun code hcode hcall => ?_⟩⟩
  · simp [hentry.1 hrequires] at hmissing
  · rw [SessionState.Consistent, SessionState.logged, replay_append]
    exact { h with }
  · rw [SessionState.logged, replay_append]
    exact honList
  · rw [SessionState.logged, replay_append]
    rfl
  · have hsame := advances_failed h rfl hcode hallows
    refine ⟨⟨moves_of_advances hsame, ?_⟩, .inr (.inl (.here hcall hcode))⟩
    rw [SessionState.logged, replay_append, DriverState.step_of_ne _ hcode]
    rfl

theorem consistent_forget (h : s.Consistent graph) :
    SessionState.Consistent graph { s with executeListRecorded := false } :=
  { h with
    closed_of_recorded := by simp
    records := by simp }

theorem ensures_initializeOnList (bound : Option (List ℕ)) (h : s.Consistent graph)
    (honList : (replay s.log).onList = false)
    (hdirect : graph.Requires initializeStage → (replay s.log).direct = true) :
    Ensures (graph.initializeOnList driver) s
      (fun _ s' => Moves graph bound s s' ∧ s'.submissionFailed = s.submissionFailed ∧
        graph.Ready (replay s'.log).direct (replay s'.log).onList)
      fun _ s' => Moves graph bound s s' ∧ graph.Requires commandListInitializeStage ∧
        (replay s'.log).onList = false ∧ Hindered graph driver s := by
  rw [initializeOnList, ensures_ite]
  refine ⟨fun hrequires => ?_, fun hnot => ⟨.refl h, rfl, hdirect, fun h => absurd h hnot⟩⟩
  simp only [ensures_bind, ensures_refuse, ensures_modify]
  refine ⟨fun hmissing => ⟨.refl h, hrequires, honList, .inr (.inr fun hentry => ?_)⟩,
    fun _ => ?_⟩
  · simp [hentry.2 hrequires] at hmissing
  refine (ensures_submit bound (consistent_forget h) (by simp) fun _ =>
    ⟨rfl, fun _ => honList, by simp⟩).mono ?_ ?_
  · rintro _ s' ⟨hfailed, before, hadvances, hsubmits, hcommands, rfl⟩
    have hmoves := moves_of_advances hadvances
    refine ⟨⟨consistent_ran hsubmits.consistent hsubmits.submissionFence,
      hmoves.conforms.trans hsubmits.conforms, hmoves.copiedAllocations, hmoves.initialized⟩,
        hsubmits.submissionFailed.trans hfailed.symm, fun h => ?_, fun _ => ?_⟩
    · rw [replay_ran]
      exact hadvances.direct.trans (hdirect h)
    · simp [replay_ran, DriverState.succeeded, hcommands rfl, recordedCommand,
        Command.isInitialization]
  · rintro _ s' ⟨hadvances, hhindered⟩
    have hmoves := moves_of_advances hadvances
    exact ⟨⟨hmoves.consistent, hmoves.conforms, hmoves.copiedAllocations, hmoves.initialized⟩,
      hrequires, hadvances.onList.trans honList, hhindered.imp_right .inl⟩

theorem ensures_initializeGraph (bound : Option (List ℕ)) {allocations : List ℕ}
    (h : s.Consistent graph) (hprogress : Progress graph s.initialized (replay s.log))
    (hnew : s.initialized = false) :
    Ensures (graph.initializeGraph driver allocations) s
      (fun _ s' => s'.Consistent graph ∧ graph.Conforms bound s.log s'.log ∧
        s'.copiedAllocations = s.copiedAllocations ∧ s'.initialized = true ∧
          s'.submissionFailed = s.submissionFailed ∧ Progress graph true (replay s'.log))
      fun _ s' => Moves graph bound s s' ∧ Progress graph s.initialized (replay s'.log) ∧
        Hindered graph driver s := by
  obtain ⟨honList, hdirect⟩ := hprogress.2 hnew
  have hnotReady : ∀ {state : DriverState}, state.onList = false →
      (state.direct = true → graph.Requires commandListInitializeStage) →
        Progress graph s.initialized state :=
    fun honList hdirect =>
      ⟨fun h => absurd (hnew.symm.trans h) (by simp), fun _ => ⟨honList, hdirect⟩⟩
  simp only [initializeGraph, ensures_bind, ensures_modify]
  refine (ensures_setArguments graph bound).mono ?_ ?_
  · rintro _ s₁ ⟨hset, -⟩
    have hmoves₁ := hset.moves h
    have honList₁ : (replay s₁.log).onList = false := by rwa [hset.replay]
    have hdirect₁ : (replay s₁.log).direct = true →
        graph.Requires commandListInitializeStage := by rwa [hset.replay]
    have hfailed₁ : s₁.submissionFailed = s.submissionFailed := by rw [hset.state]
    refine (ensures_initializeDirectly bound hmoves₁.consistent honList₁ hdirect₁).mono ?_ ?_
    · rintro _ s₂ ⟨hmoves₂, hfailed₂, honList₂, hdirect₂⟩
      have hmoves := hmoves₁.trans hmoves₂
      refine (ensures_initializeOnList bound hmoves.consistent honList₂ hdirect₂).mono ?_ ?_
      · rintro _ s₃ ⟨hmoves₃, hfailed₃, hready⟩
        exact ⟨{ hmoves₃.consistent with }, (hmoves.trans hmoves₃).conforms,
          (hmoves.trans hmoves₃).copiedAllocations, trivial,
            hfailed₃.trans (hfailed₂.trans hfailed₁), fun _ => hready, by simp⟩
      · rintro _ s₃ ⟨hmoves₃, hrequires, honList₃, hhindered⟩
        exact ⟨hmoves.trans hmoves₃, hnotReady honList₃ fun _ => hrequires,
          hhindered.later hmoves.conforms (hfailed₂.trans hfailed₁)⟩
    · rintro _ s₂ ⟨⟨hmoves₂, hreplay⟩, hhindered⟩
      refine ⟨hmoves₁.trans hmoves₂, ?_, hhindered.later hmoves₁.conforms hfailed₁⟩
      rw [hreplay]
      exact hnotReady honList₁ hdirect₁
  · rintro _ s₁ ⟨hset, hrefuses⟩
    refine ⟨hset.moves h, ?_, .inr (.inl hrefuses)⟩
    rw [hset.replay]
    exact hnotReady honList hdirect

/-! ## Execution -/

/-- A list that was recorded for the allocations has been submitted on a fresh fence, and has
been waited for. -/
def Executes (graph : GraphSession) (allocations : List ℕ) (log log' : List DriverEvent) : Prop :=
  ∃ earlier, graph.Conforms (some allocations) log earlier ∧
    log' = earlier ++ [(.execute, 0)] ++ [(.synchronize, 0)] ∧
      graph.Records allocations (replay earlier).commands ∧ (replay earlier).fenceReady = true

/-- The state after a list for the allocations has run. -/
theorem of_ran {allocations : List ℕ} {before : SessionState}
    (hadvances : s.Advances graph (some allocations) before)
    (hsubmits : Submits graph (some allocations) before)
    (hready : graph.Ready (replay s.log).direct (replay s.log).onList)
    (hrecords : graph.Records allocations (replay before.log).commands) :
    Moves graph (some allocations) s (ran before) ∧
      graph.Ready (replay (ran before).log).direct (replay (ran before).log).onList ∧
        Executes graph allocations s.log (ran before).log := by
  have hmoves := moves_of_advances hadvances
  refine ⟨⟨consistent_ran hsubmits.consistent hsubmits.submissionFence,
    hmoves.conforms.trans hsubmits.conforms, hmoves.copiedAllocations, hmoves.initialized⟩, ?_,
      before.log, hmoves.conforms, rfl, hrecords, hsubmits.allows.2.1⟩
  rw [replay_ran]
  refine ⟨fun h => hadvances.direct.trans (hready.1 h), fun h => ?_⟩
  have honList := hadvances.onList.trans (hready.2 h)
  simp [DriverState.succeeded, honList]

theorem ensures_executePrepared {allocations : List ℕ} {reuseRecording : Bool}
    (h : s.Consistent graph) (hready : graph.Ready (replay s.log).direct (replay s.log).onList)
    (hreuse : reuseRecording = true → s.executeListRecorded = true ∧
      s.executeAllocations = allocations) :
    Ensures (executePrepared driver allocations reuseRecording) s
      (fun _ s' => Moves graph (some allocations) s s' ∧
        graph.Ready (replay s'.log).direct (replay s'.log).onList ∧
          Executes graph allocations s.log s'.log)
      fun _ s' => Moves graph (some allocations) s s' ∧
        graph.Ready (replay s'.log).direct (replay s'.log).onList ∧
          (s.submissionFailed = true ∨ Refuses driver s.log) := by
  cases reuseRecording with
  | true =>
    obtain ⟨hrecorded, rfl⟩ := hreuse rfl
    simp only [executePrepared, Bool.not_true, Bool.false_eq_true, if_false, ensures_bind,
      ensures_pure]
    refine (ensures_submit (some s.executeAllocations) h (fun _ => ⟨rfl, hrecorded, rfl⟩)
      (by simp)).mono ?_ ?_
    · rintro _ s' ⟨-, before, hadvances, hsubmits, -, rfl⟩
      refine of_ran hadvances hsubmits hready ?_
      rw [← hadvances.executeAllocations]
      exact hsubmits.consistent.records hsubmits.submissionFailed
        (hadvances.executeListRecorded.trans hrecorded)
    · rintro _ s' ⟨hadvances, hhindered⟩
      refine ⟨moves_of_advances hadvances, ?_, hhindered⟩
      rwa [hadvances.direct, hadvances.onList]
  | false =>
    simp only [executePrepared, Bool.not_false, if_true, ensures_bind, ensures_modify]
    have hforget := consistent_forget h
    refine (ensures_setArguments graph (some allocations)).mono ?_ ?_
    · rintro _ s₁ ⟨hset, harguments⟩
      have hmoves₁ := hset.moves hforget
      have hready₁ : graph.Ready (replay s₁.log).direct (replay s₁.log).onList := by
        rwa [hset.replay]
      have hrecords : graph.Records allocations [recordedCommand (replay s₁.log) false] :=
        ⟨_, _, _, rfl, hready₁, harguments⟩
      have hrecorded₁ : s₁.executeListRecorded = false := by rw [hset.state]
      have hfailed₁ : s₁.submissionFailed = s.submissionFailed := by rw [hset.state]
      refine (ensures_submit (some allocations) hmoves₁.consistent (by simp) fun _ =>
        ⟨hrecorded₁, by simp, fun _ => ⟨allocations, rfl, hrecords⟩⟩).mono ?_ ?_
      · rintro _ s' ⟨-, before, hadvances, hsubmits, hcommands, rfl⟩
        have hrecords' : graph.Records allocations (replay before.log).commands := by
          rwa [hcommands rfl]
        obtain ⟨hmoves₂, hready₂, earlier, hconforms, hlog⟩ :=
          of_ran hadvances hsubmits hready₁ hrecords'
        refine ⟨⟨{ hmoves₂.consistent with
          closed_of_recorded := fun _ _ => hsubmits.submissionListClosed
          records := fun _ _ => ?_ }, hmoves₁.conforms.trans hmoves₂.conforms,
            hmoves₂.copiedAllocations.trans hmoves₁.copiedAllocations,
              hmoves₂.initialized.trans hmoves₁.initialized⟩, hready₂, earlier,
                hmoves₁.conforms.trans hconforms, hlog⟩
        rw [replay_ran]
        exact hrecords'
      · rintro _ s' ⟨hadvances, hhindered⟩
        have hmoves₂ := moves_of_advances hadvances
        refine ⟨⟨hmoves₂.consistent, hmoves₁.conforms.trans hmoves₂.conforms,
          hmoves₂.copiedAllocations.trans hmoves₁.copiedAllocations,
            hmoves₂.initialized.trans hmoves₁.initialized⟩, ?_, ?_⟩
        · rwa [hadvances.direct, hadvances.onList]
        · exact hhindered.imp hfailed₁.symm.trans (.later hmoves₁.conforms)
    · rintro _ s₁ ⟨hset, hrefuses⟩
      have hmoves₁ := hset.moves hforget
      refine ⟨⟨hmoves₁.consistent, hmoves₁.conforms, hmoves₁.copiedAllocations,
        hmoves₁.initialized⟩, ?_, .inr hrefuses⟩
      rwa [hset.replay]

theorem Executes.later {allocations : List ℕ} {log log' log'' : List DriverEvent}
    (h : graph.Conforms (some allocations) log log') (h' : Executes graph allocations log' log'') :
    Executes graph allocations log log'' := by
  obtain ⟨earlier, hconforms, hrest⟩ := h'
  exact ⟨earlier, h.trans hconforms, hrest⟩

/-- The invariant of a session. -/
structure Sound (graph : GraphSession) (s : SessionState) : Prop where
  consistent : s.Consistent graph
  progress : Progress graph s.initialized (replay s.log)
  /-- The session's own allocations are one for each argument. -/
  copied : ∀ allocations, s.copiedAllocations = some allocations →
    allocations.length = graph.argumentCount

theorem Sound.created : Sound graph .created :=
  ⟨.created, ⟨by simp [SessionState.created], by simp [SessionState.created, replay]⟩,
    by simp [SessionState.created]⟩

theorem Moves.sound_of_ready (h : Moves graph bound s s') (hinitialized : s.initialized = true)
    (hready : graph.Ready (replay s'.log).direct (replay s'.log).onList)
    (hcopied : ∀ allocations, s.copiedAllocations = some allocations →
      allocations.length = graph.argumentCount) : Sound graph s' := by
  refine ⟨h.consistent, ⟨fun _ => hready, fun hnew => ?_⟩, fun allocations hallocations => ?_⟩
  · rw [h.initialized, hinitialized] at hnew
    exact absurd hnew (by simp)
  · exact hcopied allocations (h.copiedAllocations.symm.trans hallocations)

theorem ensures_executeAllocations {allocations : List ℕ} (h : Sound graph s) :
    Ensures (graph.executeAllocations driver allocations) s
      (fun _ s' => (Sound graph s' ∧ s'.copiedAllocations = s.copiedAllocations) ∧
        graph.Conforms (some allocations) s.log s'.log ∧ Executes graph allocations s.log s'.log)
      fun _ s' => (Sound graph s' ∧ s'.copiedAllocations = s.copiedAllocations) ∧
        graph.Conforms (some allocations) s.log s'.log ∧ Hindered graph driver s := by
  simp only [executeAllocations, ensures_bind, ensures_get]
  cases hinitialized : s.initialized with
  | false =>
    simp only [Bool.not_false, if_true, ensures_bind]
    refine (ensures_initializeGraph (some allocations) h.consistent h.progress hinitialized).mono
      ?_ ?_
    · rintro _ s₁ ⟨hconsistent, hconforms, hcopied, hinitialized₁, hfailed, hprogress⟩
      have hlengths : ∀ allocations, s₁.copiedAllocations = some allocations →
          allocations.length = graph.argumentCount := fun allocations hallocations =>
        h.copied allocations (hcopied.symm.trans hallocations)
      refine (ensures_executePrepared hconsistent (hprogress.1 rfl) (by simp)).mono ?_ ?_
      · rintro _ s' ⟨hmoves, hready, hexecutes⟩
        exact ⟨⟨hmoves.sound_of_ready hinitialized₁ hready hlengths,
          hmoves.copiedAllocations.trans hcopied⟩, hconforms.trans hmoves.conforms,
            hexecutes.later hconforms⟩
      · rintro _ s' ⟨hmoves, hready, hhindered⟩
        exact ⟨⟨hmoves.sound_of_ready hinitialized₁ hready hlengths,
          hmoves.copiedAllocations.trans hcopied⟩, hconforms.trans hmoves.conforms,
            .later hconforms hfailed (hhindered.imp_right .inl)⟩
    · rintro _ s₁ ⟨hmoves, hprogress, hhindered⟩
      rw [← hmoves.initialized] at hprogress
      have hlengths : ∀ allocations, s₁.copiedAllocations = some allocations →
          allocations.length = graph.argumentCount := fun allocations hallocations =>
        h.copied allocations (hmoves.copiedAllocations.symm.trans hallocations)
      exact ⟨⟨⟨hmoves.consistent, hprogress, hlengths⟩, hmoves.copiedAllocations⟩,
        hmoves.conforms, hhindered⟩
  | true =>
    simp only [Bool.not_true, Bool.false_eq_true, if_false]
    refine (ensures_executePrepared h.consistent (h.progress.1 hinitialized) (by simp)).mono ?_ ?_
    · rintro _ s' ⟨hmoves, hready, hexecutes⟩
      exact ⟨⟨hmoves.sound_of_ready hinitialized hready h.copied, hmoves.copiedAllocations⟩,
        hmoves.conforms, hexecutes⟩
    · rintro _ s' ⟨hmoves, hready, hhindered⟩
      exact ⟨⟨hmoves.sound_of_ready hinitialized hready h.copied, hmoves.copiedAllocations⟩,
        hmoves.conforms, hhindered.imp_right .inl⟩

/-- Only host memory has been allocated. -/
structure Allocates (graph : GraphSession) (s s' : SessionState) : Prop where
  state : s' = { s with log := s'.log }
  conforms : ∀ bound, graph.Conforms bound s.log s'.log
  replay : replay s'.log = replay s.log

theorem Allocates.logged (h : Allocates graph s s') {index code : ℕ} :
    Allocates graph s (s'.logged (.allocateHost index, code)) where
  state := by
    rw [h.state]
    rfl
  conforms bound := (h.conforms bound).snoc trivial
  replay := by
    rw [SessionState.logged, replay_append, h.replay]
    by_cases hcode : code = 0
    · subst hcode
      rfl
    · rw [DriverState.step_of_ne _ hcode]
      rfl

theorem Allocates.sound (h : Allocates graph s s') (hs : Sound graph s) :
    Sound graph s' := by
  refine ⟨?_, ?_, ?_⟩
  · rw [SessionState.Consistent, h.replay, h.state]
    exact { hs.consistent with }
  · rw [h.replay, h.state]
    exact hs.progress
  · rw [h.state]
    exact hs.copied

theorem ensures_ensureCopiedAllocations (h : Sound graph s) :
    Ensures (graph.ensureCopiedAllocations driver) s
      (fun allocations s' => Sound graph s' ∧ s'.copiedAllocations = some allocations ∧
        (∀ bound, graph.Conforms bound s.log s'.log) ∧ s'.submissionFailed = s.submissionFailed)
      fun _ s' => Sound graph s' ∧ (∀ bound, graph.Conforms bound s.log s'.log) ∧
        Refuses driver s.log := by
  simp only [ensureCopiedAllocations, ensures_bind, ensures_get]
  cases hcopied : s.copiedAllocations with
  | some allocations => exact ⟨h, hcopied, fun _ => .refl, rfl⟩
  | none =>
    simp only [ensures_bind, ensures_modify, ensures_pure]
    have hloop : Ensures ((List.range graph.argumentCount).foldlM (fun allocations index => do
        perform driver (.allocateHost index)
        let state ← get
        pure (allocations ++ [driver.address state.log])) []) s
          (fun (allocations : List ℕ) s' => Allocates graph s s' ∧
            allocations.length = (List.range graph.argumentCount).length)
          fun _ s' => Allocates graph s s' ∧ Refuses driver s.log := by
      refine ensures_foldlM (fun before (allocations : List ℕ) s' => Allocates graph s s' ∧
        allocations.length = before.length) ?_ ⟨⟨rfl, fun _ => .refl, rfl⟩, rfl⟩
      rintro before index after - allocations s' ⟨hallocates, hlength⟩
      simp only [ensures_bind, ensures_perform, ensures_get, ensures_pure]
      exact ⟨fun _ => ⟨hallocates.logged, by simp [hlength]⟩, fun code hcode hcall =>
        ⟨hallocates.logged, .later (hallocates.conforms none) (.here hcall hcode)⟩⟩
    refine hloop.mono ?_ ?_
    · rintro allocations s' ⟨hallocates, hlength⟩
      have hsound := hallocates.sound h
      refine ⟨⟨{ hsound.consistent with }, hsound.progress, ?_⟩, trivial, hallocates.conforms, ?_⟩
      · rintro _ ⟨⟩
        rw [hlength, List.length_range]
      · rw [hallocates.state]
    · rintro _ s' ⟨hallocates, hrefuses⟩
      exact ⟨hallocates.sound h, hallocates.conforms, hrefuses⟩

/-! ## Calls -/

/-- The allocations of a call : the buffers that it binds, or those of the session. -/
def callAllocations (graph : GraphSession) (s' : SessionState) : InferenceCall → Option (List ℕ)
  | .shared inputs outputs => (graph.bindTensors inputs outputs).toOption
  | .copied _ => s'.copiedAllocations

/-- The call names every argument that it has to name. -/
def Accepts (graph : GraphSession) : InferenceCall → Prop
  | .shared inputs outputs => ∃ allocations, graph.bindTensors inputs outputs = .ok allocations
  | .copied inputs => ∃ matched, graph.matchCopiedInputs inputs = .ok matched

/-- A shared call binds every argument. -/
theorem length_bindTensors {inputs outputs : List SharedTensor} {allocations : List ℕ}
    (h : graph.bindTensors inputs outputs = .ok allocations) :
    allocations.length = graph.argumentCount := by
  unfold bindTensors at h
  obtain ⟨-, h⟩ := refuseIf_bind_eq_ok_iff.1 h
  obtain ⟨bound, -, h⟩ := bind_eq_ok_iff.1 h
  obtain ⟨matched, -, h⟩ := bind_eq_ok_iff.1 h
  obtain ⟨-, h⟩ := refuseIf_bind_eq_ok_iff.1 h
  cases h
  rw [List.length_map, List.length_range]

theorem ensures_serve (driver : GraphDriver) (call : InferenceCall) (h : Sound graph s) :
    Ensures (graph.serve driver call) s
      (fun _ s' => Sound graph s' ∧ graph.Conforms (graph.callAllocations s' call) s.log s'.log ∧
        ∃ allocations, graph.callAllocations s' call = some allocations ∧
          allocations.length = graph.argumentCount ∧ Executes graph allocations s.log s'.log)
      fun _ s' => Sound graph s' ∧ graph.Conforms (graph.callAllocations s' call) s.log s'.log ∧
        (graph.Accepts call → Hindered graph driver s) := by
  cases call with
  | shared inputs outputs =>
    simp only [serve, ensures_bind, ensures_ofExcept, mapError_eq_ok_iff]
    refine ⟨fun allocations hallocations => ?_, fun error herror => ⟨h, .refl, ?_⟩⟩
    · refine (ensures_executeAllocations h).mono ?_ ?_
      · rintro _ s' ⟨⟨hsound, -⟩, hconforms, hexecutes⟩
        simp only [callAllocations, hallocations]
        exact ⟨hsound, hconforms, allocations, rfl, length_bindTensors hallocations, hexecutes⟩
      · rintro _ s' ⟨⟨hsound, -⟩, hconforms, hhindered⟩
        simp only [callAllocations, hallocations]
        exact ⟨hsound, hconforms, fun _ => hhindered⟩
    · rintro ⟨allocations, hallocations⟩
      rw [hallocations] at herror
      cases herror
  | copied inputs =>
    simp only [serve, ensures_bind, ensures_ofExcept, mapError_eq_ok_iff]
    refine ⟨fun matched _ => ?_, fun error herror => ⟨h, .refl, ?_⟩⟩
    · refine (ensures_ensureCopiedAllocations h).mono ?_ ?_
      · rintro allocations s₁ ⟨hsound₁, hcopied₁, hconforms₁, hfailed₁⟩
        refine (ensures_executeAllocations hsound₁).mono ?_ ?_
        · rintro _ s' ⟨⟨hsound, hcopied⟩, hconforms, hexecutes⟩
          rw [callAllocations, hcopied, hcopied₁]
          exact ⟨hsound, (hconforms₁ _).trans hconforms, allocations, rfl,
            hsound₁.copied allocations hcopied₁, hexecutes.later (hconforms₁ _)⟩
        · rintro _ s' ⟨⟨hsound, hcopied⟩, hconforms, hhindered⟩
          rw [callAllocations, hcopied, hcopied₁]
          exact ⟨hsound, (hconforms₁ _).trans hconforms, fun _ =>
            hhindered.later (hconforms₁ none) hfailed₁⟩
      · rintro _ s₁ ⟨hsound, hconforms, hrefuses⟩
        exact ⟨hsound, hconforms _, fun _ => .inr (.inl hrefuses)⟩
    · rintro ⟨matched, hmatched⟩
      rw [hmatched] at herror
      cases herror

/-! ## Runs -/

theorem Sound.serve (driver : GraphDriver) (call : InferenceCall) (h : Sound graph s) :
    Sound graph (graph.serve driver call s).2 :=
  ((ensures_serve driver call h).mono (fun _ _ h => h.1) fun _ _ h => h.1).always

theorem sound_serveAll (graph : GraphSession) (driver : GraphDriver) (calls : List InferenceCall) :
    Sound graph (graph.serveAll driver calls) := by
  induction calls using List.reverseRecOn with
  | nil => exact .created
  | append_singleton calls call ih =>
    rw [serveAll, List.foldl_append]
    exact ih.serve driver call

/-- A log that is poisoned grows by no submission. -/
theorem Conforms.not_execute {log log' : List DriverEvent} (h : graph.Conforms bound log log')
    (hpoisoned : (replay log).poisoned = true) :
    ∃ events, log' = log ++ events ∧ ∀ event ∈ events, event.1 ≠ .execute := by
  induction h with
  | refl => exact ⟨[], by simp, by simp⟩
  | @snoc log' call code hconforms hallows ih =>
    obtain ⟨events, rfl, hevents⟩ := ih
    have hpoisoned' : (replay (log ++ events)).poisoned = true := by
      obtain ⟨event, hevent, hpoisons⟩ := poisoned_replay_iff.1 hpoisoned
      exact poisoned_replay_iff.2 ⟨event, List.mem_append_left _ hevent, hpoisons⟩
    refine ⟨events ++ [(call, code)], by simp, fun event hevent => ?_⟩
    rcases List.mem_append.1 hevent with hevent | hevent
    · exact hevents event hevent
    · obtain rfl := List.mem_singleton.1 hevent
      rintro rfl
      exact absurd (hallows.1.symm.trans hpoisoned') (by simp)

/-- A session that is not poisoned serves a call that the driver does not fail. -/
theorem Sound.serves {call : InferenceCall} (h : Sound graph s)
    (hpoison : ∀ event ∈ s.log, event.1.poisons = true → event.2 = 0)
    (hentry : graph.EntryPoints) (haccepts : graph.Accepts call) (hdriver : ¬Refuses driver s.log) :
    (graph.serve driver call s).1 = .ok () := by
  have hserve := ensures_serve driver call h
  rcases hrun : graph.serve driver call s with ⟨⟨⟩ | ⟨⟩, s'⟩
  case error error =>
    rcases (hserve.raised hrun).2.2 haccepts with hfailed | hrefuses | hmissing
    · rw [h.consistent.failed_eq] at hfailed
      obtain ⟨event, hevent, hpoisons, hcode⟩ := poisoned_replay_iff.1 hfailed
      exact absurd (hpoison event hevent hpoisons) hcode
    · exact absurd hrefuses hdriver
    · exact absurd hentry hmissing
  case ok => rfl

/-- What holds of a call : `result` is what it returns, `s'` the state that it leaves. -/
structure Served (graph : GraphSession) (call : InferenceCall) (s : SessionState)
    (result : Except SubmissionError Unit) (s' : SessionState) : Prop where
  /-- Whatever is submitted is recorded for the call, and no stage is run again that has
  succeeded, but for the direct stage before the other one. -/
  conforms : graph.Conforms (graph.callAllocations s' call) s.log s'.log
  /-- A call that returns has run a list on its allocations, one for each argument. -/
  executes : result = .ok () → ∃ allocations, graph.callAllocations s' call = some allocations ∧
    allocations.length = graph.argumentCount ∧ Executes graph allocations s.log s'.log
  /-- After a failure in a submission nothing is submitted. -/
  submits_nothing : (∃ event ∈ s.log, event.1.poisons = true ∧ event.2 ≠ 0) →
    ∃ events, s'.log = s.log ++ events ∧ ∀ event ∈ events, event.1 ≠ .execute
  /-- Without one, the session serves the next call if the driver does not fail it. -/
  serves : (∀ event ∈ s'.log, event.1.poisons = true → event.2 = 0) →
    ∀ driver call', graph.EntryPoints → graph.Accepts call' → ¬Refuses driver s'.log →
      (graph.serve driver call' s').1 = .ok ()

/-- Every call of every run is served so. -/
theorem served (graph : GraphSession) (driver : GraphDriver) (calls : List InferenceCall)
    (call : InferenceCall) :
    Served graph call (graph.serveAll driver calls)
      (graph.serve driver call (graph.serveAll driver calls)).1
      (graph.serve driver call (graph.serveAll driver calls)).2 := by
  have hsound := sound_serveAll graph driver calls
  generalize graph.serveAll driver calls = s at hsound
  have hserve := ensures_serve driver call hsound
  have hserved := hsound.serve driver call
  have hconforms := (hserve.mono (fun _ _ h => h.2.1) fun _ _ h => h.2.1).always
  refine ⟨hconforms, fun hresult => ?_, fun hpoison => ?_, fun hpoison driver' call' hentry
    haccepts hdriver => hserved.serves hpoison hentry haccepts hdriver⟩
  · rcases hrun : graph.serve driver call s with ⟨result, s'⟩
    rw [hrun] at hresult
    obtain rfl : result = .ok () := hresult
    exact (hserve.returned hrun).2.2
  · exact hconforms.not_execute (poisoned_replay_iff.2 hpoison)

/-! ## A stage that is run twice -/

/-- A graph that requires both stages. -/
def twoStageGraph : GraphSession where
  id := 0
  arguments := [⟨.input, "x", .u8, [1], by decide⟩, ⟨.output, "y", .u8, [1], by decide⟩]
  length_le := by decide
  supported := by decide
  no_i64_output := by decide
  has_input := by decide
  has_output := by decide
  initStages := 0x3
  hasInitialize := true
  hasAppendInitialize := true

/-- The first creation of a queue fails. -/
def queueDriver : GraphDriver where
  result log call := if call = .createQueue ∧ (call, 1) ∉ log then 1 else 0
  address log := log.length

/-- The direct stage succeeds, the queue for the other one is not created, and the next call
runs the direct stage again. -/
theorem initialized_twice :
    ¬∀ (graph : GraphSession) (driver : GraphDriver) (calls : List InferenceCall),
      (graph.serveAll driver calls).log.count (.graphInitialize, 0) ≤ 1 := by
  intro h
  have hcount := h twoStageGraph queueDriver
    [.copied [⟨none, "x", 1⟩], .copied [⟨none, "x", 1⟩]]
  revert hcount
  decide

end GraphSession

end Npunlock
