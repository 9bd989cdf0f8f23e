import Npunlock.SessionSubmission

/-!
# What a driver was asked

`replay` reads the log of a session as a driver does : which arguments are set, which stages
succeeded, what the command list holds. `Allows` says when a call may be made in such a state,
and `Conforms` that a log grows by allowed calls only. The steps of `submit` preserve the
agreement of the session's flags with the driver (`Consistent`).
-/

namespace Npunlock

/-- What is recorded on a command list : an execution is on the arguments that are set then,
and after the stages that have succeeded then. -/
inductive Command
  | initialization
  | execution (arguments : ℕ → Option ℕ) (direct onList : Bool)

def Command.isInitialization : Command → Bool
  | initialization => true
  | execution .. => false

/-- The state of a driver. `direct` and `onList` are the stages that have succeeded; `running`
is what was submitted last. -/
structure DriverState where
  arguments : ℕ → Option ℕ
  direct : Bool
  onList : Bool
  commands : List Command
  running : List Command
  fenceReady : Bool
  poisoned : Bool

namespace DriverState

variable (state : DriverState)

def succeeded : DriverCall → DriverState
  | .setArgument index allocation =>
    { state with arguments := Function.update state.arguments index (some allocation) }
  | .graphInitialize => { state with direct := true }
  | .createList | .resetList => { state with commands := [] }
  | .createFence | .resetFence => { state with fenceReady := true }
  | .appendInitialize => { state with commands := state.commands ++ [.initialization] }
  | .appendExecute =>
    { state with
      commands := state.commands ++ [.execution state.arguments state.direct state.onList] }
  | .execute => { state with running := state.commands, fenceReady := false }
  | .synchronize =>
    { state with onList := state.onList || state.running.any Command.isInitialization }
  | .allocateHost _ | .createQueue | .closeList => state

/-- An argument that could not be set is unknown. -/
def failed : DriverCall → DriverState
  | .setArgument index _ => { state with arguments := Function.update state.arguments index none }
  | .resetList | .resetFence | .appendInitialize | .appendExecute | .closeList | .execute
  | .synchronize => { state with poisoned := true }
  | .allocateHost _ | .graphInitialize | .createQueue | .createList | .createFence => state

def step (event : DriverEvent) : DriverState :=
  if event.2 = 0 then state.succeeded event.1 else state.failed event.1

@[simp]
theorem step_zero {call : DriverCall} : state.step (call, 0) = state.succeeded call :=
  rfl

theorem step_of_ne {call : DriverCall} {code : ℕ} (h : code ≠ 0) :
    state.step (call, code) = state.failed call :=
  if_neg h

end DriverState

/-- The state of the driver after the calls of a log. -/
def replay (log : List DriverEvent) : DriverState :=
  log.foldl DriverState.step
    { arguments := fun _ => none, direct := false, onList := false, commands := [], running := [],
      fenceReady := false, poisoned := false }

@[simp]
theorem replay_append {log : List DriverEvent} {event : DriverEvent} :
    replay (log ++ [event]) = (replay log).step event := by
  rw [replay, List.foldl_append]
  rfl

/-- The calls whose failure leaves a session unusable. -/
def DriverCall.poisons : DriverCall → Bool
  | resetList | resetFence | appendInitialize | appendExecute | closeList | execute
  | synchronize => true
  | allocateHost _ | setArgument .. | graphInitialize | createQueue | createList
  | createFence => false

theorem DriverState.poisoned_step {state : DriverState} {event : DriverEvent} :
    (state.step event).poisoned = (state.poisoned || (event.1.poisons && event.2 ≠ 0)) := by
  obtain ⟨call, code⟩ := event
  by_cases h : code = 0
  · subst h
    cases call <;> simp [DriverState.succeeded, DriverCall.poisons]
  · rw [state.step_of_ne h]
    cases call <;> simp [DriverState.failed, DriverCall.poisons, h]

/-- A log is poisoned by the failure of one of those calls. -/
theorem poisoned_replay_iff {log : List DriverEvent} :
    (replay log).poisoned = true ↔ ∃ event ∈ log, event.1.poisons = true ∧ event.2 ≠ 0 := by
  induction log using List.reverseRecOn with
  | nil => simp [replay]
  | append_singleton log event ih =>
    rw [replay_append, DriverState.poisoned_step, Bool.or_eq_true, ih]
    simp [or_and_right, exists_or]

namespace GraphSession

open Effect

variable (graph : GraphSession)

/-- The stages that the graph requires have succeeded. -/
def Ready (direct onList : Bool) : Prop :=
  (graph.Requires initializeStage → direct = true) ∧
    (graph.Requires commandListInitializeStage → onList = true)

/-- The commands are one execution on the allocations, recorded when the graph was ready. -/
def Records (allocations : List ℕ) (commands : List Command) : Prop :=
  ∃ arguments direct onList, commands = [.execution arguments direct onList] ∧
    graph.Ready direct onList ∧
      ∀ index allocation, allocations[index]? = some allocation →
        arguments index = some allocation

/-- The calls that may be made by an inference on the allocations `bound`. A stage that has
succeeded is not run again, but for the direct stage of a graph whose other stage has not. -/
def Allows (bound : Option (List ℕ)) (state : DriverState) : DriverCall → Prop
  | .execute => state.poisoned = false ∧ state.fenceReady = true ∧
      (state.commands = [.initialization] ∧ state.onList = false ∨
        ∃ allocations, bound = some allocations ∧ graph.Records allocations state.commands)
  | .graphInitialize => state.direct = true →
      graph.Requires commandListInitializeStage ∧ state.onList = false
  | _ => True

/-- The log grows by calls that are allowed. -/
inductive Conforms (bound : Option (List ℕ)) : List DriverEvent → List DriverEvent → Prop
  | refl {log : List DriverEvent} : Conforms bound log log
  | snoc {log log' : List DriverEvent} {call : DriverCall} {code : ℕ} :
      Conforms bound log log' → graph.Allows bound (replay log') call →
        Conforms bound log (log' ++ [(call, code)])

variable {graph}

theorem Conforms.trans {bound : Option (List ℕ)} {log log' log'' : List DriverEvent}
    (h : graph.Conforms bound log log') (h' : graph.Conforms bound log' log'') :
    graph.Conforms bound log log'' := by
  induction h' with
  | refl => exact h
  | snoc _ hallows ih => exact ih.snoc hallows

theorem Conforms.single {bound : Option (List ℕ)} {log : List DriverEvent} {call : DriverCall}
    {code : ℕ} (h : graph.Allows bound (replay log) call) :
    graph.Conforms bound log (log ++ [(call, code)]) :=
  .snoc .refl h

/-- Every call of a log that conforms is allowed where it is made. -/
theorem Conforms.allows {bound : Option (List ℕ)} {log log' : List DriverEvent}
    (h : graph.Conforms bound log log') :
    ∃ events, log' = log ++ events ∧ ∀ before event after, events = before ++ event :: after →
      graph.Allows bound (replay (log ++ before)) event.1 := by
  induction h with
  | refl => exact ⟨[], by simp, by simp⟩
  | @snoc log' call code _ hallows ih =>
    obtain ⟨events, rfl, hevents⟩ := ih
    refine ⟨events ++ [(call, code)], by simp, fun before event after hsplit => ?_⟩
    rcases after.eq_nil_or_concat with rfl | ⟨after', last, rfl⟩
    · obtain ⟨rfl, heq⟩ := List.append_inj' hsplit rfl
      obtain rfl := List.singleton_inj.1 heq
      exact hallows
    · rw [List.concat_eq_append, ← List.cons_append, ← List.append_assoc] at hsplit
      exact hevents before event after' (List.append_inj' hsplit rfl).1

end GraphSession

/-! ## Flags -/

/-- The flags of a session agree with the state of its driver. -/
structure SessionState.Agrees (graph : GraphSession) (s : SessionState) (state : DriverState) :
    Prop where
  failed_eq : s.submissionFailed = state.poisoned
  list_of_closed : s.submissionListClosed = true → s.submissionList = true
  commands_of_open : s.submissionFailed = false → s.submissionList = true →
    s.submissionListClosed = false → state.commands = []
  fence_of_submitted : s.submissionFenceSubmitted = true → s.submissionFence = true
  fence_ready : s.submissionFailed = false → s.submissionFence = true →
    s.submissionFenceSubmitted = false → state.fenceReady = true
  closed_of_recorded : s.submissionFailed = false → s.executeListRecorded = true →
    s.submissionListClosed = true
  records : s.submissionFailed = false → s.executeListRecorded = true →
    graph.Records s.executeAllocations state.commands

def SessionState.Consistent (graph : GraphSession) (s : SessionState) : Prop :=
  s.Agrees graph (replay s.log)

/-- What an execution depends on. -/
def SessionState.recording (s : SessionState) : Bool × Option (List ℕ) × List ℕ × Bool :=
  (s.initialized, s.copiedAllocations, s.executeAllocations, s.executeListRecorded)

/-- What calls on the graph itself change. -/
def DriverState.graphState (state : DriverState) : (ℕ → Option ℕ) × Bool × Bool :=
  (state.arguments, state.direct, state.onList)

/-- What the steps of a submission keep. -/
structure SessionState.Keeps (graph : GraphSession) (bound : Option (List ℕ))
    (s s' : SessionState) : Prop where
  conforms : graph.Conforms bound s.log s'.log
  recording : s'.recording = s.recording
  graphState : (replay s'.log).graphState = (replay s.log).graphState

structure SessionState.Advances (graph : GraphSession) (bound : Option (List ℕ))
    (s s' : SessionState) : Prop extends SessionState.Keeps graph bound s s' where
  consistent : s'.Consistent graph

namespace SessionState

theorem Consistent.created {graph : GraphSession} : created.Consistent graph := by
  constructor <;> simp [SessionState.created]
  simp [replay]

variable {graph : GraphSession} {bound : Option (List ℕ)} {s s' s'' : SessionState}

theorem Keeps.refl : s.Keeps graph bound s :=
  ⟨.refl, rfl, rfl⟩

theorem Keeps.trans (h : s.Keeps graph bound s') (h' : s'.Keeps graph bound s'') :
    s.Keeps graph bound s'' :=
  ⟨h.conforms.trans h'.conforms, h'.recording.trans h.recording,
    h'.graphState.trans h.graphState⟩

theorem Advances.refl (h : s.Consistent graph) : s.Advances graph bound s :=
  ⟨.refl, h⟩

theorem Advances.trans (h : s.Advances graph bound s') (h' : s'.Advances graph bound s'') :
    s.Advances graph bound s'' :=
  ⟨h.toKeeps.trans h'.toKeeps, h'.consistent⟩

theorem Keeps.initialized (h : s.Keeps graph bound s') : s'.initialized = s.initialized :=
  congrArg (·.1) h.recording

theorem Keeps.executeAllocations (h : s.Keeps graph bound s') :
    s'.executeAllocations = s.executeAllocations :=
  congrArg (·.2.2.1) h.recording

theorem Keeps.executeListRecorded (h : s.Keeps graph bound s') :
    s'.executeListRecorded = s.executeListRecorded :=
  congrArg (·.2.2.2) h.recording

theorem Keeps.arguments (h : s.Keeps graph bound s') :
    (replay s'.log).arguments = (replay s.log).arguments :=
  congrArg (·.1) h.graphState

theorem Keeps.direct (h : s.Keeps graph bound s') :
    (replay s'.log).direct = (replay s.log).direct :=
  congrArg (·.2.1) h.graphState

theorem Keeps.onList (h : s.Keeps graph bound s') :
    (replay s'.log).onList = (replay s.log).onList :=
  congrArg (·.2.2) h.graphState

/-- A call that the graph does not depend on. -/
theorem Keeps.call {event : DriverEvent} (hlog : s'.log = s.log ++ [event])
    (hrecording : s'.recording = s.recording)
    (hallows : graph.Allows bound (replay s.log) event.1)
    (hgraph : ((replay s.log).step event).graphState = (replay s.log).graphState) :
    s.Keeps graph bound s' where
  conforms := hlog ▸ .single hallows
  recording := hrecording
  graphState := by rw [hlog, replay_append, hgraph]

end SessionState

namespace GraphSession

open Effect

variable {graph : GraphSession} {driver : GraphDriver} {bound : Option (List ℕ)}
  {s : SessionState}

/-! ## Calls of the driver -/

theorem ensures_perform {call : DriverCall} {post : Unit → SessionState → Prop}
    {failed : SubmissionError → SessionState → Prop} :
    Ensures (perform driver call) s post failed ↔
      (driver.result s.log call = 0 → post () (s.logged (call, 0))) ∧
        ∀ code, code ≠ 0 → driver.result s.log call = code →
          failed (.driver call code) (s.logged (call, code)) := by
  simp only [perform, ask, ensures_bind, ensures_get, ensures_modify, ensures_pure, ensures_refuse,
    not_not]
  constructor
  · rintro ⟨hfailed, hpost⟩
    refine ⟨fun h => ?_, ?_⟩
    · simpa [h] using hpost h
    · rintro code hcode rfl
      exact hfailed hcode
  · rintro ⟨hpost, hfailed⟩
    refine ⟨fun h => hfailed _ h rfl, fun h => ?_⟩
    simpa [h] using hpost h

theorem ensures_performOrPoison {call : DriverCall} {post : Unit → SessionState → Prop}
    {failed : SubmissionError → SessionState → Prop} :
    Ensures (performOrPoison driver call) s post failed ↔
      (driver.result s.log call = 0 → post () (s.logged (call, 0))) ∧
        ∀ code, code ≠ 0 → driver.result s.log call = code →
          failed (.driver call code)
            { s.logged (call, code) with submissionFailed := true } := by
  simp only [performOrPoison, ask, ensures_bind, ensures_get, ensures_modify, ensures_pure,
    ensures_refuse, ensures_ite, not_not]
  constructor
  · rintro ⟨hfailed, hpost⟩
    refine ⟨fun h => ?_, ?_⟩
    · simpa [h] using (hpost h).2 h
    · rintro code hcode rfl
      exact (hfailed hcode).1 hcode
  · rintro ⟨hpost, hfailed⟩
    refine ⟨fun h => ⟨fun _ => hfailed _ h rfl, fun h' => absurd h' h⟩,
      fun h => ⟨fun h' => absurd h h', fun _ => ?_⟩⟩
    simpa [h] using hpost h

/-! ## The steps of a submission -/

theorem graphState_failed {state : DriverState} {call : DriverCall} {code : ℕ}
    (hcall : call.poisons = true) (hcode : code ≠ 0) :
    (state.step (call, code)).graphState = state.graphState := by
  rw [state.step_of_ne hcode]
  cases call <;> first | rfl | cases hcall

/-- The failure of a call that poisons the session. -/
theorem advances_poisoned {s s' : SessionState} {call : DriverCall} {code : ℕ}
    (h : s.Keeps graph bound s') (hcall : call.poisons = true) (hcode : code ≠ 0)
    (hallows : graph.Allows bound (replay s'.log) call)
    (hlist : s'.submissionListClosed = true → s'.submissionList = true)
    (hfence : s'.submissionFenceSubmitted = true → s'.submissionFence = true) :
    s.Advances graph bound { s'.logged (call, code) with submissionFailed := true } where
  toKeeps := h.trans (.call rfl rfl hallows (graphState_failed hcall hcode))
  consistent := {
    failed_eq := by
      rw [SessionState.logged, replay_append, DriverState.poisoned_step, hcall]
      simp [hcode]
    list_of_closed := hlist
    commands_of_open := by simp
    fence_of_submitted := hfence
    fence_ready := by simp
    closed_of_recorded := by simp
    records := by simp }

/-- A failed creation changes nothing. -/
theorem advances_failed {call : DriverCall} {code : ℕ} (h : s.Consistent graph)
    (hcall : (replay s.log).failed call = replay s.log) (hcode : code ≠ 0)
    (hallows : graph.Allows bound (replay s.log) call) :
    s.Advances graph bound (s.logged (call, code)) := by
  have hstep : (replay s.log).step (call, code) = replay s.log := by
    rw [DriverState.step_of_ne _ hcode, hcall]
  refine ⟨.call rfl rfl hallows (congrArg _ hstep), ?_⟩
  rw [SessionState.Consistent, SessionState.logged, replay_append, hstep]
  exact { h with }

/-- The driver answers a later call with an error. -/
def Refuses (driver : GraphDriver) (log : List DriverEvent) : Prop :=
  ∃ log' call, List.IsPrefix log log' ∧ driver.result log' call ≠ 0

theorem Refuses.here {log : List DriverEvent} {call : DriverCall} {code : ℕ}
    (h : driver.result log call = code) (hcode : code ≠ 0) : Refuses driver log :=
  ⟨log, call, List.prefix_rfl, h ▸ hcode⟩

theorem Refuses.later {log log' : List DriverEvent} (hlog : graph.Conforms bound log log')
    (h : Refuses driver log') : Refuses driver log := by
  obtain ⟨log'', call, hlater, hresult⟩ := h
  obtain ⟨events, rfl, -⟩ := hlog.allows
  exact ⟨log'', call, (List.prefix_append log events).trans hlater, hresult⟩

/-- What a step that prepares a submission keeps. -/
structure Prepares (graph : GraphSession) (bound : Option (List ℕ)) (s s' : SessionState) : Prop
    extends s.Advances graph bound s' where
  submissionFailed : s'.submissionFailed = s.submissionFailed
  submissionList : s.submissionList = true → s'.submissionList = true
  submissionFence : s.submissionFence = true → s'.submissionFence = true

theorem Prepares.trans {s' s'' : SessionState} (h : Prepares graph bound s s')
    (h' : Prepares graph bound s' s'') : Prepares graph bound s s'' :=
  ⟨h.toAdvances.trans h'.toAdvances, h'.submissionFailed.trans h.submissionFailed,
    fun hlist => h'.submissionList (h.submissionList hlist),
    fun hfence => h'.submissionFence (h.submissionFence hfence)⟩

theorem ensures_createQueue (h : s.Consistent graph) :
    Ensures (createQueue driver) s (fun _ s' => Prepares graph bound s s')
      fun _ s' => s.Advances graph bound s' ∧ Refuses driver s.log := by
  simp only [createQueue, ensures_bind, ensures_get, ensures_ite, ensures_perform, ensures_modify,
    ensures_pure]
  refine ⟨fun _ => ⟨fun _ => ?_, fun code hcode hcall =>
    ⟨advances_failed h rfl hcode trivial, .here hcall hcode⟩⟩,
    fun _ => ⟨.refl h, rfl, id, id⟩⟩
  refine ⟨⟨.call rfl rfl trivial rfl, ?_⟩, rfl, id, id⟩
  rw [SessionState.Consistent, SessionState.logged, replay_append]
  exact { h with }

theorem ensures_createList (h : s.Consistent graph) :
    Ensures (createList driver) s
      (fun _ s' => Prepares graph bound s s' ∧ s'.submissionList = true)
      fun _ s' => s.Advances graph bound s' ∧ Refuses driver s.log := by
  simp only [createList, ensures_bind, ensures_get, ensures_ite, ensures_perform, ensures_modify,
    ensures_pure]
  refine ⟨fun hlist => ⟨fun _ => ?_, fun code hcode hcall =>
    ⟨advances_failed h rfl hcode trivial, .here hcall hcode⟩⟩,
    fun hlist => ⟨⟨.refl h, rfl, id, id⟩, by simpa using hlist⟩⟩
  refine ⟨⟨⟨.call rfl rfl trivial rfl, ?_⟩, rfl, fun _ => rfl, id⟩, trivial⟩
  rw [SessionState.Consistent, SessionState.logged, replay_append]
  have hclosed : s.submissionListClosed ≠ true := fun hclosed => by
    simp [h.list_of_closed hclosed] at hlist
  exact { h with
    list_of_closed := fun _ => rfl
    commands_of_open := fun _ _ _ => rfl
    records := fun hfailed hrecorded => absurd (h.closed_of_recorded hfailed hrecorded) hclosed }

theorem ensures_createFence (h : s.Consistent graph) :
    Ensures (createFence driver) s
      (fun _ s' => Prepares graph bound s s' ∧ s'.submissionFence = true)
      fun _ s' => s.Advances graph bound s' ∧ Refuses driver s.log := by
  simp only [createFence, ensures_bind, ensures_get, ensures_ite, ensures_perform, ensures_modify,
    ensures_pure]
  refine ⟨fun hfence => ⟨fun _ => ?_, fun code hcode hcall =>
    ⟨advances_failed h rfl hcode trivial, .here hcall hcode⟩⟩,
    fun hfence => ⟨⟨.refl h, rfl, id, id⟩, by simpa using hfence⟩⟩
  refine ⟨⟨⟨.call rfl rfl trivial rfl, ?_⟩, rfl, id, fun _ => rfl⟩, trivial⟩
  rw [SessionState.Consistent, SessionState.logged, replay_append]
  exact { h with
    fence_of_submitted := fun _ => rfl
    fence_ready := fun _ _ _ => rfl }

/-- The list is open and empty unless it is used again. -/
theorem ensures_resetList {reuseRecording : Bool} (h : s.Consistent graph)
    (hreuse : reuseRecording = false → s.executeListRecorded = false) :
    Ensures (resetList driver reuseRecording) s
      (fun _ s' => Prepares graph bound s s' ∧
        (reuseRecording = false → s'.submissionListClosed = false))
      fun _ s' => s.Advances graph bound s' ∧ Refuses driver s.log := by
  simp only [resetList, ensures_bind, ensures_get, ensures_ite, ensures_performOrPoison,
    ensures_modify, ensures_pure]
  refine ⟨fun hreset => ⟨fun _ => ?_, fun code hcode hcall =>
    ⟨advances_poisoned .refl rfl hcode trivial h.list_of_closed h.fence_of_submitted,
      .here hcall hcode⟩⟩, fun hreset =>
      ⟨⟨.refl h, rfl, id, id⟩, fun hnew => ?_⟩⟩
  · obtain ⟨hnew, hclosed⟩ : reuseRecording = false ∧ s.submissionListClosed = true := by
      simpa using hreset
    refine ⟨⟨⟨.call rfl rfl trivial rfl, ?_⟩, rfl, id, id⟩, fun _ => trivial⟩
    rw [SessionState.Consistent, SessionState.logged, replay_append]
    have hrecorded : s.executeListRecorded ≠ true := by simp [hreuse hnew]
    exact { h with
      list_of_closed := fun hopen => absurd hopen (by simp)
      commands_of_open := fun _ _ _ => rfl
      closed_of_recorded := fun _ h => absurd h hrecorded
      records := fun _ h => absurd h hrecorded }
  · simpa [hnew] using hreset

/-- The fence is fresh. -/
theorem ensures_resetFence (h : s.Consistent graph) :
    Ensures (resetFence driver) s
      (fun _ s' => Prepares graph bound s s' ∧ s'.submissionFenceSubmitted = false ∧
        s'.submissionListClosed = s.submissionListClosed)
      fun _ s' => s.Advances graph bound s' ∧ Refuses driver s.log := by
  simp only [resetFence, ensures_bind, ensures_get, ensures_ite, ensures_performOrPoison,
    ensures_modify, ensures_pure]
  refine ⟨fun _ => ⟨fun _ => ?_, fun code hcode hcall =>
    ⟨advances_poisoned .refl rfl hcode trivial h.list_of_closed h.fence_of_submitted,
      .here hcall hcode⟩⟩,
      fun hfence => ⟨⟨.refl h, rfl, id, id⟩, by simpa using hfence, trivial⟩⟩
  refine ⟨⟨⟨.call rfl rfl trivial rfl, ?_⟩, rfl, id, id⟩, trivial, rfl⟩
  rw [SessionState.Consistent, SessionState.logged, replay_append]
  exact { h with
    fence_of_submitted := fun hfence => absurd hfence (by simp)
    fence_ready := fun _ _ _ => rfl }

/-- The command that a recording appends. -/
def recordedCommand (state : DriverState) (initializing : Bool) : Command :=
  if initializing then .initialization
  else .execution state.arguments state.direct state.onList

theorem graphState_append {state : DriverState} {initializing : Bool} :
    (state.succeeded (appendCall initializing)).graphState = state.graphState := by
  cases initializing <;> rfl

theorem commands_append {state : DriverState} {initializing : Bool} (h : state.commands = []) :
    (state.succeeded (appendCall initializing)).commands =
      [recordedCommand state initializing] := by
  cases initializing <;> simp [DriverState.succeeded, appendCall, recordedCommand, h]

/-- An open list is recorded. -/
theorem ensures_recordList {initializing : Bool} (h : s.Consistent graph)
    (hfailed : s.submissionFailed = false) (hlist : s.submissionList = true)
    (hopen : s.submissionListClosed = false) (hrecorded : s.executeListRecorded = false) :
    Ensures (recordList driver initializing) s
      (fun _ s' => Prepares graph bound s s' ∧ s'.submissionListClosed = true ∧
        s'.submissionFenceSubmitted = s.submissionFenceSubmitted ∧
          (replay s'.log).commands = [recordedCommand (replay s.log) initializing])
      fun _ s' => s.Advances graph bound s' ∧ Refuses driver s.log := by
  have hempty := h.commands_of_open hfailed hlist hopen
  have hpoisons : (appendCall initializing).poisons = true := by cases initializing <;> rfl
  have hallows : graph.Allows bound (replay s.log) (appendCall initializing) := by
    cases initializing <;> trivial
  have happended : s.Keeps graph bound (s.logged (appendCall initializing, 0)) :=
    .call rfl rfl hallows graphState_append
  simp only [recordList, ensures_bind, ensures_performOrPoison, ensures_modify]
  refine ⟨fun _ => ⟨fun _ => ⟨⟨⟨happended.trans (.call rfl rfl trivial rfl), ?_⟩, rfl, id, id⟩,
    trivial, rfl, ?_⟩, fun code hcode hcall => ⟨advances_poisoned happended rfl hcode trivial
      h.list_of_closed h.fence_of_submitted, .later happended.conforms (.here hcall hcode)⟩⟩,
        fun code hcode hcall => ⟨advances_poisoned .refl hpoisons hcode hallows h.list_of_closed
          h.fence_of_submitted, .here hcall hcode⟩⟩
  · simp only [SessionState.Consistent, SessionState.logged, replay_append, DriverState.step_zero]
    exact {
      failed_eq := by cases initializing <;> exact h.failed_eq
      list_of_closed := fun _ => hlist
      commands_of_open := by simp
      fence_of_submitted := h.fence_of_submitted
      fence_ready := by cases initializing <;> exact h.fence_ready
      closed_of_recorded := by simp
      records := by simp [hrecorded] }
  · simp only [SessionState.logged, replay_append, DriverState.step_zero]
    exact commands_append hempty

/-! ## A submission -/

/-- The state after the list was submitted and has run. -/
def ran (s : SessionState) : SessionState :=
  { s with
    submissionFenceSubmitted := true
    log := s.log ++ [(.execute, 0)] ++ [(.synchronize, 0)] }

theorem replay_ran : replay (ran s).log =
    ((replay s.log).succeeded .execute).succeeded .synchronize := by
  rw [ran, replay_append, replay_append]
  rfl

theorem consistent_ran (h : s.Consistent graph) (hfence : s.submissionFence = true) :
    (ran s).Consistent graph := by
  rw [SessionState.Consistent, replay_ran]
  exact { h with
    fence_of_submitted := fun _ => hfence
    fence_ready := by simp [ran] }

/-- The list may be submitted. -/
structure Submits (graph : GraphSession) (bound : Option (List ℕ)) (s : SessionState) : Prop where
  consistent : s.Consistent graph
  submissionFailed : s.submissionFailed = false
  submissionFence : s.submissionFence = true
  submissionFenceSubmitted : s.submissionFenceSubmitted = false
  submissionListClosed : s.submissionListClosed = true
  commands : (replay s.log).commands = [.initialization] ∧ (replay s.log).onList = false ∨
    ∃ allocations, bound = some allocations ∧ graph.Records allocations (replay s.log).commands

theorem Submits.allows (h : Submits graph bound s) : graph.Allows bound (replay s.log) .execute :=
  ⟨h.consistent.failed_eq.symm.trans h.submissionFailed, h.consistent.fence_ready
    h.submissionFailed h.submissionFence h.submissionFenceSubmitted, h.commands⟩

theorem Submits.conforms (h : Submits graph bound s) :
    graph.Conforms bound s.log (ran s).log :=
  .snoc (.single h.allows) trivial

theorem ensures_runList (h : Submits graph bound s) :
    Ensures (runList driver) s (fun _ s' => s' = ran s)
      fun _ s' => s.Advances graph bound s' ∧ Refuses driver s.log := by
  have hexecuted : s.Keeps graph bound
      { s.logged (.execute, 0) with submissionFenceSubmitted := true } :=
    .call rfl rfl h.allows rfl
  simp only [runList, ensures_bind, ensures_performOrPoison, ensures_modify]
  refine ⟨fun _ => ⟨fun _ => rfl, fun code hcode hcall => ⟨?_, ?_⟩⟩, fun code hcode hcall =>
    ⟨?_, .here hcall hcode⟩⟩
  · exact advances_poisoned hexecuted rfl hcode trivial h.consistent.list_of_closed
      fun _ => h.submissionFence
  · exact .later hexecuted.conforms (.here hcall hcode)
  · exact advances_poisoned .refl rfl hcode h.allows h.consistent.list_of_closed
      h.consistent.fence_of_submitted

theorem ensures_submit (bound : Option (List ℕ)) {initializing reuseRecording : Bool}
    (h : s.Consistent graph)
    (hreuse : reuseRecording = true → initializing = false ∧ s.executeListRecorded = true ∧
      bound = some s.executeAllocations)
    (hnew : reuseRecording = false → s.executeListRecorded = false ∧
      (initializing = true → (replay s.log).onList = false) ∧
        (initializing = false → ∃ allocations, bound = some allocations ∧
          graph.Records allocations [recordedCommand (replay s.log) false])) :
    Ensures (submit driver initializing reuseRecording) s
      (fun _ s' => s.submissionFailed = false ∧ ∃ before, s.Advances graph bound before ∧
        Submits graph bound before ∧ (reuseRecording = false →
          (replay before.log).commands = [recordedCommand (replay s.log) initializing]) ∧
            s' = ran before)
      fun _ s' => s.Advances graph bound s' ∧
        (s.submissionFailed = true ∨ Refuses driver s.log) := by
  simp only [submit, ensures_bind, ensures_get, ensures_refuse]
  refine ⟨fun hfailed => ⟨.refl h, .inl hfailed⟩, fun hfailed => ?_⟩
  have hfailed : s.submissionFailed = false := by simpa using hfailed
  -- a later failure is one of the driver
  have hlater : ∀ {s' s'' : SessionState}, Prepares graph bound s s' →
      s'.Advances graph bound s'' ∧ Refuses driver s'.log →
        s.Advances graph bound s'' ∧ (s.submissionFailed = true ∨ Refuses driver s.log) :=
    fun h h' => ⟨h.toAdvances.trans h'.1, .inr (.later h.conforms h'.2)⟩
  refine (ensures_createQueue h).mono (fun _ s₁ h₁ => ?_) fun _ s₁ h₁ => ⟨h₁.1, .inr h₁.2⟩
  refine (ensures_createList h₁.consistent).mono ?_ fun _ s₂ h₂ => hlater h₁ h₂
  rintro _ s₂ ⟨h₂, hlist⟩
  refine (ensures_createFence h₂.consistent).mono ?_ fun _ s₃ h₃ => hlater (h₁.trans h₂) h₃
  rintro _ s₃ ⟨h₃, hfence⟩
  have hprepares := (h₁.trans h₂).trans h₃
  have hlist := h₃.submissionList hlist
  have hfailed₃ := hprepares.submissionFailed.trans hfailed
  clear h₁ h₂ h₃
  refine ⟨?_, fun _ => ?_⟩
  · rintro ⟨rfl, hunavailable⟩
    obtain ⟨rfl, hrecorded, -⟩ := hreuse rfl
    have hrecorded₃ := hprepares.executeListRecorded.trans hrecorded
    have hclosed₃ := hprepares.consistent.closed_of_recorded hfailed₃ hrecorded₃
    simp [hrecorded₃, hclosed₃] at hunavailable
  -- the list : empty and open, or closed and to be used again
  refine (ensures_resetList hprepares.consistent fun h => ?_).mono ?_
    fun _ s₄ h₄ => hlater hprepares h₄
  · rw [hprepares.executeListRecorded]
    exact (hnew h).1
  rintro _ s₄ ⟨h₄, hopen⟩
  have hprepares₄ := hprepares.trans h₄
  refine (ensures_resetFence hprepares₄.consistent).mono ?_ fun _ s₅ h₅ => hlater hprepares₄ h₅
  rintro _ s₅ ⟨h₅, hfresh, hclosed₅⟩
  have hprepares₅ := hprepares₄.trans h₅
  have hfailed₅ := hprepares₅.submissionFailed.trans hfailed
  have hfence₅ := (h₄.trans h₅).submissionFence hfence
  cases reuseRecording with
  | true =>
    obtain ⟨-, hrecorded, hbound⟩ := hreuse rfl
    have hrecorded₅ := hprepares₅.executeListRecorded.trans hrecorded
    have hsubmits : Submits graph bound s₅ := {
      consistent := hprepares₅.consistent
      submissionFailed := hfailed₅
      submissionFence := hfence₅
      submissionFenceSubmitted := hfresh
      submissionListClosed := hprepares₅.consistent.closed_of_recorded hfailed₅ hrecorded₅
      commands := .inr ⟨s₅.executeAllocations, by rw [hbound, hprepares₅.executeAllocations],
        hprepares₅.consistent.records hfailed₅ hrecorded₅⟩ }
    refine (ensures_runList hsubmits).mono ?_ fun _ s₆ h₆ => hlater hprepares₅ h₆
    rintro _ s₆ rfl
    exact ⟨hfailed, s₅, hprepares₅.toAdvances, hsubmits, by simp, rfl⟩
  | false =>
    obtain ⟨hrecorded, hinitialization, hexecution⟩ := hnew rfl
    have hgraph : ∀ initializing, recordedCommand (replay s₅.log) initializing =
        recordedCommand (replay s.log) initializing := by
      intro initializing
      rw [recordedCommand, recordedCommand, hprepares₅.arguments, hprepares₅.direct,
        hprepares₅.onList]
    have hlist₅ := (h₄.trans h₅).submissionList hlist
    have hopen₅ := hclosed₅.trans (hopen rfl)
    have hrecorded₅ := hprepares₅.executeListRecorded.trans hrecorded
    rw [if_pos (by rfl), ensures_bind]
    refine (ensures_recordList hprepares₅.consistent hfailed₅ hlist₅ hopen₅ hrecorded₅).mono ?_
      fun _ s₆ h₆ => hlater hprepares₅ h₆
    rintro _ s₆ ⟨h₆, hclosed₆, hsubmitted₆, hcommands₆⟩
    have hprepares₆ := hprepares₅.trans h₆
    rw [hgraph] at hcommands₆
    have hsubmits : Submits graph bound s₆ := {
      consistent := hprepares₆.consistent
      submissionFailed := hprepares₆.submissionFailed.trans hfailed
      submissionFence := h₆.submissionFence hfence₅
      submissionFenceSubmitted := hsubmitted₆.trans hfresh
      submissionListClosed := hclosed₆
      commands := by
        rw [hcommands₆]
        cases initializing with
        | true => exact .inl ⟨rfl, hprepares₆.onList.trans (hinitialization rfl)⟩
        | false => exact .inr (hexecution rfl) }
    refine (ensures_runList hsubmits).mono ?_ fun _ s₇ h₇ => hlater hprepares₆ h₇
    rintro _ s₇ rfl
    exact ⟨hfailed, s₆, hprepares₆.toAdvances, hsubmits, fun _ => hcommands₆, rfl⟩

end GraphSession

end Npunlock
