import Npunlock.ByteTracker

/-!
# What an update does

The parts of a track that the lists depend on are its `Life`. Every phase of `update` has a
specification of the lives after it, of what the tracks consumed and of what it leaves alone
(`Mutates`).
-/

namespace Npunlock

open Effect

variable {Box Filter Score Cost : Type}

/-- What the lists depend on. -/
structure Life where
  trackId : ℕ
  state : TrackState
  isActivated : Bool
  frameId : ℕ
  startFrame : ℕ

namespace Life

variable (life : Life) (frameId : ℕ)

/-- After a detection was taken. -/
def matched : Life :=
  { life with state := .tracked, isActivated := true, frameId }

def withState (state : TrackState) : Life :=
  { life with state }

/-- After a track started. -/
def started (trackId frameId : ℕ) : Life :=
  ⟨trackId, .tracked, frameId = 1, frameId, frameId⟩

end Life

def Track.life (track : Track Box Filter Score) : Life :=
  ⟨track.trackId, track.state, track.isActivated, track.frameId, track.startFrame⟩

/-- What a track has of a detection. -/
def Track.contents (track : Track Box Filter Score) : Box × Score × ℤ :=
  (track.tlwh, track.score, track.classId)

namespace Tracker

variable {s s' s'' : Tracker Box Filter Score} {math : TrackingMath Box Filter Score Cost}

def life (tracker : Tracker Box Filter Score) (track : ℕ) : Life :=
  (tracker.store track).life

/-- `s'` differs from `s` only in these tracks, not in their identifiers and start frames, and
in what they consumed. -/
structure Mutates (touched : List ℕ) (s s' : Tracker Box Filter Score) : Prop where
  created : s'.created = s.created
  frameId : s'.frameId = s.frameId
  nextTrackId : s'.nextTrackId = s.nextTrackId
  trackedTracks : s'.trackedTracks = s.trackedTracks
  lostTracks : s'.lostTracks = s.lostTracks
  removedTracks : s'.removedTracks = s.removedTracks
  trackId : ∀ track, (s'.store track).trackId = (s.store track).trackId
  startFrame : ∀ track, (s'.store track).startFrame = (s.store track).startFrame
  untouched : ∀ track ∉ touched, s'.store track = s.store track

namespace Mutates

variable {touched touched' : List ℕ}

theorem refl : Mutates touched s s :=
  ⟨rfl, rfl, rfl, rfl, rfl, rfl, fun _ => rfl, fun _ => rfl, fun _ _ => rfl⟩

theorem mono (h : Mutates touched s s') (hsubset : touched ⊆ touched') :
    Mutates touched' s s' :=
  { h with untouched := fun track htrack => h.untouched track fun hmem => htrack (hsubset hmem) }

theorem of_mem {track : ℕ} (h : Mutates [track] s s') (hmem : track ∈ touched) :
    Mutates touched s s' :=
  h.mono fun other hother => by rwa [List.mem_singleton.1 hother]

theorem trans (h : Mutates touched s s') (h' : Mutates touched s' s'') :
    Mutates touched s s'' where
  created := h'.created.trans h.created
  frameId := h'.frameId.trans h.frameId
  nextTrackId := h'.nextTrackId.trans h.nextTrackId
  trackedTracks := h'.trackedTracks.trans h.trackedTracks
  lostTracks := h'.lostTracks.trans h.lostTracks
  removedTracks := h'.removedTracks.trans h.removedTracks
  trackId track := (h'.trackId track).trans (h.trackId track)
  startFrame track := (h'.startFrame track).trans (h.startFrame track)
  untouched track htrack := (h'.untouched track htrack).trans (h.untouched track htrack)

theorem setTrack {track : ℕ} {value : Track Box Filter Score}
    (htrackId : value.trackId = (s.store track).trackId)
    (hstartFrame : value.startFrame = (s.store track).startFrame) :
    Mutates [track] s (s.setTrack track value) where
  created := rfl
  frameId := rfl
  nextTrackId := rfl
  trackedTracks := rfl
  lostTracks := rfl
  removedTracks := rfl
  trackId other := by
    by_cases h : other = track
    · subst h
      simp [Tracker.setTrack, htrackId]
    · simp [Tracker.setTrack, h]
  startFrame other := by
    by_cases h : other = track
    · subst h
      simp [Tracker.setTrack, hstartFrame]
    · simp [Tracker.setTrack, h]
  untouched other hother := by
    simp [Tracker.setTrack, List.ne_of_not_mem_cons hother]

theorem withConsumed (s : Tracker Box Filter Score) (consumed : List (ℕ × ℕ)) :
    Mutates touched s { s with consumed } :=
  ⟨rfl, rfl, rfl, rfl, rfl, rfl, fun _ => rfl, fun _ => rfl, fun _ _ => rfl⟩

end Mutates

theorem life_setTrack (track : ℕ) (value : Track Box Filter Score) :
    (s.setTrack track value).life = Function.update s.life track value.life := by
  funext other
  by_cases h : other = track
  · subst h
    simp [life, setTrack]
  · simp [life, setTrack, h]

theorem life_setTrack_self {track : ℕ} {value : Track Box Filter Score}
    (h : value.life = (s.store track).life) : (s.setTrack track value).life = s.life := by
  rw [life_setTrack, h]
  exact Function.update_eq_self ..

/-! ## One track -/

/-- What `update` and `reactivate` ensure. -/
def Consumes (frameId track detection : ℕ) (s s' : Tracker Box Filter Score) : Prop :=
  Mutates [track] s s' ∧ s'.life = Function.update s.life track ((s.life track).matched frameId) ∧
    s'.consumed = s.consumed ++ [(track, detection)]

theorem ensures_consumeDetection {frameId track detection : ℕ} :
    Ensures (consumeDetection math frameId track detection) s
      (fun _ s' => Consumes frameId track detection s s')
      fun error s' => error = .kalman ∧ s' = s := by
  simp only [consumeDetection, ensures_bind, ensures_get, ensures_ofOption, mutate, ensures_modify]
  refine ⟨fun filter _ => ⟨fun filter' _ => ⟨?_, ?_, rfl⟩, fun _ => ⟨trivial, trivial⟩⟩,
    fun _ => ⟨trivial, trivial⟩⟩
  · refine Mutates.trans (Mutates.setTrack ?_ ?_) (Mutates.withConsumed (s.setTrack track _) _)
    · rfl
    · rfl
  · exact life_setTrack track _

/-- A change that no list depends on, before a detection is taken. -/
theorem ensures_mutate_consumeDetection {frameId track detection : ℕ}
    {change : Track Box Filter Score → Track Box Filter Score}
    (hchange : ∀ value, (change value).life = value.life) :
    Ensures (do mutate track change; consumeDetection math frameId track detection) s
      (fun _ s' => Consumes frameId track detection s s')
      fun error s' => error = .kalman ∧ Mutates [track] s s' := by
  have hlife : (s.setTrack track (change (s.store track))).life = s.life :=
    life_setTrack_self (hchange _)
  have hmutates : Mutates [track] s (s.setTrack track (change (s.store track))) :=
    Mutates.setTrack (congrArg Life.trackId (hchange _)) (congrArg Life.startFrame (hchange _))
  rw [ensures_bind, mutate, ensures_modify]
  refine ensures_consumeDetection.mono ?_ ?_
  · rintro _ s' ⟨hrest, hlife', hconsumed⟩
    rw [hlife] at hlife'
    exact ⟨hmutates.trans hrest, hlife', hconsumed⟩
  · rintro error s' ⟨rfl, rfl⟩
    exact ⟨rfl, hmutates⟩

theorem ensures_updateTrack {frameId track detection : ℕ} :
    Ensures (updateTrack math frameId track detection) s
      (fun _ s' => Consumes frameId track detection s s')
      fun error s' => error = .kalman ∧ Mutates [track] s s' :=
  ensures_mutate_consumeDetection fun _ => rfl

theorem ensures_reactivate {frameId track detection : ℕ} :
    Ensures (reactivate math frameId track detection) s
      (fun _ s' => Consumes frameId track detection s s')
      fun error s' => error = .kalman ∧ Mutates [track] s s' :=
  ensures_mutate_consumeDetection fun _ => rfl

theorem ensures_pick {tracks detections : List ℕ} {row column : ℕ} :
    Ensures (pick tracks detections row column : Action Box Filter Score (ℕ × ℕ)) s
      (fun found s' => (tracks[row]? = some found.1 ∧ detections[column]? = some found.2) ∧ s' = s)
      fun error s' => error = .index ∧ s' = s := by
  simp only [pick, ensures_bind, ensures_ofOption, ensures_pure]
  exact ⟨fun track htrack => ⟨fun detection hdetection => ⟨⟨htrack, hdetection⟩, trivial⟩,
    fun _ => ⟨trivial, trivial⟩⟩, fun _ => ⟨trivial, trivial⟩⟩

/-! ## Loops over matches -/

/-- The lives after some tracks took a detection. -/
def matchedLives (lives : ℕ → Life) (frameId : ℕ) (tracks : List ℕ) (track : ℕ) : Life :=
  if track ∈ tracks then (lives track).matched frameId else lives track

theorem update_matchedLives {lives : ℕ → Life} {frameId track : ℕ} {tracks : List ℕ} :
    Function.update (matchedLives lives frameId tracks) track
        ((matchedLives lives frameId tracks track).matched frameId) =
      matchedLives lives frameId (tracks ++ [track]) := by
  funext other
  by_cases h : other = track
  · subst h
    by_cases hmem : other ∈ tracks <;> simp [matchedLives, hmem, Life.matched]
  · simp [matchedLives, h]

/-- The pairs that matches stand for. -/
def Picks (tracks detections : List ℕ) (pairs picked : List (ℕ × ℕ)) : Prop :=
  List.Forall₂ (fun pair found => tracks[pair.1]? = some found.1 ∧
    detections[pair.2]? = some found.2) pairs picked

/-- What a loop over matches ensures. -/
def ConsumesAll (frameId : ℕ) (picked : List (ℕ × ℕ)) (s s' : Tracker Box Filter Score) : Prop :=
  Mutates (picked.map Prod.fst) s s' ∧
    s'.life = matchedLives s.life frameId (picked.map Prod.fst) ∧
      s'.consumed = s.consumed ++ picked

theorem ConsumesAll.snoc {frameId track detection : ℕ} {picked : List (ℕ × ℕ)}
    (h : ConsumesAll frameId picked s s') (h' : Consumes frameId track detection s' s'') :
    ConsumesAll frameId (picked ++ [(track, detection)]) s s'' := by
  obtain ⟨hmutates, hlife, hconsumed⟩ := h
  obtain ⟨hmutates', hlife', hconsumed'⟩ := h'
  refine ⟨(hmutates.mono ?_).trans (hmutates'.mono ?_), ?_, ?_⟩
  · simp
  · simp
  · rw [hlife', hlife, update_matchedLives, List.map_append]
    rfl
  · rw [hconsumed', hconsumed, List.append_assoc]

theorem matchedLives_nil {lives : ℕ → Life} {frameId : ℕ} :
    matchedLives lives frameId [] = lives := by
  funext track
  simp [matchedLives]

theorem ConsumesAll.nil {frameId : ℕ} : ConsumesAll frameId [] s s :=
  ⟨.refl, matchedLives_nil.symm, by simp⟩

/-- The failures of a loop over matches. -/
def FailsMatching (touched : List ℕ) (s : Tracker Box Filter Score) (error : TrackerError)
    (s' : Tracker Box Filter Score) : Prop :=
  (error = .index ∨ error = .kalman) ∧ Mutates touched s s'

theorem mem_of_picks {tracks detections : List ℕ} {pairs picked : List (ℕ × ℕ)}
    (h : Picks tracks detections pairs picked) : picked.map Prod.fst ⊆ tracks := by
  intro track htrack
  obtain ⟨found, hfound, rfl⟩ := List.mem_map.1 htrack
  obtain ⟨pair, -, hpair, -⟩ := exists_of_forall₂ h.flip hfound
  exact List.mem_of_getElem? hpair

theorem ensures_laterMatch {frameId : ℕ} {tracks detections activated : List ℕ}
    {pair : ℕ × ℕ} :
    Ensures (laterMatch math frameId tracks detections activated pair) s
      (fun activated' s' => ∃ found : ℕ × ℕ, (tracks[pair.1]? = some found.1 ∧
        detections[pair.2]? = some found.2) ∧ activated' = activated ++ [found.1] ∧
          Consumes frameId found.1 found.2 s s')
      (FailsMatching tracks s) := by
  rw [laterMatch, ensures_bind]
  refine ensures_pick.mono ?_ ?_
  · rintro ⟨track, detection⟩ s' ⟨hfound, rfl⟩
    simp only [ensures_bind, ensures_pure]
    refine ensures_updateTrack.mono (fun _ s'' h => ⟨_, hfound, rfl, h⟩) ?_
    rintro error s'' ⟨rfl, h⟩
    exact ⟨.inr rfl, h.of_mem (List.mem_of_getElem? hfound.1)⟩
  · rintro error s' ⟨rfl, rfl⟩
    exact ⟨.inl rfl, .refl⟩

theorem ensures_laterMatches {frameId : ℕ} {tracks detections activated : List ℕ}
    {pairs : List (ℕ × ℕ)} :
    Ensures (pairs.foldlM (laterMatch math frameId tracks detections) activated) s
      (fun activated' s' => ∃ picked, Picks tracks detections pairs picked ∧
        activated' = activated ++ picked.map Prod.fst ∧ ConsumesAll frameId picked s s')
      (FailsMatching tracks s) := by
  refine ensures_foldlM (fun before activated' s' =>
    ∃ picked, Picks tracks detections before picked ∧
      activated' = activated ++ picked.map Prod.fst ∧ ConsumesAll frameId picked s s') ?_
        ⟨[], .nil, by simp, .nil⟩
  rintro before pair after - value state ⟨picked, hpicked, rfl, hconsumes⟩
  refine ensures_laterMatch.mono ?_ ?_
  · rintro _ s' ⟨found, hfound, rfl, h⟩
    refine ⟨picked ++ [found], ?_, by simp, hconsumes.snoc h⟩
    exact List.rel_append hpicked (.cons hfound .nil)
  · rintro error s' ⟨herror, h⟩
    exact ⟨herror, (hconsumes.1.mono (mem_of_picks hpicked)).trans h⟩

/-- The tracks that indices stand for. -/
def Selects (tracks indices selected : List ℕ) : Prop :=
  List.Forall₂ (fun index track => tracks[index]? = some track) indices selected

theorem mem_of_selects {tracks indices selected : List ℕ}
    (h : Selects tracks indices selected) : selected ⊆ tracks := by
  intro track htrack
  obtain ⟨index, -, hindex⟩ := exists_of_forall₂ h.flip htrack
  exact List.mem_of_getElem? hindex

/-- All indices select all tracks. -/
theorem perm_of_selects {tracks indices selected : List ℕ}
    (h : Selects tracks indices selected) (hindices : indices.Perm (List.range tracks.length)) :
    selected.Perm tracks := by
  have hselected : indices.map (tracks[·]?) = selected.map some :=
    (map_eq_map_of_forall₂ (fun index track hindex => hindex.symm) h).symm
  have htracks : (List.range tracks.length).map (tracks[·]?) = tracks.map some :=
    List.ext_getElem (by simp) fun index _ _ => by simp
  have hperm := hindices.map (tracks[·]?)
  rw [hselected, htracks] at hperm
  exact (List.map_perm_map_iff (Option.some_injective _)).1 hperm

/-- The first half of the pairs. -/
theorem selects_of_picks {tracks detections : List ℕ} {pairs picked : List (ℕ × ℕ)}
    (h : Picks tracks detections pairs picked) :
    Selects tracks (pairs.map Prod.fst) (picked.map Prod.fst) ∧
      Selects detections (pairs.map Prod.snd) (picked.map Prod.snd) := by
  rw [Selects, Selects, List.forall₂_map_left_iff, List.forall₂_map_right_iff,
    List.forall₂_map_left_iff, List.forall₂_map_right_iff]
  exact ⟨h.imp fun _ _ h => h.1, h.imp fun _ _ h => h.2⟩

/-- Different indices select different tracks. -/
theorem nodup_of_selects {tracks indices selected : List ℕ}
    (h : Selects tracks indices selected) (htracks : tracks.Nodup) (hindices : indices.Nodup) :
    selected.Nodup := by
  have hselected : indices.map (tracks[·]?) = selected.map some :=
    (map_eq_map_of_forall₂ (fun index track hindex => hindex.symm) h).symm
  have hinjective : (indices.map (tracks[·]?)).Nodup := by
    refine hindices.map_on fun index hmem index' _ heq => ?_
    obtain ⟨track, -, htrack⟩ := exists_of_forall₂ h hmem
    obtain ⟨hindex, hget⟩ := List.getElem?_eq_some_iff.1 htrack
    obtain ⟨hindex', hget'⟩ := List.getElem?_eq_some_iff.1 (heq.symm.trans htrack)
    exact (htracks.getElem_inj_iff).1 (hget.trans hget'.symm)
  rw [hselected] at hinjective
  exact hinjective.of_map _

/-- Different rows pick different tracks. -/
theorem nodup_of_picks {tracks detections : List ℕ} {pairs picked : List (ℕ × ℕ)}
    (h : Picks tracks detections pairs picked) (htracks : tracks.Nodup)
    (hrows : (pairs.map Prod.fst).Nodup) : (picked.map Prod.fst).Nodup :=
  nodup_of_selects (selects_of_picks h).1 htracks hrows

theorem ensures_firstMatch {frameId : ℕ} {pool high : List ℕ} {found : List ℕ × List ℕ}
    {pair : ℕ × ℕ} :
    Ensures (firstMatch math frameId pool high found pair) s
      (fun found' s' => ∃ picked : ℕ × ℕ, (pool[pair.1]? = some picked.1 ∧
        high[pair.2]? = some picked.2) ∧ found' =
          (if s.state picked.1 = .tracked then (found.1 ++ [picked.1], found.2)
            else (found.1, found.2 ++ [picked.1])) ∧ Consumes frameId picked.1 picked.2 s s')
      (FailsMatching pool s) := by
  rw [firstMatch, ensures_bind]
  refine ensures_pick.mono ?_ ?_
  · rintro ⟨track, detection⟩ s' ⟨hpicked, rfl⟩
    have hfails : ∀ error s'', error = .kalman ∧ Mutates [track] s' s'' →
        FailsMatching pool s' error s'' := by
      rintro error s'' ⟨rfl, h⟩
      exact ⟨.inr rfl, h.of_mem (List.mem_of_getElem? hpicked.1)⟩
    simp only [ensures_bind, ensures_get, ensures_ite, ensures_pure]
    constructor
    · intro htracked
      exact ensures_updateTrack.mono
        (fun _ s'' h => ⟨_, hpicked, by rw [if_pos htracked], h⟩) hfails
    · intro htracked
      exact ensures_reactivate.mono (fun _ s'' h => ⟨_, hpicked, by rw [if_neg htracked], h⟩) hfails
  · rintro error s' ⟨rfl, rfl⟩
    exact ⟨.inl rfl, .refl⟩

/-- The matches of the first association take their detections, and if they name each row
once the tracked ones are `activated` and the others `refound`. -/
theorem ensures_firstMatches {frameId : ℕ} {pool high : List ℕ} {pairs : List (ℕ × ℕ)} :
    Ensures (pairs.foldlM (firstMatch math frameId pool high) ([], [])) s
      (fun found s' => ∃ picked, Picks pool high pairs picked ∧ ConsumesAll frameId picked s s' ∧
        (pool.Nodup → (pairs.map Prod.fst).Nodup →
          found = ((picked.map Prod.fst).filter (s.state · = .tracked),
            (picked.map Prod.fst).filter (s.state · ≠ .tracked))))
      (FailsMatching pool s) := by
  refine ensures_foldlM (fun before found s' => ∃ picked, Picks pool high before picked ∧
    ConsumesAll frameId picked s s' ∧ (pool.Nodup → (before.map Prod.fst).Nodup →
      found = ((picked.map Prod.fst).filter (s.state · = .tracked),
        (picked.map Prod.fst).filter (s.state · ≠ .tracked)))) ?_
          ⟨[], .nil, .nil, fun _ _ => rfl⟩
  rintro before pair after - found state ⟨picked, hpicked, hconsumes, hfound⟩
  refine ensures_firstMatch.mono ?_ ?_
  · rintro _ s' ⟨last, hlast, rfl, h⟩
    have hall : Picks pool high (before ++ [pair]) (picked ++ [last]) :=
      List.rel_append hpicked (.cons hlast .nil)
    refine ⟨picked ++ [last], hall, hconsumes.snoc h, fun hpool hrows => ?_⟩
    have hnodup := nodup_of_picks hall hpool hrows
    rw [List.map_append, List.nodup_append] at hnodup hrows
    have hfresh : last.1 ∉ picked.map Prod.fst := fun hmem =>
      hnodup.2.2 _ hmem _ (by simp) rfl
    have hstate : state.state last.1 = s.state last.1 := by
      have hlife := congrFun hconsumes.2.1 last.1
      rw [matchedLives, if_neg hfresh] at hlife
      exact congrArg Life.state hlife
    rw [hfound hpool hrows.1, hstate, List.map_append, List.filter_append, List.filter_append]
    by_cases htracked : s.state last.1 = .tracked <;> simp [htracked]
  · rintro error s' ⟨herror, h⟩
    exact ⟨herror, (hconsumes.1.mono (mem_of_picks hpicked)).trans h⟩

/-! ## Loops over indices -/

/-- The failures of a loop over indices. -/
def FailsIndex (touched : List ℕ) (s : Tracker Box Filter Score) (error : TrackerError)
    (s' : Tracker Box Filter Score) : Prop :=
  error = .index ∧ Mutates touched s s'

theorem ensures_selected {tracks indices : List ℕ} :
    Ensures (indices.foldlM (fun selected index => do
        let track ← Effect.ofOption .index tracks[index]?
        pure (selected ++ [track])) [] : Action Box Filter Score (List ℕ)) s
      (fun selected s' => Selects tracks indices selected ∧ s' = s) (FailsIndex [] s) := by
  refine ensures_foldlM (fun before selected s' => Selects tracks before selected ∧ s' = s) ?_
    ⟨.nil, rfl⟩
  rintro before index after - selected state ⟨hselected, rfl⟩
  simp only [ensures_bind, ensures_ofOption, ensures_pure]
  exact ⟨fun track htrack => ⟨List.rel_append hselected (.cons htrack .nil), trivial⟩,
    fun _ => ⟨rfl, .refl⟩⟩

/-- The lives after some tracks got a state. -/
def markedLives (lives : ℕ → Life) (state : TrackState) (tracks : List ℕ) (track : ℕ) : Life :=
  if track ∈ tracks then (lives track).withState state else lives track

theorem markedLives_nil {lives : ℕ → Life} {state : TrackState} :
    markedLives lives state [] = lives := by
  funext track
  simp [markedLives]

theorem update_markedLives {lives : ℕ → Life} {state : TrackState} {track : ℕ} {tracks : List ℕ} :
    Function.update (markedLives lives state tracks) track
        ((markedLives lives state tracks track).withState state) =
      markedLives lives state (tracks ++ [track]) := by
  funext other
  by_cases h : other = track
  · subst h
    by_cases hmem : other ∈ tracks <;> simp [markedLives, hmem, Life.withState]
  · simp [markedLives, h]

/-- What a loop that gives tracks a state ensures. -/
def MarksAll (state : TrackState) (marked : List ℕ) (s s' : Tracker Box Filter Score) : Prop :=
  Mutates marked s s' ∧ s'.life = markedLives s.life state marked ∧ s'.consumed = s.consumed

theorem MarksAll.nil {state : TrackState} : MarksAll state [] s s :=
  ⟨.refl, markedLives_nil.symm, rfl⟩

theorem MarksAll.snoc {state : TrackState} {marked : List ℕ} {track : ℕ}
    {change : Track Box Filter Score → Track Box Filter Score}
    (hchange : ∀ value, (change value).life = value.life.withState state)
    (h : MarksAll state marked s s') :
    MarksAll state (marked ++ [track]) s (s'.setTrack track (change (s'.store track))) := by
  obtain ⟨hmutates, hlife, hconsumed⟩ := h
  refine ⟨(hmutates.mono (by simp)).trans (Mutates.of_mem (Mutates.setTrack
    (congrArg Life.trackId (hchange _)) (congrArg Life.startFrame (hchange _))) (by simp)), ?_,
      hconsumed⟩
  rw [life_setTrack, hchange, ← update_markedLives, ← hlife]
  rfl

theorem MarksAll.state_eq {state : TrackState} {marked : List ℕ} {track : ℕ}
    (h : MarksAll state marked s s') (htrack : track ∉ marked) :
    s'.state track = s.state track :=
  congrArg Track.state (h.1.untouched track htrack)

theorem ensures_loseTracks {tracks indices : List ℕ} :
    Ensures (indices.foldlM (loseTrack tracks) [] : Action Box Filter Score (List ℕ)) s
      (fun newlyLost s' => ∃ selected, Selects tracks indices selected ∧
        MarksAll .lost newlyLost s s' ∧ newlyLost ⊆ tracks ∧
          ((∀ track ∈ tracks, s.state track ≠ .lost) → selected.Nodup → newlyLost = selected))
      (FailsIndex tracks s) := by
  refine ensures_foldlM (fun before newlyLost s' => ∃ selected, Selects tracks before selected ∧
    MarksAll .lost newlyLost s s' ∧ newlyLost ⊆ tracks ∧
      ((∀ track ∈ tracks, s.state track ≠ .lost) → selected.Nodup → newlyLost = selected)) ?_
        ⟨[], .nil, .nil, List.nil_subset _, fun _ _ => rfl⟩
  rintro before index after - newlyLost state ⟨selected, hselected, hmarks, hsubset, heq⟩
  simp only [loseTrack, ensures_bind, ensures_ofOption, ensures_get, ensures_ite, mutate,
    ensures_modify, ensures_pure]
  refine ⟨fun track htrack => ?_, fun _ => ⟨rfl, hmarks.1.mono hsubset⟩⟩
  have hall : Selects tracks (before ++ [index]) (selected ++ [track]) :=
    List.rel_append hselected (.cons htrack .nil)
  have hmem := List.mem_of_getElem? htrack
  constructor
  · intro hstate
    refine ⟨selected ++ [track], hall, hmarks.snoc fun _ => rfl,
      List.append_subset.2 ⟨hsubset, by simpa⟩, fun hlost hnodup => ?_⟩
    rw [heq hlost (List.nodup_append.1 hnodup).1]
  · intro hstate
    refine ⟨selected ++ [track], hall, hmarks, hsubset, fun hlost hnodup => absurd ?_ hstate⟩
    have hnodup := List.nodup_append.1 hnodup
    rw [heq hlost hnodup.1] at hmarks
    rw [hmarks.state_eq fun h => hnodup.2.2 track h track (by simp) rfl]
    exact hlost track hmem

theorem ensures_removeTracks {tracks indices : List ℕ} :
    Ensures (indices.foldlM (removeTrack tracks) [] : Action Box Filter Score (List ℕ)) s
      (fun newlyRemoved s' => Selects tracks indices newlyRemoved ∧
        MarksAll .removed newlyRemoved s s')
      (FailsIndex tracks s) := by
  refine ensures_foldlM (fun before newlyRemoved s' => Selects tracks before newlyRemoved ∧
    MarksAll .removed newlyRemoved s s') ?_ ⟨.nil, .nil⟩
  rintro before index after - newlyRemoved state ⟨hselected, hmarks⟩
  simp only [removeTrack, ensures_bind, ensures_ofOption, mutate, ensures_modify, ensures_pure]
  exact ⟨fun track htrack => ⟨List.rel_append hselected (.cons htrack .nil),
    hmarks.snoc fun _ => rfl⟩, fun _ => ⟨rfl, hmarks.1.mono (mem_of_selects hselected)⟩⟩

/-- The expired tracks are those that were not updated for too long. -/
theorem ensures_expireTracks [LinearOrder Score] {options : TrackerOptions Score} {frameId : ℕ}
    {tracks newlyRemoved : List ℕ} :
    Ensures (tracks.foldlM (expireTrack options frameId) newlyRemoved :
        Action Box Filter Score (List ℕ)) s
      (fun newlyRemoved' s' => ∃ expired, newlyRemoved' = newlyRemoved ++ expired ∧
        expired = tracks.filter
          (fun track => options.maxTimeLost < frameId - (s.life track).frameId) ∧
          MarksAll .removed expired s s')
      fun _ _ => False := by
  refine ensures_foldlM (fun before newlyRemoved' s' => ∃ expired,
    newlyRemoved' = newlyRemoved ++ expired ∧
      expired = before.filter
        (fun track => options.maxTimeLost < frameId - (s.life track).frameId) ∧
          MarksAll .removed expired s s') ?_ ⟨[], by simp, rfl, .nil⟩
  rintro before track after - _ state ⟨expired, rfl, hexpired, hmarks⟩
  have hframe : (state.store track).frameId = (s.life track).frameId := by
    have hlife := congrArg Life.frameId (congrFun hmarks.2.1 track)
    rw [markedLives] at hlife
    split_ifs at hlife <;> exact hlife
  simp only [expireTrack, ensures_bind, ensures_get, ensures_ite, mutate, ensures_modify,
    ensures_pure, hframe]
  constructor
  · intro hlong
    exact ⟨expired ++ [track], by simp, by simp [hexpired, hlong], hmarks.snoc fun _ => rfl⟩
  · intro hshort
    exact ⟨expired, rfl, by simp [hexpired, hshort], hmarks⟩

/-! ## New tracks -/

/-- The lives after tracks started, with identifiers from `first` on. -/
def startedLives (lives : ℕ → Life) (first frameId : ℕ) (started : List ℕ) (track : ℕ) : Life :=
  if track ∈ started then Life.started (first + started.idxOf track) frameId else lives track

theorem startedLives_nil {lives : ℕ → Life} {first frameId : ℕ} :
    startedLives lives first frameId [] = lives := by
  funext track
  simp [startedLives]

theorem update_startedLives {lives : ℕ → Life} {first frameId track : ℕ} {started : List ℕ}
    (h : track ∉ started) :
    Function.update (startedLives lives first frameId started) track
        (Life.started (first + started.length) frameId) =
      startedLives lives first frameId (started ++ [track]) := by
  funext other
  by_cases hother : other = track
  · subst hother
    simp [startedLives, List.idxOf_append_of_notMem h]
  · by_cases hmem : other ∈ started
    · simp [startedLives, hother, hmem, List.idxOf_append_of_mem hmem]
    · simp [startedLives, hother, hmem]

/-- What the loop that starts tracks ensures. -/
structure Starts (frame : ℕ) (started : List ℕ) (s s' : Tracker Box Filter Score) : Prop where
  created : s'.created = s.created
  frameId : s'.frameId = s.frameId
  nextTrackId : s'.nextTrackId = s.nextTrackId + started.length
  trackedTracks : s'.trackedTracks = s.trackedTracks
  lostTracks : s'.lostTracks = s.lostTracks
  removedTracks : s'.removedTracks = s.removedTracks
  consumed : s'.consumed = s.consumed ++ started.map fun track => (track, track)
  life : started.Nodup → s'.life = startedLives s.life s.nextTrackId frame started
  contents : ∀ track, (s'.store track).contents = (s.store track).contents

theorem Starts.nil {frameId : ℕ} : Starts frameId [] s s :=
  ⟨rfl, rfl, rfl, rfl, rfl, rfl, by simp, fun _ => startedLives_nil.symm, fun _ => rfl⟩

/-- What `activate` and the count after it ensure. -/
theorem ensures_activate {frameId track : ℕ} {started : List ℕ} (h : Starts frameId started s s') :
    Ensures (do
        activate math frameId s'.nextTrackId track
        Effect.modify fun tracker => { tracker with nextTrackId := tracker.nextTrackId + 1 }) s'
      (fun _ s'' => Starts frameId (started ++ [track]) s s'') fun error _ => error = .kalman := by
  simp only [activate, ensures_bind, ensures_ofOption, ensures_get, mutate, ensures_modify]
  refine ⟨fun filter _ => ?_, fun _ => trivial⟩
  exact {
    created := h.created
    frameId := h.frameId
    nextTrackId := by
      rw [List.length_append, List.length_singleton, ← Nat.add_assoc, ← h.nextTrackId]
      rfl
    trackedTracks := h.trackedTracks
    lostTracks := h.lostTracks
    removedTracks := h.removedTracks
    consumed := by
      rw [List.map_append, ← List.append_assoc, ← h.consumed]
      rfl
    life := fun hnodup => by
      have hnodup := List.nodup_append.1 hnodup
      have hfresh : track ∉ started := fun hmem => hnodup.2.2 track hmem track (by simp) rfl
      rw [← update_startedLives hfresh, ← h.life hnodup.1, ← h.nextTrackId]
      funext other
      by_cases hother : other = track
      · subst hother
        simp [life, setTrack, Track.life, Life.started]
      · simp [life, setTrack, hother]
    contents := fun other => by
      refine Eq.trans ?_ (h.contents other)
      by_cases hother : other = track
      · subst hother
        simp [setTrack, Track.contents]
      · simp [setTrack, hother] }

/-- The tracks whose score reaches the threshold start. -/
theorem ensures_startTracks [LinearOrder Score] {options : TrackerOptions Score} {frameId : ℕ}
    {tracks indices activated : List ℕ} :
    Ensures (indices.foldlM (startTrack math options frameId tracks) activated) s
      (fun activated' s' => ∃ selected started, Selects tracks indices selected ∧
        started = selected.filter (fun track =>
          ¬(s.store track).score < options.newTrackThreshold) ∧
            activated' = activated ++ started ∧ Starts frameId started s s')
      fun error _ => error = .index ∨ error = .kalman := by
  refine ensures_foldlM (fun before activated' s' => ∃ selected started,
    Selects tracks before selected ∧
      started = selected.filter (fun track =>
        ¬(s.store track).score < options.newTrackThreshold) ∧
          activated' = activated ++ started ∧ Starts frameId started s s') ?_
        ⟨[], [], .nil, rfl, (List.append_nil _).symm, .nil⟩
  rintro before index after - _ state ⟨selected, started, hselected, hstarted, rfl, hstarts⟩
  simp only [startTrack, ensures_bind, ensures_ofOption, ensures_get, ensures_ite, ensures_pure]
  refine ⟨fun track htrack => ?_, fun _ => .inl trivial⟩
  have hscore : (state.store track).score = (s.store track).score :=
    congrArg (fun contents => contents.2.1) (hstarts.contents track)
  rw [hscore]
  refine ⟨fun hlow => ?_, fun hnot => ?_⟩
  · exact ⟨selected ++ [track], started, List.rel_append hselected (.cons htrack .nil),
      by simp [hstarted, hlow], rfl, hstarts⟩
  · have hactivate : Ensures (activate math frameId state.nextTrackId track >>= _) state _ _ :=
      ensures_activate hstarts
    rw [ensures_bind] at hactivate
    refine hactivate.mono (fun _ s' h => ?_) fun error s' h => .inr h
    exact h.mono (fun _ s'' h' => ⟨selected ++ [track], started ++ [track],
      List.rel_append hselected (.cons htrack .nil), by simp [hstarted, not_lt.1 hnot],
        by simp, h'⟩) fun error s'' h' => .inr h'

/-! ## The pool -/

section Join

variable {first second : List ℕ} {track : ℕ}

theorem join_eq (h : ((first ++ second).map s.trackId).Nodup) :
    s.join first second = first ++ second := by
  have hloop : ∀ (later earlier : List ℕ), ((earlier ++ later).map s.trackId).Nodup →
      later.foldl s.joinTrack earlier = earlier ++ later := by
    intro later
    induction later with
    | nil => simp
    | cons track later ih =>
      intro earlier hnodup
      have hfresh : s.trackId track ∉ earlier.map s.trackId := by
        rw [List.map_append, List.map_cons, List.nodup_append] at hnodup
        exact fun hmem => hnodup.2.2 _ hmem _ List.mem_cons_self rfl
      rw [List.foldl_cons, joinTrack, if_neg hfresh, ih _ (by simpa using hnodup),
        List.append_assoc]
      rfl
  exact hloop _ [] h

theorem mem_of_mem_join (h : track ∈ s.join first second) : track ∈ first ++ second := by
  have hloop : ∀ (later earlier : List ℕ), track ∈ later.foldl s.joinTrack earlier →
      track ∈ earlier ++ later := by
    intro later
    induction later with
    | nil => simp
    | cons other later ih =>
      intro earlier hmem
      have hrest := ih _ hmem
      rw [joinTrack] at hrest
      split_ifs at hrest
      · exact List.mem_append.2 ((List.mem_append.1 hrest).imp_right (List.mem_cons_of_mem _))
      · simpa using hrest
  exact hloop _ [] h

theorem subset_foldl_joinTrack (later : List ℕ) :
    ∀ earlier : List ℕ, earlier ⊆ later.foldl s.joinTrack earlier := by
  induction later with
  | nil => exact fun earlier => List.Subset.refl _
  | cons other later ih =>
    intro earlier
    refine List.Subset.trans ?_ (ih _)
    rw [joinTrack]
    split_ifs
    · exact List.Subset.refl _
    · exact List.subset_append_left _ _

/-- The identifier of every track stays. -/
theorem mem_map_trackId_join (h : track ∈ first ++ second) :
    s.trackId track ∈ (s.join first second).map s.trackId := by
  have hloop : ∀ (later earlier : List ℕ), track ∈ later →
      s.trackId track ∈ (later.foldl s.joinTrack earlier).map s.trackId := by
    intro later
    induction later with
    | nil => exact fun _ hmem => absurd hmem List.not_mem_nil
    | cons other later ih =>
      intro earlier hmem
      rcases List.mem_cons.1 hmem with rfl | hmem
      · have hjoined : s.trackId track ∈ (s.joinTrack earlier track).map s.trackId := by
          rw [joinTrack]
          split_ifs with hid
          · exact hid
          · simp
        exact List.map_subset _ (subset_foldl_joinTrack later _) hjoined
      · exact ih _ hmem
  exact hloop _ [] h

theorem nodup_map_trackId_join : ((s.join first second).map s.trackId).Nodup := by
  have hloop : ∀ (later earlier : List ℕ), (earlier.map s.trackId).Nodup →
      ((later.foldl s.joinTrack earlier).map s.trackId).Nodup := by
    intro later
    induction later with
    | nil => exact fun _ h => h
    | cons track later ih =>
      intro earlier h
      refine ih _ ?_
      rw [joinTrack]
      split_ifs with hmem
      · exact h
      · rw [List.map_append, List.nodup_append]
        exact ⟨h, List.nodup_singleton _, fun id hid other hother heq => hmem (by
          obtain rfl := List.mem_singleton.1 hother
          exact heq ▸ hid)⟩
  exact hloop _ [] List.nodup_nil

theorem join_congr (h : ∀ track ∈ first ++ second, s'.trackId track = s.trackId track) :
    s'.join first second = s.join first second := by
  have hloop : ∀ (later earlier : List ℕ), (∀ track ∈ earlier ++ later,
      s'.trackId track = s.trackId track) →
        later.foldl s'.joinTrack earlier = later.foldl s.joinTrack earlier := by
    intro later
    induction later with
    | nil => exact fun _ _ => rfl
    | cons track later ih =>
      intro earlier heq
      have hearlier : earlier.map s'.trackId = earlier.map s.trackId :=
        List.map_congr_left fun other hother => heq other (by simp [hother])
      have hstep : s'.joinTrack earlier track = s.joinTrack earlier track := by
        rw [joinTrack, joinTrack, heq track (by simp), hearlier]
      rw [List.foldl_cons, List.foldl_cons, hstep]
      refine ih _ fun other hother => heq other ?_
      rw [joinTrack] at hother
      split_ifs at hother
      · exact List.mem_append.2 ((List.mem_append.1 hother).imp_right (List.mem_cons_of_mem _))
      · simpa using hother
  exact hloop _ [] h

end Join

/-- The tracker after the pool was predicted. -/
def predictAll (math : TrackingMath Box Filter Score Cost) (pool : List ℕ)
    (s : Tracker Box Filter Score) : Tracker Box Filter Score :=
  pool.foldl (fun tracker track => tracker.setTrack track ((tracker.store track).predict math)) s

theorem mutates_predictAll {pool : List ℕ} :
    Mutates pool s (predictAll math pool s) ∧ (predictAll math pool s).life = s.life ∧
      (predictAll math pool s).consumed = s.consumed := by
  induction pool generalizing s with
  | nil => exact ⟨.refl, rfl, rfl⟩
  | cons track pool ih =>
    obtain ⟨hmutates, hlife, hconsumed⟩ :=
      ih (s := s.setTrack track ((s.store track).predict math))
    have hset : Mutates [track] s (s.setTrack track ((s.store track).predict math)) := by
      refine Mutates.setTrack ?_ ?_
      · rfl
      · rfl
    exact ⟨(hset.of_mem List.mem_cons_self).trans (hmutates.mono (List.subset_cons_self _ _)),
      hlife.trans (life_setTrack_self rfl), hconsumed⟩

theorem store_predictAll {pool : List ℕ} (hpool : pool.Nodup) (track : ℕ) :
    (predictAll math pool s).store track =
      if track ∈ pool then (s.store track).predict math else s.store track := by
  induction pool generalizing s with
  | nil => simp [predictAll]
  | cons other pool ih =>
    obtain ⟨hfresh, hpool⟩ := List.nodup_cons.1 hpool
    rw [predictAll, List.foldl_cons]
    refine (ih hpool).trans ?_
    by_cases h : track = other
    · subst h
      simp [hfresh, setTrack]
    · simp [h, setTrack]

/-! ## Detections -/

/-- The life of a track object that was not started. -/
def unborn : Life :=
  ⟨0, .new, false, 0, 0⟩

/-- The tracker after track objects were made. -/
def createAll (math : TrackingMath Box Filter Score Cost) (detections : List (Detection Box Score))
    (s : Tracker Box Filter Score) : Tracker Box Filter Score :=
  detections.foldl (fun tracker detection => tracker.create (Track.ofDetection math detection)) s

/-- `s'` has more track objects than `s`. -/
structure Extends (s s' : Tracker Box Filter Score) : Prop where
  created : s.created ≤ s'.created
  frameId : s'.frameId = s.frameId
  nextTrackId : s'.nextTrackId = s.nextTrackId
  trackedTracks : s'.trackedTracks = s.trackedTracks
  lostTracks : s'.lostTracks = s.lostTracks
  removedTracks : s'.removedTracks = s.removedTracks
  consumed : s'.consumed = s.consumed
  store : ∀ track < s.created, s'.store track = s.store track
  unborn : ∀ track, s.created ≤ track → track < s'.created → s'.life track = unborn

namespace Extends

theorem refl : Extends s s :=
  ⟨le_rfl, rfl, rfl, rfl, rfl, rfl, rfl, fun _ _ => rfl, fun _ h h' => absurd h' (not_lt.2 h)⟩

theorem trans (h : Extends s s') (h' : Extends s' s'') : Extends s s'' where
  created := h.created.trans h'.created
  frameId := h'.frameId.trans h.frameId
  nextTrackId := h'.nextTrackId.trans h.nextTrackId
  trackedTracks := h'.trackedTracks.trans h.trackedTracks
  lostTracks := h'.lostTracks.trans h.lostTracks
  removedTracks := h'.removedTracks.trans h.removedTracks
  consumed := h'.consumed.trans h.consumed
  store track htrack := (h'.store track (htrack.trans_le h.created)).trans (h.store track htrack)
  unborn track hlow hhigh := by
    rcases lt_or_ge track s'.created with hlt | hge
    · rw [life, h'.store track hlt]
      exact h.unborn track hlow hlt
    · exact h'.unborn track hge hhigh

theorem create (s : Tracker Box Filter Score) (detection : Detection Box Score) :
    Extends s (s.create (Track.ofDetection math detection)) where
  created := Nat.le_succ _
  frameId := rfl
  nextTrackId := rfl
  trackedTracks := rfl
  lostTracks := rfl
  removedTracks := rfl
  consumed := rfl
  store track htrack := by
    simp [Tracker.create, setTrack, htrack.ne]
  unborn track hlow hhigh := by
    obtain rfl : track = s.created := by
      have hhigh : track < s.created + 1 := hhigh
      omega
    simp [life, Tracker.create, setTrack]
    rfl

end Extends

theorem extends_createAll {detections : List (Detection Box Score)} :
    Extends s (createAll math detections s) ∧
      (createAll math detections s).created = s.created + detections.length := by
  induction detections generalizing s with
  | nil => exact ⟨.refl, rfl⟩
  | cons detection detections ih =>
    obtain ⟨hrest, hcreated⟩ := ih (s := s.create (Track.ofDetection math detection))
    refine ⟨(Extends.create s detection).trans hrest, hcreated.trans ?_⟩
    rw [List.length_cons]
    change s.created + 1 + _ = _
    omega

theorem ensures_newTracks {detections : List (Detection Box Score)} :
    Ensures (newTracks math detections) s
      (fun tracks s' => Extends s s' ∧ s'.created = s.created + detections.length ∧
        tracks = List.range' s.created detections.length)
      fun _ _ => False := by
  simp only [newTracks, ensures_bind, ensures_get, ensures_modify, ensures_pure]
  have hcreate : Extends s (createAll math detections s) ∧ _ := extends_createAll
  exact ⟨hcreate.1, hcreate.2, by rw [List.range'_eq_map_range]⟩

/-- What `begin` ensures, also when it fails. -/
structure Begins (s s' : Tracker Box Filter Score) : Prop where
  frameId : s'.frameId = s.frameId + 1
  consumed : s'.consumed = []
  created : s.created ≤ s'.created
  nextTrackId : s'.nextTrackId = s.nextTrackId
  trackedTracks : s'.trackedTracks = s.trackedTracks
  lostTracks : s'.lostTracks = s.lostTracks
  removedTracks : s'.removedTracks = s.removedTracks
  store : ∀ track < s.created, s'.store track = s.store track
  unborn : ∀ track, s.created ≤ track → track < s'.created → s'.life track = unborn

theorem Begins.of_extends
    (h : Extends { s with frameId := s.frameId + 1, consumed := [] } s') : Begins s s' where
  frameId := h.frameId
  consumed := h.consumed
  created := h.created
  nextTrackId := h.nextTrackId
  trackedTracks := h.trackedTracks
  lostTracks := h.lostTracks
  removedTracks := h.removedTracks
  store := h.store
  unborn := h.unborn

theorem ensures_begin [LinearOrder Score] {options : TrackerOptions Score}
    {detections : List (Detection Box Score)} :
    Ensures (begin math options detections) s
      (fun found s' => Begins s s' ∧ (found.1 ++ found.2).Nodup ∧
        ∀ track ∈ found.1 ++ found.2, s.created ≤ track ∧ track < s'.created)
      fun error s' => error = .detectionCount ∧ Begins s s' := by
  simp only [begin, ensures_bind, ensures_modify]
  refine ensures_newTracks.mono ?_ fun _ _ h => h.elim
  rintro high s₁ ⟨hextends₁, hcreated₁, rfl⟩
  refine ensures_newTracks.mono ?_ fun _ _ h => h.elim
  rintro low s₂ ⟨hextends₂, hcreated₂, rfl⟩
  have hbegins := Begins.of_extends (hextends₁.trans hextends₂)
  refine ensures_ite.2 ⟨fun _ => ⟨rfl, hbegins⟩, fun _ => ⟨hbegins, ?_, ?_⟩⟩
  · rw [hcreated₁]
    dsimp only
    rw [List.range'_append_1]
    exact List.nodup_range'
  · intro track htrack
    rw [hcreated₁] at htrack
    dsimp only at htrack
    rw [List.range'_append_1, List.mem_range'_1, ← Nat.add_assoc] at htrack
    rw [hcreated₂, hcreated₁]
    exact htrack

/-! ## Associations -/

section Associations

variable [LinearOrder Score] {options : TrackerOptions Score}
  {backend : AssignmentBackend Score Cost}

/-- The backend gave this answer to a matrix of this shape. -/
def Answers (backend : AssignmentBackend Score Cost) (association : Association)
    (rows columns : ℕ) (result : AssignmentResult) : Prop :=
  ∃ costs threshold, costs.rows = rows ∧ costs.columns = columns ∧
    backend association costs threshold = some result

/-- The association was refused or the backend raised. -/
def TrackerError.IsAssignment (association : Association) (error : TrackerError) : Prop :=
  error = .capacity association ∨ error = .backend association

omit [LinearOrder Score] in
theorem ensures_assign {association : Association} {costs : CostMatrix Cost} {threshold : Score} :
    Ensures (assign backend association costs threshold :
        Action Box Filter Score AssignmentResult) s
      (fun result s' => Answers backend association costs.rows costs.columns result ∧ s' = s)
      fun error s' => TrackerError.IsAssignment association error ∧ s' = s := by
  rw [assign, ensures_ite, ensures_throw, ensures_ofOption]
  exact ⟨fun _ => ⟨.inl rfl, rfl⟩, fun _ => ⟨fun result h => ⟨⟨costs, threshold, rfl, rfl, h⟩, rfl⟩,
    fun _ => ⟨.inr rfl, rfl⟩⟩⟩

theorem ensures_fusedCosts {tracks detections : List ℕ} {failed : TrackerError → _ → Prop} :
    Ensures (fusedCosts math options tracks detections) s
      (fun costs s' => costs.rows = tracks.length ∧ costs.columns = detections.length ∧ s' = s)
      failed := by
  simp only [fusedCosts, ensures_bind, ensures_get, ensures_pure]
  split_ifs
  · exact ⟨rfl, rfl, trivial⟩
  · exact ⟨rfl, rfl, trivial⟩

/-- What the first association ensures. -/
structure FirstAssociation (backend : AssignmentBackend Score Cost) (frame : ℕ)
    (pool high : List ℕ) (first : AssignmentResult) (activated refound : List ℕ)
    (picked : List (ℕ × ℕ)) (s s' : Tracker Box Filter Score) : Prop where
  answers : Answers backend .first pool.length high.length first
  picks : Picks pool high first.matchedPairs picked
  mutates : Mutates pool s s'
  life : s'.life = matchedLives s.life frame (picked.map Prod.fst)
  consumed : s'.consumed = s.consumed ++ picked
  found : pool.Nodup → (first.matchedPairs.map Prod.fst).Nodup →
    activated = (picked.map Prod.fst).filter (s.state · = .tracked) ∧
      refound = (picked.map Prod.fst).filter (s.state · ≠ .tracked)

theorem ensures_firstAssociation {frameId : ℕ} {confirmed high : List ℕ} :
    Ensures (firstAssociation math options backend frameId confirmed high) s
      (fun found s' => found.1 = s.join confirmed s.lostTracks ∧ ∃ picked,
        FirstAssociation backend frameId found.1 high found.2.1 found.2.2.1 found.2.2.2 picked s s')
      fun error s' => FailsMatching (s.join confirmed s.lostTracks) s error s' ∨
        TrackerError.IsAssignment .first error ∧
          s' = predictAll math (s.join confirmed s.lostTracks) s := by
  simp only [firstAssociation, ensures_bind, ensures_get, ensures_modify]
  generalize hpool : s.join confirmed s.lostTracks = pool
  have hpredict : Mutates pool s (predictAll math pool s) ∧ _ := mutates_predictAll
  obtain ⟨hmutates, hlife, hconsumed⟩ := hpredict
  change Ensures _ (predictAll math pool s) _ _
  refine ensures_fusedCosts.mono ?_ fun _ _ h => h
  rintro costs s₁ ⟨hrows, hcolumns, rfl⟩
  refine ensures_assign.mono ?_ fun error s' h => .inr h
  rintro first s₁ ⟨hanswers, rfl⟩
  rw [hrows, hcolumns] at hanswers
  refine ensures_firstMatches.mono ?_ ?_
  · rintro found s₂ ⟨picked, hpicked, hconsumes, hfound⟩
    refine ensures_pure.2 ⟨rfl, picked, hanswers, hpicked,
      hmutates.trans (hconsumes.1.mono (mem_of_picks hpicked)), ?_, ?_, fun hnodup hrows => ?_⟩
    · rw [hconsumes.2.1, hlife]
    · rw [hconsumes.2.2, hconsumed]
    · rw [hfound hnodup hrows]
      have hstate : (predictAll math pool s).state = s.state :=
        funext fun track => congrArg Life.state (congrFun hlife track)
      rw [hstate]
      exact ⟨rfl, rfl⟩
  · rintro error s₂ ⟨herror, h⟩
    exact .inl ⟨herror, hmutates.trans h⟩

/-- What the second association ensures. -/
structure SecondAssociation (backend : AssignmentBackend Score Cost) (frame : ℕ)
    (unmatched low newlyLost : List ℕ) (picked : List (ℕ × ℕ))
    (s s' : Tracker Box Filter Score) : Prop where
  remaining : ∃ result selected, Answers backend .second
      (unmatched.filter (s.state · = .tracked)).length low.length result ∧
    Picks (unmatched.filter (s.state · = .tracked)) low result.matchedPairs picked ∧
    Selects (unmatched.filter (s.state · = .tracked)) result.unmatchedRows selected ∧
    (selected.Nodup → newlyLost = selected)
  mutates : Mutates unmatched s s'
  life : s'.life = markedLives (matchedLives s.life frame (picked.map Prod.fst)) .lost newlyLost
  consumed : s'.consumed = s.consumed ++ picked

omit [LinearOrder Score] in
theorem state_matchedLives {frameId : ℕ} {tracks : List ℕ} {track : ℕ}
    (h : s'.life = matchedLives s.life frameId tracks) (hstate : s.state track = .tracked) :
    s'.state track = .tracked := by
  have hlife := congrArg Life.state (congrFun h track)
  rw [matchedLives] at hlife
  split_ifs at hlife
  · exact hlife
  · exact hlife.trans hstate

theorem ensures_secondAssociation {frameId : ℕ} {pool low activated : List ℕ}
    {first : AssignmentResult} :
    Ensures (secondAssociation math options backend frameId pool first low activated) s
      (fun found s' => ∃ unmatched picked, Selects pool first.unmatchedRows unmatched ∧
        found.1 = activated ++ picked.map Prod.fst ∧
          SecondAssociation backend frameId unmatched low found.2 picked s s')
      fun error s' => (error = .index ∨ error = .kalman ∨ TrackerError.IsAssignment .second error) ∧
        Mutates pool s s' := by
  rw [secondAssociation, ensures_bind]
  refine ensures_selected.mono ?_ ?_
  · rintro unmatched s₁ ⟨hunmatched, rfl⟩
    simp only [ensures_bind, ensures_get]
    generalize hremaining : unmatched.filter (fun track => s₁.state track = .tracked) = remaining
    have hsubset : remaining ⊆ pool := by
      rw [← hremaining]
      exact fun track htrack => mem_of_selects hunmatched (List.mem_of_mem_filter htrack)
    have hsubset' : remaining ⊆ unmatched := hremaining ▸ List.filter_subset_self ..
    refine ensures_assign.mono ?_ ?_
    · rintro result s₂ ⟨hanswers, rfl⟩
      refine ensures_laterMatches.mono ?_ ?_
      · rintro _ s₃ ⟨picked, hpicked, rfl, hconsumes⟩
        refine ensures_loseTracks.mono ?_ ?_
        · rintro newlyLost s₄ ⟨selected, hselected, hmarks, hlost, heq⟩
          refine ensures_pure.2 ⟨unmatched, picked, hunmatched, rfl, ?_, ?_, ?_, ?_⟩
          · rw [hremaining]
            refine ⟨result, selected, hanswers, hpicked, hselected, heq fun track htrack => ?_⟩
            rw [← hremaining] at htrack
            have hstate : s₂.state track = .tracked := by simpa using List.of_mem_filter htrack
            rw [state_matchedLives hconsumes.2.1 hstate]
            exact fun h => TrackState.noConfusion h
          · exact (hconsumes.1.mono (List.Subset.trans (mem_of_picks hpicked) hsubset')).trans
              (hmarks.1.mono (List.Subset.trans hlost hsubset'))
          · rw [hmarks.2.1, hconsumes.2.1]
          · rw [hmarks.2.2, hconsumes.2.2]
        · rintro error s₄ ⟨rfl, h⟩
          exact ⟨.inl rfl, (hconsumes.1.mono
            (List.Subset.trans (mem_of_picks hpicked) hsubset)).trans (h.mono hsubset)⟩
      · rintro error s₃ ⟨herror, h⟩
        exact ⟨herror.imp_right .inl, h.mono hsubset⟩
    · rintro error s₂ ⟨herror, rfl⟩
      exact ⟨.inr (.inr herror), .refl⟩
  · rintro error s₁ ⟨rfl, h⟩
    exact ⟨.inl rfl, h.mono (List.nil_subset _)⟩

/-- What the last association ensures. -/
structure LastAssociation (threshold : Score) (backend : AssignmentBackend Score Cost)
    (frame : ℕ) (unconfirmed remaining newlyRemoved started : List ℕ) (picked : List (ℕ × ℕ))
    (s s' : Tracker Box Filter Score) : Prop where
  remaining : ∃ result selected, Answers backend .unconfirmed unconfirmed.length
      remaining.length result ∧
    Picks unconfirmed remaining result.matchedPairs picked ∧
    Selects unconfirmed result.unmatchedRows newlyRemoved ∧
    Selects remaining result.unmatchedColumns selected ∧
    started = selected.filter fun track => ¬(s'.store track).score < threshold
  created : s'.created = s.created
  frameId : s'.frameId = s.frameId
  nextTrackId : s'.nextTrackId = s.nextTrackId + started.length
  trackedTracks : s'.trackedTracks = s.trackedTracks
  lostTracks : s'.lostTracks = s.lostTracks
  removedTracks : s'.removedTracks = s.removedTracks
  consumed : s'.consumed = s.consumed ++ picked ++ started.map fun track => (track, track)
  life : started.Nodup → s'.life = startedLives
    (markedLives (matchedLives s.life frame (picked.map Prod.fst)) .removed newlyRemoved)
      s.nextTrackId frame started
  contents : ∀ track ∉ unconfirmed, (s'.store track).contents = (s.store track).contents

theorem ensures_lastAssociation {frameId : ℕ} {unconfirmed high activated : List ℕ}
    {first : AssignmentResult} :
    Ensures (lastAssociation math options backend frameId unconfirmed high first activated) s
      (fun found s' => ∃ remaining started picked, Selects high first.unmatchedColumns remaining ∧
        found.1 = activated ++ picked.map Prod.fst ++ started ∧
          LastAssociation options.newTrackThreshold backend frameId unconfirmed remaining
            found.2 started picked s s')
      fun error s' => error = .index ∨ error = .kalman ∨
        TrackerError.IsAssignment .unconfirmed error ∧ s' = s := by
  rw [lastAssociation, ensures_bind]
  refine ensures_selected.mono ?_ fun error s' h => .inl h.1
  rintro remaining s₁ ⟨hremaining, rfl⟩
  rw [ensures_bind]
  refine ensures_fusedCosts.mono ?_ fun _ _ h => h
  rintro costs s₂ ⟨hrows, hcolumns, rfl⟩
  rw [ensures_bind]
  refine ensures_assign.mono ?_ fun error s' h => .inr (.inr h)
  rintro result s₃ ⟨hanswers, rfl⟩
  rw [hrows, hcolumns] at hanswers
  rw [ensures_bind]
  refine ensures_laterMatches.mono ?_ fun error s' h => h.1.imp_right .inl
  rintro _ s₄ ⟨picked, hpicked, rfl, hconsumes⟩
  rw [ensures_bind]
  refine ensures_removeTracks.mono ?_ fun error s' h => .inl h.1
  rintro newlyRemoved s₅ ⟨hremoved, hmarks⟩
  rw [ensures_bind]
  refine ensures_startTracks.mono ?_ fun error s' h => h.imp_right .inl
  rintro _ s₆ ⟨selected, started, hselected, hstarted, rfl, hstarts⟩
  refine ensures_pure.2 ⟨remaining, started, picked, hremaining, rfl, ?_⟩
  have hmutates := hconsumes.1
  have hmutates' := hmarks.1
  have hscore : ∀ track, (s₆.store track).score = (s₅.store track).score := fun track =>
    congrArg (fun contents => contents.2.1) (hstarts.contents track)
  exact {
    remaining := ⟨result, selected, hanswers, hpicked, hremoved, hselected,
      by simpa only [hscore] using hstarted⟩
    created := hstarts.created.trans (hmutates'.created.trans hmutates.created)
    frameId := hstarts.frameId.trans (hmutates'.frameId.trans hmutates.frameId)
    nextTrackId := by rw [hstarts.nextTrackId, hmutates'.nextTrackId, hmutates.nextTrackId]
    trackedTracks := hstarts.trackedTracks.trans
      (hmutates'.trackedTracks.trans hmutates.trackedTracks)
    lostTracks := hstarts.lostTracks.trans (hmutates'.lostTracks.trans hmutates.lostTracks)
    removedTracks := hstarts.removedTracks.trans
      (hmutates'.removedTracks.trans hmutates.removedTracks)
    consumed := by rw [hstarts.consumed, hmarks.2.2, hconsumes.2.2]
    life := fun hnodup => by
      rw [hstarts.life hnodup, hmarks.2.1, hconsumes.2.1, hmutates'.nextTrackId,
        hmutates.nextTrackId]
    contents := fun track htrack => by
      rw [hstarts.contents,
        hmutates'.untouched track fun hmem => htrack (mem_of_selects hremoved hmem),
        hmutates.untouched track fun hmem => htrack (mem_of_picks hpicked hmem)] }

end Associations

end Tracker

end Npunlock
