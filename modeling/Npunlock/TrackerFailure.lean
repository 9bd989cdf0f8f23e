import Npunlock.ByteTrackerSpec

/-!
# Failed updates

`update` has no way back : what it changed before it raises stays changed. `update_raised`
says what that is. The frame counter has always advanced, so the frame cannot be retried.
-/

namespace Npunlock

open Effect

variable {Box Filter Score Cost : Type}

namespace Tracker

variable {s s' : Tracker Box Filter Score} {math : TrackingMath Box Filter Score Cost}

/-- The tracks of the first association. -/
def firstPool (s : Tracker Box Filter Score) : List ℕ :=
  s.join (s.trackedTracks.filter fun track => (s.store track).isActivated) s.lostTracks

theorem nodup_firstPool : s.firstPool.Nodup :=
  nodup_map_trackId_join.of_map _

/-- What an update leaves behind that raises `error`. -/
structure LeavesBehind (math : TrackingMath Box Filter Score Cost)
    (s : Tracker Box Filter Score) (error : TrackerError) (s' : Tracker Box Filter Score) :
    Prop where
  frameId : s'.frameId = s.frameId + 1
  nextTrackId : s'.nextTrackId = s.nextTrackId
  trackedTracks : s'.trackedTracks = s.trackedTracks
  lostTracks : s'.lostTracks = s.lostTracks
  removedTracks : s'.removedTracks = s.removedTracks
  trackId : ∀ track < s.created, (s'.store track).trackId = (s.store track).trackId
  startFrame : ∀ track < s.created, (s'.store track).startFrame = (s.store track).startFrame
  unlisted : ∀ track < s.created, track ∉ s.firstPool → s'.store track = s.store track
  detectionCount : error = .detectionCount → ∀ track < s.created, s'.store track = s.store track
  first : TrackerError.IsAssignment .first error → ∀ track < s.created,
    s'.store track =
      if track ∈ s.firstPool then (s.store track).predict math else s.store track

section Phases

variable {s₁ : Tracker Box Filter Score} {error : TrackerError}

/-- An update that fails before it changed a track. -/
theorem Begins.leavesBehind (h : Begins s s') (herror : ¬TrackerError.IsAssignment .first error) :
    LeavesBehind math s error s' where
  frameId := h.frameId
  nextTrackId := h.nextTrackId
  trackedTracks := h.trackedTracks
  lostTracks := h.lostTracks
  removedTracks := h.removedTracks
  trackId track htrack := by rw [h.store track htrack]
  startFrame track htrack := by rw [h.store track htrack]
  unlisted track htrack _ := h.store track htrack
  detectionCount _ := h.store
  first hfirst := absurd hfirst herror

theorem Begins.firstPool_eq (h : Begins s s₁)
    (hlisted : ∀ track ∈ s.trackedTracks ++ s.lostTracks, track < s.created) :
    s₁.join (s₁.trackedTracks.filter fun track => (s₁.store track).isActivated) s₁.lostTracks =
      s.firstPool := by
  have hconfirmed : s.trackedTracks.filter (fun track => (s₁.store track).isActivated) =
      s.trackedTracks.filter fun track => (s.store track).isActivated :=
    List.filter_congr fun track htrack => by
      rw [h.store track (hlisted track (List.mem_append_left _ htrack))]
  rw [h.trackedTracks, h.lostTracks, hconfirmed]
  refine join_congr fun track htrack => congrArg Track.trackId (h.store track (hlisted track ?_))
  exact List.mem_append.2 ((List.mem_append.1 htrack).imp_left List.mem_of_mem_filter)

/-- An update that fails after it changed tracks of the pool. -/
theorem Begins.leavesBehind_of_mutates (h : Begins s s₁) (h' : Mutates s.firstPool s₁ s')
    (hcount : error ≠ .detectionCount)
    (hfirst : TrackerError.IsAssignment .first error → s' = predictAll math s.firstPool s₁) :
    LeavesBehind math s error s' where
  frameId := h'.frameId.trans h.frameId
  nextTrackId := h'.nextTrackId.trans h.nextTrackId
  trackedTracks := h'.trackedTracks.trans h.trackedTracks
  lostTracks := h'.lostTracks.trans h.lostTracks
  removedTracks := h'.removedTracks.trans h.removedTracks
  trackId track htrack := by rw [h'.trackId, h.store track htrack]
  startFrame track htrack := by rw [h'.startFrame, h.store track htrack]
  unlisted track htrack hpool := by rw [h'.untouched track hpool, h.store track htrack]
  detectionCount herror := absurd herror hcount
  first herror track htrack := by
    rw [hfirst herror, store_predictAll nodup_firstPool, h.store track htrack]

end Phases

section Update

variable [LinearOrder Score] {options : TrackerOptions Score}
  {backend : AssignmentBackend Score Cost} {detections : List (Detection Box Score)}

theorem ensures_update_failed
    (hlisted : ∀ track ∈ s.trackedTracks ++ s.lostTracks, track < s.created) :
    Ensures (update math options backend detections) s (fun _ _ => True)
      fun error s' => error = .index ∨ error = .kalman ∨ LeavesBehind math s error s' := by
  have hmatching : ∀ {touched : List ℕ} {s s' : Tracker Box Filter Score} {error : TrackerError}
      {failed : Prop}, FailsMatching touched s error s' →
        error = .index ∨ error = .kalman ∨ failed :=
    fun h => h.1.imp_right .inl
  rw [update, ensures_bind]
  refine ensures_begin.mono ?_ ?_
  · rintro ⟨high, low⟩ s₁ ⟨hbegins, -, -⟩
    have hpool := hbegins.firstPool_eq hlisted
    simp only [ensures_bind, ensures_get]
    refine ensures_firstAssociation.mono ?_ ?_
    · rintro ⟨pool, first, activated, refound⟩ s₂ ⟨rfl, picked, hfirst⟩
      have hmutates := hfirst.mutates
      dsimp only at hmutates ⊢
      rw [hpool] at hmutates ⊢
      refine ensures_secondAssociation.mono ?_ ?_
      · rintro ⟨activated', newlyLost⟩ s₃ ⟨unmatched, picked', hunmatched, rfl, hsecond⟩
        have hmutates' := hmutates.trans (hsecond.mutates.mono (mem_of_selects hunmatched))
        refine ensures_lastAssociation.mono ?_ ?_
        · rintro ⟨activated'', newlyRemoved⟩ s₄ -
          refine ensures_expireTracks.mono (fun _ s₅ _ => ?_) fun _ _ h => h.elim
          trivial
        · rintro error s' (rfl | rfl | ⟨herror, rfl⟩)
          · exact .inl rfl
          · exact .inr (.inl rfl)
          · refine .inr (.inr (hbegins.leavesBehind_of_mutates hmutates' ?_ ?_))
            · rintro rfl
              rcases herror with h | h <;> cases h
            · rintro (rfl | rfl) <;> rcases herror with h | h <;> cases h
      · rintro error s' ⟨rfl | rfl | herror, h⟩
        · exact .inl rfl
        · exact .inr (.inl rfl)
        · refine .inr (.inr (hbegins.leavesBehind_of_mutates (hmutates.trans h) ?_ ?_))
          · rintro rfl
            rcases herror with h | h <;> cases h
          · rintro (rfl | rfl) <;> rcases herror with h | h <;> cases h
    · rintro error s' (h | ⟨herror, rfl⟩)
      · exact hmatching h
      · rw [hpool]
        refine .inr (.inr (hbegins.leavesBehind_of_mutates mutates_predictAll.1 ?_ fun _ => rfl))
        rintro rfl
        rcases herror with h | h <;> cases h
  · rintro error s' ⟨rfl, h⟩
    refine .inr (.inr (h.leavesBehind ?_))
    rintro (h | h) <;> cases h

/-- For every tracker, every detections and every backend : what an update leaves behind that
raises for the number of detections, for an association that is too large or for the
backend. -/
theorem update_raised {error : TrackerError}
    (hlisted : ∀ track ∈ s.trackedTracks ++ s.lostTracks, track < s.created)
    (hrun : update math options backend detections s = (.error error, s'))
    (herror : error ≠ .index ∧ error ≠ .kalman) : LeavesBehind math s error s' := by
  rcases (ensures_update_failed hlisted).raised hrun with h | h | h
  · exact absurd h herror.1
  · exact absurd h herror.2
  · exact h

end Update

end Tracker

/-! ## A small tracker -/

/-- Boxes, filters, scores and costs are numbers, and only equal boxes overlap. -/
def pointMath : TrackingMath ℕ ℕ ℕ ℕ where
  xyxyToTlwh := id
  initiate := some
  rest := id
  predict := id
  correct _ box := some box
  tlwh := id
  iouDistance box other := if box = other then 0 else 100
  fuse cost _ := cost
  isDuplicate cost := cost < 15

/-- The default thresholds in hundredths. -/
def pointOptions (maxTimeLost : ℕ) : TrackerOptions ℕ where
  trackHighThreshold := 50
  trackLowThreshold := 10
  newTrackThreshold := 60
  firstMatchThreshold := 80
  secondMatchThreshold := 50
  unconfirmedMatchThreshold := 70
  maxTimeLost
  fuseScore := true
  low_lt_high := by decide

/-- A backend that matches nothing. -/
def idleBackend : AssignmentBackend ℕ ℕ :=
  fun _ costs _ => some ⟨[], List.range costs.rows, List.range costs.columns⟩

/-- A frame that is refused for its 17 detections and retried with one of them starts no
track that is reported, while a first call with this one does. -/
theorem retry_differs :
    let update := Tracker.update pointMath (pointOptions 30) idleBackend
    let refused := update (List.replicate 17 ⟨3, 90, 0⟩) Tracker.init
    refused.1 = .error .detectionCount ∧ refused.2.frameId = 1 ∧
      (update [⟨3, 90, 0⟩] refused.2).1 = .ok [] ∧
        (update [⟨3, 90, 0⟩] Tracker.init).1 = .ok [0] := by
  refine ⟨rfl, rfl, rfl, rfl⟩

/-- A backend that matches the first row to the first column, and only serves the first
association. -/
def firstBackend : AssignmentBackend ℕ ℕ
  | .first, costs, _ =>
    some ⟨[(0, 0)], (List.range costs.rows).tail, (List.range costs.columns).tail⟩
  | _, _, _ => none

/-- The tracker after a frame with two detections. -/
def twoTracked : Tracker ℕ ℕ ℕ :=
  (Tracker.update pointMath (pointOptions 30) idleBackend [⟨3, 90, 0⟩, ⟨5, 80, 1⟩]
    Tracker.init).2

/-- A frame sees the first track again and the second one with a low score. The backend serves
the first association and fails in the second one. -/
def seenAgain : Except TrackerError (List ℕ) × Tracker ℕ ℕ ℕ :=
  Tracker.update pointMath (pointOptions 30) firstBackend [⟨3, 90, 0⟩, ⟨5, 30, 1⟩] twoTracked

theorem update_raised_pointMath :
    twoTracked.trackedTracks = [0, 1] ∧ seenAgain.1 = .error (.backend .second) ∧
      seenAgain.2.trackedTracks = [0, 1] ∧ (seenAgain.2.store 0).frameId = 2 ∧
        (seenAgain.2.store 1).frameId = 1 ∧
          Tracker.LeavesBehind pointMath twoTracked (.backend .second) seenAgain.2 := by
  have herror : seenAgain.1 = .error (.backend .second) := by decide +kernel
  have hrun : Tracker.update pointMath (pointOptions 30) firstBackend
      [⟨3, 90, 0⟩, ⟨5, 30, 1⟩] twoTracked = (.error (.backend .second), seenAgain.2) :=
    Prod.ext herror rfl
  refine ⟨by decide +kernel, herror, by decide +kernel, by decide +kernel, by decide +kernel, ?_⟩
  exact Tracker.update_raised (by decide +kernel) hrun (by decide)

end Npunlock
