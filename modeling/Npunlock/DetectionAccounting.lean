import Npunlock.TrackerLifecycle

/-!
# Where the detections of a frame go

An update takes the detections of a frame apart by their scores (`highDetections`,
`lowDetections`), and each of them ends in one place (`Accounts`). A score that equals the
high threshold is in neither list, since both comparisons are strict.
-/

namespace Npunlock

open Effect

variable {Box Filter Score Cost : Type}

namespace Tracker

variable {s s' : Tracker Box Filter Score} {math : TrackingMath Box Filter Score Cost}

/-! ## The objects of the detections -/

/-- The track objects hold what the detections hold. -/
def Objects (math : TrackingMath Box Filter Score Cost) (detections : List (Detection Box Score))
    (tracks : List ℕ) (s : Tracker Box Filter Score) : Prop :=
  List.Forall₂ (fun detection track =>
    (s.store track).contents = (Track.ofDetection math detection).contents) detections tracks

theorem Objects.mono {detections : List (Detection Box Score)} {tracks : List ℕ}
    (h : Objects math detections tracks s)
    (heq : ∀ track ∈ tracks, (s'.store track).contents = (s.store track).contents) :
    Objects math detections tracks s' := by
  unfold Objects at h ⊢
  induction h with
  | nil => exact .nil
  | cons hhead _ ih =>
    refine .cons ((heq _ List.mem_cons_self).trans hhead) (ih fun track htrack => ?_)
    exact heq track (List.mem_cons_of_mem _ htrack)

theorem objects_createAll {detections : List (Detection Box Score)} :
    Objects math detections (List.range' s.created detections.length)
      (createAll math detections s) := by
  induction detections generalizing s with
  | nil => exact .nil
  | cons detection detections ih =>
    have hrest : Extends (s.create (Track.ofDetection math detection))
        (createAll math detections (s.create (Track.ofDetection math detection))) :=
      extends_createAll.1
    rw [List.length_cons, List.range'_succ]
    refine .cons ?_ ih
    have hkept := hrest.store s.created (Nat.lt_succ_self _)
    refine (congrArg Track.contents hkept).trans ?_
    simp [create, setTrack]

theorem ensures_newTracks_objects {detections : List (Detection Box Score)} :
    Ensures (newTracks math detections) s
      (fun tracks s' => Objects math detections tracks s') fun _ _ => False := by
  simp only [newTracks, ensures_bind, ensures_get, ensures_modify, ensures_pure]
  rw [← List.range'_eq_map_range]
  exact objects_createAll

section Scores

variable [LinearOrder Score] (options : TrackerOptions Score)

/-- The detections of the first and the last association. -/
def highDetections (detections : List (Detection Box Score)) : List (Detection Box Score) :=
  detections.filter fun detection => options.trackHighThreshold < detection.score

/-- The detections of the second association. -/
def lowDetections (detections : List (Detection Box Score)) : List (Detection Box Score) :=
  detections.filter fun detection =>
    options.trackLowThreshold < detection.score ∧ detection.score < options.trackHighThreshold

/-- The detections that an update looks at. -/
def effectiveDetections (detections : List (Detection Box Score)) : List (Detection Box Score) :=
  detections.filter fun detection => options.trackLowThreshold < detection.score ∧
    detection.score ≠ options.trackHighThreshold

variable {options} {detections : List (Detection Box Score)}

theorem highDetections_effective :
    highDetections options (effectiveDetections options detections) =
      highDetections options detections := by
  rw [highDetections, effectiveDetections, List.filter_filter]
  refine List.filter_congr fun detection _ => ?_
  have hlow := options.low_lt_high
  simp only [← Bool.decide_and, decide_eq_decide, and_iff_left_iff_imp]
  exact fun hhigh => ⟨hlow.trans hhigh, hhigh.ne'⟩

theorem lowDetections_effective :
    lowDetections options (effectiveDetections options detections) =
      lowDetections options detections := by
  rw [lowDetections, effectiveDetections, List.filter_filter]
  refine List.filter_congr fun detection _ => ?_
  simp only [← Bool.decide_and, decide_eq_decide, and_iff_left_iff_imp]
  exact fun h => ⟨h.1, h.2.ne⟩

theorem ensures_begin_objects :
    Ensures (begin math options detections) s
      (fun found s' => Objects math (highDetections options detections) found.1 s' ∧
        Objects math (lowDetections options detections) found.2 s') fun _ _ => True := by
  simp only [begin, ensures_bind, ensures_modify]
  refine (ensures_newTracks.and ensures_newTracks_objects).mono ?_ fun _ _ h => h.1.elim
  rintro high s₁ ⟨⟨hextends₁, hcreated₁, rfl⟩, hhigh⟩
  refine (ensures_newTracks.and ensures_newTracks_objects).mono ?_ fun _ _ h => h.1.elim
  rintro low s₂ ⟨⟨hextends₂, -, -⟩, hlow⟩
  refine ensures_ite.2 ⟨fun _ => trivial, fun _ => ⟨hhigh.mono fun track htrack => ?_, hlow⟩⟩
  have hlt := (List.mem_range'_1.1 htrack).2
  rw [hextends₂.store track (hcreated₁ ▸ hlt)]

end Scores

/-! ## The account of a frame -/

/-- Indices of a list select some of it. -/
theorem exists_selects {tracks : List ℕ} :
    ∀ {indices : List ℕ}, (∀ index ∈ indices, index < tracks.length) →
      ∃ selected, Selects tracks indices selected
  | [], _ => ⟨[], .nil⟩
  | index :: indices, h => by
    obtain ⟨selected, hselected⟩ :=
      exists_selects fun other hother => h other (List.mem_cons_of_mem _ hother)
    have hindex := h index List.mem_cons_self
    exact ⟨tracks[index] :: selected, .cons (List.getElem?_eq_getElem hindex) hselected⟩

/-- The track objects of the detections, the matches of the three rounds, and the detections
that start a track, that have a score too low for it, and that no round matches. -/
structure DetectionFates where
  high : List ℕ
  low : List ℕ
  first : List (ℕ × ℕ)
  second : List (ℕ × ℕ)
  last : List (ℕ × ℕ)
  started : List ℕ
  ignored : List ℕ
  unused : List ℕ

section Account

variable [LinearOrder Score]

/-- Every detection of a frame ends in one place. -/
structure Accounts (math : TrackingMath Box Filter Score Cost) (options : TrackerOptions Score)
    (backend : AssignmentBackend Score Cost) (detections : List (Detection Box Score))
    (fates : DetectionFates) (s s' : Tracker Box Filter Score) : Prop where
  high_objects : Objects math (highDetections options detections) fates.high s'
  low_objects : Objects math (lowDetections options detections) fates.low s'
  nodup : (fates.high ++ fates.low).Nodup
  fresh : ∀ track ∈ fates.high ++ fates.low, s.created ≤ track
  /-- The columns of the first round are the high detections. -/
  first_asked : ∃ tracks result, Answers backend .first tracks.length fates.high.length result ∧
    Picks tracks fates.high result.matchedPairs fates.first
  /-- The columns of the second round are the low detections. -/
  second_asked : ∃ tracks result, Answers backend .second tracks.length fates.low.length result ∧
    Picks tracks fates.low result.matchedPairs fates.second
  /-- The columns of the last round are the high detections that the first one leaves. -/
  last_asked : ∃ tracks remaining result,
    Answers backend .unconfirmed tracks.length remaining.length result ∧
      Picks tracks remaining result.matchedPairs fates.last ∧
      (fates.first.map Prod.snd ++ remaining).Perm fates.high
  consumed : s'.consumed = fates.first ++ fates.second ++ fates.last ++
    fates.started.map fun track => (track, track)
  high_once : (fates.first.map Prod.snd ++ (fates.last.map Prod.snd ++
    (fates.started ++ fates.ignored))).Perm fates.high
  low_once : (fates.second.map Prod.snd ++ fates.unused).Perm fates.low
  existing : ∀ pair ∈ fates.first ++ fates.second ++ fates.last, pair.1 ∈ s.listed
  tracked : ∀ pair ∈ fates.second, s.state pair.1 = .tracked
  started_score : ∀ track ∈ fates.started, options.newTrackThreshold ≤ (s'.store track).score
  started_life : ∀ track ∈ fates.started,
    s'.life track = Life.started (s.nextTrackId + fates.started.idxOf track) s'.frameId
  ignored_score : ∀ track ∈ fates.ignored, (s'.store track).score < options.newTrackThreshold

variable {options : TrackerOptions Score} {backend : AssignmentBackend Score Cost}
  {detections : List (Detection Box Score)}

theorem ensures_accounts (hlisted : ∀ track ∈ s.listed, track < s.created)
    (hbackend : PartialMatchings backend) :
    Ensures (update math options backend detections) s
      (fun _ s' => ∃ fates, Accounts math options backend detections fates s s')
      fun _ _ => True := by
  rw [update, ensures_bind]
  refine (ensures_begin.and ensures_begin_objects).mono ?_ fun _ _ _ => trivial
  rintro ⟨high, low⟩ s₁ ⟨⟨hbegins, hnodup, hfresh⟩, hhigh, hlow⟩
  simp only [ensures_bind, ensures_get]
  refine ensures_firstAssociation.mono ?_ fun _ _ _ => trivial
  rintro ⟨pool, first, activated, refound⟩ s₂ ⟨hpool, picked₁, hfirst⟩
  dsimp only at hpool hfirst ⊢
  refine ensures_secondAssociation.mono ?_ fun _ _ _ => trivial
  rintro ⟨_, newlyLost⟩ s₃ ⟨unmatched, picked₂, hunmatched, rfl, hsecond⟩
  refine ensures_lastAssociation.mono ?_ fun _ _ _ => trivial
  rintro ⟨_, newlyRemoved⟩ s₄ ⟨remaining, started, picked₃, hremaining, rfl, hlast⟩
  refine ensures_expireTracks.mono ?_ fun _ _ h => h.elim
  rintro _ s₅ ⟨expired, rfl, hexpired, hmarks⟩
  obtain ⟨result₂, selected₂, hanswers₂, hpicked₂, hselected₂, -⟩ := hsecond.remaining
  obtain ⟨result₃, selected₃, hanswers₃, hpicked₃, -, hselected₃, hstarted⟩ := hlast.remaining
  have hmatching := hfirst.answers.isPartialMatching hbackend
  have hmatching₂ := hanswers₂.isPartialMatching hbackend
  have hmatching₃ := hanswers₃.isPartialMatching hbackend
  -- the tracks of the rounds are in the lists
  have hpoolNodup : pool.Nodup := hpool ▸ List.Nodup.of_map _ nodup_map_trackId_join
  have htracked : ∀ track ∈ s₁.trackedTracks, track ∈ s.listed := fun track htrack =>
    List.mem_append_left _ (hbegins.trackedTracks ▸ htrack)
  have hlost : ∀ track ∈ s₁.lostTracks, track ∈ s.listed := fun track htrack =>
    List.mem_append_right _ (hbegins.lostTracks ▸ htrack)
  have hpoolListed : ∀ track ∈ pool, track ∈ s.listed := by
    intro track htrack
    rw [hpool] at htrack
    rcases List.mem_append.1 (mem_of_mem_join htrack) with hmem | hmem
    · exact htracked track (List.mem_of_mem_filter hmem)
    · exact hlost track hmem
  have hunmatchedPool : unmatched ⊆ pool := mem_of_selects hunmatched
  have hunconfirmed : ∀ track ∈ s₁.trackedTracks.filter fun track =>
      !(s₁.store track).isActivated, track ∈ s.listed :=
    fun track htrack => htracked track (List.mem_of_mem_filter htrack)
  -- the objects of the detections are not
  have hnew : ∀ track ∈ high ++ low, track ∉ s.listed := fun track htrack hmem =>
    absurd (hlisted track hmem) (not_lt.2 (hfresh track htrack).1)
  have hnotExpired : ∀ track ∈ high ++ low, track ∉ expired := by
    intro track htrack hmem
    rw [hexpired] at hmem
    exact hnew track htrack (hlost track (List.mem_of_mem_filter hmem))
  have hstore : ∀ track ∈ high ++ low, s₅.store track = s₄.store track := fun track htrack =>
    hmarks.1.untouched track (hnotExpired track htrack)
  have hcontents : ∀ track ∈ high ++ low,
      (s₅.store track).contents = (s₁.store track).contents := by
    intro track htrack
    rw [hstore track htrack,
      hlast.contents track fun hmem => hnew track htrack (hunconfirmed track hmem),
      hsecond.mutates.untouched track fun hmem =>
        hnew track htrack (hpoolListed track (hunmatchedPool hmem)),
      hfirst.mutates.untouched track fun hmem => hnew track htrack (hpoolListed track hmem)]
  -- the detections of the rounds
  have hhighPerm := perm_of_picks_columns hmatching hfirst.picks hremaining
  have hremainingPerm := perm_of_picks_columns hmatching₃ hpicked₃ hselected₃
  have hcolumns : ∀ column ∈ result₂.unmatchedColumns, column < low.length := fun column h =>
    List.mem_range.1 (hmatching₂.columns.subset (List.mem_append_right _ h))
  obtain ⟨unused, hunused⟩ := exists_selects hcolumns
  have hlowPerm := perm_of_picks_columns hmatching₂ hpicked₂ hunused
  have hsplit : (started ++ selected₃.filter fun track =>
      (s₄.store track).score < options.newTrackThreshold).Perm selected₃ := by
    have hperm := List.filter_append_perm
      (fun track => decide ¬(s₄.store track).score < options.newTrackThreshold) selected₃
    simp only [decide_not, Bool.not_not] at hperm hstarted
    rwa [← hstarted] at hperm
  have hhighOnce : (picked₁.map Prod.snd ++ (picked₃.map Prod.snd ++ (started ++
      selected₃.filter fun track => (s₄.store track).score < options.newTrackThreshold))).Perm
        high :=
    ((hsplit.append_left _).trans hremainingPerm |>.append_left _).trans hhighPerm
  have hstartedHigh : ∀ track ∈ selected₃, track ∈ high ++ low := fun track htrack =>
    List.mem_append_left _ (hhighPerm.subset (List.mem_append_right _
      (hremainingPerm.subset (List.mem_append_right _ htrack))))
  have hstartedSelected : ∀ track ∈ started, track ∈ selected₃ := fun track htrack =>
    List.mem_of_mem_filter (hstarted ▸ htrack)
  have hstartedNodup : started.Nodup := by
    have hall := hhighOnce.nodup_iff.2 (List.nodup_append.1 hnodup).1
    grind
  have hnextTrackId : s₃.nextTrackId = s.nextTrackId := by
    rw [hsecond.mutates.nextTrackId, hfirst.mutates.nextTrackId, hbegins.nextTrackId]
  have hframe : s₅.frameId = s₁.frameId := by
    rw [hmarks.1.frameId, hlast.frameId, hsecond.mutates.frameId, hfirst.mutates.frameId]
  refine ⟨⟨high, low, picked₁, picked₂, picked₃, started, selected₃.filter fun track =>
    (s₄.store track).score < options.newTrackThreshold, unused⟩, ?_⟩
  exact {
    high_objects := hhigh.mono fun track htrack => hcontents track (List.mem_append_left _ htrack)
    low_objects := hlow.mono fun track htrack => hcontents track (List.mem_append_right _ htrack)
    nodup := hnodup
    fresh := fun track htrack => (hfresh track htrack).1
    first_asked := ⟨pool, first, hfirst.answers, hfirst.picks⟩
    second_asked := ⟨_, result₂, hanswers₂, hpicked₂⟩
    last_asked := ⟨_, remaining, result₃, hanswers₃, hpicked₃, hhighPerm⟩
    consumed := by
      change s₅.consumed = _
      rw [hmarks.2.2, hlast.consumed, hsecond.consumed, hfirst.consumed, hbegins.consumed]
      simp
    high_once := hhighOnce
    low_once := hlowPerm
    existing := fun pair hpair => by
      simp only [List.mem_append] at hpair
      rcases hpair with (hpair | hpair) | hpair
      · exact hpoolListed _ (mem_of_picks hfirst.picks (List.mem_map_of_mem hpair))
      · have hmem := mem_of_picks hpicked₂ (List.mem_map_of_mem hpair)
        exact hpoolListed _ (hunmatchedPool (List.mem_of_mem_filter hmem))
      · exact hunconfirmed _ (mem_of_picks hpicked₃ (List.mem_map_of_mem hpair))
    tracked := fun pair hpair => by
      have hmem := mem_of_picks hpicked₂ (List.mem_map_of_mem hpair)
      have hrest := List.mem_of_mem_filter hmem
      have hstate : s₂.state pair.1 = .tracked := by simpa using List.of_mem_filter hmem
      have hlife := hfirst.life_of_unmatched hbackend hbegins hpoolNodup
        (fun track htrack => hlisted track (hpoolListed track htrack)) hunmatched _ hrest
      exact (congrArg Life.state hlife).symm.trans hstate
    started_score := fun track htrack => by
      have hscore := List.of_mem_filter (hstarted ▸ htrack)
      change _ ≤ (s₅.store track).score
      rw [hstore track (hstartedHigh track (hstartedSelected track htrack))]
      simpa using hscore
    started_life := fun track htrack => by
      change s₅.life track = Life.started _ s₅.frameId
      have hkept := hstore track (hstartedHigh track (hstartedSelected track htrack))
      rw [hframe, ← hnextTrackId]
      refine (congrArg Track.life hkept).trans ?_
      exact (congrFun (hlast.life hstartedNodup) track).trans (if_pos htrack)
    ignored_score := fun track htrack => by
      change (s₅.store track).score < _
      rw [hstore track (hstartedHigh track (List.mem_of_mem_filter htrack))]
      simpa using List.of_mem_filter htrack }

/-- The others have no effect. -/
theorem update_effective : update math options backend (effectiveDetections options detections) =
    update math options backend detections := by
  unfold update begin
  have hhigh : (effectiveDetections options detections).filter (fun detection =>
      options.trackHighThreshold < detection.score) = _ := highDetections_effective
  have hlow : (effectiveDetections options detections).filter (fun detection =>
      options.trackLowThreshold < detection.score ∧
        detection.score < options.trackHighThreshold) = _ := lowDetections_effective
  rw [hhigh, hlow]
  rfl

/-- Detection accounting, for every tracker, all thresholds and every successful update with a
backend that answers with partial matchings. A detection above the low threshold is a high or a
low detection, not both, unless its score is the high threshold, and each of these ends in one
place. The others have no effect. -/
theorem detection_accounting (hlisted : ∀ track ∈ s.listed, track < s.created)
    (hbackend : PartialMatchings backend) {reported : List ℕ}
    (hrun : update math options backend detections s = (.ok reported, s')) :
    (∃ fates, Accounts math options backend detections fates s s') ∧
      (∀ detection ∈ detections, options.trackLowThreshold < detection.score →
        detection.score ≠ options.trackHighThreshold →
          Xor (detection ∈ highDetections options detections)
            (detection ∈ lowDetections options detections)) ∧
      update math options backend (effectiveDetections options detections) s =
        (.ok reported, s') := by
  refine ⟨(ensures_accounts hlisted hbackend).returned hrun, fun detection hmem hlow hne => ?_,
    (congrFun update_effective s).trans hrun⟩
  simp only [highDetections, lowDetections, List.mem_filter, hmem, hlow, decide_eq_true_eq,
    true_and]
  rcases lt_or_gt_of_ne hne with hlt | hgt
  · exact .inr ⟨hlt, hlt.asymm⟩
  · exact .inl ⟨hgt, hgt.asymm⟩

end Account

end Tracker

/-! ## Small frames -/

/-- A frame with a low, a high and a boundary score, and one that is too low for a track. -/
def mixedFrame : List (Detection ℕ ℕ) :=
  [⟨3, 90, 0⟩, ⟨5, 20, 0⟩, ⟨7, 50, 0⟩, ⟨9, 55, 0⟩, ⟨11, 10, 0⟩]

theorem detection_accounting_mixedFrame :
    ∃ fates, Tracker.Accounts pointMath (pointOptions 30) idleBackend mixedFrame fates Tracker.init
      (idleUpdate 30 mixedFrame Tracker.init) := by
  have hrun : Tracker.update pointMath (pointOptions 30) idleBackend mixedFrame Tracker.init =
    (.ok [0], idleUpdate 30 mixedFrame Tracker.init) := rfl
  exact (Tracker.detection_accounting (by simp [Tracker.listed, Tracker.init])
    partialMatchings_idleBackend hrun).1

/-- A score that equals the high threshold. -/
def boundaryDetection : Detection ℕ ℕ :=
  ⟨7, 50, 0⟩

/-- It exceeds the low threshold, but takes part in no association : the update does not even
make a track object of it. -/
theorem boundary_score_in_neither :
    (pointOptions 30).trackLowThreshold < boundaryDetection.score ∧
      boundaryDetection ∉ Tracker.highDetections (pointOptions 30) [boundaryDetection] ∧
      boundaryDetection ∉ Tracker.lowDetections (pointOptions 30) [boundaryDetection] ∧
      (Tracker.update pointMath (pointOptions 30) idleBackend [boundaryDetection]
        Tracker.init).1 = .ok [] ∧
      (idleUpdate 30 [boundaryDetection] Tracker.init).created = 0 := by
  refine ⟨by decide, ?_, ?_, rfl, rfl⟩
  · simp [Tracker.highDetections, pointOptions, boundaryDetection]
  · simp [Tracker.lowDetections, pointOptions, boundaryDetection]

end Npunlock
