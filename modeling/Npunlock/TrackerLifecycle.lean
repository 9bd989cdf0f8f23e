import Mathlib.Logic.Relation
import Npunlock.TrackerFailure

/-!
# The lifecycle of tracks

What holds of a tracker after every run of successful updates (`tracker_lifecycle`), for all
detections and every backend that answers with partial matchings. A track is lost one frame
after its last update, so with a `max_time_lost` of 0 it is kept for one frame too.
-/

namespace Npunlock

open Effect

variable {Box Filter Score Cost : Type}

namespace Tracker

variable {s s' mid : Tracker Box Filter Score} {math : TrackingMath Box Filter Score Cost}

/-! ## Backends -/

/-- Each row is matched once or unmatched, and so is each column. -/
structure IsPartialMatching (rows columns : ℕ) (result : AssignmentResult) : Prop where
  rows : (result.matchedPairs.map Prod.fst ++ result.unmatchedRows).Perm (List.range rows)
  columns : (result.matchedPairs.map Prod.snd ++ result.unmatchedColumns).Perm
    (List.range columns)

/-- The backend answers with partial matchings. -/
def PartialMatchings (backend : AssignmentBackend Score Cost) : Prop :=
  ∀ association costs threshold result, backend association costs threshold = some result →
    IsPartialMatching costs.rows costs.columns result

theorem Answers.isPartialMatching {backend : AssignmentBackend Score Cost}
    {association : Association} {rows columns : ℕ} {result : AssignmentResult}
    (hbackend : PartialMatchings backend) (h : Answers backend association rows columns result) :
    IsPartialMatching rows columns result := by
  obtain ⟨costs, threshold, rfl, rfl, hresult⟩ := h
  exact hbackend _ _ _ _ hresult

/-- The picked and the selected tracks are all tracks. -/
theorem perm_of_picks {tracks detections selected : List ℕ} {result : AssignmentResult}
    {picked : List (ℕ × ℕ)} {columns : ℕ}
    (h : IsPartialMatching tracks.length columns result)
    (hpicked : Picks tracks detections result.matchedPairs picked)
    (hselected : Selects tracks result.unmatchedRows selected) :
    (picked.map Prod.fst ++ selected).Perm tracks :=
  perm_of_selects (List.rel_append (selects_of_picks hpicked).1 hselected) h.rows

theorem perm_of_picks_columns {tracks detections selected : List ℕ} {result : AssignmentResult}
    {picked : List (ℕ × ℕ)} {rows : ℕ}
    (h : IsPartialMatching rows detections.length result)
    (hpicked : Picks tracks detections result.matchedPairs picked)
    (hselected : Selects detections result.unmatchedColumns selected) :
    (picked.map Prod.snd ++ selected).Perm detections :=
  perm_of_selects (List.rel_append (selects_of_picks hpicked).2 hselected) h.columns

/-! ## The invariant -/

/-- The tracks of both lists. -/
def listed (s : Tracker Box Filter Score) : List ℕ :=
  s.trackedTracks ++ s.lostTracks

/-- What every update keeps. -/
structure Invariant (maxTimeLost : ℕ) (s : Tracker Box Filter Score) : Prop where
  created : ∀ track ∈ s.listed, track < s.created
  nodup : s.listed.Nodup
  tracked : ∀ track ∈ s.trackedTracks, (s.life track).state = .tracked
  lost : ∀ track ∈ s.lostTracks, (s.life track).state = .lost
  current : ∀ track ∈ s.trackedTracks, (s.life track).frameId = s.frameId
  recent : ∀ track ∈ s.lostTracks, s.frameId ≤ (s.life track).frameId + max 1 maxTimeLost
  positive : 0 < s.nextTrackId
  assigned : ∀ track < s.created, (s.life track).trackId < s.nextTrackId
  started : ∀ track ∈ s.listed, (s.life track).trackId ≠ 0
  unique : ∀ track < s.created, ∀ other < s.created, (s.life track).trackId ≠ 0 →
    (s.life track).trackId = (s.life other).trackId → track = other
  removed : ∀ track ∈ s.removedTracks, track < s.created ∧ track ∉ s.listed

theorem Invariant.nodup_trackId {maxTimeLost : ℕ} (h : s.Invariant maxTimeLost) :
    (s.listed.map s.trackId).Nodup :=
  h.nodup.map_on fun track htrack other hother heq =>
    h.unique track (h.created track htrack) other (h.created other hother)
      (h.started track htrack) heq

/-- The confirmed tracks. -/
def confirmed (s : Tracker Box Filter Score) : List ℕ :=
  s.trackedTracks.filter fun track => (s.store track).isActivated

def unconfirmed (s : Tracker Box Filter Score) : List ℕ :=
  s.trackedTracks.filter fun track => !(s.store track).isActivated

theorem perm_confirmed_unconfirmed (s : Tracker Box Filter Score) :
    (s.confirmed ++ s.unconfirmed).Perm s.trackedTracks :=
  List.filter_append_perm _ _

theorem Invariant.firstPool_eq {maxTimeLost : ℕ} (h : s.Invariant maxTimeLost) :
    s.firstPool = s.confirmed ++ s.lostTracks :=
  join_eq (h.nodup_trackId.sublist
    ((List.Sublist.append List.filter_sublist (List.Sublist.refl _)).map _))

theorem Begins.unconfirmed_eq {s₁ : Tracker Box Filter Score} (h : Begins s s₁)
    (hlisted : ∀ track ∈ s.trackedTracks, track < s.created) : s₁.unconfirmed = s.unconfirmed := by
  rw [unconfirmed, h.trackedTracks]
  exact List.filter_congr fun track htrack => by rw [h.store track (hlisted track htrack)]

/-! ## The associations -/

/-- The tracks and detections of an update : the matches of the three rounds, the tracks that
the first round leaves, and the lost, removed and started tracks. -/
structure Rounds where
  first : List (ℕ × ℕ)
  second : List (ℕ × ℕ)
  last : List (ℕ × ℕ)
  unmatched : List ℕ
  newlyLost : List ℕ
  removed : List ℕ
  started : List ℕ

namespace Rounds

variable (rounds : Rounds)

def tracks : List ℕ :=
  rounds.first.map Prod.fst ++ rounds.second.map Prod.fst ++ rounds.last.map Prod.fst

def detections : List ℕ :=
  rounds.first.map Prod.snd ++ rounds.second.map Prod.snd ++ rounds.last.map Prod.snd ++
    rounds.started

/-- The lives after the rounds. -/
def lives (s : Tracker Box Filter Score) (base : ℕ → Life) : ℕ → Life :=
  startedLives (markedLives (matchedLives (markedLives (matchedLives (matchedLives base
    (s.frameId + 1) (rounds.first.map Prod.fst)) (s.frameId + 1) (rounds.second.map Prod.fst))
      .lost rounds.newlyLost) (s.frameId + 1) (rounds.last.map Prod.fst)) .removed rounds.removed)
        s.nextTrackId (s.frameId + 1) rounds.started

/-- The rounds take each detection of the frame at most once. -/
theorem detections_spec {high low selected : List ℕ} (hnodup : (high ++ low).Nodup)
    (hhigh : (rounds.first.map Prod.snd ++ (rounds.last.map Prod.snd ++ selected)).Perm high)
    (hstarted : rounds.started.Sublist selected) (hlow : (rounds.second.map Prod.snd).Nodup)
    (hsubset : ∀ detection ∈ rounds.second.map Prod.snd, detection ∈ low) :
    rounds.detections.Nodup ∧ ∀ detection ∈ rounds.detections, detection ∈ high ++ low := by
  have hperm : rounds.detections.Perm (rounds.first.map Prod.snd ++
      (rounds.last.map Prod.snd ++ rounds.started) ++ rounds.second.map Prod.snd) := by
    have hcomm : (rounds.second.map Prod.snd ++ (rounds.last.map Prod.snd ++ rounds.started)).Perm
        (rounds.last.map Prod.snd ++ rounds.started ++ rounds.second.map Prod.snd) :=
      List.perm_append_comm
    simp only [detections, List.append_assoc] at hcomm ⊢
    exact hcomm.append_left _
  have hsublist := (hstarted.append_left (rounds.last.map Prod.snd)).append_left
    (rounds.first.map Prod.snd)
  have hsubsetHigh := fun detection h => hhigh.subset (hsublist.subset (a := detection) h)
  refine ⟨?_, fun detection h => List.mem_append.2
    ((List.mem_append.1 (hperm.subset h)).imp (hsubsetHigh _) (hsubset _))⟩
  rw [hperm.nodup_iff, List.nodup_append]
  refine ⟨(hhigh.nodup_iff.2 (List.nodup_append.1 hnodup).1).sublist hsublist, hlow, ?_⟩
  exact fun detection h other hother => (List.nodup_append.1 hnodup).2.2 detection
    (hsubsetHigh _ h) other (hsubset _ hother)

end Rounds

/-- What the tracker is like before its lists are made anew. -/
structure Associated (maxTimeLost : ℕ) (rounds : Rounds) (expired : List ℕ)
    (s mid : Tracker Box Filter Score) : Prop where
  frameId : mid.frameId = s.frameId + 1
  created : s.created ≤ mid.created
  nextTrackId : mid.nextTrackId = s.nextTrackId + rounds.started.length
  trackedTracks : mid.trackedTracks = s.trackedTracks
  lostTracks : mid.lostTracks = s.lostTracks
  removedTracks : mid.removedTracks = s.removedTracks
  consumed : mid.consumed = rounds.first ++ rounds.second ++ rounds.last ++
    rounds.started.map fun track => (track, track)
  first : (rounds.first.map Prod.fst ++ rounds.unmatched).Perm (s.confirmed ++ s.lostTracks)
  second : (rounds.second.map Prod.fst ++ rounds.newlyLost).Perm
    (rounds.unmatched.filter fun track => (s.life track).state = .tracked)
  last : (rounds.last.map Prod.fst ++ rounds.removed).Perm s.unconfirmed
  detections : rounds.detections.Nodup
  fresh : ∀ detection ∈ rounds.detections, s.created ≤ detection ∧ detection < mid.created
  lives : ∃ base : ℕ → Life, (∀ track < s.created, base track = s.life track) ∧
    (∀ track, s.created ≤ track → track < mid.created → base track = unborn) ∧
      expired = s.lostTracks.filter (fun track =>
        maxTimeLost < s.frameId + 1 - (rounds.lives s base track).frameId) ∧
        mid.life = markedLives (rounds.lives s base) .removed expired

/-! ## What became of each track -/

namespace Rounds

variable (rounds : Rounds)

/-- The lost tracks without a match. -/
def waiting (s : Tracker Box Filter Score) : List ℕ :=
  rounds.unmatched.filter fun track => (s.life track).state ≠ .tracked

end Rounds

section Fates

variable {maxTimeLost : ℕ} {rounds : Rounds} {expired : List ℕ} {track : ℕ}

/-- Every listed track has one fate. -/
theorem Associated.perm (h : Associated maxTimeLost rounds expired s mid) :
    (rounds.first.map Prod.fst ++ (rounds.second.map Prod.fst ++ rounds.newlyLost) ++
      rounds.waiting s ++ (rounds.last.map Prod.fst ++ rounds.removed)).Perm s.listed := by
  have hunmatched : (rounds.second.map Prod.fst ++ rounds.newlyLost ++ rounds.waiting s).Perm
      rounds.unmatched := by
    refine (h.second.append_right _).trans ?_
    have hsplit := List.filter_append_perm (fun track => decide ((s.life track).state = .tracked))
      rounds.unmatched
    simpa [Rounds.waiting] using hsplit
  have hfirst : (rounds.first.map Prod.fst ++ (rounds.second.map Prod.fst ++ rounds.newlyLost) ++
      rounds.waiting s).Perm (s.confirmed ++ s.lostTracks) := by
    rw [List.append_assoc]
    exact (hunmatched.append_left _).trans h.first
  refine (hfirst.append h.last).trans ?_
  rw [List.append_assoc]
  refine (List.perm_append_comm.append_left _).trans ?_
  rw [← List.append_assoc]
  exact (perm_confirmed_unconfirmed s).append_right _

section Lives

variable {base : ℕ → Life} (h : Associated maxTimeLost rounds expired s mid)
  (hs : s.Invariant maxTimeLost) (hbase : ∀ track < s.created, base track = s.life track)
include h hs hbase

/-- The lives of the listed tracks after the rounds. -/
theorem lives_of_listed (hmem : track ∈ s.listed) :
    (track ∈ rounds.tracks →
      rounds.lives s base track = (s.life track).matched (s.frameId + 1)) ∧
    (track ∈ rounds.newlyLost → rounds.lives s base track = (s.life track).withState .lost) ∧
    (track ∈ rounds.removed → rounds.lives s base track = (s.life track).withState .removed) ∧
    (track ∈ rounds.waiting s → rounds.lives s base track = s.life track) := by
  have hnodup := h.perm.nodup_iff.2 hs.nodup
  have hcreated := hs.created track hmem
  have hstarted : track ∉ rounds.started := fun hstarted =>
    absurd (h.fresh track (List.mem_append_right _ hstarted)).1 (not_le.2 hcreated)
  simp only [List.nodup_append, List.mem_append] at hnodup
  simp only [Rounds.tracks, List.mem_append, Rounds.lives, startedLives, markedLives,
    matchedLives, hstarted, hbase track hcreated]
  grind

omit hs in
theorem lives_of_not_mem_listed (hcreated : track < s.created) (htrack : track ∉ s.listed) :
    rounds.lives s base track = s.life track := by
  have hmem : track ∉ _ := fun hmem => htrack (h.perm.subset hmem)
  have hstarted : track ∉ rounds.started := fun hstarted =>
    absurd (h.fresh track (List.mem_append_right _ hstarted)).1 (not_le.2 hcreated)
  simp only [List.mem_append, not_or] at hmem
  simp only [Rounds.lives, startedLives, markedLives, matchedLives, hstarted, hbase track hcreated]
  simp [hmem]

end Lives

section Fate

variable (h : Associated maxTimeLost rounds expired s mid) (hs : s.Invariant maxTimeLost)
include h

/-- Every listed track was matched, lost, removed or waits. -/
theorem Associated.mem_listed_iff : track ∈ s.listed ↔
    track ∈ rounds.tracks ∨ track ∈ rounds.newlyLost ∨ track ∈ rounds.removed ∨
      track ∈ rounds.waiting s := by
  rw [← h.perm.mem_iff]
  simp only [Rounds.tracks, List.mem_append]
  tauto

include hs

/-- A lost track is matched in the first round or waits. -/
theorem Associated.mem_of_lost (htrack : track ∈ s.lostTracks) :
    track ∈ rounds.first.map Prod.fst ∨ track ∈ rounds.waiting s := by
  have hlost := hs.lost track htrack
  have hmem := h.first.symm.subset (List.mem_append_right _ htrack)
  refine (List.mem_append.1 hmem).imp_right fun hunmatched => List.mem_filter.2 ⟨hunmatched, ?_⟩
  simp [hlost]

theorem Associated.lost_of_waiting (htrack : track ∈ rounds.waiting s) :
    track ∈ s.lostTracks := by
  obtain ⟨hunmatched, hstate⟩ := List.mem_filter.1 htrack
  rcases List.mem_append.1 (h.first.subset (List.mem_append_right _ hunmatched)) with hmem | hmem
  · have htracked := hs.tracked track (List.mem_of_mem_filter hmem)
    simp [htracked] at hstate
  · exact hmem

/-- The expired tracks wait. -/
theorem Associated.mem_expired_iff : track ∈ expired ↔
    track ∈ rounds.waiting s ∧ maxTimeLost < s.frameId + 1 - (s.life track).frameId := by
  obtain ⟨base, hbase, -, hexpired, -⟩ := h.lives
  rw [hexpired, List.mem_filter, decide_eq_true_eq]
  constructor
  · rintro ⟨hlost, hlong⟩
    rcases h.mem_of_lost hs hlost with hfirst | hwaiting
    · have hlisted := List.mem_append_right s.trackedTracks hlost
      rw [(lives_of_listed h hs hbase hlisted).1 (by
        simp [Rounds.tracks, List.mem_map.1 hfirst])] at hlong
      simp [Life.matched] at hlong
    · have hlisted := List.mem_append_right s.trackedTracks hlost
      rw [(lives_of_listed h hs hbase hlisted).2.2.2 hwaiting] at hlong
      exact ⟨hwaiting, hlong⟩
  · rintro ⟨hwaiting, hlong⟩
    refine ⟨h.lost_of_waiting hs hwaiting, ?_⟩
    rwa [(lives_of_listed h hs hbase (h.mem_listed_iff.2 (by simp [hwaiting]))).2.2.2 hwaiting]

theorem Associated.not_mem_waiting (htrack : track ∈ rounds.tracks ++ rounds.newlyLost ++
    rounds.removed) : track ∉ rounds.waiting s := by
  have hnodup := h.perm.nodup_iff.2 hs.nodup
  simp only [List.nodup_append, List.mem_append] at hnodup
  simp only [Rounds.tracks, List.mem_append] at htrack
  grind

theorem Associated.life_of_matched (htrack : track ∈ rounds.tracks) :
    mid.life track = (s.life track).matched (s.frameId + 1) := by
  obtain ⟨base, hbase, -, -, hlife⟩ := h.lives
  have hexpired : track ∉ expired := fun hmem =>
    h.not_mem_waiting hs (by simp [htrack]) ((h.mem_expired_iff hs).1 hmem).1
  rw [hlife, markedLives, if_neg hexpired, (lives_of_listed h hs hbase
    (h.mem_listed_iff.2 (.inl htrack))).1 htrack]

theorem Associated.life_of_newlyLost (htrack : track ∈ rounds.newlyLost) :
    mid.life track = (s.life track).withState .lost := by
  obtain ⟨base, hbase, -, -, hlife⟩ := h.lives
  have hexpired : track ∉ expired := fun hmem =>
    h.not_mem_waiting hs (by simp [htrack]) ((h.mem_expired_iff hs).1 hmem).1
  rw [hlife, markedLives, if_neg hexpired, (lives_of_listed h hs hbase
    (h.mem_listed_iff.2 (by simp [htrack]))).2.1 htrack]

theorem Associated.life_of_removed (htrack : track ∈ rounds.removed ++ expired) :
    mid.life track = (s.life track).withState .removed := by
  obtain ⟨base, hbase, -, -, hlife⟩ := h.lives
  rw [hlife, markedLives]
  rcases List.mem_append.1 htrack with hremoved | hexpired
  · have hnot : track ∉ expired := fun hmem =>
      h.not_mem_waiting hs (by simp [hremoved]) ((h.mem_expired_iff hs).1 hmem).1
    rw [if_neg hnot, (lives_of_listed h hs hbase (h.mem_listed_iff.2 (by simp [hremoved]))).2.2.1
      hremoved]
  · have hwaiting := ((h.mem_expired_iff hs).1 hexpired).1
    rw [if_pos hexpired, (lives_of_listed h hs hbase
      (h.mem_listed_iff.2 (by simp [hwaiting]))).2.2.2 hwaiting]

theorem Associated.life_of_waiting (htrack : track ∈ rounds.waiting s)
    (hexpired : track ∉ expired) : mid.life track = s.life track := by
  obtain ⟨base, hbase, -, -, hlife⟩ := h.lives
  rw [hlife, markedLives, if_neg hexpired, (lives_of_listed h hs hbase
    (h.mem_listed_iff.2 (by simp [htrack]))).2.2.2 htrack]

theorem Associated.life_of_not_mem_listed (hcreated : track < s.created)
    (htrack : track ∉ s.listed) : mid.life track = s.life track := by
  obtain ⟨base, hbase, -, -, hlife⟩ := h.lives
  have hexpired : track ∉ expired := fun hmem => htrack (List.mem_append_right _
    (h.lost_of_waiting hs ((h.mem_expired_iff hs).1 hmem).1))
  rw [hlife, markedLives, if_neg hexpired, lives_of_not_mem_listed h hbase hcreated htrack]

/-- A new track object has started or has no identifier. -/
theorem Associated.life_of_new (hold : s.created ≤ track) (hnew : track < mid.created) :
    mid.life track = if track ∈ rounds.started then
      Life.started (s.nextTrackId + rounds.started.idxOf track) (s.frameId + 1) else unborn := by
  obtain ⟨base, -, hunborn, -, hlife⟩ := h.lives
  have hlisted : track ∉ s.listed := fun hmem => absurd (hs.created track hmem) (not_lt.2 hold)
  have hexpired : track ∉ expired := fun hmem => hlisted (List.mem_append_right _
    (h.lost_of_waiting hs ((h.mem_expired_iff hs).1 hmem).1))
  have hmem : track ∉ _ := fun hmem => hlisted (h.perm.subset hmem)
  simp only [List.mem_append, not_or] at hmem
  rw [hlife, markedLives, if_neg hexpired, Rounds.lives, startedLives]
  simp only [markedLives, matchedLives, hunborn track hold hnew]
  simp [hmem]

/-- Identifiers stay. -/
theorem Associated.trackId_eq (hcreated : track < s.created) :
    (mid.life track).trackId = (s.life track).trackId := by
  by_cases hlisted : track ∈ s.listed
  · rcases h.mem_listed_iff.1 hlisted with hmem | hmem | hmem | hmem
    · rw [h.life_of_matched hs hmem]
      rfl
    · rw [h.life_of_newlyLost hs hmem]
      rfl
    · rw [h.life_of_removed hs (List.mem_append_left _ hmem)]
      rfl
    · by_cases hexpired : track ∈ expired
      · rw [h.life_of_removed hs (List.mem_append_right _ hexpired)]
        rfl
      · rw [h.life_of_waiting hs hmem hexpired]
  · rw [h.life_of_not_mem_listed hs hcreated hlisted]

end Fate
/-! ## The new lists -/

/-- The lists before duplicates are dropped. -/
def joined (s mid : Tracker Box Filter Score) (rounds : Rounds) : List ℕ :=
  mid.join (mid.join (mid.trackedTracks.filter fun track => mid.state track = .tracked)
    (((rounds.first.map Prod.fst).filter fun track => (s.life track).state = .tracked) ++
      rounds.second.map Prod.fst ++ rounds.last.map Prod.fst ++ rounds.started))
    ((rounds.first.map Prod.fst).filter fun track => (s.life track).state ≠ .tracked)

def remaining (s mid : Tracker Box Filter Score) (rounds : Rounds) (expired : List ℕ) : List ℕ :=
  mid.subtract (mid.subtract mid.lostTracks (joined s mid rounds) ++ rounds.newlyLost)
    (rounds.removed ++ expired)

section Lists

variable (h : Associated maxTimeLost rounds expired s mid) (hs : s.Invariant maxTimeLost)
include h hs

/-- The tracks of the new list were matched or started. -/
theorem Associated.mem_of_joined (htrack : track ∈ joined s mid rounds) :
    track ∈ rounds.tracks ∨ track ∈ rounds.started := by
  have hmem := mem_of_mem_join htrack
  rw [List.mem_append] at hmem
  rcases hmem with hmem | hmem
  · rcases List.mem_append.1 (mem_of_mem_join hmem) with hmem | hmem
    · obtain ⟨htracked, hstate⟩ := List.mem_filter.1 hmem
      rw [h.trackedTracks] at htracked
      have hstate : (mid.life track).state = .tracked := of_decide_eq_true hstate
      rcases h.mem_listed_iff.1 (List.mem_append_left _ htracked) with hfate | hfate | hfate | hfate
      · exact .inl hfate
      · rw [h.life_of_newlyLost hs hfate] at hstate
        cases hstate
      · rw [h.life_of_removed hs (List.mem_append_left _ hfate)] at hstate
        cases hstate
      · exact absurd rfl ((List.nodup_append.1 hs.nodup).2.2 _ htracked _
          (h.lost_of_waiting hs hfate))
    · simp only [List.mem_append, List.mem_filter] at hmem
      simp only [Rounds.tracks, List.mem_append]
      tauto
  · simp only [Rounds.tracks, List.mem_append]
    exact .inl (.inl (.inl (List.mem_of_mem_filter hmem)))

/-- The tracks of the other new list were lost now or wait. -/
theorem Associated.mem_of_remaining (htrack : track ∈ remaining s mid rounds expired) :
    track ∈ rounds.newlyLost ∨ track ∈ rounds.waiting s ∧ track ∉ expired := by
  obtain ⟨hmem, hid⟩ := List.mem_filter.1 htrack
  have hid : mid.trackId track ∉ (rounds.removed ++ expired).map mid.trackId := by simpa using hid
  rcases List.mem_append.1 hmem with hmem | hmem
  · obtain ⟨hlost, hjoined⟩ := List.mem_filter.1 hmem
    rw [h.lostTracks] at hlost
    have hjoined : mid.trackId track ∉ (joined s mid rounds).map mid.trackId := by
      simpa using hjoined
    refine .inr ⟨(h.mem_of_lost hs hlost).resolve_left fun hfirst => hjoined ?_, fun hexpired =>
      hid (List.mem_map_of_mem (List.mem_append_right _ hexpired))⟩
    refine mem_map_trackId_join (List.mem_append_right _ (List.mem_filter.2 ⟨hfirst, ?_⟩))
    simp [hs.lost track hlost]
  · exact .inl hmem

theorem Associated.nodup_remaining : (remaining s mid rounds expired).Nodup := by
  refine List.Nodup.filter _ (List.nodup_append.2 ⟨?_, ?_, ?_⟩)
  · rw [h.lostTracks]
    exact (List.nodup_append.1 hs.nodup).2.1.filter _
  · have hnodup := h.perm.nodup_iff.2 hs.nodup
    simp only [List.nodup_append] at hnodup
    exact hnodup.1.1.2.1.2.1
  · rintro track htrack other hother rfl
    have hlost := List.mem_of_mem_filter htrack
    rw [h.lostTracks] at hlost
    have htracked := List.of_mem_filter (h.second.subset (List.mem_append_right _ hother))
    simp [hs.lost track hlost] at htracked

/-- No track is in both lists. -/
theorem Associated.nodup_lists :
    (joined s mid rounds ++ remaining s mid rounds expired).Nodup := by
  refine List.nodup_append.2 ⟨nodup_map_trackId_join.of_map _, h.nodup_remaining hs, ?_⟩
  rintro track hjoined other hremaining rfl
  have hnodup := h.perm.nodup_iff.2 hs.nodup
  simp only [List.nodup_append, List.mem_append] at hnodup
  rcases h.mem_of_joined hs hjoined with hmatched | hstarted
  · simp only [Rounds.tracks, List.mem_append] at hmatched
    have hrest := h.mem_of_remaining hs hremaining
    grind
  · have hcreated := hs.created track (h.mem_listed_iff.2 (by
      rcases h.mem_of_remaining hs hremaining with hmem | hmem
      · exact .inr (.inl hmem)
      · exact .inr (.inr (.inr hmem.1))))
    exact absurd (h.fresh track (List.mem_append_right _ hstarted)).1 (not_le.2 hcreated)

/-- A track of a new list is matched or started, or lost or waiting. -/
theorem Associated.listed_cases (htrack : track ∈ joined s mid rounds ++
    remaining s mid rounds expired) : track ∈ s.listed ∨ track ∈ rounds.started := by
  rcases List.mem_append.1 htrack with hjoined | hremaining
  · exact (h.mem_of_joined hs hjoined).imp_left fun hmem => h.mem_listed_iff.2 (.inl hmem)
  · refine .inl (h.mem_listed_iff.2 ?_)
    exact .inr ((h.mem_of_remaining hs hremaining).imp_right fun hmem => .inr hmem.1)

theorem Associated.life_of_started (htrack : track ∈ rounds.started) :
    mid.life track =
      Life.started (s.nextTrackId + rounds.started.idxOf track) (s.frameId + 1) := by
  obtain ⟨hold, hnew⟩ := h.fresh track (List.mem_append_right _ htrack)
  rw [h.life_of_new hs hold hnew, if_pos htrack]

theorem Associated.trackId_started (htrack : track ∈ rounds.started) :
    s.nextTrackId ≤ (mid.life track).trackId ∧ (mid.life track).trackId < mid.nextTrackId := by
  rw [h.life_of_started hs htrack, h.nextTrackId]
  have hlt := List.idxOf_lt_length_iff.2 htrack
  simp only [Life.started]
  omega

theorem Associated.unique : ∀ track < mid.created, ∀ other < mid.created,
    (mid.life track).trackId ≠ 0 → (mid.life track).trackId = (mid.life other).trackId →
      track = other := by
  have hnew : ∀ track, s.created ≤ track → track < mid.created →
      (mid.life track).trackId ≠ 0 → track ∈ rounds.started := by
    intro track hold hnew hid
    by_contra hstarted
    rw [h.life_of_new hs hold hnew, if_neg hstarted] at hid
    exact hid rfl
  intro track htrack other hother hid heq
  rcases lt_or_ge track s.created with hold | hold <;>
    rcases lt_or_ge other s.created with hold' | hold'
  · rw [h.trackId_eq hs hold] at hid heq
    rw [h.trackId_eq hs hold'] at heq
    exact hs.unique track hold other hold' hid heq
  · have hlow := (h.trackId_started hs (hnew other hold' hother (heq ▸ hid))).1
    rw [← heq, h.trackId_eq hs hold] at hlow
    exact absurd (hs.assigned track hold) (not_lt.2 hlow)
  · have hlow := (h.trackId_started hs (hnew track hold htrack hid)).1
    rw [heq, h.trackId_eq hs hold'] at hlow
    exact absurd (hs.assigned other hold') (not_lt.2 hlow)
  · have hstarted := hnew track hold htrack hid
    have hstarted' := hnew other hold' hother (heq ▸ hid)
    rw [h.life_of_started hs hstarted, h.life_of_started hs hstarted'] at heq
    exact (List.idxOf_inj hstarted).1 (Nat.add_left_cancel heq)

/-- The tracks of the new list are tracked, and seen in this frame. -/
theorem Associated.life_of_joined (htrack : track ∈ joined s mid rounds) :
    (mid.life track).state = .tracked ∧ (mid.life track).frameId = s.frameId + 1 := by
  rcases h.mem_of_joined hs htrack with hmem | hmem
  · rw [h.life_of_matched hs hmem]
    exact ⟨rfl, rfl⟩
  · rw [h.life_of_started hs hmem]
    exact ⟨rfl, rfl⟩

/-- The tracks of the other new list are lost, but not for too long. -/
theorem Associated.life_of_remaining (htrack : track ∈ remaining s mid rounds expired) :
    (mid.life track).state = .lost ∧
      s.frameId + 1 ≤ (mid.life track).frameId + max 1 maxTimeLost := by
  rcases h.mem_of_remaining hs htrack with hmem | ⟨hmem, hexpired⟩
  · have hfilter := h.second.subset (List.mem_append_right _ hmem)
    have hstate : (s.life track).state = .tracked := by simpa using List.of_mem_filter hfilter
    rw [h.life_of_newlyLost hs hmem]
    refine ⟨rfl, ?_⟩
    rcases List.mem_append.1 (h.mem_listed_iff.2 (.inr (.inl hmem))) with htracked | hlost
    · have hcurrent := hs.current track htracked
      simp only [Life.withState]
      omega
    · rw [hs.lost track hlost] at hstate
      cases hstate
  · rw [h.life_of_waiting hs hmem hexpired]
    have hshort := mt (h.mem_expired_iff hs).2 hexpired
    rw [not_and, not_lt] at hshort
    have hshort := hshort hmem
    exact ⟨hs.lost track (h.lost_of_waiting hs hmem), by omega⟩

theorem Associated.created_of_removed (htrack : track ∈ rounds.removed ++ expired) :
    track < s.created :=
  hs.created track (h.mem_listed_iff.2 (by
    rcases List.mem_append.1 htrack with hmem | hmem
    · exact .inr (.inr (.inl hmem))
    · exact .inr (.inr (.inr ((h.mem_expired_iff hs).1 hmem).1))))

/-- The invariant after an update, whatever duplicates are dropped. -/
theorem Associated.invariant {tracked lost : List ℕ}
    (htracked : tracked.Sublist (joined s mid rounds))
    (hlost : lost.Sublist (remaining s mid rounds expired)) :
    Invariant maxTimeLost { mid with
      trackedTracks := tracked
      lostTracks := lost
      removedTracks := mid.removedTracks ++ (rounds.removed ++ expired) } := by
  have hsublist : (tracked ++ lost).Sublist
      (joined s mid rounds ++ remaining s mid rounds expired) := htracked.append hlost
  have hcases : ∀ track ∈ tracked ++ lost, track ∈ s.listed ∨ track ∈ rounds.started :=
    fun track htrack => h.listed_cases hs (hsublist.subset htrack)
  have hremoved : ∀ track ∈ rounds.removed ++ expired, track ∉ tracked ++ lost := by
    intro track htrack hmem
    have hstate := congrArg Life.state (h.life_of_removed hs htrack)
    rcases List.mem_append.1 hmem with hmem | hmem
    · rw [(h.life_of_joined hs (htracked.subset hmem)).1] at hstate
      exact TrackState.noConfusion hstate
    · rw [(h.life_of_remaining hs (hlost.subset hmem)).1] at hstate
      exact TrackState.noConfusion hstate
  exact {
    created := fun track htrack => by
      rcases hcases track htrack with hmem | hmem
      · exact (hs.created track hmem).trans_le h.created
      · exact (h.fresh track (List.mem_append_right _ hmem)).2
    nodup := (h.nodup_lists hs).sublist hsublist
    tracked := fun track htrack => (h.life_of_joined hs (htracked.subset htrack)).1
    lost := fun track htrack => (h.life_of_remaining hs (hlost.subset htrack)).1
    current := fun track htrack => by
      change (mid.life track).frameId = mid.frameId
      rw [h.frameId]
      exact (h.life_of_joined hs (htracked.subset htrack)).2
    recent := fun track htrack => by
      change mid.frameId ≤ (mid.life track).frameId + _
      rw [h.frameId]
      exact (h.life_of_remaining hs (hlost.subset htrack)).2
    positive := by
      change 0 < mid.nextTrackId
      rw [h.nextTrackId]
      exact Nat.add_pos_left hs.positive _
    assigned := fun track htrack => by
      change (mid.life track).trackId < mid.nextTrackId
      rcases lt_or_ge track s.created with hold | hold
      · rw [h.trackId_eq hs hold, h.nextTrackId]
        exact (hs.assigned track hold).trans_le (Nat.le_add_right _ _)
      · by_cases hstarted : track ∈ rounds.started
        · exact (h.trackId_started hs hstarted).2
        · rw [h.life_of_new hs hold htrack, if_neg hstarted, h.nextTrackId]
          exact Nat.add_pos_left hs.positive _
    started := fun track htrack => by
      change (mid.life track).trackId ≠ 0
      rcases hcases track htrack with hmem | hmem
      · rw [h.trackId_eq hs (hs.created track hmem)]
        exact hs.started track hmem
      · have hlow := (h.trackId_started hs hmem).1
        have hpositive := hs.positive
        omega
    unique := h.unique hs
    removed := fun track htrack => by
      rcases List.mem_append.1 htrack with hmem | hmem
      · rw [h.removedTracks] at hmem
        obtain ⟨hcreated, hlisted⟩ := hs.removed track hmem
        refine ⟨hcreated.trans_le h.created, fun hnew => ?_⟩
        rcases hcases track hnew with hold | hstarted
        · exact hlisted hold
        · exact absurd (h.fresh track (List.mem_append_right _ hstarted)).1 (not_le.2 hcreated)
      · exact ⟨(h.created_of_removed hs hmem).trans_le h.created, hremoved track hmem⟩ }

end Lists

end Fates

section Update

variable [LinearOrder Score] {options : TrackerOptions Score}
  {backend : AssignmentBackend Score Cost} {detections : List (Detection Box Score)}

/-- The tracks that the first round leaves have not changed. -/
theorem FirstAssociation.life_of_unmatched {s₁ s₂ : Tracker Box Filter Score} {frame : ℕ}
    {pool high activated refound unmatched : List ℕ} {first : AssignmentResult}
    {picked : List (ℕ × ℕ)}
    (h : FirstAssociation backend frame pool high first activated refound picked s₁ s₂)
    (hbackend : PartialMatchings backend) (hbegins : Begins s s₁) (hpool : pool.Nodup)
    (hcreated : ∀ track ∈ pool, track < s.created)
    (hunmatched : Selects pool first.unmatchedRows unmatched) :
    ∀ track ∈ unmatched, s₂.life track = s.life track := by
  intro track htrack
  have hperm := perm_of_picks (h.answers.isPartialMatching hbackend) h.picks hunmatched
  have hdisjoint := (List.nodup_append.1 (hperm.nodup_iff.2 hpool)).2.2
  have hmem := hperm.subset (List.mem_append_right _ htrack)
  rw [h.life, matchedLives, if_neg fun hpicked => hdisjoint _ hpicked _ htrack rfl]
  exact congrArg Track.life (hbegins.store track (hcreated track hmem))

/-- What `update` ensures of a tracker with the invariant. -/
theorem ensures_update (hs : s.Invariant options.maxTimeLost)
    (hbackend : PartialMatchings backend) :
    Ensures (update math options backend detections) s
      (fun _ s' => ∃ rounds expired mid, Associated options.maxTimeLost rounds expired s mid ∧
        s' = finish math
          (((rounds.first.map Prod.fst).filter fun track => (s.life track).state = .tracked) ++
            rounds.second.map Prod.fst ++ rounds.last.map Prod.fst ++ rounds.started)
          ((rounds.first.map Prod.fst).filter fun track => (s.life track).state ≠ .tracked)
          rounds.newlyLost (rounds.removed ++ expired) mid)
      fun _ _ => True := by
  rw [update, ensures_bind]
  refine ensures_begin.mono ?_ fun _ _ _ => trivial
  rintro ⟨high, low⟩ s₁ ⟨hbegins, hnodup, hfresh⟩
  have hlife : ∀ track < s.created, s₁.life track = s.life track := fun track htrack =>
    congrArg Track.life (hbegins.store track htrack)
  have hpool := hbegins.firstPool_eq hs.created
  have hpoolNodup : (s.confirmed ++ s.lostTracks).Nodup :=
    hs.nodup.sublist (List.Sublist.append List.filter_sublist (List.Sublist.refl _))
  have hunconfirmed := hbegins.unconfirmed_eq fun track htrack =>
    hs.created track (List.mem_append_left _ htrack)
  unfold unconfirmed at hunconfirmed
  rw [hs.firstPool_eq] at hpool
  simp only [ensures_bind, ensures_get]
  refine ensures_firstAssociation.mono ?_ fun _ _ _ => trivial
  rintro ⟨pool, first, activated, refound⟩ s₂ ⟨rfl, picked₁, hfirst⟩
  dsimp only at hfirst ⊢
  rw [hpool] at hfirst ⊢
  have hmatching := hfirst.answers.isPartialMatching hbackend
  have hrows := hmatching.rows.nodup_iff.2 List.nodup_range
  obtain ⟨rfl, rfl⟩ := hfirst.found hpoolNodup (List.nodup_append.1 hrows).1
  refine ensures_secondAssociation.mono ?_ fun _ _ _ => trivial
  rintro ⟨_, newlyLost⟩ s₃ ⟨unmatched, picked₂, hunmatched, rfl, hsecond⟩
  refine ensures_lastAssociation.mono ?_ fun _ _ _ => trivial
  rintro ⟨_, newlyRemoved⟩ s₄ ⟨remaining, started, picked₃, hremaining, rfl, hlast⟩
  refine ensures_expireTracks.mono ?_ fun _ _ h => h.elim
  rintro _ s₅ ⟨expired, rfl, hexpired, hmarks⟩
  rw [hunconfirmed] at hlast
  obtain ⟨result₂, selected₂, hanswers₂, hpicked₂, hselected₂, hlost⟩ := hsecond.remaining
  obtain ⟨result₃, selected₃, hanswers₃, hpicked₃, hremoved, hselected₃, hstartedScore⟩ :=
    hlast.remaining
  have hsublist : started.Sublist selected₃ := hstartedScore ▸ List.filter_sublist
  have hmatching₂ := hanswers₂.isPartialMatching hbackend
  have hmatching₃ := hanswers₃.isPartialMatching hbackend
  -- the tracks of the three rounds
  have hperm := perm_of_picks hmatching hfirst.picks hunmatched
  have hperm₂ := perm_of_picks hmatching₂ hpicked₂ hselected₂
  have hperm₃ := perm_of_picks hmatching₃ hpicked₃ hremoved
  have hpoolCreated : ∀ track ∈ s.confirmed ++ s.lostTracks, track < s.created := fun track h =>
    hs.created track (List.mem_append.2 ((List.mem_append.1 h).imp_left List.mem_of_mem_filter))
  have hkept := hfirst.life_of_unmatched hbackend hbegins hpoolNodup hpoolCreated hunmatched
  have hfilter : unmatched.filter (s₂.state · = .tracked) =
      unmatched.filter fun track => (s.life track).state = .tracked := by
    refine List.filter_congr fun track htrack => ?_
    rw [← hkept track htrack]
    rfl
  rw [hfilter] at hperm₂ hpicked₂ hselected₂
  have hselectedNodup : selected₂.Nodup := by
    have hnodup' := hperm₂.nodup_iff.2
      (((List.nodup_append.1 (hperm.nodup_iff.2 hpoolNodup)).2.1).filter _)
    exact (List.nodup_append.1 hnodup').2.1
  obtain rfl := hlost hselectedNodup
  -- the detections of the three rounds
  have hhigh := perm_of_picks_columns hmatching hfirst.picks hremaining
  have hlow := nodup_of_selects (selects_of_picks hpicked₂).2 (List.nodup_append.1 hnodup).2.1
    (List.nodup_append.1 (hmatching₂.columns.nodup_iff.2 List.nodup_range)).1
  have hremaining₃ := perm_of_picks_columns hmatching₃ hpicked₃ hselected₃
  let rounds : Rounds := ⟨picked₁, picked₂, picked₃, unmatched, newlyLost, newlyRemoved, started⟩
  obtain ⟨hdetections, hmem⟩ := rounds.detections_spec hnodup
    ((hremaining₃.append_left _).trans hhigh) hsublist hlow
    (mem_of_selects (selects_of_picks hpicked₂).2)
  have hstarted : started.Nodup :=
    hdetections.sublist (List.sublist_append_right _ _)
  have hmutates := hfirst.mutates
  have hmutates' := hsecond.mutates
  have hcreated : s₅.created = s₁.created := by
    rw [hmarks.1.created, hlast.created, hmutates'.created, hmutates.created]
  have hlives : s₄.life = rounds.lives s s₁.life := by
    rw [hlast.life hstarted, hsecond.life, hfirst.life, hmutates'.nextTrackId,
      hmutates.nextTrackId, hbegins.nextTrackId, hbegins.frameId]
    rfl
  have hfound : ∀ track ∈ picked₁.map Prod.fst, s₁.state track = (s.life track).state := by
    intro track htrack
    rw [← hlife track (hpoolCreated track (hperm.subset (List.mem_append_left _ htrack)))]
    rfl
  refine ⟨rounds, expired, s₅, ?_, ?_⟩
  · exact {
      frameId := by
        rw [hmarks.1.frameId, hlast.frameId, hmutates'.frameId, hmutates.frameId, hbegins.frameId]
      created := hcreated ▸ hbegins.created
      nextTrackId := by
        rw [hmarks.1.nextTrackId, hlast.nextTrackId, hmutates'.nextTrackId, hmutates.nextTrackId,
          hbegins.nextTrackId]
      trackedTracks := by
        rw [hmarks.1.trackedTracks, hlast.trackedTracks, hmutates'.trackedTracks,
          hmutates.trackedTracks, hbegins.trackedTracks]
      lostTracks := by
        rw [hmarks.1.lostTracks, hlast.lostTracks, hmutates'.lostTracks, hmutates.lostTracks,
          hbegins.lostTracks]
      removedTracks := by
        rw [hmarks.1.removedTracks, hlast.removedTracks, hmutates'.removedTracks,
          hmutates.removedTracks, hbegins.removedTracks]
      consumed := by
        rw [hmarks.2.2, hlast.consumed, hsecond.consumed, hfirst.consumed, hbegins.consumed]
        rfl
      first := hperm
      second := hperm₂
      last := hperm₃
      detections := hdetections
      fresh := fun detection hdetection =>
        hcreated ▸ hfresh detection (hmem detection hdetection)
      lives := ⟨s₁.life, hlife,
        fun track hlow hhigh => hbegins.unborn track hlow (hcreated ▸ hhigh),
        by rw [hexpired, hbegins.lostTracks, hbegins.frameId, hlives],
        by rw [hmarks.2.1, hlives]⟩ }
  · have hactivated : (picked₁.map Prod.fst).filter (s₁.state · = .tracked) =
        (picked₁.map Prod.fst).filter fun track => (s.life track).state = .tracked :=
      List.filter_congr fun track htrack => by rw [hfound track htrack]
    have hrefound : (picked₁.map Prod.fst).filter (s₁.state · ≠ .tracked) =
        (picked₁.map Prod.fst).filter fun track => (s.life track).state ≠ .tracked :=
      List.filter_congr fun track htrack => by rw [hfound track htrack]
    rw [← hactivated, ← hrefound]

end Update

/-! ## Runs -/

/-- What holds of a tracker and any later state of it. -/
structure Precedes (s s' : Tracker Box Filter Score) : Prop where
  created : s.created ≤ s'.created
  nextTrackId : s.nextTrackId ≤ s'.nextTrackId
  /-- Identifiers stay. -/
  trackId : ∀ track < s.created, s'.trackId track = s.trackId track
  /-- A track that is in neither list does not come back. -/
  gone : ∀ track < s.created, track ∉ s.listed → track ∉ s'.listed
  /-- A new track has an identifier that was not given before. -/
  fresh : ∀ track ∈ s'.listed, track ∉ s.listed → s.nextTrackId ≤ s'.trackId track

theorem Precedes.refl : Precedes s s :=
  ⟨le_rfl, le_rfl, fun _ _ => rfl, fun _ _ h => h, fun _ h h' => absurd h h'⟩

theorem Precedes.trans {s'' : Tracker Box Filter Score} (h : Precedes s s')
    (h' : Precedes s' s'') (hcreated : ∀ track ∈ s'.listed, track < s'.created) :
    Precedes s s'' where
  created := h.created.trans h'.created
  nextTrackId := h.nextTrackId.trans h'.nextTrackId
  trackId track htrack :=
    (h'.trackId track (htrack.trans_le h.created)).trans (h.trackId track htrack)
  gone track htrack hlisted :=
    h'.gone track (htrack.trans_le h.created) (h.gone track htrack hlisted)
  fresh track hlater hlisted := by
    by_cases hmem : track ∈ s'.listed
    · rw [h'.trackId track (hcreated track hmem)]
      exact h.fresh track hmem hlisted
    · exact h.nextTrackId.trans (h'.fresh track hlater hmem)

theorem Invariant.init [Inhabited (Track Box Filter Score)] {maxTimeLost : ℕ} :
    Invariant maxTimeLost (init : Tracker Box Filter Score) := by
  constructor <;> simp [listed, Tracker.init]

section Runs

variable [LinearOrder Score] (math : TrackingMath Box Filter Score Cost)
  (options : TrackerOptions Score)

/-- A successful update with some detections and a backend that answers with partial
matchings. -/
def Step (s s' : Tracker Box Filter Score) : Prop :=
  ∃ (backend : AssignmentBackend Score Cost) (detections : List (Detection Box Score))
    (reported : List ℕ), PartialMatchings backend ∧
      update math options backend detections s = (.ok reported, s')

/-- What holds after each update. -/
structure IsOrderly (s : Tracker Box Filter Score) : Prop where
  distinct : (s.listed.map s.trackId).Nodup
  below : ∀ track ∈ s.listed, s.trackId track < s.nextTrackId
  tracked : ∀ track ∈ s.trackedTracks, s.state track = .tracked
  lost : ∀ track ∈ s.lostTracks, s.state track = .lost
  recent : ∀ track ∈ s.lostTracks,
    s.frameId ≤ (s.store track).frameId + max 1 options.maxTimeLost
  removed : ∀ track ∈ s.removedTracks, track < s.created ∧ track ∉ s.listed
  /-- In the last update each track took at most one detection. -/
  tracksOnce : (s.consumed.map Prod.fst).Nodup
  /-- In the last update each detection was taken at most once. -/
  detectionsOnce : (s.consumed.map Prod.snd).Nodup

variable {math options}

/-- One update keeps the invariant, is orderly and precedes what follows. -/
theorem Step.spec (h : Step math options s s') (hs : s.Invariant options.maxTimeLost) :
    s'.Invariant options.maxTimeLost ∧ IsOrderly options s' ∧ Precedes s s' := by
  obtain ⟨backend, detections, reported, hbackend, hrun⟩ := h
  obtain ⟨rounds, expired, mid, hmid, rfl⟩ := (ensures_update hs hbackend).returned hrun
  have htracked : (mid.removeDuplicates math (joined s mid rounds)
      (remaining s mid rounds expired)).1.Sublist (joined s mid rounds) := List.filter_sublist
  have hlost : (mid.removeDuplicates math (joined s mid rounds)
      (remaining s mid rounds expired)).2.Sublist (remaining s mid rounds expired) :=
    List.filter_sublist
  have hinvariant := hmid.invariant hs htracked hlost
  have hlisted : ∀ track ∈ (mid.removeDuplicates math (joined s mid rounds)
      (remaining s mid rounds expired)).1 ++ (mid.removeDuplicates math (joined s mid rounds)
        (remaining s mid rounds expired)).2, track ∈ s.listed ∨ track ∈ rounds.started :=
    fun track htrack => hmid.listed_cases hs ((htracked.append hlost).subset htrack)
  refine ⟨hinvariant, ?_, ?_⟩
  · have hfst : mid.consumed.map Prod.fst = rounds.tracks ++ rounds.started := by
      simp [hmid.consumed, Rounds.tracks, Function.comp_def]
    have hsnd : mid.consumed.map Prod.snd = rounds.detections := by
      simp [hmid.consumed, Rounds.detections, Function.comp_def]
    exact {
      distinct := hinvariant.nodup_trackId
      below := fun track htrack => hinvariant.assigned track (hinvariant.created track htrack)
      tracked := hinvariant.tracked
      lost := hinvariant.lost
      recent := hinvariant.recent
      removed := hinvariant.removed
      tracksOnce := by
        change (mid.consumed.map Prod.fst).Nodup
        have hnodup := hmid.perm.nodup_iff.2 hs.nodup
        simp only [List.nodup_append, List.mem_append] at hnodup
        rw [hfst, List.nodup_append]
        refine ⟨?_, hmid.detections.sublist (List.sublist_append_right _ _), ?_⟩
        · simp only [Rounds.tracks, List.nodup_append, List.mem_append]
          grind
        · rintro track hmatched other hstarted rfl
          exact absurd (hmid.fresh track (List.mem_append_right _ hstarted)).1
            (not_le.2 (hs.created track (hmid.mem_listed_iff.2 (.inl hmatched))))
      detectionsOnce := by
        change (mid.consumed.map Prod.snd).Nodup
        rw [hsnd]
        exact hmid.detections }
  · exact {
      created := hmid.created
      nextTrackId := by
        change s.nextTrackId ≤ mid.nextTrackId
        rw [hmid.nextTrackId]
        exact Nat.le_add_right _ _
      trackId := fun track htrack => hmid.trackId_eq hs htrack
      gone := fun track htrack hold hnew => (hlisted track hnew).elim hold fun hstarted =>
        absurd (hmid.fresh track (List.mem_append_right _ hstarted)).1 (not_le.2 htrack)
      fresh := fun track hnew hold =>
        (hmid.trackId_started hs ((hlisted track hnew).resolve_left hold)).1 }

theorem invariant_of_reachable {maxTimeLost : ℕ} (hoptions : maxTimeLost = options.maxTimeLost)
    (hs : s.Invariant maxTimeLost) (h : Relation.ReflTransGen (Step math options) s s') :
    s'.Invariant maxTimeLost ∧ Precedes s s' := by
  subst hoptions
  induction h with
  | refl => exact ⟨hs, .refl⟩
  | tail _ hstep ih =>
    obtain ⟨hinvariant, -, hprecedes⟩ := hstep.spec ih.1
    exact ⟨hinvariant, ih.2.trans hprecedes ih.1.created⟩

/-- For every run of successful updates on any detections, with any backends that answer with
partial matchings : every state is orderly, and identifiers are not used again and tracks that
left the lists do not come back. -/
theorem tracker_lifecycle [Inhabited (Track Box Filter Score)]
    (h : Relation.ReflTransGen (Step math options) init s) :
    IsOrderly options s ∧ ∀ s', Relation.ReflTransGen (Step math options) s s' → Precedes s s' := by
  have hinvariant := (invariant_of_reachable rfl .init h).1
  refine ⟨?_, fun s' h' => (invariant_of_reachable rfl hinvariant h').2⟩
  cases h with
  | refl => constructor <;> simp [listed, Tracker.init]
  | tail h hstep => exact (hstep.spec (invariant_of_reachable rfl .init h).1).2.1

end Runs

end Tracker

/-! ## A small run -/

theorem partialMatchings_idleBackend : Tracker.PartialMatchings idleBackend := by
  rintro association costs threshold result hresult
  obtain rfl := Option.some.inj hresult
  exact ⟨.refl _, .refl _⟩

/-- The tracker after a frame whose update succeeds with the idle backend. -/
def idleUpdate (maxTimeLost : ℕ) (detections : List (Detection ℕ ℕ)) (s : Tracker ℕ ℕ ℕ) :
    Tracker ℕ ℕ ℕ :=
  (Tracker.update pointMath (pointOptions maxTimeLost) idleBackend detections s).2

theorem step_idleUpdate {maxTimeLost : ℕ} {detections : List (Detection ℕ ℕ)}
    {s : Tracker ℕ ℕ ℕ}
    (h : (Tracker.update pointMath (pointOptions maxTimeLost) idleBackend detections
      s).1.toOption.isSome) :
    Tracker.Step pointMath (pointOptions maxTimeLost) s (idleUpdate maxTimeLost detections s) := by
  rw [idleUpdate]
  rcases hrun : Tracker.update pointMath (pointOptions maxTimeLost) idleBackend detections s with
    ⟨error | reported, s'⟩
  · rw [hrun] at h
    cases h
  · exact ⟨idleBackend, detections, reported, partialMatchings_idleBackend, hrun⟩

/-- The tracker after a frame with one detection and a frame without any. -/
def oneLost (maxTimeLost : ℕ) : Tracker ℕ ℕ ℕ :=
  idleUpdate maxTimeLost [] (idleUpdate maxTimeLost [⟨3, 90, 0⟩] Tracker.init)

theorem tracker_lifecycle_oneLost :
    Tracker.IsOrderly (pointOptions 30) (oneLost 30) ∧
      ∀ s', Relation.ReflTransGen (Tracker.Step pointMath (pointOptions 30)) (oneLost 30) s' →
        Tracker.Precedes (oneLost 30) s' := by
  have hfirst : Tracker.Step pointMath (pointOptions 30) Tracker.init
      (idleUpdate 30 [⟨3, 90, 0⟩] Tracker.init) := step_idleUpdate (by decide +kernel)
  exact Tracker.tracker_lifecycle (.tail (.single hfirst) (step_idleUpdate (by decide +kernel)))

/-- With a `max_time_lost` of 0 a track is kept in the lost list one frame after its last
update. -/
theorem lost_for_a_frame :
    Relation.ReflTransGen (Tracker.Step pointMath (pointOptions 0)) Tracker.init (oneLost 0) ∧
      (oneLost 0).lostTracks = [0] ∧
        ¬(oneLost 0).frameId - ((oneLost 0).store 0).frameId ≤ (pointOptions 0).maxTimeLost := by
  have hfirst : Tracker.Step pointMath (pointOptions 0) Tracker.init
      (idleUpdate 0 [⟨3, 90, 0⟩] Tracker.init) := step_idleUpdate (by decide +kernel)
  refine ⟨.tail (.single hfirst) (step_idleUpdate (by decide +kernel)), ?_, ?_⟩
  · decide +kernel
  · decide +kernel

end Npunlock
