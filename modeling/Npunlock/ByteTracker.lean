import Mathlib.Logic.Function.Basic
import Mathlib.Order.Defs.LinearOrder
import Npunlock.Counting
import Npunlock.Effects

/-!
# The tracker

`ByteTracker.update` associates the tracks with the detections of a frame in three rounds.
The tracks are objects that the lists share : `Tracker.store` holds them under their
references. The arithmetic on boxes, filters and costs is a parameter (`TrackingMath`), and
so is the assignment backend.
-/

namespace Npunlock

inductive TrackState
  | new
  | tracked
  | lost
  | removed
  deriving DecidableEq

/-- A box of a frame with its score. -/
structure Detection (Box Score : Type) where
  xyxy : Box
  score : Score
  classId : ℤ

/-- A track. `filter` is the mean and the covariance. -/
structure Track (Box Filter Score : Type) where
  tlwh : Box
  score : Score
  classId : ℤ
  trackId : ℕ
  state : TrackState
  isActivated : Bool
  frameId : ℕ
  startFrame : ℕ
  trackletLength : ℕ
  filter : Option Filter

instance {Box Filter Score : Type} [Inhabited Box] [Inhabited Score] :
    Inhabited (Track Box Filter Score) :=
  ⟨⟨default, default, 0, 0, .new, false, 0, 0, 0, none⟩⟩

/-- The arithmetic. `initiate` and `correct` may raise. -/
structure TrackingMath (Box Filter Score Cost : Type) where
  xyxyToTlwh : Box → Box
  initiate : Box → Option Filter
  /-- The filter with a resting height, `mean[7] = 0.0`. -/
  rest : Filter → Filter
  predict : Filter → Filter
  correct : Filter → Box → Option Filter
  tlwh : Filter → Box
  iouDistance : Box → Box → Cost
  fuse : Cost → Score → Cost
  /-- The cost is below 0.15. -/
  isDuplicate : Cost → Bool

/-- The options of the constructor. -/
structure TrackerOptions (Score : Type) [LinearOrder Score] where
  trackHighThreshold : Score
  trackLowThreshold : Score
  newTrackThreshold : Score
  firstMatchThreshold : Score
  secondMatchThreshold : Score
  unconfirmedMatchThreshold : Score
  maxTimeLost : ℕ
  fuseScore : Bool
  low_lt_high : trackLowThreshold < trackHighThreshold

/-- The rounds of association. -/
inductive Association
  | first
  | second
  | unconfirmed
  deriving DecidableEq

/-- A matrix of costs with its shape. -/
structure CostMatrix (Cost : Type) where
  rows : ℕ
  columns : ℕ
  costs : List (List Cost)

/-- What a backend returns. -/
structure AssignmentResult where
  matchedPairs : List (ℕ × ℕ)
  unmatchedRows : List ℕ
  unmatchedColumns : List ℕ
  deriving DecidableEq

/-- The answers of a backend to the calls of one update, `none` where it raises. -/
abbrev AssignmentBackend (Score Cost : Type) :=
  Association → CostMatrix Cost → Score → Option AssignmentResult

/-- Why an update raises. -/
inductive TrackerError
  | detectionCount
  | capacity (association : Association)
  | backend (association : Association)
  /-- A backend named a row or a column that does not exist. -/
  | index
  /-- The filter of a track is missing or raises. -/
  | kalman
  deriving DecidableEq

/-- The state. `created` is the number of track objects that exist. `consumed` pairs each
track with the detection it took in the current frame : nothing reads it. -/
structure Tracker (Box Filter Score : Type) where
  store : ℕ → Track Box Filter Score
  created : ℕ
  frameId : ℕ
  nextTrackId : ℕ
  trackedTracks : List ℕ
  lostTracks : List ℕ
  removedTracks : List ℕ
  consumed : List (ℕ × ℕ)

variable {Box Filter Score Cost : Type}

namespace Track

variable (math : TrackingMath Box Filter Score Cost) (track : Track Box Filter Score)

/-- `Track.__init__`. -/
def ofDetection (detection : Detection Box Score) : Track Box Filter Score where
  tlwh := math.xyxyToTlwh detection.xyxy
  score := detection.score
  classId := detection.classId
  trackId := 0
  state := .new
  isActivated := false
  frameId := 0
  startFrame := 0
  trackletLength := 0
  filter := none

/-- The property `tlwh`. -/
def box : Box :=
  match track.filter with
  | none => track.tlwh
  | some filter => math.tlwh filter

def predict : Track Box Filter Score :=
  { track with
    filter := track.filter.map fun filter =>
      math.predict (if track.state = .tracked then filter else math.rest filter) }

def markLost : Track Box Filter Score :=
  { track with state := .lost }

def markRemoved : Track Box Filter Score :=
  { track with state := .removed }

end Track

namespace Tracker

/-! ## Track objects -/

section Objects

variable (math : TrackingMath Box Filter Score Cost)

abbrev Action (Box Filter Score : Type) :=
  Effect TrackerError (Tracker Box Filter Score)

variable (tracker : Tracker Box Filter Score)

/-- The tracker after a track object changed. -/
def setTrack (track : ℕ) (value : Track Box Filter Score) : Tracker Box Filter Score :=
  { tracker with store := Function.update tracker.store track value }

/-- The tracker with a new track object. -/
def create (value : Track Box Filter Score) : Tracker Box Filter Score :=
  { tracker.setTrack tracker.created value with created := tracker.created + 1 }

/-- Makes the track objects of detections. -/
def newTracks (detections : List (Detection Box Score)) : Action Box Filter Score (List ℕ) := do
  let tracker ← Effect.get
  Effect.modify fun tracker =>
    detections.foldl (fun tracker detection => tracker.create (Track.ofDetection math detection))
      tracker
  pure ((List.range detections.length).map (tracker.created + ·))

/-- Changes a track object in place. -/
def mutate (track : ℕ) (change : Track Box Filter Score → Track Box Filter Score) :
    Action Box Filter Score Unit :=
  Effect.modify fun tracker => tracker.setTrack track (change (tracker.store track))

/-- `_consume_detection`. -/
def consumeDetection (frameId track detection : ℕ) : Action Box Filter Score Unit := do
  let tracker ← Effect.get
  let filter ← Effect.ofOption .kalman (tracker.store track).filter
  let filter ← Effect.ofOption .kalman
    (math.correct filter ((tracker.store detection).box math))
  mutate track fun value => { value with
    filter := some filter
    state := .tracked
    isActivated := true
    frameId
    score := (tracker.store detection).score
    classId := (tracker.store detection).classId }
  Effect.modify fun tracker => { tracker with consumed := tracker.consumed ++ [(track, detection)] }

/-- `Track.update`. -/
def updateTrack (frameId track detection : ℕ) : Action Box Filter Score Unit := do
  mutate track fun value => { value with trackletLength := value.trackletLength + 1 }
  consumeDetection math frameId track detection

/-- `Track.reactivate`. -/
def reactivate (frameId track detection : ℕ) : Action Box Filter Score Unit := do
  mutate track fun value => { value with trackletLength := 0 }
  consumeDetection math frameId track detection

/-- `Track.activate`. -/
def activate (frameId trackId track : ℕ) : Action Box Filter Score Unit := do
  mutate track fun value => { value with trackId }
  let tracker ← Effect.get
  let filter ← Effect.ofOption .kalman (math.initiate (tracker.store track).tlwh)
  mutate track fun value => { value with
    filter := some filter
    trackletLength := 0
    state := .tracked
    isActivated := frameId = 1
    frameId
    startFrame := frameId }
  Effect.modify fun tracker => { tracker with consumed := tracker.consumed ++ [(track, track)] }

end Objects

/-! ## Lists of tracks -/

section Lists

variable (math : TrackingMath Box Filter Score Cost) (tracker : Tracker Box Filter Score)

def trackId (track : ℕ) : ℕ :=
  (tracker.store track).trackId

def state (track : ℕ) : TrackState :=
  (tracker.store track).state

/-- The distances of tracks. -/
def iouDistance (left right : List ℕ) : CostMatrix Cost where
  rows := left.length
  columns := right.length
  costs := left.map fun track => right.map fun other =>
    math.iouDistance ((tracker.store track).box math) ((tracker.store other).box math)

def fuseDetectionScores (costs : CostMatrix Cost) (detections : List ℕ) : CostMatrix Cost :=
  { costs with
    costs := costs.costs.map fun row => row.zipWith
      (fun cost detection => math.fuse cost (tracker.store detection).score) detections }

/-- A round of `_join`. -/
def joinTrack (result : List ℕ) (track : ℕ) : List ℕ :=
  if tracker.trackId track ∈ result.map tracker.trackId then result else result ++ [track]

/-- `_join`. -/
def join (first second : List ℕ) : List ℕ :=
  (first ++ second).foldl tracker.joinTrack []

/-- `_subtract`. -/
def subtract (first second : List ℕ) : List ℕ :=
  first.filter fun track => tracker.trackId track ∉ second.map tracker.trackId

def age (track : ℕ) : ℤ :=
  (tracker.store track).frameId - (tracker.store track).startFrame

def areDuplicates (tracked lost : ℕ) : Bool :=
  math.isDuplicate (math.iouDistance ((tracker.store tracked).box math)
    ((tracker.store lost).box math))

/-- `_remove_duplicates`. -/
def removeDuplicates (tracked lost : List ℕ) : List ℕ × List ℕ :=
  (tracked.filter fun track => ¬lost.any fun other =>
      tracker.areDuplicates math track other && !decide (tracker.age other < tracker.age track),
    lost.filter fun other => ¬tracked.any fun track =>
      tracker.areDuplicates math track other && decide (tracker.age other < tracker.age track))

end Lists

/-! ## An update -/

section Update

variable [LinearOrder Score] (math : TrackingMath Box Filter Score Cost)
  (options : TrackerOptions Score) (backend : AssignmentBackend Score Cost)

/-- `_assign`. -/
def assign (association : Association) (costs : CostMatrix Cost) (threshold : Score) :
    Action Box Filter Score AssignmentResult :=
  if 16 < costs.rows ∨ 16 < costs.columns then Effect.throw (.capacity association)
  else Effect.ofOption (.backend association) (backend association costs threshold)

/-- The track and the detection of a match. -/
def pick (tracks detections : List ℕ) (row column : ℕ) : Action Box Filter Score (ℕ × ℕ) := do
  let track ← Effect.ofOption .index tracks[row]?
  let detection ← Effect.ofOption .index detections[column]?
  pure (track, detection)

/-- The costs of the first and the last association. -/
def fusedCosts (tracks detections : List ℕ) : Action Box Filter Score (CostMatrix Cost) := do
  let tracker ← Effect.get
  let costs := tracker.iouDistance math tracks detections
  pure (if options.fuseScore then tracker.fuseDetectionScores math costs detections else costs)

/-- A match of the first association : `activated` and `refound` after it. -/
def firstMatch (frameId : ℕ) (pool high : List ℕ) (found : List ℕ × List ℕ) (pair : ℕ × ℕ) :
    Action Box Filter Score (List ℕ × List ℕ) := do
  let (track, detection) ← pick pool high pair.1 pair.2
  let tracker ← Effect.get
  if tracker.state track = .tracked then do
    updateTrack math frameId track detection
    pure (found.1 ++ [track], found.2)
  else do
    reactivate math frameId track detection
    pure (found.1, found.2 ++ [track])

/-- A match of another association. -/
def laterMatch (frameId : ℕ) (tracks detections activated : List ℕ) (pair : ℕ × ℕ) :
    Action Box Filter Score (List ℕ) := do
  let (track, detection) ← pick tracks detections pair.1 pair.2
  updateTrack math frameId track detection
  pure (activated ++ [track])

/-- An unmatched row of the second association. -/
def loseTrack (tracks newlyLost : List ℕ) (row : ℕ) : Action Box Filter Score (List ℕ) := do
  let track ← Effect.ofOption .index tracks[row]?
  let tracker ← Effect.get
  if tracker.state track ≠ .lost then do
    mutate track Track.markLost
    pure (newlyLost ++ [track])
  else pure newlyLost

/-- An unmatched row of the last association. -/
def removeTrack (tracks newlyRemoved : List ℕ) (row : ℕ) : Action Box Filter Score (List ℕ) := do
  let track ← Effect.ofOption .index tracks[row]?
  mutate track Track.markRemoved
  pure (newlyRemoved ++ [track])

/-- An unmatched column of the last association. -/
def startTrack (frameId : ℕ) (detections activated : List ℕ) (column : ℕ) :
    Action Box Filter Score (List ℕ) := do
  let track ← Effect.ofOption .index detections[column]?
  let tracker ← Effect.get
  if (tracker.store track).score < options.newTrackThreshold then pure activated
  else do
    activate math frameId tracker.nextTrackId track
    Effect.modify fun tracker => { tracker with nextTrackId := tracker.nextTrackId + 1 }
    pure (activated ++ [track])

/-- A round of the loop over the lost tracks. -/
def expireTrack (frameId : ℕ) (newlyRemoved : List ℕ) (track : ℕ) :
    Action Box Filter Score (List ℕ) := do
  let tracker ← Effect.get
  if options.maxTimeLost < frameId - (tracker.store track).frameId then do
    mutate track Track.markRemoved
    pure (newlyRemoved ++ [track])
  else pure newlyRemoved

/-- The lists after the associations. -/
def finish (activated refound newlyLost newlyRemoved : List ℕ)
    (tracker : Tracker Box Filter Score) : Tracker Box Filter Score :=
  let tracked := tracker.join (tracker.join
    (tracker.trackedTracks.filter fun track => tracker.state track = .tracked) activated) refound
  let lost := tracker.subtract (tracker.subtract tracker.lostTracks tracked ++ newlyLost)
    newlyRemoved
  { tracker with
    trackedTracks := (tracker.removeDuplicates math tracked lost).1
    lostTracks := (tracker.removeDuplicates math tracked lost).2
    removedTracks := tracker.removedTracks ++ newlyRemoved }

/-- The detections of a frame as high and low tracks. -/
def begin (detections : List (Detection Box Score)) :
    Action Box Filter Score (List ℕ × List ℕ) := do
  Effect.modify fun tracker => { tracker with frameId := tracker.frameId + 1, consumed := [] }
  let high ← newTracks math
    (detections.filter fun detection => options.trackHighThreshold < detection.score)
  let low ← newTracks math (detections.filter fun detection =>
    options.trackLowThreshold < detection.score ∧ detection.score < options.trackHighThreshold)
  if 16 < high.length ∨ 16 < low.length then Effect.throw .detectionCount
  else pure (high, low)

/-- The first association : the pool, what the backend returns, `activated` and `refound`. -/
def firstAssociation (frameId : ℕ) (confirmed high : List ℕ) :
    Action Box Filter Score (List ℕ × AssignmentResult × List ℕ × List ℕ) := do
  let tracker ← Effect.get
  let pool := tracker.join confirmed tracker.lostTracks
  Effect.modify fun tracker =>
    pool.foldl (fun tracker track => tracker.setTrack track ((tracker.store track).predict math))
      tracker
  let costs ← fusedCosts math options pool high
  let result ← assign backend .first costs options.firstMatchThreshold
  let found ← result.matchedPairs.foldlM (firstMatch math frameId pool high) ([], [])
  pure (pool, result, found)

/-- The second association : `activated` and `newlyLost` after it. -/
def secondAssociation (frameId : ℕ) (pool : List ℕ) (first : AssignmentResult)
    (low activated : List ℕ) : Action Box Filter Score (List ℕ × List ℕ) := do
  let tracks ← first.unmatchedRows.foldlM (fun tracks row => do
    let track ← Effect.ofOption .index pool[row]?
    pure (tracks ++ [track])) []
  let tracker ← Effect.get
  let remaining := tracks.filter fun track => tracker.state track = .tracked
  let result ← assign backend .second (tracker.iouDistance math remaining low)
    options.secondMatchThreshold
  let activated ← result.matchedPairs.foldlM (laterMatch math frameId remaining low) activated
  let newlyLost ← result.unmatchedRows.foldlM (loseTrack remaining) []
  pure (activated, newlyLost)

/-- The last association : `activated` and `newlyRemoved` after it. -/
def lastAssociation (frameId : ℕ) (unconfirmed high : List ℕ) (first : AssignmentResult)
    (activated : List ℕ) : Action Box Filter Score (List ℕ × List ℕ) := do
  let remaining ← first.unmatchedColumns.foldlM (fun tracks column => do
    let track ← Effect.ofOption .index high[column]?
    pure (tracks ++ [track])) []
  let costs ← fusedCosts math options unconfirmed remaining
  let result ← assign backend .unconfirmed costs options.unconfirmedMatchThreshold
  let activated ←
    result.matchedPairs.foldlM (laterMatch math frameId unconfirmed remaining) activated
  let newlyRemoved ← result.unmatchedRows.foldlM (removeTrack unconfirmed) []
  let activated ← result.unmatchedColumns.foldlM (startTrack math options frameId remaining)
    activated
  pure (activated, newlyRemoved)

/-- `ByteTracker.update`. -/
def update (detections : List (Detection Box Score)) : Action Box Filter Score (List ℕ) := do
  let (high, low) ← begin math options detections
  let tracker ← Effect.get
  let frameId := tracker.frameId
  let unconfirmed := tracker.trackedTracks.filter fun track => !(tracker.store track).isActivated
  let confirmed := tracker.trackedTracks.filter fun track => (tracker.store track).isActivated
  let (pool, first, activated, refound) ←
    firstAssociation math options backend frameId confirmed high
  let (activated, newlyLost) ←
    secondAssociation math options backend frameId pool first low activated
  let (activated, newlyRemoved) ←
    lastAssociation math options backend frameId unconfirmed high first activated
  let newlyRemoved ← tracker.lostTracks.foldlM (expireTrack options frameId) newlyRemoved
  Effect.modify (finish math activated refound newlyLost newlyRemoved)
  let tracker ← Effect.get
  pure (tracker.trackedTracks.filter fun track => (tracker.store track).isActivated)

/-- A tracker before its first frame. -/
def init [Inhabited (Track Box Filter Score)] : Tracker Box Filter Score where
  store := fun _ => default
  created := 0
  frameId := 0
  nextTrackId := 1
  trackedTracks := []
  lostTracks := []
  removedTracks := []
  consumed := []

end Update

end Tracker

end Npunlock
