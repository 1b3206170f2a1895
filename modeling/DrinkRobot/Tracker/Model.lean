import DrinkRobot.Lib.Indexed
import DrinkRobot.Lib.Run
import DrinkRobot.Metric

/-!
# The cup tracker

`multiObjectTracking_HC.m` runs one loop iteration per camera frame;
`multiObjectTracking_HC_new.m` is the same frame as a function, called once per frame with the
tracks and the next id as arguments. Their nested functions have the same text and share the
variables of the enclosing function, so they are modelled once, as functions on the shared
`Workspace`; each `for` loop over an index array reads the other arrays with checked indices.

The Computer Vision Toolbox is a parameter (`Toolbox`): the Kalman filter operations on an
abstract filter state, and `assignDetectionsToTracks`, whose result is a `Matching` (a partial
matching of tracks and detections with its exact complements).

Not modelled: image filtering before `imfindcircles` (a frame is the list of circles found in it)
and the drawing of the annotated frame, with the labels made for it.
-/

namespace DrinkRobot

open OneBased

/-- A circle reported by `imfindcircles`: a row of `centroids` and an entry of `radii`. -/
structure Circle where
  x : ℚ
  y : ℚ
  radius : ℚ
deriving DecidableEq

/-- A row of `bboxes`. -/
structure Box where
  left : ℚ
  top : ℚ
  width : ℚ
  height : ℚ
deriving DecidableEq

/-- A row of the table `everything`: the corner of the box, the cup type (2 is large) and the
number within the type. -/
structure CupRow where
  left : ℚ
  top : ℚ
  cupType : Nat
  cupNumber : Nat
deriving DecidableEq

/-- An element of the struct array `tracks`; `κ` is the state of a Kalman filter object. -/
structure Track (κ : Type) where
  id : Nat
  bbox : Box
  kalmanFilter : κ
  age : Nat
  totalVisibleCount : Nat
  consecutiveInvisibleCount : Nat

/-- The motion models of `configureKalmanFilter`. -/
inductive MotionModel where
  | constantVelocity
  | constantAcceleration

/-- The functions of the Computer Vision Toolbox that the tracker calls. A filter object is
changed by `predict` and `correct`; here both return its new state. -/
structure Toolbox (κ : Type) where
  predict : κ → κ × (ℚ × ℚ)
  correct : κ → ℚ × ℚ → κ
  distance : κ → List (ℚ × ℚ) → List ℚ
  configureKalmanFilter : MotionModel → ℚ × ℚ → ℚ × ℚ → ℚ × ℚ → ℚ → κ
  assignDetectionsToTracks :
    (nTracks nDetections : Nat) → List (List ℚ) → ℚ → Matching nTracks nDetections

/-- What one frame gives the tracker: the circles found in it and the toolbox's answers. -/
structure Frame (κ : Type) where
  toolbox : Toolbox κ
  circles : List Circle

/-- The variables shared by the tracker and its nested functions. -/
structure Workspace (κ : Type) where
  tracks : List (Track κ)
  nextId : Nat
  centroids : List (ℚ × ℚ) := []
  bboxes : List Box := []
  assignments : List (Nat × Nat) := []
  unassignedTracks : List Nat := []
  unassignedDetections : List Nat := []
  everything : List CupRow := []

variable {κ : Type}

/-- `initializeTracks`: the empty struct array. -/
def initializeTracks : List (Track κ) := []

/-! ## The nested functions -/

/-- The box of a circle, cut at the left and top edges. -/
def Circle.box (c : Circle) : Box :=
  let left := c.x - c.radius
  let left := if left < 1 then 1 else left
  let top := c.y - c.radius
  let top := if top < 1 then 1 else top
  let diameter := 2 * c.radius
  { left, top, width := diameter, height := diameter }

/-- `detectObjects`, from the circles of the frame on. -/
def detectObjects (circles : List Circle) : List (ℚ × ℚ) × List Box :=
  (circles.map fun c => (c.x, c.y), circles.map Circle.box)

/-- The round of `predictNewLocationsOfTracks` for one track: the box moves to the predicted
centre and keeps its size. -/
def Track.predicted (tb : Toolbox κ) (t : Track κ) : Track κ :=
  let (kalmanFilter, predictedCentroid) := tb.predict t.kalmanFilter
  { t with
    kalmanFilter
    bbox :=
      { t.bbox with
        left := predictedCentroid.1 - t.bbox.width / 2
        top := predictedCentroid.2 - t.bbox.height / 2 } }

def predictNewLocationsOfTracks (tb : Toolbox κ) (w : Workspace κ) : Workspace κ :=
  { w with tracks := w.tracks.map (Track.predicted tb) }

/-- The matching that `assignDetectionsToTracks` returns for the distances of all tracks to all
detections, with 20 as the cost of non-assignment. -/
def solveAssignment (tb : Toolbox κ) (tracks : List (Track κ)) (centroids : List (ℚ × ℚ)) :
    Matching tracks.length centroids.length :=
  let cost := tracks.map fun t => tb.distance t.kalmanFilter centroids
  let costOfNonAssignment := 20
  tb.assignDetectionsToTracks tracks.length centroids.length cost costOfNonAssignment

def detectionToTrackAssignment (tb : Toolbox κ) (w : Workspace κ) : Workspace κ :=
  let M := solveAssignment tb w.tracks w.centroids
  { w with
    assignments := M.pairs
    unassignedTracks := M.freeLeft
    unassignedDetections := M.freeRight }

/-- A track after it was matched with a detection. -/
def Track.matched (tb : Toolbox κ) (centroid : ℚ × ℚ) (bbox : Box) (t : Track κ) : Track κ :=
  { t with
    kalmanFilter := tb.correct t.kalmanFilter centroid
    bbox
    age := t.age + 1
    totalVisibleCount := t.totalVisibleCount + 1
    consecutiveInvisibleCount := 0 }

def updateAssignedTracks (tb : Toolbox κ) (w : Workspace κ) :
    Except MatlabError (Workspace κ) := do
  let tracks ← w.assignments.foldlM (fun tracks p =>
    modify .badIndex tracks p.1 fun track => do
      let centroid ← get .badIndex w.centroids p.2
      let bbox ← get .badIndex w.bboxes p.2
      pure (track.matched tb centroid bbox)) w.tracks
  pure { w with tracks }

/-- A track that no detection was matched with. -/
def Track.missed (t : Track κ) : Track κ :=
  { t with
    age := t.age + 1
    consecutiveInvisibleCount := t.consecutiveInvisibleCount + 1 }

def updateUnassignedTracks (w : Workspace κ) : Except MatlabError (Workspace κ) := do
  let tracks ← w.unassignedTracks.foldlM (fun tracks ind =>
    modify .badIndex tracks ind fun track => pure track.missed) w.tracks
  pure { w with tracks }

/-- `visibility`: the fraction of the track's age for which it was visible. -/
def Track.visibility (t : Track κ) : ℚ := t.totalVisibleCount / t.age

/-- An entry of `lostInds`. -/
def Track.lost (t : Track κ) : Bool :=
  let invisibleForTooLong := 15
  let ageThreshold := 8
  (decide (t.age < ageThreshold) && decide (t.visibility < 6 / 10)) ||
    decide (invisibleForTooLong ≤ t.consecutiveInvisibleCount)

def deleteLostTracks (w : Workspace κ) : Workspace κ :=
  if w.tracks.isEmpty then w else { w with tracks := w.tracks.filter fun t => !t.lost }

/-- The track made for a detection that no track was matched with. -/
def newTrack (tb : Toolbox κ) (id : Nat) (centroid : ℚ × ℚ) (bbox : Box) : Track κ where
  id := id
  bbox := bbox
  kalmanFilter := tb.configureKalmanFilter .constantVelocity centroid (200, 50) (100, 25) 100
  age := 1
  totalVisibleCount := 1
  consecutiveInvisibleCount := 0

/-- `createNewTracks` narrows the shared `centroids` and `bboxes` to the unassigned detections
and appends one track for each of them. -/
def createNewTracks (tb : Toolbox κ) (w : Workspace κ) : Except MatlabError (Workspace κ) := do
  let centroids ← gather .badIndex w.centroids w.unassignedDetections
  let bboxes ← gather .badIndex w.bboxes w.unassignedDetections
  pure <| (centroids.zip bboxes).foldl (fun w d =>
    { w with
      tracks := w.tracks ++ [newTrack tb w.nextId d.1 d.2]
      nextId := w.nextId + 1 }) { w with centroids, bboxes }

/-- `reliableTrackInds`: visible for more than `minVisibleCount` frames. -/
def Track.reliable (t : Track κ) : Bool :=
  let minVisibleCount := 8
  decide (minVisibleCount < t.totalVisibleCount)

/-- `displayTrackingResults`, without the drawing: when some track is reliable, the shared
`bboxes` become the boxes of the reliable tracks. -/
def displayTrackingResults (w : Workspace κ) : Workspace κ :=
  if w.tracks.isEmpty then w
  else
    let reliableTracks := w.tracks.filter Track.reliable
    if reliableTracks.isEmpty then w else { w with bboxes := reliableTracks.map Track.bbox }

/-- The loop that fills `everything`, from the counters `large_counter` and `medium_counter`. -/
def fillEverything (largeCounter mediumCounter : Nat) : List Box → List CupRow
  | [] => []
  | b :: bboxes =>
    if b.width / 2 > 26 then
      { left := b.left, top := b.top, cupType := 2, cupNumber := largeCounter + 1 } ::
        fillEverything (largeCounter + 1) mediumCounter bboxes
    else
      { left := b.left, top := b.top, cupType := 1, cupNumber := mediumCounter + 1 } ::
        fillEverything largeCounter (mediumCounter + 1) bboxes

/-! ## A frame, the loop and the call -/

/-- The calls made in a frame with detections. -/
def updateTracks (tb : Toolbox κ) (w : Workspace κ) : Except MatlabError (Workspace κ) := do
  let w := detectionToTrackAssignment tb w
  let w ← updateAssignedTracks tb w
  let w ← updateUnassignedTracks w
  createNewTracks tb (deleteLostTracks w)

/-- The frame up to and including the update of the tracks. -/
def trackFrame (fr : Frame κ) (w : Workspace κ) : Except MatlabError (Workspace κ) :=
  let (centroids, bboxes) := detectObjects fr.circles
  let w := predictNewLocationsOfTracks fr.toolbox { w with centroids, bboxes }
  if w.centroids.isEmpty then pure w else updateTracks fr.toolbox w

/-- The rest of the frame, up to the table. -/
def reportFrame (w : Workspace κ) : Workspace κ :=
  let w := displayTrackingResults w
  { w with everything := fillEverything 0 0 w.bboxes }

/-- One iteration of the loop of `multiObjectTracking_HC`. The metric positions are only
displayed, but looking them up can fail. -/
def loopIteration (xyzPoints : PointCloud) (w : Workspace κ) (fr : Frame κ) :
    Except MatlabError (Workspace κ) := do
  let w ← trackFrame fr w
  let w := reportFrame w
  let _Ev ← metric xyzPoints (w.everything.map fun r => (r.left, r.top))
  pure w

/-- The workspace before the first frame. -/
def loopStart : Workspace κ where
  tracks := initializeTracks
  nextId := 1

/-- `multiObjectTracking_HC` after the given frames. -/
def multiObjectTrackingHC (xyzPoints : PointCloud) (frames : List (Frame κ)) :
    Except MatlabError (Workspace κ) :=
  Run.run (loopIteration xyzPoints) loopStart frames

/-- The workspace of a call of `multiObjectTracking_HC_new` at its end. -/
def callWorkspace (fr : Frame κ) (trks : List (Track κ)) (Nid : Nat) :
    Except MatlabError (Workspace κ) := do
  let w ← trackFrame fr { tracks := trks, nextId := Nid }
  pure (reportFrame w)

/-- `multiObjectTracking_HC_new`: the tracks of the call are not returned. -/
def multiObjectTrackingHCNew (fr : Frame κ) (trks : List (Track κ)) (Nid : Nat) :
    Except MatlabError (Nat × List CupRow) := do
  let w ← callWorkspace fr trks Nid
  pure (w.nextId, w.everything)

end DrinkRobot
