import DrinkRobot.Lib.Mask
import DrinkRobot.Lib.Run
import DrinkRobot.Matlab
import DrinkRobot.Tracker.Model

/-!
# The cup tracker script

`cuptracker.m` finds a cup with a trained detector, gives the corner points in it to a point
tracker, and moves the cup's box with the points. It changes its mode by the number of points:
below ten it detects, from ten on it tracks.

* `Config`: the variables that the loop keeps from frame to frame. A variable that is not yet
  assigned is `none`, and so is the point tracker before its first `initialize`.
* `detectionMode`, `trackingMode`: the two branches; `iteration`: the loop body.
* `cuptracker`: the loop, for the frames it takes.

The Computer Vision Toolbox is a parameter (`View`): `step(pointTracker, ..)` gives one position and
one flag for each point (`Tracked`), `estimateGeometricTransform` a transformation and two parts of
its arguments of equal length (`Estimate`). `initialize` and `estimateGeometricTransform` may raise
any error. Not modelled: the camera, and the picture under the annotations.
-/

namespace DrinkRobot.CupTracker

/-- A row of an array of points. -/
abbrev Point := ℚ × ℚ

/-- What `step(pointTracker, ..)` returns for `n` points. -/
structure Tracked (n : Nat) where
  xyPoints : List Point
  isFound : List Bool
  length_xyPoints : xyPoints.length = n
  length_isFound : isFound.length = n

/-- What `estimateGeometricTransform` returns for two arrays of points. -/
structure Estimate (matchedPoints1 matchedPoints2 : List Point) where
  xform : Point → Point
  inlierPoints1 : List Point
  inlierPoints2 : List Point
  sublist1 : inlierPoints1.Sublist matchedPoints1
  sublist2 : inlierPoints2.Sublist matchedPoints2
  length_eq : inlierPoints1.length = inlierPoints2.length

/-- What the toolbox answers for one frame. -/
structure View where
  /-- `faceDetector.step(videoFrameGray)`. -/
  bbox : List Box
  /-- The `Location` of the features in a box. -/
  detectMinEigenFeatures : Box → List Point
  initializePointTracker : List Point → Except MatlabError Unit
  /-- `step(pointTracker, videoFrameGray)`, for the points the tracker was last given. -/
  stepPointTracker : (points : List Point) → Tracked points.length
  estimateGeometricTransform : (matchedPoints1 matchedPoints2 : List Point) →
    Except MatlabError (Estimate matchedPoints1 matchedPoints2)
  /-- `isOpen(videoPlayer)`, after the frame was shown. -/
  isOpen : Bool

structure Config where
  runLoop : Bool
  numPts : Nat
  frameCount : Nat
  /-- The points last given by `initialize` or `setPoints`. -/
  pointTracker : Option (List Point)
  oldPoints : Option (List Point)
  bboxPoints : Option (List Point)

/-- The annotations of a frame: the polygon and the markers. -/
structure Overlay where
  bboxPolygon : List ℚ
  markers : List Point
deriving DecidableEq

/-! ## The loop -/

/-- The four corners of a box, clockwise from the top left one. -/
def bbox2points (b : Box) : List Point :=
  [(b.left, b.top), (b.left + b.width, b.top), (b.left + b.width, b.top + b.height),
    (b.left, b.top + b.height)]

/-- `reshape(bboxPoints', 1, [])`. -/
def reshape (bboxPoints : List Point) : List ℚ := bboxPoints.flatMap fun p => [p.1, p.2]

/-- The branch for `numPts < 10`. -/
def detectionMode (c : Config) (v : View) : Except MatlabError (Config × Option Overlay) :=
  if !v.bbox.isEmpty && v.bbox.length == 2 then do
    let box ← OneBased.get .badIndex v.bbox 1
    let xyPoints := v.detectMinEigenFeatures box
    let numPts := xyPoints.length
    v.initializePointTracker xyPoints
    let bboxPoints := bbox2points box
    let bboxPolygon := reshape bboxPoints
    pure ({ c with
      numPts
      pointTracker := some xyPoints
      oldPoints := some xyPoints
      bboxPoints := some bboxPoints }, some { bboxPolygon, markers := xyPoints })
  else pure (c, none)

/-- The branch for `numPts >= 10`. -/
def trackingMode (c : Config) (v : View) : Except MatlabError (Config × Option Overlay) := do
  let points ← read "pointTracker" c.pointTracker
  let tracked := v.stepPointTracker points
  let visiblePoints ← Mask.select .badIndex tracked.xyPoints tracked.isFound
  let oldPoints ← read "oldPoints" c.oldPoints
  let oldInliers ← Mask.select .badIndex oldPoints tracked.isFound
  let numPts := visiblePoints.length
  if 10 ≤ numPts then do
    let estimate ← v.estimateGeometricTransform oldInliers visiblePoints
    let bboxPoints ← read "bboxPoints" c.bboxPoints
    let bboxPoints := bboxPoints.map estimate.xform
    let bboxPolygon := reshape bboxPoints
    let visiblePoints := estimate.inlierPoints2
    -- `setPoints` gives the tracker the inliers; `numPts` still counts the points before them
    pure ({ c with
      numPts
      pointTracker := some visiblePoints
      oldPoints := some visiblePoints
      bboxPoints := some bboxPoints }, some { bboxPolygon, markers := visiblePoints })
  else pure ({ c with numPts }, none)

/-- `if numPts < 10`. -/
def modeBranch (c : Config) (v : View) : Except MatlabError (Config × Option Overlay) :=
  if c.numPts < 10 then detectionMode c v else trackingMode c v

/-- The body of the loop; it reports the annotations of the frame shown. -/
def iteration (c : Config) (v : View) : Except MatlabError (Config × Option Overlay) := do
  let c := { c with frameCount := c.frameCount + 1 }
  let (c, shown) ← modeBranch c v
  pure ({ c with runLoop := v.isOpen }, shown)

/-- `while runLoop && frameCount < 4000` is over. -/
def halted (c : Config) : Bool := !(c.runLoop && decide (c.frameCount < 4000))

/-- The workspace before the loop. -/
def start : Config where
  runLoop := true
  numPts := 0
  frameCount := 0
  pointTracker := none
  oldPoints := none
  bboxPoints := none

/-- The loop, for the frames that the views allow. -/
def cuptracker (views : List View) : Except MatlabError (Config × List (Option Overlay)) :=
  Run.exec halted iteration start views

end DrinkRobot.CupTracker
