import DrinkRobot.Glass.CupTracker
import DrinkRobot.Lib.Simulation

/-!
# What the cup tracker follows

The script keeps the followed cup in four variables that it changes in different branches. Here it
is one value, `Followed`, that only the tracking mode has, and a frame is tracked on an array of
pairs, each of an old point with its new position.

* `Config.Models`: the variables of the script hold such a value. In tracking mode `oldPoints` is
  the array that the point tracker was last given; in detection mode nothing is required.
* `trackingMode_eq`: from there the two reads with the flags pair each old point with its own new
  position.
* `cuptracker_agrees`: so the script and `follow` show the same, or stop with the same error.
* `tracking_mode_pairs`: whenever the loop goes on in tracking mode, its arrays fit together.
* `cuptracker_error`: an error is always the toolbox's own, about arrays of equal length.
* `length_bboxPolygon`, `cuptracker_ends`: what is shown, and that the loop ends.
-/

namespace DrinkRobot.CupTracker

open Simulation

/-! ## Following a cup -/

/-- A followed cup: its points and the corners of its box. -/
structure Followed where
  points : List Point
  corners : List Point
  length_corners : corners.length = 4

/-- The modes of the loop. -/
inductive Mode where
  | detection
  | tracking (cup : Followed)

namespace Followed

/-- The cup found in `box`. -/
def detected (box : Box) (points : List Point) : Followed where
  points := points
  corners := bbox2points box
  length_corners := rfl

/-- The cup moved by `xform`. -/
def moved (cup : Followed) (xform : Point → Point) (points : List Point) : Followed where
  points := points
  corners := cup.corners.map xform
  length_corners := by rw [List.length_map, cup.length_corners]

/-- The points found again, each with its new position. -/
def pairs (cup : Followed) (v : View) : List (Point × Point) :=
  let tracked := v.stepPointTracker cup.points
  Mask.kept (cup.points.zip tracked.xyPoints) tracked.isFound

def overlay (cup : Followed) : Overlay where
  bboxPolygon := reshape cup.corners
  markers := cup.points

end Followed

/-- A frame in which a cup is looked for: with two boxes, the first is taken. -/
def lookFor (v : View) : Except MatlabError (Mode × Option Overlay) :=
  match v.bbox with
  | [box, _] => do
    v.initializePointTracker (v.detectMinEigenFeatures box)
    let cup := Followed.detected box (v.detectMinEigenFeatures box)
    pure (if 10 ≤ cup.points.length then .tracking cup else .detection, some cup.overlay)
  | _ => pure (.detection, none)

/-- A frame in which the cup is followed, if enough of its points are found again. -/
def Followed.track (cup : Followed) (v : View) : Except MatlabError (Mode × Option Overlay) :=
  if 10 ≤ (cup.pairs v).length then do
    let estimate ← v.estimateGeometricTransform ((cup.pairs v).map Prod.fst)
      ((cup.pairs v).map Prod.snd)
    let cup := cup.moved estimate.xform estimate.inlierPoints2
    pure (.tracking cup, some cup.overlay)
  else pure (.detection, none)

/-- One frame: the next mode and the annotations shown. -/
def Mode.next (mode : Mode) (v : View) : Except MatlabError (Mode × Option Overlay) :=
  match mode with
  | .detection => lookFor v
  | .tracking cup => cup.track v

structure Follower where
  mode : Mode
  runLoop : Bool
  frameCount : Nat

def Follower.next (f : Follower) (v : View) : Except MatlabError (Follower × Option Overlay) := do
  let (mode, shown) ← f.mode.next v
  pure ({ mode, runLoop := v.isOpen, frameCount := f.frameCount + 1 }, shown)

def Follower.halted (f : Follower) : Bool := !(f.runLoop && decide (f.frameCount < 4000))

def followStart : Follower where
  mode := .detection
  runLoop := true
  frameCount := 0

/-- Cups are looked for and followed, for the frames that the views allow. -/
def follow (views : List View) : Except MatlabError (Follower × List (Option Overlay)) :=
  Run.exec Follower.halted Follower.next followStart views

/-! ## The variables of the script -/

/-- The variables of the script in each mode. -/
def Config.Models (c : Config) : Mode → Prop
  | .detection => c.numPts < 10
  | .tracking cup =>
    10 ≤ c.numPts ∧ c.pointTracker = some cup.points ∧ c.oldPoints = some cup.points ∧
      c.bboxPoints = some cup.corners

/-- The script is in the state of the follower. -/
structure Config.Refines (c : Config) (f : Follower) : Prop where
  mode : c.Models f.mode
  runLoop : c.runLoop = f.runLoop
  frameCount : c.frameCount = f.frameCount

theorem Config.Models.numPts_lt {c : Config} (h : c.Models .detection) : c.numPts < 10 := h

/-- The count of the frames and the end of the loop do not matter to the mode. -/
theorem Config.Models.frame {c : Config} {mode : Mode} (h : c.Models mode) (runLoop : Bool)
    (frameCount : Nat) : ({ c with runLoop, frameCount } : Config).Models mode := by
  cases mode with
  | detection => exact h
  | tracking cup => exact h

/-- The mode is the one that the test of `numPts` takes. -/
theorem Config.Models.tracking {c : Config} {mode : Mode} (h : c.Models mode)
    (hpts : 10 ≤ c.numPts) : ∃ cup, mode = .tracking cup := by
  cases mode with
  | detection => exact absurd h.numPts_lt (by omega)
  | tracking cup => exact ⟨cup, rfl⟩

/-! ## The pairs -/

section Pairs

variable (cup : Followed) (v : View)

theorem length_points :
    cup.points.length = (v.stepPointTracker cup.points).isFound.length :=
  (v.stepPointTracker cup.points).length_isFound.symm

theorem length_positions :
    (v.stepPointTracker cup.points).xyPoints.length =
      (v.stepPointTracker cup.points).isFound.length :=
  (v.stepPointTracker cup.points).length_xyPoints.trans (length_points cup v)

/-- The rows of `oldPoints` and of the positions with a flag are equally many. -/
theorem length_kept_eq :
    (Mask.kept cup.points (v.stepPointTracker cup.points).isFound).length =
      (Mask.kept (v.stepPointTracker cup.points).xyPoints
        (v.stepPointTracker cup.points).isFound).length := by
  rw [Mask.length_kept (length_points cup v), Mask.length_kept (length_positions cup v)]

theorem pairs_eq :
    cup.pairs v = (Mask.kept cup.points (v.stepPointTracker cup.points).isFound).zip
      (Mask.kept (v.stepPointTracker cup.points).xyPoints
        (v.stepPointTracker cup.points).isFound) :=
  Mask.kept_zip (length_points cup v) (length_positions cup v)

theorem select_oldPoints :
    Mask.select MatlabError.badIndex cup.points (v.stepPointTracker cup.points).isFound =
      .ok ((cup.pairs v).map Prod.fst) := by
  rw [Mask.select_eq _ (length_points cup v).ge, pairs_eq, List.map_fst_zip (length_kept_eq cup v).le]

theorem select_positions :
    Mask.select MatlabError.badIndex (v.stepPointTracker cup.points).xyPoints
      (v.stepPointTracker cup.points).isFound = .ok ((cup.pairs v).map Prod.snd) := by
  rw [Mask.select_eq _ (length_positions cup v).ge, pairs_eq,
    List.map_snd_zip (length_kept_eq cup v).ge]

end Pairs

/-! ## The branches -/

/-- In tracking mode the branch works on the pairs. -/
theorem trackingMode_eq {c : Config} {cup : Followed} (h : c.Models (.tracking cup)) (v : View) :
    trackingMode c v =
      if 10 ≤ (cup.pairs v).length then do
        let estimate ← v.estimateGeometricTransform ((cup.pairs v).map Prod.fst)
          ((cup.pairs v).map Prod.snd)
        let cup' := cup.moved estimate.xform estimate.inlierPoints2
        pure ({ c with
          numPts := (cup.pairs v).length
          pointTracker := some cup'.points
          oldPoints := some cup'.points
          bboxPoints := some cup'.corners }, some cup'.overlay)
      else pure ({ c with numPts := (cup.pairs v).length }, none) := by
  obtain ⟨-, hpoints, hold, hcorners⟩ := h
  unfold trackingMode
  rw [hpoints, hold, hcorners]
  show (Mask.select _ _ _ >>= fun visiblePoints => _) = _
  rw [select_positions]
  show (Mask.select _ _ _ >>= fun oldInliers => _) = _
  rw [select_oldPoints]
  show (if 10 ≤ ((cup.pairs v).map Prod.snd).length then _ else _) = _
  rw [List.length_map]
  rfl

/-- The two rows of the detector's test, and its first row. -/
theorem detectionMode_eq (c : Config) (v : View) :
    detectionMode c v =
      match v.bbox with
      | [box, _] => do
        v.initializePointTracker (v.detectMinEigenFeatures box)
        let cup := Followed.detected box (v.detectMinEigenFeatures box)
        pure ({ c with
          numPts := cup.points.length
          pointTracker := some cup.points
          oldPoints := some cup.points
          bboxPoints := some cup.corners }, some cup.overlay)
      | _ => pure (c, none) := by
  unfold detectionMode
  match v.bbox with
  | [] => rfl
  | [_] => rfl
  | [_, _] => rfl
  | _ :: _ :: _ :: _ => rfl

/-- The variables after a branch, which leaves the count of the frames. -/
def ModelsAt (n : Nat) (c : Config) (mode : Mode) : Prop := c.Models mode ∧ c.frameCount = n

theorem detectionMode_agrees {c : Config} (h : c.numPts < 10) (v : View) :
    Agree (Same (ModelsAt c.frameCount)) (detectionMode c v) (lookFor v) := by
  rw [detectionMode_eq]
  unfold lookFor
  match v.bbox with
  | [] => exact ⟨⟨h, rfl⟩, rfl⟩
  | [_] => exact ⟨⟨h, rfl⟩, rfl⟩
  | _ :: _ :: _ :: _ => exact ⟨⟨h, rfl⟩, rfl⟩
  | [box, _] =>
    refine (Agree.refl (R := Eq) (fun _ => rfl) _).bind fun _ _ _ => ⟨⟨?_, rfl⟩, rfl⟩
    show Config.Models _ (if 10 ≤ (Followed.detected box _).points.length then _ else _)
    split
    · rename_i hpts
      exact ⟨hpts, rfl, rfl, rfl⟩
    · rename_i hpts
      exact Nat.lt_of_not_le hpts

theorem trackingMode_agrees {c : Config} {cup : Followed} (h : c.Models (.tracking cup))
    (v : View) : Agree (Same (ModelsAt c.frameCount)) (trackingMode c v) (cup.track v) := by
  rw [trackingMode_eq h]
  unfold Followed.track
  by_cases hpts : 10 ≤ (cup.pairs v).length
  · rw [if_pos hpts, if_pos hpts]
    refine (Agree.refl (R := Eq) (fun _ => rfl) _).bind fun estimate _ he => ?_
    subst he
    -- `numPts` is the number of pairs, though only the inliers are kept
    exact ⟨⟨⟨hpts, rfl, rfl, rfl⟩, rfl⟩, rfl⟩
  · rw [if_neg hpts, if_neg hpts]
    exact ⟨⟨Nat.lt_of_not_le hpts, rfl⟩, rfl⟩

theorem modeBranch_agrees {c : Config} {mode : Mode} (h : c.Models mode) (v : View) :
    Agree (Same (ModelsAt c.frameCount)) (modeBranch c v) (mode.next v) := by
  unfold modeBranch
  cases mode with
  | detection =>
    rw [if_pos h.numPts_lt]
    exact detectionMode_agrees h v
  | tracking cup =>
    rw [if_neg (Nat.not_lt.mpr h.1)]
    exact trackingMode_agrees h v

/-- One iteration of the script is one frame of the follower. -/
theorem iteration_agrees {c : Config} {f : Follower} (h : c.Refines f) (v : View) :
    Agree (Same Config.Refines) (iteration c v) (f.next v) := by
  have hbranch := modeBranch_agrees (h.mode.frame c.runLoop (c.frameCount + 1)) v
  refine hbranch.bind fun p q hpq => ?_
  obtain ⟨⟨hmode, hcount⟩, hshown⟩ := hpq
  refine ⟨⟨hmode.frame v.isOpen p.1.frameCount, rfl, ?_⟩, hshown⟩
  exact hcount.trans (congrArg (· + 1) h.frameCount)

/-! ## The loop -/

theorem halted_eq {c : Config} {f : Follower} (h : c.Refines f) : halted c = f.halted := by
  unfold halted Follower.halted
  rw [h.runLoop, h.frameCount]

theorem start_refines : start.Refines followStart where
  mode := Nat.zero_lt_succ 9
  runLoop := rfl
  frameCount := rfl

/-- **The script follows a cup.** For the same views, the script and the follower show the same
annotations and stop with the same error. -/
theorem cuptracker_agrees (views : List View) :
    Agree (Same Config.Refines) (cuptracker views) (follow views) :=
  exec_agree (fun _ _ h => halted_eq h) (fun _ _ v h _ => iteration_agrees h v) start_refines views

theorem cuptracker_ok {views : List View} {c : Config} {shown : List (Option Overlay)}
    (h : cuptracker views = .ok (c, shown)) :
    ∃ f, follow views = .ok (f, shown) ∧ c.Refines f := by
  have hagrees := cuptracker_agrees views
  rw [h] at hagrees
  obtain ⟨⟨f, shown'⟩, hfollow, hrefines, hshown⟩ := hagrees.of_ok
  cases hshown
  exact ⟨f, hfollow, hrefines⟩

/-! ## The tracking mode -/

/-- The reads with the flags of a view, `oldPoints(isFound, :)` and `xyPoints(isFound, :)`, are in
bounds and of equal size, and row by row they are an old point and the position at its own index. -/
def PairsUp (oldPoints : List Point) (v : View) : Prop :=
  let tracked := v.stepPointTracker oldPoints
  ∃ oldInliers visiblePoints,
    Mask.select MatlabError.badIndex oldPoints tracked.isFound = .ok oldInliers ∧
    Mask.select MatlabError.badIndex tracked.xyPoints tracked.isFound = .ok visiblePoints ∧
    oldInliers.length = visiblePoints.length ∧
    oldInliers.zip visiblePoints = Mask.kept (oldPoints.zip tracked.xyPoints) tracked.isFound

theorem Followed.pairsUp (cup : Followed) (v : View) : PairsUp cup.points v := by
  refine ⟨_, _, select_oldPoints cup v, select_positions cup v, ?_, ?_⟩
  · rw [List.length_map, List.length_map]
  · exact (List.zip_of_prod rfl rfl).symm

/-- **The tracking mode.** In every run, whenever the loop goes on in tracking mode, `oldPoints` is
the array that the point tracker was last given, `bboxPoints` is set, and whatever the next frame
gives, the reads with its flags pair each old point with its own new position. -/
theorem tracking_mode_pairs (views : List View) (c : Config) (shown : List (Option Overlay))
    (h : cuptracker views = .ok (c, shown)) (hmode : 10 ≤ c.numPts) :
    ∃ oldPoints bboxPoints, c.oldPoints = some oldPoints ∧ c.pointTracker = some oldPoints ∧
      c.bboxPoints = some bboxPoints ∧ ∀ v, PairsUp oldPoints v := by
  obtain ⟨f, -, hrefines⟩ := cuptracker_ok h
  obtain ⟨cup, hcup⟩ := hrefines.mode.tracking hmode
  have hmodels := hrefines.mode
  rw [hcup] at hmodels
  obtain ⟨-, hpoints, hold, hcorners⟩ := hmodels
  exact ⟨cup.points, cup.corners, hold, hpoints, hcorners, cup.pairsUp⟩

/-- A still cup with eleven corner points, of which the first is lost and three fit. -/
def stillCup : View where
  bbox := [⟨1, 1, 20, 20⟩, ⟨50, 1, 20, 20⟩]
  detectMinEigenFeatures _ := (List.range 11).map fun i => (i, 5)
  initializePointTracker _ := .ok ()
  stepPointTracker points :=
    { xyPoints := points
      isFound := (List.range points.length).map fun i => i != 0
      length_xyPoints := rfl
      length_isFound := by simp }
  estimateGeometricTransform matchedPoints1 matchedPoints2 :=
    if h : matchedPoints1.length = matchedPoints2.length then .ok
      { xform := id
        inlierPoints1 := matchedPoints1.take 3
        inlierPoints2 := matchedPoints2.take 3
        sublist1 := List.take_sublist _ _
        sublist2 := List.take_sublist _ _
        length_eq := by rw [List.length_take, List.length_take, h] }
    else .error .dimensionMismatch
  isOpen := true

/-- After a frame of detection and a frame of tracking there are three points left, and the loop is
still in tracking mode. -/
theorem tracking_mode_pairs_still :
    ∃ c shown, cuptracker [stillCup, stillCup] = .ok (c, shown) ∧ c.numPts = 10 ∧
      c.oldPoints = some [(1, 5), (2, 5), (3, 5)] ∧
      ∃ oldPoints bboxPoints, c.oldPoints = some oldPoints ∧ c.pointTracker = some oldPoints ∧
        c.bboxPoints = some bboxPoints ∧ ∀ v, PairsUp oldPoints v :=
  ⟨_, _, rfl, rfl, rfl, tracking_mode_pairs [stillCup, stillCup] _ _ rfl (by decide)⟩

/-! ## Errors -/

/-- The toolbox raises `e` for a view: when it is given the points of a detection, or two arrays of
equal length. -/
def View.Raises (v : View) (e : MatlabError) : Prop :=
  (∃ points, v.initializePointTracker points = .error e) ∨
  ∃ matchedPoints1 matchedPoints2 : List Point, matchedPoints1.length = matchedPoints2.length ∧
    v.estimateGeometricTransform matchedPoints1 matchedPoints2 = .error e

/-- What a frame can do: show nothing and look for a cup, stop with an error of the toolbox, or show
a followed cup. -/
theorem Mode.next_cases (mode : Mode) (v : View) :
    mode.next v = .ok (.detection, none) ∨ (∃ e, v.Raises e ∧ mode.next v = .error e) ∨
      ∃ mode' cup, mode.next v = .ok (mode', some (Followed.overlay cup)) := by
  cases mode with
  | detection =>
    show lookFor v = _ ∨ (∃ e, _ ∧ lookFor v = _) ∨ ∃ _ _, lookFor v = _
    unfold lookFor
    split
    · rename_i box _ _
      cases hinit : v.initializePointTracker (v.detectMinEigenFeatures box) with
      | error e => exact .inr (.inl ⟨e, .inl ⟨_, hinit⟩, rfl⟩)
      | ok _ => exact .inr (.inr ⟨_, _, rfl⟩)
    · exact .inl rfl
  | tracking cup =>
    show cup.track v = _ ∨ (∃ e, _ ∧ cup.track v = _) ∨ ∃ _ _, cup.track v = _
    unfold Followed.track
    split
    · cases hest : v.estimateGeometricTransform ((cup.pairs v).map Prod.fst)
        ((cup.pairs v).map Prod.snd) with
      | error e =>
        exact .inr (.inl ⟨e, .inr ⟨_, _, by rw [List.length_map, List.length_map], hest⟩, rfl⟩)
      | ok estimate => exact .inr (.inr ⟨_, _, rfl⟩)
    · exact .inl rfl

/-- **The script raises no error of its own.** When it stops with an error, it is one that the
toolbox raised for one of the frames; no read is out of bounds and no variable is missing. -/
theorem cuptracker_error {views : List View} {e : MatlabError} (h : cuptracker views = .error e) :
    ∃ v ∈ views, v.Raises e := by
  have hagrees := cuptracker_agrees views
  rw [h] at hagrees
  obtain ⟨f, v, hv, hnext⟩ := Run.exec_error hagrees.of_error
  rcases Run.bind_error.mp hnext with hmode | ⟨_, -, hnext⟩
  · refine ⟨v, hv, ?_⟩
    rcases f.mode.next_cases v with hno | ⟨e', hraises, he⟩ | ⟨_, _, hshow⟩
    · rw [hno] at hmode
      cases hmode
    · rw [he] at hmode
      cases hmode
      exact hraises
    · rw [hshow] at hmode
      cases hmode
  · cases hnext

/-! ## What is shown -/

theorem length_reshape (ps : List Point) : (reshape ps).length = ps.length * 2 := by
  induction ps with
  | nil => rfl
  | cons p ps ih =>
    show (p.1 :: p.2 :: reshape ps).length = (p :: ps).length * 2
    simp only [List.length_cons, ih]
    omega

/-- Every polygon shown is `[x1 y1 x2 y2 x3 y3 x4 y4]`. -/
theorem length_bboxPolygon {views : List View} {c : Config} {shown : List (Option Overlay)}
    (h : cuptracker views = .ok (c, shown)) {o : Overlay} (ho : some o ∈ shown) :
    o.bboxPolygon.length = 8 := by
  obtain ⟨f, hfollow, -⟩ := cuptracker_ok h
  obtain ⟨k, hk⟩ := List.mem_iff_getElem?.mp ho
  obtain ⟨m, v, m', -, -, -, hnext, -⟩ := Run.exec_at hfollow hk
  obtain ⟨⟨mode, shown'⟩, hmode, hnext⟩ := Run.bind_ok.mp hnext
  cases hnext
  rcases m.mode.next_cases v with hno | ⟨e, -, he⟩ | ⟨_, cup, hshow⟩
  · rw [hno] at hmode
    cases hmode
  · rw [he] at hmode
    cases hmode
  · rw [hshow] at hmode
    cases hmode
    show (reshape cup.corners).length = 8
    rw [length_reshape, cup.length_corners]

/-- One frame is shown for each frame taken, and there are at most 4000. -/
theorem frameCount_eq {views : List View} {c : Config} {shown : List (Option Overlay)}
    (h : cuptracker views = .ok (c, shown)) :
    c.frameCount = shown.length ∧ c.frameCount ≤ 4000 := by
  obtain ⟨f, hfollow, hrefines⟩ := cuptracker_ok h
  rw [hrefines.frameCount]
  have hcount := Run.exec_history
    (R := fun log (f : Follower) => f.frameCount = log.length ∧ f.frameCount ≤ 4000)
    (fun log f v f' shown hR hhalt hnext => by
      obtain ⟨_, -, hnext⟩ := Run.bind_ok.mp hnext
      cases hnext
      simp only [Follower.halted, Bool.not_eq_false', Bool.and_eq_true, decide_eq_true_eq] at hhalt
      rw [List.length_append, List.length_singleton]
      exact ⟨congrArg (· + 1) hR.1, hhalt.2⟩)
    [] ⟨rfl, Nat.zero_le _⟩ hfollow
  rwa [List.nil_append, List.length_zip, Nat.min_eq_left (Run.exec_length_le hfollow)] at hcount

/-- **The loop ends.** When there are 4000 frames to take, a run without an error has halted. -/
theorem cuptracker_ends {views : List View} (hviews : 4000 ≤ views.length) {c : Config}
    {shown : List (Option Overlay)} (h : cuptracker views = .ok (c, shown)) : halted c = true := by
  rcases Run.exec_length h with hhalt | hlen
  · exact hhalt
  · have hcount := (frameCount_eq h).1
    have hend : ¬ c.frameCount < 4000 := by omega
    simp [halted, hend]

end DrinkRobot.CupTracker
