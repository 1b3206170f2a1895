import DrinkRobot.Tracker.Model

/-!
# What one frame does to the tracks

The tracker's nested functions walk index arrays over the shared variables. Here a frame is
brought to closed form: with `M` the matching of the frame,

* every track is predicted, then matched with its detection or missed (`advanced`),
* the lost ones are deleted (`survivors`),
* one new track is appended for each unassigned detection (`fresh`).

`trackFrame_eq`: the frame raises no error and does exactly this, and `bboxes` is left as the
boxes of the unassigned detections. Everything below about the tracker starts from it.
-/

namespace DrinkRobot

open OneBased

variable {κ : Type}

/-- A row of `centroids`. -/
def Circle.centre (c : Circle) : ℚ × ℚ := (c.x, c.y)

/-- The value of `seen` outside the detections. -/
def noCircle : Circle := ⟨0, 0, 0⟩

/-- Detection `d` of a frame. -/
def seen (circles : List Circle) (d : Nat) : Circle := nth noCircle circles d

/-- What the frame does to track `i`, apart from deleting it. -/
def stepTrack {n m : Nat} (tb : Toolbox κ) (circles : List Circle) (M : Matching n m) (i : Nat)
    (t : Track κ) : Track κ :=
  match M.rightOf i with
  | some d => t.matched tb (seen circles d).centre (seen circles d).box
  | none => t.missed

/-- The tracks after `updateAssignedTracks` and `updateUnassignedTracks`. -/
def advanced {n m : Nat} (tb : Toolbox κ) (circles : List Circle) (M : Matching n m)
    (tracks : List (Track κ)) : List (Track κ) :=
  tracks.mapIdx fun j t => stepTrack tb circles M (j + 1) t

/-- The tracks after `deleteLostTracks`. -/
def survivors {n m : Nat} (tb : Toolbox κ) (circles : List Circle) (M : Matching n m)
    (tracks : List (Track κ)) : List (Track κ) :=
  (advanced tb circles M tracks).filter fun t => !t.lost

/-- The tracks made by `createNewTracks` for the detections `cs`. -/
def fresh (tb : Toolbox κ) (nextId : Nat) (cs : List Circle) : List (Track κ) :=
  cs.mapIdx fun k c => newTrack tb (nextId + k) c.centre c.box

@[simp] theorem length_fresh (tb : Toolbox κ) (nextId : Nat) (cs : List Circle) :
    (fresh tb nextId cs).length = cs.length := by
  simp [fresh]

theorem detectObjects_eq (circles : List Circle) :
    detectObjects circles = (circles.map Circle.centre, circles.map Circle.box) := rfl

/-! ## The nested functions -/

theorem updateAssignedTracks_eq {tb : Toolbox κ} {w : Workspace κ} {circles : List Circle}
    {n m : Nat} {M : Matching n m} (hn : w.tracks.length = n) (hm : circles.length = m)
    (hc : w.centroids = circles.map Circle.centre) (hb : w.bboxes = circles.map Circle.box)
    (hM : w.assignments = M.pairs) :
    updateAssignedTracks tb w = .ok { w with
      tracks := w.tracks.mapIdx fun j t =>
        match M.rightOf (j + 1) with
        | some d => t.matched tb (seen circles d).centre (seen circles d).box
        | none => t } := by
  have hnd : (M.pairs.map Prod.fst).Nodup := (List.nodup_append.mp M.nodup_left).1
  have hread : ∀ p ∈ M.pairs, ∀ t : Track κ,
      (do let centroid ← get .badIndex w.centroids p.2
          let bbox ← get .badIndex w.bboxes p.2
          pure (t.matched tb centroid bbox) : Except MatlabError (Track κ)) =
        .ok (t.matched tb (seen circles p.2).centre (seen circles p.2).box) := by
    intro p hp t
    have hv := M.valid_right hp
    rw [← hm] at hv
    rw [hc, hb, get_of_valid _ noCircle.centre (by simpa using hv),
      get_of_valid _ noCircle.box (by simpa using hv), nth_map, nth_map]
    rfl
  unfold updateAssignedTracks
  rw [hM, foldlM_modify hnd (fun p hp => hn ▸ M.valid_left hp) hread]
  simp only [Except.bind, bind, pure, Except.pure]
  congr 2
  refine List.ext_getElem (by simp) fun j h1 h2 => ?_
  simp only [List.getElem_mapIdx, Matching.rightOf]
  cases M.pairs.find? (fun p => p.1 == j + 1) <;> rfl

theorem updateUnassignedTracks_eq {w : Workspace κ} {n m : Nat} {M : Matching n m}
    (hn : w.tracks.length = n) (hM : w.unassignedTracks = M.freeLeft) :
    updateUnassignedTracks w = .ok { w with
      tracks := w.tracks.mapIdx fun j t =>
        match M.rightOf (j + 1) with
        | some _ => t
        | none => t.missed } := by
  have hnd : (M.freeLeft.map fun i => i).Nodup := by
    rw [List.map_id']; exact (List.nodup_append.mp M.nodup_left).2.1
  unfold updateUnassignedTracks
  rw [hM, foldlM_modify (f := fun _ (t : Track κ) => pure t.missed) (g := fun _ t => t.missed) hnd
    (fun i hi => hn ▸ M.valid_freeLeft hi) fun _ _ t => rfl]
  simp only [Except.bind, bind, pure, Except.pure]
  congr 2
  refine List.ext_getElem (by simp) fun j h1 h2 => ?_
  have hj : Valid n (j + 1) := ⟨by omega, by simp at h1; omega⟩
  simp only [List.getElem_mapIdx, M.find?_freeLeft hj]
  cases M.rightOf (j + 1) with
  | some d => rfl
  | none => rfl

theorem deleteLostTracks_eq (w : Workspace κ) :
    deleteLostTracks w = { w with tracks := w.tracks.filter fun t => !t.lost } := by
  unfold deleteLostTracks
  split
  · rename_i h
    rw [List.isEmpty_iff] at h
    rw [h, List.filter_nil, ← h]
  · rfl

/-- The loop of `createNewTracks`. -/
theorem foldl_newTrack (tb : Toolbox κ) (cs : List Circle) (w : Workspace κ) :
    ((cs.map Circle.centre).zip (cs.map Circle.box)).foldl (fun w d =>
      { w with
        tracks := w.tracks ++ [newTrack tb w.nextId d.1 d.2]
        nextId := w.nextId + 1 }) w =
      { w with
        tracks := w.tracks ++ fresh tb w.nextId cs
        nextId := w.nextId + cs.length } := by
  induction cs generalizing w with
  | nil => simp [fresh]
  | cons c cs ih =>
    rw [List.map_cons, List.map_cons, List.zip_cons_cons, List.foldl_cons, ih]
    have hadd : ∀ k, w.nextId + 1 + k = w.nextId + (k + 1) := fun k => by omega
    simp [fresh, List.mapIdx_cons, hadd]

theorem createNewTracks_eq {tb : Toolbox κ} {w : Workspace κ} {circles : List Circle}
    (hc : w.centroids = circles.map Circle.centre) (hb : w.bboxes = circles.map Circle.box)
    (hv : ∀ d ∈ w.unassignedDetections, Valid circles.length d) :
    createNewTracks tb w =
      (let cs := w.unassignedDetections.map (seen circles)
       .ok { w with
        tracks := w.tracks ++ fresh tb w.nextId cs
        nextId := w.nextId + cs.length
        centroids := cs.map Circle.centre
        bboxes := cs.map Circle.box }) := by
  unfold createNewTracks
  rw [hc, hb, gather_ok _ noCircle.centre (by simpa using hv),
    gather_ok _ noCircle.box (by simpa using hv)]
  have e1 : w.unassignedDetections.map (nth noCircle.centre (circles.map Circle.centre)) =
      (w.unassignedDetections.map (seen circles)).map Circle.centre := by
    simp [seen, nth_map]
  have e2 : w.unassignedDetections.map (nth noCircle.box (circles.map Circle.box)) =
      (w.unassignedDetections.map (seen circles)).map Circle.box := by
    simp [seen, nth_map]
  rw [e1, e2]
  simp only [Except.bind, bind, pure, Except.pure, foldl_newTrack]

/-! ## The frame -/

/-- The tracks of the frame after the prediction. -/
def predictedTracks (fr : Frame κ) (w : Workspace κ) : List (Track κ) :=
  w.tracks.map (Track.predicted fr.toolbox)

/-- The matching of the frame. -/
def frameMatching (fr : Frame κ) (w : Workspace κ) :
    Matching (predictedTracks fr w).length (fr.circles.map Circle.centre).length :=
  solveAssignment fr.toolbox (predictedTracks fr w) (fr.circles.map Circle.centre)

/-- The unassigned detections of the frame. -/
def unassigned (fr : Frame κ) (w : Workspace κ) : List Circle :=
  (frameMatching fr w).freeRight.map (seen fr.circles)

/-- The tracks after `updateAssignedTracks` and `updateUnassignedTracks` in the frame. -/
def advancedTracks (fr : Frame κ) (w : Workspace κ) : List (Track κ) :=
  advanced fr.toolbox fr.circles (frameMatching fr w) (predictedTracks fr w)

/-- The tracks after `deleteLostTracks` in the frame. -/
def survivingTracks (fr : Frame κ) (w : Workspace κ) : List (Track κ) :=
  survivors fr.toolbox fr.circles (frameMatching fr w) (predictedTracks fr w)

/-- The workspace after a frame with detections. -/
def afterDetections (fr : Frame κ) (w : Workspace κ) : Workspace κ :=
  { w with
    tracks := survivingTracks fr w ++ fresh fr.toolbox w.nextId (unassigned fr w)
    nextId := w.nextId + (unassigned fr w).length
    centroids := (unassigned fr w).map Circle.centre
    bboxes := (unassigned fr w).map Circle.box
    assignments := (frameMatching fr w).pairs
    unassignedTracks := (frameMatching fr w).freeLeft
    unassignedDetections := (frameMatching fr w).freeRight }

/-- The workspace after a frame without detections. -/
def afterNone (fr : Frame κ) (w : Workspace κ) : Workspace κ :=
  { w with tracks := predictedTracks fr w, centroids := [], bboxes := [] }

theorem advanced_comp {n m : Nat} (tb : Toolbox κ) (circles : List Circle) (M : Matching n m)
    (tracks : List (Track κ)) :
    (tracks.mapIdx fun j t =>
        match M.rightOf (j + 1) with
        | some d => t.matched tb (seen circles d).centre (seen circles d).box
        | none => t).mapIdx (fun j t =>
        match M.rightOf (j + 1) with
        | some _ => t
        | none => t.missed) = advanced tb circles M tracks := by
  refine List.ext_getElem (by simp [advanced]) fun j h1 h2 => ?_
  simp only [List.getElem_mapIdx, advanced, stepTrack]
  cases M.rightOf (j + 1) <;> rfl

/-- The calls of a frame with detections that come before `deleteLostTracks`. -/
def ageTracks (tb : Toolbox κ) (w : Workspace κ) : Except MatlabError (Workspace κ) := do
  let w := detectionToTrackAssignment tb w
  let w ← updateAssignedTracks tb w
  updateUnassignedTracks w

theorem updateTracks_eq_bind (tb : Toolbox κ) (w : Workspace κ) :
    updateTracks tb w =
      (do let w ← ageTracks tb w
          createNewTracks tb (deleteLostTracks w)) := by
  unfold updateTracks ageTracks
  simp only [bind_assoc]

theorem ageTracks_eq {tb : Toolbox κ} {w : Workspace κ} (circles : List Circle)
    (hc : w.centroids = circles.map Circle.centre) (hb : w.bboxes = circles.map Circle.box) :
    ageTracks tb w =
      (let M := solveAssignment tb w.tracks w.centroids
       .ok { w with
        tracks := advanced tb circles M w.tracks
        assignments := M.pairs
        unassignedTracks := M.freeLeft
        unassignedDetections := M.freeRight }) := by
  have hm : circles.length = w.centroids.length := by rw [hc, List.length_map]
  unfold ageTracks detectionToTrackAssignment
  simp only
  generalize solveAssignment tb w.tracks w.centroids = M
  rw [updateAssignedTracks_eq (M := M) (w := { w with
    assignments := M.pairs
    unassignedTracks := M.freeLeft
    unassignedDetections := M.freeRight }) rfl hm hc hb rfl]
  show updateUnassignedTracks _ = _
  rw [updateUnassignedTracks_eq (M := M) (by simp) rfl]
  simp only [advanced_comp]

/-- The calls of a frame with detections, with `M` the matching they compute. -/
theorem updateTracks_eq {tb : Toolbox κ} {w : Workspace κ} {circles : List Circle}
    (hc : w.centroids = circles.map Circle.centre) (hb : w.bboxes = circles.map Circle.box) :
    updateTracks tb w =
      (let M := solveAssignment tb w.tracks w.centroids
       let cs := M.freeRight.map (seen circles)
       .ok { w with
        tracks := survivors tb circles M w.tracks ++ fresh tb w.nextId cs
        nextId := w.nextId + cs.length
        centroids := cs.map Circle.centre
        bboxes := cs.map Circle.box
        assignments := M.pairs
        unassignedTracks := M.freeLeft
        unassignedDetections := M.freeRight }) := by
  have hm : circles.length = w.centroids.length := by rw [hc, List.length_map]
  rw [updateTracks_eq_bind, ageTracks_eq _ hc hb]
  generalize solveAssignment tb w.tracks w.centroids = M
  show createNewTracks tb (deleteLostTracks _) = _
  rw [deleteLostTracks_eq]
  exact createNewTracks_eq hc hb fun d hd => hm ▸ M.valid_freeRight hd

/-- The workspace in which the calls of a frame with detections are made. -/
def detected (fr : Frame κ) (w : Workspace κ) : Workspace κ :=
  let (centroids, bboxes) := detectObjects fr.circles
  predictNewLocationsOfTracks fr.toolbox { w with centroids, bboxes }

/-- The tracks that `deleteLostTracks` finds. -/
theorem ageTracks_detected {fr : Frame κ} {w v : Workspace κ}
    (h : ageTracks fr.toolbox (detected fr w) = .ok v) : v.tracks = advancedTracks fr w := by
  rw [ageTracks_eq fr.circles rfl rfl] at h
  cases h
  rfl

/-- **A frame in closed form.** No index used in the frame is out of range. -/
theorem trackFrame_eq (fr : Frame κ) (w : Workspace κ) :
    trackFrame fr w =
      .ok (if fr.circles = [] then afterNone fr w else afterDetections fr w) := by
  unfold trackFrame
  rw [detectObjects_eq]
  by_cases hcs : fr.circles = []
  · simp [hcs, afterNone, predictNewLocationsOfTracks, predictedTracks]
    rfl
  · simp only [predictNewLocationsOfTracks, List.isEmpty_iff, List.map_eq_nil_iff, if_neg hcs]
    exact updateTracks_eq rfl rfl

/-! ## A still scene -/

/-- A toolbox for cups that do not move and are always reported in the same order: a filter
predicts the position it was last corrected to, and equal indices are matched. -/
def stillToolbox : Toolbox (ℚ × ℚ) where
  predict := fun p => (p, p)
  correct := fun _ c => c
  distance := fun p cs => cs.map fun c => |c.1 - p.1| + |c.2 - p.2|
  configureKalmanFilter := fun _ c _ _ _ => c
  assignDetectionsToTracks := fun n m _ _ => Matching.diagonal n m

def stillFrame (circles : List Circle) : Frame (ℚ × ℚ) := ⟨stillToolbox, circles⟩

/-- A point cloud without missing depth: a flat desk, with a tenth of a millimetre to the pixel. -/
def flatCloud : PointCloud where
  height := 480
  width := 640
  X := fun _ c => some (c / 10000)
  Y := fun r _ => some (-(r / 10000))

end DrinkRobot
