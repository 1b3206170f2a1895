import DrinkRobot.Lib.Rank
import DrinkRobot.Tracker.Clock

/-!
# The table `everything`

* `fillEverything_circles`: the table numbers the boxes within their type, in the order of
  `bboxes`; `circleRows_perm_iff`: two tables have the same rows exactly when they list the same
  corners of each type in the same order.
* `everything_eq`: which detections come into the table of a frame. When some matched track was
  visible often enough, these are the ones matched with such tracks, in the order of the array;
  otherwise the unassigned ones only.
* `tables_report_iff`: exactly when the table of a frame reports the detections of the frame.
-/

namespace DrinkRobot

open OneBased

variable {κ : Type}

/-! ## Numbering within the type -/

/-- The type of a cup with this box: 2 for a radius above 26. -/
def Box.cupType (b : Box) : Nat := if b.width / 2 > 26 then 2 else 1

def Box.corner (b : Box) : ℚ × ℚ := (b.left, b.top)

/-- A row of the table from its corner, type and number. -/
def CupRow.ofRow (r : (ℚ × ℚ) × Nat × Nat) : CupRow where
  left := r.1.1
  top := r.1.2
  cupType := r.2.1
  cupNumber := r.2.2

theorem CupRow.ofRow_injective : Function.Injective CupRow.ofRow := by
  rintro ⟨⟨a, b⟩, c, d⟩ ⟨⟨a', b'⟩, c', d'⟩ h
  simp only [CupRow.ofRow, CupRow.mk.injEq] at h
  obtain ⟨rfl, rfl, rfl, rfl⟩ := h
  rfl

private theorem fillEverything_from (largeCounter mediumCounter : Nat) (count : Nat → Nat)
    (hl : count 2 = largeCounter) (hm : count 1 = mediumCounter) (bboxes : List Box) :
    fillEverything largeCounter mediumCounter bboxes =
      (Rank.numberFrom Box.cupType count bboxes).map fun p =>
        CupRow.ofRow (p.1.corner, p.1.cupType, p.2) := by
  induction bboxes generalizing largeCounter mediumCounter count with
  | nil => rfl
  | cons b bboxes ih =>
    unfold fillEverything
    split
    · rename_i hb
      have hcls : b.cupType = 2 := if_pos hb
      rw [Rank.numberFrom, List.map_cons, hcls, hl,
        ih (largeCounter + 1) mediumCounter (Rank.bump count 2)
          (by rw [Rank.bump_self, hl]) (by rw [Rank.bump_ne _ (by decide), hm])]
      simp [CupRow.ofRow, Box.corner]
    · rename_i hb
      have hcls : b.cupType = 1 := if_neg hb
      rw [Rank.numberFrom, List.map_cons, hcls, hm,
        ih largeCounter (mediumCounter + 1) (Rank.bump count 1)
          (by rw [Rank.bump_ne _ (by decide), hl]) (by rw [Rank.bump_self, hm])]
      simp [CupRow.ofRow, Box.corner]

/-- The table lists the boxes in order, each with its number within its type. -/
theorem fillEverything_eq (bboxes : List Box) :
    fillEverything 0 0 bboxes = (Rank.number Box.cupType bboxes).map fun p =>
      CupRow.ofRow (p.1.corner, p.1.cupType, p.2) :=
  fillEverything_from 0 0 (fun _ => 0) rfl rfl bboxes

/-- The type of a detected cup: 2 for a radius above 26. -/
def Circle.cupType (c : Circle) : Nat := if c.radius > 26 then 2 else 1

/-- The top left corner of the circle's box. -/
def Circle.corner (c : Circle) : ℚ × ℚ := c.box.corner

theorem Circle.box_cupType (c : Circle) : c.box.cupType = c.cupType := by
  simp [Box.cupType, Circle.cupType, Circle.box]

/-- The rows of the circles: the corner, the type and the number within the type of each. -/
def circleRows (circles : List Circle) : List CupRow :=
  (Rank.rows Circle.cupType Circle.corner circles).map CupRow.ofRow

theorem fillEverything_circles (circles : List Circle) :
    fillEverything 0 0 (circles.map Circle.box) = circleRows circles := by
  rw [fillEverything_eq, Rank.number, Rank.numberFrom_map, List.map_map, circleRows, Rank.rows,
    List.map_map]
  simp only [Function.comp_def, Circle.box_cupType, Rank.number]
  rfl

theorem circleRows_perm_iff {cs cs' : List Circle} :
    (circleRows cs).Perm (circleRows cs') ↔
      ∀ c, (Rank.ofClass Circle.cupType c cs).map Circle.corner =
        (Rank.ofClass Circle.cupType c cs').map Circle.corner := by
  rw [circleRows, circleRows, List.map_perm_map_iff CupRow.ofRow_injective, Rank.rows_perm_iff]

@[simp] theorem length_circleRows (cs : List Circle) : (circleRows cs).length = cs.length := by
  simp [circleRows]

/-! ## What the table of a frame shows -/

/-- A track that is reliable after it is matched once more. -/
def Track.soonReliable (t : Track κ) : Bool := decide (8 ≤ t.totalVisibleCount)

/-- A track that is reliable and in the array after it is missed once more. -/
def Track.staysReliable (t : Track κ) : Bool :=
  decide (8 < t.totalVisibleCount) && decide (t.consecutiveInvisibleCount + 1 < 15)

theorem Track.reliable_iff {t : Track κ} : t.reliable = true ↔ 8 < t.totalVisibleCount := by
  simp [Track.reliable]

theorem Track.matched_reliable (tb : Toolbox κ) (t : Track κ) (centroid : ℚ × ℚ) (bbox : Box) :
    (t.matched tb centroid bbox).reliable = t.soonReliable := by
  rw [Bool.eq_iff_iff, Track.reliable_iff, Track.soonReliable, decide_eq_true_eq,
    Track.matched_visible]
  omega

theorem Track.Inv.missed_reliable {t : Track κ} (h : t.Inv) :
    (t.missed.reliable && !t.missed.lost) = t.staysReliable := by
  have hage := h.visible_le
  rw [Bool.eq_iff_iff]
  simp only [Bool.and_eq_true, Bool.not_eq_true', Track.lost_eq_false (t := t.missed) (by simp),
    Track.reliable_iff, Track.staysReliable, decide_eq_true_eq, Track.missed_visible,
    Track.missed_age, Track.missed_invisible]
  omega

theorem zipIdx_predictedTracks (fr : Frame κ) (w : Workspace κ) :
    (predictedTracks fr w).zipIdx 1 =
      (w.tracks.zipIdx 1).map fun q => (q.1.predicted fr.toolbox, q.2) := by
  unfold predictedTracks
  rw [List.zipIdx_map]
  rfl

/-- The reliable tracks after the frame, from the tracks before it. -/
theorem reliable_survivors {fr : Frame κ} {w : Workspace κ} (h : w.Inv) :
    (survivingTracks fr w).filter Track.reliable =
      (w.tracks.zipIdx 1).filterMap fun q =>
        match (frameMatching fr w).rightOf q.2 with
        | some d =>
          if q.1.soonReliable then
            some ((q.1.predicted fr.toolbox).matched fr.toolbox (seen fr.circles d).centre
              (seen fr.circles d).box)
          else none
        | none => if q.1.staysReliable then some (q.1.predicted fr.toolbox).missed else none := by
  unfold survivingTracks survivors advanced
  rw [List.filter_filter, ← List.map_id (List.filter _ _), filter_mapIdx,
    zipIdx_predictedTracks, List.filterMap_map]
  refine List.filterMap_congr fun q hq => ?_
  obtain ⟨t, i⟩ := q
  obtain ⟨hi, ht⟩ := List.mem_zipIdx_iff_le_and_getElem?_sub.mp hq
  have hinv : (t.predicted fr.toolbox).Inv := (h.tracks t (List.mem_of_getElem? ht)).predicted
  simp only [Function.comp_apply, id_eq, stepTrack, Nat.sub_add_cancel hi]
  cases (frameMatching fr w).rightOf i with
  | some d =>
    simp only [hinv.matched_not_lost, Bool.not_false, Bool.and_true, Track.matched_reliable]
    rfl
  | none =>
    simp only [hinv.missed_reliable]
    rfl

theorem fresh_not_reliable (tb : Toolbox κ) (nextId : Nat) (cs : List Circle) :
    (fresh tb nextId cs).filter Track.reliable = [] := by
  rw [List.filter_eq_nil_iff]
  intro t ht
  obtain ⟨j, hj, rfl⟩ := List.mem_mapIdx.mp ht
  simp [newTrack, Track.reliable]

theorem reportFrame_everything (w : Workspace κ) :
    (reportFrame w).everything = fillEverything 0 0
      (if w.tracks.filter Track.reliable = [] then w.bboxes
        else (w.tracks.filter Track.reliable).map Track.bbox) := by
  unfold reportFrame displayTrackingResults
  simp only [List.isEmpty_iff]
  by_cases hw : w.tracks = []
  · simp [hw]
  · by_cases hr : w.tracks.filter Track.reliable = []
    · simp only [if_neg hw, if_pos hr]
    · simp only [if_neg hw, if_neg hr]

/-! ## The detections in the table -/

/-- No track that the frame misses is reliable after it. -/
def NoneStale (fr : Frame κ) (w : Workspace κ) : Prop :=
  ∀ q ∈ w.tracks.zipIdx 1, (frameMatching fr w).rightOf q.2 = none → q.1.staysReliable = false

/-- The matched detections, in the order of their tracks. -/
def matchedDetections (fr : Frame κ) (w : Workspace κ) : List Nat :=
  (w.tracks.zipIdx 1).filterMap fun q => (frameMatching fr w).rightOf q.2

/-- The detections matched with a track that is then reliable, in the order of their tracks. -/
def reliableDetections (fr : Frame κ) (w : Workspace κ) : List Nat :=
  (w.tracks.zipIdx 1).filterMap fun q =>
    if q.1.soonReliable then (frameMatching fr w).rightOf q.2 else none

/-- The tracks made in the frame are not reliable yet. -/
theorem reliable_afterDetections (fr : Frame κ) (w : Workspace κ) :
    (afterDetections fr w).tracks.filter Track.reliable =
      (survivingTracks fr w).filter Track.reliable := by
  simp [afterDetections, fresh_not_reliable]

theorem noneStale_iff {fr : Frame κ} {w : Workspace κ} (h : w.Inv) :
    (∀ t ∈ (afterDetections fr w).tracks, t.reliable → t.consecutiveInvisibleCount = 0) ↔
      NoneStale fr w := by
  -- the new tracks are not reliable, so only those from before the frame count
  have hsplit : (∀ t ∈ (afterDetections fr w).tracks, t.reliable →
      t.consecutiveInvisibleCount = 0) ↔
      ∀ t ∈ (survivingTracks fr w).filter Track.reliable, t.consecutiveInvisibleCount = 0 := by
    rw [← reliable_afterDetections]
    simp [List.mem_filter]
  rw [hsplit, reliable_survivors h]
  constructor
  · intro hall q hq hnone
    cases hs : q.1.staysReliable with
    | false => rfl
    | true =>
      have := hall (q.1.predicted fr.toolbox).missed
        (List.mem_filterMap.mpr ⟨q, hq, by simp only [hnone, hs, if_true]⟩)
      simp at this
  · intro hstale t ht
    obtain ⟨q, hq, ht⟩ := List.mem_filterMap.mp ht
    cases hr : (frameMatching fr w).rightOf q.2 with
    | none => simp [hr, hstale q hq hr] at ht
    | some d =>
      simp only [hr] at ht
      split at ht
      · cases ht; rfl
      · cases ht

theorem reliable_boxes {fr : Frame κ} {w : Workspace κ} (h : w.Inv) (hstale : NoneStale fr w) :
    ((afterDetections fr w).tracks.filter Track.reliable).map Track.bbox =
      (reliableDetections fr w).map fun d => (seen fr.circles d).box := by
  rw [reliable_afterDetections, reliable_survivors h, reliableDetections, List.map_filterMap,
    List.map_filterMap]
  refine List.filterMap_congr fun q hq => ?_
  cases hr : (frameMatching fr w).rightOf q.2 with
  | none => simp [hstale q hq hr]
  | some d => cases q.1.soonReliable <;> simp

/-- The table of a frame in which no missed track is reliable. -/
theorem everything_eq {fr : Frame κ} {w : Workspace κ} (h : w.Inv) (hstale : NoneStale fr w) :
    (reportFrame (afterDetections fr w)).everything =
      circleRows ((if reliableDetections fr w = [] then (frameMatching fr w).freeRight
        else reliableDetections fr w).map (seen fr.circles)) := by
  have hboxes := reliable_boxes h hstale
  have hnil : (afterDetections fr w).tracks.filter Track.reliable = [] ↔
      reliableDetections fr w = [] := by
    rw [← List.map_eq_nil_iff (f := Track.bbox), hboxes, List.map_eq_nil_iff]
  rw [reportFrame_everything, hboxes, ← fillEverything_circles, List.map_map]
  simp only [hnil]
  split
  · simp [afterDetections, unassigned]
  · rfl

theorem matchedDetections_perm (fr : Frame κ) (w : Workspace κ) :
    (matchedDetections fr w).Perm ((frameMatching fr w).pairs.map Prod.snd) := by
  have hidx : List.range' 1 (predictedTracks fr w).length = (w.tracks.zipIdx 1).map Prod.snd := by
    rw [List.zipIdx_map_snd, predictedTracks, List.length_map]
  have := (frameMatching fr w).filterMap_rightOf_perm fun _ d => d
  rw [hidx, List.filterMap_map] at this
  simpa [matchedDetections, Function.comp_def] using this

/-- Every detection of the frame is matched or free. -/
theorem length_detections (fr : Frame κ) (w : Workspace κ) :
    (matchedDetections fr w).length + (frameMatching fr w).freeRight.length =
      fr.circles.length := by
  have := (frameMatching fr w).right_perm.length_eq
  rw [List.length_append, List.length_range'] at this
  rw [(matchedDetections_perm fr w).length_eq, this, List.length_map]

theorem matchedDetections_eq_nil {fr : Frame κ} {w : Workspace κ} :
    matchedDetections fr w = [] ↔ (frameMatching fr w).pairs = [] := by
  rw [← List.length_eq_zero_iff, (matchedDetections_perm fr w).length_eq, List.length_map,
    List.length_eq_zero_iff]

theorem reliableDetections_sublist (fr : Frame κ) (w : Workspace κ) :
    (reliableDetections fr w).Sublist (matchedDetections fr w) := by
  unfold reliableDetections matchedDetections
  rw [← List.filterMap_filter]
  exact List.filter_sublist.filterMap _

theorem reliableDetections_eq {fr : Frame κ} {w : Workspace κ} :
    reliableDetections fr w = matchedDetections fr w ↔
      ∀ q ∈ w.tracks.zipIdx 1, (frameMatching fr w).rightOf q.2 ≠ none →
        q.1.soonReliable = true := by
  constructor
  · intro he q hq hsome
    have hlen := congrArg List.length he
    unfold reliableDetections matchedDetections at hlen
    rw [← List.filterMap_filter, List.length_filterMap_eq_countP,
      List.length_filterMap_eq_countP, List.countP_eq_length_filter, List.countP_eq_length_filter,
      List.filter_filter, List.filter_congr fun _ _ => Bool.and_comm _ _, ← List.filter_filter,
      List.length_filter_eq_length_iff] at hlen
    exact hlen q (List.mem_filter.mpr ⟨hq, Option.isSome_iff_ne_none.mpr hsome⟩)
  · intro hall
    refine List.filterMap_congr fun q hq => ?_
    cases hr : (frameMatching fr w).rightOf q.2 with
    | none => simp
    | some d => simp [hall q hq (by simp [hr])]

/-! ## The table against the detections -/

/-- The table of the frame has one row for each circle of the frame, with its corner, type and
number within the type, and no row is the box of a track that the frame missed. -/
def TableReports (fr : Frame κ) (v : Workspace κ) : Prop :=
  (reportFrame v).everything.Perm (circleRows fr.circles) ∧
    ∀ t ∈ v.tracks, t.reliable → t.consecutiveInvisibleCount = 0

/-- When the table of a frame reports its detections: no detection is matched, or all are, each
with a track seen in 8 frames before; no missed track stays reliable; and the order in which the
detections come into the table is, within each type, their own up to equal corners. -/
structure ReportsAll (fr : Frame κ) (w : Workspace κ) : Prop where
  matched : (frameMatching fr w).pairs = [] ∨
    ((frameMatching fr w).freeRight = [] ∧
      ∀ q ∈ w.tracks.zipIdx 1, (frameMatching fr w).rightOf q.2 ≠ none → q.1.soonReliable = true)
  noneStale : NoneStale fr w
  in_order : ∀ c,
    (Rank.ofClass Circle.cupType c
      ((if (frameMatching fr w).pairs = [] then (frameMatching fr w).freeRight
        else matchedDetections fr w).map (seen fr.circles))).map Circle.corner =
    (Rank.ofClass Circle.cupType c fr.circles).map Circle.corner

theorem tableReports_iff {fr : Frame κ} {w : Workspace κ} (h : w.Inv) (hfr : fr.circles ≠ []) :
    TableReports fr (afterDetections fr w) ↔ ReportsAll fr w := by
  have hlen := length_detections fr w
  have hpos : 0 < fr.circles.length := List.length_pos_iff.mpr hfr
  constructor
  · rintro ⟨hperm, hcic⟩
    have hstale := (noneStale_iff h).mp hcic
    -- without stale rows, the table has the reliable detections, or the free ones if there are none
    rw [everything_eq h hstale] at hperm
    have hcount := hperm.length_eq
    rw [length_circleRows, length_circleRows, List.length_map] at hcount
    by_cases hrel : reliableDetections fr w = []
    · -- only the unassigned detections are in the table
      rw [if_pos hrel] at hperm hcount
      have hpairs : (frameMatching fr w).pairs = [] := by
        rw [← matchedDetections_eq_nil, ← List.length_eq_zero_iff]
        omega
      exact ⟨.inl hpairs, hstale, by rw [if_pos hpairs]; exact circleRows_perm_iff.mp hperm⟩
    · -- only the reliable detections are in the table
      rw [if_neg hrel] at hperm hcount
      have hsub := reliableDetections_sublist fr w
      have heq := hsub.eq_of_length_le (by omega)
      have hfree : (frameMatching fr w).freeRight = [] := by
        rw [← List.length_eq_zero_iff]
        rw [← heq] at hlen
        omega
      have hpairs : (frameMatching fr w).pairs ≠ [] := by
        rwa [Ne, ← matchedDetections_eq_nil, ← heq]
      refine ⟨.inr ⟨hfree, reliableDetections_eq.mp heq⟩, hstale, ?_⟩
      rw [if_neg hpairs, ← heq]
      exact circleRows_perm_iff.mp hperm
  · rintro ⟨hmatched, hstale, horder⟩
    refine ⟨?_, (noneStale_iff h).mpr hstale⟩
    rw [everything_eq h hstale, circleRows_perm_iff]
    by_cases hpairs : (frameMatching fr w).pairs = []
    · have hnil := matchedDetections_eq_nil.mpr hpairs
      have hrel : reliableDetections fr w = [] :=
        List.eq_nil_of_sublist_nil (hnil ▸ reliableDetections_sublist fr w)
      rw [if_pos hrel]
      rwa [if_pos hpairs] at horder
    · obtain ⟨-, hall⟩ := hmatched.resolve_left hpairs
      have heq := reliableDetections_eq.mpr hall
      have hne : reliableDetections fr w ≠ [] := by
        rwa [heq, Ne, matchedDetections_eq_nil]
      rw [if_neg hne, heq]
      rwa [if_neg hpairs] at horder

/-- **When the table reports the detections.** In a run of the loop the table of every frame with
detections reports them exactly when every such frame meets `ReportsAll`. -/
theorem tables_report_iff (xyzPoints : PointCloud) (frames : List (Frame κ)) :
    (∀ k w fr, FrameAt xyzPoints frames k w fr → fr.circles ≠ [] →
      ∃ v, trackFrame fr w = .ok v ∧ TableReports fr v) ↔
    ∀ k w fr, FrameAt xyzPoints frames k w fr → fr.circles ≠ [] → ReportsAll fr w := by
  refine forall_congr' fun k => forall_congr' fun w => forall_congr' fun fr => ?_
  refine forall_congr' fun hat => forall_congr' fun hfr => ?_
  have hframe := trackFrame_eq fr w
  rw [if_neg hfr] at hframe
  rw [← tableReports_iff (loop_inv hat.2.2) hfr, hframe]
  simp

/-- A cup that stays where it is is missing from the table of the second frame: it is matched
with its track, so it is not an unassigned detection. -/
theorem matched_cup_not_reported :
    ¬ ∀ k w fr,
      FrameAt flatCloud [stillFrame [⟨100, 100, 20⟩], stillFrame [⟨100, 100, 20⟩]] k w fr →
      fr.circles ≠ [] → ∃ v, trackFrame fr w = .ok v ∧ TableReports fr v := by
  intro hall
  obtain ⟨w, hw⟩ := Run.exists_ok (x := multiObjectTrackingHC flatCloud
    [stillFrame [⟨100, 100, 20⟩]]) (by decide +kernel)
  obtain ⟨v, hv, hperm, -⟩ := hall 2 w (stillFrame [⟨100, 100, 20⟩]) ⟨by omega, rfl, hw⟩
    (by simp [stillFrame])
  have hempty : (do
      let w ← multiObjectTrackingHC flatCloud [stillFrame [⟨100, 100, 20⟩]]
      let v ← trackFrame (stillFrame [⟨100, 100, 20⟩]) w
      pure (reportFrame v).everything : Except MatlabError (List CupRow)) = .ok [] := by
    decide +kernel
  rw [hw] at hempty
  replace hempty : (trackFrame (stillFrame [⟨100, 100, 20⟩]) w).map
      (fun v => (reportFrame v).everything) = .ok [] := hempty
  rw [hv] at hempty
  simp only [Except.map, Except.ok.injEq] at hempty
  rw [hempty] at hperm
  simpa [stillFrame] using hperm.length_eq

end DrinkRobot
