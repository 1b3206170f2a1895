import Mathlib.Tactic.Linarith
import Mathlib.Tactic.FieldSimp
import DrinkRobot.Tracker.Frame

/-!
# The representation invariant of the track array

* `Track.Inv`: the counters of one track; `Workspace.Inv`: every track has it, and the ids are
  strictly increasing and below `nextId`.
* `Track.Inv.matched_not_lost`: a track matched in a frame is not deleted in it, because the
  visibility ratio of a track that passed the test before only grows with a match.
* `trackFrame_inv` (one frame), `loop_inv` (every run of the loop).
* `live_perm`: after a frame with detections, the tracks with `consecutiveInvisibleCount = 0` are
  one for each detection, with its box.
-/

namespace DrinkRobot

open OneBased

variable {κ : Type}

/-! ## One track -/

/-- The counters of a track between two frames. -/
structure Track.Inv (t : Track κ) : Prop where
  visible : 1 ≤ t.totalVisibleCount
  visible_le : t.totalVisibleCount ≤ t.age
  invisible_le : t.consecutiveInvisibleCount ≤ t.age - t.totalVisibleCount
  kept : t.consecutiveInvisibleCount < 15
  ratio : t.age < 8 → 6 / 10 ≤ t.visibility

/-- The test of `deleteLostTracks` without the division. -/
theorem Track.visibility_lt {t : Track κ} (h : 0 < t.age) :
    t.visibility < 6 / 10 ↔ 10 * t.totalVisibleCount < 6 * t.age := by
  have hpos : (0 : ℚ) < t.age := by exact_mod_cast h
  unfold Track.visibility
  rw [div_lt_div_iff₀ hpos (by norm_num)]
  constructor
  · intro hlt
    have : ((10 * t.totalVisibleCount : Nat) : ℚ) < ((6 * t.age : Nat) : ℚ) := by
      push_cast; linarith
    exact_mod_cast this
  · intro hlt
    have : ((10 * t.totalVisibleCount : Nat) : ℚ) < ((6 * t.age : Nat) : ℚ) := by
      exact_mod_cast hlt
    push_cast at this
    linarith

theorem Track.lost_eq_false {t : Track κ} (h : 0 < t.age) :
    t.lost = false ↔
      (t.age < 8 → 6 * t.age ≤ 10 * t.totalVisibleCount) ∧ t.consecutiveInvisibleCount < 15 := by
  simp only [Track.lost, Bool.or_eq_false_iff, Bool.and_eq_false_iff, decide_eq_false_iff_not,
    Track.visibility_lt h]
  constructor
  · rintro ⟨h1, h2⟩
    exact ⟨fun h8 => by rcases h1 with h1 | h1 <;> omega, by omega⟩
  · rintro ⟨h1, h2⟩
    refine ⟨?_, by omega⟩
    by_cases h8 : t.age < 8
    · exact .inr (by have := h1 h8; omega)
    · exact .inl h8

theorem Track.ratio_iff {t : Track κ} (h : 0 < t.age) :
    6 / 10 ≤ t.visibility ↔ 6 * t.age ≤ 10 * t.totalVisibleCount := by
  rw [← not_lt, Track.visibility_lt h, not_lt]

section Counters

variable (tb : Toolbox κ) (t : Track κ) (centroid : ℚ × ℚ) (bbox : Box)

@[simp] theorem Track.predicted_id : (t.predicted tb).id = t.id := rfl
@[simp] theorem Track.predicted_age : (t.predicted tb).age = t.age := rfl
@[simp] theorem Track.predicted_visible :
    (t.predicted tb).totalVisibleCount = t.totalVisibleCount := rfl
@[simp] theorem Track.predicted_invisible :
    (t.predicted tb).consecutiveInvisibleCount = t.consecutiveInvisibleCount := rfl
@[simp] theorem Track.matched_id : (t.matched tb centroid bbox).id = t.id := rfl
@[simp] theorem Track.matched_bbox : (t.matched tb centroid bbox).bbox = bbox := rfl
@[simp] theorem Track.matched_age : (t.matched tb centroid bbox).age = t.age + 1 := rfl
@[simp] theorem Track.matched_visible :
    (t.matched tb centroid bbox).totalVisibleCount = t.totalVisibleCount + 1 := rfl
@[simp] theorem Track.matched_invisible :
    (t.matched tb centroid bbox).consecutiveInvisibleCount = 0 := rfl
@[simp] theorem Track.missed_id : t.missed.id = t.id := rfl
@[simp] theorem Track.missed_age : t.missed.age = t.age + 1 := rfl
@[simp] theorem Track.missed_visible : t.missed.totalVisibleCount = t.totalVisibleCount := rfl
@[simp] theorem Track.missed_invisible :
    t.missed.consecutiveInvisibleCount = t.consecutiveInvisibleCount + 1 := rfl

end Counters

namespace Track.Inv

variable {tb : Toolbox κ} {t : Track κ}

theorem age_pos (h : t.Inv) : 0 < t.age := by have := h.visible; have := h.visible_le; omega

theorem predicted (h : t.Inv) : (t.predicted tb).Inv := ⟨h.1, h.2, h.3, h.4, h.5⟩

/-- A matched track passes the test of `deleteLostTracks`. -/
theorem matched_not_lost (h : t.Inv) (centroid : ℚ × ℚ) (bbox : Box) :
    (t.matched tb centroid bbox).lost = false := by
  rw [Track.lost_eq_false (by simp)]
  refine ⟨fun h8 => ?_, by simp⟩
  simp only [Track.matched_age, Track.matched_visible] at h8 ⊢
  have := (Track.ratio_iff h.age_pos).mp (h.ratio (by omega))
  omega

theorem matched (h : t.Inv) (centroid : ℚ × ℚ) (bbox : Box) :
    (t.matched tb centroid bbox).Inv := by
  have hage : 0 < (t.matched tb centroid bbox).age := by simp
  have hkept := (Track.lost_eq_false hage).mp (h.matched_not_lost centroid bbox)
  refine ⟨by simp, ?_, by simp, hkept.2, fun h8 => (Track.ratio_iff hage).mpr (hkept.1 h8)⟩
  have := h.visible_le
  simp only [Track.matched_age, Track.matched_visible]
  omega

theorem missed (h : t.Inv) (hlost : t.missed.lost = false) : t.missed.Inv := by
  have hage : 0 < t.missed.age := by simp
  have hkept := (Track.lost_eq_false hage).mp hlost
  have h2 := h.visible_le
  have h3 := h.invisible_le
  refine ⟨by simpa using h.visible, ?_, ?_, hkept.2,
    fun h8 => (Track.ratio_iff hage).mpr (hkept.1 h8)⟩ <;>
    simp only [Track.missed_age, Track.missed_visible, Track.missed_invisible] <;> omega

theorem newTrack (tb : Toolbox κ) (id : Nat) (centroid : ℚ × ℚ) (bbox : Box) :
    (newTrack tb id centroid bbox).Inv := by
  refine ⟨?_, ?_, ?_, ?_, fun _ => (Track.ratio_iff Nat.one_pos).mpr ?_⟩ <;>
    simp [DrinkRobot.newTrack]

end Track.Inv

/-! ## The ids -/

theorem ids_advanced {n m : Nat} (tb : Toolbox κ) (circles : List Circle) (M : Matching n m)
    (tracks : List (Track κ)) :
    (advanced tb circles M tracks).map Track.id = tracks.map Track.id := by
  refine List.ext_getElem (by simp [advanced]) fun j h1 h2 => ?_
  simp only [advanced, List.getElem_map, List.getElem_mapIdx, stepTrack]
  cases M.rightOf (j + 1) <;> rfl

theorem ids_fresh (tb : Toolbox κ) (nextId : Nat) (cs : List Circle) :
    (fresh tb nextId cs).map Track.id = List.range' nextId cs.length :=
  List.ext_getElem (by simp) fun j _ _ => by simp [fresh, newTrack]

theorem ids_predictedTracks (fr : Frame κ) (w : Workspace κ) :
    (predictedTracks fr w).map Track.id = w.tracks.map Track.id := by
  simp [predictedTracks, Function.comp_def]

/-- A frame keeps some of the ids, in their order, and appends new ones from `nextId` on. -/
theorem trackFrame_ids {fr : Frame κ} {w w' : Workspace κ} (h : trackFrame fr w = .ok w') :
    ∃ kept k, List.Sublist kept (w.tracks.map Track.id) ∧
      w'.tracks.map Track.id = kept ++ List.range' w.nextId k ∧ w'.nextId = w.nextId + k := by
  rw [trackFrame_eq] at h
  cases h
  split
  · exact ⟨w.tracks.map Track.id, 0, List.Sublist.refl _, by simp [afterNone, ids_predictedTracks],
      rfl⟩
  · refine ⟨(survivingTracks fr w).map Track.id, (unassigned fr w).length, ?_, ?_, rfl⟩
    · have := (List.filter_sublist (p := fun t : Track κ => !t.lost)
        (l := advancedTracks fr w)).map Track.id
      unfold advancedTracks at this
      rwa [ids_advanced, ids_predictedTracks] at this
    · simp [afterDetections, ids_fresh]

/-! ## The workspace -/

/-- The track array between two frames. -/
structure Workspace.Inv (w : Workspace κ) : Prop where
  tracks : ∀ t ∈ w.tracks, t.Inv
  ids_lt : ∀ t ∈ w.tracks, t.id < w.nextId
  ids_sorted : (w.tracks.map Track.id).Pairwise (· < ·)

theorem Workspace.Inv.ids_nodup {w : Workspace κ} (h : w.Inv) : (w.tracks.map Track.id).Nodup :=
  h.ids_sorted.imp Nat.ne_of_lt

theorem loopStart_inv : (loopStart : Workspace κ).Inv :=
  ⟨fun _ h => (List.not_mem_nil h).elim, fun _ h => (List.not_mem_nil h).elim, List.Pairwise.nil⟩

theorem inv_of_mem_predicted {fr : Frame κ} {w : Workspace κ} (h : w.Inv) {t : Track κ}
    (ht : t ∈ predictedTracks fr w) : t.Inv := by
  obtain ⟨t', ht', rfl⟩ := List.mem_map.mp ht
  exact (h.tracks t' ht').predicted

theorem inv_of_mem_advanced {fr : Frame κ} {w : Workspace κ} (h : w.Inv) {t : Track κ}
    (ht : t ∈ advancedTracks fr w) (hlost : t.lost = false) : t.Inv := by
  obtain ⟨j, hj, rfl⟩ := List.mem_mapIdx.mp ht
  have hin : ((predictedTracks fr w)[j]).Inv := inv_of_mem_predicted h (List.getElem_mem hj)
  unfold stepTrack at hlost ⊢
  cases hm : (frameMatching fr w).rightOf (j + 1) with
  | some d => exact hin.matched _ _
  | none => rw [hm] at hlost; exact hin.missed hlost

/-- One frame keeps the invariant. -/
theorem trackFrame_inv {fr : Frame κ} {w w' : Workspace κ} (h : w.Inv)
    (hw : trackFrame fr w = .ok w') : w'.Inv := by
  obtain ⟨kept, k, hsub, hids, hnext⟩ := trackFrame_ids hw
  have hkept : ∀ i ∈ kept, i < w.nextId := by
    intro i hi
    obtain ⟨t, ht, rfl⟩ := List.mem_map.mp (hsub.subset hi)
    exact h.ids_lt t ht
  refine ⟨?_, ?_, ?_⟩
  · rw [trackFrame_eq] at hw
    cases hw
    split
    · intro t ht
      obtain ⟨t', ht', rfl⟩ := List.mem_map.mp ht
      exact (h.tracks t' ht').predicted
    · intro t ht
      rcases List.mem_append.mp ht with ht | ht
      · obtain ⟨hmem, hlost⟩ := List.mem_filter.mp ht
        exact inv_of_mem_advanced h hmem (by simpa using hlost)
      · obtain ⟨j, hj, rfl⟩ := List.mem_mapIdx.mp ht
        exact Track.Inv.newTrack _ _ _ _
  · intro t ht
    have : t.id ∈ kept ++ List.range' w.nextId k := hids ▸ List.mem_map_of_mem ht
    rcases List.mem_append.mp this with hi | hi
    · have := hkept _ hi; omega
    · have := List.mem_range'_1.mp hi; omega
  · -- the new ids are above those of all tracks
    rw [hids, List.pairwise_append]
    refine ⟨h.ids_sorted.sublist hsub, List.pairwise_lt_range', fun i hi j hj => ?_⟩
    have := hkept i hi
    have := (List.mem_range'_1.mp hj).1
    omega

/-! ## The loop -/

@[simp] theorem reportFrame_tracks (w : Workspace κ) : (reportFrame w).tracks = w.tracks := by
  unfold reportFrame displayTrackingResults
  simp only
  split
  · rfl
  · split <;> rfl

@[simp] theorem reportFrame_nextId (w : Workspace κ) : (reportFrame w).nextId = w.nextId := by
  unfold reportFrame displayTrackingResults
  simp only
  split
  · rfl
  · split <;> rfl

theorem loopIteration_ok {xyzPoints : PointCloud} {w w' : Workspace κ} {fr : Frame κ}
    (h : loopIteration xyzPoints w fr = .ok w') :
    ∃ v, trackFrame fr w = .ok v ∧ w' = reportFrame v := by
  obtain ⟨v, hv, hrest⟩ := Run.bind_ok.mp h
  obtain ⟨_, -, hrest⟩ := Run.bind_ok.mp hrest
  cases hrest
  exact ⟨v, hv, rfl⟩

theorem Workspace.Inv.report {w : Workspace κ} (h : w.Inv) : (reportFrame w).Inv :=
  ⟨by simpa using h.tracks, by simpa using h.ids_lt, by simpa using h.ids_sorted⟩

theorem loopIteration_inv {xyzPoints : PointCloud} {w w' : Workspace κ} {fr : Frame κ} (h : w.Inv)
    (hw : loopIteration xyzPoints w fr = .ok w') : w'.Inv := by
  obtain ⟨v, hv, rfl⟩ := loopIteration_ok hw
  exact (trackFrame_inv h hv).report

theorem loop_inv {xyzPoints : PointCloud} {frames : List (Frame κ)} {w : Workspace κ}
    (h : multiObjectTrackingHC xyzPoints frames = .ok w) : w.Inv :=
  Run.run_invariant (fun _ _ _ hi hs => loopIteration_inv hi hs) loopStart_inv h

/-- No id is used again: an id below `nextId` that is in the array later on is in it now. -/
theorem ids_not_reused {xyzPoints : PointCloud} {w w' : Workspace κ} {frames : List (Frame κ)}
    (h : Run.run (loopIteration xyzPoints) w frames = .ok w') :
    w.nextId ≤ w'.nextId ∧
      ∀ t ∈ w'.tracks, t.id < w.nextId → t.id ∈ w.tracks.map Track.id := by
  refine Run.run_invariant (I := fun v => w.nextId ≤ v.nextId ∧
    ∀ t ∈ v.tracks, t.id < w.nextId → t.id ∈ w.tracks.map Track.id) ?_
    ⟨Nat.le_refl _, fun t ht _ => List.mem_map_of_mem ht⟩ h
  rintro v fr v' ⟨hle, hold⟩ hv
  obtain ⟨u, hu, rfl⟩ := loopIteration_ok hv
  obtain ⟨kept, k, hsub, hids, hnext⟩ := trackFrame_ids hu
  rw [reportFrame_nextId, reportFrame_tracks]
  refine ⟨by omega, fun t ht hlt => ?_⟩
  have : t.id ∈ kept ++ List.range' v.nextId k := hids ▸ List.mem_map_of_mem ht
  rcases List.mem_append.mp this with hi | hi
  · obtain ⟨t', ht', he⟩ := List.mem_map.mp (hsub.subset hi)
    rw [← he] at hlt ⊢
    exact hold t' ht' hlt
  · have := (List.mem_range'_1.mp hi).1
    omega

/-! ## Detections and live tracks -/

/-- The id of the track that has detection `d` of the frame: the track matched with it, or the
track made for it. -/
def detectionId (fr : Frame κ) (w : Workspace κ) (d : Nat) : Nat :=
  match (frameMatching fr w).leftOf d with
  | some i => nth 0 (w.tracks.map Track.id) i
  | none => w.nextId + (frameMatching fr w).freeRight.idxOf d

/-- The tracks matched or made in the last frame with detections. -/
def liveTracks (tracks : List (Track κ)) : List (Track κ) :=
  tracks.filter fun t => t.consecutiveInvisibleCount = 0

theorem live_survivors {fr : Frame κ} {w : Workspace κ} (h : w.Inv) :
    ((liveTracks (survivingTracks fr w)).map fun t => (t.id, t.bbox)).Perm
      ((frameMatching fr w).pairs.map fun p =>
        (nth 0 (w.tracks.map Track.id) p.1, (seen fr.circles p.2).box)) := by
  refine .trans (.of_eq ?_) ((frameMatching fr w).filterMap_rightOf_perm fun i d =>
    (nth 0 (w.tracks.map Track.id) i, (seen fr.circles d).box))
  have hidx : List.range' 1 (predictedTracks fr w).length =
      ((predictedTracks fr w).zipIdx 1).map Prod.snd := List.zipIdx_map_snd _ _ |>.symm
  unfold liveTracks survivingTracks survivors advanced
  rw [List.filter_filter, filter_mapIdx, hidx, List.filterMap_map]
  refine List.filterMap_congr fun q hq => ?_
  obtain ⟨t, i⟩ := q
  obtain ⟨hi, ht⟩ := List.mem_zipIdx_iff_le_and_getElem?_sub.mp hq
  have hinv : t.Inv := inv_of_mem_predicted h (List.mem_of_getElem? ht)
  have hid : nth 0 (w.tracks.map Track.id) i = t.id := by
    rw [← ids_predictedTracks fr]
    simp [nth, List.getD_eq_getElem?_getD, ht]
  simp only [stepTrack, Nat.sub_add_cancel hi, Function.comp_apply, hid]
  cases (frameMatching fr w).rightOf i with
  | some d => simp [hinv.matched_not_lost]
  | none => simp

theorem live_fresh (fr : Frame κ) (w : Workspace κ) :
    ((liveTracks (fresh fr.toolbox w.nextId (unassigned fr w))).map fun t => (t.id, t.bbox)) =
      (frameMatching fr w).freeRight.map fun d =>
        (w.nextId + (frameMatching fr w).freeRight.idxOf d, (seen fr.circles d).box) := by
  have hall : liveTracks (fresh fr.toolbox w.nextId (unassigned fr w)) =
      fresh fr.toolbox w.nextId (unassigned fr w) := by
    refine List.filter_eq_self.mpr fun t ht => ?_
    obtain ⟨j, hj, rfl⟩ := List.mem_mapIdx.mp ht
    simp [newTrack]
  have hnd := (List.nodup_append.mp (frameMatching fr w).nodup_right).2.1
  rw [hall]
  refine List.ext_getElem (by simp [unassigned]) fun j h1 h2 => ?_
  simp [fresh, unassigned, newTrack, hnd.idxOf_getElem]

/-- After a frame with detections the live tracks are one for each detection, with its box. -/
theorem live_perm (fr : Frame κ) {w : Workspace κ} (h : w.Inv) :
    ((liveTracks (afterDetections fr w).tracks).map fun t => (t.id, t.bbox)).Perm
      ((List.range' 1 fr.circles.length).map fun d =>
        (detectionId fr w d, (seen fr.circles d).box)) := by
  have hright := (frameMatching fr w).map_right_perm fun d =>
    (detectionId fr w d, (seen fr.circles d).box)
  refine .trans ?_ (hright.trans (.of_eq (by rw [List.length_map])))
  have hsplit : (liveTracks (afterDetections fr w).tracks).map (fun t => (t.id, t.bbox)) =
      (liveTracks (survivingTracks fr w)).map (fun t => (t.id, t.bbox)) ++
        (liveTracks (fresh fr.toolbox w.nextId (unassigned fr w))).map fun t =>
          (t.id, t.bbox) := by
    simp [afterDetections, liveTracks]
  rw [hsplit]
  have hpairs : (frameMatching fr w).pairs.map (fun p =>
      (nth 0 (w.tracks.map Track.id) p.1, (seen fr.circles p.2).box)) =
      (frameMatching fr w).pairs.map fun p =>
        (detectionId fr w p.2, (seen fr.circles p.2).box) := by
    refine List.map_congr_left fun p hp => ?_
    rw [detectionId, (frameMatching fr w).leftOf_eq_some.mpr hp]
  have hfree : (frameMatching fr w).freeRight.map (fun d =>
      (w.nextId + (frameMatching fr w).freeRight.idxOf d, (seen fr.circles d).box)) =
      (frameMatching fr w).freeRight.map fun d =>
        (detectionId fr w d, (seen fr.circles d).box) := by
    refine List.map_congr_left fun d hd => ?_
    rw [detectionId, (frameMatching fr w).leftOf_free hd]
  rw [live_fresh, hfree, ← hpairs]
  exact (live_survivors h).append_right _

/-! ## Every run of the loop -/

/-- **No detection is lost or duplicated.** In every run of the loop, a frame with detections
raises no error before its table is built, and afterwards the live tracks are one for each
detection of the frame, with distinct ids and with the detection's box: the track matched with
the detection, which `deleteLostTracks` keeps, or a new one. -/
theorem detections_are_live_tracks (xyzPoints : PointCloud) (frames : List (Frame κ))
    (w : Workspace κ) (h : multiObjectTrackingHC xyzPoints frames = .ok w) (fr : Frame κ)
    (hfr : fr.circles ≠ []) :
    ∃ w', trackFrame fr w = .ok w' ∧ (w'.tracks.map Track.id).Nodup ∧
      ((liveTracks w'.tracks).map fun t => (t.id, t.bbox)).Perm
        ((List.range' 1 fr.circles.length).map fun d =>
          (detectionId fr w d, (seen fr.circles d).box)) ∧
      ∀ p ∈ (frameMatching fr w).pairs, ∃ t ∈ w'.tracks,
        t.id = nth 0 (w.tracks.map Track.id) p.1 ∧ t.bbox = (seen fr.circles p.2).box ∧
          t.consecutiveInvisibleCount = 0 := by
  have hinv := loop_inv h
  have hframe := trackFrame_eq fr w
  rw [if_neg hfr] at hframe
  have hperm := live_perm fr hinv
  refine ⟨_, hframe, (trackFrame_inv hinv hframe).ids_nodup, hperm, fun p hp => ?_⟩
  have hv := (frameMatching fr w).valid_right hp
  rw [List.length_map] at hv
  have hmem : (nth 0 (w.tracks.map Track.id) p.1, (seen fr.circles p.2).box) ∈
      (List.range' 1 fr.circles.length).map fun d =>
        (detectionId fr w d, (seen fr.circles d).box) := by
    refine List.mem_map.mpr ⟨p.2, List.mem_range'_1.mpr ⟨hv.1, by have := hv.2; omega⟩, ?_⟩
    rw [detectionId, (frameMatching fr w).leftOf_eq_some.mpr hp]
  obtain ⟨t, ht, he⟩ := List.mem_map.mp (hperm.mem_iff.mpr hmem)
  obtain ⟨hmem', hlive⟩ := List.mem_filter.mp ht
  simp only [Prod.mk.injEq] at he
  exact ⟨t, hmem', he.1, he.2, by simpa using hlive⟩

theorem detections_are_live_tracks_still :
    ∃ w, multiObjectTrackingHC flatCloud [stillFrame [⟨100, 100, 20⟩, ⟨200, 100, 30⟩]] = .ok w ∧
      ∃ w', trackFrame (stillFrame [⟨100, 100, 20⟩, ⟨200, 100, 30⟩]) w = .ok w' ∧
        ((liveTracks w'.tracks).map fun t => (t.id, t.bbox)).Perm
          ((List.range' 1 2).map fun d =>
            (detectionId (stillFrame [⟨100, 100, 20⟩, ⟨200, 100, 30⟩]) w d,
              (seen [⟨100, 100, 20⟩, ⟨200, 100, 30⟩] d).box)) := by
  obtain ⟨w, hw⟩ := Run.exists_ok (x := multiObjectTrackingHC flatCloud
    [stillFrame [⟨100, 100, 20⟩, ⟨200, 100, 30⟩]]) (by decide +kernel)
  obtain ⟨w', hw', -, hperm, -⟩ := detections_are_live_tracks flatCloud _ w hw
    (stillFrame [⟨100, 100, 20⟩, ⟨200, 100, 30⟩]) (by simp [stillFrame])
  exact ⟨w, hw, w', hw', hperm⟩

/-- **The track array.** In every run of the loop the ids are strictly increasing and below
`nextId`, no id comes back, the counters of every track are in order, and `deleteLostTracks`
divides by no zero. All of it also holds of a frame whose table then cannot be looked up. -/
theorem trackArray_invariant (xyzPoints : PointCloud) (frames : List (Frame κ))
    (w : Workspace κ) (h : multiObjectTrackingHC xyzPoints frames = .ok w) :
    w.Inv ∧
    (∀ fr w', trackFrame fr w = .ok w' → w'.Inv) ∧
    (∀ more w', Run.run (loopIteration xyzPoints) w more = .ok w' →
      ∀ t ∈ w'.tracks, t.id < w.nextId → t.id ∈ w.tracks.map Track.id) ∧
    ∀ fr v, ageTracks fr.toolbox (detected fr w) = .ok v → ∀ t ∈ v.tracks, t.age ≠ 0 := by
  have hinv := loop_inv h
  refine ⟨hinv, fun fr w' hw => trackFrame_inv hinv hw,
    fun more w' hw => (ids_not_reused hw).2, fun fr v hv t ht => ?_⟩
  rw [ageTracks_detected hv] at ht
  obtain ⟨j, hj, rfl⟩ := List.mem_mapIdx.mp ht
  unfold stepTrack
  cases (frameMatching fr w).rightOf (j + 1) <;> simp

theorem trackArray_invariant_still :
    ∃ w, multiObjectTrackingHC flatCloud
      [stillFrame [⟨100, 100, 20⟩, ⟨200, 100, 30⟩], stillFrame [⟨100, 100, 20⟩]] = .ok w ∧
      w.Inv := by
  obtain ⟨w, hw⟩ := Run.exists_ok (x := multiObjectTrackingHC flatCloud
    [stillFrame [⟨100, 100, 20⟩, ⟨200, 100, 30⟩], stillFrame [⟨100, 100, 20⟩]]) (by decide +kernel)
  exact ⟨w, hw, (trackArray_invariant flatCloud _ w hw).1⟩

end DrinkRobot
