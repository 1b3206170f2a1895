import DrinkRobot.Tracker.Invariant

/-!
# Track clocks

`age` and `consecutiveInvisibleCount` are advanced only in frames with at least one detection.

* `FrameAt`: frame `k` of a run and the workspace it starts from. `CreatedAt`, `MatchedAt` and
  `LastSeenAt` say at which frames the track with a given id was made, matched and last seen.
* `clocks_count_detections`: in every run, the age of a track is the number of frames with
  detections since it was made, and its `consecutiveInvisibleCount` is the number of such frames
  since it was last seen; so no track unseen in 15 of them is in the array.
* `clocks_miss_empty_frames`: frames without detections are not counted.
-/

namespace DrinkRobot

open OneBased

variable {κ : Type}

/-! ## The history of a run -/

/-- Frame `k` of the run is `fr`, and it starts from the workspace `w`. -/
def FrameAt (xyzPoints : PointCloud) (frames : List (Frame κ)) (k : Nat) (w : Workspace κ)
    (fr : Frame κ) : Prop :=
  1 ≤ k ∧ frames[k - 1]? = some fr ∧
    multiObjectTrackingHC xyzPoints (frames.take (k - 1)) = .ok w

/-- The track with id `i` is made in frame `k`. -/
def CreatedAt (xyzPoints : PointCloud) (frames : List (Frame κ)) (k i : Nat) : Prop :=
  ∃ w fr, FrameAt xyzPoints frames k w fr ∧ fr.circles ≠ [] ∧
    i ∈ List.range' w.nextId (unassigned fr w).length

/-- The track with id `i` is matched with a detection in frame `k`. -/
def MatchedAt (xyzPoints : PointCloud) (frames : List (Frame κ)) (k i : Nat) : Prop :=
  ∃ w fr, FrameAt xyzPoints frames k w fr ∧ fr.circles ≠ [] ∧
    ∃ p ∈ (frameMatching fr w).pairs, nth 0 (w.tracks.map Track.id) p.1 = i

/-- Frame `m` is the last one in which the track with id `i` is made or matched. -/
def LastSeenAt (xyzPoints : PointCloud) (frames : List (Frame κ)) (m i : Nat) : Prop :=
  (CreatedAt xyzPoints frames m i ∨ MatchedAt xyzPoints frames m i) ∧
    ∀ k, m < k → ¬ CreatedAt xyzPoints frames k i ∧ ¬ MatchedAt xyzPoints frames k i

/-- The number of frames with detections. -/
def detectionFrames (frames : List (Frame κ)) : Nat :=
  frames.countP fun fr => !fr.circles.isEmpty

section History

variable {xyzPoints : PointCloud} {frames : List (Frame κ)} {fr : Frame κ} {k i : Nat}

theorem FrameAt.le {w : Workspace κ} (h : FrameAt xyzPoints frames k w fr) : k ≤ frames.length := by
  have := (List.getElem?_eq_some_iff.mp h.2.1).1
  have := h.1
  omega

theorem CreatedAt.le (h : CreatedAt xyzPoints frames k i) : k ≤ frames.length := by
  obtain ⟨_, _, hf, -⟩ := h
  exact hf.le

theorem MatchedAt.le (h : MatchedAt xyzPoints frames k i) : k ≤ frames.length := by
  obtain ⟨_, _, hf, -⟩ := h
  exact hf.le

theorem LastSeenAt.le (h : LastSeenAt xyzPoints frames k i) : k ≤ frames.length :=
  h.1.elim CreatedAt.le MatchedAt.le

theorem frameAt_append {fr' : Frame κ} {w : Workspace κ} (hk : k ≤ frames.length) :
    FrameAt xyzPoints (frames ++ [fr]) k w fr' ↔ FrameAt xyzPoints frames k w fr' := by
  unfold FrameAt
  refine and_congr_right fun h1 => ?_
  rw [List.getElem?_append_left (by omega), List.take_append_of_le_length (by omega)]

theorem frameAt_last {w : Workspace κ} (h : multiObjectTrackingHC xyzPoints frames = .ok w)
    {w' : Workspace κ} {fr' : Frame κ} :
    FrameAt xyzPoints (frames ++ [fr]) (frames.length + 1) w' fr' ↔ w' = w ∧ fr' = fr := by
  unfold FrameAt
  simp only [Nat.add_sub_cancel, List.take_left, List.getElem?_concat_length, h, Except.ok.injEq,
    Option.some.injEq]
  exact ⟨fun ⟨_, hf, hw⟩ => ⟨hw.symm, hf.symm⟩, fun ⟨hw, hf⟩ => ⟨by omega, hf.symm, hw.symm⟩⟩

theorem createdAt_append (hk : k ≤ frames.length) :
    CreatedAt xyzPoints (frames ++ [fr]) k i ↔ CreatedAt xyzPoints frames k i := by
  simp only [CreatedAt, frameAt_append hk]

theorem matchedAt_append (hk : k ≤ frames.length) :
    MatchedAt xyzPoints (frames ++ [fr]) k i ↔ MatchedAt xyzPoints frames k i := by
  simp only [MatchedAt, frameAt_append hk]

theorem createdAt_last {w : Workspace κ} (h : multiObjectTrackingHC xyzPoints frames = .ok w) :
    CreatedAt xyzPoints (frames ++ [fr]) (frames.length + 1) i ↔
      fr.circles ≠ [] ∧ i ∈ List.range' w.nextId (unassigned fr w).length := by
  simp only [CreatedAt, frameAt_last h]
  exact ⟨fun ⟨_, _, ⟨rfl, rfl⟩, h⟩ => h, fun h => ⟨_, _, ⟨rfl, rfl⟩, h⟩⟩

theorem matchedAt_last {w : Workspace κ} (h : multiObjectTrackingHC xyzPoints frames = .ok w) :
    MatchedAt xyzPoints (frames ++ [fr]) (frames.length + 1) i ↔
      fr.circles ≠ [] ∧
        ∃ p ∈ (frameMatching fr w).pairs, nth 0 (w.tracks.map Track.id) p.1 = i := by
  simp only [MatchedAt, frameAt_last h]
  exact ⟨fun ⟨_, _, ⟨rfl, rfl⟩, h⟩ => h, fun h => ⟨_, _, ⟨rfl, rfl⟩, h⟩⟩

/-- Seen in the frame just added: it is the last frame so far. -/
theorem lastSeenAt_now
    (h : CreatedAt xyzPoints (frames ++ [fr]) (frames.length + 1) i ∨
      MatchedAt xyzPoints (frames ++ [fr]) (frames.length + 1) i) :
    LastSeenAt xyzPoints (frames ++ [fr]) (frames.length + 1) i := by
  have hlen : (frames ++ [fr]).length = frames.length + 1 := List.length_append
  refine ⟨h, fun k hk => ⟨fun hc => ?_, fun hm => ?_⟩⟩
  · have := hc.le
    omega
  · have := hm.le
    omega

/-- Not seen in the frame just added: the last frame stays. -/
theorem lastSeenAt_before {m : Nat} (hm : LastSeenAt xyzPoints frames m i)
    (hc : ¬ CreatedAt xyzPoints (frames ++ [fr]) (frames.length + 1) i)
    (hmatch : ¬ MatchedAt xyzPoints (frames ++ [fr]) (frames.length + 1) i) :
    LastSeenAt xyzPoints (frames ++ [fr]) m i := by
  have hle := hm.le
  have hlen : (frames ++ [fr]).length = frames.length + 1 := List.length_append
  refine ⟨by rw [createdAt_append hle, matchedAt_append hle]; exact hm.1, fun k hk => ?_⟩
  by_cases hk' : k ≤ frames.length
  · rw [createdAt_append hk', matchedAt_append hk']
    exact hm.2 k hk
  · by_cases he : k = frames.length + 1
    · subst he; exact ⟨hc, hmatch⟩
    · refine ⟨fun hc' => ?_, fun hm' => ?_⟩
      · have := hc'.le
        omega
      · have := hm'.le
        omega

end History

/-! ## Counting frames with detections -/

theorem detectionFrames_drop_append (frames : List (Frame κ)) (fr : Frame κ) {k : Nat}
    (hk : k ≤ frames.length) :
    detectionFrames ((frames ++ [fr]).drop k) =
      detectionFrames (frames.drop k) + if fr.circles = [] then 0 else 1 := by
  unfold detectionFrames
  rw [List.drop_append_of_le_length hk, List.countP_append]
  cases hc : fr.circles <;> simp [hc]

/-- The clocks of track `t` after the frames of a run, made in frame `c` and last seen in `m`. -/
def ClocksAt (frames : List (Frame κ)) (t : Track κ) (c m : Nat) : Prop :=
  t.age = detectionFrames (frames.drop (c - 1)) ∧
    t.consecutiveInvisibleCount = detectionFrames (frames.drop m)

/-- What the induction over the run carries: every track was made and last seen at frames that
its clocks count from. -/
def HasClocks (xyzPoints : PointCloud) (frames : List (Frame κ)) (t : Track κ) : Prop :=
  ∃ c m, CreatedAt xyzPoints frames c t.id ∧ LastSeenAt xyzPoints frames m t.id ∧
    ClocksAt frames t c m

section Step

variable {xyzPoints : PointCloud} {frames : List (Frame κ)} {fr : Frame κ} {w : Workspace κ}
  {t : Track κ}

/-- The id of a track in the array is not given to a new track. -/
theorem not_createdAt_last (h : multiObjectTrackingHC xyzPoints frames = .ok w)
    (ht : t ∈ w.tracks) :
    ¬ CreatedAt xyzPoints (frames ++ [fr]) (frames.length + 1) t.id := by
  rw [createdAt_last h]
  rintro ⟨-, hi⟩
  have := (loop_inv h).ids_lt t ht
  have := (List.mem_range'_1.mp hi).1
  omega

theorem HasClocks.empty_frame (h : multiObjectTrackingHC xyzPoints frames = .ok w)
    (ht : t ∈ w.tracks) (hc : HasClocks xyzPoints frames t) (hfr : fr.circles = []) :
    HasClocks xyzPoints (frames ++ [fr]) (t.predicted fr.toolbox) := by
  obtain ⟨c, m, hcr, hls, hage, hinv⟩ := hc
  have hcle := hcr.le
  have hmle := hls.le
  have hnew : ¬ CreatedAt xyzPoints (frames ++ [fr]) (frames.length + 1) t.id :=
    not_createdAt_last h ht
  refine ⟨c, m, (createdAt_append hcle).mpr hcr, lastSeenAt_before hls hnew ?_, ?_, ?_⟩
  · rw [matchedAt_last h]
    exact fun hm => hm.1 hfr
  · rw [detectionFrames_drop_append _ _ (by omega), if_pos hfr]
    exact hage
  · rw [detectionFrames_drop_append _ _ hmle, if_pos hfr]
    exact hinv

theorem HasClocks.step (h : multiObjectTrackingHC xyzPoints frames = .ok w) {j : Nat}
    (ht : w.tracks[j]? = some t) (hc : HasClocks xyzPoints frames t) (hfr : fr.circles ≠ []) :
    HasClocks xyzPoints (frames ++ [fr])
      (stepTrack fr.toolbox fr.circles (frameMatching fr w) (j + 1) (t.predicted fr.toolbox)) := by
  obtain ⟨c, m, hcr, hls, hage, hinv⟩ := hc
  have hcle := hcr.le
  have hmle := hls.le
  have hid : (w.tracks.map Track.id)[j]? = some t.id := by rw [List.getElem?_map, ht]; rfl
  have hnew : ¬ CreatedAt xyzPoints (frames ++ [fr]) (frames.length + 1) t.id :=
    not_createdAt_last h (List.mem_of_getElem? ht)
  have hcount : detectionFrames ((frames ++ [fr]).drop (c - 1)) =
      detectionFrames (frames.drop (c - 1)) + 1 := by
    rw [detectionFrames_drop_append _ _ (by omega), if_neg hfr]
  unfold stepTrack
  cases hr : (frameMatching fr w).rightOf (j + 1) with
  | some d =>
    have hp := (frameMatching fr w).rightOf_eq_some.mp hr
    refine ⟨c, frames.length + 1, (createdAt_append hcle).mpr hcr, lastSeenAt_now (.inr ?_), ?_, ?_⟩
    · rw [matchedAt_last h]
      refine ⟨hfr, _, hp, ?_⟩
      simp [nth, List.getD_eq_getElem?_getD, hid]
    · rw [hcount, ← hage]
      rfl
    · rw [List.drop_of_length_le (by simp)]
      rfl
  | none =>
    refine ⟨c, m, (createdAt_append hcle).mpr hcr, lastSeenAt_before hls hnew ?_, ?_, ?_⟩
    · rw [matchedAt_last h]
      -- a pair with its id would be its own, since ids are distinct
      rintro ⟨-, p, hp, hpid⟩
      have hv := (frameMatching fr w).valid_left hp
      simp only [predictedTracks, List.length_map] at hv
      have hpj : (w.tracks.map Track.id)[p.1 - 1]? = (w.tracks.map Track.id)[j]? := by
        rw [getElem?_of_valid 0 (by simpa using hv), hpid]
        exact hid.symm
      have hlt : p.1 - 1 < (w.tracks.map Track.id).length := by
        rw [List.length_map]; have := hv.1; have := hv.2; omega
      have hpj := (List.getElem?_inj hlt (loop_inv h).ids_nodup).mp hpj
      have hp1 : p.1 = j + 1 := by have := hv.1; omega
      rw [← hp1, (frameMatching fr w).rightOf_eq_some.mpr hp] at hr
      cases hr
    · rw [hcount, ← hage]
      rfl
    · rw [detectionFrames_drop_append _ _ hmle, if_neg hfr, ← hinv]
      rfl

theorem HasClocks.new (h : multiObjectTrackingHC xyzPoints frames = .ok w)
    (ht : t ∈ fresh fr.toolbox w.nextId (unassigned fr w)) (hfr : fr.circles ≠ []) :
    HasClocks xyzPoints (frames ++ [fr]) t := by
  have hid : t.id ∈ List.range' w.nextId (unassigned fr w).length := by
    rw [← ids_fresh fr.toolbox]; exact List.mem_map_of_mem ht
  obtain ⟨j, hj, rfl⟩ := List.mem_mapIdx.mp ht
  have hnow : CreatedAt xyzPoints (frames ++ [fr]) (frames.length + 1) _ :=
    (createdAt_last h).mpr ⟨hfr, hid⟩
  refine ⟨frames.length + 1, frames.length + 1, hnow, lastSeenAt_now (.inl hnow), ?_, ?_⟩
  · rw [Nat.add_sub_cancel, detectionFrames_drop_append _ _ (Nat.le_refl _), if_neg hfr,
      List.drop_length]
    rfl
  · rw [List.drop_of_length_le (by simp)]
    rfl

end Step

/-- Every track of every run has its clocks. -/
theorem hasClocks {xyzPoints : PointCloud} {frames : List (Frame κ)} {w : Workspace κ}
    (h : multiObjectTrackingHC xyzPoints frames = .ok w) :
    ∀ t ∈ w.tracks, HasClocks xyzPoints frames t := by
  refine Run.run_history (R := fun frames (w : Workspace κ) =>
    ∀ t ∈ w.tracks, HasClocks xyzPoints frames t) (fun t ht => (List.not_mem_nil ht).elim) ?_ h
  intro frames w fr w' hw hc hstep t ht
  obtain ⟨v, hv, rfl⟩ := loopIteration_ok hstep
  rw [reportFrame_tracks] at ht
  rw [trackFrame_eq] at hv
  cases hv
  split at ht
  · rename_i hfr
    obtain ⟨t₀, ht₀, rfl⟩ := List.mem_map.mp ht
    exact (hc t₀ ht₀).empty_frame hw ht₀ hfr
  · rename_i hfr
    rcases List.mem_append.mp ht with ht | ht
    · obtain ⟨j, hj, rfl⟩ := List.mem_mapIdx.mp (List.mem_filter.mp ht).1
      simp only [predictedTracks, List.length_map] at hj
      have hget : w.tracks[j]? = some w.tracks[j] := List.getElem?_eq_getElem hj
      have := (hc _ (List.getElem_mem hj)).step hw hget hfr
      simpa [predictedTracks] using this
    · exact .new hw ht hfr

/-! ## Every run of the loop -/

theorem LastSeenAt.unique {xyzPoints : PointCloud} {frames : List (Frame κ)} {m m' i : Nat}
    (h : LastSeenAt xyzPoints frames m i) (h' : LastSeenAt xyzPoints frames m' i) : m = m' := by
  rcases Nat.lt_trichotomy m m' with hlt | heq | hgt
  · exact (h'.1.elim (h.2 m' hlt).1 (h.2 m' hlt).2).elim
  · exact heq
  · exact (h.1.elim (h'.2 m hgt).1 (h'.2 m hgt).2).elim

/-- Ids grow, so an id made in frame `c` is not made in a later one. -/
theorem not_createdAt_later {xyzPoints : PointCloud} {frames : List (Frame κ)} {c c' i : Nat}
    (hlt : c < c') (h : CreatedAt xyzPoints frames c i) : ¬ CreatedAt xyzPoints frames c' i := by
  rintro ⟨w', fr', ⟨hc', -, hw'⟩, -, hi'⟩
  obtain ⟨w, fr, ⟨hc, hfr, hw⟩, hne, hi⟩ := h
  -- the run up to `c'` goes through frame `c`, and `nextId` only grows after it
  have hsplit : frames.take (c' - 1) =
      (frames.take (c - 1) ++ [fr]) ++ (frames.take (c' - 1)).drop c := by
    have hcc : c - 1 + 1 = c := by omega
    have htake : frames.take (c - 1) ++ [fr] = (frames.take (c' - 1)).take c := by
      rw [List.take_take, Nat.min_eq_left (by omega), ← hcc, List.take_add_one, hcc, hfr]
      rfl
    rw [htake, List.take_append_drop]
  unfold multiObjectTrackingHC at hw hw'
  rw [hsplit, Run.run_append] at hw'
  obtain ⟨v, hv, hrest⟩ := hw'
  obtain ⟨u, hu, hstep⟩ := Run.run_snoc.mp hv
  rw [hw] at hu
  cases hu
  obtain ⟨x, hx, rfl⟩ := loopIteration_ok hstep
  rw [trackFrame_eq, if_neg hne] at hx
  cases hx
  have hle := (ids_not_reused hrest).1
  rw [reportFrame_nextId] at hle
  have h1 := (List.mem_range'_1.mp hi).2
  have h2 := (List.mem_range'_1.mp hi').1
  simp only [afterDetections] at hle
  omega

theorem CreatedAt.unique {xyzPoints : PointCloud} {frames : List (Frame κ)} {c c' i : Nat}
    (h : CreatedAt xyzPoints frames c i) (h' : CreatedAt xyzPoints frames c' i) : c = c' := by
  rcases Nat.lt_trichotomy c c' with hlt | heq | hgt
  · exact (not_createdAt_later hlt h h').elim
  · exact heq
  · exact (not_createdAt_later hgt h' h).elim

/-- **Clocks count the frames with detections.** In every run, every track of the array was made
in some frame `c` and last seen in some frame `m`; its age is the number of frames with
detections from `c` on, its `consecutiveInvisibleCount` the number of them after `m`, and there
are fewer than 15 of these. -/
theorem clocks_count_detections (xyzPoints : PointCloud) (frames : List (Frame κ))
    (w : Workspace κ) (h : multiObjectTrackingHC xyzPoints frames = .ok w) (t : Track κ)
    (ht : t ∈ w.tracks) :
    (∃ c m, CreatedAt xyzPoints frames c t.id ∧ LastSeenAt xyzPoints frames m t.id) ∧
    ∀ c m, CreatedAt xyzPoints frames c t.id → LastSeenAt xyzPoints frames m t.id →
      t.age = detectionFrames (frames.drop (c - 1)) ∧
      t.consecutiveInvisibleCount = detectionFrames (frames.drop m) ∧
      detectionFrames (frames.drop m) < 15 := by
  obtain ⟨c, m, hc, hm, hage, hinv⟩ := hasClocks h t ht
  refine ⟨⟨c, m, hc, hm⟩, fun c' m' hc' hm' => ?_⟩
  obtain rfl := hc.unique hc'
  obtain rfl := hm.unique hm'
  exact ⟨hage, hinv, hinv ▸ ((loop_inv h).tracks t ht).kept⟩

/-- Clocks that count every frame. -/
def ClocksCountFrames (xyzPoints : PointCloud) (frames : List (Frame κ)) (w : Workspace κ) :
    Prop :=
  ∀ t ∈ w.tracks, ∀ c m, CreatedAt xyzPoints frames c t.id →
    LastSeenAt xyzPoints frames m t.id →
    t.age = (frames.length - c) + 1 ∧ t.consecutiveInvisibleCount = frames.length - m

/-- One cup, seen in the first frame, and then fifteen frames in which nothing is found. -/
def cupLeaves : List (Frame (ℚ × ℚ)) :=
  stillFrame [⟨100, 100, 20⟩] :: List.replicate 15 (stillFrame [])

theorem cupLeaves_detects {k : Nat} {fr : Frame (ℚ × ℚ)} (h : cupLeaves[k]? = some fr)
    (hfr : fr.circles ≠ []) : k = 0 := by
  cases k with
  | zero => rfl
  | succ k =>
    rw [cupLeaves, List.getElem?_cons_succ] at h
    rw [(List.mem_replicate.mp (List.mem_of_getElem? h)).2] at hfr
    exact absurd rfl hfr

/-- Frames without detections are not counted: after them the cup's track is as old as before,
and still there. -/
theorem clocks_miss_empty_frames :
    ∃ w, multiObjectTrackingHC flatCloud cupLeaves = .ok w ∧
      ¬ ClocksCountFrames flatCloud cupLeaves w ∧
      ∃ t ∈ w.tracks, LastSeenAt flatCloud cupLeaves 1 t.id := by
  obtain ⟨w, hw⟩ := Run.exists_ok (x := multiObjectTrackingHC flatCloud cupLeaves)
    (by decide +kernel)
  have hages : (multiObjectTrackingHC flatCloud cupLeaves).toOption.map
      (fun w => w.tracks.map Track.age) = some [1] := by decide +kernel
  rw [hw] at hages
  simp only [Except.toOption, Option.map_some, Option.some.injEq] at hages
  obtain ⟨t, ht, hage⟩ : ∃ t ∈ w.tracks, t.age = 1 := by
    have : 1 ∈ w.tracks.map Track.age := by simp [hages]
    exact List.mem_map.mp this
  obtain ⟨c, m, hc, hm, -⟩ := hasClocks hw t ht
  -- only the first frame has a detection
  have hc1 : c = 1 := by
    obtain ⟨_, _, ⟨h1, hfr, -⟩, hne, -⟩ := hc
    have := cupLeaves_detects hfr hne
    omega
  have hm1 : m = 1 := by
    rcases hm.1 with ⟨_, _, ⟨h1, hfr, -⟩, hne, -⟩ | ⟨_, _, ⟨h1, hfr, -⟩, hne, -⟩ <;>
    · have := cupLeaves_detects hfr hne
      omega
  subst hc1 hm1
  refine ⟨w, hw, fun hclaim => ?_, t, ht, hm⟩
  have := (hclaim t ht 1 1 hc hm).1
  rw [hage] at this
  simp [cupLeaves] at this

theorem clocks_count_detections_still :
    ∃ w, multiObjectTrackingHC flatCloud cupLeaves = .ok w ∧ ∃ t ∈ w.tracks,
      ∀ c m, CreatedAt flatCloud cupLeaves c t.id → LastSeenAt flatCloud cupLeaves m t.id →
        t.age = detectionFrames (cupLeaves.drop (c - 1)) := by
  obtain ⟨w, hw⟩ := Run.exists_ok (x := multiObjectTrackingHC flatCloud cupLeaves)
    (by decide +kernel)
  have hlen : (multiObjectTrackingHC flatCloud cupLeaves).toOption.map
      (fun w => w.tracks.length) = some 1 := by decide +kernel
  rw [hw] at hlen
  simp only [Except.toOption, Option.map_some, Option.some.injEq] at hlen
  obtain ⟨t, ht⟩ := List.exists_mem_of_length_pos (l := w.tracks) (by omega)
  exact ⟨w, hw, t, ht, fun c m hc hm =>
    ((clocks_count_detections flatCloud cupLeaves w hw t ht).2 c m hc hm).1⟩

end DrinkRobot
