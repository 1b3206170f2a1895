import DrinkRobot.Tracker.Invariant

/-!
# The per-call tracker against the looping tracker

`Prac3Main2.m` calls `multiObjectTracking_HC_new` once per frame: `nextId` is threaded through,
the `tracks` variable is passed in, and it stays the empty array because the tracks of a call are
not returned.

* `callStep_eq`: a call raises `nextId` by the number of detections; nothing is ever matched.
* `PerCallRefines`: after every frame the two programs have the same `nextId`, and they give every
  detection of the frame the same track id.
* `perCall_refines_iff`: this holds exactly when in every frame of the loop the unassigned
  detections are those of a frame without tracks.
-/

namespace DrinkRobot

open OneBased

variable {κ : Type}

/-- The workspace in which a call of `multiObjectTracking_HC_new` starts. -/
def callStart (Nid : Nat) : Workspace κ where
  tracks := initializeTracks
  nextId := Nid

/-- One call as `Prac3Main2` makes it: the next `nextId`. -/
def callStep (Nid : Nat) (fr : Frame κ) : Except MatlabError Nat := do
  let (nextId, _everything) ← multiObjectTrackingHCNew fr initializeTracks Nid
  pure nextId

/-- `nextId` after one call for each of the frames. -/
def callEachFrame (frames : List (Frame κ)) : Except MatlabError Nat :=
  Run.run callStep 1 frames

/-! ## A call without tracks -/

theorem callStart_pairs (fr : Frame κ) (Nid : Nat) :
    (frameMatching fr (callStart Nid)).pairs = [] :=
  Matching.pairs_eq_nil (frameMatching fr (callStart Nid))

/-- The unassigned detections of a call: all of them, in the order the toolbox lists them. -/
def callUnassigned (fr : Frame κ) : List Nat := (frameMatching fr (callStart 1)).freeRight

theorem callStart_freeRight (fr : Frame κ) (Nid : Nat) :
    (frameMatching fr (callStart Nid)).freeRight = callUnassigned fr := rfl

theorem callUnassigned_perm (fr : Frame κ) :
    (callUnassigned fr).Perm (List.range' 1 fr.circles.length) := by
  refine ((frameMatching fr (callStart 1)).freeRight_perm (callStart_pairs fr 1)).trans ?_
  rw [List.length_map]

theorem length_callUnassigned (fr : Frame κ) : (callUnassigned fr).length = fr.circles.length := by
  rw [(callUnassigned_perm fr).length_eq, List.length_range']

theorem trackFrame_nextId {fr : Frame κ} {w v : Workspace κ} (h : trackFrame fr w = .ok v) :
    v.nextId =
      w.nextId + if fr.circles = [] then 0 else (frameMatching fr w).freeRight.length := by
  rw [trackFrame_eq] at h
  cases h
  split
  · rfl
  · simp [afterDetections, unassigned]

/-- A call without tracks is one frame from `callStart`. -/
theorem multiObjectTrackingHCNew_eq {fr : Frame κ} {Nid : Nat} {v : Workspace κ}
    (h : trackFrame fr (callStart Nid) = .ok v) :
    multiObjectTrackingHCNew fr initializeTracks Nid =
      .ok ((reportFrame v).nextId, (reportFrame v).everything) := by
  unfold multiObjectTrackingHCNew callWorkspace
  rw [show trackFrame fr { tracks := initializeTracks, nextId := Nid } = .ok v from h]
  rfl

theorem callStep_eq {fr : Frame κ} {Nid : Nat} {v : Workspace κ}
    (h : trackFrame fr (callStart Nid) = .ok v) : callStep Nid fr = .ok v.nextId := by
  unfold callStep
  rw [multiObjectTrackingHCNew_eq h, reportFrame_nextId]
  rfl

/-! ## The same ids -/

/-- A frame that starts from `w` in the loop and from `Nid` in a call ends with the same `nextId`
and gives every detection the same track id. -/
structure SameIds (fr : Frame κ) (w : Workspace κ) (Nid : Nat) : Prop where
  nextId : ∀ v v', trackFrame fr w = .ok v → trackFrame fr (callStart Nid) = .ok v' →
    v.nextId = v'.nextId
  ids : ∀ d, Valid fr.circles.length d → detectionId fr w d = detectionId fr (callStart Nid) d

/-- After every frame of the sequence the loop and the calls have the same ids. -/
def PerCallRefines (xyzPoints : PointCloud) (frames : List (Frame κ)) : Prop :=
  ∀ is fr, is ++ [fr] <+: frames → ∀ w Nid, multiObjectTrackingHC xyzPoints is = .ok w →
    callEachFrame is = .ok Nid → SameIds fr w Nid

/-- The loop leaves in the frame the detections unassigned that a call does. -/
def NothingMatched (fr : Frame κ) (w : Workspace κ) : Prop :=
  fr.circles ≠ [] → (frameMatching fr w).freeRight = callUnassigned fr

theorem detectionId_free {fr : Frame κ} {w : Workspace κ} {d : Nat}
    (hd : d ∈ (frameMatching fr w).freeRight) :
    detectionId fr w d = w.nextId + (frameMatching fr w).freeRight.idxOf d := by
  unfold detectionId
  rw [(frameMatching fr w).leftOf_free hd]

theorem detectionId_call {fr : Frame κ} {Nid d : Nat} (hd : d ∈ callUnassigned fr) :
    detectionId fr (callStart Nid) d = Nid + (callUnassigned fr).idxOf d :=
  detectionId_free hd

theorem mem_callUnassigned {fr : Frame κ} {d : Nat} :
    d ∈ callUnassigned fr ↔ Valid fr.circles.length d := by
  rw [(callUnassigned_perm fr).mem_iff, List.mem_range'_1]
  exact ⟨fun h => ⟨h.1, by omega⟩, fun h => ⟨h.1, by have := h.2; omega⟩⟩

/-- Two permutations in which everything has the same position are equal. -/
theorem eq_of_idxOf_eq {xs ys : List Nat} (hp : xs.Perm ys) (hnd : xs.Nodup)
    (h : ∀ x ∈ xs, xs.idxOf x = ys.idxOf x) : xs = ys := by
  refine List.ext_getElem hp.length_eq fun j h1 h2 => ?_
  have hj := h _ (List.getElem_mem h1)
  rw [hnd.idxOf_getElem] at hj
  have hlt : ys.idxOf xs[j] < ys.length := List.idxOf_lt_length_iff.mpr
    (hp.mem_iff.mp (List.getElem_mem h1))
  have := List.getElem_idxOf hlt
  simp only [← hj] at this
  exact this.symm

/-- From the same `nextId`, a frame ends with the same ids exactly when nothing is matched. -/
theorem sameIds_iff {fr : Frame κ} {w : Workspace κ} :
    SameIds fr w w.nextId ↔ NothingMatched fr w := by
  constructor
  · rintro ⟨hnext, hids⟩ hfr
    have hcount := hnext _ _ (trackFrame_eq fr w) (trackFrame_eq fr _)
    rw [trackFrame_nextId (trackFrame_eq fr w), trackFrame_nextId (trackFrame_eq fr _), if_neg hfr,
      if_neg hfr, callStart_freeRight, length_callUnassigned] at hcount
    -- as many new ids in both, so every detection is free
    have hlen : (frameMatching fr w).freeRight.length = (fr.circles.map Circle.centre).length :=
      (Nat.add_left_cancel hcount).trans (List.length_map _).symm
    have hperm := (frameMatching fr w).freeRight_perm
      ((frameMatching fr w).pairs_eq_nil_of_freeRight hlen)
    have hsame : (frameMatching fr w).freeRight.Perm (callUnassigned fr) := by
      refine hperm.trans (.trans ?_ (callUnassigned_perm fr).symm)
      rw [List.length_map]
    have hnd := (List.nodup_append.mp (frameMatching fr w).nodup_right).2.1
    -- and the ids say that the two lists of free detections have the same order
    refine eq_of_idxOf_eq hsame hnd fun d hd => ?_
    have hcall := hsame.mem_iff.mp hd
    have := hids d (mem_callUnassigned.mp hcall)
    rw [detectionId_free hd, detectionId_call hcall] at this
    exact Nat.add_left_cancel this
  · intro h
    refine ⟨fun v v' hv hv' => ?_, fun d hd => ?_⟩
    · rw [trackFrame_nextId hv, trackFrame_nextId hv', callStart_freeRight]
      by_cases hfr : fr.circles = []
      · rw [if_pos hfr, if_pos hfr]
        rfl
      · rw [if_neg hfr, if_neg hfr, h hfr]
        rfl
    · have hfr : fr.circles ≠ [] := by
        rintro hnil
        have := hd.1
        have := hd.2
        rw [hnil, List.length_nil] at this
        omega
      have hcall := mem_callUnassigned.mpr hd
      rw [detectionId_free (by rw [h hfr]; exact hcall), detectionId_call hcall, h hfr]

/-! ## Every run -/

theorem prefix_of_snoc {frames is : List (Frame κ)} {fr : Frame κ} (h : is ++ [fr] <+: frames) :
    is <+: frames :=
  (List.prefix_append is [fr]).trans h

/-- When every frame has the same ids, the two programs have the same `nextId` between frames. -/
theorem nextId_eq {xyzPoints : PointCloud} {frames : List (Frame κ)}
    (hsame : ∀ is fr, is ++ [fr] <+: frames → ∀ w, multiObjectTrackingHC xyzPoints is = .ok w →
      callEachFrame is = .ok w.nextId → SameIds fr w w.nextId)
    {is : List (Frame κ)} (hpre : is <+: frames) {w : Workspace κ}
    (hw : multiObjectTrackingHC xyzPoints is = .ok w) : callEachFrame is = .ok w.nextId := by
  refine Run.run_history (R := fun is (w : Workspace κ) =>
    is <+: frames → callEachFrame is = .ok w.nextId) (fun _ => rfl) ?_ hw hpre
  intro is m fr w' hm ih hstep hpre
  have hN := ih (prefix_of_snoc hpre)
  obtain ⟨v, hv, rfl⟩ := loopIteration_ok hstep
  have hcall := trackFrame_eq fr (callStart m.nextId)
  refine Run.run_snoc.mpr ⟨_, hN, ?_⟩
  rw [callStep_eq hcall, reportFrame_nextId, (hsame is fr hpre m hm hN).nextId v _ hv hcall]

/-- **When the calls refine the loop.** For every sequence of frames, the calls and the loop have
the same ids after every frame exactly when no frame of the loop matches a detection with a
track and every frame lists its unassigned detections as a frame without tracks does. -/
theorem perCall_refines_iff (xyzPoints : PointCloud) (frames : List (Frame κ)) :
    PerCallRefines xyzPoints frames ↔
      ∀ is fr, is ++ [fr] <+: frames → ∀ w, multiObjectTrackingHC xyzPoints is = .ok w →
        NothingMatched fr w := by
  constructor
  · intro h is fr hpre w hw
    have hN := nextId_eq (fun is fr hp w hw hN => h is fr hp w _ hw hN) (prefix_of_snoc hpre) hw
    exact sameIds_iff.mp (h is fr hpre w _ hw hN)
  · intro h is fr hpre w Nid hw hN
    have hN' := nextId_eq (fun is fr hp w hw _ => sameIds_iff.mpr (h is fr hp w hw))
      (prefix_of_snoc hpre) hw
    rw [hN] at hN'
    cases hN'
    exact sameIds_iff.mpr (h is fr hpre w hw)

/-- A cup that stays where it is keeps id 1 in the loop and gets id 2 in the second call. -/
theorem still_cup_gets_new_id :
    ¬ PerCallRefines flatCloud [stillFrame [⟨100, 100, 20⟩], stillFrame [⟨100, 100, 20⟩]] := by
  intro h
  obtain ⟨w, hw⟩ := Run.exists_ok (x := multiObjectTrackingHC flatCloud
    [stillFrame [⟨100, 100, 20⟩]]) (by decide +kernel)
  have hcall : callEachFrame [stillFrame [⟨100, 100, 20⟩]] = .ok 2 := by decide +kernel
  have hid : (multiObjectTrackingHC flatCloud [stillFrame [⟨100, 100, 20⟩]]).map
      (fun w => detectionId (stillFrame [⟨100, 100, 20⟩]) w 1) = .ok 1 := by decide +kernel
  have hid' : detectionId (stillFrame [⟨100, 100, 20⟩]) (callStart 2) 1 = 2 := by decide +kernel
  have := (h [stillFrame [⟨100, 100, 20⟩]] (stillFrame [⟨100, 100, 20⟩]) ⟨[], rfl⟩ w 2 hw hcall).ids
    1 (by simp [Valid, stillFrame])
  rw [hw] at hid
  simp only [Except.map, Except.ok.injEq] at hid
  rw [hid, hid'] at this
  cases this

end DrinkRobot
