import DrinkRobot.Lib.Indexed
import DrinkRobot.Lib.Mean
import DrinkRobot.Metric
import Mathlib.LinearAlgebra.Matrix.Notation

/-!
# Where a fiducial marker is

`find_coasters` matches the features of a marker picture with those of the camera image and
takes the mean position of the matches that `visualise_sift_matches` returns. That function was
written to draw both pictures side by side, and its mean is in the frame of the merged picture.

* `mergeImages_ok`: the merged picture shows the second image to the right of the first one, and
  `tform` is the way from the one frame to the other.
* `visualise_eq`: the point returned is the mean of the matched scene positions, moved to the right
  by the width of the marker picture.
* `fiducial_position_iff`: so it is the mean itself exactly when nothing matched, which gives NaN,
  or the marker picture has no columns; and it depends on the width of the marker picture.

Only the positions of the features are read. `input_points`, `base_points` and `av_i_pt` are not
returned.
-/

namespace DrinkRobot

open OneBased

variable {α : Type}

/-! ## The merged picture -/

/-- A picture, from row 1 and column 1. -/
structure Image (α : Type) where
  height : Nat
  width : Nat
  pixel : Nat → Nat → α

/-- `padarray(I, rows, value, 'post')`: rows put under the picture. -/
def padarray (I : Image α) (rows : Nat) (value : α) : Image α where
  height := I.height + rows
  width := I.width
  pixel r c := if r ≤ I.height then I.pixel r c else value

/-- `[I J]`. -/
def hconcat (I J : Image α) : Except MatlabError (Image α) :=
  if I.height = J.height then
    .ok {
      height := I.height
      width := I.width + J.width
      pixel := fun r c => if c ≤ I.width then I.pixel r c else J.pixel r (c - I.width) }
  else
    .error .dimensionMismatch

/-- The two pictures side by side, and the way from the frame of `J` into theirs. -/
def mergeImages [Zero α] (I J : Image α) :
    Except MatlabError (Image α × Matrix (Fin 4) (Fin 4) ℚ) := do
  let maxHeight := max I.height J.height
  let iPad := padarray I (maxHeight - I.height) 0
  let jPad := padarray J (maxHeight - J.height) 0
  let out ← hconcat iPad jPad
  -- `eye(4)` with `tform(1, 4)` set
  let tform : Matrix (Fin 4) (Fin 4) ℚ := fun i j =>
    if i = 0 ∧ j = 3 then iPad.width else (1 : Matrix (Fin 4) (Fin 4) ℚ) i j
  pure (out, tform)

/-- `tform * [pt; 0; 1]`, its first two entries. -/
def transformed (tform : Matrix (Fin 4) (Fin 4) ℚ) (pt : ℚ × ℚ) : ℚ × ℚ :=
  let v := tform.mulVec ![pt.1, pt.2, 0, 1]
  (v 0, v 1)

/-! ## The matches -/

/-- One round of the loop over the matches: the sums of the matched positions. -/
def addMatch (tform : Matrix (Fin 4) (Fin 4) ℚ) (fI fJ : List (ℚ × ℚ))
    (sums : (ℚ × ℚ) × (ℚ × ℚ)) (m : Nat × Nat) : Except MatlabError ((ℚ × ℚ) × (ℚ × ℚ)) := do
  let (avIPt, avJPt) := sums
  let ptI ← get .badIndex fI m.1
  let ptJ ← get .badIndex fJ m.2
  let avIPt := avIPt + ptI
  let ptJ := transformed tform ptJ
  pure (avIPt, avJPt + ptJ)

/-- `./` by a number of matches: 0 by 0 is NaN. -/
def divide (v : ℚ) (n : Nat) : Double := if n = 0 then none else some (v / n)

/-- The position returned for the feature positions `f_I` and `f_J` and the matched pairs. -/
def visualiseSiftMatches [Zero α] (I J : Image α) (fI fJ : List (ℚ × ℚ))
    (pairs : List (Nat × Nat)) : Except MatlabError (Double × Double) := do
  let (_, tform) ← mergeImages I J
  let (_, avJPt) ← pairs.foldlM (addMatch tform fI fJ) (0, 0)
  let x := divide avJPt.1 pairs.length
  let y := divide avJPt.2 pairs.length
  pure (x, y)

/-- The columns in reverse order. -/
def mirrored (I : Image α) : Image α := { I with pixel := fun r c => I.pixel r (I.width + 1 - c) }

/-- The position is inside the picture. -/
def Image.Contains (I : Image α) (p : ℚ × ℚ) : Prop :=
  1 ≤ p.1 ∧ p.1 ≤ I.width ∧ 1 ≤ p.2 ∧ p.2 ≤ I.height

/-- The toolbox functions that `find_coasters` calls, with the scale 0.2 and the threshold 1.0: the
features of a picture are inside it, and matches are pairs of valid indices. -/
structure SiftToolbox (ρ α δ : Type) where
  rgb2gray : Image ρ → Image α
  imresize : Image α → Image α
  vlSift : Image α → List ((ℚ × ℚ) × δ)
  vlUbcmatch : List δ → List δ → List (Nat × Nat)
  sift_inside : ∀ I, ∀ p ∈ vlSift I, I.Contains p.1
  match_valid : ∀ da db, ∀ m ∈ vlUbcmatch da db, Valid da.length m.1 ∧ Valid db.length m.2

def findCoasters {ρ δ : Type} [Zero α] (tb : SiftToolbox ρ α δ) (marker image : Image ρ) :
    Except MatlabError (Double × Double) :=
  let Iaorig := tb.rgb2gray (mirrored marker)
  let Ia := tb.imresize Iaorig
  let fa := (tb.vlSift Ia).map Prod.fst
  let da := (tb.vlSift Ia).map Prod.snd
  let Iborig := tb.rgb2gray (mirrored image)
  let Ib := tb.imresize Iborig
  let fb := (tb.vlSift Ib).map Prod.fst
  let db := (tb.vlSift Ib).map Prod.snd
  visualiseSiftMatches (tb.imresize Iaorig) (tb.imresize Iborig) fa fb (tb.vlUbcmatch da db)

/-- The callers' use of the position: a fixed place when it is NaN, and `metric` otherwise. -/
def fiducialXY (xyzPoints : PointCloud) (fallback : XY) (x y : Double) :
    Except MatlabError (List XY) :=
  match x, y with
  | none, _ => .ok [fallback]
  | some x, some y => metric xyzPoints [(x, y)]
  | some _, none => .error .badIndex

/-! ## What is returned -/

/-- The merged picture shows `I`, and `J` at the positions that `tform` takes its own to. -/
theorem mergeImages_ok [Zero α] (I J : Image α) :
    ∃ out tform, mergeImages I J = .ok (out, tform) ∧
      (∀ r c, r ≤ I.height → c ≤ I.width → out.pixel r c = I.pixel r c) ∧
      (∀ r c, r ≤ J.height → 1 ≤ c → out.pixel r (I.width + c) = J.pixel r c) ∧
      ∀ p, transformed tform p = (p.1 + I.width, p.2) := by
  have hheight : I.height + (max I.height J.height - I.height) =
      J.height + (max I.height J.height - J.height) := by omega
  unfold mergeImages hconcat padarray
  simp only [hheight, if_true]
  refine ⟨_, _, rfl, ?_, ?_, ?_⟩
  · intro r c hr hc
    simp [hr, hc]
  · intro r c hr hc
    have hc' : ¬ I.width + c ≤ I.width := by omega
    simp [hr, hc']
  · intro p
    simp [transformed, Matrix.mulVec, dotProduct, Fin.sum_univ_four, Matrix.one_apply]

/-- The scene positions of the matches. -/
def scenePositions (fJ : List (ℚ × ℚ)) (pairs : List (Nat × Nat)) : List (ℚ × ℚ) :=
  pairs.map fun m => nth (0, 0) fJ m.2

/-- Every match is a pair of valid indices. -/
def ValidPairs (fI fJ : List (ℚ × ℚ)) (pairs : List (Nat × Nat)) : Prop :=
  ∀ m ∈ pairs, Valid fI.length m.1 ∧ Valid fJ.length m.2

theorem addMatch_ok {tform : Matrix (Fin 4) (Fin 4) ℚ} {w : ℚ}
    (htform : ∀ p, transformed tform p = (p.1 + w, p.2)) {fI fJ : List (ℚ × ℚ)}
    (sums : (ℚ × ℚ) × (ℚ × ℚ)) {m : Nat × Nat} (hI : Valid fI.length m.1)
    (hJ : Valid fJ.length m.2) :
    addMatch tform fI fJ sums m = .ok (sums.1 + nth (0, 0) fI m.1,
      sums.2 + ((nth (0, 0) fJ m.2).1 + w, (nth (0, 0) fJ m.2).2)) := by
  unfold addMatch
  rw [get_of_valid _ (0, 0) hI, get_of_valid _ (0, 0) hJ]
  show Except.ok (_, sums.2 + transformed tform (nth (0, 0) fJ m.2)) = _
  rw [htform]

/-- The loop does not fail, and sums the scene positions, each moved to the right. -/
theorem foldlM_addMatch {tform : Matrix (Fin 4) (Fin 4) ℚ} {w : ℚ}
    (htform : ∀ p, transformed tform p = (p.1 + w, p.2)) {fI fJ : List (ℚ × ℚ)}
    {pairs : List (Nat × Nat)} (hv : ValidPairs fI fJ pairs) (sums : (ℚ × ℚ) × (ℚ × ℚ)) :
    ∃ avIPt, pairs.foldlM (addMatch tform fI fJ) sums = .ok (avIPt,
      sums.2 + ((((scenePositions fJ pairs).map Prod.fst).map fun x => x + w).sum,
        ((scenePositions fJ pairs).map Prod.snd).sum)) := by
  induction pairs generalizing sums with
  | nil => exact ⟨sums.1, congrArg Except.ok (Prod.ext rfl (add_zero sums.2).symm)⟩
  | cons m pairs ih =>
    obtain ⟨hI, hJ⟩ := hv m (by simp)
    obtain ⟨avIPt, hrest⟩ := ih (fun m' hm' => hv m' (by simp [hm']))
      (sums.1 + nth (0, 0) fI m.1,
        sums.2 + ((nth (0, 0) fJ m.2).1 + w, (nth (0, 0) fJ m.2).2))
    refine ⟨avIPt, ?_⟩
    rw [List.foldlM_cons, addMatch_ok htform sums hI hJ]
    refine hrest.trans (congrArg (fun s => Except.ok (avIPt, s)) ?_)
    simp only [scenePositions, List.map_cons, List.sum_cons]
    exact add_assoc _ _ _

/-- The means of both coordinates. -/
def meanPosition (pts : List (ℚ × ℚ)) : ℚ × ℚ :=
  (Mean.mean (pts.map Prod.fst), Mean.mean (pts.map Prod.snd))

theorem scenePositions_ne_nil (fJ : List (ℚ × ℚ)) {pairs : List (Nat × Nat)} (h : pairs ≠ []) :
    scenePositions fJ pairs ≠ [] := by
  unfold scenePositions
  simpa using h

/-- The point returned: NaN for no matches, and otherwise the mean of the scene positions moved to
the right by the width of the first picture. -/
theorem visualise_eq [Zero α] (I J : Image α) {fI fJ : List (ℚ × ℚ)} {pairs : List (Nat × Nat)}
    (hv : ValidPairs fI fJ pairs) :
    visualiseSiftMatches I J fI fJ pairs = .ok (if pairs = [] then (none, none) else
      (some ((meanPosition (scenePositions fJ pairs)).1 + I.width),
        some (meanPosition (scenePositions fJ pairs)).2)) := by
  obtain ⟨out, tform, hmerge, -, -, htform⟩ := mergeImages_ok I J
  obtain ⟨avIPt, hsums⟩ := foldlM_addMatch htform hv (0, 0)
  have hrun : visualiseSiftMatches I J fI fJ pairs = .ok
      (divide (0 + (((scenePositions fJ pairs).map Prod.fst).map fun x => x + (I.width : ℚ)).sum)
        pairs.length,
        divide (0 + ((scenePositions fJ pairs).map Prod.snd).sum) pairs.length) := by
    unfold visualiseSiftMatches
    rw [hmerge]
    show (pairs.foldlM (addMatch tform fI fJ) (0, 0) >>= _) = _
    rw [hsums]
    rfl
  rw [hrun, zero_add, zero_add]
  by_cases hp : pairs = []
  · subst hp
    rfl
  · have hlen : pairs.length ≠ 0 := by simpa using hp
    have hxs : (scenePositions fJ pairs).map Prod.fst ≠ [] := by
      simpa using scenePositions_ne_nil fJ hp
    have hlength : ∀ f : ℚ × ℚ → ℚ, ((scenePositions fJ pairs).map f).length = pairs.length := by
      simp [scenePositions]
    have hx := Mean.mean_map_add hxs (I.width : ℚ)
    unfold Mean.mean at hx
    rw [List.length_map, hlength] at hx
    unfold divide meanPosition Mean.mean
    rw [if_neg hlen, if_neg hlen, if_neg hp, hlength, hlength, hx]

/-- The mean of positions in the picture is in the picture. -/
theorem contains_meanPosition {J : Image α} {pts : List (ℚ × ℚ)} (hne : pts ≠ [])
    (h : ∀ p ∈ pts, J.Contains p) : J.Contains (meanPosition pts) := by
  have hx : pts.map Prod.fst ≠ [] := by simpa using hne
  have hy : pts.map Prod.snd ≠ [] := by simpa using hne
  unfold meanPosition
  refine ⟨Mean.le_mean hx ?_, Mean.mean_le hx ?_, Mean.le_mean hy ?_, Mean.mean_le hy ?_⟩ <;>
    rw [List.forall_mem_map] <;> intro p hp
  · exact (h p hp).1
  · exact (h p hp).2.1
  · exact (h p hp).2.2.1
  · exact (h p hp).2.2.2

/-! ## The position -/

/-- What should be returned for the scene positions `pts`: NaN if there are none, and otherwise their
mean, which is in the scene. -/
def IsPosition (J : Image α) (pts : List (ℚ × ℚ)) (res : Except MatlabError (Double × Double)) :
    Prop :=
  if pts = [] then
    res = .ok (none, none)
  else
    res = .ok (some (meanPosition pts).1, some (meanPosition pts).2) ∧ J.Contains (meanPosition pts)

theorem mem_scenePositions {fI fJ : List (ℚ × ℚ)} {pairs : List (Nat × Nat)}
    (hv : ValidPairs fI fJ pairs) {p : ℚ × ℚ} (hp : p ∈ scenePositions fJ pairs) : p ∈ fJ := by
  obtain ⟨m, hm, rfl⟩ := List.mem_map.mp hp
  exact List.mem_of_getElem? (getElem?_of_valid (0, 0) (hv m hm).2)

section Visualise

variable [Zero α] {I J : Image α} {fI fJ : List (ℚ × ℚ)} {pairs : List (Nat × Nat)}

theorem visualise_isPosition_iff (hv : ValidPairs fI fJ pairs) (hin : ∀ p ∈ fJ, J.Contains p) :
    IsPosition J (scenePositions fJ pairs) (visualiseSiftMatches I J fI fJ pairs) ↔
      pairs = [] ∨ I.width = 0 := by
  rw [visualise_eq I J hv]
  by_cases hp : pairs = []
  · subst hp
    exact iff_of_true rfl (.inl rfl)
  · have hne := scenePositions_ne_nil fJ hp
    have hcontains := contains_meanPosition hne fun p h => hin p (mem_scenePositions hv h)
    unfold IsPosition
    rw [if_neg hp, if_neg hne, and_iff_left hcontains, or_iff_right hp]
    simp

/-- Two markers with the same scene positions agree exactly when there are none or the marker
pictures are of one width. -/
theorem visualise_eq_iff {I' : Image α} {f_I' : List (ℚ × ℚ)} {pairs' : List (Nat × Nat)}
    (hv : ValidPairs fI fJ pairs) (hv' : ValidPairs f_I' fJ pairs')
    (hsame : scenePositions fJ pairs' = scenePositions fJ pairs) :
    visualiseSiftMatches I' J f_I' fJ pairs' = visualiseSiftMatches I J fI fJ pairs ↔
      pairs = [] ∨ I'.width = I.width := by
  rw [visualise_eq I J hv, visualise_eq I' J hv', hsame]
  have hnil : pairs' = [] ↔ pairs = [] := by
    have := congrArg List.length hsame
    simp only [scenePositions, List.length_map] at this
    rw [← List.length_eq_zero_iff, this, List.length_eq_zero_iff]
  by_cases hp : pairs = []
  · simp [hp, hnil.mpr hp]
  · rw [if_neg hp, if_neg (fun h => hp (hnil.mp h)), or_iff_right hp]
    simp

theorem visualise_nan_iff (hv : ValidPairs fI fJ pairs) {x y : Double}
    (h : visualiseSiftMatches I J fI fJ pairs = .ok (x, y)) : x = none ↔ pairs = [] := by
  rw [visualise_eq I J hv] at h
  by_cases hp : pairs = []
  · rw [if_pos hp] at h
    cases h
    exact iff_of_true rfl hp
  · rw [if_neg hp] at h
    cases h
    simp [hp]

end Visualise

/-- What the callers do with the point: nothing matched is the case of the fixed place. -/
theorem fiducialXY_visualise [Zero α] (I J : Image α) {fI fJ : List (ℚ × ℚ)}
    {pairs : List (Nat × Nat)} (hv : ValidPairs fI fJ pairs) (xyzPoints : PointCloud)
    (fallback : XY) :
    (do
      let (x, y) ← visualiseSiftMatches I J fI fJ pairs
      fiducialXY xyzPoints fallback x y) =
      if pairs = [] then .ok [fallback] else metric xyzPoints
        [((meanPosition (scenePositions fJ pairs)).1 + I.width,
          (meanPosition (scenePositions fJ pairs)).2)] := by
  rw [visualise_eq I J hv]
  by_cases hp : pairs = []
  · rw [if_pos hp, if_pos hp]
    rfl
  · rw [if_neg hp, if_neg hp]
    rfl

theorem findCoasters_isPosition_iff {ρ δ : Type} [Zero α] (tb : SiftToolbox ρ α δ)
    (marker image : Image ρ) :
    let Ia := tb.imresize (tb.rgb2gray (mirrored marker))
    let Ib := tb.imresize (tb.rgb2gray (mirrored image))
    let pairs := tb.vlUbcmatch ((tb.vlSift Ia).map Prod.snd) ((tb.vlSift Ib).map Prod.snd)
    IsPosition Ib (scenePositions ((tb.vlSift Ib).map Prod.fst) pairs)
      (findCoasters tb marker image) ↔ pairs = [] ∨ Ia.width = 0 := by
  refine visualise_isPosition_iff (fun m hm => ?_) ?_
  · have := tb.match_valid _ _ m hm
    simpa only [List.length_map] using this
  · rw [List.forall_mem_map]
    exact tb.sift_inside _

/-- **When the position is the marker's.** For all pictures and features, those of the scene inside
it, and every list of matches: the point returned is the mean of the matched scene positions (NaN for
no matches) exactly when nothing matched or the marker picture has no columns; a second marker with
the same matched positions gives the same point exactly when nothing matched or the marker pictures
are of one width; and the first coordinate is NaN, so that the callers take their fixed place,
exactly when nothing matched. -/
theorem fiducial_position_iff [Zero α] (I J : Image α) (fI fJ : List (ℚ × ℚ))
    (pairs : List (Nat × Nat)) (hv : ValidPairs fI fJ pairs) (hin : ∀ p ∈ fJ, J.Contains p) :
    (IsPosition J (scenePositions fJ pairs) (visualiseSiftMatches I J fI fJ pairs) ↔
        pairs = [] ∨ I.width = 0) ∧
      (∀ (I' : Image α) (f_I' : List (ℚ × ℚ)) (pairs' : List (Nat × Nat)),
        ValidPairs f_I' fJ pairs' → scenePositions fJ pairs' = scenePositions fJ pairs →
        (visualiseSiftMatches I' J f_I' fJ pairs' = visualiseSiftMatches I J fI fJ pairs ↔
          pairs = [] ∨ I'.width = I.width)) ∧
      ∀ x y, visualiseSiftMatches I J fI fJ pairs = .ok (x, y) → (x = none ↔ pairs = []) :=
  ⟨visualise_isPosition_iff hv hin, fun _ _ _ hv' hsame => visualise_eq_iff hv hv' hsame,
    fun _ _ h => visualise_nan_iff hv h⟩

/-- A picture of one shade. -/
def blank (height width : Nat) : Image ℚ := ⟨height, width, fun _ _ => 0⟩

theorem validPairs_one (p q : ℚ × ℚ) : ValidPairs [p] [q] [(1, 1)] := by
  intro m hm
  rw [List.mem_singleton] at hm
  subst hm
  exact ⟨⟨le_rfl, le_rfl⟩, le_rfl, le_rfl⟩

theorem blank_contains {p : ℚ × ℚ} (hp : p ∈ [((5 : ℚ), (6 : ℚ))]) :
    (blank 10 10).Contains p := by
  rw [List.mem_singleton] at hp
  subst hp
  norm_num [Image.Contains, blank]

/-- The match is at column 5 of the scene, and the point returned at column 15. -/
theorem position_beside_marker :
    ¬ IsPosition (blank 10 10) (scenePositions [(5, 6)] [(1, 1)])
      (visualiseSiftMatches (blank 20 10) (blank 10 10) [(3, 4)] [(5, 6)] [(1, 1)]) := by
  rw [visualise_isPosition_iff (validPairs_one (3, 4) (5, 6)) fun p hp => blank_contains hp]
  simp [blank]

theorem marker_width_moves_position :
    visualiseSiftMatches (blank 20 30) (blank 10 10) [(3, 4)] [(5, 6)] [(1, 1)] ≠
      visualiseSiftMatches (blank 20 10) (blank 10 10) [(3, 4)] [(5, 6)] [(1, 1)] := by
  obtain ⟨-, hagree, -⟩ := fiducial_position_iff (blank 20 10) (blank 10 10) [(3, 4)] [(5, 6)]
    [(1, 1)] (validPairs_one (3, 4) (5, 6)) fun p hp => blank_contains hp
  rw [Ne, hagree (blank 20 30) [(3, 4)] [(1, 1)] (validPairs_one (3, 4) (5, 6)) rfl]
  simp [blank]

end DrinkRobot
