import DrinkRobot.Lib.Run
import DrinkRobot.Matlab

/-!
# `metric`: from pixels to the arm's plane

`metric.m` looks each pixel up in the point cloud, at the mirrored column, and converts metres to
centimetres with an offset. The third layer of the cloud is never read.

* `metric_ok`, `metric_inside`: when it returns, and what.
* `mirrors_exactly_iff`: the column read is `W - x` and not the mirror `W + 1 - x`, except for the
  last column, which is read where the one before it is.
-/

namespace DrinkRobot

/-- A point cloud of `height` rows and `width` columns: its first two layers, from row 1 and
column 1. Missing depth is NaN. -/
structure PointCloud where
  height : Nat
  width : Nat
  X : Nat → Nat → Double
  Y : Nat → Nat → Double

/-- The column read for the pixel column `x`: the image is mirrored, and column 0 becomes 1. -/
def pixelx (xyzPoints : PointCloud) (x : ℚ) : Int :=
  let c := matlabRound (xyzPoints.width - x)
  if c = 0 then 1 else c

/-- The row read for the pixel row `y`: row 0 becomes 1. -/
def pixely (y : ℚ) : Int :=
  let r := matlabRound y
  if r = 0 then 1 else r

/-- Row `r` and column `c` are inside the cloud. -/
def PointCloud.Inside (xyzPoints : PointCloud) (r c : Int) : Prop :=
  1 ≤ r ∧ r ≤ xyzPoints.height ∧ 1 ≤ c ∧ c ≤ xyzPoints.width

instance (xyzPoints : PointCloud) (r c : Int) : Decidable (xyzPoints.Inside r c) :=
  inferInstanceAs (Decidable (_ ∧ _))

/-- The centimetres that `metric` computes from the cloud's entry at row `r` and column `c`. -/
def PointCloud.centimetres (xyzPoints : PointCloud) (r c : Int) : XY where
  x := (xyzPoints.X r.toNat c.toNat).map fun v => v * 100 + 103 / 10
  y := (xyzPoints.Y r.toNat c.toNat).map fun v => -1 * v * 100 + 55 / 10

/-- One round of `metric`'s loop. -/
def metricPoint (xyzPoints : PointCloud) (p : ℚ × ℚ) : Except MatlabError XY :=
  let c := pixelx xyzPoints p.1
  let r := pixely p.2
  if xyzPoints.Inside r c then .ok (xyzPoints.centimetres r c) else .error .badIndex

/-- `metric(xyzPoints, pixelxy)`. -/
def metric (xyzPoints : PointCloud) (pixelxy : List (ℚ × ℚ)) : Except MatlabError (List XY) :=
  pixelxy.mapM (metricPoint xyzPoints)

/-- Where the pixel `p` is looked up. -/
def PointCloud.cell (xyzPoints : PointCloud) (p : ℚ × ℚ) : Int × Int :=
  (pixely p.2, pixelx xyzPoints p.1)

theorem metricPoint_ok {xyzPoints : PointCloud} {p : ℚ × ℚ} {v : XY}
    (h : metricPoint xyzPoints p = .ok v) :
    v = xyzPoints.centimetres (xyzPoints.cell p).1 (xyzPoints.cell p).2 := by
  unfold metricPoint at h
  simp only at h
  split at h
  · cases h; rfl
  · cases h

/-- When `metric` returns, it returns one point per pixel, each looked up at its own cell. -/
theorem metric_ok {xyzPoints : PointCloud} {ps : List (ℚ × ℚ)} {vs : List XY}
    (h : metric xyzPoints ps = .ok vs) :
    vs = ps.map fun p => xyzPoints.centimetres (xyzPoints.cell p).1 (xyzPoints.cell p).2 := by
  unfold metric at h
  induction ps generalizing vs with
  | nil => cases h; rfl
  | cons p ps ih =>
    rw [List.mapM_cons] at h
    obtain ⟨v, hp, h⟩ := Run.bind_ok.mp h
    obtain ⟨vs', hps, h⟩ := Run.bind_ok.mp h
    cases h
    rw [List.map_cons, ← metricPoint_ok hp, ← ih hps]

theorem metricPoint_inside {xyzPoints : PointCloud} {p : ℚ × ℚ}
    (h : xyzPoints.Inside (xyzPoints.cell p).1 (xyzPoints.cell p).2) :
    metricPoint xyzPoints p =
      .ok (xyzPoints.centimetres (xyzPoints.cell p).1 (xyzPoints.cell p).2) :=
  if_pos h

/-- `metric` returns when every pixel is looked up inside the cloud. -/
theorem metric_inside {xyzPoints : PointCloud} {ps : List (ℚ × ℚ)}
    (h : ∀ p ∈ ps, xyzPoints.Inside (xyzPoints.cell p).1 (xyzPoints.cell p).2) :
    metric xyzPoints ps =
      .ok (ps.map fun p => xyzPoints.centimetres (xyzPoints.cell p).1 (xyzPoints.cell p).2) := by
  unfold metric
  induction ps with
  | nil => rfl
  | cons p ps ih =>
    rw [List.mapM_cons, metricPoint_inside (h p (by simp)), ih fun q hq => h q (by simp [hq])]
    rfl

/-! ## The mirror -/

/-- `p` is a pixel of an image of the cloud's size. -/
def PointCloud.HasPixel (xyzPoints : PointCloud) (p : Int × Int) : Prop :=
  1 ≤ p.1 ∧ p.1 ≤ xyzPoints.width ∧ 1 ≤ p.2 ∧ p.2 ≤ xyzPoints.height

/-- An integer pixel as `metric` takes it. -/
def pixelRow (p : Int × Int) : ℚ × ℚ := (p.1, p.2)

/-- The column of an integer pixel: `W - x`, and 1 at the last column. -/
theorem pixelx_intCast (xyzPoints : PointCloud) (x : Int) :
    pixelx xyzPoints x = if x = xyzPoints.width then 1 else xyzPoints.width - x := by
  have hround : matlabRound (xyzPoints.width - x) = xyzPoints.width - x := by
    rw [matlabRound_eq]
    exact_mod_cast RoundAway.round_intCast (K := ℚ) (xyzPoints.width - x)
  unfold pixelx
  simp only [hround]
  by_cases hx : x = xyzPoints.width
  · rw [if_pos hx, if_pos (by omega)]
  · rw [if_neg hx, if_neg (by omega)]

theorem pixely_intCast {y : Int} (hy : 1 ≤ y) : pixely y = y := by
  unfold pixely
  simp only [matlabRound_eq, RoundAway.round_intCast]
  exact if_neg (by omega)

/-- Pixel `p` is looked up in its own row and in the mirrored column. -/
def PointCloud.ReadsMirrored (xyzPoints : PointCloud) (p : Int × Int) : Prop :=
  xyzPoints.cell (pixelRow p) = (p.2, xyzPoints.width + 1 - p.1)

theorem readsMirrored_iff {xyzPoints : PointCloud} {p : Int × Int} (h : xyzPoints.HasPixel p) :
    xyzPoints.ReadsMirrored p ↔ p.1 = xyzPoints.width := by
  unfold PointCloud.ReadsMirrored PointCloud.cell pixelRow
  simp only [Prod.mk.injEq, pixely_intCast h.2.2.1, pixelx_intCast, true_and]
  by_cases hx : p.1 = xyzPoints.width
  · rw [if_pos hx]
    omega
  · rw [if_neg hx]
    omega

/-- The column map takes the last column to the one before it, and back only there. -/
theorem pixelx_pixelx_iff {xyzPoints : PointCloud} {p : Int × Int} (h : xyzPoints.HasPixel p) :
    pixelx xyzPoints (pixelx xyzPoints p.1 : Int) = p.1 ↔
      p.1 ≠ xyzPoints.width ∨ xyzPoints.width = 1 := by
  have h1 := h.1
  have h2 := h.2.1
  rw [pixelx_intCast xyzPoints (pixelx xyzPoints p.1), pixelx_intCast xyzPoints p.1]
  by_cases hx : p.1 = xyzPoints.width
  · rw [if_pos hx]
    by_cases hw : xyzPoints.width = 1
    · rw [if_pos (by omega)]
      omega
    · rw [if_neg (by omega)]
      omega
  · rw [if_neg hx, if_neg (by omega)]
    omega

/-- `metric` undoes the mirror for the pixels `ps`: each is looked up in its own row and in the
mirrored column, pixels in different columns are looked up in different columns, and the column map
applied twice gives the pixel's column back. -/
structure MirrorsExactly (xyzPoints : PointCloud) (ps : List (Int × Int)) : Prop where
  reads : ∀ p ∈ ps, xyzPoints.ReadsMirrored p
  apart : ∀ p ∈ ps, ∀ q ∈ ps, p.1 ≠ q.1 → pixelx xyzPoints p.1 ≠ pixelx xyzPoints q.1
  twice : ∀ p ∈ ps, pixelx xyzPoints (pixelx xyzPoints p.1 : Int) = p.1

/-- **When `metric` undoes the mirror.** For every list of integer pixels of an image of the cloud's
size, `metric` looks every pixel up inside the cloud; a pixel is looked up at its mirror only in the
last column; so the mirror is undone only for an image of one column or for no pixels. -/
theorem mirrors_exactly_iff (xyzPoints : PointCloud) (ps : List (Int × Int))
    (h : ∀ p ∈ ps, xyzPoints.HasPixel p) :
    metric xyzPoints (ps.map pixelRow) = .ok (ps.map fun p => xyzPoints.centimetres
      (xyzPoints.cell (pixelRow p)).1 (xyzPoints.cell (pixelRow p)).2) ∧
    (∀ p ∈ ps, xyzPoints.ReadsMirrored p ↔ p.1 = xyzPoints.width) ∧
    (MirrorsExactly xyzPoints ps ↔ ps = [] ∨ xyzPoints.width = 1) := by
  refine ⟨?_, fun p hp => readsMirrored_iff (h p hp), ?_, ?_⟩
  · rw [metric_inside, List.map_map]
    · rfl
    · intro q hq
      obtain ⟨p, hp, rfl⟩ := List.mem_map.mp hq
      obtain ⟨hx1, hxw, hy1, hyh⟩ := h p hp
      unfold PointCloud.Inside PointCloud.cell pixelRow
      simp only [pixely_intCast hy1, pixelx_intCast]
      split <;> omega
  · -- a pixel that is read at its mirror is in the last column, where twice is back only for width 1
    rintro ⟨hreads, -, htwice⟩
    cases ps with
    | nil => exact .inl rfl
    | cons p ps =>
      have hp := h p (by simp)
      have hlast := (readsMirrored_iff hp).mp (hreads p (by simp))
      exact .inr (((pixelx_pixelx_iff hp).mp (htwice p (by simp))).resolve_left (not_not.mpr hlast))
  · rintro (rfl | hw)
    · exact ⟨by simp, by simp, by simp⟩
    · have hcol : ∀ p ∈ ps, p.1 = xyzPoints.width := fun p hp => by
        have h1 := (h p hp).1
        have h2 := (h p hp).2.1
        omega
      exact ⟨fun p hp => (readsMirrored_iff (h p hp)).mpr (hcol p hp),
        fun p hp q hq hne => absurd ((hcol p hp).trans (hcol q hq).symm) hne,
        fun p hp => (pixelx_pixelx_iff (h p hp)).mpr (.inr hw)⟩

/-- A flat cloud of two columns and one row. -/
def twoColumns : PointCloud where
  height := 1
  width := 2
  X _ c := some c
  Y r _ := some r

/-- Column 1 is read at column 1 and not at column 2, and so is column 2. -/
theorem two_columns_not_mirrored : ¬ MirrorsExactly twoColumns [(1, 1), (2, 1)] := by
  intro h
  exact h.apart (1, 1) (by simp) (2, 1) (by simp) (by decide) (by decide +kernel)

theorem mirrors_exactly_two :
    MirrorsExactly twoColumns [(1, 1), (2, 1)] ↔ ([(1, 1), (2, 1)] : List (Int × Int)) = [] ∨
      twoColumns.width = 1 :=
  (mirrors_exactly_iff twoColumns [(1, 1), (2, 1)] (by
    simp [PointCloud.HasPixel, twoColumns])).2.2

end DrinkRobot
