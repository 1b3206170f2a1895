import Mathlib.Analysis.SpecialFunctions.Complex.Arg
import Mathlib.Analysis.SpecialFunctions.Trigonometric.Bounds
import Mathlib.Analysis.SpecialFunctions.Trigonometric.Inverse
import Mathlib.Tactic.LinearCombination

/-!
# Planar robots with two links

A robot with two links and two revolute joints; joint angles are in radians, the second one relative
to the first link.

* `Robot.fkine`: where the tip is. `fkine_sq`: its distance from the base depends on the second angle
  only (the law of cosines).
* `Robot.solve`: joint angles for a position, with the elbow on either side. `fkine_solve`: they are
  exact for every position in the annulus between `|l₁ - l₂|` and `l₁ + l₂`.
* `reaches_iff`: so the robot reaches this annulus and nothing else.
* `eq_of_fkine_eq`: robots with one first link that some joint angles take to one place are equal in
  the second link, too.
* `away_fkine_le`: how far the tip moves when the joint angles change.
-/

namespace TwoLink

open Real

/-- The lengths of the links. -/
structure Robot where
  l₁ : ℝ
  l₂ : ℝ
  l₁_pos : 0 < l₁
  l₂_pos : 0 < l₂

namespace Robot

variable (bot : Robot)

/-- The position of the tip. -/
noncomputable def fkine (q : ℝ × ℝ) : ℝ × ℝ :=
  (bot.l₁ * cos q.1 + bot.l₂ * cos (q.1 + q.2), bot.l₁ * sin q.1 + bot.l₂ * sin (q.1 + q.2))

/-- Some joint angles take the tip to `p`. -/
def Reaches (p : ℝ × ℝ) : Prop := ∃ q, bot.fkine q = p

/-- `p` is between the two circles. -/
def InAnnulus (p : ℝ × ℝ) : Prop :=
  (bot.l₁ - bot.l₂) ^ 2 ≤ p.1 ^ 2 + p.2 ^ 2 ∧ p.1 ^ 2 + p.2 ^ 2 ≤ (bot.l₁ + bot.l₂) ^ 2

theorem fkine_sq (q : ℝ × ℝ) : (bot.fkine q).1 ^ 2 + (bot.fkine q).2 ^ 2 =
    bot.l₁ ^ 2 + bot.l₂ ^ 2 + 2 * bot.l₁ * bot.l₂ * cos q.2 := by
  have hcos : cos q.2 = cos (q.1 + q.2) * cos q.1 + sin (q.1 + q.2) * sin q.1 := by
    rw [← cos_sub, add_sub_cancel_left]
  have h1 := sin_sq_add_cos_sq q.1
  have h2 := sin_sq_add_cos_sq (q.1 + q.2)
  rw [hcos]
  unfold fkine
  linear_combination bot.l₁ ^ 2 * h1 + bot.l₂ ^ 2 * h2

theorem inAnnulus_fkine (q : ℝ × ℝ) : bot.InAnnulus (bot.fkine q) := by
  have hpos := mul_pos bot.l₁_pos bot.l₂_pos
  have hlo := neg_one_le_cos q.2
  have hhi := cos_le_one q.2
  unfold InAnnulus
  rw [fkine_sq]
  constructor <;> nlinarith

/-- Joint angles that take two robots with one first link to one place. -/
theorem eq_of_fkine_eq {bot bot' : Robot} (h₁ : bot.l₁ = bot'.l₁) {q : ℝ × ℝ}
    (h : bot.fkine q = bot'.fkine q) : bot.l₂ = bot'.l₂ := by
  have hx : bot.l₁ * cos q.1 + bot.l₂ * cos (q.1 + q.2) =
      bot'.l₁ * cos q.1 + bot'.l₂ * cos (q.1 + q.2) := congrArg Prod.fst h
  have hy : bot.l₁ * sin q.1 + bot.l₂ * sin (q.1 + q.2) =
      bot'.l₁ * sin q.1 + bot'.l₂ * sin (q.1 + q.2) := congrArg Prod.snd h
  have hone := sin_sq_add_cos_sq (q.1 + q.2)
  rw [h₁] at hx hy
  -- the difference along the direction of the second link
  have hzero : bot.l₂ - bot'.l₂ = 0 := by
    linear_combination cos (q.1 + q.2) * hx + sin (q.1 + q.2) * hy - (bot.l₂ - bot'.l₂) * hone
  exact sub_eq_zero.mp hzero

/-! ## Joint angles for a position -/

/-- Where the tip is when the first angle is 0. -/
noncomputable def bent (q₂ : ℝ) : ℂ := ⟨bot.l₁ + bot.l₂ * cos q₂, bot.l₂ * sin q₂⟩

theorem fkine_eq_rotate (q : ℝ × ℝ) : (⟨(bot.fkine q).1, (bot.fkine q).2⟩ : ℂ) =
    Complex.exp (q.1 * Complex.I) * bot.bent q.2 := by
  apply Complex.ext
  · rw [Complex.mul_re, Complex.exp_ofReal_mul_I_re, Complex.exp_ofReal_mul_I_im]
    unfold fkine bent
    simp only
    rw [cos_add]
    ring
  · rw [Complex.mul_im, Complex.exp_ofReal_mul_I_re, Complex.exp_ofReal_mul_I_im]
    unfold fkine bent
    simp only
    rw [sin_add]
    ring

/-- Of two numbers of one length, each is a turn of the other. -/
theorem rotate_arg {u v : ℂ} (h : ‖u‖ = ‖v‖) :
    Complex.exp ((u.arg - v.arg : ℝ) * Complex.I) * v = u := by
  calc Complex.exp ((u.arg - v.arg : ℝ) * Complex.I) * v
      = Complex.exp ((u.arg - v.arg : ℝ) * Complex.I) * (‖v‖ * Complex.exp (v.arg * Complex.I)) := by
        rw [Complex.norm_mul_exp_arg_mul_I]
    _ = ‖v‖ * Complex.exp (u.arg * Complex.I) := by
        rw [mul_left_comm, ← Complex.exp_add]
        congr 2
        push_cast
        ring
    _ = u := by rw [← h, Complex.norm_mul_exp_arg_mul_I]

/-- The angle of the second joint for the position `p`, up to its sign. -/
noncomputable def elbow (p : ℝ × ℝ) : ℝ :=
  arccos ((p.1 ^ 2 + p.2 ^ 2 - bot.l₁ ^ 2 - bot.l₂ ^ 2) / (bot.l₁ * bot.l₂ + bot.l₁ * bot.l₂))

/-- Joint angles for the position `p`, the second one with the given sign. -/
noncomputable def solve (positive : Bool) (p : ℝ × ℝ) : ℝ × ℝ :=
  let q₂ := if positive then bot.elbow p else -bot.elbow p
  ((⟨p.1, p.2⟩ : ℂ).arg - (bot.bent q₂).arg, q₂)

variable {bot}

theorem cos_elbow {p : ℝ × ℝ} (hp : bot.InAnnulus p) :
    2 * bot.l₁ * bot.l₂ * cos (bot.elbow p) = p.1 ^ 2 + p.2 ^ 2 - bot.l₁ ^ 2 - bot.l₂ ^ 2 := by
  have h₁ := bot.l₁_pos
  have h₂ := bot.l₂_pos
  have hpos : 0 < bot.l₁ * bot.l₂ + bot.l₁ * bot.l₂ := by positivity
  unfold elbow
  rw [cos_arccos]
  · field_simp
    ring
  · rw [le_div_iff₀ hpos]
    linarith [hp.1]
  · rw [div_le_iff₀ hpos]
    linarith [hp.2]

/-- The joint angles are exact for every position in the annulus. -/
theorem fkine_solve (positive : Bool) {p : ℝ × ℝ} (hp : bot.InAnnulus p) :
    bot.fkine (bot.solve positive p) = p := by
  obtain ⟨x, y⟩ := p
  have hcos : 2 * bot.l₁ * bot.l₂ * cos (bot.solve positive (x, y)).2 =
      x ^ 2 + y ^ 2 - bot.l₁ ^ 2 - bot.l₂ ^ 2 := by
    cases positive with
    | false => exact (congrArg _ (cos_neg _)).trans (cos_elbow hp)
    | true => exact cos_elbow hp
  have hnorm : ‖(⟨x, y⟩ : ℂ)‖ = ‖bot.bent (bot.solve positive (x, y)).2‖ := by
    have hone := sin_sq_add_cos_sq (bot.solve positive (x, y)).2
    rw [← sq_eq_sq₀ (norm_nonneg _) (norm_nonneg _), Complex.sq_norm, Complex.sq_norm,
      Complex.normSq_apply, Complex.normSq_apply]
    unfold bent
    simp only
    linear_combination -hcos - bot.l₂ ^ 2 * hone
  have hrot := (bot.fkine_eq_rotate (bot.solve positive (x, y))).trans (rotate_arg hnorm)
  exact Prod.ext (congrArg Complex.re hrot) (congrArg Complex.im hrot)

/-- The robot reaches the annulus and nothing else. -/
theorem reaches_iff {p : ℝ × ℝ} : bot.Reaches p ↔ bot.InAnnulus p := by
  constructor
  · rintro ⟨q, rfl⟩
    exact bot.inAnnulus_fkine q
  · intro h
    exact ⟨bot.solve true p, fkine_solve true h⟩

end Robot

/-! ## Nearby joint angles -/

/-- How far apart two positions are. -/
noncomputable def away (p p' : ℝ × ℝ) : ℝ := √((p.1 - p'.1) ^ 2 + (p.2 - p'.2) ^ 2)

theorem away_eq_norm (p p' : ℝ × ℝ) : away p p' = ‖(⟨p.1, p.2⟩ : ℂ) - ⟨p'.1, p'.2⟩‖ := by
  rw [Complex.norm_eq_sqrt_sq_add_sq]
  rfl

theorem away_comm (p p' : ℝ × ℝ) : away p p' = away p' p := by
  rw [away_eq_norm, away_eq_norm, norm_sub_rev]

theorem away_triangle (p p' p'' : ℝ × ℝ) : away p p'' ≤ away p p' + away p' p'' := by
  rw [away_eq_norm, away_eq_norm, away_eq_norm]
  exact norm_sub_le_norm_sub_add_norm_sub _ _ _

theorem away_nonneg (p p' : ℝ × ℝ) : 0 ≤ away p p' := sqrt_nonneg _

theorem away_zero_sq (p : ℝ × ℝ) : away p 0 ^ 2 = p.1 ^ 2 + p.2 ^ 2 := by
  unfold away
  rw [sq_sqrt (by positivity)]
  simp

theorem norm_turn_sub_le (a b : ℝ) :
    ‖Complex.exp (a * Complex.I) - Complex.exp (b * Complex.I)‖ ≤ |a - b| := by
  have hfactor : Complex.exp (a * Complex.I) - Complex.exp (b * Complex.I) =
      Complex.exp (b * Complex.I) * (Complex.exp (Complex.I * (a - b : ℝ)) - 1) := by
    rw [mul_sub, ← Complex.exp_add, mul_one]
    congr 2
    push_cast
    ring
  rw [hfactor, norm_mul, Complex.norm_exp_ofReal_mul_I, one_mul]
  exact Real.norm_exp_I_mul_ofReal_sub_one_le

namespace Robot

variable (bot : Robot)

theorem fkine_eq_turns (q : ℝ × ℝ) : (⟨(bot.fkine q).1, (bot.fkine q).2⟩ : ℂ) =
    bot.l₁ * Complex.exp (q.1 * Complex.I) + bot.l₂ * Complex.exp ((q.1 + q.2 : ℝ) * Complex.I) := by
  apply Complex.ext
  · simp only [fkine, Complex.add_re, Complex.re_ofReal_mul, Complex.exp_ofReal_mul_I_re]
  · simp only [fkine, Complex.add_im, Complex.im_ofReal_mul, Complex.exp_ofReal_mul_I_im]

/-- A link moves the tip by no more than its length for each radian. -/
theorem away_fkine_le (q q' : ℝ × ℝ) : away (bot.fkine q) (bot.fkine q') ≤
    bot.l₁ * |q.1 - q'.1| + bot.l₂ * |q.1 + q.2 - (q'.1 + q'.2)| := by
  rw [away_eq_norm, fkine_eq_turns, fkine_eq_turns, add_sub_add_comm, ← mul_sub, ← mul_sub]
  refine (norm_add_le _ _).trans (add_le_add ?_ ?_)
  · rw [norm_mul, Complex.norm_of_nonneg bot.l₁_pos.le]
    exact mul_le_mul_of_nonneg_left (norm_turn_sub_le _ _) bot.l₁_pos.le
  · rw [norm_mul, Complex.norm_of_nonneg bot.l₂_pos.le]
    exact mul_le_mul_of_nonneg_left (norm_turn_sub_le _ _) bot.l₂_pos.le

theorem away_fkine_of_near {q q' : ℝ × ℝ} {δ : ℝ} (h₁ : |q.1 - q'.1| ≤ δ) (h₂ : |q.2 - q'.2| ≤ δ) :
    away (bot.fkine q) (bot.fkine q') ≤ (bot.l₁ + 2 * bot.l₂) * δ := by
  have hsum : |q.1 + q.2 - (q'.1 + q'.2)| ≤ δ + δ := by
    rw [add_sub_add_comm]
    exact (abs_add_le _ _).trans (add_le_add h₁ h₂)
  calc away (bot.fkine q) (bot.fkine q')
      ≤ bot.l₁ * |q.1 - q'.1| + bot.l₂ * |q.1 + q.2 - (q'.1 + q'.2)| := bot.away_fkine_le q q'
    _ ≤ bot.l₁ * δ + bot.l₂ * (δ + δ) :=
        add_le_add (mul_le_mul_of_nonneg_left h₁ bot.l₁_pos.le)
          (mul_le_mul_of_nonneg_left hsum bot.l₂_pos.le)
    _ = (bot.l₁ + 2 * bot.l₂) * δ := by ring

end Robot

end TwoLink
