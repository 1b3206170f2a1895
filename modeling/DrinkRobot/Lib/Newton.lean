import DrinkRobot.Lib.TwoLink
import Mathlib.Analysis.Calculus.MeanValue
import Mathlib.Analysis.SpecialFunctions.ExpDeriv
import Mathlib.LinearAlgebra.Matrix.NonsingularInverse

/-!
# Newton's method for robots with two links

* `Robot.jacobian`: the derivative of the tip's position. `away_newton`: the tip is where the
  derivative says, up to the squares of the angles.
* `newton_error`: after a Newton step towards a position, the distance from it is at most a multiple
  of the square of the distance before; the elbow must be bent.
* `Robot.Bends`: the elbow is bent whenever the tip is near a position. `bends_of`: this is so for
  positions between two circles.
* `newton_halves`: so near enough, every step at least halves the distance.
-/

namespace TwoLink

open Real

theorem norm_turn_taylor_of_nonneg {t : ℝ} (ht : 0 ≤ t) :
    ‖Complex.exp (t * Complex.I) - 1 - t * Complex.I‖ ≤ t ^ 2 / 2 := by
  have hderiv : ∀ x : ℝ, HasDerivAt
      (fun x : ℝ => Complex.exp (x * Complex.I) - 1 - x * Complex.I)
      ((Complex.exp (x * Complex.I) - 1) * Complex.I) x := by
    intro x
    have hturn : HasDerivAt (fun x : ℝ => (x : ℂ) * Complex.I) Complex.I x := by
      simpa using (Complex.ofRealCLM.hasDerivAt (x := x)).mul_const Complex.I
    rw [sub_mul, one_mul]
    exact (hturn.cexp.sub_const 1).sub hturn
  have hbound : ∀ x : ℝ, HasDerivAt (fun x : ℝ => x ^ 2 / 2) x x := by
    intro x
    simpa using (hasDerivAt_pow 2 x).div_const 2
  refine image_norm_le_of_norm_deriv_right_le_deriv_boundary
    (fun x _ => (hderiv x).continuousAt.continuousWithinAt)
    (fun x _ => (hderiv x).hasDerivWithinAt) (by simp) hbound ?_ ⟨ht, le_rfl⟩
  intro x hx
  rw [norm_mul, Complex.norm_I, mul_one]
  have := norm_turn_sub_le x 0
  simpa [abs_of_nonneg hx.1] using this

/-- A turn is its first two terms up to half the square of its angle. -/
theorem norm_turn_taylor (t : ℝ) :
    ‖Complex.exp (t * Complex.I) - 1 - t * Complex.I‖ ≤ t ^ 2 / 2 := by
  rcases le_total 0 t with ht | ht
  · exact norm_turn_taylor_of_nonneg ht
  · have h := norm_turn_taylor_of_nonneg (neg_nonneg.mpr ht)
    have hconj : Complex.exp ((-t : ℝ) * Complex.I) - 1 - (-t : ℝ) * Complex.I =
        (starRingEnd ℂ) (Complex.exp (t * Complex.I) - 1 - t * Complex.I) := by
      simp [← Complex.exp_conj]
    rw [hconj, Complex.norm_conj, neg_sq] at h
    exact h

/-- A matrix times a pair. -/
def act (J : Matrix (Fin 2) (Fin 2) ℝ) (v : ℝ × ℝ) : ℝ × ℝ :=
  (J 0 0 * v.1 + J 0 1 * v.2, J 1 0 * v.1 + J 1 1 * v.2)

theorem act_mul (J K : Matrix (Fin 2) (Fin 2) ℝ) (v : ℝ × ℝ) : act J (act K v) = act (J * K) v := by
  simp only [act, Matrix.mul_apply, Fin.sum_univ_two]
  ext
  · ring
  · ring

theorem act_one (v : ℝ × ℝ) : act 1 v = v := by simp [act]

namespace Robot

variable (bot : Robot)

/-- The derivative of the tip's position. -/
noncomputable def jacobian (q : ℝ × ℝ) : Matrix (Fin 2) (Fin 2) ℝ :=
  !![-(bot.fkine q).2, -(bot.l₂ * sin (q.1 + q.2)); (bot.fkine q).1, bot.l₂ * cos (q.1 + q.2)]

theorem det_jacobian (q : ℝ × ℝ) : (bot.jacobian q).det = bot.l₁ * bot.l₂ * sin q.2 := by
  have hsin : sin q.2 = sin (q.1 + q.2) * cos q.1 - cos (q.1 + q.2) * sin q.1 := by
    rw [← sin_sub, add_sub_cancel_left]
  rw [jacobian, Matrix.det_fin_two_of, hsin]
  unfold fkine
  ring

/-- Where the derivative says that the tip is. -/
theorem linear_eq_turns (q dq : ℝ × ℝ) :
    (⟨(bot.fkine q + act (bot.jacobian q) dq).1, (bot.fkine q + act (bot.jacobian q) dq).2⟩ : ℂ) =
      bot.l₁ * (Complex.exp (q.1 * Complex.I) * (1 + dq.1 * Complex.I)) +
        bot.l₂ * (Complex.exp ((q.1 + q.2 : ℝ) * Complex.I) *
          (1 + (dq.1 + dq.2 : ℝ) * Complex.I)) := by
  have hlink : ∀ l a t : ℝ, (l : ℂ) * (Complex.exp (a * Complex.I) * (1 + t * Complex.I)) =
      ⟨l * (cos a - sin a * t), l * (sin a + cos a * t)⟩ := by
    intro l a t
    apply Complex.ext
    · simp [Complex.exp_ofReal_mul_I_re, Complex.exp_ofReal_mul_I_im]
    · simp [Complex.exp_ofReal_mul_I_re, Complex.exp_ofReal_mul_I_im, add_comm]
  rw [hlink, hlink]
  apply Complex.ext
  · simp only [act, jacobian, fkine, Prod.fst_add, Complex.add_re, Matrix.of_apply, Matrix.cons_val',
      Matrix.cons_val_zero, Matrix.cons_val_one, Matrix.cons_val_fin_one]
    ring
  · simp only [act, jacobian, fkine, Prod.snd_add, Complex.add_im, Matrix.of_apply, Matrix.cons_val',
      Matrix.cons_val_zero, Matrix.cons_val_one, Matrix.cons_val_fin_one]
    ring

/-- The tip is where the derivative says, up to the squares of the angles. -/
theorem away_newton (q dq : ℝ × ℝ) :
    away (bot.fkine q + act (bot.jacobian q) dq) (bot.fkine (q + dq)) ≤
      bot.l₁ * (dq.1 ^ 2 / 2) + bot.l₂ * ((dq.1 + dq.2) ^ 2 / 2) := by
  have hlink : ∀ {l : ℝ} (a t : ℝ), 0 < l →
      ‖(l : ℂ) * (Complex.exp (a * Complex.I) * (1 + t * Complex.I)) -
        l * Complex.exp ((a + t : ℝ) * Complex.I)‖ ≤ l * (t ^ 2 / 2) := by
    intro l a t hl
    have hfactor : (l : ℂ) * (Complex.exp (a * Complex.I) * (1 + t * Complex.I)) -
        l * Complex.exp ((a + t : ℝ) * Complex.I) =
        -(l * (Complex.exp (a * Complex.I) *
          (Complex.exp (t * Complex.I) - 1 - t * Complex.I))) := by
      rw [Complex.ofReal_add, add_mul, Complex.exp_add]
      ring
    rw [hfactor, norm_neg, norm_mul, norm_mul, Complex.norm_exp_ofReal_mul_I, one_mul,
      Complex.norm_of_nonneg hl.le]
    exact mul_le_mul_of_nonneg_left (norm_turn_taylor t) hl.le
  have hsum : (q + dq).1 + (q + dq).2 = q.1 + q.2 + (dq.1 + dq.2) := by
    simp only [Prod.fst_add, Prod.snd_add]
    ring
  rw [away_eq_norm, linear_eq_turns, fkine_eq_turns, hsum, add_sub_add_comm]
  exact (norm_add_le _ _).trans
    (add_le_add (hlink q.1 dq.1 bot.l₁_pos) (hlink (q.1 + q.2) (dq.1 + dq.2) bot.l₂_pos))

/-- What the angles of a Newton step can be. -/
theorem newton_angles {T q dq : ℝ × ℝ} (h : act (bot.jacobian q) dq = T - bot.fkine q) :
    bot.l₁ * |dq.1| * |sin q.2| ≤ away T (bot.fkine q) ∧
      bot.l₂ * |dq.1 + dq.2| * |sin q.2| ≤ away T (bot.fkine q) := by
  have hsin : sin q.2 = sin (q.1 + q.2) * cos q.1 - cos (q.1 + q.2) * sin q.1 := by
    rw [← sin_sub, add_sub_cancel_left]
  have hx : (bot.jacobian q) 0 0 * dq.1 + (bot.jacobian q) 0 1 * dq.2 = T.1 - (bot.fkine q).1 :=
    congrArg Prod.fst h
  have hy : (bot.jacobian q) 1 0 * dq.1 + (bot.jacobian q) 1 1 * dq.2 = T.2 - (bot.fkine q).2 :=
    congrArg Prod.snd h
  simp only [jacobian, Matrix.of_apply, Matrix.cons_val', Matrix.cons_val_zero, Matrix.cons_val_one,
    Matrix.cons_val_fin_one] at hx hy
  -- the part of the way along a direction is no longer than the way
  have halong : ∀ a : ℝ, |(T.1 - (bot.fkine q).1) * cos a + (T.2 - (bot.fkine q).2) * sin a| ≤
      away T (bot.fkine q) := by
    intro a
    have hone := sin_sq_add_cos_sq a
    have hsq := sq_nonneg ((T.1 - (bot.fkine q).1) * sin a - (T.2 - (bot.fkine q).2) * cos a)
    refine abs_le_sqrt ?_
    linear_combination hsq + ((T.1 - (bot.fkine q).1) ^ 2 + (T.2 - (bot.fkine q).2) ^ 2) * hone
  constructor
  · have hdq : (T.1 - (bot.fkine q).1) * cos (q.1 + q.2) + (T.2 - (bot.fkine q).2) * sin (q.1 + q.2) =
        bot.l₁ * dq.1 * sin q.2 := by
      rw [← hx, ← hy, hsin]
      unfold fkine
      ring
    have := halong (q.1 + q.2)
    rwa [hdq, abs_mul, abs_mul, abs_of_pos bot.l₁_pos] at this
  · have hdq : (T.1 - (bot.fkine q).1) * cos q.1 + (T.2 - (bot.fkine q).2) * sin q.1 =
        -(bot.l₂ * (dq.1 + dq.2) * sin q.2) := by
      rw [← hx, ← hy, hsin]
      unfold fkine
      ring
    have := halong q.1
    rwa [hdq, abs_neg, abs_mul, abs_mul, abs_of_pos bot.l₂_pos] at this

/-- A Newton step squares the distance, up to a factor that grows when the elbow straightens. -/
theorem newton_error {T q dq : ℝ × ℝ} (h : act (bot.jacobian q) dq = T - bot.fkine q) :
    sin q.2 ^ 2 * away T (bot.fkine (q + dq)) ≤
      (1 / bot.l₁ + 1 / bot.l₂) / 2 * away T (bot.fkine q) ^ 2 := by
  obtain ⟨h₁, h₂⟩ := bot.newton_angles h
  have hsquare : ∀ {l t : ℝ}, 0 < l → l * |t| * |sin q.2| ≤ away T (bot.fkine q) →
      sin q.2 ^ 2 * (l * (t ^ 2 / 2)) ≤ 1 / l / 2 * away T (bot.fkine q) ^ 2 := by
    intro l t hl ht
    have hsq := pow_le_pow_left₀ (by positivity) ht 2
    rw [mul_pow, mul_pow, sq_abs, sq_abs] at hsq
    calc sin q.2 ^ 2 * (l * (t ^ 2 / 2)) = 1 / l / 2 * (l ^ 2 * t ^ 2 * sin q.2 ^ 2) := by
          field_simp
      _ ≤ 1 / l / 2 * away T (bot.fkine q) ^ 2 := mul_le_mul_of_nonneg_left hsq (by positivity)
  have hT : bot.fkine q + act (bot.jacobian q) dq = T := by rw [h, add_sub_cancel]
  have hstep := bot.away_newton q dq
  rw [hT] at hstep
  calc sin q.2 ^ 2 * away T (bot.fkine (q + dq))
      ≤ sin q.2 ^ 2 * (bot.l₁ * (dq.1 ^ 2 / 2) + bot.l₂ * ((dq.1 + dq.2) ^ 2 / 2)) :=
        mul_le_mul_of_nonneg_left hstep (sq_nonneg _)
    _ ≤ 1 / bot.l₁ / 2 * away T (bot.fkine q) ^ 2 + 1 / bot.l₂ / 2 * away T (bot.fkine q) ^ 2 := by
        rw [mul_add]
        exact add_le_add (hsquare bot.l₁_pos h₁) (hsquare bot.l₂_pos h₂)
    _ = (1 / bot.l₁ + 1 / bot.l₂) / 2 * away T (bot.fkine q) ^ 2 := by ring

/-! ## Near a position -/

/-- The elbow is bent by an angle whose sine squared is at least `s`, when the tip is within `r` of
the position. -/
def Bends (T : ℝ × ℝ) (r s : ℝ) : Prop :=
  ∀ q, away T (bot.fkine q) ≤ r → s ≤ sin q.2 ^ 2

variable {bot}

theorem Bends.mono {T : ℝ × ℝ} {r r' s : ℝ} (h : bot.Bends T r s) (hr : r' ≤ r) :
    bot.Bends T r' s := fun q hq => h q (hq.trans hr)

/-- Between two circles where the elbow is bent it is bent. -/
theorem bends_of {T : ℝ × ℝ} {r s lo hi : ℝ} (h0 : 0 ≤ lo) (hlo : lo + r ≤ away T 0)
    (hhi : away T 0 + r ≤ hi)
    (hlo' : (lo ^ 2 - bot.l₁ ^ 2 - bot.l₂ ^ 2) ^ 2 ≤ (1 - s) * (2 * bot.l₁ * bot.l₂) ^ 2)
    (hhi' : (hi ^ 2 - bot.l₁ ^ 2 - bot.l₂ ^ 2) ^ 2 ≤ (1 - s) * (2 * bot.l₁ * bot.l₂) ^ 2) :
    bot.Bends T r s := by
  intro q hq
  have hcos := bot.fkine_sq q
  have hdist := away_zero_sq (bot.fkine q)
  have hnear := away_triangle T (bot.fkine q) 0
  have hfar := away_triangle (bot.fkine q) T 0
  rw [away_comm (bot.fkine q) T] at hfar
  have hlo₂ := pow_le_pow_left₀ h0 (show lo ≤ away (bot.fkine q) 0 by linarith) 2
  have hhi₂ := pow_le_pow_left₀ (away_nonneg (bot.fkine q) 0)
    (show away (bot.fkine q) 0 ≤ hi by linarith) 2
  -- the cosine of the elbow is monotone in the distance, so it is bounded by its ends
  have hbetween : (2 * bot.l₁ * bot.l₂ * cos q.2) ^ 2 ≤ (1 - s) * (2 * bot.l₁ * bot.l₂) ^ 2 := by
    rcases le_total 0 (2 * bot.l₁ * bot.l₂ * cos q.2) with hpos | hneg
    · exact (pow_le_pow_left₀ hpos (by linarith) 2).trans hhi'
    · refine le_trans ?_ hlo'
      rw [← neg_sq, ← neg_sq (lo ^ 2 - _ - _)]
      exact pow_le_pow_left₀ (by linarith) (by linarith) 2
  have hlinks : 0 < (2 * bot.l₁ * bot.l₂) ^ 2 :=
    pow_pos (mul_pos (mul_pos two_pos bot.l₁_pos) bot.l₂_pos) 2
  rw [mul_pow, mul_comm] at hbetween
  have := le_of_mul_le_mul_right hbetween hlinks
  linarith [sin_sq_add_cos_sq q.2]

/-- Near enough to a position, a step at least halves the distance. -/
theorem newton_halves {T q dq : ℝ × ℝ} {r s : ℝ} (hs : 0 < s) (hbends : bot.Bends T r s)
    (hr : (1 / bot.l₁ + 1 / bot.l₂) * r ≤ s) (hq : away T (bot.fkine q) ≤ r)
    (h : act (bot.jacobian q) dq = T - bot.fkine q) :
    away T (bot.fkine (q + dq)) ≤ away T (bot.fkine q) / 2 := by
  have hbent := hbends q hq
  have hgain : 0 < 1 / bot.l₁ + 1 / bot.l₂ :=
    add_pos (one_div_pos.mpr bot.l₁_pos) (one_div_pos.mpr bot.l₂_pos)
  have hE := away_nonneg T (bot.fkine q)
  refine le_of_mul_le_mul_left ?_ (hs.trans_le hbent)
  calc sin q.2 ^ 2 * away T (bot.fkine (q + dq))
      ≤ (1 / bot.l₁ + 1 / bot.l₂) / 2 * away T (bot.fkine q) ^ 2 := bot.newton_error h
    _ = (1 / bot.l₁ + 1 / bot.l₂) * away T (bot.fkine q) * (away T (bot.fkine q) / 2) := by ring
    _ ≤ sin q.2 ^ 2 * (away T (bot.fkine q) / 2) := by
        refine mul_le_mul_of_nonneg_right ?_ (by linarith)
        exact (mul_le_mul_of_nonneg_left hq hgain.le).trans (hr.trans hbent)

end Robot

end TwoLink
