import DrinkRobot.Arm.Trajectory
import DrinkRobot.Lib.Newton
import Mathlib.Algebra.Order.Star.Real
import Mathlib.LinearAlgebra.Matrix.PosDef

/-!
# `ikine`

The toolbox's inverse kinematics for the robots of the scripts (two links in a plane, mask
`[1 1 0 0 0 0]`, default options): Newton's method with the pseudoinverse, at most 1000 rounds for
each pose.

* `SerialLink.jacob0`: the Jacobian as the toolbox computes it; `jacob0_eq`: it is the derivative.
* `pinv`: the pseudoinverse; `pinv_penrose` says that it is one.
* `SerialLink.ikine`: the row of each pose, and whether its loop ran into the limit. The code only
  warns of that, and goes on from where the loop stopped.
* `Arithmetic`: the numbers that the loop computes with; `ikineIn_exact` says that `ikine` is the case
  of exact ones. `Arithmetic.Within`: how exact a round is.
* `ikine_rows`: what the rows of any path are good for. `goToPos_rows`: those of `GoToPos`.
* `ikine_follows_path`: a path whose poses are near enough to each other is solved. `ctraj_solved`: so
  `ctraj` gives one with enough points.

A round returns angles one step after those whose error it checks.
-/

namespace DrinkRobot

open Real TwoLink

/-! ## The code -/

/-- A homogeneous transform in the plane: `T(1,1)`, `T(2,1)` and the translation. -/
structure Homog where
  c : ℝ
  s : ℝ
  x : ℝ
  y : ℝ

def Homog.mul (T U : Homog) : Homog where
  c := T.c * U.c - T.s * U.s
  s := T.s * U.c + T.c * U.s
  x := T.c * U.x - T.s * U.y + T.x
  y := T.s * U.x + T.c * U.y + T.y

/-- `A(q)` of a revolute link of length `a`. -/
noncomputable def Link.A (a q : ℝ) : Homog := ⟨cos q, sin q, a * cos q, a * sin q⟩

namespace SerialLink

noncomputable def fkine (bot : Robot) (q : ℝ × ℝ) : Homog :=
  (Link.A bot.l₁ q.1).mul (Link.A bot.l₂ q.2)

/-- The translation in a column of `jacobn`. -/
def jacobnColumn (U : Homog) : ℝ × ℝ := (-U.c * U.y + U.s * U.x, U.s * U.y + U.c * U.x)

/-- The first two rows of `jacobn`. -/
noncomputable def jacobn (bot : Robot) (q : ℝ × ℝ) : Matrix (Fin 2) (Fin 2) ℝ :=
  let U₂ := Link.A bot.l₂ q.2
  let U₁ := (Link.A bot.l₁ q.1).mul U₂
  !![(jacobnColumn U₁).1, (jacobnColumn U₂).1; (jacobnColumn U₁).2, (jacobnColumn U₂).2]

/-- The first two rows of `jacob0`. -/
noncomputable def jacob0 (bot : Robot) (q : ℝ × ℝ) : Matrix (Fin 2) (Fin 2) ℝ :=
  let Tn := fkine bot q
  !![Tn.c, -Tn.s; Tn.s, Tn.c] * jacobn bot q

end SerialLink

/-- The pseudoinverse of a matrix with two rows and columns. -/
noncomputable def pinv (J : Matrix (Fin 2) (Fin 2) ℝ) : Matrix (Fin 2) (Fin 2) ℝ :=
  if J.det = 0 then (J.transpose * J).trace⁻¹ • J.transpose else J⁻¹

/-- The angle of a revolute joint, a turn back when it is past half a turn. -/
noncomputable def wrap (q : ℝ) : ℝ :=
  let q := if q > π then q - 2.0 * π else q
  if q < -π then q + 2.0 * π else q

namespace SerialLink

/-- The loop for a pose, with the rounds left: the angles, and whether it ran into the limit. -/
noncomputable def solve (bot : Robot) (T : ℝ × ℝ) : Nat → ℝ × ℝ → (ℝ × ℝ) × Bool
  | 0, q => (q, true)
  | n + 1, q =>
    let Tq := fkine bot q
    let e := T - (Tq.x, Tq.y)
    let dq := act (pinv (jacob0 bot q)) e
    let q := (wrap (q.1 + dq.1), wrap (q.2 + dq.2))
    let nm := √(e.1 ^ 2 + e.2 ^ 2)
    if nm ≤ 1e-6 then (q, false) else solve bot T n q

/-- `ikine` for a path: each pose starts from the angles of the one before. -/
noncomputable def ikine (bot : Robot) : List (ℝ × ℝ) → ℝ × ℝ → List ((ℝ × ℝ) × Bool)
  | [], _ => []
  | T :: tr, q =>
    let row := solve bot T 1000 q
    row :: ikine bot tr row.1

end SerialLink

/-- What the numbers of a computer make of a round: `nm`, and the angles after the step. -/
structure Arithmetic where
  nm (T q : ℝ × ℝ) : ℝ
  next (T q : ℝ × ℝ) : ℝ × ℝ

/-- Exact numbers. -/
noncomputable def Arithmetic.exact (bot : Robot) : Arithmetic where
  nm T q :=
    let Tq := SerialLink.fkine bot q
    let e := T - (Tq.x, Tq.y)
    √(e.1 ^ 2 + e.2 ^ 2)
  next T q :=
    let Tq := SerialLink.fkine bot q
    let e := T - (Tq.x, Tq.y)
    let dq := act (pinv (SerialLink.jacob0 bot q)) e
    (wrap (q.1 + dq.1), wrap (q.2 + dq.2))

namespace SerialLink

/-- The loop for a pose as it is computed. -/
noncomputable def solveIn (ar : Arithmetic) (T : ℝ × ℝ) : Nat → ℝ × ℝ → (ℝ × ℝ) × Bool
  | 0, q => (q, true)
  | n + 1, q => if ar.nm T q ≤ 1e-6 then (ar.next T q, false) else solveIn ar T n (ar.next T q)

/-- `ikine` as it is computed. -/
noncomputable def ikineIn (ar : Arithmetic) : List (ℝ × ℝ) → ℝ × ℝ → List ((ℝ × ℝ) × Bool)
  | [], _ => []
  | T :: tr, q =>
    let row := solveIn ar T 1000 q
    row :: ikineIn ar tr row.1

end SerialLink

/-- `p1` of `GoToPos`. -/
noncomputable def GoToPos.p1 (ar : Arithmetic) (A : ℝ × ℝ) : List ((ℝ × ℝ) × Bool) :=
  let q1 := (85.0 * (π / 180.0), 80.0 * (π / 180.0))
  let q2 := (85.0 * (π / 180.0), -80.0 * (π / 180.0))
  let q := if A.2 ≥ 0 then q1 else q2
  let T1 := (5.0, 15.0)
  let T2 := (A.2, A.1)
  SerialLink.ikineIn ar (ctraj T1 T2) q

/-! ## The Jacobian and its pseudoinverse -/

theorem fkine_position (bot : Robot) (q : ℝ × ℝ) :
    ((SerialLink.fkine bot q).x, (SerialLink.fkine bot q).y) = bot.fkine q := by
  simp only [SerialLink.fkine, Homog.mul, Link.A, Robot.fkine, cos_add, sin_add]
  ext
  · ring
  · ring

theorem fkine_turn (bot : Robot) (q : ℝ × ℝ) :
    (SerialLink.fkine bot q).c = cos (q.1 + q.2) ∧ (SerialLink.fkine bot q).s = sin (q.1 + q.2) := by
  rw [cos_add, sin_add]
  exact ⟨rfl, rfl⟩

/-- A link turned by its own joint moves along itself. -/
theorem jacobnColumn_link (a q : ℝ) : SerialLink.jacobnColumn (Link.A a q) = (0, a) := by
  have hone := sin_sq_add_cos_sq q
  simp only [SerialLink.jacobnColumn, Link.A]
  ext
  · ring
  · linear_combination a * hone

/-- The Jacobian is the derivative. -/
theorem jacob0_eq (bot : Robot) (q : ℝ × ℝ) : SerialLink.jacob0 bot q = bot.jacobian q := by
  obtain ⟨hc, hs⟩ := fkine_turn bot q
  have hx : (SerialLink.fkine bot q).x = (bot.fkine q).1 := congrArg Prod.fst (fkine_position bot q)
  have hy : (SerialLink.fkine bot q).y = (bot.fkine q).2 := congrArg Prod.snd (fkine_position bot q)
  have hone := sin_sq_add_cos_sq (q.1 + q.2)
  have hcolumn : SerialLink.jacobn bot q =
      !![-cos (q.1 + q.2) * (bot.fkine q).2 + sin (q.1 + q.2) * (bot.fkine q).1, 0;
        sin (q.1 + q.2) * (bot.fkine q).2 + cos (q.1 + q.2) * (bot.fkine q).1, bot.l₂] := by
    rw [← hc, ← hs, ← hx, ← hy]
    simp only [SerialLink.jacobn, jacobnColumn_link]
    rfl
  simp only [SerialLink.jacob0, hcolumn, hc, hs, Robot.jacobian, Matrix.mul_fin_two]
  ext i j
  fin_cases i <;> fin_cases j
  · show _ * _ + _ * _ = -(bot.fkine q).2
    linear_combination -(bot.fkine q).2 * hone
  · show _ * _ + _ * _ = -(bot.l₂ * sin (q.1 + q.2))
    ring
  · show _ * _ + _ * _ = (bot.fkine q).1
    linear_combination (bot.fkine q).1 * hone
  · show _ * _ + _ * _ = bot.l₂ * cos (q.1 + q.2)
    ring

/-- A matrix without an inverse is a multiple of its cube. -/
theorem mul_transpose_mul {J : Matrix (Fin 2) (Fin 2) ℝ} (h : J.det = 0) :
    J * J.transpose * J = (J.transpose * J).trace • J := by
  rw [Matrix.det_fin_two] at h
  ext i j
  fin_cases i <;> fin_cases j
  · simp [Matrix.mul_apply, Matrix.trace_fin_two, Fin.sum_univ_two]
    linear_combination -J 1 1 * h
  · simp [Matrix.mul_apply, Matrix.trace_fin_two, Fin.sum_univ_two]
    linear_combination J 1 0 * h
  · simp [Matrix.mul_apply, Matrix.trace_fin_two, Fin.sum_univ_two]
    linear_combination J 0 1 * h
  · simp [Matrix.mul_apply, Matrix.trace_fin_two, Fin.sum_univ_two]
    linear_combination -J 0 0 * h

/-- `pinv` is the pseudoinverse. -/
theorem pinv_penrose (J : Matrix (Fin 2) (Fin 2) ℝ) :
    J * pinv J * J = J ∧ pinv J * J * pinv J = pinv J ∧
      (J * pinv J).transpose = J * pinv J ∧ (pinv J * J).transpose = pinv J * J := by
  unfold pinv
  split
  · rename_i hdet
    have hcube := mul_transpose_mul hdet
    -- a singular matrix is 0, or of rank one, where the transpose has to be scaled
    by_cases htrace : (J.transpose * J).trace = 0
    · rw [← Matrix.conjTranspose_eq_transpose_of_trivial,
        Matrix.trace_conjTranspose_mul_self_eq_zero_iff] at htrace
      simp [htrace]
    · have hcube' := congrArg Matrix.transpose hcube
      rw [Matrix.transpose_mul, Matrix.transpose_mul, Matrix.transpose_transpose,
        Matrix.transpose_smul] at hcube'
      refine ⟨?_, ?_, ?_, ?_⟩
      · rw [Matrix.mul_smul, Matrix.smul_mul, hcube, inv_smul_smul₀ htrace]
      · rw [Matrix.smul_mul, Matrix.smul_mul, Matrix.mul_smul, Matrix.mul_assoc, hcube',
          inv_smul_smul₀ htrace]
      · rw [Matrix.mul_smul, Matrix.transpose_smul, Matrix.transpose_mul, Matrix.transpose_transpose]
      · rw [Matrix.smul_mul, Matrix.transpose_smul, Matrix.transpose_mul, Matrix.transpose_transpose]
  · rename_i hdet
    have hunit : IsUnit J.det := isUnit_iff_ne_zero.mpr hdet
    rw [Matrix.mul_nonsing_inv J hunit, Matrix.nonsing_inv_mul J hunit]
    simp

/-- A step of the solver is a Newton step when the elbow is bent. -/
theorem act_pinv {bot : Robot} {q : ℝ × ℝ} (h : sin q.2 ≠ 0) (e : ℝ × ℝ) :
    act (bot.jacobian q) (act (pinv (SerialLink.jacob0 bot q)) e) = e := by
  have hdet : (bot.jacobian q).det ≠ 0 := by
    rw [bot.det_jacobian]
    exact mul_ne_zero (mul_ne_zero bot.l₁_pos.ne' bot.l₂_pos.ne') h
  rw [jacob0_eq, pinv, if_neg hdet, act_mul,
    Matrix.mul_nonsing_inv _ (isUnit_iff_ne_zero.mpr hdet), act_one]

/-! ## The loop -/

theorem wrap_eq (q : ℝ) : ∃ k : Int, wrap q = q + k * (2 * π) := by
  have htwo : (2.0 : ℝ) = 2 := by norm_num
  have hback : ∃ k : Int, (if q > π then q - 2 * π else q) = q + k * (2 * π) := by
    split
    · exact ⟨-1, by push_cast; ring⟩
    · exact ⟨0, by simp⟩
  obtain ⟨k, hk⟩ := hback
  unfold wrap
  rw [htwo]
  simp only [hk]
  split
  · exact ⟨k + 1, by push_cast; ring⟩
  · exact ⟨k, rfl⟩

/-- Whole turns do not move the tip. -/
theorem fkine_turns (bot : Robot) (q : ℝ × ℝ) (k k' : Int) :
    bot.fkine (q.1 + k * (2 * π), q.2 + k' * (2 * π)) = bot.fkine q := by
  have hsum : q.1 + k * (2 * π) + (q.2 + k' * (2 * π)) = q.1 + q.2 + ((k + k' : Int) : ℝ) * (2 * π) := by
    push_cast
    ring
  unfold Robot.fkine
  simp only
  rw [hsum, cos_add_int_mul_two_pi, sin_add_int_mul_two_pi, cos_add_int_mul_two_pi,
    sin_add_int_mul_two_pi]

theorem fkine_wrap (bot : Robot) (q : ℝ × ℝ) : bot.fkine (wrap q.1, wrap q.2) = bot.fkine q := by
  obtain ⟨k, hk⟩ := wrap_eq q.1
  obtain ⟨k', hk'⟩ := wrap_eq q.2
  rw [hk, hk']
  exact fkine_turns bot q k k'

/-- The Newton step of a round. -/
noncomputable def SerialLink.step (bot : Robot) (T q : ℝ × ℝ) : ℝ × ℝ :=
  q + act (pinv (jacob0 bot q)) (T - bot.fkine q)

/-- A round. -/
theorem solve_succ (bot : Robot) (T : ℝ × ℝ) (n : Nat) (q : ℝ × ℝ) :
    SerialLink.solve bot T (n + 1) q =
      let q' := (wrap (SerialLink.step bot T q).1, wrap (SerialLink.step bot T q).2)
      if away T (bot.fkine q) ≤ 1e-6 then (q', false) else SerialLink.solve bot T n q' := by
  rw [SerialLink.solve]
  simp only [fkine_position]
  rfl

/-- When the loop ends before its limit, it ends with a step from angles within the tolerance. -/
theorem solve_ends {bot : Robot} {T q q' : ℝ × ℝ} {n : Nat}
    (h : SerialLink.solve bot T n q = (q', false)) :
    ∃ q₀, away T (bot.fkine q₀) ≤ 1e-6 ∧ bot.fkine q' = bot.fkine (SerialLink.step bot T q₀) := by
  induction n generalizing q with
  | zero => cases h
  | succ n ih =>
    rw [solve_succ] at h
    simp only at h
    split at h
    · rename_i hnear
      obtain rfl := congrArg Prod.fst h
      exact ⟨q, hnear, fkine_wrap bot _⟩
    · exact ih h

/-- From near enough, the loop ends, and the rounds are as many as it takes to halve the distance. -/
theorem solve_converges {bot : Robot} {T : ℝ × ℝ} {s : ℝ} (hs : 0 < s) (n : Nat) {r : ℝ}
    (hbends : bot.Bends T r s) (hr : (1 / bot.l₁ + 1 / bot.l₂) * r ≤ s) (hn : r ≤ 1e-6 * 2 ^ n)
    {q : ℝ × ℝ} (hq : away T (bot.fkine q) ≤ r) : (SerialLink.solve bot T (n + 1) q).2 = false := by
  -- on the rounds left, with half of `r` for the next one
  induction n generalizing r q with
  | zero =>
    rw [solve_succ]
    simp only
    rw [if_pos (hq.trans (by simpa using hn))]
  | succ n ih =>
    rw [solve_succ]
    simp only
    split
    · rfl
    · have hsin : sin q.2 ≠ 0 := pow_ne_zero_iff two_ne_zero |>.mp (hs.trans_le (hbends q hq)).ne'
      have hhalf := Robot.newton_halves hs hbends hr hq (act_pinv hsin (T - bot.fkine q))
      have hr0 : 0 ≤ r := (away_nonneg _ _).trans hq
      have hgain : 0 ≤ 1 / bot.l₁ + 1 / bot.l₂ := by
        have := bot.l₁_pos
        have := bot.l₂_pos
        positivity
      refine ih (hbends.mono (half_le_self hr0)) ?_ ?_ ?_
      · exact (mul_le_mul_of_nonneg_left (half_le_self hr0) hgain).trans hr
      · rw [pow_succ] at hn
        linarith
      · rw [fkine_wrap]
        exact hhalf.trans (by linarith)

/-! ## The loop as it is computed -/

/-- With exact numbers, it is the loop. -/
theorem solveIn_exact (bot : Robot) (T : ℝ × ℝ) (n : Nat) (q : ℝ × ℝ) :
    SerialLink.solveIn (.exact bot) T n q = SerialLink.solve bot T n q := by
  induction n generalizing q with
  | zero => rfl
  | succ n ih =>
    rw [SerialLink.solveIn, SerialLink.solve, ih]
    rfl

theorem ikineIn_exact (bot : Robot) (tr : List (ℝ × ℝ)) (q : ℝ × ℝ) :
    SerialLink.ikineIn (.exact bot) tr q = SerialLink.ikine bot tr q := by
  induction tr generalizing q with
  | nil => rfl
  | cons T tr ih =>
    rw [SerialLink.ikineIn, SerialLink.ikine, solveIn_exact]
    exact congrArg _ (ih _)

/-- The angles are the same to within `ε`, up to whole turns. -/
def Close (ε : ℝ) (q q' : ℝ × ℝ) : Prop :=
  ∃ k k' : Int, |q.1 + k * (π + π) - q'.1| ≤ ε ∧ |q.2 + k' * (π + π) - q'.2| ≤ ε

/-- The round from the angles `q` is computed to within `δ` for the error and `ε` for the step. -/
structure Arithmetic.Within (ar : Arithmetic) (bot : Robot) (T q : ℝ × ℝ) (δ ε : ℝ) : Prop where
  nm : |ar.nm T q - away T (bot.fkine q)| ≤ δ
  next : Close ε (ar.next T q) (SerialLink.step bot T q)

theorem Arithmetic.exact_within (bot : Robot) (T q : ℝ × ℝ) :
    (Arithmetic.exact bot).Within bot T q 0 0 where
  nm := by
    have hnm : (Arithmetic.exact bot).nm T q = away T (bot.fkine q) := by
      simp only [Arithmetic.exact, fkine_position]
      rfl
    rw [hnm, sub_self, abs_zero]
  next := by
    obtain ⟨k, hk⟩ := wrap_eq (SerialLink.step bot T q).1
    obtain ⟨k', hk'⟩ := wrap_eq (SerialLink.step bot T q).2
    have hnext : (Arithmetic.exact bot).next T q =
        (wrap (SerialLink.step bot T q).1, wrap (SerialLink.step bot T q).2) := by
      simp only [Arithmetic.exact, fkine_position]
      rfl
    have hback : ∀ (x : ℝ) (k : Int), |x + k * (2 * π) + (-k : Int) * (π + π) - x| ≤ 0 := by
      intro x k
      push_cast
      rw [show x + k * (2 * π) + -k * (π + π) - x = 0 by ring, abs_zero]
    refine ⟨-k, -k', ?_, ?_⟩
    · rw [hnext, hk]
      exact hback _ k
    · rw [hnext, hk']
      exact hback _ k'

/-- The angles after `k` rounds of the loop for a pose. -/
def Arithmetic.angles (ar : Arithmetic) (T q : ℝ × ℝ) (k : Nat) : ℝ × ℝ := (ar.next T)^[k] q

/-- When the loop ends before its limit, it ends with the step from angles that passed the check. -/
theorem solveIn_ends {ar : Arithmetic} {T q : ℝ × ℝ} {n : Nat}
    (h : (SerialLink.solveIn ar T n q).2 = false) :
    ∃ k < n, ar.nm T (ar.angles T q k) ≤ 1e-6 ∧
      (SerialLink.solveIn ar T n q).1 = ar.next T (ar.angles T q k) := by
  induction n generalizing q with
  | zero => cases h
  | succ n ih =>
    rw [SerialLink.solveIn] at h ⊢
    split at h
    · rename_i hpass
      rw [if_pos hpass]
      exact ⟨0, n.succ_pos, hpass, rfl⟩
    · rename_i hpass
      rw [if_neg hpass]
      obtain ⟨k, hk, hnm, hnext⟩ := ih h
      exact ⟨k + 1, Nat.succ_lt_succ hk, hnm, hnext⟩

/-- When no angles on the way pass the check, the loop runs into its limit. -/
theorem solveIn_limit {ar : Arithmetic} {T : ℝ × ℝ} {n : Nat} {q : ℝ × ℝ}
    (h : ∀ k < n, 1e-6 < ar.nm T (ar.angles T q k)) : (SerialLink.solveIn ar T n q).2 = true := by
  induction n generalizing q with
  | zero => rfl
  | succ n ih =>
    have hfirst : 1e-6 < ar.nm T q := h 0 n.succ_pos
    rw [SerialLink.solveIn, if_neg (not_le.mpr hfirst)]
    exact ih fun k hk => h (k + 1) (Nat.succ_lt_succ hk)

/-- Where the elbow is bent, the angles after the check are far better than the tolerance, but for
what the step is not exact. -/
theorem Arithmetic.Within.accurate {ar : Arithmetic} {bot : Robot} {T q : ℝ × ℝ} {δ ε s : ℝ}
    (h : ar.Within bot T q δ ε) (hpass : ar.nm T q ≤ 1e-6) (hs : 0 < s)
    (hbends : bot.Bends T (1e-6 + δ) s) : away T (bot.fkine (ar.next T q)) ≤
      (1 / bot.l₁ + 1 / bot.l₂) / 2 * (1e-6 + δ) ^ 2 / s + (bot.l₁ + 2 * bot.l₂) * ε := by
  have hnear : away T (bot.fkine q) ≤ 1e-6 + δ := by linarith [(abs_le.mp h.nm).1]
  have hbent := hbends q hnear
  have herror := bot.newton_error (act_pinv (pow_ne_zero_iff two_ne_zero |>.mp
    (hs.trans_le hbent).ne') (T - bot.fkine q))
  have hgain : 0 ≤ (1 / bot.l₁ + 1 / bot.l₂) / 2 := by
    have := bot.l₁_pos
    have := bot.l₂_pos
    positivity
  have hnewton : away T (bot.fkine (SerialLink.step bot T q)) ≤
      (1 / bot.l₁ + 1 / bot.l₂) / 2 * (1e-6 + δ) ^ 2 / s := by
    rw [le_div_iff₀ hs, mul_comm]
    calc s * away T (bot.fkine (SerialLink.step bot T q))
        ≤ sin q.2 ^ 2 * away T (bot.fkine (SerialLink.step bot T q)) :=
          mul_le_mul_of_nonneg_right hbent (away_nonneg _ _)
      _ ≤ (1 / bot.l₁ + 1 / bot.l₂) / 2 * away T (bot.fkine q) ^ 2 := herror
      _ ≤ (1 / bot.l₁ + 1 / bot.l₂) / 2 * (1e-6 + δ) ^ 2 :=
          mul_le_mul_of_nonneg_left (pow_le_pow_left₀ (away_nonneg _ _) hnear 2) hgain
  -- the round as computed is off by `ε` for each joint, up to whole turns
  obtain ⟨k, k', hk, hk'⟩ := h.next
  rw [← two_mul] at hk hk'
  have hstep : away (bot.fkine (ar.next T q)) (bot.fkine (SerialLink.step bot T q)) ≤
      (bot.l₁ + 2 * bot.l₂) * ε := by
    rw [← fkine_turns bot (ar.next T q) k k']
    exact bot.away_fkine_of_near hk hk'
  rw [away_comm] at hstep
  exact (away_triangle _ _ _).trans (add_le_add hnewton hstep)

/-! ## Paths -/

/-- What a row is good for, after the angles `q` of the row before. -/
structure RowFor (ar : Arithmetic) (T q : ℝ × ℝ) (row : (ℝ × ℝ) × Bool) : Prop where
  limit : (∀ k < 1000, 1e-6 < ar.nm T (ar.angles T q k)) → row.2 = true
  ends : row.2 = false →
    ∃ k < 1000, ar.nm T (ar.angles T q k) ≤ 1e-6 ∧ row.1 = ar.next T (ar.angles T q k)

/-- Over every path, from every seed: there is a row for each pose. When no angles pass the check for
a pose, its loop ran into the limit; when it ended before, the row is the step from angles that
passed. -/
theorem ikine_rows (ar : Arithmetic) (tr : List (ℝ × ℝ)) (q : ℝ × ℝ) :
    List.Forall₂ (fun p row => RowFor ar p.1 p.2 row)
      (tr.zip (q :: (SerialLink.ikineIn ar tr q).map Prod.fst)) (SerialLink.ikineIn ar tr q) := by
  induction tr generalizing q with
  | nil => exact .nil
  | cons T tr ih => exact .cons ⟨solveIn_limit, solveIn_ends⟩ (ih _)

/-- The robot of `GoToPos` stays between its two circles. -/
theorem away_fkine_zero (q : ℝ × ℝ) :
    3 ≤ away (GoToPos.bot.fkine q) 0 ∧ away (GoToPos.bot.fkine q) 0 ≤ 27 := by
  obtain ⟨hlow, hhigh⟩ :=
    (goToPos_reaches_iff (GoToPos.bot.fkine q).1 (GoToPos.bot.fkine q).2).mp ⟨q, rfl⟩
  rw [← away_zero_sq] at hlow hhigh
  have hnonneg := away_nonneg (GoToPos.bot.fkine q) 0
  exact ⟨(sq_le_sq₀ (by norm_num) hnonneg).mp hlow, (sq_le_sq₀ hnonneg (by norm_num)).mp hhigh⟩

theorem goToPos_p1 (ar : Arithmetic) (A : ℝ × ℝ) : ∃ row₁ row₂, GoToPos.p1 ar A = [row₁, row₂] ∧
    RowFor ar (A.2, A.1) row₁.1 row₂ := by
  have hrows := ikine_rows ar (ctraj (5.0, 15.0) (A.2, A.1)) (if A.2 ≥ 0 then
    (85.0 * (π / 180.0), 80.0 * (π / 180.0)) else (85.0 * (π / 180.0), -80.0 * (π / 180.0)))
  cases hrows with
  | cons _ hrows =>
    cases hrows with
    | cons hlast _ => exact ⟨_, _, rfl, hlast⟩

theorem away_swap (A : ℝ × ℝ) : away (A.2, A.1) 0 = away A 0 := by
  unfold away
  rw [add_comm]
  rfl

/-- At least a millimetre inside the annulus, the elbow is bent. -/
theorem bends_inside {T : ℝ × ℝ} {r : ℝ} (hr : r ≤ 0.01) (hlow : 3.1 ≤ away T 0)
    (hhigh : away T 0 ≤ 26.9) : GoToPos.bot.Bends T r 0.003 := by
  have hlo : 3.09 + r ≤ away T 0 := by
    norm_num at hr hlow ⊢
    linarith
  have hhi : away T 0 + r ≤ 26.91 := by
    norm_num at hr hhigh ⊢
    linarith
  exact Robot.bends_of (by norm_num) hlo hhi (by norm_num [GoToPos.bot]) (by norm_num [GoToPos.bot])

/-- The tip at least a millimetre inside the annulus, after a round that passed the check. -/
theorem tip_after_round {ar : Arithmetic} {T q : ℝ × ℝ} {δ ε : ℝ} (h : ar.Within GoToPos.bot T q δ ε)
    (hpass : ar.nm T q ≤ 1e-6) (hδ : δ ≤ 0.009) (hlow : 3.1 ≤ away T 0) (hhigh : away T 0 ≤ 26.9) :
    away T (GoToPos.bot.fkine (ar.next T q)) ≤ 25 * (1e-6 + δ) ^ 2 + 39 * ε := by
  have hbends := bends_inside (r := 1e-6 + δ) (by norm_num at hδ ⊢; linarith) hlow hhigh
  refine (h.accurate hpass (by norm_num) hbends).trans (le_of_eq ?_)
  norm_num [GoToPos.bot]
  ring

/-- `GoToPos` returns two rows for every target, whatever it computes with. For one out of reach the
second row is where the loop stopped at its limit; for one at least a millimetre inside the annulus,
where the loop ended before, it takes the tip to the target as nearly as the last round was
computed. -/
theorem goToPos_rows (ar : Arithmetic) (A : ℝ × ℝ) : ∃ row₁ row₂, GoToPos.p1 ar A = [row₁, row₂] ∧
    (∀ δ, (∀ k < 1000, |ar.nm (A.2, A.1) (ar.angles (A.2, A.1) row₁.1 k) -
        away (A.2, A.1) (GoToPos.bot.fkine (ar.angles (A.2, A.1) row₁.1 k))| ≤ δ) →
      away A 0 < 3 - 1e-6 - δ ∨ 27 + 1e-6 + δ < away A 0 → row₂.2 = true) ∧
    (row₂.2 = false → ∃ k < 1000, ar.nm (A.2, A.1) (ar.angles (A.2, A.1) row₁.1 k) ≤ 1e-6 ∧
      row₂.1 = ar.next (A.2, A.1) (ar.angles (A.2, A.1) row₁.1 k) ∧
      ∀ δ ε, δ ≤ 0.009 →
        ar.Within GoToPos.bot (A.2, A.1) (ar.angles (A.2, A.1) row₁.1 k) δ ε →
        3.1 ≤ away A 0 → away A 0 ≤ 26.9 →
        away (A.2, A.1) (GoToPos.bot.fkine row₂.1) ≤ 25 * (1e-6 + δ) ^ 2 + 39 * ε) := by
  have hswap := away_swap A
  obtain ⟨row₁, row₂, hp1, hrow⟩ := goToPos_p1 ar A
  refine ⟨row₁, row₂, hp1, ?_, ?_⟩
  · -- out of reach: `nm` never comes down to the tolerance
    intro δ hnm hout
    refine hrow.limit fun k hk => ?_
    have herror := (abs_le.mp (hnm k hk)).1
    generalize ar.angles (A.2, A.1) row₁.1 k = q at herror ⊢
    obtain ⟨hlow, hhigh⟩ := away_fkine_zero q
    have hnear := away_triangle (A.2, A.1) (GoToPos.bot.fkine q) 0
    have hfar := away_triangle (GoToPos.bot.fkine q) (A.2, A.1) 0
    rw [away_comm (GoToPos.bot.fkine q) (A.2, A.1)] at hfar
    rw [hswap] at hnear hfar
    rcases hout with hout | hout
    · linarith
    · linarith
  · intro hends
    obtain ⟨k, hk, hpass, hq⟩ := hrow.ends hends
    refine ⟨k, hk, hpass, hq, fun δ ε hδ hwithin hlow hhigh => ?_⟩
    rw [hq]
    exact tip_after_round hwithin hpass hδ (hswap ▸ hlow) (hswap ▸ hhigh)

/-- In exact numbers, that is a ten thousand millionth of a centimetre. -/
theorem p1_exact {A : ℝ × ℝ} {row : (ℝ × ℝ) × Bool}
    (h : (GoToPos.p1 (.exact GoToPos.bot) A).getLast? = some row) (hends : row.2 = false)
    (hlow : 3.1 ≤ away A 0) (hhigh : away A 0 ≤ 26.9) :
    away (A.2, A.1) (GoToPos.bot.fkine row.1) ≤ 1e-10 := by
  have hswap := away_swap A
  obtain ⟨row₁, row₂, hp1, hrow⟩ := goToPos_p1 (.exact GoToPos.bot) A
  rw [hp1] at h
  obtain rfl : row₂ = row := Option.some_inj.mp h
  obtain ⟨k, -, hpass, hq⟩ := hrow.ends hends
  rw [hq]
  refine (tip_after_round (Arithmetic.exact_within _ _ _) hpass (by norm_num) (hswap ▸ hlow)
    (hswap ▸ hhigh)).trans ?_
  norm_num

/-- The row solves the pose. -/
def Solves (bot : Robot) (T : ℝ × ℝ) (row : (ℝ × ℝ) × Bool) : Prop :=
  row.2 = false ∧ away T (bot.fkine row.1) ≤ 5e-7

/-- A path is solved when its first pose is within `r` of where the seed takes the tip, each next one
within half of it, and the elbow is bent within `r` of all of them, enough for this `r`. -/
theorem ikine_follows_path {bot : Robot} {r s : ℝ} (hs : 0 < s)
    (hr : (1 / bot.l₁ + 1 / bot.l₂) * r ≤ s) (htol : 1e-6 ≤ r) (hrounds : r ≤ 1e-6 * 2 ^ 999)
    {tr : List (ℝ × ℝ)} {q : ℝ × ℝ} (hbends : ∀ T ∈ tr, bot.Bends T r s)
    (hnear : tr.IsChain fun T T' => away T' T ≤ r / 2)
    (hseed : ∀ T, tr.head? = some T → away T (bot.fkine q) ≤ r) :
    List.Forall₂ (Solves bot) tr (SerialLink.ikine bot tr q) := by
  -- on the path: each pose is solved from the angles of the one before
  induction tr generalizing q with
  | nil => exact .nil
  | cons T tr ih =>
    have hT := hbends T (List.mem_cons_self)
    have hends := solve_converges hs 999 hT hr hrounds (hseed T rfl)
    have hsolves : Solves bot T (SerialLink.solve bot T 1000 q) := by
      refine ⟨hends, ?_⟩
      obtain ⟨q₀, hq₀, hq'⟩ := solve_ends (Prod.ext rfl hends)
      have hsin : sin q₀.2 ≠ 0 :=
        pow_ne_zero_iff two_ne_zero |>.mp (hs.trans_le (hT q₀ (hq₀.trans htol))).ne'
      have hhalf := Robot.newton_halves hs hT hr (hq₀.trans htol) (act_pinv hsin (T - bot.fkine q₀))
      rw [hq']
      refine hhalf.trans ?_
      norm_num at hq₀ ⊢
      linarith
    refine .cons hsolves (ih (fun T' hT' => hbends T' (List.mem_cons_of_mem T hT')) hnear.tail ?_)
    intro T' hT'
    calc away T' (bot.fkine (SerialLink.solve bot T 1000 q).1)
        ≤ away T' T + away T (bot.fkine (SerialLink.solve bot T 1000 q).1) := away_triangle _ _ _
      _ ≤ r / 2 + 5e-7 := add_le_add (hnear.rel_head? hT') hsolves.2
      _ ≤ r := by
        norm_num at htol ⊢
        linarith

/-- `ctraj` with enough points gives a path that is solved from one end to the other. -/
theorem ctraj_solved {bot : Robot} {r s : ℝ} (hs : 0 < s) (hr : (1 / bot.l₁ + 1 / bot.l₂) * r ≤ s)
    (htol : 1e-6 ≤ r) (hrounds : r ≤ 1e-6 * 2 ^ 999) {T0 T1 : ℝ × ℝ}
    (hbends : ∀ u, 0 ≤ u → u ≤ 1 → bot.Bends (trinterp T0 T1 u) r s) {N : Nat} (hN : 2 ≤ N)
    (hsteps : 4 * away T1 T0 ≤ r * (N - 1)) {q : ℝ × ℝ} (hseed : away T0 (bot.fkine q) ≤ r) :
    ∃ tr : List (ℝ × ℝ), ctrajSteps T0 T1 N = .ok (tr.map some) ∧ tr.length = N ∧
      tr.head? = some T0 ∧ tr.getLast? = some T1 ∧
      List.Forall₂ (Solves bot) tr (SerialLink.ikine bot tr q) := by
  obtain ⟨n, rfl⟩ := Nat.exists_eq_add_of_le' hN
  obtain ⟨tr, hctraj, hlength, hhead, hlast, hstraight, hchain⟩ := ctraj_path T0 T1 n
  refine ⟨tr, hctraj, hlength, hhead, hlast, ?_⟩
  have hnear : tr.IsChain fun T T' => away T' T ≤ r / 2 := by
    refine hchain.imp fun T T' h => h.trans ?_
    have hn : (0 : ℝ) < n + 1 := by positivity
    push_cast at hsteps
    rw [div_mul_eq_mul_div, div_le_iff₀ hn]
    linarith
  refine ikine_follows_path hs hr htol hrounds ?_ hnear ?_
  · intro T hT
    obtain ⟨u, h0, h1, rfl⟩ := hstraight T hT
    exact hbends u h0 h1
  · intro T hT
    rw [hhead] at hT
    obtain rfl := Option.some_inj.mp hT
    exact hseed

/-- On the way to the coffee, the elbow is bent. -/
theorem bends_coffee {u : ℝ} (h0 : 0 ≤ u) (h1 : u ≤ 1) :
    GoToPos.bot.Bends (trinterp (5, 15) (15, 18) u) 1.5 0.49 := by
  have hsq : ((trinterp (5, 15) (15, 18) u).1 - (0 : ℝ × ℝ).1) ^ 2 +
      ((trinterp (5, 15) (15, 18) u).2 - (0 : ℝ × ℝ).2) ^ 2 = 250 + 190 * u + 109 * u ^ 2 := by
    simp only [trinterp, Prod.fst_zero, Prod.snd_zero]
    ring
  have hu := mul_nonneg h0 (sub_nonneg.mpr h1)
  have hlo : 14 + 1.5 ≤ away (trinterp (5, 15) (15, 18) u) 0 := by
    refine le_sqrt_of_sq_le ?_
    rw [hsq]
    norm_num
    nlinarith
  have hhi : away (trinterp (5, 15) (15, 18) u) 0 + 1.5 ≤ 25 := by
    have : away (trinterp (5, 15) (15, 18) u) 0 ≤ 23.5 := by
      refine sqrt_le_iff.mpr ⟨by norm_num, ?_⟩
      rw [hsq]
      norm_num
      nlinarith
    norm_num at this ⊢
    linarith
  exact Robot.bends_of (by norm_num) hlo hhi (by norm_num [GoToPos.bot]) (by norm_num [GoToPos.bot])

theorem ctraj_solved_coffee : ∃ tr : List (ℝ × ℝ), ctrajSteps (5, 15) (15, 18) 29 = .ok (tr.map some) ∧
    tr.length = 29 ∧ tr.head? = some (5, 15) ∧ tr.getLast? = some (15, 18) ∧
    List.Forall₂ (Solves GoToPos.bot) tr
      (SerialLink.ikine GoToPos.bot tr (GoToPos.bot.solve true (5, 15))) := by
  have hway : away ((15 : ℝ), (18 : ℝ)) (5, 15) ≤ 10.5 := sqrt_le_iff.mpr ⟨by norm_num, by norm_num⟩
  have hseed : away (5, 15) (GoToPos.bot.fkine (GoToPos.bot.solve true (5, 15))) ≤ 1.5 := by
    rw [Robot.fkine_solve true (by norm_num [Robot.InAnnulus, GoToPos.bot])]
    norm_num [away]
  have hrounds : (1.5 : ℝ) ≤ 1e-6 * 2 ^ 999 :=
    (show (1.5 : ℝ) ≤ 1e-6 * 2 ^ 21 by norm_num).trans
      (mul_le_mul_of_nonneg_left (pow_le_pow_right₀ one_le_two (by norm_num)) (by norm_num))
  exact ctraj_solved (s := 0.49) (by norm_num) (by norm_num [GoToPos.bot]) (by norm_num) hrounds
    (fun u => bends_coffee) (by norm_num) (by norm_num at hway ⊢; linarith) hseed

end DrinkRobot
