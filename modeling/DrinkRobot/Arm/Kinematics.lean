import DrinkRobot.Lib.TwoLink

/-!
# `GoToPos` and `ReturnToPos`

Both build a robot with two links, pick a seed by the sign of `A(2)`, lay a path of two poses and
return the joint angles of each in degrees. Pose `(x, y)` stands for `transl(x, y, 0)`; the mask
leaves only these two coordinates to the inverse kinematics.

* `Ikine`: an exact inverse kinematics; it is a parameter. `exactIkine` is one.
* `goToPos_eq`, `returnToPos_eq`: the rows returned, and where they take the tip.
* `return_never_retraces`: `ReturnToPos` builds its robot with a second link of 11.5 instead of 12,
  so it never starts at the joint angles where `GoToPos` ended, and it ends at (15, 0), where
  `GoToPos` does not start.
-/

namespace DrinkRobot

open Real TwoLink

/-- Inverse kinematics for a robot, a pose and a seed: exact whenever the robot reaches the pose. -/
structure Ikine where
  solve (bot : Robot) (pose seed : ℝ × ℝ) : ℝ × ℝ
  fkine_solve : ∀ {bot : Robot} {pose} seed, bot.Reaches pose →
    bot.fkine (solve bot pose seed) = pose

/-- The solution with the elbow on the side of the seed. -/
noncomputable def exactIkine : Ikine where
  solve bot pose seed := bot.solve (decide (0 ≤ seed.2)) pose
  fkine_solve _ hreach := Robot.fkine_solve _ (Robot.reaches_iff.mp hreach)

/-- `bot.ikine(T, q, M)` for a path: each solution is the seed of the next pose. -/
def Ikine.ikine (ik : Ikine) (bot : Robot) : List (ℝ × ℝ) → ℝ × ℝ → List (ℝ × ℝ)
  | [], _ => []
  | T :: Ts, q =>
    let q := ik.solve bot T q
    q :: ik.ikine bot Ts q

/-- `ctraj` with two points. -/
def ctraj (T0 T1 : ℝ × ℝ) : List (ℝ × ℝ) := [T0, T1]

/-- A row of joint angles in degrees. -/
noncomputable def toDegrees (q : ℝ × ℝ) : ℝ × ℝ := (q.1 * (180 / π), q.2 * (180 / π))

noncomputable def toRadians (q : ℝ × ℝ) : ℝ × ℝ := (q.1 * (π / 180), q.2 * (π / 180))

/-- The robot of `GoToPos`. -/
noncomputable def GoToPos.bot : Robot := ⟨15, 12, by norm_num, by norm_num⟩

noncomputable def GoToPos (ik : Ikine) (A : ℝ × ℝ) : List (ℝ × ℝ) :=
  let q1 := (85 * (π / 180), 80 * (π / 180))
  let q2 := (85 * (π / 180), -80 * (π / 180))
  let q := if A.2 ≥ 0 then q1 else q2
  let T1 := (5, 15)
  let T2 := (A.2, A.1)
  let p1 := ik.ikine GoToPos.bot (ctraj T1 T2) q
  p1.map toDegrees

/-- The robot of `ReturnToPos`. -/
noncomputable def ReturnToPos.bot : Robot := ⟨15, 11.5, by norm_num, by norm_num⟩

noncomputable def ReturnToPos (ik : Ikine) (A : ℝ × ℝ) : List (ℝ × ℝ) :=
  let q1 := (85 * (π / 180), 80 * (π / 180))
  let q2 := (85 * (π / 180), -80 * (π / 180))
  let q := if A.2 ≥ 0 then q2 else q1
  let T3 := (A.2, A.1)
  let T4 := (15, 0)
  let p2 := ik.ikine ReturnToPos.bot (ctraj T3 T4) q
  p2.map toDegrees

/-! ## The rows -/

theorem toRadians_toDegrees (q : ℝ × ℝ) : toRadians (toDegrees q) = q := by
  have := pi_ne_zero
  unfold toRadians toDegrees
  ext
  · simp only
    field_simp
  · simp only
    field_simp

theorem toDegrees_injective : Function.Injective toDegrees :=
  Function.LeftInverse.injective toRadians_toDegrees

theorem goToPos_reaches_iff (x y : ℝ) :
    GoToPos.bot.Reaches (x, y) ↔ 3 ^ 2 ≤ x ^ 2 + y ^ 2 ∧ x ^ 2 + y ^ 2 ≤ 27 ^ 2 := by
  rw [Robot.reaches_iff]
  unfold Robot.InAnnulus GoToPos.bot
  norm_num

theorem returnToPos_reaches_iff (x y : ℝ) :
    ReturnToPos.bot.Reaches (x, y) ↔ 3.5 ^ 2 ≤ x ^ 2 + y ^ 2 ∧ x ^ 2 + y ^ 2 ≤ 26.5 ^ 2 := by
  rw [Robot.reaches_iff]
  unfold Robot.InAnnulus ReturnToPos.bot
  norm_num

/-- `GoToPos` returns two rows: the first takes the tip to (5, 15), the second to the target. -/
theorem goToPos_eq (ik : Ikine) (A : ℝ × ℝ) :
    ∃ q q', GoToPos ik A = [toDegrees q, toDegrees q'] ∧ GoToPos.bot.fkine q = (5, 15) ∧
      (GoToPos.bot.Reaches (A.2, A.1) → GoToPos.bot.fkine q' = (A.2, A.1)) := by
  refine ⟨_, _, rfl, ik.fkine_solve _ ?_, ik.fkine_solve _⟩
  rw [goToPos_reaches_iff]
  norm_num

/-- `ReturnToPos` returns two rows: the first takes the tip to the target, the second to (15, 0). -/
theorem returnToPos_eq (ik : Ikine) (A : ℝ × ℝ) :
    ∃ q q', ReturnToPos ik A = [toDegrees q, toDegrees q'] ∧
      ReturnToPos.bot.fkine q' = (15, 0) ∧
      (ReturnToPos.bot.Reaches (A.2, A.1) → ReturnToPos.bot.fkine q = (A.2, A.1)) := by
  refine ⟨_, _, rfl, ik.fkine_solve _ ?_, ik.fkine_solve _⟩
  rw [returnToPos_reaches_iff]
  norm_num

/-! ## There and back -/

/-- `ReturnToPos` starts at the joint angles where `GoToPos` ended. -/
def JointsMeet (ik : Ikine) (A : ℝ × ℝ) : Prop :=
  (GoToPos ik A).getLast? = (ReturnToPos ik A).head?

/-- `ReturnToPos` ends at the pose where `GoToPos` started. -/
def EndsAtStart (ik : Ikine) (A : ℝ × ℝ) : Prop :=
  (ReturnToPos ik A).getLast?.map (fun q => ReturnToPos.bot.fkine (toRadians q)) =
    (GoToPos ik A).head?.map fun q => GoToPos.bot.fkine (toRadians q)

/-- The way back retraces the approach. -/
def Retraces (ik : Ikine) (A : ℝ × ℝ) : Prop := JointsMeet ik A ∧ EndsAtStart ik A

theorem not_jointsMeet {ik : Ikine} {A : ℝ × ℝ} (hgoes : GoToPos.bot.Reaches (A.2, A.1))
    (hreturns : ReturnToPos.bot.Reaches (A.2, A.1)) : ¬ JointsMeet ik A := by
  obtain ⟨q₁, q₂, hgo, -, hq₂⟩ := goToPos_eq ik A
  obtain ⟨q₃, q₄, hreturn, -, hq₃⟩ := returnToPos_eq ik A
  unfold JointsMeet
  rw [hgo, hreturn]
  intro h
  have heq : q₂ = q₃ := toDegrees_injective (Option.some.inj h)
  have hmeet : GoToPos.bot.fkine q₂ = ReturnToPos.bot.fkine q₂ := by
    rw [hq₂ hgoes, heq, hq₃ hreturns]
  have hlinks : GoToPos.bot.l₂ = ReturnToPos.bot.l₂ := Robot.eq_of_fkine_eq rfl hmeet
  norm_num [GoToPos.bot, ReturnToPos.bot] at hlinks

theorem not_endsAtStart (ik : Ikine) (A : ℝ × ℝ) : ¬ EndsAtStart ik A := by
  obtain ⟨q₁, q₂, hgo, hq₁, -⟩ := goToPos_eq ik A
  obtain ⟨q₃, q₄, hreturn, hq₄, -⟩ := returnToPos_eq ik A
  unfold EndsAtStart
  rw [hgo, hreturn]
  intro h
  have hends : ReturnToPos.bot.fkine (toRadians (toDegrees q₄)) =
      GoToPos.bot.fkine (toRadians (toDegrees q₁)) := Option.some.inj h
  rw [toRadians_toDegrees, toRadians_toDegrees, hq₁, hq₄] at hends
  norm_num at hends

/-- **The way back never retraces the approach.** For every exact inverse kinematics and every
target: `ReturnToPos` does not end where `GoToPos` started, and when the target is in the reach of
both robots, `ReturnToPos` does not start at the joint angles where `GoToPos` ended. -/
theorem return_never_retraces (ik : Ikine) (A : ℝ × ℝ) :
    ¬ Retraces ik A ∧ ¬ EndsAtStart ik A ∧
      (GoToPos.bot.Reaches (A.2, A.1) → ReturnToPos.bot.Reaches (A.2, A.1) →
        ¬ JointsMeet ik A) :=
  ⟨fun h => not_endsAtStart ik A h.2, not_endsAtStart ik A, not_jointsMeet⟩

/-- With exact joint angles the target (9, 12) is not retraced. -/
theorem exactIkine_not_retraces :
    GoToPos.bot.Reaches (12, 9) ∧ ¬ Retraces exactIkine (9, 12) := by
  refine ⟨(goToPos_reaches_iff 12 9).mpr (by norm_num), ?_⟩
  intro h
  exact not_endsAtStart exactIkine (9, 12) h.2

theorem exactIkine_joints_apart : ¬ JointsMeet exactIkine (9, 12) := by
  apply (return_never_retraces exactIkine (9, 12)).2.2
  · rw [goToPos_reaches_iff]
    norm_num
  · rw [returnToPos_reaches_iff]
    norm_num

end DrinkRobot
