import DrinkRobot.Arm.Bus

/-!
# Goal positions

`move_dynamixel_angles` turns an angle into a goal position for register 30: it adds the centre
angle of the servo, lets no angle fall below 0 and scales 300 degrees to 1023.

* `goalOf_eq`: for servos 2 and 3, the goal of angle `a` is `1023 / 300 * max 0 (150 + a)`.
* `goals_mean_angles`: the goals that `move_dynamixel_steps` writes mean the requested angles, those
  below -150 degrees becoming -150, and `wiggleit` comes back to the position it read.

A goal is the number handed to the library.
-/

namespace DrinkRobot

open Session

/-- The commands issued on the way from `s` to `s'`. -/
def Bus.commandsSince (s s' : Bus) : List Command :=
  (s'.issued.drop s.issued.length).map Issued.command

theorem commandsSince_issue {s t : Bus} (ht : t.issued = s.issued) (cs : List Command) :
    s.commandsSince (t.issue cs) = cs := by
  unfold Bus.commandsSince Bus.issue
  rw [ht, List.drop_left, List.map_map]
  exact List.map_id cs

/-! ## One angle -/

theorem goalOf_eq {id : Nat} (hid : id = 2 ∨ id = 3) (theta : ℚ) :
    goalOf id theta = 1023 / 300 * max 0 (150 + theta) := by
  have hbase : goalOf id theta = 1023 / 300 * if 150 + theta < 0 then 0 else 150 + theta := by
    rcases hid with rfl | rfl
    · rfl
    · rfl
  rw [hbase]
  split
  · rename_i h
    rw [max_eq_left h.le]
  · rename_i h
    rw [max_eq_right (not_lt.mp h)]

theorem goalOf_nonneg {id : Nat} (hid : id = 2 ∨ id = 3) (theta : ℚ) : 0 ≤ goalOf id theta := by
  rw [goalOf_eq hid]
  have := le_max_left 0 (150 + theta)
  linarith

/-- A goal is within the range of the servo exactly for angles of at most 150 degrees. -/
theorem goalOf_le_iff {id : Nat} (hid : id = 2 ∨ id = 3) (theta : ℚ) :
    goalOf id theta ≤ 1023 ↔ theta ≤ 150 := by
  rw [goalOf_eq hid]
  have hmax : max 0 (150 + theta) ≤ 300 ↔ 150 + theta ≤ 300 := by
    rw [max_le_iff]
    exact and_iff_right (by norm_num)
  constructor
  · intro h
    have := hmax.mp (by linarith)
    linarith
  · intro h
    have := hmax.mpr (by linarith)
    linarith

/-- The angle that a goal stands for is the requested one, or -150 degrees if that is higher. -/
theorem angle_goalOf {id : Nat} (hid : id = 2 ∨ id = 3) (theta : ℚ) :
    300 / 1023 * goalOf id theta - 150 = max theta (-150) := by
  rw [goalOf_eq hid]
  rcases le_total 0 (150 + theta) with h | h
  · rw [max_eq_right h, max_eq_left (by linarith)]
    ring
  · rw [max_eq_left h, max_eq_right (by linarith)]
    ring

/-! ## A trajectory -/

/-- The servo and the angle of each goal that a matrix of joint angles asks for, in order. -/
def requested (vector : List (ℚ × ℚ)) : List (Nat × ℚ) :=
  vector.flatMap fun row => [(2, row.2), (3, row.1)]

/-- The command writes a goal in `[0, 1023]` that means the requested angle. -/
def MeansAngle (c : Command) (q : Nat × ℚ) : Prop :=
  ∃ g, c = .dxlWriteWord q.1 30 g ∧ 0 ≤ g ∧ g ≤ 1023 ∧ 300 / 1023 * g - 150 = q.2

/-- The command writes a goal of at least 0 and, for an angle of at most 150 degrees, one of at most
1023 that means this angle, or -150 degrees for a lower one. -/
def MeansClamped (c : Command) (q : Nat × ℚ) : Prop :=
  ∃ g, c = .dxlWriteWord q.1 30 g ∧ 0 ≤ g ∧
    (q.2 ≤ 150 → g ≤ 1023 ∧ 300 / 1023 * g - 150 = max q.2 (-150))

theorem meansClamped_goalOf {id : Nat} (hid : id = 2 ∨ id = 3) (theta : ℚ) :
    MeansClamped (.dxlWriteWord id 30 (goalOf id theta)) (id, theta) :=
  ⟨_, rfl, goalOf_nonneg hid theta, fun h => ⟨(goalOf_le_iff hid theta).mpr h, angle_goalOf hid theta⟩⟩

theorem stepCommands_meansClamped (vector : List (ℚ × ℚ)) :
    List.Forall₂ MeansClamped (vector.flatMap stepCommands) (requested vector) := by
  induction vector with
  | nil => exact .nil
  | cons row vector ih =>
    exact .cons (meansClamped_goalOf (.inl rfl) row.2)
      (.cons (meansClamped_goalOf (.inr rfl) row.1) ih)

theorem commandsSince_steps (sdk : Sdk) (vector : List (ℚ × ℚ)) (s : Bus) :
    s.commandsSince ((moveDynamixelSteps sdk vector).exec s).2 = vector.flatMap stepCommands := by
  rw [moveDynamixelSteps_exec]
  by_cases hv : vector = []
  · subst hv
    simp [Bus.commandsSince]
  · rw [if_neg hv]
    exact commandsSince_issue (Bus.issued_guarded sdk 5 s) _

/-! ## Wiggling -/

theorem int32_of_lt {z : Int} (hlo : -2 ^ 31 ≤ z) (hhi : z < 2 ^ 31) : int32 z = z := by
  unfold int32
  omega

/-- The goals of `wiggleit` around the position `p` it reads. -/
theorem wiggle_goals (p : UInt16) :
    int32 (int32 p.toNat + 600) = p.toNat + 600 ∧ int32 (int32 p.toNat - 600) = p.toNat - 600 ∧
      int32 p.toNat = p.toNat := by
  have hp : p.toNat < 2 ^ 16 := p.toNat_lt
  have h : int32 p.toNat = p.toNat := int32_of_lt (by omega) (by omega)
  refine ⟨?_, ?_, h⟩
  · rw [h, int32_of_lt (by omega) (by omega)]
  · rw [h, int32_of_lt (by omega) (by omega)]

/-- What the commands of `wiggleit` are when it reads position `p`. -/
theorem commandsSince_wiggleit (sdk : Sdk) (id : Nat) {s : Bus} (h : s.loaded = true) :
    let p : ℚ := (sdk.dxlReadWord s.issued.length).toNat
    s.commandsSince ((wiggleit sdk id).exec s).2 =
      [.dxlReadWord id 36, .dxlWriteWord id 30 (p + 600), .dxlWriteWord id 30 (p - 600),
        .dxlWriteWord id 30 p] := by
  obtain ⟨hup, hdown, hback⟩ := wiggle_goals (sdk.dxlReadWord s.issued.length)
  rw [wiggleit_exec h]
  refine (commandsSince_issue rfl _).trans ?_
  rw [hup, hdown, hback]
  push_cast
  rfl

/-- **What the goals mean.** For every matrix of joint angles, `move_dynamixel_steps` writes one goal
for each angle, arm motor first in each row: at least 0 and, for an angle of at most 150 degrees, at
most 1023 and meaning this angle, or -150 degrees for a lower one. For every servo, `wiggleit` writes
three goals, the last one the position it read; all three are in `[0, M]` when that position is at
least 600 and at most `M - 600`. -/
theorem goals_mean_angles (sdk : Sdk) (s : Bus) (vector : List (ℚ × ℚ)) (id M : Nat) :
    List.Forall₂ MeansClamped (s.commandsSince ((moveDynamixelSteps sdk vector).exec s).2)
        (requested vector) ∧
      (s.loaded = true → ∃ g₁ g₂ p : ℚ, p = (sdk.dxlReadWord s.issued.length).toNat ∧
        s.commandsSince ((wiggleit sdk id).exec s).2 = [.dxlReadWord id 36,
          .dxlWriteWord id 30 g₁, .dxlWriteWord id 30 g₂, .dxlWriteWord id 30 p] ∧
        (600 ≤ p → p + 600 ≤ M → ∀ g ∈ [g₁, g₂, p], 0 ≤ g ∧ g ≤ M)) := by
  constructor
  · rw [commandsSince_steps]
    exact stepCommands_meansClamped vector
  · intro h
    refine ⟨_, _, _, rfl, commandsSince_wiggleit sdk id h, ?_⟩
    intro hlo hhi g hg
    simp only [List.mem_cons, List.not_mem_nil, or_false] at hg
    rcases hg with rfl | rfl | rfl
    · exact ⟨by linarith, hhi⟩
    · exact ⟨by linarith, by linarith⟩
    · exact ⟨by linarith, by linarith⟩

/-- -180 degrees become goal 0, which means -150 degrees. -/
theorem angle_not_kept :
    ¬ List.Forall₂ MeansAngle (Bus.start.commandsSince
      ((moveDynamixelSteps ⟨fun _ _ _ => true, fun _ => 0⟩ [(0, -180)]).exec Bus.start).2)
      (requested [(0, -180)]) := by
  have hcs : Bus.start.commandsSince
      ((moveDynamixelSteps ⟨fun _ _ _ => true, fun _ => 0⟩ [(0, -180)]).exec Bus.start).2 =
      [.dxlWriteWord 2 30 0, .dxlWriteWord 3 30 (1023 / 2)] := by decide +kernel
  rw [hcs]
  intro h
  cases h with
  | cons h _ =>
    obtain ⟨g, hg, -, -, hangle⟩ := h
    cases hg
    norm_num at hangle

/-- A servo that always says it is at 700. -/
def sdkAt700 : Sdk := ⟨fun _ _ _ => true, fun _ => 700⟩

theorem goals_mean_angles_centre :
    List.Forall₂ MeansClamped
        ((⟨true, true, 1, []⟩ : Bus).commandsSince
          ((moveDynamixelSteps sdkAt700 [(0, -180), (45, 90)]).exec ⟨true, true, 1, []⟩).2)
        [(2, -180), (3, 0), (2, 90), (3, 45)] ∧
      ∃ g₁ g₂ p : ℚ, p = 700 ∧
        (⟨true, true, 1, []⟩ : Bus).commandsSince
            ((wiggleit sdkAt700 4).exec ⟨true, true, 1, []⟩).2 = [.dxlReadWord 4 36,
          .dxlWriteWord 4 30 g₁, .dxlWriteWord 4 30 g₂, .dxlWriteWord 4 30 p] ∧
        ∀ g ∈ [g₁, g₂, p], 0 ≤ g ∧ g ≤ 4095 := by
  obtain ⟨hsteps, hwiggle⟩ := goals_mean_angles sdkAt700 ⟨true, true, 1, []⟩
    [(0, -180), (45, 90)] 4 4095
  obtain ⟨g₁, g₂, p, hp, hcommands, hrange⟩ := hwiggle rfl
  have hword : UInt16.toNat 700 = 700 := by decide
  have hp' : p = 700 := by
    rw [hp]
    show ((UInt16.toNat 700 : Nat) : ℚ) = 700
    rw [hword]
    norm_num
  exact ⟨hsteps, g₁, g₂, p, hp', hcommands,
    hrange (by rw [hp']; norm_num) (by rw [hp']; norm_num)⟩

end DrinkRobot
