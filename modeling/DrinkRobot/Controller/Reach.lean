import DrinkRobot.Arm.Kinematics
import DrinkRobot.Controller.Cups
import Mathlib.Tactic.Linarith

/-!
# Targets in the arm's reach

State 4 limits each coordinate of its target on its own, and the arm reaches an annulus.

* `limitXY_eq`: the limits, coordinate by coordinate; NaN passes all of them.
* `inReach_limited_iff`: which positions the limits take into the annulus of 3 to 27 centimetres.
* `target_reachable_iff`: so these are the positions whose target the robot of `GoToPos` reaches.
-/

namespace DrinkRobot

variable {κ : Type}

/-! ## The limits -/

/-- A number above `hi` becomes `hi'`, and one below `lo` becomes `lo'`. -/
def limit (hi hi' lo lo' v : ℚ) : ℚ := if hi < v then hi' else if v < lo then lo' else v

/-- One coordinate: the two tests follow each other, and the first replacement passes the second. -/
theorem limit_eq {hi hi' lo lo' : ℚ} (h : lo ≤ hi') (v : Double) :
    (let v : Double := if v.above hi then some hi' else v
      if v.below lo then some lo' else v) = v.map (limit hi hi' lo lo') := by
  cases v with
  | none => rfl
  | some v =>
    unfold limit Double.above Double.below
    by_cases hv : hi < v
    · simp [hv, h]
    · by_cases hlo : v < lo
      · simp [hv, hlo]
      · simp [hv, hlo]

theorem limitXY_eq (xy : XY) :
    limitXY xy = ⟨xy.x.map (limit 24 23 (-24) (-23)), xy.y.map (limit 23 22 2 3)⟩ := by
  rw [← limit_eq (by norm_num), ← limit_eq (by norm_num)]
  unfold limitXY
  split_ifs <;> dsimp only <;> split_ifs <;> rfl

/-! ## The annulus -/

/-- The position is in the arm's annulus. -/
def InReach (x y : ℚ) : Prop := 3 ^ 2 ≤ x ^ 2 + y ^ 2 ∧ x ^ 2 + y ^ 2 ≤ 27 ^ 2

/-- The second coordinate is below 2; or it is at most 23, and the position is in the annulus, the
first coordinate counted as 23 when it is past 24; or it is above 23 and the first one is small. -/
def TakenIntoReach (x y : ℚ) : Prop :=
  y < 2 ∨ (2 ≤ y ∧ y ≤ 23 ∧ (24 < |x| ∧ y ^ 2 ≤ 200 ∨ |x| ≤ 24 ∧ InReach x y)) ∨
    23 < y ∧ x ^ 2 ≤ 245

theorem limit_sq (x : ℚ) : limit 24 23 (-24) (-23) x ^ 2 = if 24 < |x| then 529 else x ^ 2 := by
  unfold limit
  by_cases hhi : 24 < x
  · rw [if_pos hhi, if_pos (lt_abs.mpr (.inl hhi))]
    norm_num
  · by_cases hlo : x < -24
    · rw [if_neg hhi, if_pos hlo, if_pos (lt_abs.mpr (.inr (by linarith)))]
      norm_num
    · rw [if_neg hhi, if_neg hlo, if_neg]
      rw [not_lt, abs_le]
      exact ⟨by linarith, by linarith⟩

theorem sq_le_of_abs_le {x : ℚ} (h : |x| ≤ 24) : x ^ 2 ≤ 576 := by
  have := sq_le_sq' (abs_le.mp h).1 (abs_le.mp h).2
  linarith

theorem lt_sq_of_lt_abs {x : ℚ} (h : 24 < |x|) : 576 < x ^ 2 := by
  have := sq_lt_sq' (by linarith) h
  rw [sq_abs] at this
  linarith

/-- Below 2 the second coordinate becomes 3, which is in reach with any first one. -/
theorem inReach_limited_low (x : ℚ) {y : ℚ} (hy : y < 2) :
    InReach (limit 24 23 (-24) (-23) x) (limit 23 22 2 3 y) := by
  have hlim : limit 23 22 2 3 y = 3 := by rw [limit, if_neg (by linarith), if_pos hy]
  have hx := sq_nonneg x
  unfold InReach
  rw [limit_sq, hlim]
  split
  · norm_num
  · rename_i h
    have := sq_le_of_abs_le (not_lt.mp h)
    constructor <;> linarith

/-- Above 23 the second coordinate becomes 22. -/
theorem inReach_limited_high (x : ℚ) {y : ℚ} (hy : 23 < y) :
    InReach (limit 24 23 (-24) (-23) x) (limit 23 22 2 3 y) ↔ x ^ 2 ≤ 245 := by
  have hlim : limit 23 22 2 3 y = 22 := by rw [limit, if_pos hy]
  have hx := sq_nonneg x
  unfold InReach
  rw [limit_sq, hlim]
  constructor
  · rintro ⟨-, h⟩
    split at h
    · norm_num at h
    · linarith
  · intro h
    rw [if_neg fun hlt => by linarith [lt_sq_of_lt_abs hlt]]
    constructor <;> linarith

/-- In between the second coordinate stays. -/
theorem inReach_limited_mid (x : ℚ) {y : ℚ} (hlow : 2 ≤ y) (hhigh : y ≤ 23) :
    InReach (limit 24 23 (-24) (-23) x) (limit 23 22 2 3 y) ↔
      24 < |x| ∧ y ^ 2 ≤ 200 ∨ |x| ≤ 24 ∧ InReach x y := by
  have hlim : limit 23 22 2 3 y = y := by
    rw [limit, if_neg (not_lt.mpr hhigh), if_neg (not_lt.mpr hlow)]
  unfold InReach
  rw [limit_sq, hlim]
  by_cases hx : 24 < |x|
  · rw [if_pos hx]
    constructor
    · intro h
      exact .inl ⟨hx, by linarith [h.2]⟩
    · rintro (⟨-, hsq⟩ | ⟨h, -⟩)
      · constructor <;> nlinarith
      · exact absurd hx (not_lt.mpr h)
  · rw [if_neg hx]
    constructor
    · intro h
      exact .inr ⟨not_lt.mp hx, h⟩
    · rintro (⟨h, -⟩ | ⟨-, h⟩)
      · exact absurd h hx
      · exact h

theorem inReach_limited_iff (x y : ℚ) :
    InReach (limit 24 23 (-24) (-23) x) (limit 23 22 2 3 y) ↔ TakenIntoReach x y := by
  unfold TakenIntoReach
  by_cases hlow : y < 2
  · exact iff_of_true (inReach_limited_low x hlow) (.inl hlow)
  · by_cases hhigh : 23 < y
    · rw [inReach_limited_high x hhigh]
      constructor
      · intro h
        exact .inr (.inr ⟨hhigh, h⟩)
      · rintro (h | ⟨-, h, -⟩ | ⟨-, h⟩)
        · exact absurd h hlow
        · exact absurd hhigh (not_lt.mpr h)
        · exact h
    · rw [inReach_limited_mid x (not_lt.mp hlow) (not_lt.mp hhigh)]
      constructor
      · intro h
        exact .inr (.inl ⟨not_lt.mp hlow, not_lt.mp hhigh, h⟩)
      · rintro (h | ⟨-, -, h⟩ | ⟨h, -⟩)
        · exact absurd h hlow
        · exact h
        · exact absurd h hhigh

/-! ## The target -/

/-- The target is a pair of numbers in the annulus, and some joint angles of the robot that `GoToPos`
builds take the tip to the pose it is given for it. -/
def XY.Reachable (xy : XY) : Prop :=
  ∃ x y : ℚ, xy = ⟨some x, some y⟩ ∧ InReach x y ∧ GoToPos.bot.Reaches (y, x)

theorem reaches_iff_inReach (x y : ℚ) : GoToPos.bot.Reaches (y, x) ↔ InReach x y := by
  rw [goToPos_reaches_iff, InReach, add_comm]
  norm_cast

theorem limitXY_reachable_iff (xy : XY) :
    (limitXY xy).Reachable ↔ ∃ x y, xy = ⟨some x, some y⟩ ∧ TakenIntoReach x y := by
  rw [limitXY_eq]
  constructor
  · rintro ⟨x', y', hxy, hin, -⟩
    obtain ⟨x, hx, rfl⟩ := Option.map_eq_some_iff.mp (congrArg XY.x hxy)
    obtain ⟨y, hy, rfl⟩ := Option.map_eq_some_iff.mp (congrArg XY.y hxy)
    refine ⟨x, y, ?_, (inReach_limited_iff x y).mp hin⟩
    rw [← hx, ← hy]
  · rintro ⟨x, y, rfl, h⟩
    have hin := (inReach_limited_iff x y).mpr h
    exact ⟨_, _, rfl, hin, (reaches_iff_inReach _ _).mpr hin⟩

theorem step_find_target {P : Program} {c c' : Config} {inp : Input κ} {i : Nat}
    {rows : List SelectedCup} {cup : Row} {r : SelectedCup}
    (hstep : step P c inp = .ok (c', .find i rows)) (hcup : c.cup = some cup)
    (hsearch : searchCup rows cup.cupType (countCups P.sortedOrder i cup.cupType) = some r) :
    c'.currentCupXY = some (limitXY r.xy) := by
  cases step_pass hstep with
  | find hs hfind hcup' =>
    rw [hcup] at hcup'
    cases hcup'
    show setTarget rows cup.cupType _ _ = _
    rw [setTarget, hsearch]

/-- **When the target is in reach.** For every pass through state 4 that finds a row, with any
numbers or NaN for its position: the target it leaves is a pair of numbers in the annulus, with
exact joint angles for it, exactly when the position is a pair of numbers that the limits take into
the annulus. -/
theorem target_reachable_iff (P : Program) (c c' : Config) (inp : Input κ) (i : Nat)
    (rows : List SelectedCup) (cup : Row) (r : SelectedCup)
    (hstep : step P c inp = .ok (c', .find i rows)) (hcup : c.cup = some cup)
    (hsearch : searchCup rows cup.cupType (countCups P.sortedOrder i cup.cupType) = some r) :
    ∃ xy, c'.currentCupXY = some xy ∧
      (xy.Reachable ↔ ∃ x y, r.xy = ⟨some x, some y⟩ ∧ TakenIntoReach x y) :=
  ⟨_, step_find_target hstep hcup hsearch, limitXY_reachable_iff r.xy⟩

/-- One coffee in a small cup. -/
def oneCoffee (xyzPoints : PointCloud) : Program where
  n := 2
  sortedOrder := [⟨1, 1, 1, 0, 0, 0, 1⟩]
  xyzPoints := xyzPoints

/-- A point cloud that puts every pixel 2.5 centimetres in front of the base. -/
def nearBase : PointCloud :=
  { flatCloud with X := fun _ _ => some (-103 / 1000), Y := fun _ _ => some (3 / 100) }

/-- State 4 for the first order. -/
def findingCups : Config where
  i := 1
  state := .findCups
  cup := some ⟨1, 1, 0, 0, 0, 0, 1⟩
  condimentFlag := some .noCondiment
  currentCupXY := none
  nextId := 1

def seesOneCup : Input (ℚ × ℚ) := ⟨stillFrame [⟨100, 100, 20⟩], fun _ => true⟩

theorem searchCup_oneCoffee (xyzPoints : PointCloud) (xy : XY) :
    searchCup [⟨xy, 1, 1⟩] 1 (countCups (oneCoffee xyzPoints).sortedOrder 1 1) =
      some ⟨xy, 1, 1⟩ := by
  have hcount : countCups [⟨1, 1, 1, 0, 0, 0, 1⟩] 1 1 = 1 := by decide +kernel
  unfold oneCoffee
  rw [hcount]
  simp [searchCup]

theorem step_oneCoffee (xyzPoints : PointCloud) (xy : XY)
    (hfind : findCups xyzPoints seesOneCup 1 = .ok (2, [⟨xy, 1, 1⟩])) :
    ∃ c', step (oneCoffee xyzPoints) findingCups seesOneCup = .ok (c', .find 1 [⟨xy, 1, 1⟩]) := by
  refine ⟨{ findingCups with
    nextId := 2
    currentCupXY := setTarget [⟨xy, 1, 1⟩] 1
      (countCups (oneCoffee xyzPoints).sortedOrder 1 1) none
    state := .dropCondiment }, ?_⟩
  show (findCups xyzPoints seesOneCup 1 >>= _) = _
  rw [hfind]
  rfl

/-- The target 2.5 centimetres from the base is left as it is. -/
theorem target_too_near :
    ∃ c' xy, step (oneCoffee nearBase) findingCups seesOneCup =
      .ok (c', .find 1 [⟨⟨some 0, some (5 / 2)⟩, 1, 1⟩]) ∧
      c'.currentCupXY = some xy ∧ ¬ xy.Reachable := by
  obtain ⟨c', hstep⟩ := step_oneCoffee nearBase ⟨some 0, some (5 / 2)⟩ (by decide +kernel)
  refine ⟨c', _, hstep, step_find_target hstep rfl (searchCup_oneCoffee _ _), ?_⟩
  rw [limitXY_reachable_iff]
  rintro ⟨x, y, hxy, h⟩
  cases hxy
  norm_num [TakenIntoReach, InReach] at h

theorem target_reachable_flat :
    ∃ c' xy, step (oneCoffee flatCloud) findingCups seesOneCup =
      .ok (c', .find 1 [⟨⟨some (159 / 10), some (63 / 10)⟩, 1, 1⟩]) ∧
      c'.currentCupXY = some xy ∧ xy.Reachable := by
  obtain ⟨c', hstep⟩ := step_oneCoffee flatCloud ⟨some (159 / 10), some (63 / 10)⟩
    (by decide +kernel)
  obtain ⟨xy, hxy, hiff⟩ := target_reachable_iff (oneCoffee flatCloud) findingCups c' seesOneCup 1
    _ _ _ hstep rfl (searchCup_oneCoffee _ _)
  refine ⟨c', xy, hstep, hxy, hiff.mpr ⟨159 / 10, 63 / 10, rfl, ?_⟩⟩
  refine .inr (.inl ⟨by norm_num, by norm_num, .inr ⟨?_, ?_⟩⟩)
  · rw [abs_of_pos (by norm_num)]
    norm_num
  · norm_num [InReach]

end DrinkRobot
