import DrinkRobot.Lib.Sweep
import DrinkRobot.Matlab
import DrinkRobot.Tracker.Model

/-!
# Locating a glass with a trained detector

The three scripts run the detector, delete the boxes that are probably not a glass while walking
the list, and show what is left. `glasslocation3` also returns a point computed from the first box
left.

* `boxes_left`, `loops_are_filters`: the loop of each script leaves the boxes that pass its test.
* `glasslocation3_eq`: the point is computed from the first box of area at most 2024, and the read
  of row 1 fails when there is none.
* `reports_glass_iff`: the point is half a box up and left of the corner instead of down and right
  of it, so it is the rounded centre only of a box so small that both round to one pixel.
-/

namespace DrinkRobot

variable {ι : Type}

/-! ## The scripts -/

/-- The test of `glasslocation`. -/
def glasslocation.notGlass (b : Box) : Bool :=
  if b.width > 70 || b.width < 42 then
    true
  else if b.height > 100 then
    true
  else
    false

/-- The boxes that `glasslocation` shows last. -/
def glasslocation (detector : ι → List Box) (image : ι) : Except MatlabError (List Box) :=
  let bbox := detector image
  if bbox.isEmpty then pure bbox else Sweep.sweep .badIndex glasslocation.notGlass bbox

/-- The test of `glasslocation2`. -/
def glasslocation2.notGlass (b : Box) : Bool :=
  if b.width > 45 || b.width < 25 then
    true
  else if b.height > 45 then
    true
  else
    false

/-- The boxes that `glasslocation2` shows last. -/
def glasslocation2 (detector : ι → List Box) (image : ι) : Except MatlabError (List Box) :=
  let bbox := detector image
  if bbox.isEmpty then pure bbox else Sweep.sweep .badIndex glasslocation2.notGlass bbox

/-- The test of `glasslocation3`. -/
def glasslocation3.notGlass (b : Box) : Bool := b.width * b.height > 2024

/-- The boxes that `glasslocation3` shows last. -/
def glasslocation3.left (detector : ι → List Box) (image : ι) : Except MatlabError (List Box) :=
  let bbox := detector image
  if bbox.isEmpty then pure bbox else Sweep.sweep .badIndex glasslocation3.notGlass bbox

/-- `round(bbox(1,1:2) - bbox(1,3:4)./2)` of the boxes left. -/
def glasslocation3 (detector : ι → List Box) (image : ι) : Except MatlabError (Int × Int) := do
  let bbox ← glasslocation3.left detector image
  let b ← OneBased.get .badIndex bbox 1
  pure (matlabRound (b.left - b.width / 2), matlabRound (b.top - b.height / 2))

/-! ## The boxes left -/

/-- The guard against the empty list changes nothing. -/
theorem boxes_left (notGlass : Box → Bool) (bbox : List Box) :
    (if bbox.isEmpty then pure bbox else Sweep.sweep MatlabError.badIndex notGlass bbox) =
      .ok (bbox.filter fun b => !notGlass b) := by
  cases bbox with
  | nil => rfl
  | cons b bs => exact Sweep.sweep_eq_filter _ _ _

/-- A box passes both branches of the test exactly when its width is between the two bounds and its
height is at most the third. -/
theorem not_ladder_eq (w h low high top : ℚ) :
    (!(if w > high || w < low then true else if h > top then true else false)) =
      decide (low ≤ w ∧ w ≤ high ∧ h ≤ top) := by
  by_cases hhigh : w ≤ high
  · by_cases hlow : low ≤ w
    · by_cases htop : h ≤ top
      · simp [hhigh, hlow, htop, not_lt.mpr hhigh, not_lt.mpr hlow, not_lt.mpr htop]
      · simp [htop, not_lt.mpr hhigh, not_lt.mpr hlow, not_le.mp htop]
    · simp [hlow, not_le.mp hlow]
  · simp [hhigh, not_le.mp hhigh]

theorem glasslocation.kept_eq (b : Box) :
    (!glasslocation.notGlass b) = decide (42 ≤ b.width ∧ b.width ≤ 70 ∧ b.height ≤ 100) :=
  not_ladder_eq b.width b.height 42 70 100

theorem glasslocation2.kept_eq (b : Box) :
    (!glasslocation2.notGlass b) = decide (25 ≤ b.width ∧ b.width ≤ 45 ∧ b.height ≤ 45) :=
  not_ladder_eq b.width b.height 25 45 45

/-- The box has an area of at most 2024 pixels. -/
def Box.Plausible (b : Box) : Bool := b.width * b.height ≤ 2024

theorem Box.plausible_eq (b : Box) : (!glasslocation3.notGlass b) = b.Plausible := by
  unfold glasslocation3.notGlass Box.Plausible
  rw [← decide_not, decide_eq_decide, gt_iff_lt, not_lt]

theorem glasslocation3.left_eq (detector : ι → List Box) (image : ι) :
    glasslocation3.left detector image = .ok ((detector image).filter Box.Plausible) := by
  refine (boxes_left _ _).trans ?_
  simp only [Box.plausible_eq]

theorem glasslocation3_eq (detector : ι → List Box) (image : ι) :
    glasslocation3 detector image =
      match (detector image).find? Box.Plausible with
      | some b => .ok (matlabRound (b.left - b.width / 2), matlabRound (b.top - b.height / 2))
      | none => .error .badIndex := by
  show (glasslocation3.left detector image >>= _) = _
  rw [glasslocation3.left_eq, ← List.head?_filter]
  cases (detector image).filter Box.Plausible with
  | nil => rfl
  | cons b bs => rfl

/-- **The loops are filters.** For every list of boxes that a detector returns, no loop reads or
deletes outside the shrinking array, and each leaves the boxes that pass its test, in their order. -/
theorem loops_are_filters (detector : ι → List Box) (image : ι) :
    glasslocation detector image = .ok ((detector image).filter fun b =>
      42 ≤ b.width ∧ b.width ≤ 70 ∧ b.height ≤ 100) ∧
    glasslocation2 detector image = .ok ((detector image).filter fun b =>
      25 ≤ b.width ∧ b.width ≤ 45 ∧ b.height ≤ 45) ∧
    glasslocation3.left detector image = .ok ((detector image).filter fun b =>
      b.width * b.height ≤ 2024) := by
  refine ⟨?_, ?_, glasslocation3.left_eq detector image⟩
  · refine (boxes_left _ _).trans ?_
    simp only [glasslocation.kept_eq]
  · refine (boxes_left _ _).trans ?_
    simp only [glasslocation2.kept_eq]

/-! ## The point returned -/

/-- What `glasslocation3` should return: the centre of the first plausible box up to rounding, and
no error when there is none. -/
def ReportsGlass (bbox : List Box) (xy : Except MatlabError (Int × Int)) : Prop :=
  match bbox.find? Box.Plausible with
  | some b =>
    xy = .ok (matlabRound (b.left + b.width / 2), matlabRound (b.top + b.height / 2))
  | none => ∃ p, xy = .ok p

/-- No half, where `round` steps to the next pixel, lies between `left - width/2` and
`left + width/2` or between `top - height/2` and `top + height/2`. -/
def Box.BetweenHalves (b : Box) : Prop :=
  (∀ m : ℤ, RoundAway.Past m (b.left + b.width / 2) → RoundAway.Past m (b.left - b.width / 2)) ∧
  ∀ m : ℤ, RoundAway.Past m (b.top + b.height / 2) → RoundAway.Past m (b.top - b.height / 2)

/-- Such a box is smaller than a pixel. -/
theorem Box.BetweenHalves.lt_one {b : Box} (h : b.BetweenHalves) (hw : 0 < b.width)
    (hh : 0 < b.height) : b.width < 1 ∧ b.height < 1 := by
  have hx := (RoundAway.round_eq_round_iff (by linarith)).mpr h.1
  have hy := (RoundAway.round_eq_round_iff (by linarith)).mpr h.2
  constructor
  · by_contra hge
    exact RoundAway.round_ne_of_add_one_le (by linarith) hx
  · by_contra hge
    exact RoundAway.round_ne_of_add_one_le (by linarith) hy

/-- **When `glasslocation3` returns a glass.** For every detector and image with boxes of positive
sizes: the result is the rounded centre of the first plausible box (and no error when there is
none) exactly when there is a plausible box and the first one lies between two halves. -/
theorem reports_glass_iff (detector : ι → List Box) (image : ι)
    (hpos : ∀ b ∈ detector image, 0 < b.width ∧ 0 < b.height) :
    ReportsGlass (detector image) (glasslocation3 detector image) ↔
      ∃ b, (detector image).find? Box.Plausible = some b ∧ b.BetweenHalves := by
  unfold ReportsGlass
  rw [glasslocation3_eq]
  cases hfind : (detector image).find? Box.Plausible with
  | none => simp
  | some b =>
    obtain ⟨hw, hh⟩ := hpos b (List.mem_of_find?_eq_some hfind)
    -- the two sides are rounded apart, and agree unless a half lies between them
    have hx := RoundAway.round_eq_round_iff
      (show b.left - b.width / 2 ≤ b.left + b.width / 2 by linarith)
    have hy := RoundAway.round_eq_round_iff
      (show b.top - b.height / 2 ≤ b.top + b.height / 2 by linarith)
    show Except.ok _ = Except.ok _ ↔ _
    rw [Except.ok.injEq, Prod.mk.injEq, matlabRound_eq, matlabRound_eq, matlabRound_eq,
      matlabRound_eq, hx, hy]
    constructor
    · intro h
      exact ⟨b, rfl, h⟩
    · rintro ⟨b', hb', h⟩
      cases hb'
      exact h

/-- Of a glass of 20 by 20 pixels with its corner at (100, 100), the point is (90, 90). -/
theorem point_beside_glass :
    ¬ ReportsGlass [⟨100, 100, 20, 20⟩] (glasslocation3 id [⟨100, 100, 20, 20⟩]) := by
  have hfind : [(⟨100, 100, 20, 20⟩ : Box)].find? Box.Plausible = some ⟨100, 100, 20, 20⟩ := by
    decide +kernel
  have hres : glasslocation3 id [⟨100, 100, 20, 20⟩] = .ok (90, 90) := by decide +kernel
  have hcentre : matlabRound (100 + 20 / 2) = 110 := by decide +kernel
  unfold ReportsGlass
  rw [hfind, hres]
  show ¬ Except.ok (90, 90) = Except.ok (matlabRound (100 + 20 / 2), matlabRound (100 + 20 / 2))
  rw [hcentre]
  simp

theorem reports_glass_small :
    ReportsGlass [⟨100, 100, 100, 100⟩, ⟨100, 50, 4 / 5, 4 / 5⟩]
      (glasslocation3 id [⟨100, 100, 100, 100⟩, ⟨100, 50, 4 / 5, 4 / 5⟩]) := by
  refine (reports_glass_iff id [⟨100, 100, 100, 100⟩, ⟨100, 50, 4 / 5, 4 / 5⟩] ?_).mpr
    ⟨⟨100, 50, 4 / 5, 4 / 5⟩, by decide +kernel, ?_⟩
  · intro b hb
    simp only [id, List.mem_cons, List.not_mem_nil, or_false] at hb
    rcases hb with rfl | rfl
    · norm_num
    · norm_num
  · constructor
    · exact (RoundAway.round_eq_round_iff (by norm_num)).mp (by decide +kernel)
    · exact (RoundAway.round_eq_round_iff (by norm_num)).mp (by decide +kernel)

end DrinkRobot
