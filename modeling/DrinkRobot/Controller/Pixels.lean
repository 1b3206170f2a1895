import DrinkRobot.Controller.Cups

/-!
# The pixel of a cup

State 4 looks a cup up in the point cloud at the top left corner of its box, cut at the left and
top edges of the frame.

* `lookups_inside`: when the centres are in a frame of the cloud's size, every row of the table of
  a call is looked up inside the cloud, so state 4 gets its table.
* `corner_contains_iff`: the corner is in the circle exactly when the circle contains pixel (1, 1)
  or its centre is in the first column or the first row. `drop_pixel_iff`: so for every cup that
  state 4 selects.
-/

namespace DrinkRobot

open OneBased

variable {κ : Type}

/-- The centre is in a frame of `W` columns and `H` rows, and the radius is positive. -/
structure Circle.InFrame (W H : Nat) (c : Circle) : Prop where
  one_le_x : 1 ≤ c.x
  x_le : c.x ≤ W
  one_le_y : 1 ≤ c.y
  y_le : c.y ≤ H
  radius_pos : 0 < c.radius

/-- The cut at an edge of the frame. -/
theorem ite_lt_one (v : ℚ) : (if v < 1 then 1 else v) = max 1 v := by
  by_cases h : v < 1
  · rw [if_pos h, max_eq_left h.le]
  · rw [if_neg h, max_eq_right (not_lt.mp h)]

theorem Circle.corner_fst (c : Circle) : c.corner.1 = max 1 (c.x - c.radius) :=
  ite_lt_one (c.x - c.radius)

theorem Circle.corner_snd (c : Circle) : c.corner.2 = max 1 (c.y - c.radius) :=
  ite_lt_one (c.y - c.radius)

/-! ## Inside the cloud -/

/-- A pixel of the frame is looked up inside the cloud when it is left of the last column or the
last column is the first one: the mirrored column 0 is read as column 1. -/
theorem cell_inside {xyzPoints : PointCloud} {p : ℚ × ℚ} (hx1 : 1 ≤ p.1)
    (hxw : p.1 ≤ xyzPoints.width) (hy1 : 1 ≤ p.2) (hyh : p.2 ≤ xyzPoints.height) :
    xyzPoints.Inside (xyzPoints.cell p).1 (xyzPoints.cell p).2 := by
  have hrow1 : 1 ≤ matlabRound p.2 := RoundAway.le_round (by exact_mod_cast hy1)
  have hrowh : matlabRound p.2 ≤ xyzPoints.height := RoundAway.round_le (by exact_mod_cast hyh)
  have hcol0 : 0 ≤ matlabRound (xyzPoints.width - p.1) :=
    RoundAway.le_round (by rw [Int.cast_zero]; exact sub_nonneg.mpr hxw)
  have hcolw : matlabRound (xyzPoints.width - p.1) ≤ (xyzPoints.width - 1 : Int) :=
    RoundAway.round_le (by push_cast; linarith)
  have hw : 1 ≤ xyzPoints.width := by exact_mod_cast hx1.trans hxw
  unfold PointCloud.Inside PointCloud.cell pixelx pixely
  simp only
  refine ⟨?_, ?_, ?_, ?_⟩ <;> split <;> omega

theorem Circle.InFrame.corner_inside {xyzPoints : PointCloud} {c : Circle}
    (h : c.InFrame xyzPoints.width xyzPoints.height) :
    xyzPoints.Inside (xyzPoints.cell c.corner).1 (xyzPoints.cell c.corner).2 := by
  have hr := h.radius_pos
  apply cell_inside
  · rw [c.corner_fst]
    exact le_max_left _ _
  · rw [c.corner_fst]
    exact max_le (h.one_le_x.trans h.x_le) (by linarith [h.x_le])
  · rw [c.corner_snd]
    exact le_max_left _ _
  · rw [c.corner_snd]
    exact max_le (h.one_le_y.trans h.y_le) (by linarith [h.y_le])

/-- Row `d` of the table has the corner of circle `d`. -/
theorem circleRows_corner {cs : List Circle} {d : Nat} {r : CupRow}
    (h : (circleRows cs)[d]? = some r) : ∃ c, cs[d]? = some c ∧ (r.left, r.top) = c.corner := by
  rw [circleRows_getElem?] at h
  obtain ⟨c, hc, rfl⟩ := Option.map_eq_some_iff.mp h
  exact ⟨c, hc, rfl⟩

theorem findCups_eq {xyzPoints : PointCloud} {inp : Input κ} {XYs : List XY} (Nid : Nat)
    (h : metric xyzPoints ((circleRows (listed inp.frame)).map fun r => (r.left, r.top)) =
      .ok XYs) :
    findCups xyzPoints inp Nid = .ok (Nid + inp.frame.circles.length,
      selectedCups XYs (circleRows (listed inp.frame))) := by
  unfold findCups
  rw [call_everything]
  show (metric xyzPoints _ >>= _) = _
  rw [h]
  rfl

/-- **No lookup outside the cloud.** For every frame of the cloud's size, every list of circles with
centres in it and positive radii and every `nextId`, a call raises no error, every row of its table
is looked up inside the cloud, and state 4 gets its table with what the cloud has at these cells. -/
theorem lookups_inside (xyzPoints : PointCloud) (inp : Input κ) (Nid : Nat)
    (h : ∀ c ∈ inp.frame.circles, c.InFrame xyzPoints.width xyzPoints.height) :
    ∃ everything rows,
      multiObjectTrackingHCNew inp.frame initializeTracks Nid =
        .ok (Nid + inp.frame.circles.length, everything) ∧
      everything.length = inp.frame.circles.length ∧
      (∀ r ∈ everything, xyzPoints.Inside (xyzPoints.cell (r.left, r.top)).1
        (xyzPoints.cell (r.left, r.top)).2) ∧
      findCups xyzPoints inp Nid = .ok (Nid + inp.frame.circles.length, rows) ∧
      rows = selectedCups (everything.map fun r => xyzPoints.centimetres
        (xyzPoints.cell (r.left, r.top)).1 (xyzPoints.cell (r.left, r.top)).2) everything := by
  have hinside : ∀ r ∈ circleRows (listed inp.frame), xyzPoints.Inside
      (xyzPoints.cell (r.left, r.top)).1 (xyzPoints.cell (r.left, r.top)).2 := by
    intro r hr
    obtain ⟨d, hd⟩ := List.getElem?_of_mem hr
    obtain ⟨c, hc, hcorner⟩ := circleRows_corner hd
    rw [hcorner]
    exact (h c ((listed_perm inp.frame).mem_iff.mp (List.mem_of_getElem? hc))).corner_inside
  have hpixels : ∀ p ∈ (circleRows (listed inp.frame)).map fun r => (r.left, r.top),
      xyzPoints.Inside (xyzPoints.cell p).1 (xyzPoints.cell p).2 := by
    intro p hp
    obtain ⟨r, hr, rfl⟩ := List.mem_map.mp hp
    exact hinside r hr
  have hmetric := metric_inside hpixels
  rw [List.map_map] at hmetric
  exact ⟨_, _, call_everything inp.frame Nid, by rw [length_circleRows, length_listed], hinside,
    findCups_eq Nid hmetric, rfl⟩

/-- A circle larger than the frame in its bottom left corner, and one in its top right corner. -/
def cornerCircles : Input (ℚ × ℚ) := ⟨stillFrame [⟨1, 480, 700⟩, ⟨640, 1, 1⟩], fun _ => true⟩

theorem lookups_inside_still :
    ∃ everything rows,
      multiObjectTrackingHCNew cornerCircles.frame initializeTracks 1 = .ok (3, everything) ∧
      everything.length = 2 ∧
      (∀ r ∈ everything, flatCloud.Inside (flatCloud.cell (r.left, r.top)).1
        (flatCloud.cell (r.left, r.top)).2) ∧
      findCups flatCloud cornerCircles 1 = .ok (3, rows) ∧
      rows = selectedCups (everything.map fun r => flatCloud.centimetres
        (flatCloud.cell (r.left, r.top)).1 (flatCloud.cell (r.left, r.top)).2) everything := by
  refine lookups_inside flatCloud cornerCircles 1 fun c hc => ?_
  simp only [cornerCircles, stillFrame, List.mem_cons, List.not_mem_nil, or_false] at hc
  rcases hc with rfl | rfl
  · exact ⟨by norm_num, by norm_num [flatCloud], by norm_num, by norm_num [flatCloud], by norm_num⟩
  · exact ⟨by norm_num, by norm_num [flatCloud], by norm_num, by norm_num [flatCloud], by norm_num⟩

/-! ## On the cup -/

/-- The pixel `p` is in the circle. -/
def Circle.Contains (c : Circle) (p : ℚ × ℚ) : Prop :=
  (p.1 - c.x) ^ 2 + (p.2 - c.y) ^ 2 ≤ c.radius ^ 2

/-- The circle contains the first pixel of the frame, or its centre is in the first column or row. -/
def Circle.AtOrigin (c : Circle) : Prop := c.Contains (1, 1) ∨ c.x = 1 ∨ c.y = 1

/-- A radius to the side, the circle is met only at the height of the centre. -/
theorem sq_sub_add_sq_le (v w r : ℚ) : (v - w) ^ 2 + r ^ 2 ≤ r ^ 2 ↔ v = w := by
  constructor
  · intro h
    have hzero : (v - w) ^ 2 = 0 := le_antisymm (by linarith) (sq_nonneg _)
    exact sub_eq_zero.mp (pow_eq_zero_iff two_ne_zero |>.mp hzero)
  · rintro rfl
    simp

theorem corner_contains_iff {W H : Nat} {c : Circle} (h : c.InFrame W H) :
    c.Contains c.corner ↔ c.AtOrigin := by
  have hr := h.radius_pos
  have hx := h.one_le_x
  have hy := h.one_le_y
  have hleft : (c.x - c.radius - c.x) ^ 2 = c.radius ^ 2 := by ring
  have htop : (c.y - c.radius - c.y) ^ 2 = c.radius ^ 2 := by ring
  unfold Circle.AtOrigin Circle.Contains
  rw [c.corner_fst, c.corner_snd]
  rcases le_total (c.x - c.radius) 1 with hl | hl <;>
    rcases le_total (c.y - c.radius) 1 with ht | ht
  · -- cut at both edges: the corner is pixel (1, 1)
    rw [max_eq_left hl, max_eq_left ht]
    refine ⟨.inl, ?_⟩
    rintro (h1 | h1 | h1)
    · exact h1
    · rw [h1]
      nlinarith
    · rw [h1]
      nlinarith
  · -- cut at the left: the corner is a radius above the centre
    rw [max_eq_left hl, max_eq_right ht, htop, sq_sub_add_sq_le]
    constructor
    · intro hc
      exact .inr (.inl hc.symm)
    · rintro (h1 | h1 | h1)
      · nlinarith
      · exact h1.symm
      · linarith
  · -- cut at the top: the corner is a radius to the left of the centre
    rw [max_eq_right hl, max_eq_left ht, hleft, add_comm, sq_sub_add_sq_le]
    constructor
    · intro hc
      exact .inr (.inr hc.symm)
    · rintro (h1 | h1 | h1)
      · nlinarith
      · linarith
      · exact h1.symm
  · -- not cut: the corner is `√2` radii away from the centre
    rw [max_eq_right hl, max_eq_right ht, hleft, htop]
    constructor
    · intro hc
      nlinarith
    · rintro (h1 | h1 | h1)
      · nlinarith
      · linarith
      · linarith

/-- The pixel that row `d` of the table hands to `metric` is in the circle listed there. -/
def PixelOnCup (fr : Frame κ) (everything : List CupRow) (d : Nat) : Prop :=
  ∃ c row, (listed fr)[d]? = some c ∧ everything[d]? = some row ∧ c.Contains (row.left, row.top)

/-- **When the drop target is on the cup.** For every frame size, every list of circles with centres
in the frame and positive radii, and every circle that state 4 selects: the pixel that it is looked
up at is in the circle exactly when the circle contains pixel (1, 1) or its centre is in the first
column or row. -/
theorem drop_pixel_iff (W H : Nat) (xyzPoints : PointCloud) (inp : Input κ) (Nid nextId : Nat)
    (rows : List SelectedCup) (hframe : ∀ c ∈ inp.frame.circles, c.InFrame W H)
    (hfind : findCups xyzPoints inp Nid = .ok (nextId, rows)) (t : ℚ) (k d : Nat)
    (hsel : Selects rows t k d) :
    ∃ everything c, multiObjectTrackingHCNew inp.frame initializeTracks Nid =
        .ok (nextId, everything) ∧ (listed inp.frame)[d]? = some c ∧
      (PixelOnCup inp.frame everything d ↔ c.AtOrigin) := by
  obtain ⟨c, hc, -⟩ := (selects_iff (tableOf_findCups hfind)).mp hsel
  have hnext : nextId = Nid + inp.frame.circles.length := by
    obtain ⟨XYs, hXYs, -⟩ := findCups_ok hfind
    rw [findCups_eq Nid hXYs] at hfind
    cases hfind
    rfl
  have hin := hframe c ((listed_perm inp.frame).mem_iff.mp (List.mem_of_getElem? hc))
  refine ⟨_, c, hnext ▸ call_everything inp.frame Nid, hc, ?_⟩
  rw [← corner_contains_iff hin]
  constructor
  · rintro ⟨c', row, hc', hrow, hcontains⟩
    obtain ⟨c'', hc'', hcorner⟩ := circleRows_corner hrow
    obtain rfl := Option.some.inj (hc'.symm.trans hc)
    obtain rfl := Option.some.inj (hc''.symm.trans hc)
    rwa [hcorner] at hcontains
  · intro hcontains
    have hlt : d < (circleRows (listed inp.frame)).length := by
      rw [length_circleRows]
      exact (List.getElem?_eq_some_iff.mp hc).1
    have hrow := List.getElem?_eq_getElem hlt
    obtain ⟨c', hc', hcorner⟩ := circleRows_corner hrow
    obtain rfl := Option.some.inj (hc'.symm.trans hc)
    exact ⟨c', _, hc, hrow, by rwa [hcorner]⟩

/-- A cup in the middle of the frame is looked up at a pixel beside it. -/
theorem pixel_beside_cup :
    ∃ nextId rows everything,
      findCups flatCloud ⟨stillFrame [⟨100, 100, 20⟩], fun _ => true⟩ 1 = .ok (nextId, rows) ∧
      Selects rows 1 1 0 ∧
      multiObjectTrackingHCNew (stillFrame [⟨100, 100, 20⟩]) initializeTracks 1 =
        .ok (nextId, everything) ∧
      ¬ PixelOnCup (stillFrame [⟨100, 100, 20⟩]) everything 0 := by
  refine ⟨2, [⟨⟨some (159 / 10), some (63 / 10)⟩, 1, 1⟩], [⟨80, 80, 1, 1⟩], by decide +kernel,
    ⟨_, by decide +kernel, rfl⟩, by decide +kernel, ?_⟩
  have hlisted : listed (stillFrame [⟨100, 100, 20⟩]) = [⟨100, 100, 20⟩] := by decide +kernel
  rintro ⟨c, row, hc, hrow, h⟩
  rw [hlisted] at hc
  cases hc
  cases hrow
  norm_num [Circle.Contains] at h

theorem drop_pixel_still :
    ∃ rows, findCups flatCloud ⟨stillFrame [⟨100, 100, 20⟩], fun _ => true⟩ 1 = .ok (2, rows) ∧
      ∃ everything c,
        (listed (stillFrame [⟨100, 100, 20⟩]))[0]? = some c ∧
        (PixelOnCup (stillFrame [⟨100, 100, 20⟩]) everything 0 ↔ c.AtOrigin) := by
  have hfind : findCups flatCloud ⟨stillFrame [⟨100, 100, 20⟩], fun _ => true⟩ 1 =
      .ok (2, [⟨⟨some (159 / 10), some (63 / 10)⟩, 1, 1⟩]) := by decide +kernel
  have hframe : ∀ c ∈ (stillFrame [⟨100, 100, 20⟩]).circles, c.InFrame 640 480 := by
    intro c hc
    simp only [stillFrame, List.mem_singleton] at hc
    subst hc
    exact ⟨by norm_num, by norm_num, by norm_num, by norm_num, by norm_num⟩
  obtain ⟨everything, c, -, hc, hiff⟩ := drop_pixel_iff 640 480 flatCloud
    ⟨stillFrame [⟨100, 100, 20⟩], fun _ => true⟩ 1 2 _ hframe hfind 1 1 0
    ⟨_, by decide +kernel, rfl⟩
  exact ⟨_, hfind, everything, c, hc, hiff⟩

end DrinkRobot
