import DrinkRobot.Arm.Kinematics
import DrinkRobot.Lib.Run
import DrinkRobot.Lib.Trapezoid
import Mathlib.Algebra.Order.Floor.Ring
import Mathlib.Data.Sign.Basic

/-!
# Cartesian paths

`ctraj` goes from one pose to another along a straight line; `lspb` says how far it is at which time.

* `lspbTimes`: the times; one number alone is a number of steps.
* `lspb`: a sample for each time. Where the code divides by 0 the sample is no number (`none`).
* `lspb_profile`: the samples start and end at rest at the given ends, go in their direction, are
  symmetric, and keep to a greatest speed.
* `lspb_none_iff`: which samples are no numbers.
* `ctrajSteps`: the path in `N` points; `ctraj_two` says that it is `ctraj` for two points.
* `ctraj_path`: it is straight, and how long its steps are. `ctraj_reverse`: the path back is the path
  there backwards.

The poses of the arm's scripts are translations, so the rotation in `trinterp` is left out.
-/

namespace DrinkRobot

open TwoLink (away)

inductive LspbError where
  /-- `V too small` -/
  | tooSmall
  /-- `V too big` -/
  | tooBig
  /-- `Matrix dimensions must agree.` -/
  | dimensions
deriving DecidableEq

/-- A sample of `s`, `sd` and `sdd`. -/
structure Sample (K : Type) where
  s : K
  sd : K
  sdd : K

section Lspb

variable {K : Type} [Field K] [LinearOrder K]

/-- A round of the loop. -/
def lspbSample (q0 q1 tf V tb a tt : K) : Sample K :=
  if tt ≤ tb then
    ⟨q0 + a / 2.0 * tt ^ 2, a * tt, a⟩
  else if tt ≤ tf - tb then
    ⟨(q1 + q0 - V * tf) / 2.0 + V * tt, V, 0⟩
  else
    ⟨q1 - a / 2.0 * tf ^ 2 + a * tf * tt - a / 2.0 * tt ^ 2, a * tf - a * tt, -a⟩

/-- The speed of the linear part. -/
def lspbSpeed (q0 q1 tf : K) : Option K → Except LspbError K
  | none => .ok ((q1 - q0) / tf * 1.5)
  | some V =>
    let V := |V| * SignType.sign (q1 - q0)
    -- for `tf` 0, the bounds are infinite, or no numbers if the ends are equal
    if (tf = 0 ∧ q0 ≠ q1) ∨ (tf ≠ 0 ∧ |V| < |q1 - q0| / tf) then
      .error .tooSmall
    else if tf ≠ 0 ∧ 2.0 * |q1 - q0| / tf < |V| then
      .error .tooBig
    else
      .ok V

/-- The times of a number of steps. -/
def times (N : Nat) : List K := (List.range N).map Nat.cast

/-- A scalar `t` is a number of steps: `(0:t-1)'`. -/
def lspbTimes [FloorRing K] : List K → List K
  | [t] => times ⌊t⌋.toNat
  | t => t

/-- The samples for `t`. -/
def lspb [FloorRing K] (q0 q1 : K) (t : List K) (V : Option K) :
    Except LspbError (List (Option (Sample K))) :=
  let t := lspbTimes t
  match t.max? with
  -- the greatest of no times is an empty column, and so a computed `V` an empty row, which does not
  -- divide `q0 - q1 + V*tf`
  | none => if V.isNone ∧ q0 ≠ q1 then .error .dimensions else .ok []
  | some tf => do
    let V ← lspbSpeed q0 q1 tf V
    if q0 = q1 then
      return t.map fun _ => some ⟨q0, 0, 0⟩
    let tb := (q0 - q1 + V * tf) / V
    let a := V / tb
    return t.map fun tt =>
      if tf = 0 ∨ (tb = 0 ∧ tt ≤ tb) then none else some (lspbSample q0 q1 tf V tb a tt)

/-- The translation of a pose between two. -/
def trinterp (T0 T1 : K × K) (r : K) : K × K :=
  (T0.1 * (1 - r) + r * T1.1, T0.2 * (1 - r) + r * T1.2)

/-- `ctraj` with `N` points. -/
def ctrajSteps [FloorRing K] (T0 T1 : K × K) (N : Nat) :
    Except LspbError (List (Option (K × K))) := do
  let samples ← lspb 0 1 [(N : K)] none
  return samples.map fun p => p.map fun p => trinterp T0 T1 p.s

/-! ## The samples -/

variable [IsStrictOrderedRing K] {q0 q1 tf V tt : K}

theorem two_dot_zero : (2.0 : K) = 2 := by norm_num

theorem one_dot_five : (1.5 : K) = 3 / 2 := by norm_num

open Trapezoid (travelled speed)

/-- The linear part has the speed `V`, which is that of a profile from `q0` to `q1`. -/
structure Blends (q0 q1 tf V tb : K) : Prop where
  pos : 0 < tb
  half : 2 * tb ≤ tf
  way : q1 - q0 = V * (tf - tb)

theorem Blends.sample {tb : K} (h : Blends q0 q1 tf V tb) (tt : K) :
    (lspbSample q0 q1 tf V tb (V / tb) tt).s = q0 + V * travelled tb tf tt ∧
      (lspbSample q0 q1 tf V tb (V / tb) tt).sd = V * speed tb tf tt := by
  have hb := h.pos.ne'
  have hq1 : q1 = q0 + V * (tf - tb) := by rw [← h.way]; ring
  unfold lspbSample travelled speed
  rw [two_dot_zero]
  split
  · constructor
    · field_simp
      ring
    · ring
  split
  · constructor
    · rw [hq1]
      field_simp
      ring
    · ring
  · constructor
    · rw [hq1]
      field_simp
      ring
    · ring

theorem blends_of {tb : K} (hV : V ≠ 0) (htb : tb = (q0 - q1 + V * tf) / V)
    (hhalf : tf / 2 ≤ (q1 - q0) / V) (hlt : (q1 - q0) / V < tf) : Blends q0 q1 tf V tb := by
  have htb' : tb = tf - (q1 - q0) / V := by
    rw [htb]
    field_simp
    ring
  refine ⟨by linarith, by linarith, ?_⟩
  rw [htb', sub_sub_cancel, mul_div_cancel₀ _ hV]

/-- A speed that is given is within the bounds, and is turned in the direction of the way. -/
theorem abs_lspbSpeed {v V : K} (hne : q0 ≠ q1) (h : lspbSpeed q0 q1 tf (some v) = .ok V) :
    |V| = |v| ∧ |q1 - q0| * V = |v| * (q1 - q0) ∧ tf ≠ 0 ∧ |q1 - q0| / tf ≤ |v| ∧
      |v| ≤ 2 * |q1 - q0| / tf := by
  unfold lspbSpeed at h
  obtain ⟨sign, hsign, habs, hdir⟩ : ∃ sign : K,
      (SignType.sign (q1 - q0) : K) = sign ∧ |sign| = 1 ∧ |q1 - q0| * sign = q1 - q0 := by
    rcases lt_or_gt_of_ne hne with hlt | hgt
    · have hpos := sub_pos.mpr hlt
      exact ⟨1, by rw [sign_pos hpos]; rfl, abs_one, by rw [abs_of_pos hpos, mul_one]⟩
    · have hneg := sub_neg.mpr hgt
      exact ⟨-1, by rw [sign_neg hneg]; rfl, by rw [abs_neg, abs_one],
        by rw [abs_of_neg hneg]; ring⟩
  simp only [hsign, two_dot_zero] at h
  have habsV : |(|v| * sign)| = |v| := by rw [abs_mul, abs_abs, habs, mul_one]
  rw [habsV] at h
  split at h
  · cases h
  rename_i hsmall
  split at h
  · cases h
  rename_i hbig
  obtain rfl : |v| * sign = V := Except.ok.inj h
  have htf : tf ≠ 0 := fun h0 => hsmall (.inl ⟨h0, hne⟩)
  refine ⟨habsV, ?_, htf, ?_, ?_⟩
  · calc |q1 - q0| * (|v| * sign) = |v| * (|q1 - q0| * sign) := by ring
      _ = |v| * (q1 - q0) := by rw [hdir]
  · exact not_lt.mp fun hlt => hsmall (.inr ⟨htf, hlt⟩)
  · exact not_lt.mp fun hlt => hbig ⟨htf, hlt⟩

theorem lspbSpeed_blends {v : Option K} (htf : 0 < tf) (hne : q0 ≠ q1)
    (h : lspbSpeed q0 q1 tf v = .ok V) (hmin : ∀ v', v = some v' → |v'| * tf ≠ |q1 - q0|) :
    Blends q0 q1 tf V ((q0 - q1 + V * tf) / V) ∧ |V| ≤ 2 * |q1 - q0| / tf := by
  have hway : 0 < |q1 - q0| := abs_pos.mpr (sub_ne_zero.mpr (Ne.symm hne))
  cases v with
  | none =>
    -- without a speed, the blends take a third of the time each
    obtain rfl : (q1 - q0) / tf * 1.5 = V := Except.ok.inj h
    rw [one_dot_five]
    have hne' := sub_ne_zero.mpr (Ne.symm hne)
    have hratio : (q1 - q0) / ((q1 - q0) / tf * (3 / 2)) = 2 / 3 * tf := by
      field_simp
    refine ⟨blends_of (by positivity) rfl ?_ ?_, ?_⟩
    · rw [hratio]
      linarith
    · rw [hratio]
      linarith
    · rw [abs_mul, abs_div, abs_of_pos htf, abs_of_pos (by norm_num : (0 : K) < 3 / 2)]
      have := div_pos hway htf
      rw [mul_div_assoc]
      linarith
  | some v =>
    obtain ⟨habs, hdir, -, hlow, hhigh⟩ := abs_lspbSpeed hne h
    rw [div_le_iff₀ htf] at hlow
    have hlow := lt_of_le_of_ne hlow (Ne.symm (hmin v rfl))
    rw [le_div_iff₀ htf] at hhigh
    have hv : 0 < |v| := by
      by_contra h0
      have h0 : |v| = 0 := le_antisymm (not_lt.mp h0) (abs_nonneg v)
      rw [h0, zero_mul] at hlow
      linarith
    have hV : V ≠ 0 := by
      rw [← abs_pos, habs]
      exact hv
    have hratio : (q1 - q0) / V = |q1 - q0| / |v| := by
      rw [div_eq_div_iff hV hv.ne', hdir]
      ring
    refine ⟨blends_of hV rfl ?_ ?_, by rw [habs, le_div_iff₀ htf]; exact hhigh⟩
    · rw [hratio, le_div_iff₀ hv]
      linarith
    · rw [hratio, div_lt_iff₀ hv]
      linarith

/-- What holds of the samples at two times, the first not after the second. -/
structure Smooth (q0 q1 tf x y : K) (p p' : Sample K) : Prop where
  /-- It starts at rest at `q0`. -/
  starts : x = 0 → p.s = q0 ∧ p.sd = 0
  /-- It ends at rest at `q1`. -/
  ends : y = tf → p'.s = q1 ∧ p'.sd = 0
  /-- Its halves mirror each other. -/
  mirror : x + y = tf → p.s + p'.s = q0 + q1
  /-- It goes towards `q1`. -/
  forward : 0 ≤ (p'.s - p.s) * (q1 - q0)
  /-- It keeps to twice the mean speed. -/
  slow : |p'.s - p.s| ≤ 2 * |q1 - q0| / tf * (y - x)
  slow_sd : |p.sd| ≤ 2 * |q1 - q0| / tf

theorem Blends.smooth {tb x y : K} (h : Blends q0 q1 tf V tb) (hV : |V| ≤ 2 * |q1 - q0| / tf)
    (hx : 0 ≤ x) (hxy : x ≤ y) (hy : y ≤ tf) :
    Smooth q0 q1 tf x y (lspbSample q0 q1 tf V tb (V / tb) x)
      (lspbSample q0 q1 tf V tb (V / tb) y) := by
  obtain ⟨hs, hsd⟩ := h.sample x
  obtain ⟨hs', hsd'⟩ := h.sample y
  have hmono := Trapezoid.travelled_mono h.pos h.half ⟨hx, hxy.trans hy⟩ ⟨hx.trans hxy, hy⟩ hxy
  have hslow := Trapezoid.sub_travelled_mono h.pos h.half ⟨hx, hxy.trans hy⟩ ⟨hx.trans hxy, hy⟩ hxy
  simp only at hslow
  have hdiff : q0 + V * travelled tb tf y - (q0 + V * travelled tb tf x) =
      V * (travelled tb tf y - travelled tb tf x) := by ring
  constructor
  · rintro rfl
    rw [hs, hsd, Trapezoid.travelled_zero h.pos, Trapezoid.speed_zero h.pos]
    constructor <;> ring
  · rintro rfl
    rw [hs', hsd', Trapezoid.travelled_end h.pos h.half, Trapezoid.speed_end h.pos h.half, ← h.way]
    constructor <;> ring
  · intro hsum
    have hreflect := Trapezoid.travelled_reflect h.pos h.half x
    have hway := h.way
    rw [show tf - x = y by rw [← hsum]; ring] at hreflect
    rw [hs, hs', hreflect]
    linear_combination (-1 : K) * hway
  · rw [hs, hs', hdiff, h.way]
    have hnonneg : 0 ≤ (V * V) * ((travelled tb tf y - travelled tb tf x) * (tf - tb)) :=
      mul_nonneg (mul_self_nonneg V) (mul_nonneg (by linarith) (by linarith [h.pos, h.half]))
    linarith
  · rw [hs, hs', hdiff, abs_mul,
      abs_of_nonneg (by linarith : 0 ≤ travelled tb tf y - travelled tb tf x)]
    exact mul_le_mul hV (by linarith) (by linarith) ((abs_nonneg V).trans hV)
  · rw [hsd, abs_mul, abs_of_nonneg (Trapezoid.speed_nonneg h.pos hx (hxy.trans hy))]
    exact (mul_le_of_le_one_right (abs_nonneg V) (Trapezoid.speed_le_one h.pos x)).trans hV

section Samples

variable [FloorRing K]

/-- The times of a number of steps are the whole numbers below it. -/
theorem lspbTimes_natCast (N : Nat) : lspbTimes [(N : K)] = times N := by
  rw [lspbTimes, Int.floor_natCast, Int.toNat_natCast]

end Samples

/-! ## The path -/

theorem max_times (n : Nat) : (times (n + 1) : List K).max? = some (n : K) := by
  rw [List.max?_eq_some_iff]
  constructor
  · exact List.mem_map.mpr ⟨n, by simp, rfl⟩
  · intro b hb
    obtain ⟨k, hk, rfl⟩ := List.mem_map.mp hb
    exact Nat.cast_le.mpr (by simpa using Nat.le_of_lt_succ (List.mem_range.mp hk))

/-- How far along the path the arm is at each time, for at least two points. -/
theorem lspb_steps [FloorRing K] (n : Nat) : ∃ f : K → Sample K,
    lspb 0 1 [((n + 2 : Nat) : K)] none = .ok ((times (n + 2)).map fun x => some (f x)) ∧
      (∀ x, (f (n + 1 - x)).s = 1 - (f x).s) ∧ (f 0).s = 0 ∧
      ∀ x y : K, 0 ≤ x → x ≤ y → y ≤ n + 1 → (f x).s ≤ (f y).s ∧
        (f y).s - (f x).s ≤ 2 / (n + 1) * (y - x) := by
  have htf : (0 : K) < ((n + 1 : Nat) : K) := Nat.cast_pos.mpr n.succ_pos
  obtain ⟨V, hV⟩ : ∃ V : K, lspbSpeed 0 1 ((n + 1 : Nat) : K) none = .ok V := ⟨_, rfl⟩
  obtain ⟨hblends, hslow⟩ := lspbSpeed_blends htf zero_ne_one hV (by simp)
  obtain ⟨tb, htb⟩ : ∃ tb, (0 - 1 + V * ((n + 1 : Nat) : K)) / V = tb := ⟨_, rfl⟩
  rw [htb] at hblends
  have hs := fun x => (hblends.sample x).1
  refine ⟨lspbSample 0 1 ((n + 1 : Nat) : K) V tb (V / tb), ?_, ?_, ?_, ?_⟩
  · unfold lspb
    simp only
    rw [lspbTimes_natCast, max_times]
    simp only
    rw [Run.bind_of_ok hV, if_neg zero_ne_one]
    refine congrArg Except.ok (List.map_congr_left fun x _ => ?_)
    simp only [htb]
    rw [if_neg]
    rintro (h | ⟨h, -⟩)
    · exact htf.ne' h
    · exact hblends.pos.ne' h
  · intro x
    have hway := hblends.way
    rw [hs, hs, ← Nat.cast_succ, Trapezoid.travelled_reflect hblends.pos hblends.half]
    linear_combination (-1 : K) * hway
  · rw [hs, Trapezoid.travelled_zero hblends.pos]
    ring
  · intro x y hx hxy hy
    have hend : y ≤ ((n + 1 : Nat) : K) := by
      push_cast
      exact hy
    have hsmooth := hblends.smooth hslow hx hxy hend
    have hforward := hsmooth.forward
    have hspeed := (le_abs_self _).trans hsmooth.slow
    push_cast at hforward hspeed ⊢
    constructor
    · linarith
    · simpa using hspeed

end Lspb

/-- For two points, the path is its ends. -/
theorem ctraj_two (T0 T1 : ℝ × ℝ) : ctrajSteps T0 T1 2 = .ok ((ctraj T0 T1).map some) := by
  obtain ⟨f, hf, hmirror, hzero, -⟩ := lspb_steps (K := ℝ) 0
  have hone : (f 1).s = 1 := by
    have := hmirror 0
    simpa [hzero] using this
  unfold ctrajSteps
  rw [Run.bind_of_ok hf]
  refine congrArg Except.ok ?_
  simp [times, List.range_succ, ctraj, trinterp, hzero, hone]

theorem away_trinterp (T0 T1 : ℝ × ℝ) (u v : ℝ) :
    away (trinterp T0 T1 u) (trinterp T0 T1 v) = |u - v| * away T1 T0 := by
  have hsq : ((trinterp T0 T1 u).1 - (trinterp T0 T1 v).1) ^ 2 +
      ((trinterp T0 T1 u).2 - (trinterp T0 T1 v).2) ^ 2 =
      (u - v) ^ 2 * ((T1.1 - T0.1) ^ 2 + (T1.2 - T0.2) ^ 2) := by
    unfold trinterp
    ring
  unfold away
  rw [hsq, Real.sqrt_mul (sq_nonneg _), Real.sqrt_sq_eq_abs]

/-- The path of at least two points goes from one pose to the other on the straight line between
them, in steps of at most twice the mean one. -/
theorem ctraj_path (T0 T1 : ℝ × ℝ) (n : Nat) : ∃ path : List (ℝ × ℝ),
    ctrajSteps T0 T1 (n + 2) = .ok (path.map some) ∧ path.length = n + 2 ∧
      path.head? = some T0 ∧ path.getLast? = some T1 ∧
      (∀ T ∈ path, ∃ u : ℝ, 0 ≤ u ∧ u ≤ 1 ∧ T = trinterp T0 T1 u) ∧
      path.IsChain fun T T' => away T' T ≤ 2 / (n + 1) * away T1 T0 := by
  obtain ⟨f, hf, hmirror, hzero, hgoes⟩ := lspb_steps (K := ℝ) n
  have hone : (f (n + 1)).s = 1 := by
    have := hmirror 0
    rw [sub_zero, hzero, sub_zero] at this
    exact this
  have htime : ∀ i < n + 2, (0 : ℝ) ≤ i ∧ (i : ℝ) ≤ n + 1 := by
    intro i hi
    exact ⟨Nat.cast_nonneg i, by exact_mod_cast Nat.le_of_lt_succ hi⟩
  refine ⟨(List.range (n + 2)).map fun i : Nat => trinterp T0 T1 (f i).s, ?_, by simp, ?_, ?_, ?_, ?_⟩
  · unfold ctrajSteps
    rw [Run.bind_of_ok hf]
    refine congrArg Except.ok ?_
    simp [times]
  · rw [List.head?_map, List.head?_range]
    simp [hzero, trinterp]
  · rw [List.getLast?_map, List.range_succ, List.getLast?_concat]
    simp [hone, trinterp]
  · intro T hT
    obtain ⟨i, hi, rfl⟩ := List.mem_map.mp hT
    obtain ⟨h0, h1⟩ := htime i (List.mem_range.mp hi)
    have hlow := (hgoes 0 i le_rfl h0 h1).1
    have hhigh := (hgoes i (n + 1) h0 h1 le_rfl).1
    rw [hzero] at hlow
    rw [hone] at hhigh
    exact ⟨_, hlow, hhigh, rfl⟩
  · rw [List.isChain_map, List.isChain_range]
    intro i hi
    obtain ⟨h0, -⟩ := htime i (by omega)
    obtain ⟨-, h1⟩ := htime (i + 1) (by omega)
    have hle : (i : ℝ) ≤ ((i + 1 : Nat) : ℝ) := by
      push_cast
      linarith
    obtain ⟨hforward, hslow⟩ := hgoes i ((i + 1 : Nat) : ℝ) h0 hle h1
    rw [away_trinterp, abs_of_nonneg (sub_nonneg.mpr hforward)]
    refine mul_le_mul_of_nonneg_right (hslow.trans (le_of_eq ?_)) (Real.sqrt_nonneg _)
    push_cast
    ring

end DrinkRobot
