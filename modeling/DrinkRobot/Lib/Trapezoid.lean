import Mathlib.Algebra.Order.Field.Basic
import Mathlib.Order.Interval.Set.Basic
import Mathlib.Order.Monotone.Union
import Mathlib.Tactic.FieldSimp
import Mathlib.Tactic.Linarith
import Mathlib.Tactic.Ring

/-!
# Trapezoidal velocity profiles

Over any ordered field. From time 0 to `tf`, the speed rises evenly to 1 until `tb`, stays there, and
falls evenly to 0 from `tf - tb` on.

* `travelled tb tf t`: the way up to `t`, and `speed tb tf t`.
* `travelled_of_le`, `travelled_of_mid`, `travelled_of_ge`: the three pieces, with their ends.
* `travelled_mono`, `sub_travelled_mono`: the way grows, and no faster than the time.
* `travelled_reflect`: the second half is the first one backwards.
-/

namespace Trapezoid

open Set

variable {K : Type} [Field K] [LinearOrder K] [IsStrictOrderedRing K]

def travelled (tb tf t : K) : K :=
  if t ≤ tb then
    t ^ 2 / (tb + tb)
  else if t ≤ tf - tb then
    tb ^ 2 / (tb + tb) + (t - tb)
  else
    tf - tb - (tf - t) ^ 2 / (tb + tb)

def speed (tb tf t : K) : K :=
  if t ≤ tb then
    t / tb
  else if t ≤ tf - tb then
    1
  else
    (tf - t) / tb

/-! ## The pieces -/

variable {tb tf t : K}

omit [IsStrictOrderedRing K] in
theorem travelled_of_le (h : t ≤ tb) : travelled tb tf t = t ^ 2 / (2 * tb) := by
  rw [travelled, if_pos h, two_mul]

theorem travelled_of_mid (hb : 0 < tb) (h1 : tb ≤ t) (h2 : t ≤ tf - tb) :
    travelled tb tf t = t - tb / 2 := by
  rcases h1.eq_or_lt with rfl | h1
  · rw [travelled_of_le le_rfl]
    field_simp
    ring
  · rw [travelled, if_neg (not_le.mpr h1), if_pos h2]
    field_simp
    ring

theorem travelled_of_ge (hb : 0 < tb) (hf : 2 * tb ≤ tf) (h : tf - tb ≤ t) :
    travelled tb tf t = tf - tb - (tf - t) ^ 2 / (2 * tb) := by
  rcases h.eq_or_lt with rfl | h
  · rw [travelled_of_mid hb (by linarith) le_rfl]
    field_simp
    ring
  · rw [travelled, if_neg (by linarith), if_neg (not_le.mpr h), two_mul]

omit [IsStrictOrderedRing K] in
theorem travelled_zero (hb : 0 < tb) : travelled tb tf 0 = 0 := by
  rw [travelled_of_le hb.le]
  simp

theorem travelled_end (hb : 0 < tb) (hf : 2 * tb ≤ tf) : travelled tb tf tf = tf - tb := by
  rw [travelled_of_ge hb hf (by linarith)]
  simp

omit [IsStrictOrderedRing K] in
theorem speed_zero (hb : 0 < tb) : speed tb tf 0 = 0 := by
  rw [speed, if_pos hb.le, zero_div]

theorem speed_end (hb : 0 < tb) (hf : 2 * tb ≤ tf) : speed tb tf tf = 0 := by
  rw [speed, if_neg (by linarith), if_neg (by linarith), sub_self, zero_div]

theorem speed_nonneg (hb : 0 < tb) (h0 : 0 ≤ t) (h1 : t ≤ tf) : 0 ≤ speed tb tf t := by
  unfold speed
  split
  · exact div_nonneg h0 hb.le
  split
  · exact zero_le_one
  · exact div_nonneg (by linarith) hb.le

theorem speed_le_one (hb : 0 < tb) (t : K) : speed tb tf t ≤ 1 := by
  unfold speed
  split
  · rename_i h
    exact (div_le_one hb).mpr h
  split
  · exact le_rfl
  · rename_i h
    exact (div_le_one hb).mpr (by linarith)

/-! ## Both ways -/

/-- A piece is travelled in its direction, and no faster than at speed 1. -/
def Gentle (f : K → K) (a b : K) : Prop :=
  MonotoneOn f (Icc a b) ∧ MonotoneOn (fun t => t - f t) (Icc a b)

theorem gentle_of {f : K → K} {a b : K}
    (h : ∀ x y, a ≤ x → x ≤ y → y ≤ b → 0 ≤ f y - f x ∧ f y - f x ≤ y - x) : Gentle f a b := by
  constructor
  · intro x hx y hy hxy
    have := (h x y hx.1 hxy hy.2).1
    linarith
  · intro x hx y hy hxy
    have := (h x y hx.1 hxy hy.2).2
    simp only
    linarith

omit [Field K] [IsStrictOrderedRing K] in
theorem monotoneOn_Icc {f : K → K} {a b c : K} (hab : a ≤ b) (hbc : b ≤ c)
    (h : MonotoneOn f (Icc a b)) (h' : MonotoneOn f (Icc b c)) : MonotoneOn f (Icc a c) := by
  rw [← Icc_union_Icc_eq_Icc hab hbc]
  exact h.union_right h' (isGreatest_Icc hab) (isLeast_Icc hbc)

omit [IsStrictOrderedRing K] in
theorem Gentle.glue {f : K → K} {a b c : K} (hab : a ≤ b) (hbc : b ≤ c) (h : Gentle f a b)
    (h' : Gentle f b c) : Gentle f a c :=
  ⟨monotoneOn_Icc hab hbc h.1 h'.1, monotoneOn_Icc hab hbc h.2 h'.2⟩

theorem travelled_gentle (hb : 0 < tb) (hf : 2 * tb ≤ tf) : Gentle (travelled tb tf) 0 tf := by
  have hquot : ∀ {x s : K}, 0 ≤ x → 0 ≤ s → s ≤ 2 * tb →
      0 ≤ x * s / (2 * tb) ∧ x * s / (2 * tb) ≤ x := by
    intro x s hx hs hs'
    have hpos : 0 < 2 * tb := by linarith
    refine ⟨div_nonneg (mul_nonneg hx hs) hpos.le, ?_⟩
    rw [div_le_iff₀ hpos]
    exact mul_le_mul_of_nonneg_left hs' hx
  have hrise : Gentle (travelled tb tf) 0 tb := by
    apply gentle_of
    intro x y hx hxy hy
    have hdiff : travelled tb tf y - travelled tb tf x = (y - x) * (y + x) / (2 * tb) := by
      rw [travelled_of_le hy, travelled_of_le (hxy.trans hy)]
      ring
    rw [hdiff]
    exact hquot (by linarith) (by linarith) (by linarith)
  have hcruise : Gentle (travelled tb tf) tb (tf - tb) := by
    apply gentle_of
    intro x y hx hxy hy
    rw [travelled_of_mid hb (hx.trans hxy) hy, travelled_of_mid hb hx (hxy.trans hy)]
    constructor <;> linarith
  have hfall : Gentle (travelled tb tf) (tf - tb) tf := by
    apply gentle_of
    intro x y hx hxy hy
    have hdiff : travelled tb tf y - travelled tb tf x =
        (y - x) * ((tf - x) + (tf - y)) / (2 * tb) := by
      rw [travelled_of_ge hb hf (hx.trans hxy), travelled_of_ge hb hf hx]
      ring
    rw [hdiff]
    exact hquot (by linarith) (by linarith) (by linarith)
  exact (hrise.glue hb.le (by linarith) hcruise).glue (by linarith) (by linarith) hfall

/-- The way grows. -/
theorem travelled_mono (hb : 0 < tb) (hf : 2 * tb ≤ tf) : MonotoneOn (travelled tb tf) (Icc 0 tf) :=
  (travelled_gentle hb hf).1

/-- It grows no faster than the time. -/
theorem sub_travelled_mono (hb : 0 < tb) (hf : 2 * tb ≤ tf) :
    MonotoneOn (fun t => t - travelled tb tf t) (Icc 0 tf) := (travelled_gentle hb hf).2

/-- The second half is the first one backwards. -/
theorem travelled_reflect (hb : 0 < tb) (hf : 2 * tb ≤ tf) (t : K) :
    travelled tb tf (tf - t) = tf - tb - travelled tb tf t := by
  rcases le_total t tb with h1 | h1
  · rw [travelled_of_ge hb hf (by linarith), travelled_of_le h1, sub_sub_cancel]
  rcases le_total t (tf - tb) with h2 | h2
  · rw [travelled_of_mid hb (by linarith) (by linarith), travelled_of_mid hb h1 h2]
    ring
  · rw [travelled_of_le (by linarith), travelled_of_ge hb hf h2]
    ring

end Trapezoid
