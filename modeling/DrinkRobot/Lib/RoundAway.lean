import Mathlib.Algebra.Order.Floor.Ring
import Mathlib.Tactic.Linarith
import Mathlib.Tactic.NormNum

/-!
# Rounding to the nearest integer, halves away from zero

Over any ordered field with a floor.

* `lt_round_iff`: `round x` is above `m` exactly when `x` is past the half `m + 1/2`; a half is
  passed when it is reached from zero. The other facts follow from this one.
* `round_intCast`, `le_round`, `round_le`: integers are kept, and integer bounds are kept.
* `round_eq_round_iff`: two numbers round to one integer exactly when no half separates them.
-/

namespace RoundAway

/-! ## Halves -/

section Halves

variable {K : Type} [Field K] [LinearOrder K]

/-- `x` is past the half `m + 1/2`. -/
def Past (m : ℤ) (x : K) : Prop := if 0 ≤ m then (m : K) + 1 / 2 ≤ x else (m : K) + 1 / 2 < x

theorem past_of_lt {m : ℤ} {x : K} (h : (m : K) + 1 / 2 < x) : Past m x := by
  unfold Past
  split
  · exact h.le
  · exact h

theorem Past.le {m : ℤ} {x : K} (h : Past m x) : (m : K) + 1 / 2 ≤ x := by
  unfold Past at h
  split at h
  · exact h
  · exact h.le

/-- What is past a half stays past it. -/
theorem Past.mono {m : ℤ} {x y : K} (h : Past m x) (hxy : x ≤ y) : Past m y := by
  unfold Past at h ⊢
  by_cases hm : 0 ≤ m
  · rw [if_pos hm] at h ⊢
    exact h.trans hxy
  · rw [if_neg hm] at h ⊢
    exact h.trans_le hxy

end Halves

/-! ## Rounding -/

section Round

variable {K : Type} [Field K] [LinearOrder K] [IsStrictOrderedRing K] [FloorRing K]

/-- The nearest integer, halves away from zero. -/
def round (x : K) : ℤ := if 0 ≤ x then ⌊x + 1 / 2⌋ else -⌊-x + 1 / 2⌋

theorem lt_round_iff {m : ℤ} {x : K} : m < round x ↔ Past m x := by
  unfold round Past
  by_cases hx : 0 ≤ x
  · have hfloor : m < ⌊x + 1 / 2⌋ ↔ (m : K) + 1 / 2 ≤ x := by
      rw [← Int.add_one_le_iff, Int.le_floor, Int.cast_add, Int.cast_one]
      constructor <;> intro h <;> linarith
    rw [if_pos hx, hfloor]
    by_cases hm : 0 ≤ m
    · rw [if_pos hm]
    · rw [if_neg hm]
      have : (m : K) ≤ -1 := by exact_mod_cast (show m ≤ -1 by omega)
      constructor <;> intro h <;> linarith
  · have hfloor : m < -⌊-x + 1 / 2⌋ ↔ (m : K) + 1 / 2 < x := by
      rw [lt_neg, Int.floor_lt, Int.cast_neg]
      constructor <;> intro h <;> linarith
    rw [if_neg hx, hfloor]
    by_cases hm : 0 ≤ m
    · rw [if_pos hm]
      have : (0 : K) ≤ m := by exact_mod_cast hm
      constructor <;> intro h <;> linarith
    · rw [if_neg hm]

theorem le_round {m : ℤ} {x : K} (h : (m : K) ≤ x) : m ≤ round x := by
  have hpast : Past (m - 1) x := past_of_lt (by push_cast; linarith)
  have := lt_round_iff.mpr hpast
  omega

theorem round_le {m : ℤ} {x : K} (h : x ≤ m) : round x ≤ m := by
  by_contra hlt
  have := (lt_round_iff.mp (not_le.mp hlt)).le
  linarith

@[simp] theorem round_intCast (z : ℤ) : round (z : K) = z :=
  le_antisymm (round_le le_rfl) (le_round le_rfl)

/-- Two numbers round to one integer exactly when they are past the same halves. -/
theorem round_eq_round_iff {x y : K} (hxy : x ≤ y) :
    round x = round y ↔ ∀ m : ℤ, Past m y → Past m x := by
  constructor
  · intro h m hm
    rw [← lt_round_iff, h]
    exact lt_round_iff.mpr hm
  · intro h
    refine le_antisymm ?_ ?_
    · by_contra hlt
      exact absurd (lt_round_iff.mpr ((lt_round_iff.mp (not_le.mp hlt)).mono hxy)) (lt_irrefl _)
    · by_contra hlt
      exact absurd (lt_round_iff.mpr (h _ (lt_round_iff.mp (not_le.mp hlt)))) (lt_irrefl _)

/-- Numbers that are 1 apart do not round to one integer. -/
theorem round_ne_of_add_one_le {x y : K} (h : x + 1 ≤ y) : round x ≠ round y := by
  intro he
  have h1 : ¬ Past (round x) x := fun hp => lt_irrefl _ (lt_round_iff.mpr hp)
  have h2 : Past (round x - 1) x := lt_round_iff.mp (by omega)
  have h3 := h2.le
  refine h1 ((round_eq_round_iff (by linarith)).mp he _ ?_)
  unfold Past at h2 ⊢
  push_cast at h2 h3
  split
  · linarith
  · rw [if_neg (by omega)] at h2
    linarith

end Round

end RoundAway
