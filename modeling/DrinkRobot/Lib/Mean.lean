import Mathlib.Algebra.Order.BigOperators.Group.List
import Mathlib.Algebra.Order.Field.Basic
import Mathlib.Tactic.FieldSimp
import Mathlib.Tactic.Linarith
import Mathlib.Tactic.Ring

/-!
# Means of lists

Over any field, ordered for the bounds.

* `mean_map_add`: a shift of all numbers shifts the mean.
* `mean_perm`: the order does not matter.
* `le_mean`, `mean_le`: the mean stays within bounds that the numbers keep.
-/

namespace Mean

variable {K : Type}

/-- The mean of the numbers, 0 of none. -/
def mean [Field K] (xs : List K) : K := xs.sum / xs.length

theorem sum_map_add [Field K] (xs : List K) (c : K) :
    (xs.map fun x => x + c).sum = xs.sum + xs.length * c := by
  induction xs with
  | nil => simp
  | cons x xs ih =>
    rw [List.map_cons, List.sum_cons, ih, List.sum_cons, List.length_cons]
    push_cast
    ring

/-- The order of the numbers does not matter. -/
theorem mean_perm [Field K] {xs ys : List K} (h : xs.Perm ys) : mean xs = mean ys := by
  unfold mean
  rw [h.sum_eq, h.length_eq]

variable [Field K] [LinearOrder K] [IsStrictOrderedRing K]

theorem length_pos {xs : List K} (h : xs ≠ []) : (0 : K) < xs.length :=
  Nat.cast_pos.mpr (List.length_pos_of_ne_nil h)

/-- A shift of all numbers shifts the mean. -/
theorem mean_map_add {xs : List K} (h : xs ≠ []) (c : K) :
    mean (xs.map fun x => x + c) = mean xs + c := by
  have := (length_pos h).ne'
  unfold mean
  rw [sum_map_add, List.length_map]
  field_simp

theorem le_mean {xs : List K} (h : xs ≠ []) {a : K} (ha : ∀ x ∈ xs, a ≤ x) : a ≤ mean xs := by
  have hsum := List.card_nsmul_le_sum xs a ha
  rw [nsmul_eq_mul] at hsum
  unfold mean
  rw [le_div_iff₀ (length_pos h)]
  linarith

theorem mean_le {xs : List K} (h : xs ≠ []) {b : K} (hb : ∀ x ∈ xs, x ≤ b) : mean xs ≤ b := by
  have hsum := List.sum_le_card_nsmul xs b hb
  rw [nsmul_eq_mul] at hsum
  unfold mean
  rw [div_le_iff₀ (length_pos h)]
  linarith

end Mean
