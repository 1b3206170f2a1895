import Mathlib.Algebra.BigOperators.Group.List.Basic

/-!
# Checksummed lists

A list over a commutative group is valid when it adds up to a fixed `c`. `close c xs` adds the one
item that makes `xs` valid.

* `valid_concat`, `valid_close`: the last item is the checksum of the others.
* `Valid.set_iff`: one changed item is always noticed.
-/

namespace Checksum

variable {G : Type} [AddCommGroup G] {c : G} {xs : List G}

def Valid (c : G) (xs : List G) : Prop := xs.sum = c

instance [DecidableEq G] : Decidable (Valid c xs) := inferInstanceAs (Decidable (xs.sum = c))

def close (c : G) (xs : List G) : List G := xs ++ [c - xs.sum]

theorem valid_concat {x : G} : Valid c (xs ++ [x]) ↔ x = c - xs.sum := by
  rw [Valid, List.sum_append, List.sum_singleton, eq_sub_iff_add_eq']

theorem valid_close (c : G) (xs : List G) : Valid c (close c xs) := valid_concat.mpr rfl

@[simp] theorem length_close (c : G) (xs : List G) : (close c xs).length = xs.length + 1 := by
  simp [close]

/-- A valid list that is not empty is closed by its last item. -/
theorem Valid.eq_close {x : G} (h : Valid c (xs ++ [x])) : xs ++ [x] = close c xs := by
  rw [valid_concat.mp h, close]

/-- A valid list with one item changed is not valid. -/
theorem Valid.set_iff (h : Valid c xs) {i : Nat} (hi : i < xs.length) {x : G} :
    Valid c (xs.set i x) ↔ x = xs[i] := by
  rw [Valid, List.sum_set', dif_pos hi, h, add_eq_left, neg_add_eq_zero, eq_comm]

end Checksum
