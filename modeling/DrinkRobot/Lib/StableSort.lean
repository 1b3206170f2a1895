import Mathlib.Data.List.Sort
import Mathlib.Data.List.Nodup

/-!
# What a stable sort keeps

`List.insertionSort` sorts by a total preorder `r`. Elements that compare equal in both directions
stay in the order in which they were.

* `pair_sublist_or`, `not_both_orders`: two different elements of a list without duplicates occur
  in it in exactly one order.
* `pairwise_insertionSort_stable`: a relation that held along the list holds, after the sort, along
  the elements that compare equal.
-/

namespace StableSort

variable {α : Type} {a b : α} {xs : List α}

theorem pair_sublist_or (ha : a ∈ xs) (hb : b ∈ xs) (hne : a ≠ b) :
    [a, b].Sublist xs ∨ [b, a].Sublist xs := by
  induction xs with
  | nil => cases ha
  | cons x xs ih =>
    rcases List.mem_cons.mp ha with rfl | ha' <;> rcases List.mem_cons.mp hb with rfl | hb'
    · exact absurd rfl hne
    · exact .inl ((List.singleton_sublist.mpr hb').cons_cons _)
    · exact .inr ((List.singleton_sublist.mpr ha').cons_cons _)
    · exact (ih ha' hb').imp (·.cons _) (·.cons _)

theorem not_both_orders (hnd : xs.Nodup) (hab : [a, b].Sublist xs) : ¬ [b, a].Sublist xs := by
  induction xs with
  | nil => simp at hab
  | cons x xs ih =>
    rw [List.nodup_cons] at hnd
    intro hba
    rw [List.sublist_cons_iff] at hab hba
    rcases hab with hab | ⟨l, hl, hab⟩ <;> rcases hba with hba | ⟨l', hl', hba⟩
    · exact ih hnd.2 hab hba
    · cases hl'
      exact hnd.1 (hab.subset (by simp))
    · cases hl
      exact hnd.1 (hba.subset (by simp))
    · cases hl
      cases hl'
      exact hnd.1 (hab.subset (by simp))

/-- In a stably sorted list, elements that compare equal are in the order in which they were. -/
theorem pairwise_insertionSort_stable {r R : α → α → Prop} [DecidableRel r] [Std.Total r]
    [IsTrans α r] (hnd : xs.Nodup) (hR : xs.Pairwise R) :
    (xs.insertionSort r).Pairwise fun a b => r a b ∧ (r b a → R a b) := by
  have hsorted := List.pairwise_insertionSort r xs
  have hnd' : (xs.insertionSort r).Nodup := (List.perm_insertionSort r xs).nodup_iff.mpr hnd
  rw [List.pairwise_iff_forall_sublist] at hR hsorted ⊢
  intro a b hab
  refine ⟨hsorted hab, fun hba => ?_⟩
  have hne : a ≠ b := by
    rintro rfl
    exact not_both_orders hnd' hab hab
  have ha : a ∈ xs := (List.mem_insertionSort r).mp (hab.subset (by simp))
  have hb : b ∈ xs := (List.mem_insertionSort r).mp (hab.subset (by simp))
  rcases pair_sublist_or ha hb hne with h | h
  · exact hR h
  · exact absurd (List.pair_sublist_insertionSort hba h) (not_both_orders hnd' hab)

end StableSort
