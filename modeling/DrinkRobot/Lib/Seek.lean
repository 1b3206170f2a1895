import Mathlib.Data.List.Basic

/-!
# The first place of a stream where a pattern begins

`seek p s` drops items of the stream `s` until `p` holds of what is left.

* `seek_drop`: items where `p` does not begin can be dropped before or after.
* `seek_eq_drop`: it drops a number of items, none of them a place where `p` begins.
-/

namespace Seek

variable {α : Type} {p : List α → Bool} {s : List α}

/-- The stream from the first place on where `p` holds; empty when there is none. -/
def seek (p : List α → Bool) : List α → List α
  | [] => []
  | a :: s => if p (a :: s) then a :: s else seek p s

theorem seek_of_here (h : p s = true) : seek p s = s := by
  cases s with
  | nil => rfl
  | cons a s => exact if_pos h

theorem seek_drop {i : Nat} (h : ∀ m < i, p (s.drop m) = false) : seek p (s.drop i) = seek p s := by
  induction i generalizing s with
  | zero => rfl
  | succ i ih =>
    cases s with
    | nil => rfl
    | cons a s =>
      have ha : p (a :: s) = false := h 0 (by omega)
      rw [List.drop_succ_cons, seek, if_neg (by simp [ha])]
      exact ih fun m hm => h (m + 1) (by omega)

theorem seek_eq_drop (p : List α → Bool) (s : List α) :
    ∃ i, seek p s = s.drop i ∧ ∀ m < i, p (s.drop m) = false := by
  induction s with
  | nil => exact ⟨0, rfl, by simp⟩
  | cons a s ih =>
    by_cases ha : p (a :: s) = true
    · exact ⟨0, seek_of_here ha, by simp⟩
    · obtain ⟨i, hi, hfree⟩ := ih
      refine ⟨i + 1, by rw [seek, if_neg ha, hi, List.drop_succ_cons], fun m hm => ?_⟩
      cases m with
      | zero => simpa using ha
      | succ m => exact hfree m (by omega)

/-- The pattern begins where the search stops. -/
theorem seek_here (p : List α → Bool) (s : List α) : seek p s = [] ∨ p (seek p s) = true := by
  induction s with
  | nil => exact .inl rfl
  | cons a s ih =>
    by_cases ha : p (a :: s) = true
    · exact .inr (by rwa [seek_of_here ha])
    · rwa [seek, if_neg ha]

theorem seek_suffix (p : List α → Bool) (s : List α) : seek p s <:+ s := by
  obtain ⟨i, hi, -⟩ := seek_eq_drop p s
  rw [hi]
  exact List.drop_suffix i s

end Seek
