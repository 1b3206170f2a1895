import DrinkRobot.Lib.Indexed
import Mathlib.Data.List.Basic

/-!
# Deleting from the array that a loop walks

A loop makes as many rounds as the array has elements at the start. Each round steps the counter
`k`, reads element `k` and, if it is to be dropped, deletes it and steps the counter back. Over any
element type, condition and error.

* `round`, `rounds`, `sweep`: the loop body, the loop, and the array it leaves.
* `round_split`: on what is kept so far followed by what is not yet visited, with the counter at the
  border, one round moves the border by one element or drops that element.
* `rounds_split`, `sweep_eq_filter`: so the loop never reads outside the array and leaves the
  elements that are not dropped.
-/

namespace Sweep

variable {ε α : Type}

/-- The array and the counter between two rounds. -/
structure State (α : Type) where
  rows : List α
  k : Nat

/-- The state in which `kept` is visited and kept, and `rest` is not yet visited. -/
def State.split (kept rest : List α) : State α := ⟨kept ++ rest, kept.length⟩

/-- One round. -/
def round (e : ε) (drop : α → Bool) (st : State α) : Except ε (State α) := do
  let k := st.k + 1
  let row ← OneBased.get e st.rows k
  if drop row then
    pure ⟨st.rows.eraseIdx (k - 1), k - 1⟩
  else
    pure ⟨st.rows, k⟩

/-- `n` rounds. -/
def rounds (e : ε) (drop : α → Bool) : Nat → State α → Except ε (State α)
  | 0, st => pure st
  | n + 1, st => do rounds e drop n (← round e drop st)

/-- The array that the loop leaves of `xs`; the number of rounds is fixed at the start. -/
def sweep (e : ε) (drop : α → Bool) (xs : List α) : Except ε (List α) := do
  let st ← rounds e drop xs.length ⟨xs, 0⟩
  pure st.rows

/-- The read is in bounds, and the border moves over the element or the element goes. -/
theorem round_split (e : ε) (drop : α → Bool) (kept : List α) (x : α) (rest : List α) :
    round e drop (.split kept (x :: rest)) =
      .ok (if drop x then .split kept rest else .split (kept ++ [x]) rest) := by
  have hget : OneBased.get e (kept ++ x :: rest) (kept.length + 1) = .ok x := by
    simp [OneBased.get_eq_ok, OneBased.Valid]
  show (OneBased.get e (kept ++ x :: rest) (kept.length + 1) >>= _) = _
  rw [hget]
  show (if drop x = true then _ else _) = _
  by_cases hx : drop x = true
  · have herase : (kept ++ x :: rest).eraseIdx kept.length = kept ++ rest := by
      rw [List.eraseIdx_append_of_length_le le_rfl, Nat.sub_self, List.eraseIdx_cons_zero]
    rw [if_pos hx, if_pos hx]
    simp only [State.split, Nat.add_sub_cancel, herase]
    rfl
  · rw [if_neg hx, if_neg hx]
    simp only [State.split, List.append_assoc, List.length_append, List.length_singleton,
      List.singleton_append]
    rfl

theorem rounds_split (e : ε) (drop : α → Bool) (kept rest : List α) :
    rounds e drop rest.length (.split kept rest) =
      .ok (.split (kept ++ rest.filter fun x => !drop x) []) := by
  induction rest generalizing kept with
  | nil => simp [rounds, pure, Except.pure]
  | cons x rest ih =>
    show (round e drop (.split kept (x :: rest)) >>= rounds e drop rest.length) = _
    rw [round_split]
    show rounds e drop rest.length (if drop x = true then _ else _) = _
    by_cases hx : drop x = true
    · rw [if_pos hx, ih, List.filter_cons_of_neg (by simp [hx])]
    · rw [if_neg hx, ih, List.filter_cons_of_pos (by simp [hx]), List.append_assoc,
        List.singleton_append]

/-- The loop does not fail and leaves the elements that are not dropped, in their order. -/
theorem sweep_eq_filter (e : ε) (drop : α → Bool) (xs : List α) :
    sweep e drop xs = .ok (xs.filter fun x => !drop x) := by
  show (rounds e drop xs.length (.split [] xs) >>= _) = _
  rw [rounds_split]
  show Except.ok ([] ++ xs.filter (fun x => !drop x) ++ []) = _
  rw [List.nil_append, List.append_nil]

end Sweep
