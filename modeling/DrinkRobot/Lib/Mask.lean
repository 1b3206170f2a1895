import DrinkRobot.Lib.Indexed

/-!
# Logical indices

Rows selected by a list of flags, over any element type and error. A logical index stands for the
indices of its set flags, so the selection fails when a flag is set past the end of the array.

* `select`, `kept`: the checked selection, and the elements whose flag is set.
* `select_eq`: an array of at least as many elements as flags gives the elements kept.
* `length_kept`, `kept_zip`: with one flag for each element, one flagged element is kept for each
  set flag, and two arrays selected by the same flags stay paired.
-/

namespace Mask

variable {ε α β : Type}

/-- The elements of `xs` at the indices of the set flags. -/
def select (e : ε) (xs : List α) (flags : List Bool) : Except ε (List α) :=
  OneBased.gather e xs (flags.findIdxs id 1)

/-- The elements of `xs` whose flag is set. -/
def kept (xs : List α) (flags : List Bool) : List α :=
  (xs.zip flags).filterMap fun p => if p.2 then some p.1 else none

theorem kept_cons (x : α) (xs : List α) (flag : Bool) (flags : List Bool) :
    kept (x :: xs) (flag :: flags) = if flag then x :: kept xs flags else kept xs flags := by
  unfold kept
  cases flag <;> rfl

/-- The selection from an array whose first elements have no flag. -/
theorem gather_findIdxs (e : ε) (before : List α) {xs : List α} {flags : List Bool}
    (h : flags.length ≤ xs.length) :
    OneBased.gather e (before ++ xs) (flags.findIdxs id (before.length + 1)) =
      .ok (kept xs flags) := by
  induction flags generalizing before xs with
  | nil => simp [kept, OneBased.gather, pure, Except.pure]
  | cons flag flags ih =>
    cases xs with
    | nil => simp at h
    | cons x xs =>
      have hrest := ih (before ++ [x]) (Nat.le_of_succ_le_succ h)
      rw [List.append_assoc, List.length_append] at hrest
      rw [List.findIdxs_cons, kept_cons]
      cases flag with
      | false => exact hrest
      | true =>
        have hget : OneBased.get e (before ++ x :: xs) (before.length + 1) = .ok x := by
          simp [OneBased.get_eq_ok, OneBased.Valid]
        exact OneBased.gather_cons hget hrest

/-- With no more flags than elements, the selection does not fail. -/
theorem select_eq (e : ε) {xs : List α} {flags : List Bool} (h : flags.length ≤ xs.length) :
    select e xs flags = .ok (kept xs flags) :=
  gather_findIdxs e [] h

theorem length_kept {xs : List α} {flags : List Bool} (h : xs.length = flags.length) :
    (kept xs flags).length = flags.count true := by
  induction flags generalizing xs with
  | nil => simp [kept]
  | cons flag flags ih =>
    cases xs with
    | nil => simp at h
    | cons x xs =>
      have := ih (Nat.succ.inj h)
      rw [kept_cons]
      cases flag with
      | false => simpa using this
      | true => simpa using this

/-- Two arrays selected by the same flags stay paired. -/
theorem kept_zip {xs : List α} {ys : List β} {flags : List Bool} (hx : xs.length = flags.length)
    (hy : ys.length = flags.length) :
    kept (xs.zip ys) flags = (kept xs flags).zip (kept ys flags) := by
  induction flags generalizing xs ys with
  | nil => simp [kept]
  | cons flag flags ih =>
    cases xs with
    | nil => simp at hx
    | cons x xs =>
      cases ys with
      | nil => simp at hy
      | cons y ys =>
        have := ih (Nat.succ.inj hx) (Nat.succ.inj hy)
        rw [List.zip_cons_cons, kept_cons, kept_cons, kept_cons, this]
        cases flag <;> rfl

end Mask
