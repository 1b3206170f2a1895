import Mathlib.Data.List.Basic
import Mathlib.Data.List.Perm.Basic
import Mathlib.Data.List.Nodup
import Mathlib.Data.List.Count

/-!
# Numbering the elements of a list within their classes

A list whose elements have a class `cls x` is walked once with one counter per class, so that
each element gets its number among the elements of its class: the first of a class is 1.

* `number`: the numbered list. `IsKth c k xs d`: position `d` holds the `k`-th element of class
  `c`; there is at most one such position, and one exactly when `1 ≤ k ≤` the class's size.
* `find?_iff`: searching a table of the elements for class and number finds that position.
* `rows_perm_iff`: two numbered lists have the same rows, in any order, exactly when they list
  the same elements of each class in the same order.
-/

namespace Rank

variable {α β κ : Type} [DecidableEq κ] (cls : α → κ)

/-- The counters after one more element of class `c`. -/
def bump (count : κ → Nat) (c : κ) : κ → Nat := fun c' => if c' = c then count c' + 1 else count c'

@[simp] theorem bump_self (count : κ → Nat) (c : κ) : bump count c c = count c + 1 := by
  simp [bump]

theorem bump_ne (count : κ → Nat) {c c' : κ} (h : c' ≠ c) : bump count c c' = count c' := by
  simp [bump, h]

/-- The elements with their numbers, from the counters `count`. -/
def numberFrom (count : κ → Nat) : List α → List (α × Nat)
  | [] => []
  | x :: xs => (x, count (cls x) + 1) :: numberFrom (bump count (cls x)) xs

/-- The elements with their numbers within their classes. -/
def number (xs : List α) : List (α × Nat) := numberFrom cls (fun _ => 0) xs

/-- The elements of class `c`, in order. -/
def ofClass (c : κ) (xs : List α) : List α := xs.filter fun x => cls x = c

/-- Position `d` of `xs` holds the `k`-th element of class `c`. -/
def IsKth (c : κ) (k : Nat) (xs : List α) (d : Nat) : Prop :=
  ∃ x, xs[d]? = some x ∧ cls x = c ∧ (ofClass cls c (xs.take d)).length + 1 = k

variable {cls}

@[simp] theorem length_numberFrom (count : κ → Nat) (xs : List α) :
    (numberFrom cls count xs).length = xs.length := by
  induction xs generalizing count with
  | nil => rfl
  | cons x xs ih => simp [numberFrom, ih]

theorem numberFrom_map (f : β → α) (count : κ → Nat) (xs : List β) :
    numberFrom cls count (xs.map f) =
      (numberFrom (fun x => cls (f x)) count xs).map fun p => (f p.1, p.2) := by
  induction xs generalizing count with
  | nil => rfl
  | cons x xs ih => simp [numberFrom, ih]

/-- The number at position `d` is one more than the elements of its class before `d`. -/
theorem getElem?_numberFrom (count : κ → Nat) (xs : List α) (d : Nat) :
    (numberFrom cls count xs)[d]? =
      xs[d]?.map fun x => (x, count (cls x) + (ofClass cls (cls x) (xs.take d)).length + 1) := by
  induction xs generalizing count d with
  | nil => simp [numberFrom]
  | cons x xs ih =>
    cases d with
    | zero => simp [numberFrom, ofClass]
    | succ d =>
      simp only [numberFrom, List.getElem?_cons_succ, ih, List.take_succ_cons]
      refine Option.map_congr fun y _ => ?_
      by_cases h : cls x = cls y
      · simp [ofClass, h]; omega
      · simp [ofClass, h, bump_ne count (Ne.symm h)]

theorem getElem?_number (xs : List α) (d : Nat) :
    (number cls xs)[d]? =
      xs[d]?.map fun x => (x, (ofClass cls (cls x) (xs.take d)).length + 1) := by
  simp [number, getElem?_numberFrom]

/-- Renaming the classes does not change them. -/
theorem ofClass_comp {γ : Type} [DecidableEq γ] {f : κ → γ} (hf : Function.Injective f) (c : κ)
    (xs : List α) : ofClass (fun x => f (cls x)) (f c) xs = ofClass cls c xs := by
  simp [ofClass, hf.eq_iff]

/-! ## The `k`-th element of a class -/

theorem isKth_comp {γ : Type} [DecidableEq γ] {f : κ → γ} (hf : Function.Injective f) {c : κ}
    {k d : Nat} {xs : List α} :
    IsKth (fun x => f (cls x)) (f c) k xs d ↔ IsKth cls c k xs d := by
  simp only [IsKth, ofClass_comp hf, hf.eq_iff]

theorem IsKth.lt {c : κ} {k d : Nat} {xs : List α} (h : IsKth cls c k xs d) : d < xs.length := by
  obtain ⟨x, hx, -, -⟩ := h
  exact (List.getElem?_eq_some_iff.mp hx).1

/-- Up to and including a later position of the same class there is at least one element more. -/
theorem length_ofClass_take_lt {c : κ} {d d' : Nat} {xs : List α} {x : α} (hd : d < d')
    (hx : xs[d]? = some x) (hc : cls x = c) :
    (ofClass cls c (xs.take d)).length < (ofClass cls c (xs.take d')).length := by
  have hpre : xs.take (d + 1) <+: xs.take d' := List.take_prefix_take_left (by omega)
  have hle : (ofClass cls c (xs.take (d + 1))).length ≤ (ofClass cls c (xs.take d')).length :=
    (hpre.sublist.filter _).length_le
  rw [List.take_add_one, hx] at hle
  simp [ofClass, List.filter_append, hc] at hle ⊢
  omega

theorem IsKth.unique {c : κ} {k d d' : Nat} {xs : List α} (h : IsKth cls c k xs d)
    (h' : IsKth cls c k xs d') : d = d' := by
  obtain ⟨x, hx, hc, hk⟩ := h
  obtain ⟨x', hx', hc', hk'⟩ := h'
  rcases Nat.lt_trichotomy d d' with hlt | heq | hgt
  · have := length_ofClass_take_lt hlt hx hc; omega
  · exact heq
  · have := length_ofClass_take_lt hgt hx' hc'; omega

/-- The same position is the `k`-th of its class for one class and one `k` only. -/
theorem IsKth.inj {c c' : κ} {k k' d : Nat} {xs : List α} (h : IsKth cls c k xs d)
    (h' : IsKth cls c' k' xs d) : c = c' ∧ k = k' := by
  obtain ⟨x, hx, rfl, rfl⟩ := h
  obtain ⟨x', hx', hc', hk'⟩ := h'
  rw [hx] at hx'
  cases hx'
  subst hc'
  exact ⟨rfl, hk'⟩

/-- The `k`-th element of a class is element `k` of the list of that class. -/
theorem IsKth.getElem? {c : κ} {k d : Nat} {xs : List α} (h : IsKth cls c k xs d) :
    (ofClass cls c xs)[k - 1]? = xs[d]? := by
  obtain ⟨x, hx, hc, rfl⟩ := h
  have hsplit : xs = xs.take d ++ x :: xs.drop (d + 1) := by
    obtain ⟨hlt, hxd⟩ := List.getElem?_eq_some_iff.mp hx
    rw [← hxd, ← List.drop_eq_getElem_cons hlt, List.take_append_drop]
  have hcls : ofClass cls c xs =
      ofClass cls c (xs.take d) ++ x :: ofClass cls c (xs.drop (d + 1)) := by
    conv => lhs; rw [hsplit]
    simp [ofClass, List.filter_append, hc]
  rw [hcls, hx, Nat.add_sub_cancel, List.getElem?_append_right (Nat.le_refl _), Nat.sub_self]
  rfl

/-- The class has a `k`-th element exactly when it has `k` elements. -/
theorem exists_isKth {c : κ} {k : Nat} {xs : List α} (hk : 1 ≤ k) :
    (∃ d, IsKth cls c k xs d) ↔ k ≤ (ofClass cls c xs).length := by
  constructor
  · rintro ⟨d, h⟩
    have := h.getElem?
    rw [List.getElem?_eq_getElem h.lt] at this
    have := (List.getElem?_eq_some_iff.mp this).1
    omega
  · -- an element of the class in front is the first one, or one less is to be found behind it
    induction xs generalizing k with
    | nil => intro h; simp [ofClass] at h; omega
    | cons x xs ih =>
      intro h
      by_cases hc : cls x = c
      · rcases Nat.eq_or_lt_of_le hk with rfl | hk1
        · exact ⟨0, x, by simp, hc, by simp [ofClass]⟩
        · obtain ⟨d, y, hy, hyc, hyk⟩ := ih (k := k - 1) (by omega)
            (by simp [ofClass, hc] at h ⊢; omega)
          refine ⟨d + 1, y, by simpa using hy, hyc, ?_⟩
          simp [ofClass, hc] at hyk ⊢
          omega
      · obtain ⟨d, y, hy, hyc, hyk⟩ := ih hk (by simpa [ofClass, hc] using h)
        exact ⟨d + 1, y, by simpa using hy, hyc, by simpa [ofClass, hc] using hyk⟩

variable (cls) in
/-- A search in a table whose rows are aligned with `xs` and pass the test `p` at the `k`-th
element of class `c` only: it finds the row of that element. -/
theorem find?_iff (c : κ) (k : Nat) (xs : List α) {d : Nat} {ys : List β} {p : β → Bool}
    (hp : ∀ j y, ys[j]? = some y → (p y = true ↔ IsKth cls c k xs j)) :
    (∃ y, ys.find? p = some y ∧ ys[d]? = some y) ↔ d < ys.length ∧ IsKth cls c k xs d := by
  constructor
  · rintro ⟨y, hy, hd⟩
    exact ⟨(List.getElem?_eq_some_iff.mp hd).1, (hp d y hd).mp (List.find?_some hy)⟩
  · rintro ⟨hlt, hk⟩
    refine ⟨ys[d], List.find?_eq_some_iff_getElem.mpr ⟨?_, d, hlt, rfl, fun j hj => ?_⟩,
      List.getElem?_eq_getElem hlt⟩
    · exact (hp d _ (List.getElem?_eq_getElem hlt)).mpr hk
    · -- an earlier row that passes would be the same element
      cases hpj : p ys[j] with
      | false => rfl
      | true =>
        have hj' := (hp j _ (List.getElem?_eq_getElem (by omega))).mp hpj
        exact absurd (hj'.unique hk) (by omega)

/-! ## Rows -/

variable (cls) in
/-- One row per element: what `f` shows of it, its class and its number. -/
def rows (f : α → β) (xs : List α) : List (β × κ × Nat) :=
  (number cls xs).map fun p => (f p.1, cls p.1, p.2)

private theorem mem_rowsFrom {f : α → β} {b : β} {c : κ} {n : Nat} (count : κ → Nat)
    (xs : List α) :
    (b, c, n) ∈ (numberFrom cls count xs).map (fun p => (f p.1, cls p.1, p.2)) ↔
      ∃ j, n = count c + j + 1 ∧ ((ofClass cls c xs).map f)[j]? = some b := by
  induction xs generalizing count with
  | nil => simp [numberFrom, ofClass]
  | cons x xs ih =>
    simp only [numberFrom, List.map_cons, List.mem_cons, ih, Prod.mk.injEq]
    by_cases hc : cls x = c
    · subst hc
      simp only [ofClass, List.filter_cons, decide_true, if_true, List.map_cons, bump_self,
        true_and]
      constructor
      · rintro (⟨rfl, rfl⟩ | ⟨j, rfl, hj⟩)
        · exact ⟨0, by simp, by simp⟩
        · exact ⟨j + 1, by omega, by simpa using hj⟩
      · rintro ⟨j, rfl, hj⟩
        cases j with
        | zero => exact .inl ⟨by simpa using hj.symm, by omega⟩
        | succ j => exact .inr ⟨j, by omega, by simpa using hj⟩
    · have hf : ofClass cls c (x :: xs) = ofClass cls c xs := by simp [ofClass, hc]
      simp only [hf, bump_ne count (Ne.symm hc), Ne.symm hc, false_and, and_false, false_or]

/-- A row of class `c` with number `k` is the `k`-th element of `c`. -/
theorem mem_rows {f : α → β} {b : β} {c : κ} {n : Nat} {xs : List α} :
    (b, c, n) ∈ rows cls f xs ↔ ∃ j, n = j + 1 ∧ ((ofClass cls c xs).map f)[j]? = some b := by
  unfold rows number
  rw [mem_rowsFrom]
  simp only [Nat.zero_add]

private theorem nodup_rowsFrom {f : α → β} (count : κ → Nat) (xs : List α) :
    ((numberFrom cls count xs).map (fun p => (f p.1, cls p.1, p.2))).Nodup := by
  induction xs generalizing count with
  | nil => simp [numberFrom]
  | cons x xs ih =>
    simp only [numberFrom, List.map_cons, List.nodup_cons]
    refine ⟨fun hmem => ?_, ih _⟩
    obtain ⟨j, hj, -⟩ := (mem_rowsFrom _ _).mp hmem
    rw [bump_self] at hj
    omega

theorem nodup_rows (f : α → β) (xs : List α) : (rows cls f xs).Nodup :=
  nodup_rowsFrom _ _

@[simp] theorem length_rows (f : α → β) (xs : List α) : (rows cls f xs).length = xs.length := by
  simp [rows, number]

/-- Two lists have the same rows exactly when they show the same of each class, in order. -/
theorem rows_perm_iff {f : α → β} {xs ys : List α} :
    (rows cls f xs).Perm (rows cls f ys) ↔
      ∀ c, (ofClass cls c xs).map f = (ofClass cls c ys).map f := by
  rw [List.perm_ext_iff_of_nodup (nodup_rows f xs) (nodup_rows f ys)]
  constructor
  · intro h c
    refine List.ext_getElem? fun j => Option.ext fun b => ?_
    have := h (b, c, j + 1)
    rw [mem_rows, mem_rows] at this
    simpa using this
  · rintro h ⟨b, c, n⟩
    rw [mem_rows, mem_rows, h c]

end Rank
