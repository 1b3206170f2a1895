import DrinkRobot.Lib.Run
import Mathlib.Algebra.BigOperators.Group.List.Basic
import Mathlib.Data.Vector.Basic

/-!
# Arrays of fixed size with checked accesses

The arrays are `List.Vector`s. An access outside of one is the error `e`.

* `peek`, `poke`, `fill`: a read, a write, and a write of several items in a row.
* `moveDown`, `sumFrom`: the loops that shift a part of an array to its start, and that add up a
  part of it.
* `Only`: the one error that a computation can end with.
* `Holds`: the first items of an array are those of a list. Every operation has one lemma about an
  array that holds the items it touches.
-/

namespace Buffer

variable {ε α : Type} {n : Nat}

/-- The item `i`. -/
def peek (e : ε) (b : List.Vector α n) (i : Nat) : Except ε α :=
  match b.toList[i]? with
  | some a => .ok a
  | none => .error e

/-- The array with `a` at `i`. -/
def poke (e : ε) (b : List.Vector α n) (i : Nat) (a : α) : Except ε (List.Vector α n) :=
  if i < n then
    .ok ⟨b.toList.set i a, by rw [List.length_set, b.toList_length]⟩
  else
    .error e

/-- The array with the items of a list from `i` on. -/
def fill (e : ε) : List.Vector α n → Nat → List α → Except ε (List.Vector α n)
  | b, _, [] => .ok b
  | b, i, a :: as => do
    let b ← poke e b i a
    fill e b (i + 1) as

/-- `for (; k > 0; j++, k--) b[j] = b[j + i];` -/
def moveDown (e : ε) (i : Nat) : Nat → Nat → List.Vector α n → Except ε (List.Vector α n)
  | 0, _, b => .ok b
  | k + 1, j, b => do
    let a ← peek e b (j + i)
    let b ← poke e b j a
    moveDown e i k (j + 1) b

/-- `for (; k > 0; i++, k--) acc += b[i];` -/
def sumFrom [Add α] (e : ε) (b : List.Vector α n) : Nat → Nat → α → Except ε α
  | 0, _, acc => .ok acc
  | k + 1, i, acc => do
    let a ← peek e b i
    sumFrom e b k (i + 1) (acc + a)

/-- `e` is the only error of `x`. -/
def Only (e : ε) (x : Except ε α) : Prop := ∀ e', x = .error e' → e' = e

section Only

variable {β : Type} {e : ε}

theorem Only.ok (a : α) : Only e (.ok a : Except ε α) := by
  intro e' h
  cases h

theorem Only.error : Only e (.error e : Except ε α) := by
  intro e' h
  cases h
  rfl

theorem Only.bind {x : Except ε α} {f : α → Except ε β} (hx : Only e x) (hf : ∀ a, Only e (f a)) :
    Only e (x >>= f) := by
  intro e' h
  rcases Run.bind_error.mp h with h | ⟨a, -, h⟩
  · exact hx e' h
  · exact hf a e' h

theorem peek_only (b : List.Vector α n) (i : Nat) : Only e (peek e b i) := by
  unfold peek
  split
  · exact .ok _
  · exact .error

theorem poke_only (b : List.Vector α n) (i : Nat) (a : α) : Only e (poke e b i a) := by
  unfold poke
  split
  · exact .ok _
  · exact .error

theorem fill_only (b : List.Vector α n) (i : Nat) (xs : List α) : Only e (fill e b i xs) := by
  induction xs generalizing b i with
  | nil => exact .ok b
  | cons a as ih => exact (poke_only b i a).bind fun b => ih b (i + 1)

theorem moveDown_only (i k j : Nat) (b : List.Vector α n) : Only e (moveDown e i k j b) := by
  induction k generalizing j b with
  | zero => exact .ok b
  | succ k ih => exact (peek_only b _).bind fun a => (poke_only b j a).bind fun b => ih (j + 1) b

theorem sumFrom_only [Add α] (b : List.Vector α n) (k i : Nat) (acc : α) :
    Only e (sumFrom e b k i acc) := by
  induction k generalizing i acc with
  | zero => exact .ok acc
  | succ k ih => exact (peek_only b i).bind fun a => ih (i + 1) (acc + a)

end Only

/-- The first items of `b` are `xs`. -/
def Holds (b : List.Vector α n) (xs : List α) : Prop := xs <+: b.toList

section Holds

variable {e : ε} {b : List.Vector α n} {xs : List α}

theorem holds_nil (b : List.Vector α n) : Holds b [] := List.nil_prefix

theorem holds_toList (b : List.Vector α n) : Holds b b.toList := List.prefix_rfl

theorem Holds.length_le (h : Holds b xs) : xs.length ≤ n := by
  have hle := List.IsPrefix.length_le h
  rwa [b.toList_length] at hle

theorem Holds.take (h : Holds b xs) (k : Nat) : Holds b (xs.take k) :=
  (List.take_prefix k xs).trans h

theorem Holds.eq_take (h : Holds b xs) : xs = b.toList.take xs.length :=
  List.prefix_iff_eq_take.mp h

theorem peek_error_iff {i : Nat} : peek e b i = .error e ↔ n ≤ i := by
  unfold peek
  rcases h : b.toList[i]? with _ | a
  · rw [List.getElem?_eq_none_iff, b.toList_length] at h
    simp [h]
  · obtain ⟨hi, -⟩ := List.getElem?_eq_some_iff.mp h
    rw [b.toList_length] at hi
    simp [hi]

theorem peek_of_getElem? {i : Nat} {a : α} (h : b.toList[i]? = some a) : peek e b i = .ok a := by
  rw [peek, h]

theorem Holds.getElem? (h : Holds b xs) {i : Nat} (hi : i < xs.length) :
    b.toList[i]? = some xs[i] :=
  List.prefix_iff_getElem?.mp h i hi

theorem Holds.peek (h : Holds b xs) {i : Nat} (hi : i < xs.length) :
    peek e b i = .ok xs[i] :=
  peek_of_getElem? (h.getElem? hi)

theorem poke_of_lt {i : Nat} (a : α) (hi : i < n) :
    poke e b i a = .ok ⟨b.toList.set i a, by rw [List.length_set, b.toList_length]⟩ :=
  if_pos hi

theorem poke_of_le {i : Nat} (a : α) (hi : n ≤ i) : poke e b i a = .error e :=
  if_neg (by omega)

theorem poke_ok {i : Nat} (e : ε) (b : List.Vector α n) (a : α) (hi : i < n) :
    ∃ b', poke e b i a = .ok b' ∧ b'.toList = b.toList.set i a :=
  ⟨_, poke_of_lt a hi, rfl⟩

/-- A write past the items held adds one. -/
theorem Holds.poke (h : Holds b xs) (a : α) (hn : xs.length < n) :
    ∃ b', poke e b xs.length a = .ok b' ∧ Holds b' (xs ++ [a]) := by
  obtain ⟨b', hb', hlist⟩ := poke_ok e b a hn
  refine ⟨b', hb', ?_⟩
  obtain ⟨ys, hys⟩ := h
  have hlen : xs.length + ys.length = n := by
    rw [← List.length_append, hys, b.toList_length]
  obtain ⟨y, ys, rfl⟩ : ∃ y ys', ys = y :: ys' := List.exists_cons_of_length_pos (by omega)
  refine ⟨ys, ?_⟩
  rw [hlist, ← hys, List.set_append_right _ _ le_rfl, Nat.sub_self, List.set_cons_zero,
    List.append_assoc]
  rfl

/-- A write of items past those held adds them. -/
theorem Holds.fill (h : Holds b xs) (ys : List α) (hn : xs.length + ys.length ≤ n) :
    ∃ b', fill e b xs.length ys = .ok b' ∧ Holds b' (xs ++ ys) := by
  induction ys generalizing b xs with
  | nil => exact ⟨b, rfl, by rwa [List.append_nil]⟩
  | cons y ys ih =>
    rw [List.length_cons] at hn
    obtain ⟨b₁, hb₁, hh₁⟩ := h.poke (e := e) y (by omega)
    obtain ⟨b₂, hb₂, hh₂⟩ := ih hh₁ (by rw [List.length_append, List.length_singleton]; omega)
    rw [List.length_append, List.length_singleton] at hb₂
    refine ⟨b₂, ?_, by simpa using hh₂⟩
    rw [Buffer.fill, hb₁]
    exact hb₂

/-- A write that ends past the array is an error. -/
theorem fill_error {i : Nat} {ys : List α} (hi : i ≤ n) (hn : n < i + ys.length) :
    fill e b i ys = .error e := by
  induction ys generalizing b i with
  | nil => rw [List.length_nil] at hn; omega
  | cons y ys ih =>
    rw [List.length_cons] at hn
    rw [fill]
    by_cases hlt : i < n
    · rw [poke_of_lt y hlt]
      exact ih (by omega) (by omega)
    · rw [poke_of_le y (by omega)]
      rfl

/-- The loop has moved `j` items when `b` still holds `xs` with its first `j` items replaced. -/
theorem moveDown_loop {i : Nat} {k j : Nat} (hk : j + k + i = xs.length)
    (h : Holds b ((xs.drop i).take j ++ xs.drop j)) :
    ∃ b', moveDown e i k j b = .ok b' ∧ Holds b' (xs.drop i) := by
  induction k generalizing b j with
  | zero =>
    refine ⟨b, rfl, ?_⟩
    have hj : (xs.drop i).take j = xs.drop i := List.take_of_length_le (by rw [List.length_drop]; omega)
    rw [hj] at h
    exact (List.prefix_append _ _).trans h
  | succ k ih =>
    have hlen : ((xs.drop i).take j).length = j := by
      rw [List.length_take, List.length_drop]; omega
    have hget : ((xs.drop i).take j ++ xs.drop j)[j + i]? = xs[j + i]? := by
      rw [List.getElem?_append_right (by omega), List.getElem?_drop, hlen]
      congr 1
      omega
    have hji : j + i < xs.length := by omega
    have hread : b.toList[j + i]? = some xs[j + i] := by
      rw [List.getElem?_eq_getElem hji] at hget
      obtain ⟨hlt, hval⟩ := List.getElem?_eq_some_iff.mp hget
      rw [h.getElem? hlt, hval]
    have hjn : j < n := by
      obtain ⟨hlt, -⟩ := List.getElem?_eq_some_iff.mp hread
      rw [b.toList_length] at hlt
      omega
    rw [moveDown, Run.bind_of_ok (peek_of_getElem? hread), Run.bind_of_ok (poke_of_lt _ hjn)]
    apply ih (by omega)
    -- item `j` is now the one that was `i` further on
    obtain ⟨rest, hrest⟩ := h
    refine ⟨rest, ?_⟩
    change _ = b.toList.set j xs[j + i]
    have hj : j < xs.length := by omega
    rw [← hrest, List.drop_eq_getElem_cons hj, List.append_assoc, List.append_assoc,
      List.set_append_right _ _ (by omega), hlen, Nat.sub_self, List.cons_append,
      List.set_cons_zero, List.take_add_one, List.append_assoc, List.getElem?_drop,
      Nat.add_comm i j, List.getElem?_eq_getElem hji]
    rfl

/-- Shifting the items held by `i` drops the first `i` of them. -/
theorem Holds.moveDown (h : Holds b xs) {i : Nat} (hi : i ≤ xs.length) :
    ∃ b', moveDown e i (xs.length - i) 0 b = .ok b' ∧ Holds b' (xs.drop i) := by
  apply moveDown_loop (by omega)
  rwa [List.take_zero, List.drop_zero, List.nil_append]

/-- Shifting reads up to the last item moved. -/
theorem moveDown_error {i k j : Nat} (hj : j + i ≤ n) (hk : n < j + k + i) :
    moveDown e i k j b = .error e := by
  induction k generalizing b j with
  | zero => omega
  | succ k ih =>
    rw [moveDown]
    by_cases hlt : j + i < n
    · obtain ⟨a, ha⟩ : ∃ a, b.toList[j + i]? = some a :=
        ⟨_, List.getElem?_eq_getElem (by rwa [b.toList_length])⟩
      rw [Run.bind_of_ok (peek_of_getElem? ha), Run.bind_of_ok (poke_of_lt _ (by omega))]
      exact ih (by omega) (by omega)
    · rw [peek_error_iff.mpr (by omega)]
      rfl

theorem Holds.sumFrom [AddMonoid α] (h : Holds b xs) {i k : Nat} (hik : i + k ≤ xs.length)
    (acc : α) : sumFrom e b k i acc = .ok (acc + ((xs.drop i).take k).sum) := by
  induction k generalizing i acc with
  | zero => rw [Buffer.sumFrom, List.take_zero, List.sum_nil, add_zero]
  | succ k ih =>
    have hi : i < xs.length := by omega
    rw [Buffer.sumFrom, Run.bind_of_ok (h.peek hi), ih (by omega), List.drop_eq_getElem_cons hi,
      List.take_succ_cons, List.sum_cons, add_assoc]

theorem sumFrom_error [Add α] {i k : Nat} {acc : α} (hi : i ≤ n) (hk : n < i + k) :
    sumFrom e b k i acc = .error e := by
  induction k generalizing i acc with
  | zero => omega
  | succ k ih =>
    rw [sumFrom]
    by_cases hlt : i < n
    · obtain ⟨a, ha⟩ : ∃ a, b.toList[i]? = some a :=
        ⟨_, List.getElem?_eq_getElem (by rwa [b.toList_length])⟩
      rw [Run.bind_of_ok (peek_of_getElem? ha)]
      exact ih (by omega) (by omega)
    · rw [peek_error_iff.mpr (by omega)]
      rfl

end Holds

end Buffer
