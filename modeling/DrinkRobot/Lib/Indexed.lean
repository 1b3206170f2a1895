import Mathlib.Data.List.Basic
import Mathlib.Data.List.Perm.Basic
import Mathlib.Data.List.Nodup
import Mathlib.Data.List.Range

/-!
# One-based arrays with checked indices

Arrays whose first element has index 1 and whose reads fail outside `1..length`, over any element
type and any error.

* `get`: the checked read; `gather`: the elements at a list of indices; `modify`: read, change and
  write back one element. `nth`: the read with a default, which the others equal at valid indices.
* `foldlM_modify`: a loop that modifies each element at most once, at valid indices, does not
  fail, and changes every element by its own entry of the loop's list.
* `Matching n m`: a partial matching of `1..n` with `1..m` together with its exact complements,
  the two permutation laws being part of the value. `rightOf`, `leftOf` read it as partial maps.
-/

namespace OneBased

variable {ε α β : Type}

/-! ## Checked reads -/

/-- Element `i` of `xs`, or the error `e` when `i` is not in `1..xs.length`. -/
def get (e : ε) (xs : List α) (i : Nat) : Except ε α :=
  match i with
  | 0 => .error e
  | j + 1 =>
    match xs[j]? with
    | some x => .ok x
    | none => .error e

/-- The elements of `xs` at the indices `is`, in the order of `is`. -/
def gather (e : ε) (xs : List α) (is : List Nat) : Except ε (List α) := is.mapM (get e xs)

/-- Element `i` is read, changed by `f` and written back. -/
def modify (e : ε) (xs : List α) (i : Nat) (f : α → Except ε α) : Except ε (List α) := do
  let x ← get e xs i
  let y ← f x
  pure (xs.set (i - 1) y)

/-- The indices of an array of length `n`. -/
def Valid (n i : Nat) : Prop := 1 ≤ i ∧ i ≤ n

theorem valid_of_perm {n i : Nat} {is : List Nat} (hp : is.Perm (List.range' 1 n)) (hi : i ∈ is) :
    Valid n i := by
  have := List.mem_range'_1.mp (hp.mem_iff.mp hi)
  exact ⟨this.1, by omega⟩

theorem get_eq_ok {e : ε} {xs : List α} {i : Nat} {x : α} :
    get e xs i = .ok x ↔ Valid xs.length i ∧ xs[i - 1]? = some x := by
  cases i with
  | zero => simp [get, Valid]
  | succ j =>
    simp only [get, Nat.add_sub_cancel]
    cases h : xs[j]? with
    | none => simp
    | some y =>
      have hlt := (List.getElem?_eq_some_iff.mp h).1
      simp only [Except.ok.injEq, Option.some.injEq]
      exact ⟨fun he => ⟨⟨by omega, by omega⟩, he⟩, fun he => he.2⟩

/-- Element `i` of `xs`, or `dflt` when `i` is not a valid index. -/
def nth (dflt : α) (xs : List α) (i : Nat) : α := xs.getD (i - 1) dflt

theorem nth_map (f : α → β) (dflt : α) (xs : List α) (i : Nat) :
    nth (f dflt) (xs.map f) i = f (nth dflt xs i) := by
  simp [nth, List.getD_eq_getElem?_getD, List.getElem?_map]

theorem getElem?_of_valid (dflt : α) {xs : List α} {i : Nat} (h : Valid xs.length i) :
    xs[i - 1]? = some (nth dflt xs i) := by
  have hlt : i - 1 < xs.length := by have := h.1; have := h.2; omega
  simp [nth, List.getD_eq_getElem?_getD, List.getElem?_eq_getElem hlt]

theorem get_of_valid (e : ε) (dflt : α) {xs : List α} {i : Nat} (h : Valid xs.length i) :
    get e xs i = .ok (nth dflt xs i) :=
  get_eq_ok.mpr ⟨h, getElem?_of_valid dflt h⟩

theorem gather_cons {e : ε} {xs ys : List α} {i : Nat} {is : List Nat} {x : α}
    (hx : get e xs i = .ok x) (hys : gather e xs is = .ok ys) :
    gather e xs (i :: is) = .ok (x :: ys) := by
  unfold gather at hys ⊢
  rw [List.mapM_cons, hx, hys]
  rfl

theorem gather_ok (e : ε) (dflt : α) {xs : List α} {is : List Nat}
    (h : ∀ i ∈ is, Valid xs.length i) : gather e xs is = .ok (is.map (nth dflt xs)) := by
  induction is with
  | nil => rfl
  | cons i is ih =>
    exact gather_cons (get_of_valid e dflt (h i (by simp))) (ih fun j hj => h j (by simp [hj]))

theorem map_nth_range' (dflt : α) (xs : List α) :
    (List.range' 1 xs.length).map (nth dflt xs) = xs := by
  refine List.ext_getElem (by simp) fun j h1 h2 => ?_
  have : 1 + j - 1 = j := by omega
  simp [nth, this, List.getElem?_eq_getElem h2]

/-- What is read off the selected elements of an array computed index by index. -/
theorem filter_mapIdx {γ : Type} (xs : List α) (f : Nat → α → β) (p : β → Bool) (g : β → γ) :
    ((xs.mapIdx f).filter p).map g = (xs.zipIdx 1).filterMap fun q =>
      let y := f (q.2 - 1) q.1
      if p y then some (g y) else none := by
  have hs : xs.zipIdx 1 = xs.zipIdx.map fun q => (q.1, q.2 + 1) := by
    rw [List.zipIdx_succ]
  rw [List.mapIdx_eq_zipIdx_map, hs]
  generalize xs.zipIdx = qs
  induction qs with
  | nil => rfl
  | cons q qs ih =>
    rw [List.map_cons, List.filter_cons, List.map_cons, List.filterMap_cons]
    cases hp : p (f q.2 q.1) with
    | true => simp [hp, ih]
    | false => simp [hp, ih]

/-- Gathering every index once permutes the array. -/
theorem map_nth_perm (dflt : α) {xs : List α} {is : List Nat}
    (h : is.Perm (List.range' 1 xs.length)) : (is.map (nth dflt xs)).Perm xs := by
  have := h.map (nth dflt xs)
  rwa [map_nth_range'] at this

/-! ## Loops of modifications -/

theorem modify_ok {e : ε} {xs : List α} {i : Nat} {x y : α} {f : α → Except ε α}
    (hx : get e xs i = .ok x) (hf : f x = .ok y) :
    modify e xs i f = .ok (xs.set (i - 1) y) := by
  unfold modify
  rw [hx]
  show (do let y ← f x; pure (xs.set (i - 1) y)) = _
  rw [hf]
  rfl

/-- A loop over `ps` that changes element `key p` by `f p`. When the keys are distinct and valid
and no `f p` fails, neither does the loop, and element `j` is changed by the entry with key `j`. -/
theorem foldlM_modify {e : ε} {key : β → Nat} {f : β → α → Except ε α} {g : β → α → α}
    {ps : List β} {xs : List α} (hnd : (ps.map key).Nodup)
    (hv : ∀ p ∈ ps, Valid xs.length (key p)) (hf : ∀ p ∈ ps, ∀ x, f p x = .ok (g p x)) :
    ps.foldlM (fun xs p => modify e xs (key p) (f p)) xs =
      .ok (xs.mapIdx fun j x =>
        match ps.find? (fun p => key p == j + 1) with
        | some p => g p x
        | none => x) := by
  induction ps generalizing xs with
  | nil => exact congrArg Except.ok (List.ext_getElem (by simp) fun j _ _ => by simp)
  | cons p ps ih =>
    rw [List.map_cons, List.nodup_cons] at hnd
    obtain ⟨x, hx⟩ : ∃ x, get e xs (key p) = .ok x := by
      cases xs with
      | nil => have := hv p (by simp); simp [Valid] at this; omega
      | cons y ys => exact ⟨_, get_of_valid e y (hv p (by simp))⟩
    rw [List.foldlM_cons, modify_ok hx (hf p (by simp) x)]
    rw [get_eq_ok] at hx
    have hstep := @ih (xs.set (key p - 1) (g p x)) hnd.2
      (fun q hq => by rw [List.length_set]; exact hv q (by simp [hq]))
      (fun q hq => hf q (by simp [hq]))
    refine hstep.trans (congrArg Except.ok (List.ext_getElem (by simp) fun j h1 h2 => ?_))
    have hk := (hv p (by simp)).1
    simp only [List.getElem_mapIdx, List.getElem_set, List.find?_cons]
    by_cases hj : key p = j + 1
    · -- the later entries do not touch element `j` again
      have hnone : ps.find? (fun q => key q == j + 1) = none := by
        rw [List.find?_eq_none]
        intro q hq hqj
        exact hnd.1 (List.mem_map.mpr ⟨q, hq, by rw [hj]; simpa using hqj⟩)
      have hxj := (List.getElem?_eq_some_iff.mp hx.2).2
      simp only [hj, Nat.add_sub_cancel] at hxj
      simp [hj, hnone, hxj]
    · have hne : ¬ key p - 1 = j := by omega
      have hb : (key p == j + 1) = false := by simpa using hj
      simp only [hb, hne, if_false]

/-! ## Partial matchings -/

/-- A partial matching of `1..n` with `1..m`: every left index is in exactly one pair or free,
and every right index is in exactly one pair or free. -/
structure Matching (n m : Nat) where
  pairs : List (Nat × Nat)
  freeLeft : List Nat
  freeRight : List Nat
  left_perm : (pairs.map Prod.fst ++ freeLeft).Perm (List.range' 1 n)
  right_perm : (pairs.map Prod.snd ++ freeRight).Perm (List.range' 1 m)

namespace Matching

variable {n m : Nat} (M : Matching n m)

/-- The right index matched to the left index `i`. -/
def rightOf (i : Nat) : Option Nat := (M.pairs.find? fun p => p.1 == i).map Prod.snd

/-- The left index matched to the right index `d`. -/
def leftOf (d : Nat) : Option Nat := (M.pairs.find? fun p => p.2 == d).map Prod.fst

theorem nodup_left : (M.pairs.map Prod.fst ++ M.freeLeft).Nodup :=
  M.left_perm.nodup_iff.mpr List.nodup_range'

theorem nodup_right : (M.pairs.map Prod.snd ++ M.freeRight).Nodup :=
  M.right_perm.nodup_iff.mpr List.nodup_range'

theorem valid_left {p : Nat × Nat} (hp : p ∈ M.pairs) : Valid n p.1 :=
  valid_of_perm M.left_perm (by simp only [List.mem_append, List.mem_map]; exact .inl ⟨p, hp, rfl⟩)

theorem valid_right {p : Nat × Nat} (hp : p ∈ M.pairs) : Valid m p.2 :=
  valid_of_perm M.right_perm (by simp only [List.mem_append, List.mem_map]; exact .inl ⟨p, hp, rfl⟩)

theorem valid_freeLeft {i : Nat} (hi : i ∈ M.freeLeft) : Valid n i :=
  valid_of_perm M.left_perm (by simp [hi])

theorem valid_freeRight {d : Nat} (hd : d ∈ M.freeRight) : Valid m d :=
  valid_of_perm M.right_perm (by simp [hd])

/-- A left index is free exactly when no pair has it. -/
theorem mem_freeLeft {i : Nat} (hi : Valid n i) :
    i ∈ M.freeLeft ↔ M.pairs.find? (fun p => p.1 == i) = none := by
  have hmem : i ∈ M.pairs.map Prod.fst ++ M.freeLeft :=
    M.left_perm.mem_iff.mpr (List.mem_range'_1.mpr ⟨hi.1, by have := hi.2; omega⟩)
  have hnd := List.nodup_append.mp M.nodup_left
  rw [List.find?_eq_none]
  constructor
  · rintro hf p hp hpi
    exact hnd.2.2 p.1 (List.mem_map.mpr ⟨p, hp, rfl⟩) i hf (by simpa using hpi)
  · intro h
    rcases List.mem_append.mp hmem with hp | hf
    · obtain ⟨p, hp', rfl⟩ := List.mem_map.mp hp
      exact absurd (by simp) (h p hp')
    · exact hf

theorem rightOf_eq_some {i d : Nat} : M.rightOf i = some d ↔ (i, d) ∈ M.pairs := by
  unfold rightOf
  constructor
  · intro h
    obtain ⟨p, hp, rfl⟩ := Option.map_eq_some_iff.mp h
    have hi : p.1 = i := by simpa using List.find?_some hp
    rw [← hi]
    exact List.mem_of_find?_eq_some hp
  · intro hmem
    cases hf : M.pairs.find? (fun p => p.1 == i) with
    | none => exact absurd (by simp) (List.find?_eq_none.mp hf _ hmem)
    | some q =>
      have hq : q.1 = i := by simpa using List.find?_some hf
      have hnd := (List.nodup_append.mp M.nodup_left).1
      have := List.inj_on_of_nodup_map hnd (List.mem_of_find?_eq_some hf) hmem hq
      rw [Option.map_some, this]

theorem rightOf_free {i : Nat} (hi : i ∈ M.freeLeft) : M.rightOf i = none := by
  rw [rightOf, (M.mem_freeLeft (M.valid_freeLeft hi)).mp hi, Option.map_none]

/-- The search for a left index among the free ones. -/
theorem find?_freeLeft {i : Nat} (hi : Valid n i) :
    M.freeLeft.find? (fun j => j == i) = if M.rightOf i = none then some i else none := by
  have hmem : i ∈ M.freeLeft ↔ M.rightOf i = none := by
    rw [M.mem_freeLeft hi, rightOf, Option.map_eq_none_iff]
  by_cases hfree : M.rightOf i = none
  · rw [if_pos hfree]
    cases hf : M.freeLeft.find? (fun j => j == i) with
    | none => exact absurd (by simp) (List.find?_eq_none.mp hf i (hmem.mpr hfree))
    | some j =>
      have hj : j = i := by simpa using List.find?_some hf
      rw [hj]
  · rw [if_neg hfree, List.find?_eq_none]
    intro j hj hji
    have : j = i := by simpa using hji
    exact hfree (hmem.mp (this ▸ hj))

theorem leftOf_eq_some {i d : Nat} : M.leftOf d = some i ↔ (i, d) ∈ M.pairs := by
  unfold leftOf
  constructor
  · intro h
    obtain ⟨p, hp, rfl⟩ := Option.map_eq_some_iff.mp h
    have hd : p.2 = d := by simpa using List.find?_some hp
    rw [← hd]
    exact List.mem_of_find?_eq_some hp
  · intro hmem
    cases hf : M.pairs.find? (fun p => p.2 == d) with
    | none => exact absurd (by simp) (List.find?_eq_none.mp hf _ hmem)
    | some q =>
      have hq : q.2 = d := by simpa using List.find?_some hf
      have hnd := (List.nodup_append.mp M.nodup_right).1
      have := List.inj_on_of_nodup_map hnd (List.mem_of_find?_eq_some hf) hmem hq
      rw [Option.map_some, this]

theorem leftOf_free {d : Nat} (hd : d ∈ M.freeRight) : M.leftOf d = none := by
  cases h : M.leftOf d with
  | none => rfl
  | some i =>
    have hnd := (List.nodup_append.mp M.nodup_right).2.2
    exact absurd rfl (hnd d (List.mem_map.mpr ⟨_, M.leftOf_eq_some.mp h, rfl⟩) d hd)

/-- What is computed for the matched left indices is computed once for each pair. -/
theorem filterMap_rightOf_perm {γ : Type} (f : Nat → Nat → γ) :
    ((List.range' 1 n).filterMap fun i => (M.rightOf i).map (f i)).Perm
      (M.pairs.map fun p => f p.1 p.2) := by
  refine (M.left_perm.filterMap _).symm.trans ?_
  have hpairs : (M.pairs.map Prod.fst).filterMap (fun i => (M.rightOf i).map (f i)) =
      M.pairs.map fun p => f p.1 p.2 := by
    rw [List.filterMap_map, ← List.filterMap_eq_map]
    refine List.filterMap_congr fun p hp => ?_
    simp [M.rightOf_eq_some.mpr hp]
  have hfree : M.freeLeft.filterMap (fun i => (M.rightOf i).map (f i)) = [] := by
    rw [List.filterMap_eq_nil_iff]
    intro i hi
    rw [M.rightOf_free hi, Option.map_none]
  rw [List.filterMap_append, hpairs, hfree, List.append_nil]

/-- What is computed for all right indices is computed for the pairs and for the free ones. -/
theorem map_right_perm {γ : Type} (f : Nat → γ) :
    (M.pairs.map (fun p => f p.2) ++ M.freeRight.map f).Perm ((List.range' 1 m).map f) := by
  have := M.right_perm.map f
  rwa [List.map_append, List.map_map] at this

/-- The matching between no indices on the left and any number on the right has no pairs. -/
theorem pairs_eq_nil (M : Matching 0 m) : M.pairs = [] := by
  have h := M.left_perm.length_eq
  rw [List.length_append, List.length_map, List.length_range'] at h
  exact List.eq_nil_of_length_eq_zero (by omega)

/-- When every right index is free there are no pairs. -/
theorem pairs_eq_nil_of_freeRight (h : M.freeRight.length = m) : M.pairs = [] := by
  have hlen := M.right_perm.length_eq
  rw [List.length_append, List.length_map, List.length_range', h] at hlen
  exact List.eq_nil_of_length_eq_zero (by omega)

/-- With no pairs, the free right indices are all of `1..m`. -/
theorem freeRight_perm (h : M.pairs = []) : M.freeRight.Perm (List.range' 1 m) := by
  have := M.right_perm
  rwa [h, List.map_nil, List.nil_append] at this

/-- The matching of equal indices. -/
def diagonal (n m : Nat) : Matching n m where
  pairs := (List.range' 1 (min n m)).map fun i => (i, i)
  freeLeft := List.range' (1 + min n m) (n - min n m)
  freeRight := List.range' (1 + min n m) (m - min n m)
  left_perm := by
    have h : min n m + (n - min n m) = n := by omega
    rw [List.map_map, Function.comp_def, List.map_id', List.range'_append_1, h]
  right_perm := by
    have h : min n m + (m - min n m) = m := by omega
    rw [List.map_map, Function.comp_def, List.map_id', List.range'_append_1, h]

end Matching

end OneBased
