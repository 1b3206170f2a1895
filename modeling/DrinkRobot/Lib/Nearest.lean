import Mathlib.Data.List.Infix
import Mathlib.Order.Lattice
import Mathlib.Order.Monotone.Defs

/-!
# The least and the second least value of a row

`scan top xs` passes once over a row. It keeps the least value below `top`, the first place where that
is, and the least of the others.

* `Found top xs s`: what the pass has found (`scan_found`).
* `lt_second_iff`: a bar is below the second least value exactly when it is below all the others.
* `Alone`: an item that is the only one of its row with a property. The order of the row does not
  matter (`Alone.perm`).
-/

namespace Nearest

/-! ## The pass -/

structure Scan (β : Type) where
  best : β
  second : β
  place : Option Nat

section Row

variable {β : Type} {b : β} {xs : List β}

/-- The values at the other places than `k`. -/
def Others (xs : List β) (k : Nat) (P : β → Prop) : Prop := ∀ j b, xs[j]? = some b → j ≠ k → P b

theorem getElem?_concat_cases {j : Nat} {c : β} (h : (xs ++ [b])[j]? = some c) :
    xs[j]? = some c ∨ j = xs.length ∧ c = b := by
  rcases Nat.lt_trichotomy j xs.length with hj | rfl | hj
  · rw [List.getElem?_append_left hj] at h
    exact .inl h
  · rw [List.getElem?_concat_length] at h
    exact .inr ⟨rfl, (Option.some_inj.mp h).symm⟩
  · rw [List.getElem?_eq_none (by simp; omega)] at h
    cases h

theorem getElem?_concat_of_some {j : Nat} {c : β} (h : xs[j]? = some c) :
    (xs ++ [b])[j]? = some c := by
  obtain ⟨hj, -⟩ := List.getElem?_eq_some_iff.mp h
  rw [List.getElem?_append_left hj, h]

end Row

section Scan

variable {β : Type} [LinearOrder β]

def Scan.add (s : Scan β) (k : Nat) (b : β) : Scan β :=
  if b < s.best then
    ⟨b, s.best, some k⟩
  else if b < s.second then
    { s with second := b }
  else
    s

def scanFrom (s : Scan β) (k : Nat) : List β → Scan β
  | [] => s
  | b :: bs => scanFrom (s.add k b) (k + 1) bs

def scan (top : β) (xs : List β) : Scan β := scanFrom ⟨top, top, none⟩ 0 xs

/-- `best` is the first of the least values, and `second` the least of the others. -/
structure FoundAt (top : β) (xs : List β) (best second : β) (k : Nat) : Prop where
  here : xs[k]? = some best
  lt_top : best < top
  first : ∀ j b, xs[j]? = some b → j < k → best < b
  best_le : best ≤ second
  second_le : second ≤ top
  others : Others xs k fun b => second ≤ b
  attained : second = top ∨ ∃ j, xs[j]? = some second ∧ j ≠ k

/-- What a pass has found: nothing below `top`, or the two least values. -/
def Found (top : β) (xs : List β) (s : Scan β) : Prop :=
  (s.place = none ∧ s.best = top ∧ s.second = top ∧ ∀ b ∈ xs, top ≤ b) ∨
    ∃ k, s.place = some k ∧ FoundAt top xs s.best s.second k

variable {top b best second : β} {xs : List β} {k : Nat} {s : Scan β}

theorem FoundAt.lt_length (h : FoundAt top xs best second k) : k < xs.length :=
  (List.getElem?_eq_some_iff.mp h.here).1

/-- A new least value: the old one becomes the second. -/
theorem FoundAt.better (h : FoundAt top xs best second k) (hb : b < best) :
    FoundAt top (xs ++ [b]) b best xs.length where
  here := List.getElem?_concat_length
  lt_top := hb.trans h.lt_top
  first j c hc hj := by
    rcases getElem?_concat_cases hc with hc | ⟨rfl, -⟩
    · by_cases hjk : j = k
      · rw [hjk, h.here] at hc
        exact Option.some_inj.mp hc ▸ hb
      · exact hb.trans_le (h.best_le.trans (h.others j c hc hjk))
    · omega
  best_le := hb.le
  second_le := h.lt_top.le
  others j c hc hj := by
    rcases getElem?_concat_cases hc with hc | ⟨rfl, -⟩
    · by_cases hjk : j = k
      · rw [hjk, h.here] at hc
        exact (Option.some_inj.mp hc).le
      · exact h.best_le.trans (h.others j c hc hjk)
    · exact absurd rfl hj
  attained := .inr ⟨k, getElem?_concat_of_some h.here, h.lt_length.ne⟩

/-- A value that is no new least one. -/
theorem FoundAt.worse (h : FoundAt top xs best second k) (hb : best ≤ b) {second' : β}
    (hsecond : second' = min b second) : FoundAt top (xs ++ [b]) best second' k where
  here := getElem?_concat_of_some h.here
  lt_top := h.lt_top
  first j c hc hj := by
    rcases getElem?_concat_cases hc with hc | ⟨rfl, -⟩
    · exact h.first j c hc hj
    · exact absurd h.lt_length (by omega)
  best_le := by rw [hsecond]; exact le_min hb h.best_le
  second_le := by rw [hsecond]; exact (min_le_right _ _).trans h.second_le
  others j c hc hj := by
    rw [hsecond]
    rcases getElem?_concat_cases hc with hc | ⟨-, rfl⟩
    · exact (min_le_right _ _).trans (h.others j c hc hj)
    · exact min_le_left _ _
  attained := by
    rw [hsecond]
    rcases le_total b second with hle | hle
    · rw [min_eq_left hle]
      exact .inr ⟨xs.length, List.getElem?_concat_length, h.lt_length.ne'⟩
    · rw [min_eq_right hle]
      rcases h.attained with htop | ⟨j, hj, hne⟩
      · exact .inl htop
      · exact .inr ⟨j, getElem?_concat_of_some hj, hne⟩

theorem Found.add (h : Found top xs s) (b : β) : Found top (xs ++ [b]) (s.add xs.length b) := by
  unfold Scan.add
  obtain ⟨hplace, hbest, hsecond, hall⟩ | ⟨k, hplace, hat⟩ := h
  · rw [hbest, hsecond]
    split
    · rename_i hb
      exact .inr ⟨xs.length, rfl, {
        here := List.getElem?_concat_length
        lt_top := hb
        first := fun j c hc hj => by
          rw [List.getElem?_append_left hj] at hc
          exact hb.trans_le (hall c (List.mem_of_getElem? hc))
        best_le := hb.le
        second_le := le_rfl
        others := fun j c hc hj => by
          rcases getElem?_concat_cases hc with hc | ⟨hlast, -⟩
          · exact hall c (List.mem_of_getElem? hc)
          · exact absurd hlast hj
        attained := .inl rfl }⟩
    · rename_i hb
      refine .inl ⟨hplace, hbest, hsecond, fun c hc => ?_⟩
      rcases List.mem_append.mp hc with hc | hc
      · exact hall c hc
      · rw [List.mem_singleton.mp hc]
        exact not_lt.mp hb
  · -- a place is known: `b` is a new least value, or a new second, or neither
    split
    · rename_i hb
      exact .inr ⟨xs.length, rfl, hat.better hb⟩
    rename_i hb
    split
    · rename_i hb'
      exact .inr ⟨k, hplace, hat.worse (not_lt.mp hb) (min_eq_left hb'.le).symm⟩
    · rename_i hb'
      exact .inr ⟨k, hplace, hat.worse (not_lt.mp hb) (min_eq_right (not_lt.mp hb')).symm⟩

theorem scanFrom_found (h : Found top xs s) (ys : List β) :
    Found top (xs ++ ys) (scanFrom s xs.length ys) := by
  induction ys generalizing xs s with
  | nil => rwa [List.append_nil]
  | cons b bs ih =>
    have hrest := ih (h.add b)
    rwa [List.append_assoc, List.length_append, List.length_singleton] at hrest

theorem scan_found (top : β) (xs : List β) : Found top xs (scan top xs) := by
  have hstart : Found top [] ⟨top, top, none⟩ := .inl ⟨rfl, rfl, rfl, by simp⟩
  exact scanFrom_found hstart xs

/-- A bar is below the second least value exactly when it is below all the others. -/
theorem FoundAt.lt_second_iff {γ : Type} [LinearOrder γ] {f : β → γ} {bar : γ}
    (h : FoundAt top xs best second k) (hf : Monotone f) :
    bar < f second ↔ bar < f top ∧ Others xs k fun b => bar < f b := by
  constructor
  · exact fun hbar => ⟨hbar.trans_le (hf h.second_le),
      fun j b hb hj => hbar.trans_le (hf (h.others j b hb hj))⟩
  · rintro ⟨htop, hothers⟩
    rcases h.attained with heq | ⟨j, hj, hne⟩
    · rwa [heq]
    · exact hothers j second hj hne

/-- A value below `top` and all the others is the one that is found. -/
theorem scan_of_lt (hb : xs[k]? = some b) (htop : b < top) (hothers : Others xs k fun c => b < c) :
    ∃ second, scan top xs = ⟨b, second, some k⟩ ∧ FoundAt top xs b second k := by
  have hfound := scan_found top xs
  generalize scan top xs = s at hfound ⊢
  obtain ⟨best, second, place⟩ := s
  obtain ⟨-, -, -, hall⟩ | ⟨k', rfl, hat⟩ := hfound
  · exact absurd (hall b (List.mem_of_getElem? hb)) (not_le.mpr htop)
  · obtain rfl : k' = k := by
      by_contra hne
      have hlt := hothers k' _ hat.here hne
      have hle := hat.best_le.trans (hat.others k b hb (Ne.symm hne))
      exact absurd hlt (not_lt.mpr hle)
    obtain rfl : b = best := by
      have hhere := hat.here
      rw [hb] at hhere
      exact Option.some_inj.mp hhere
    exact ⟨second, rfl, hat⟩

end Scan

/-! ## The only item with a property -/

section Alone

variable {α : Type} {P : α → Prop} {xs ys : List α} {x : α}

/-- `x` is the only item of the row with the property. -/
def Alone (P : α → Prop) [DecidablePred P] (xs : List α) (x : α) : Prop :=
  xs.filter (fun y => P y) = [x]

variable [DecidablePred P]

theorem Alone.perm (h : Alone P xs x) (hperm : xs.Perm ys) : Alone P ys x := by
  have hfilter := hperm.filter fun y => P y
  rw [show xs.filter (fun y => P y) = [x] from h] at hfilter
  exact List.perm_singleton.mp hfilter.symm

/-- The only item is at one place, and those at the others do not have the property. -/
theorem alone_iff : Alone P xs x ↔
    P x ∧ ∃ k, xs[k]? = some x ∧ Others xs k fun y => ¬ P y := by
  constructor
  · intro h
    have hmem : x ∈ xs.filter fun y => P y := by rw [show _ = [x] from h]; simp
    obtain ⟨hx, hP⟩ := List.mem_filter.mp hmem
    have hP : P x := by simpa using hP
    refine ⟨hP, ?_⟩
    obtain ⟨before, after, rfl⟩ := List.append_of_mem hx
    -- the whole list has one such item, so the parts around it have none
    have hsplit : before.filter (fun y => P y) ++ x :: after.filter (fun y => P y) = [x] := by
      rw [← List.filter_cons_of_pos (p := fun y => decide (P y)) (by simpa using hP), ← List.filter_append]
      exact h
    have hlen := congrArg List.length hsplit
    simp only [List.length_append, List.length_cons, List.length_nil] at hlen
    have hbefore : before.filter (fun y => P y) = [] := List.length_eq_zero_iff.mp (by omega)
    have hafter : after.filter (fun y => P y) = [] := List.length_eq_zero_iff.mp (by omega)
    refine ⟨before.length, by simp, fun j y hy hj hPy => ?_⟩
    rcases Nat.lt_or_gt_of_ne hj with hlt | hgt
    · rw [List.getElem?_append_left hlt] at hy
      have := List.filter_eq_nil_iff.mp hbefore y (List.mem_of_getElem? hy)
      simp [hPy] at this
    · obtain ⟨i, rfl⟩ : ∃ i, j = before.length + (i + 1) := ⟨j - before.length - 1, by omega⟩
      rw [List.getElem?_append_right (by omega), Nat.add_sub_cancel_left, List.getElem?_cons_succ] at hy
      have := List.filter_eq_nil_iff.mp hafter y (List.mem_of_getElem? hy)
      simp [hPy] at this
  · rintro ⟨hP, k, hk, hothers⟩
    obtain ⟨hlt, rfl⟩ := List.getElem?_eq_some_iff.mp hk
    have hbefore : (xs.take k).filter (fun y => P y) = [] := by
      rw [List.filter_eq_nil_iff]
      intro y hy
      obtain ⟨j, hj⟩ := List.getElem?_of_mem hy
      have hjk : j < k := by
        by_contra hle
        rw [List.getElem?_eq_none (by rw [List.length_take]; omega)] at hj
        cases hj
      rw [List.getElem?_take_of_lt hjk] at hj
      simpa using hothers j y hj hjk.ne
    have hafter : (xs.drop (k + 1)).filter (fun y => P y) = [] := by
      rw [List.filter_eq_nil_iff]
      intro y hy
      obtain ⟨j, hj⟩ := List.getElem?_of_mem hy
      rw [List.getElem?_drop] at hj
      simpa using hothers (k + 1 + j) y hj (by omega)
    unfold Alone
    conv_lhs => rw [← List.take_append_drop k xs, List.drop_eq_getElem_cons hlt]
    rw [List.filter_append, hbefore, List.filter_cons_of_pos (by simpa using hP), hafter]
    rfl

end Alone

end Nearest
