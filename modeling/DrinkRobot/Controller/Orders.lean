import DrinkRobot.Lib.Indexed
import DrinkRobot.Lib.Run
import DrinkRobot.Lib.StableSort
import DrinkRobot.Matlab

/-!
# The order list

`Prac3Main2.m` starts from the vector `order`: the number of drinks and then six numbers for each
drink. It puts one row per drink under each other, numbered from 1, and sorts them by column 7 in
descending order.

* `parseOrder`: the vector is read with checked indices; between two and five rows come out.
* `parseOrder_ok`: for two to five drinks, the rows are numbered `1..n` before they are sorted.
* `sortrows_before`: the sorted rows have non-increasing priority, ties in the order of the ids,
  because `sortrows` is a stable sort.
* `parses_all_iff`: the vector of a list of drinks is parsed into all of them exactly when there are
  two to five.
-/

namespace DrinkRobot

open OneBased

/-- A row of `sortedOrder`: columns 1 to 7. -/
structure Row where
  id : Nat
  cupType : ℚ
  coffee : ℚ
  tea : ℚ
  sugar : ℚ
  column6 : ℚ
  priority : ℚ
deriving DecidableEq

/-- `[id order(6*id-4 : 6*id+1)]`. -/
def orderRow (order : List ℚ) (id : Nat) : Except MatlabError Row := do
  let cupType ← get .badIndex order (6 * id - 4)
  let coffee ← get .badIndex order (6 * id - 3)
  let tea ← get .badIndex order (6 * id - 2)
  let sugar ← get .badIndex order (6 * id - 1)
  let column6 ← get .badIndex order (6 * id)
  let priority ← get .badIndex order (6 * id + 1)
  pure { id, cupType, coffee, tea, sugar, column6, priority }

/-- `if n >= id, sortedOrder = [sortedOrder; id order(...)]; end`. -/
def addRow (order : List ℚ) (n : ℚ) (id : Nat) (sortedOrder : List Row) :
    Except MatlabError (List Row) :=
  if (id : ℚ) ≤ n then do
    let row ← orderRow order id
    pure (sortedOrder ++ [row])
  else pure sortedOrder

/-- `a` need not stand below `b` in a list sorted by column 7, descending. -/
def Row.AtLeast (a b : Row) : Prop := b.priority ≤ a.priority

instance : DecidableRel Row.AtLeast := fun a b =>
  inferInstanceAs (Decidable (b.priority ≤ a.priority))

instance : Std.Total Row.AtLeast := ⟨fun _ _ => le_total _ _⟩

instance : IsTrans Row Row.AtLeast := ⟨fun _ _ _ hab hbc => le_trans hbc hab⟩

/-- `sortrows(sortedOrder, -7)`: a stable sort by column 7, descending. -/
def sortrows (rows : List Row) : List Row := rows.insertionSort Row.AtLeast

/-- The rows before they are sorted. -/
def orderRows (order : List ℚ) (n : ℚ) : Except MatlabError (List Row) := do
  let row1 ← orderRow order 1
  let row2 ← orderRow order 2
  let sortedOrder ← addRow order n 3 [row1, row2]
  let sortedOrder ← addRow order n 4 sortedOrder
  addRow order n 5 sortedOrder

/-- `n` and `sortedOrder`. -/
def parseOrder (order : List ℚ) : Except MatlabError (ℚ × List Row) := do
  let n ← get .badIndex order 1
  let sortedOrder ← orderRows order n
  pure (n, sortrows sortedOrder)

/-! ## Sorting -/

theorem sortrows_perm (rows : List Row) : (sortrows rows).Perm rows := List.perm_insertionSort _ _

/-- `a` is served before `b`: it has the higher priority, or the same and the smaller id. -/
def Row.Before (a b : Row) : Prop :=
  b.priority < a.priority ∨ (a.priority = b.priority ∧ a.id < b.id)

theorem sortrows_before {rows : List Row} (hids : (rows.map Row.id).Pairwise (· < ·)) :
    (sortrows rows).Pairwise Row.Before := by
  have hrows : rows.Pairwise fun a b => a.id < b.id := List.pairwise_map.mp hids
  have hnd : rows.Nodup := hrows.imp fun h he => by rw [he] at h; exact Nat.lt_irrefl _ h
  have hstable := StableSort.pairwise_insertionSort_stable (r := Row.AtLeast) hnd hrows
  refine hstable.imp fun {a b} h => ?_
  rcases lt_or_eq_of_le h.1 with hlt | heq
  · exact .inl hlt
  · exact .inr ⟨heq.symm, h.2 (le_of_eq heq.symm)⟩

/-! ## What is parsed -/

theorem orderRow_id {order : List ℚ} {id : Nat} {row : Row} (h : orderRow order id = .ok row) :
    row.id = id := by
  obtain ⟨_, -, h⟩ := Run.bind_ok.mp h
  obtain ⟨_, -, h⟩ := Run.bind_ok.mp h
  obtain ⟨_, -, h⟩ := Run.bind_ok.mp h
  obtain ⟨_, -, h⟩ := Run.bind_ok.mp h
  obtain ⟨_, -, h⟩ := Run.bind_ok.mp h
  obtain ⟨_, -, h⟩ := Run.bind_ok.mp h
  cases h
  rfl

theorem addRow_ids {order : List ℚ} {n k : Nat} {rows rows' : List Row}
    (hids : rows.map Row.id = List.range' 1 (min n k))
    (h : addRow order n (k + 1) rows = .ok rows') :
    rows'.map Row.id = List.range' 1 (min n (k + 1)) := by
  unfold addRow at h
  split at h <;> rename_i hn <;> rw [Nat.cast_le] at hn
  · obtain ⟨row, hrow, h⟩ := Run.bind_ok.mp h
    cases h
    have h1 : min n k = k := by omega
    have h2 : min n (k + 1) = k + 1 := by omega
    rw [List.map_append, hids, h1, h2, List.range'_1_concat, List.map_singleton, orderRow_id hrow,
      Nat.add_comm 1 k]
  · cases h
    have : min n (k + 1) = min n k := by omega
    rw [hids, this]

/-- For two to five drinks there is one row for each, numbered in the order of the vector. -/
theorem orderRows_ids {order : List ℚ} {n : Nat} {rows : List Row} (hn : 2 ≤ n ∧ n ≤ 5)
    (h : orderRows order n = .ok rows) : rows.map Row.id = List.range' 1 n := by
  obtain ⟨row1, h1, h⟩ := Run.bind_ok.mp h
  obtain ⟨row2, h2, h⟩ := Run.bind_ok.mp h
  obtain ⟨rows3, h3, h⟩ := Run.bind_ok.mp h
  obtain ⟨rows4, h4, h5⟩ := Run.bind_ok.mp h
  have hids : [row1, row2].map Row.id = List.range' 1 (min n 2) := by
    rw [Nat.min_eq_right hn.1]
    simp [orderRow_id h1, orderRow_id h2, List.range']
  have := addRow_ids (addRow_ids (addRow_ids hids h3) h4) h5
  rwa [Nat.min_eq_left hn.2] at this

/-- **The parsed orders.** For two to five drinks the sorted rows are one for each id from 1 to
`n`, and each is served before those below it. -/
theorem parseOrder_ok {order : List ℚ} {n : Nat} {sortedOrder : List Row} (hn : 2 ≤ n ∧ n ≤ 5)
    (h : parseOrder order = .ok (n, sortedOrder)) :
    sortedOrder.length = n ∧ (sortedOrder.map Row.id).Perm (List.range' 1 n) ∧
      sortedOrder.Pairwise Row.Before := by
  obtain ⟨m, -, h⟩ := Run.bind_ok.mp h
  obtain ⟨rows, hrows, h⟩ := Run.bind_ok.mp h
  simp only [pure, Except.pure, Except.ok.injEq, Prod.mk.injEq] at h
  obtain ⟨rfl, rfl⟩ := h
  have hids := orderRows_ids hn hrows
  have hperm := (sortrows_perm rows).map Row.id
  refine ⟨?_, hids ▸ hperm, sortrows_before (hids ▸ List.pairwise_lt_range')⟩
  rw [← List.length_map (f := Row.id), hperm.length_eq, hids, List.length_range']

/-! ## The order vector -/

/-- The six numbers of a drink in the order vector. -/
structure Drink where
  cupType : ℚ
  coffee : ℚ
  tea : ℚ
  sugar : ℚ
  column6 : ℚ
  priority : ℚ
deriving DecidableEq

def Drink.numbers (d : Drink) : List ℚ :=
  [d.cupType, d.coffee, d.tea, d.sugar, d.column6, d.priority]

/-- The row `[id drink]`. -/
def Drink.row (d : Drink) (id : Nat) : Row where
  id := id
  cupType := d.cupType
  coffee := d.coffee
  tea := d.tea
  sugar := d.sugar
  column6 := d.column6
  priority := d.priority

/-- `order = [n, drink_1, ..., drink_n]`. -/
def orderVector (drinks : List Drink) : List ℚ := drinks.length :: drinks.flatMap Drink.numbers

/-- The rows `[j, drink_j]` for `j` from 1 to `n`. -/
def drinkRows (drinks : List Drink) : List Row := drinks.mapIdx fun j d => d.row (j + 1)

/-- Number `k` of drink `j + 1`. -/
theorem numbers_getElem? (drinks : List Drink) (j : Nat) {k : Nat} (hk : k < 6) :
    (drinks.flatMap Drink.numbers)[6 * j + k]? = drinks[j]?.bind fun d => d.numbers[k]? := by
  induction drinks generalizing j with
  | nil => simp
  | cons d drinks ih =>
    have hlen : d.numbers.length = 6 := rfl
    rw [List.flatMap_cons]
    cases j with
    | zero =>
      rw [List.getElem?_append_left (by omega)]
      simp
    | succ j =>
      rw [List.getElem?_append_right (by omega), hlen, List.getElem?_cons_succ, ← ih j]
      congr 1
      omega

/-- A read of the order vector at number `k` of drink `j + 1`. -/
theorem get_orderVector (drinks : List Drink) (j : Nat) {k i : Nat} (hk : k < 6)
    (hi : i = 6 * j + k + 2) :
    get MatlabError.badIndex (orderVector drinks) i =
      match drinks[j]?.bind fun d => d.numbers[k]? with
      | some x => .ok x
      | none => .error .badIndex := by
  subst hi
  have hget : (orderVector drinks)[6 * j + k + 1]? =
      drinks[j]?.bind fun d => d.numbers[k]? := by
    rw [orderVector, List.getElem?_cons_succ, numbers_getElem? drinks j hk]
  simp only [OneBased.get, hget]
  cases drinks[j]?.bind fun d => d.numbers[k]? <;> rfl

/-- The slice of row `j + 1`: the drink's row, or an error when there is no such drink. -/
theorem orderRow_orderVector (drinks : List Drink) (j : Nat) :
    orderRow (orderVector drinks) (j + 1) =
      match drinks[j]? with
      | some d => .ok (d.row (j + 1))
      | none => .error .badIndex := by
  unfold orderRow
  rw [get_orderVector drinks j (k := 0) (by omega) (by omega),
    get_orderVector drinks j (k := 1) (by omega) (by omega),
    get_orderVector drinks j (k := 2) (by omega) (by omega),
    get_orderVector drinks j (k := 3) (by omega) (by omega),
    get_orderVector drinks j (k := 4) (by omega) (by omega),
    get_orderVector drinks j (k := 5) (by omega) (by omega)]
  cases drinks[j]? <;> rfl

theorem drinkRows_getElem? (drinks : List Drink) (j : Nat) :
    (drinkRows drinks)[j]? = drinks[j]?.map fun d => d.row (j + 1) := by
  rw [drinkRows, List.getElem?_mapIdx]

theorem length_drinkRows (drinks : List Drink) : (drinkRows drinks).length = drinks.length :=
  List.length_mapIdx

theorem drinkRows_ids (drinks : List Drink) :
    (drinkRows drinks).map Row.id = List.range' 1 drinks.length := by
  refine List.ext_getElem (by simp [drinkRows]) fun j h1 h2 => ?_
  simp [drinkRows, Drink.row, Nat.add_comm]

/-- An `if n >= id` goes from the first `k` rows to the first `k + 1`. -/
theorem addRow_take (drinks : List Drink) (k : Nat) :
    addRow (orderVector drinks) drinks.length (k + 1) ((drinkRows drinks).take k) =
      .ok ((drinkRows drinks).take (k + 1)) := by
  have hlen := length_drinkRows drinks
  unfold addRow
  by_cases hk : k < drinks.length
  · rw [if_pos (by exact_mod_cast hk), orderRow_orderVector, List.getElem?_eq_getElem hk,
      List.take_add_one, drinkRows_getElem?, List.getElem?_eq_getElem hk]
    rfl
  · rw [if_neg (by exact_mod_cast hk), List.take_of_length_le (by omega),
      List.take_of_length_le (by omega)]
    rfl

/-- The rows before they are sorted: rows 1 and 2 are read without a test, and no row past 5. -/
theorem orderRows_orderVector (drinks : List Drink) :
    orderRows (orderVector drinks) drinks.length =
      if 2 ≤ drinks.length then .ok ((drinkRows drinks).take 5) else .error .badIndex := by
  unfold orderRows
  match drinks with
  | [] => rfl
  | [_] => rfl
  | d₁ :: d₂ :: ds =>
    have h1 : orderRow (orderVector (d₁ :: d₂ :: ds)) 1 = .ok (d₁.row 1) :=
      orderRow_orderVector (d₁ :: d₂ :: ds) 0
    have h2 : orderRow (orderVector (d₁ :: d₂ :: ds)) 2 = .ok (d₂.row 2) :=
      orderRow_orderVector (d₁ :: d₂ :: ds) 1
    have htake : (drinkRows (d₁ :: d₂ :: ds)).take 2 = [d₁.row 1, d₂.row 2] := by
      simp [drinkRows, List.mapIdx_cons]
    have h3 := addRow_take (d₁ :: d₂ :: ds) 2
    rw [htake] at h3
    rw [if_pos (by simp), Run.bind_of_ok h1, Run.bind_of_ok h2, Run.bind_of_ok h3,
      Run.bind_of_ok (addRow_take (d₁ :: d₂ :: ds) 3)]
    exact addRow_take (d₁ :: d₂ :: ds) 4

/-- The parsed orders are the drinks: one row each, sorted, and none of the rows that the control
loop reads is missing. -/
def ParsesAll (drinks : List Drink) : Prop :=
  ∃ sortedOrder, parseOrder (orderVector drinks) = .ok (drinks.length, sortedOrder) ∧
    sortedOrder.length = drinks.length ∧ sortedOrder.Perm (drinkRows drinks) ∧
    sortedOrder.Pairwise Row.Before ∧
    ∀ i, 1 ≤ i → i ≤ drinks.length → ∃ row, get MatlabError.badIndex sortedOrder i = .ok row

/-- **When no drink is lost.** The order vector of any list of drinks is parsed into all of them
exactly when there are two to five: rows 1 and 2 are read whether or not there are two drinks, and
there is no row after the fifth. -/
theorem parses_all_iff (drinks : List Drink) :
    ParsesAll drinks ↔ 2 ≤ drinks.length ∧ drinks.length ≤ 5 := by
  have hparse : parseOrder (orderVector drinks) =
      (orderRows (orderVector drinks) drinks.length >>= fun sortedOrder =>
        pure ((drinks.length : ℚ), sortrows sortedOrder)) := rfl
  rw [orderRows_orderVector] at hparse
  constructor
  · rintro ⟨sortedOrder, hok, hlen, -⟩
    rw [hparse] at hok
    split at hok
    · rename_i h2
      refine ⟨h2, ?_⟩
      cases hok
      rw [(sortrows_perm _).length_eq, List.length_take, length_drinkRows] at hlen
      omega
    · cases hok
  · rintro ⟨h2, h5⟩
    rw [if_pos h2, List.take_of_length_le (by rw [length_drinkRows]; exact h5)] at hparse
    have hperm := sortrows_perm (drinkRows drinks)
    have hlen := hperm.length_eq.trans (length_drinkRows drinks)
    refine ⟨_, hparse, hlen, hperm, sortrows_before ?_, fun i h1 hi => ?_⟩
    · rw [drinkRows_ids]
      exact List.pairwise_lt_range'
    · have hlt : i - 1 < (sortrows (drinkRows drinks)).length := by omega
      exact ⟨_, get_eq_ok.mpr ⟨⟨h1, by omega⟩, List.getElem?_eq_getElem hlt⟩⟩

/-- An order of one drink is not parsed: there is no second drink to read. -/
theorem one_drink_not_parsed : ¬ ParsesAll [⟨2, 1, 0, 0, 0, 0⟩] := by
  rintro ⟨sortedOrder, h, -⟩
  have herror : parseOrder (orderVector [⟨2, 1, 0, 0, 0, 0⟩]) = .error .badIndex := by
    decide +kernel
  rw [herror] at h
  cases h

end DrinkRobot
