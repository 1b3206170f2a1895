import DrinkRobot.Controller.Model

/-!
# The script of a run

When the condiment counts are natural numbers, the order list fixes what the controller does
step by step, whatever the camera and the arm answer, up to where a run stops with an error.

* `script`: for each order, in turn, one round of cases 2 to 5 for each condiment, coffee first,
  then tea, then sugar; one round without a condiment when there are none.
* `Follows`: which part of the script is still to come in a configuration. `follows_step`: every
  step takes the first mark of it.
* `controller_follows`: the events of a run are the first marks of the script; `controller_ends`:
  with as many inputs as marks, the run ends and they are all of them.
-/

namespace DrinkRobot

open OneBased

variable {κ : Type}

/-! ## Condiments to come -/

/-- The counts are natural numbers. -/
def Row.Natural (row : Row) : Prop := ∃ a b c : Nat, row.coffee = a ∧ row.tea = b ∧ row.sugar = c

/-- The condiments still to come, in the order in which they are collected. -/
def Row.condiments (row : Row) : List CondimentFlag :=
  List.replicate ⌊row.coffee⌋₊ .coffee ++ List.replicate ⌊row.tea⌋₊ .tea ++
    List.replicate ⌊row.sugar⌋₊ .sugar

/-- The row when its condiments are all served. -/
def Row.served (row : Row) : Row := { row with coffee := 0, tea := 0, sugar := 0 }

theorem Row.Natural.length_condiments {row : Row} (h : row.Natural) :
    (row.condiments.length : ℚ) = row.coffee + row.tea + row.sugar := by
  obtain ⟨a, b, c, ha, hb, hc⟩ := h
  simp [Row.condiments, ha, hb, hc, add_assoc]

theorem Row.Natural.condiments_eq_nil_iff {row : Row} (h : row.Natural) :
    row.condiments = [] ↔ row.coffee + row.tea + row.sugar = 0 := by
  rw [← h.length_condiments, Nat.cast_eq_zero, List.length_eq_zero_iff]

theorem Row.Natural.served_eq {row : Row} (h : row.Natural) (hnil : row.condiments = []) :
    row.served = row := by
  obtain ⟨a, b, c, ha, hb, hc⟩ := h
  simp only [Row.condiments, ha, hb, hc, Nat.floor_natCast, List.append_eq_nil_iff,
    List.replicate_eq_nil_iff] at hnil
  obtain ⟨⟨rfl, rfl⟩, rfl⟩ := hnil
  cases row
  simp_all [Row.served]

/-- Case 2 takes the first condiment to come. -/
theorem selectCondiment_natural {cup : Row} (h : cup.Natural) :
    (selectCondiment cup).2.Natural ∧ (selectCondiment cup).2.served = cup.served ∧
      (selectCondiment cup).1 = cup.condiments.head?.getD .noCondiment ∧
      (selectCondiment cup).2.condiments = cup.condiments.tail := by
  obtain ⟨a, b, c, ha, hb, hc⟩ := h
  have hpos : ∀ k : Nat, ((k + 1 : Nat) : ℚ) > 0 := fun k => Nat.cast_pos.mpr k.succ_pos
  have hsub : ∀ k : Nat, ((k + 1 : Nat) : ℚ) - 1 = k := fun k => by simp
  have hzero : ¬ ((0 : Nat) : ℚ) > 0 := by simp
  cases a with
  | succ a =>
    rw [selectCondiment, ha, if_pos (hpos a), hsub]
    exact ⟨⟨a, b, c, rfl, hb, hc⟩, rfl,
      by simp [Row.condiments, ha, hb, hc, Nat.floor_add_one, List.replicate_succ],
      by simp [Row.condiments, ha, hb, hc, Nat.floor_add_one, List.replicate_succ]⟩
  | zero =>
    rw [selectCondiment, ha, if_neg hzero]
    cases b with
    | succ b =>
      rw [hb, if_pos (hpos b), hsub]
      exact ⟨⟨0, b, c, rfl, rfl, hc⟩, rfl,
        by simp [Row.condiments, ha, hb, hc, Nat.floor_add_one, List.replicate_succ],
        by simp [Row.condiments, ha, hb, hc, Nat.floor_add_one, List.replicate_succ]⟩
    | zero =>
      rw [hb, if_neg hzero]
      cases c with
      | succ c =>
        rw [hc, if_pos (hpos c), hsub]
        exact ⟨⟨0, 0, c, rfl, rfl, rfl⟩, rfl,
          by simp [Row.condiments, ha, hb, hc, Nat.floor_add_one, List.replicate_succ],
          by simp [Row.condiments, ha, hb, hc, Nat.floor_add_one, List.replicate_succ]⟩
      | zero =>
        rw [hc, if_neg hzero]
        exact ⟨⟨0, 0, 0, ha, hb, hc⟩, rfl, by simp [Row.condiments, ha, hb, hc],
          by simp [Row.condiments, ha, hb, hc]⟩

/-! ## Marks -/

/-- An event without what the camera decides: the table and the target. -/
inductive Mark where
  | start (i : Nat)
  | select (i : Nat) (condimentFlag : CondimentFlag)
  | collect (i : Nat) (condimentFlag : CondimentFlag)
  | find (i : Nat)
  | drop (i : Nat)
  | declare (i : Nat) (cup : Row)
deriving DecidableEq

def Event.mark : Event → Mark
  | .start i _ => .start i
  | .select i condimentFlag => .select i condimentFlag
  | .collect i condimentFlag => .collect i condimentFlag
  | .find i _ => .find i
  | .drop i _ => .drop i
  | .declare i cup => .declare i cup

/-- A round of cases 2 to 5. -/
def roundMarks (i : Nat) (condimentFlag : CondimentFlag) : List Mark :=
  [.select i condimentFlag, .collect i condimentFlag, .find i, .drop i]

/-- The rounds from case 2 on, for the condiments to come; at least one. -/
def rounds (i : Nat) : List CondimentFlag → List Mark
  | [] => roundMarks i .noCondiment
  | fs => fs.flatMap (roundMarks i)

theorem rounds_of_ne_nil (i : Nat) {fs : List CondimentFlag} (h : fs ≠ []) :
    rounds i fs = fs.flatMap (roundMarks i) := by
  cases fs with
  | nil => exact absurd rfl h
  | cons f fs => rfl

/-- What is done for order `i`. -/
def orderMarks (i : Nat) (row : Row) : List Mark :=
  .start i :: (rounds i row.condiments ++ [.declare i row.served])

/-- What is done for the orders from `i` on. -/
def script (i : Nat) : List Row → List Mark
  | [] => []
  | row :: rows => orderMarks i row ++ script (i + 1) rows

/-- The rows the loop `for i = 1:n` serves. -/
def Program.rows (P : Program) : List Row := P.sortedOrder.take ⌊P.n⌋₊

/-- The rest of the script after order `i`. -/
def Program.rest (P : Program) (i : Nat) : List Mark := script (i + 1) (P.rows.drop i)

/-- What is to come after a drop into `cup`. -/
def Program.afterDrop (P : Program) (i : Nat) (cup : Row) : List Mark :=
  cup.condiments.flatMap (roundMarks i) ++ .declare i cup.served :: P.rest i

/-- From `c` on, the marks `ms` are to come. -/
def Follows (P : Program) (c : Config) (ms : List Mark) : Prop :=
  1 ≤ c.i ∧ (c.state = .nextCup ∨ halted P c = false) ∧
  match c.state with
  | .nextCup => ms = script c.i (P.rows.drop (c.i - 1))
  | .selectCondiment => ∃ cup, c.cup = some cup ∧ cup.Natural ∧
      ms = rounds c.i cup.condiments ++ .declare c.i cup.served :: P.rest c.i
  | .collectCondiment => ∃ cup f, c.cup = some cup ∧ c.condimentFlag = some f ∧ cup.Natural ∧
      ms = .collect c.i f :: .find c.i :: .drop c.i :: P.afterDrop c.i cup
  | .findCups => ∃ cup, c.cup = some cup ∧ cup.Natural ∧
      ms = .find c.i :: .drop c.i :: P.afterDrop c.i cup
  | .dropCondiment => ∃ cup, c.cup = some cup ∧ cup.Natural ∧
      ms = .drop c.i :: P.afterDrop c.i cup
  | .declareFinished => ∃ cup, c.cup = some cup ∧ ms = .declare c.i cup :: P.rest c.i

theorem rows_drop {P : Program} {c : Config} {cup : Row} (h1 : 1 ≤ c.i)
    (hs : halted P c = false) (hcup : get MatlabError.badIndex P.sortedOrder c.i = .ok cup) :
    P.rows.drop (c.i - 1) = cup :: P.rows.drop c.i := by
  have hn : (c.i : ℚ) ≤ P.n := by simpa [halted] using hs
  have hfloor : c.i ≤ ⌊P.n⌋₊ := Nat.le_floor hn
  have hrow : P.rows[c.i - 1]? = some cup := by
    rw [Program.rows, List.getElem?_take_of_lt (by omega)]
    exact (get_eq_ok.mp hcup).2
  obtain ⟨hlt, hget⟩ := List.getElem?_eq_some_iff.mp hrow
  rw [List.drop_eq_getElem_cons hlt, hget, Nat.sub_add_cancel h1]

/-- Every step takes the first mark that is to come. -/
theorem follows_step {P : Program} (hnat : ∀ row ∈ P.sortedOrder, row.Natural) {c c' : Config}
    {ms : List Mark} {inp : Input κ} {e : Event} (h : Follows P c ms) (hs : halted P c = false)
    (hstep : step P c inp = .ok (c', e)) : ∃ ms', ms = e.mark :: ms' ∧ Follows P c' ms' := by
  obtain ⟨h1, -, h⟩ := h
  have hs' : ∀ st, st = ControllerState.nextCup ∨ halted P c = false := fun _ => .inr hs
  -- one case for each state: its mark comes first, and the rest is what follows it
  cases step_pass hstep with
  | @start cup hst hcup =>
    rw [hst] at h
    have hmem : cup ∈ P.sortedOrder := List.mem_of_getElem? (get_eq_ok.mp hcup).2
    rw [rows_drop h1 hs hcup] at h
    refine ⟨_, h.trans rfl, h1, hs' _, cup, rfl, hnat cup hmem, ?_⟩
    simp [Program.rest]
  | @select cup hst hcup =>
    rw [hst] at h
    obtain ⟨cup', hcup', hnatural, rfl⟩ := h
    rw [hcup] at hcup'
    cases hcup'
    obtain ⟨hn, hserved, hflag, htail⟩ := selectCondiment_natural hnatural
    refine ⟨.collect c.i (selectCondiment cup).1 :: .find c.i :: .drop c.i ::
      P.afterDrop c.i (selectCondiment cup).2, ?_, h1, hs' _, _, _, rfl, rfl, hn, rfl⟩
    rw [Program.afterDrop, hserved, htail, hflag]
    cases cup.condiments <;> rfl
  | @collect f hst hflag =>
    rw [hst] at h
    obtain ⟨cup, f', hcup, hflag', hnatural, rfl⟩ := h
    rw [hflag] at hflag'
    cases hflag'
    exact ⟨_, rfl, h1, hs' _, cup, hcup, hnatural, rfl⟩
  | @find cup nextId rows hst hfind hcup =>
    rw [hst] at h
    obtain ⟨cup', hcup', hnatural, rfl⟩ := h
    exact ⟨_, rfl, h1, hs' _, cup', hcup', hnatural, rfl⟩
  | @drop cup xy hst hxy hcup =>
    rw [hst] at h
    obtain ⟨cup', hcup', hnatural, rfl⟩ := h
    rw [hcup] at hcup'
    cases hcup'
    refine ⟨_, rfl, h1, hs' _, ?_⟩
    -- state 5 goes back to state 2 while there are condiments left
    by_cases hz : cup.coffee + cup.tea + cup.sugar = 0
    · have hnil := hnatural.condiments_eq_nil_iff.mpr hz
      simp only [hz, if_true]
      exact ⟨cup, hcup, by rw [Program.afterDrop, hnil, hnatural.served_eq hnil]; rfl⟩
    · have hne := hnatural.condiments_eq_nil_iff.not.mpr hz
      simp only [hz, if_false]
      exact ⟨cup, hcup, hnatural, by rw [Program.afterDrop, rounds_of_ne_nil c.i hne]⟩
  | @declare cup hst hcup =>
    rw [hst] at h
    obtain ⟨cup', hcup', rfl⟩ := h
    rw [hcup] at hcup'
    cases hcup'
    exact ⟨_, rfl, by simp, .inl rfl, by simp [Program.rest]⟩

/-! ## Runs -/

theorem follows_start (P : Program) (nextId : Nat) :
    Follows P (controllerStart nextId) (script 1 P.rows) :=
  ⟨Nat.le_refl 1, .inl rfl, rfl⟩

/-- The events of a run are the first marks of the script. -/
theorem controller_follows {P : Program} (hnat : ∀ row ∈ P.sortedOrder, row.Natural) {nextId : Nat}
    {inputs : List (Input κ)} {c : Config} {es : List Event}
    (h : controller P nextId inputs = .ok (c, es)) :
    ∃ ms, script 1 P.rows = es.map Event.mark ++ ms ∧ Follows P c ms :=
  Run.exec_follows (fun _ _ _ _ _ hf hs hstep => follows_step hnat hf hs hstep)
    (follows_start P nextId) h

theorem length_rows_le (P : Program) : P.rows.length ≤ ⌊P.n⌋₊ := by
  rw [Program.rows, List.length_take]
  exact Nat.min_le_left _ _

/-- When `i` has passed `n` nothing is to come. -/
theorem follows_halted {P : Program} {c : Config} {ms : List Mark} (h : Follows P c ms)
    (hs : halted P c = true) : c.state = .nextCup ∧ ms = [] := by
  obtain ⟨h1, hst, h⟩ := h
  have hst := hst.resolve_right (by simp [hs])
  rw [hst] at h
  have hi : ⌊P.n⌋₊ < c.i := by
    rw [Nat.floor_lt' (by omega)]
    simpa [halted] using hs
  have := length_rows_le P
  refine ⟨hst, ?_⟩
  rw [h, List.drop_of_length_le (by omega)]
  rfl

theorem follows_nil {P : Program} {c : Config} (h : Follows P c []) :
    c.state = .nextCup ∧ P.rows.length < c.i := by
  obtain ⟨h1, -, h⟩ := h
  cases hst : c.state with
  | nextCup =>
    rw [hst] at h
    refine ⟨rfl, ?_⟩
    cases hd : P.rows.drop (c.i - 1) with
    | nil => have := List.drop_eq_nil_iff.mp hd; omega
    | cons row rows => rw [hd] at h; cases h
  | selectCondiment =>
    rw [hst] at h
    obtain ⟨cup, -, -, h⟩ := h
    simp at h
  | collectCondiment => rw [hst] at h; obtain ⟨_, _, -, -, -, h⟩ := h; cases h
  | findCups => rw [hst] at h; obtain ⟨_, -, -, h⟩ := h; cases h
  | dropCondiment => rw [hst] at h; obtain ⟨_, -, -, h⟩ := h; cases h
  | declareFinished => rw [hst] at h; obtain ⟨_, -, h⟩ := h; cases h

/-- **Runs end.** When there is a row for every order, a run with as many inputs as the script has
marks goes through the whole script and ends. -/
theorem controller_ends {P : Program} (hnat : ∀ row ∈ P.sortedOrder, row.Natural)
    (hn : P.n ≤ P.rows.length) {nextId : Nat} {inputs : List (Input κ)} {c : Config}
    {es : List Event} (h : controller P nextId inputs = .ok (c, es))
    (hlen : (script 1 P.rows).length ≤ inputs.length) :
    halted P c = true ∧ c.state = .nextCup ∧ es.map Event.mark = script 1 P.rows := by
  obtain ⟨ms, hms, hf⟩ := controller_follows hnat h
  have hnil : ms = [] := by
    rcases Run.exec_length h with hs | hes
    · exact (follows_halted hf hs).2
    · rw [hms, List.length_append, List.length_map, hes] at hlen
      exact List.eq_nil_of_length_eq_zero (by omega)
  subst hnil
  obtain ⟨hst, hi⟩ := follows_nil hf
  refine ⟨?_, hst, by rw [hms, List.append_nil]⟩
  have : P.n < c.i := lt_of_le_of_lt hn (by exact_mod_cast hi)
  simpa [halted] using this

end DrinkRobot
