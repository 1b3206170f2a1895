import DrinkRobot.Controller.Cups

/-!
# Where condiments are dropped

`currentCup_XY` is assigned by the search of state 4 when it finds a row, and read by state 5. It
is never reset, so it survives a search without a match.

* `drop_after_find`: every drop follows a visit to state 4 at once, and its target is what the
  search of that visit left in `currentCup_XY`.
* `drops_from_table_iff`: every drop is at a matching row of the table of the visit before it,
  exactly when the frames of these visits have enough circles of the drink's type.
* `one_target_iff`: when every visit sees the same circles in some order, the drops of each order
  are at one place exactly when its visits list a circle for the same place as its cup.
-/

namespace DrinkRobot

open OneBased

variable {κ : Type}

/-! ## The cup in the arm's program -/

/-- While an order is served, `cup` has the type of cup of its row. -/
def CupOf (P : Program) (c : Config) : Prop :=
  c.state = .nextCup ∨ ∃ cup row, c.cup = some cup ∧ 1 ≤ c.i ∧
    P.sortedOrder[c.i - 1]? = some row ∧ cup.cupType = row.cupType

theorem selectCondiment_cupType (cup : Row) : (selectCondiment cup).2.cupType = cup.cupType := by
  unfold selectCondiment
  split
  · rfl
  · split
    · rfl
    · split <;> rfl

theorem cupOf_step {P : Program} {c c' : Config} {inp : Input κ} {e : Event} (h : CupOf P c)
    (hstep : step P c inp = .ok (c', e)) : CupOf P c' := by
  have hcup : c.state ≠ .nextCup → ∃ cup row, c.cup = some cup ∧ 1 ≤ c.i ∧
      P.sortedOrder[c.i - 1]? = some row ∧ cup.cupType = row.cupType := h.resolve_left
  cases step_pass hstep with
  | @start cup hs hget =>
    obtain ⟨hv, hrow⟩ := get_eq_ok.mp hget
    exact .inr ⟨cup, cup, rfl, hv.1, hrow, rfl⟩
  | @select cup hs hcup' =>
    obtain ⟨cup', row, hc, hi, hrow, ht⟩ := hcup (by simp [hs])
    rw [hcup'] at hc
    cases hc
    exact .inr ⟨_, row, rfl, hi, hrow, (selectCondiment_cupType cup).trans ht⟩
  | collect hs hflag => exact .inr (hcup (by simp [hs]))
  | find hs hfind hcup' => exact .inr (hcup (by simp [hs]))
  | drop hs hxy hcup' => exact .inr (hcup (by simp [hs]))
  | declare hs hcup' => exact .inl rfl

theorem cupOf_run {P : Program} {nextId : Nat} {inputs : List (Input κ)} {c : Config}
    {es : List Event} (h : controller P nextId inputs = .ok (c, es)) : CupOf P c :=
  Run.exec_invariant (fun _ _ _ _ hi _ hstep => cupOf_step hi hstep) (.inl rfl) h

/-! ## Drops and the visits before them -/

/-- A pass that ends in state 5 is one of state 4. -/
theorem Pass.find_of_drop {P : Program} {inp : Input κ} {c c' : Config} {e : Event}
    (h : Pass P inp c c' e) (hs : c'.state = .dropCondiment) :
    ∃ cup nextId rows, c.state = .findCups ∧ e = .find c.i rows ∧ c'.i = c.i ∧ c.cup = some cup ∧
      findCups P.xyzPoints inp c.nextId = .ok (nextId, rows) ∧
      c'.currentCupXY = setTarget rows cup.cupType (countCups P.sortedOrder c.i cup.cupType)
        c.currentCupXY := by
  cases h with
  | start => cases hs
  | select => cases hs
  | collect => cases hs
  | @find cup nextId rows hst hfind hcup =>
    exact ⟨cup, nextId, rows, hst, rfl, rfl, hcup, hfind, rfl⟩
  | @drop cup =>
    exfalso
    simp only at hs
    split at hs <;> cases hs
  | declare => cases hs

/-- Pass `k` of the run is a visit to state 4 for order `i`, whose row is `row`; it sees `inp` and
searches the table `rows`. -/
structure VisitAt (P : Program) (inputs : List (Input κ)) (es : List Event) (k i : Nat)
    (row : Row) (rows : List SelectedCup) (inp : Input κ) : Prop where
  event : es[k]? = some (.find i rows)
  input : inputs[k]? = some inp
  cups : ∃ n nextId, findCups P.xyzPoints inp n = .ok (nextId, rows)
  pos : 1 ≤ i
  row : P.sortedOrder[i - 1]? = some row

section Run

variable {P : Program} {nextId : Nat} {inputs : List (Input κ)} {c : Config} {es : List Event}

/-- Every drop comes right after a visit to state 4, at what that visit left as its target. -/
theorem drop_after_find (h : controller P nextId inputs = .ok (c, es)) {k i : Nat} {xy : XY}
    (hk : es[k]? = some (.drop i xy)) :
    ∃ j row rows inp before, k = j + 1 ∧ VisitAt P inputs es j i row rows inp ∧
      setTarget rows row.cupType (countCups P.sortedOrder i row.cupType) before = some xy := by
  cases k with
  | zero =>
    -- the first pass starts in state 1
    obtain ⟨m, _, _, hm, -, -, hstep, -⟩ := Run.exec_at h hk
    rw [List.take_zero] at hm
    cases hm
    cases step_pass hstep with
    | drop hs => cases hs
  | succ j =>
    have hlt := (List.getElem?_eq_some_iff.mp hk).1
    obtain ⟨m, inp, m₁, inp₁, m₂, hm, hinp, hstep, hstep₁⟩ :=
      Run.exec_at_succ h (List.getElem?_eq_getElem (show j < es.length by omega)) hk
    cases step_pass hstep₁ with
    | drop hs hxy =>
      obtain ⟨cup, n', rows, hst, he, hi, hcup, hfind, htarget⟩ := (step_pass hstep).find_of_drop hs
      obtain ⟨cup', row, hcup', hi1, hrow, ht⟩ := (cupOf_run hm).resolve_left (by simp [hst])
      rw [hcup] at hcup'
      cases hcup'
      rw [hi]
      refine ⟨j, row, rows, inp, m.currentCupXY, rfl, ⟨?_, hinp, ⟨_, n', hfind⟩, hi1, hrow⟩, ?_⟩
      · rw [List.getElem?_eq_getElem (by omega), he]
      · rw [← ht, ← htarget, hxy]

/-- A visit to state 4 that is not the last pass of the run is followed by a drop. -/
theorem find_before_drop (h : controller P nextId inputs = .ok (c, es)) {k i : Nat}
    {rows : List SelectedCup} (hk : es[k]? = some (.find i rows)) (hlt : k + 1 < es.length) :
    ∃ xy, es[k + 1]? = some (.drop i xy) := by
  obtain ⟨e, he⟩ : ∃ e, es[k + 1]? = some e := ⟨_, List.getElem?_eq_getElem hlt⟩
  obtain ⟨m, inp, m₁, inp₁, m₂, -, -, hstep, hstep₁⟩ := Run.exec_at_succ h hk he
  rw [he]
  cases step_pass hstep with
  | find hs =>
    cases step_pass hstep₁ with
    | @drop cup xy => exact ⟨xy, rfl⟩
    | start hs' => cases hs'
    | select hs' => cases hs'
    | collect hs' => cases hs'
    | find hs' => cases hs'
    | declare hs' => cases hs'

end Run

/-! ## The table before a drop -/

/-- The row `r` is for the cup of order `i`. -/
def CupRowFor (P : Program) (i : Nat) (r : SelectedCup) : Prop :=
  ∃ row, P.sortedOrder[i - 1]? = some row ∧ (r.cupType : ℚ) = row.cupType ∧
    r.cupNumber = countCups P.sortedOrder i row.cupType

/-- Every drop for an order is made at the position, within the limits, of a row for its cup in
the table of the pass before it. -/
def DropsFromTable (P : Program) (es : List Event) : Prop :=
  ∀ k i xy, es[k]? = some (.drop i xy) → ∃ j rows r, k = j + 1 ∧ es[j]? = some (.find i rows) ∧
    r ∈ rows ∧ CupRowFor P i r ∧ xy = limitXY r.xy

/-- Every frame that a visit to state 4 saw, if another pass followed it, has as many circles of
the type of the drink's cup as there are orders for this type up to the drink. -/
def CupsInView (P : Program) (inputs : List (Input κ)) (es : List Event) : Prop :=
  ∀ (k i : Nat) rows inp row, es[k]? = some (.find i rows) → k + 1 < es.length →
    inputs[k]? = some inp → P.sortedOrder[i - 1]? = some row →
    countCups P.sortedOrder i row.cupType ≤
      (Rank.ofClass Circle.column3 row.cupType inp.frame.circles).length

theorem searchCup_some {rows : List SelectedCup} {cupType : ℚ} {cupNumber : Nat} {r : SelectedCup}
    (h : searchCup rows cupType cupNumber = some r) :
    r ∈ rows ∧ (r.cupType : ℚ) = cupType ∧ r.cupNumber = cupNumber := by
  have hp := List.find?_some h
  simp only [Bool.and_eq_true, decide_eq_true_eq] at hp
  exact ⟨List.mem_of_find?_eq_some h, hp⟩

theorem searchCup_of_mem {rows : List SelectedCup} {r : SelectedCup} (h : r ∈ rows) :
    ∃ r', searchCup rows r.cupType r.cupNumber = some r' := by
  cases hs : searchCup rows r.cupType r.cupNumber with
  | some r' => exact ⟨r', rfl⟩
  | none => exact absurd (by simp) (List.find?_eq_none.mp hs r h)

/-- The search of a visit finds a row exactly when the frame has enough circles of the type. -/
theorem VisitAt.search_iff {P : Program} {inputs : List (Input κ)} {es : List Event} {k i : Nat}
    {row : Row} {rows : List SelectedCup} {inp : Input κ}
    (h : VisitAt P inputs es k i row rows inp) :
    (∃ r, searchCup rows row.cupType (countCups P.sortedOrder i row.cupType) = some r) ↔
      countCups P.sortedOrder i row.cupType ≤
        (Rank.ofClass Circle.column3 row.cupType inp.frame.circles).length := by
  obtain ⟨n, nextId, hfind⟩ := h.cups
  have hnone := searchCup_eq_none_iff_lt (tableOf_findCups hfind) (t := row.cupType)
    (countCups_pos h.pos h.row)
  have hlen : (Rank.ofClass Circle.column3 row.cupType (listed inp.frame)).length =
      (Rank.ofClass Circle.column3 row.cupType inp.frame.circles).length :=
    ((listed_perm inp.frame).filter _).length_eq
  rw [hlen] at hnone
  rw [← not_lt, ← hnone, ← Ne, Option.ne_none_iff_exists']

/-- **When drops use the table before them.** In every run, as far as it goes without error, every
drop is made at a matching row of the table of the visit to state 4 right before it exactly when
every frame seen by a visit that another pass follows has enough circles of the drink's type. -/
theorem drops_from_table_iff (P : Program) (nextId : Nat) (inputs : List (Input κ)) (c : Config)
    (es : List Event) (h : controller P nextId inputs = .ok (c, es)) :
    DropsFromTable P es ↔ CupsInView P inputs es := by
  constructor
  · intro hdrops k i rows inp row hk hlt hinp hrow
    -- the pass after a visit to state 4 is a drop
    obtain ⟨xy, hxy⟩ := find_before_drop h hk hlt
    obtain ⟨j, row', rows', inp', before, hj, hvisit, -⟩ := drop_after_find h hxy
    obtain ⟨j', rows'', r, hj', hfind, hr, ⟨row'', hrow'', ht, hn⟩, -⟩ := hdrops _ _ _ hxy
    obtain ⟨rfl, rfl⟩ : k = j ∧ k = j' := by omega
    obtain rfl := Option.some.inj (hinp.symm.trans hvisit.input)
    obtain rfl := Option.some.inj (hrow.symm.trans hvisit.row)
    obtain rfl := Option.some.inj (hrow.symm.trans hrow'')
    cases Option.some.inj (hfind.symm.trans hvisit.event)
    refine hvisit.search_iff.mp ?_
    rw [← hn, ← ht]
    exact searchCup_of_mem hr
  · intro hcups k i xy hk
    obtain ⟨j, row, rows, inp, before, rfl, hvisit, htarget⟩ := drop_after_find h hk
    have hlt := (List.getElem?_eq_some_iff.mp hk).1
    obtain ⟨r, hr⟩ := hvisit.search_iff.mpr
      (hcups j i rows inp row hvisit.event hlt hvisit.input hvisit.row)
    obtain ⟨hmem, ht, hn⟩ := searchCup_some hr
    rw [setTarget, hr] at htarget
    cases htarget
    exact ⟨j, rows, r, rfl, hvisit.event, hmem, ⟨row, hvisit.row, ht, hn⟩, rfl⟩

/-- One drink with two coffees, for a medium cup, and one more drink. -/
def twoCoffees : Program where
  n := 2
  sortedOrder := [⟨1, 1, 2, 0, 0, 0, 1⟩, ⟨2, 1, 1, 0, 0, 0, 0⟩]
  xyzPoints := flatCloud

/-- A pass that sees the circles `cs` and an arm that reaches everything. -/
def passSeeing (cs : List Circle) : Input (ℚ × ℚ) := ⟨stillFrame cs, fun _ => true⟩

/-- The cup is seen in the first round and not in the second: the second drop is made where the
first one was, without a row. -/
def cupCovered : List (Input (ℚ × ℚ)) :=
  List.replicate 5 (passSeeing [⟨100, 100, 20⟩]) ++ List.replicate 4 (passSeeing [])

theorem covered_cup_reuses_target :
    ∃ c es, controller twoCoffees 1 cupCovered = .ok (c, es) ∧ ¬ DropsFromTable twoCoffees es := by
  obtain ⟨⟨c, es⟩, hrun⟩ := Run.exists_ok (x := controller twoCoffees 1 cupCovered)
    (by decide +kernel)
  have hes : (controller twoCoffees 1 cupCovered).toOption.map (fun p => (p.2[7]?, p.2[8]?)) =
      some (some (.find 1 []), some (.drop 1 ⟨some (159 / 10), some (63 / 10)⟩)) := by
    decide +kernel
  rw [hrun] at hes
  simp only [Except.toOption, Option.map_some, Option.some.injEq, Prod.mk.injEq] at hes
  refine ⟨c, es, hrun, fun hdrops => ?_⟩
  obtain ⟨j, rows, r, hj, hfind, hr, -⟩ := hdrops 8 1 _ hes.2
  obtain rfl : j = 7 := by omega
  rw [hes.1] at hfind
  cases hfind
  cases hr

theorem drops_from_table_still :
    ∃ c es, controller twoCoffees 1 (List.replicate 10 (passSeeing [⟨100, 100, 20⟩])) =
        .ok (c, es) ∧ (DropsFromTable twoCoffees es ↔ CupsInView twoCoffees
          (List.replicate 10 (passSeeing [⟨100, 100, 20⟩])) es) := by
  obtain ⟨⟨c, es⟩, hrun⟩ := Run.exists_ok
    (x := controller twoCoffees 1 (List.replicate 10 (passSeeing [⟨100, 100, 20⟩])))
    (by decide +kernel)
  exact ⟨c, es, hrun, drops_from_table_iff twoCoffees 1 _ c es hrun⟩

/-! ## One target for a drink -/

/-- Where the circle `c` is dropped at. -/
def PointCloud.target (xyzPoints : PointCloud) (c : Circle) : XY :=
  limitXY (xyzPoints.centimetres (xyzPoints.cell c.corner).1 (xyzPoints.cell c.corner).2)

/-- The circle of the frame that is listed as the cup of order `i`: of its type, the one with the
number of the order among the orders for this type. -/
def drinkCup (P : Program) (i : Nat) (fr : Frame κ) : Option Circle :=
  match P.sortedOrder[i - 1]? with
  | some row => (Rank.ofClass Circle.column3 row.cupType
      (listed fr))[countCups P.sortedOrder i row.cupType - 1]?
  | none => none

theorem drinkCup_eq {P : Program} {i : Nat} {row : Row} (hrow : P.sortedOrder[i - 1]? = some row)
    (fr : Frame κ) :
    drinkCup P i fr = (Rank.ofClass Circle.column3 row.cupType
      (listed fr))[countCups P.sortedOrder i row.cupType - 1]? := by
  rw [drinkCup, hrow]

/-- What a visit leaves in `currentCup_XY`. -/
theorem setTarget_eq {P : Program} {inp : Input κ} {n nextId i : Nat} {rows : List SelectedCup}
    {row : Row} (hfind : findCups P.xyzPoints inp n = .ok (nextId, rows)) (hi : 1 ≤ i)
    (hrow : P.sortedOrder[i - 1]? = some row) (before : Option XY) :
    setTarget rows row.cupType (countCups P.sortedOrder i row.cupType) before =
      ((drinkCup P i inp.frame).map P.xyzPoints.target).or before := by
  have htable := tableOf_findCups hfind
  obtain ⟨XYs, hXYs, hrows⟩ := findCups_ok hfind
  replace hXYs := metric_ok hXYs
  rw [drinkCup_eq hrow, setTarget]
  cases hs : searchCup rows row.cupType (countCups P.sortedOrder i row.cupType) with
  | some r =>
    obtain ⟨d, hd⟩ := List.getElem?_of_mem (List.mem_of_find?_eq_some hs)
    have hk := (selects_iff htable).mp ⟨r, hs, hd⟩
    rw [hrows] at hd
    obtain ⟨c, hc, hxy, -⟩ := selectedCups_getElem? hd
    rw [hk.getElem?, hc]
    rw [hXYs, List.map_map, List.getElem?_map, circleRows_getElem?, hc] at hxy
    show some (limitXY r.xy) = some (P.xyzPoints.target c)
    rw [← Option.some.inj hxy]
    rfl
  | none =>
    have := (searchCup_eq_none_iff_lt htable (countCups_pos hi hrow)).mp hs
    rw [List.getElem?_eq_none (by omega)]
    rfl

/-- Every visit to state 4 sees the circles `S`, in some order. -/
def SameScene (S : List Circle) (inputs : List (Input κ)) (es : List Event) : Prop :=
  ∀ (k i : Nat) rows inp, es[k]? = some (.find i rows) → inputs[k]? = some inp →
    inp.frame.circles.Perm S

/-- All drops for an order are made at the same target. -/
def OneTarget (es : List Event) : Prop :=
  ∀ (k k' i : Nat) xy xy', es[k]? = some (.drop i xy) → es[k']? = some (.drop i xy') → xy = xy'

/-- The visits for an order that another pass follows list circles with the same target as its
cup. -/
def SameCup (P : Program) (inputs : List (Input κ)) (es : List Event) : Prop :=
  ∀ (k k' i : Nat) rows rows' inp inp',
    es[k]? = some (.find i rows) → es[k']? = some (.find i rows') →
    k + 1 < es.length → k' + 1 < es.length → inputs[k]? = some inp → inputs[k']? = some inp' →
    (drinkCup P i inp.frame).map P.xyzPoints.target =
      (drinkCup P i inp'.frame).map P.xyzPoints.target

/-- In one scene either every frame lists a circle as the cup of an order or none does. -/
theorem drinkCup_isSome {P : Program} {S : List Circle} {fr fr' : Frame κ} (i : Nat)
    (h : fr.circles.Perm S) (h' : fr'.circles.Perm S) :
    (drinkCup P i fr).isSome = (drinkCup P i fr').isSome := by
  cases hrow : P.sortedOrder[i - 1]? with
  | none => simp [drinkCup, hrow]
  | some row =>
    have hperm : (listed fr).Perm (listed fr') :=
      ((listed_perm fr).trans h).trans ((listed_perm fr').trans h').symm
    have hlen : (Rank.ofClass Circle.column3 row.cupType (listed fr)).length =
        (Rank.ofClass Circle.column3 row.cupType (listed fr')).length :=
      (hperm.filter _).length_eq
    rw [drinkCup_eq hrow, drinkCup_eq hrow, Bool.eq_iff_iff]
    simp only [Option.isSome_iff_ne_none, ne_eq, List.getElem?_eq_none_iff, hlen]

/-! ### A target that no visit changes -/

/-- What a run carries while the visits for order `i` list no circle as its cup: the events are of
orders up to the one the loop is at, and the drops for `i` were made at `currentCup_XY`. -/
structure TargetKept (P : Program) (i : Nat) (log : List (Event × Input κ)) (c : Config) :
    Prop where
  cupOf : CupOf P c
  le : ∀ p ∈ log, p.1.place.1 ≤ c.i
  lt : c.state = .nextCup → ∀ p ∈ log, p.1.place.1 < c.i
  kept : (∀ rows inp, (Event.find i rows, inp) ∈ log → drinkCup P i inp.frame = none) → c.i = i →
    ∀ xy inp, (Event.drop i xy, inp) ∈ log → c.currentCupXY = some xy

theorem TargetKept.le_snoc {P : Program} {i : Nat} {log : List (Event × Input κ)} {c : Config}
    {inp : Input κ} {e : Event} (h : TargetKept P i log c) (he : e.place.1 = c.i) :
    ∀ p ∈ log ++ [(e, inp)], p.1.place.1 ≤ c.i := by
  intro p hp
  rcases List.mem_append.mp hp with hp | hp
  · exact h.le p hp
  · rw [List.mem_singleton.mp hp, he]

/-- An event that is no drop for `i` and leaves `currentCup_XY` adds nothing to keep. -/
theorem TargetKept.kept_snoc {P : Program} {i : Nat} {log : List (Event × Input κ)} {c c' : Config}
    {inp : Input κ} {e : Event} (h : TargetKept P i log c) (hne : ∀ xy, e ≠ .drop i xy)
    (hxy : c'.currentCupXY = c.currentCupXY)
    (hnone : ∀ rows inp', (Event.find i rows, inp') ∈ log ++ [(e, inp)] →
      drinkCup P i inp'.frame = none) (hi : c.i = i) :
    ∀ xy inp', (Event.drop i xy, inp') ∈ log ++ [(e, inp)] → c'.currentCupXY = some xy := by
  intro xy inp' hmem
  rw [hxy]
  refine h.kept (fun rows inp' hin => hnone rows inp' (List.mem_append_left _ hin)) hi xy inp' ?_
  rcases List.mem_append.mp hmem with hin | hin
  · exact hin
  · cases List.mem_singleton.mp hin
    exact absurd rfl (hne xy)

theorem targetKept_step {P : Program} {i : Nat} {log : List (Event × Input κ)} {c c' : Config}
    {inp : Input κ} {e : Event} (h : TargetKept P i log c) (hstep : step P c inp = .ok (c', e)) :
    TargetKept P i (log ++ [(e, inp)]) c' := by
  have hle : ∀ p ∈ log ++ [(e, inp)], p.1.place.1 ≤ c.i :=
    h.le_snoc (congrArg Prod.fst (step_pass hstep).place)
  have hcup := cupOf_step h.cupOf hstep
  cases step_pass hstep with
  | start hs hget =>
    exact ⟨hcup, hle, fun hs' => (by cases hs'), h.kept_snoc (fun _ he => (by cases he)) rfl⟩
  | select hs hcup' =>
    exact ⟨hcup, hle, fun hs' => (by cases hs'), h.kept_snoc (fun _ he => (by cases he)) rfl⟩
  | collect hs hflag =>
    exact ⟨hcup, hle, fun hs' => (by cases hs'), h.kept_snoc (fun _ he => (by cases he)) rfl⟩
  | @find cup nextId rows hs hfind hcup' =>
    refine ⟨hcup, hle, fun hs' => (by cases hs'), fun hnone hi => ?_⟩
    -- no circle of the type is in view, so the old target stays
    refine h.kept_snoc (fun _ he => by cases he) ?_ hnone hi
    obtain ⟨cup', row, hc, hi1, hrow, ht⟩ := h.cupOf.resolve_left (by simp [hs])
    rw [hcup'] at hc
    cases hc
    subst hi
    have := hnone rows inp (by simp)
    rw [show setTarget rows cup.cupType (countCups P.sortedOrder c.i cup.cupType)
      c.currentCupXY = _ from ht ▸ setTarget_eq hfind hi1 hrow c.currentCupXY, this]
    rfl
  | @drop cup xy hs hxy hcup' =>
    refine ⟨hcup, hle, fun hs' => ?_, fun hnone hi xy' inp' hmem => ?_⟩
    · simp only at hs'
      split at hs' <;> cases hs'
    · rcases List.mem_append.mp hmem with hin | hin
      · exact h.kept (fun rows inp' hin => hnone rows inp' (List.mem_append_left _ hin)) hi xy' inp'
          hin
      · cases List.mem_singleton.mp hin
        exact hxy
  | declare hs hcup' =>
    refine ⟨hcup, fun p hp => Nat.le_succ_of_le (hle p hp),
      fun _ p hp => Nat.lt_succ_of_le (hle p hp), fun _ hi xy inp' hmem => ?_⟩
    have : i ≤ c.i := hle _ hmem
    simp only at hi
    omega

theorem mem_zip_take {α β : Type} {xs : List α} {ys : List β} {n : Nat} {p : α × β} :
    p ∈ (xs.take n).zip (ys.take n) ↔ ∃ k : Nat, k < n ∧ xs[k]? = some p.1 ∧ ys[k]? = some p.2 := by
  simp only [List.mem_iff_getElem?, List.getElem?_zip_eq_some]
  refine exists_congr fun k => ?_
  rw [List.getElem?_take, List.getElem?_take]
  by_cases hk : k < n <;> simp [hk]

section Run

variable {P : Program} {S : List Circle} {nextId : Nat} {inputs : List (Input κ)} {c : Config}
  {es : List Event}

/-- A drop is made at the target of the circle that the visit before it lists as the cup. -/
theorem target_of_drop (h : controller P nextId inputs = .ok (c, es)) {k i : Nat}
    {inp : Input κ} {xy : XY} (hinp : inputs[k]? = some inp) (hxy : es[k + 1]? = some (.drop i xy))
    (circle : Circle) (hcup : drinkCup P i inp.frame = some circle) :
    P.xyzPoints.target circle = xy := by
  obtain ⟨j, row, rows', inp', before, hj, hvisit, htarget⟩ := drop_after_find h hxy
  obtain rfl : k = j := by omega
  have hinp' := hvisit.input
  rw [hinp] at hinp'
  cases hinp'
  obtain ⟨n, nextId', hfind⟩ := hvisit.cups
  rw [setTarget_eq hfind hvisit.pos hvisit.row, hcup] at htarget
  exact Option.some.inj htarget

theorem drops_kept_of_lt (h : controller P nextId inputs = .ok (c, es)) {k k' i : Nat} {xy xy' : XY}
    (hnone : ∀ (j : Nat) rows inp, es[j]? = some (.find i rows) → inputs[j]? = some inp →
      drinkCup P i inp.frame = none)
    (hk : es[k]? = some (.drop i xy)) (hk' : es[k']? = some (.drop i xy')) (hlt : k < k') :
    xy = xy' := by
  obtain ⟨m, inp', m', hm, -, -, hstep, -⟩ := Run.exec_at h hk'
  have hkept : TargetKept P i ((es.take k').zip (inputs.take k')) m :=
    Run.exec_history (fun _ _ _ _ _ ht _ hs => targetKept_step ht hs) []
      ⟨.inl rfl, fun _ hp => (by cases hp), fun _ _ hp => (by cases hp),
        fun _ _ _ _ hp => (by cases hp)⟩ hm
  obtain ⟨n, inp, n', -, hinp, -⟩ := Run.exec_at h hk
  cases step_pass hstep with
  | drop hs hxy =>
    have hmem : (Event.drop m.i xy, inp) ∈ (es.take k').zip (inputs.take k') :=
      mem_zip_take.mpr ⟨k, hlt, hk, hinp⟩
    have hall : ∀ rows inp, (Event.find m.i rows, inp) ∈ (es.take k').zip (inputs.take k') →
        drinkCup P m.i inp.frame = none := by
      intro rows inp hp
      obtain ⟨j, -, he, hi⟩ := mem_zip_take.mp hp
      exact hnone j rows inp he hi
    have := hkept.kept hall rfl xy inp hmem
    rw [hxy] at this
    exact (Option.some.inj this).symm

/-- When no visit for an order lists a circle as its cup, its drops are all where the first is. -/
theorem drops_kept (h : controller P nextId inputs = .ok (c, es)) {k k' i : Nat} {xy xy' : XY}
    (hnone : ∀ (j : Nat) rows inp, es[j]? = some (.find i rows) → inputs[j]? = some inp →
      drinkCup P i inp.frame = none)
    (hk : es[k]? = some (.drop i xy)) (hk' : es[k']? = some (.drop i xy')) : xy = xy' := by
  rcases Nat.lt_trichotomy k k' with hlt | rfl | hgt
  · exact drops_kept_of_lt h hnone hk hk' hlt
  · rw [hk] at hk'
    cases hk'
    rfl
  · exact (drops_kept_of_lt h hnone hk' hk hgt).symm

/-- In one scene either every visit for an order lists a circle as its cup or none does. -/
theorem SameScene.isSome_eq (hscene : SameScene S inputs es) {k k' i : Nat}
    {rows rows' : List SelectedCup} {inp inp' : Input κ} (hk : es[k]? = some (.find i rows))
    (hk' : es[k']? = some (.find i rows')) (hinp : inputs[k]? = some inp)
    (hinp' : inputs[k']? = some inp') :
    (drinkCup P i inp.frame).isSome = (drinkCup P i inp'.frame).isSome :=
  drinkCup_isSome i (hscene k i rows inp hk hinp) (hscene k' i rows' inp' hk' hinp')

theorem sameCup_of_oneTarget (h : controller P nextId inputs = .ok (c, es))
    (hscene : SameScene S inputs es) (hone : OneTarget es) : SameCup P inputs es := by
  intro k k' i rows rows' inp inp' hk hk' hlt hlt' hinp hinp'
  obtain ⟨xy, hxy⟩ := find_before_drop h hk hlt
  obtain ⟨xy', hxy'⟩ := find_before_drop h hk' hlt'
  obtain rfl := hone _ _ i xy xy' hxy hxy'
  have hsome := hscene.isSome_eq (P := P) hk hk' hinp hinp'
  cases hc : drinkCup P i inp.frame with
  | none =>
    rw [hc, Option.isSome_none] at hsome
    rw [Option.isNone_iff_eq_none.mp (Option.isSome_eq_false_iff.mp hsome.symm)]
  | some circle =>
    rw [hc, Option.isSome_some] at hsome
    obtain ⟨circle', hc'⟩ := Option.isSome_iff_exists.mp hsome.symm
    rw [hc', Option.map_some, Option.map_some, target_of_drop h hinp hxy circle hc,
      target_of_drop h hinp' hxy' circle' hc']

theorem oneTarget_of_sameCup (h : controller P nextId inputs = .ok (c, es))
    (hscene : SameScene S inputs es) (hsame : SameCup P inputs es) : OneTarget es := by
  intro k k' i xy xy' hk hk'
  obtain ⟨j, row, rows, inp, _, rfl, hvisit, -⟩ := drop_after_find h hk
  obtain ⟨j', row', rows', inp', _, rfl, hvisit', -⟩ := drop_after_find h hk'
  cases hc : drinkCup P i inp.frame with
  | none =>
    refine drops_kept (P := P) h (fun j₁ rows₁ inp₁ he hi => ?_) hk hk'
    have := hscene.isSome_eq (P := P) hvisit.event he hvisit.input hi
    rw [hc, Option.isSome_none] at this
    simpa using this.symm
  | some circle =>
    have hsome := hscene.isSome_eq (P := P) hvisit.event hvisit'.event hvisit.input hvisit'.input
    rw [hc, Option.isSome_some] at hsome
    obtain ⟨circle', hc'⟩ := Option.isSome_iff_exists.mp hsome.symm
    have := hsame j j' i rows rows' inp inp' hvisit.event hvisit'.event
      (List.getElem?_eq_some_iff.mp hk).1 (List.getElem?_eq_some_iff.mp hk').1 hvisit.input
      hvisit'.input
    rw [hc, hc', Option.map_some, Option.map_some, target_of_drop h hvisit.input hk circle hc,
      target_of_drop h hvisit'.input hk' circle' hc'] at this
    exact Option.some.inj this

end Run

/-- **When a drink gets one target.** In every run, as far as it goes without error, in which
every visit to state 4 sees the same circles in some order: the drops for each order are made at
one target exactly when its visits list circles with one target as its cup. -/
theorem one_target_iff (P : Program) (S : List Circle) (nextId : Nat) (inputs : List (Input κ))
    (c : Config) (es : List Event) (h : controller P nextId inputs = .ok (c, es))
    (hscene : SameScene S inputs es) : OneTarget es ↔ SameCup P inputs es :=
  ⟨sameCup_of_oneTarget h hscene, oneTarget_of_sameCup h hscene⟩

/-- The same two cups in every round, listed in the other order in the second one. -/
def cupsSwapped : List (Input (ℚ × ℚ)) :=
  List.replicate 5 (passSeeing [⟨100, 100, 20⟩, ⟨200, 200, 20⟩]) ++
    List.replicate 4 (passSeeing [⟨200, 200, 20⟩, ⟨100, 100, 20⟩])

theorem cupsSwapped_scene {inp : Input (ℚ × ℚ)} (h : inp ∈ cupsSwapped) :
    inp.frame.circles.Perm [⟨100, 100, 20⟩, ⟨200, 200, 20⟩] := by
  rcases List.mem_append.mp h with h | h
  · rw [(List.mem_replicate.mp h).2]
    exact List.Perm.refl _
  · rw [(List.mem_replicate.mp h).2]
    exact List.Perm.swap _ _ _

/-- The two coffees of the drink are dropped into different cups. -/
theorem swapped_cups_split_drink :
    ∃ c es, controller twoCoffees 1 cupsSwapped = .ok (c, es) ∧
      SameScene [⟨100, 100, 20⟩, ⟨200, 200, 20⟩] cupsSwapped es ∧ ¬ OneTarget es := by
  obtain ⟨⟨c, es⟩, hrun⟩ := Run.exists_ok (x := controller twoCoffees 1 cupsSwapped)
    (by decide +kernel)
  have hes : (controller twoCoffees 1 cupsSwapped).toOption.map (fun p => (p.2[4]?, p.2[8]?)) =
      some (some (.drop 1 ⟨some (159 / 10), some (63 / 10)⟩),
        some (.drop 1 ⟨some (149 / 10), some (73 / 10)⟩)) := by
    decide +kernel
  rw [hrun] at hes
  simp only [Except.toOption, Option.map_some, Option.some.injEq, Prod.mk.injEq] at hes
  refine ⟨c, es, hrun, fun k i rows inp _ hinp => cupsSwapped_scene (List.mem_of_getElem? hinp),
    fun hone => ?_⟩
  have := hone 4 8 1 _ _ hes.1 hes.2
  revert this
  decide +kernel

theorem one_target_swapped :
    ∃ c es, controller twoCoffees 1 cupsSwapped = .ok (c, es) ∧
      (OneTarget es ↔ SameCup twoCoffees cupsSwapped es) := by
  obtain ⟨⟨c, es⟩, hrun⟩ := Run.exists_ok (x := controller twoCoffees 1 cupsSwapped)
    (by decide +kernel)
  exact ⟨c, es, hrun, one_target_iff twoCoffees [⟨100, 100, 20⟩, ⟨200, 200, 20⟩] 1 cupsSwapped c es
    hrun fun k i rows inp _ hinp => cupsSwapped_scene (List.mem_of_getElem? hinp)⟩

end DrinkRobot
