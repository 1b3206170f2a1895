import DrinkRobot.Controller.Model
import DrinkRobot.Tracker.Table

/-!
# Which cup state 4 selects

State 4 calls the tracker without tracks, so the table has a row for every detection, and searches
it for the type of the drink's cup and the number of the drink among the orders of that type.

* `call_everything`: the table of a call lists all circles of the frame.
* `selects_iff`: the search takes the row of the `k`-th circle of the type, if there is one.
* `countCups_isKth`: order `i` is the `countCups`-th order for its type.
* `no_shared_cups`: two orders are never served into the same circle of one list.
-/

namespace DrinkRobot

open OneBased

variable {κ : Type}

/-! ## The table of a call -/

/-- The circles of a frame in the order in which a call without tracks lists them. -/
def listed (fr : Frame κ) : List Circle := (callUnassigned fr).map (seen fr.circles)

theorem listed_perm (fr : Frame κ) : (listed fr).Perm fr.circles :=
  map_nth_perm noCircle (callUnassigned_perm fr)

theorem length_listed (fr : Frame κ) : (listed fr).length = fr.circles.length :=
  (listed_perm fr).length_eq

/-- With no tracks, `assignDetectionsToTracks` reports every detection as unassigned, in order. -/
def Toolbox.ListsInOrder (tb : Toolbox κ) : Prop :=
  ∀ nDetections cost costOfNonAssignment,
    (tb.assignDetectionsToTracks 0 nDetections cost costOfNonAssignment).freeRight =
      List.range' 1 nDetections

theorem listed_eq {fr : Frame κ} (h : fr.toolbox.ListsInOrder) : listed fr = fr.circles := by
  have : callUnassigned fr = List.range' 1 (fr.circles.map Circle.centre).length := h _ _ _
  rw [listed, this, List.length_map]
  exact map_nth_range' noCircle fr.circles

theorem survivingTracks_callStart (fr : Frame κ) (Nid : Nat) :
    survivingTracks fr (callStart Nid) = [] := by
  simp [survivingTracks, survivors, advanced, predictedTracks, callStart, initializeTracks]

/-- A call without tracks raises no error, and its table lists all circles of the frame. -/
theorem call_everything (fr : Frame κ) (Nid : Nat) :
    multiObjectTrackingHCNew fr initializeTracks Nid =
      .ok (Nid + fr.circles.length, circleRows (listed fr)) := by
  rw [multiObjectTrackingHCNew_eq (trackFrame_eq fr _), reportFrame_nextId, reportFrame_everything,
    trackFrame_nextId (trackFrame_eq fr _), callStart_freeRight, length_callUnassigned]
  by_cases hfr : fr.circles = []
  · have hlisted : listed fr = [] := by
      rw [← List.length_eq_zero_iff, length_listed, hfr, List.length_nil]
    simp only [if_pos hfr, hlisted]
    rw [hfr]
    rfl
  · simp only [if_neg hfr]
    rw [reliable_afterDetections, survivingTracks_callStart, if_pos List.filter_nil,
      ← fillEverything_circles]
    rfl

theorem findCups_ok {xyzPoints : PointCloud} {inp : Input κ} {Nid nextId : Nat}
    {rows : List SelectedCup} (h : findCups xyzPoints inp Nid = .ok (nextId, rows)) :
    ∃ XYs, metric xyzPoints ((circleRows (listed inp.frame)).map fun r => (r.left, r.top)) =
      .ok XYs ∧ rows = selectedCups XYs (circleRows (listed inp.frame)) := by
  unfold findCups at h
  rw [call_everything] at h
  obtain ⟨XYs, hXYs, h⟩ := Run.bind_ok.mp (show (metric _ _ >>= _) = _ from h)
  cases h
  exact ⟨XYs, hXYs, rfl⟩

/-! ## The search -/

/-- `rows` is a table that state 4 searches when the circles `cs` are listed: some position in
centimetres for each circle, with its type and number. -/
def TableOf (cs : List Circle) (rows : List SelectedCup) : Prop :=
  ∃ XYs : List XY, XYs.length = cs.length ∧ rows = selectedCups XYs (circleRows cs)

theorem tableOf_findCups {xyzPoints : PointCloud} {inp : Input κ} {Nid nextId : Nat}
    {rows : List SelectedCup} (h : findCups xyzPoints inp Nid = .ok (nextId, rows)) :
    TableOf (listed inp.frame) rows := by
  obtain ⟨XYs, hXYs, rfl⟩ := findCups_ok h
  exact ⟨XYs, by rw [metric_ok hXYs]; simp, rfl⟩

theorem circleRows_getElem? (cs : List Circle) (d : Nat) :
    (circleRows cs)[d]? = cs[d]?.map fun c => ⟨c.corner.1, c.corner.2, c.cupType,
      (Rank.ofClass Circle.cupType c.cupType (cs.take d)).length + 1⟩ := by
  rw [circleRows, Rank.rows, List.map_map, List.getElem?_map, Rank.getElem?_number, Option.map_map]
  rfl

theorem selectedCups_getElem? {XYs : List XY} {cs : List Circle} {d : Nat} {r : SelectedCup}
    (h : (selectedCups XYs (circleRows cs))[d]? = some r) :
    ∃ c, cs[d]? = some c ∧ XYs[d]? = some r.xy ∧ r.cupType = c.cupType ∧
      r.cupNumber = (Rank.ofClass Circle.cupType c.cupType (cs.take d)).length + 1 := by
  rw [selectedCups, List.getElem?_zipWith_eq_some] at h
  obtain ⟨xy, row, hxy, hrow, rfl⟩ := h
  rw [circleRows_getElem?] at hrow
  obtain ⟨c, hc, rfl⟩ := Option.map_eq_some_iff.mp hrow
  exact ⟨c, hc, hxy, rfl, rfl⟩

theorem length_tableOf {cs : List Circle} {rows : List SelectedCup} (h : TableOf cs rows) :
    rows.length = cs.length := by
  obtain ⟨XYs, hlen, rfl⟩ := h
  rw [selectedCups, List.length_zipWith, length_circleRows, hlen, Nat.min_self]

/-- State 4 takes the row of circle `d`. -/
def Selects (rows : List SelectedCup) (cupType : ℚ) (cupNumber d : Nat) : Prop :=
  ∃ r, searchCup rows cupType cupNumber = some r ∧ rows[d]? = some r

/-- The type of a circle as the search compares it. -/
def Circle.column3 (c : Circle) : ℚ := c.cupType

/-- The row that is taken is the one of the `k`-th circle of the type. -/
theorem selects_iff {cs : List Circle} {rows : List SelectedCup} (h : TableOf cs rows) {t : ℚ}
    {k d : Nat} : Selects rows t k d ↔ Rank.IsKth Circle.column3 t k cs d := by
  have hlen := length_tableOf h
  obtain ⟨XYs, -, rfl⟩ := h
  unfold Selects searchCup
  rw [Rank.find?_iff Circle.column3 t k cs]
  · rw [hlen]
    exact ⟨fun hk => hk.2, fun hk => ⟨hk.lt, hk⟩⟩
  · intro j r hr
    obtain ⟨c, hc, -, ht, hk⟩ := selectedCups_getElem? hr
    have hrank : Rank.ofClass Circle.column3 c.cupType (cs.take j) =
        Rank.ofClass Circle.cupType c.cupType (cs.take j) :=
      Rank.ofClass_comp Nat.cast_injective _ _
    simp only [Bool.and_eq_true, decide_eq_true_eq, ht, hk]
    constructor
    · rintro ⟨rfl, rfl⟩
      exact ⟨c, hc, rfl, by rw [hrank]⟩
    · rintro ⟨c', hc', rfl, rfl⟩
      rw [hc] at hc'
      cases hc'
      exact ⟨rfl, by rw [← hrank]; rfl⟩

theorem selects_cupType_iff {cs : List Circle} {rows : List SelectedCup} (h : TableOf cs rows)
    {t k d : Nat} : Selects rows t k d ↔ Rank.IsKth Circle.cupType t k cs d :=
  (selects_iff h).trans (Rank.isKth_comp Nat.cast_injective)

theorem searchCup_eq_none_iff {rows : List SelectedCup} {cupType : ℚ} {cupNumber : Nat} :
    searchCup rows cupType cupNumber = none ↔ ∀ d, ¬ Selects rows cupType cupNumber d := by
  constructor
  · rintro h d ⟨r, hr, -⟩
    rw [h] at hr
    cases hr
  · intro h
    cases hr : searchCup rows cupType cupNumber with
    | none => rfl
    | some r =>
      obtain ⟨d, hd⟩ := List.getElem?_of_mem (List.mem_of_find?_eq_some hr)
      exact absurd ⟨r, hr, hd⟩ (h d)

/-- The search finds no row exactly when there are fewer circles of the type. -/
theorem searchCup_eq_none_iff_lt {cs : List Circle} {rows : List SelectedCup}
    (h : TableOf cs rows) {t : ℚ} {k : Nat} (hk : 1 ≤ k) :
    searchCup rows t k = none ↔ (Rank.ofClass Circle.column3 t cs).length < k := by
  rw [searchCup_eq_none_iff, ← not_le, ← Rank.exists_isKth hk, not_exists]
  exact forall_congr' fun d => not_congr (selects_iff h)

/-! ## The number of a drink -/

theorem countCups_eq (sortedOrder : List Row) (i : Nat) (cupType : ℚ) :
    countCups sortedOrder i cupType =
      (Rank.ofClass Row.cupType cupType (sortedOrder.take i)).length := by
  have hfold : ∀ (rows : List Row) (n : Nat),
      rows.foldl
          (fun cupNumber row => if row.cupType = cupType then cupNumber + 1 else cupNumber) n =
        n + (Rank.ofClass Row.cupType cupType rows).length := by
    intro rows
    induction rows with
    | nil => intro n; rfl
    | cons row rows ih =>
      intro n
      rw [List.foldl_cons, ih]
      by_cases h : row.cupType = cupType
      · simp [Rank.ofClass, h]; omega
      · simp [Rank.ofClass, h]
  rw [countCups, hfold, Nat.zero_add]

/-- Order `i` is the `countCups`-th order for its type of cup. -/
theorem countCups_isKth {sortedOrder : List Row} {i : Nat} {row : Row} (hi : 1 ≤ i)
    (hrow : sortedOrder[i - 1]? = some row) :
    Rank.IsKth Row.cupType row.cupType (countCups sortedOrder i row.cupType) sortedOrder
      (i - 1) := by
  refine ⟨row, hrow, rfl, ?_⟩
  have htake : sortedOrder.take i = sortedOrder.take (i - 1) ++ [row] := by
    have := List.take_add_one (l := sortedOrder) (i := i - 1)
    rwa [Nat.sub_add_cancel hi, hrow] at this
  rw [countCups_eq, htake]
  simp [Rank.ofClass]

theorem countCups_pos {sortedOrder : List Row} {i : Nat} {row : Row} (hi : 1 ≤ i)
    (hrow : sortedOrder[i - 1]? = some row) : 1 ≤ countCups sortedOrder i row.cupType := by
  obtain ⟨_, -, -, h⟩ := countCups_isKth hi hrow
  omega

/-- **No two drinks share a cup.** A call without tracks lists all circles of the frame and
raises no error; in every table of it that state 4 searches, order `i` for a cup of type `t` gets
the `k`-th circle of the type, `k` being the number of orders of the type up to `i`, or none when
there are fewer; and two different orders never get the same circle. -/
theorem no_shared_cups (fr : Frame κ) (htb : fr.toolbox.ListsInOrder) (Nid : Nat) :
    multiObjectTrackingHCNew fr initializeTracks Nid =
      .ok (Nid + fr.circles.length, circleRows fr.circles) ∧
    (∀ xyzPoints inp nextId rows, inp.frame = fr →
      findCups xyzPoints inp Nid = .ok (nextId, rows) → TableOf fr.circles rows) ∧
    ∀ rows, TableOf fr.circles rows → ∀ sortedOrder : List Row,
      (∀ (i t : Nat) (row : Row), 1 ≤ i → sortedOrder[i - 1]? = some row → row.cupType = t →
        let k := (Rank.ofClass Row.cupType t (sortedOrder.take i)).length
        (∀ d, Selects rows row.cupType (countCups sortedOrder i row.cupType) d ↔
          Rank.IsKth Circle.cupType t k fr.circles d) ∧
        (searchCup rows row.cupType (countCups sortedOrder i row.cupType) = none ↔
          (Rank.ofClass Circle.cupType t fr.circles).length < k)) ∧
      ∀ (i j : Nat) (row row' : Row) (t t' d : Nat), 1 ≤ i → 1 ≤ j →
        sortedOrder[i - 1]? = some row → sortedOrder[j - 1]? = some row' →
        row.cupType = t → row'.cupType = t' →
        Selects rows row.cupType (countCups sortedOrder i row.cupType) d →
        Selects rows row'.cupType (countCups sortedOrder j row'.cupType) d → i = j := by
  have hlisted := listed_eq htb
  refine ⟨by rw [call_everything, hlisted], ?_, fun rows hrows sortedOrder => ⟨?_, ?_⟩⟩
  · rintro xyzPoints inp nextId rows rfl hfind
    exact hlisted ▸ tableOf_findCups hfind
  · intro i t row hi hrow ht
    have hcolumn : Rank.ofClass Circle.column3 row.cupType fr.circles =
        Rank.ofClass Circle.cupType t fr.circles := by
      rw [ht]
      exact Rank.ofClass_comp Nat.cast_injective t _
    have hnone := searchCup_eq_none_iff_lt hrows (t := row.cupType) (countCups_pos hi hrow)
    rw [hcolumn, countCups_eq, ht] at hnone
    rw [countCups_eq, ht]
    exact ⟨fun d => selects_cupType_iff hrows, hnone⟩
  · intro i j row row' t t' d hi hj hrow hrow' ht ht' hd hd'
    rw [ht, selects_cupType_iff hrows] at hd
    rw [ht', selects_cupType_iff hrows] at hd'
    obtain ⟨rfl, hk⟩ := hd.inj hd'
    have hi' := countCups_isKth hi hrow
    have hj' := countCups_isKth hj hrow'
    rw [ht] at hi'
    rw [ht', ← hk] at hj'
    have := hi'.unique hj'
    omega

/-- Three coffees in medium cups. -/
def threeMedium : List Row := [⟨1, 1, 1, 0, 0, 0, 1⟩, ⟨2, 1, 1, 0, 0, 0, 2⟩, ⟨3, 1, 1, 0, 0, 0, 3⟩]

/-- Two medium cups around a large one. -/
def mediumLargeMedium : Frame (ℚ × ℚ) := stillFrame [⟨100, 100, 20⟩, ⟨200, 100, 30⟩, ⟨300, 100, 20⟩]

/-- The first order gets the first medium cup, the second one the other and the third one none. -/
theorem no_shared_cups_still :
    multiObjectTrackingHCNew mediumLargeMedium initializeTracks 1 =
        .ok (4, circleRows mediumLargeMedium.circles) ∧
      ∃ rows, findCups flatCloud ⟨mediumLargeMedium, fun _ => true⟩ 1 = .ok (4, rows) ∧
        Selects rows 1 (countCups threeMedium 1 1) 0 ∧
        Selects rows 1 (countCups threeMedium 2 1) 2 ∧
        searchCup rows 1 (countCups threeMedium 3 1) = none ∧
        ¬ Selects rows 1 (countCups threeMedium 2 1) 0 := by
  have htb : mediumLargeMedium.toolbox.ListsInOrder := fun m _ _ => by
    simp [mediumLargeMedium, stillFrame, stillToolbox, Matching.diagonal]
  obtain ⟨hcall, htable, hsearch⟩ := no_shared_cups mediumLargeMedium htb 1
  have hfind : findCups flatCloud ⟨mediumLargeMedium, fun _ => true⟩ 1 =
      .ok (4, [⟨⟨some (159 / 10), some (63 / 10)⟩, 1, 1⟩, ⟨⟨some (150 / 10), some (62 / 10)⟩, 2, 1⟩,
        ⟨⟨some (139 / 10), some (63 / 10)⟩, 1, 2⟩]) := by decide +kernel
  obtain ⟨hkth, hinj⟩ := hsearch _ (htable _ _ _ _ rfl hfind) threeMedium
  have hfirst := ((hkth 1 1 _ (by decide) rfl Nat.cast_one.symm).1 0).mpr
    ⟨⟨100, 100, 20⟩, rfl, by decide +kernel, by decide +kernel⟩
  have hsecond := ((hkth 2 1 _ (by decide) rfl Nat.cast_one.symm).1 2).mpr
    ⟨⟨300, 100, 20⟩, rfl, by decide +kernel, by decide +kernel⟩
  have hthird := (hkth 3 1 _ (by decide) rfl Nat.cast_one.symm).2.mpr (by decide +kernel)
  refine ⟨hcall, _, hfind, hfirst, hsecond, hthird, fun hshared => ?_⟩
  have h12 := hinj 1 2 _ _ 1 1 0 (by decide) (by decide) rfl rfl Nat.cast_one.symm
    Nat.cast_one.symm hfirst hshared
  omega

end DrinkRobot
