import DrinkRobot.Controller.Script

/-!
# What a run serves

* `serves_every_drink_once`: with enough inputs and no error, a run for two to five drinks goes
  through the cases 1, (2, 3, 4, 5)^m, 6 for each of them, `m` being the number of condiments but
  at least 1, declares every drink once with no condiment left, by priority and then by id, and
  ends.
* `condiments_accounted_iff`: for a declared drink there was one station visit and then one drop
  for each condiment, exactly when the drink has condiments. A drink without any gets a drop too.
-/

namespace DrinkRobot

open OneBased

variable {κ : Type}

/-! ## Cases -/

/-- The order and the number of the case. -/
def Mark.place : Mark → Nat × Nat
  | .start i => (i, 1)
  | .select i _ => (i, 2)
  | .collect i _ => (i, 3)
  | .find i => (i, 4)
  | .drop i => (i, 5)
  | .declare i _ => (i, 6)

theorem Event.mark_place (e : Event) : e.mark.place = e.place := by cases e <;> rfl

/-- The number of condiments of an order. -/
def Row.portions (row : Row) : Nat := ⌊row.coffee + row.tea + row.sugar⌋₊

/-- The cases of an order. -/
def orderCases (row : Row) : List Nat :=
  1 :: ((List.replicate (max 1 row.portions) [2, 3, 4, 5]).flatten ++ [6])

/-- The cases of all orders from `i` on. -/
def allCases (i : Nat) (rows : List Row) : List (Nat × Nat) :=
  (rows.zipIdx i).flatMap fun q => (orderCases q.1).map fun k => (q.2, k)

theorem Row.Natural.portions_eq {row : Row} (h : row.Natural) :
    row.portions = row.condiments.length := by
  rw [Row.portions, ← h.length_condiments, Nat.floor_natCast]

theorem flatMap_roundMarks_place (i : Nat) (fs : List CondimentFlag) :
    (fs.flatMap (roundMarks i)).map Mark.place =
      (List.replicate fs.length [2, 3, 4, 5]).flatten.map fun k => (i, k) := by
  induction fs with
  | nil => rfl
  | cons f fs ih =>
    rw [List.flatMap_cons, List.map_append, ih, List.length_cons, List.replicate_succ,
      List.flatten_cons, List.map_append]
    rfl

theorem orderMarks_place {row : Row} (h : row.Natural) (i : Nat) :
    (orderMarks i row).map Mark.place = (orderCases row).map fun k => (i, k) := by
  have hrounds : (rounds i row.condiments).map Mark.place =
      (List.replicate (max 1 row.portions) [2, 3, 4, 5]).flatten.map fun k => (i, k) := by
    rw [h.portions_eq]
    cases hc : row.condiments with
    | nil => rfl
    | cons f fs =>
      rw [Nat.max_eq_right (by simp), rounds_of_ne_nil i (List.cons_ne_nil f fs),
        flatMap_roundMarks_place]
  rw [orderMarks, orderCases, List.map_cons, List.map_append, hrounds]
  simp [Mark.place]

theorem script_place {rows : List Row} (h : ∀ row ∈ rows, row.Natural) (i : Nat) :
    (script i rows).map Mark.place = allCases i rows := by
  induction rows generalizing i with
  | nil => rfl
  | cons row rows ih =>
    rw [script, List.map_append, orderMarks_place (h row (by simp)),
      ih (fun r hr => h r (by simp [hr]))]
    rfl

/-! ## Declarations -/

/-- The drink that a mark declares finished. -/
def Mark.declared : Mark → Option Row
  | .declare _ cup => some cup
  | _ => none

def Event.declared (e : Event) : Option Row := e.mark.declared

theorem rounds_declared (i : Nat) (fs : List CondimentFlag) :
    (rounds i fs).filterMap Mark.declared = [] := by
  have hround : ∀ f, (roundMarks i f).filterMap Mark.declared = [] := fun _ => rfl
  cases fs with
  | nil => rfl
  | cons f fs =>
    rw [rounds, List.filterMap_flatMap]
    · simp [hround]
    · exact List.cons_ne_nil f fs

theorem script_declared (i : Nat) (rows : List Row) :
    (script i rows).filterMap Mark.declared = rows.map Row.served := by
  induction rows generalizing i with
  | nil => rfl
  | cons row rows ih =>
    rw [script, List.filterMap_append, ih, orderMarks, List.filterMap_cons, List.filterMap_append,
      rounds_declared]
    rfl

theorem filterMap_declared (es : List Event) :
    es.filterMap Event.declared = (es.map Event.mark).filterMap Mark.declared := by
  rw [List.filterMap_map]
  rfl

/-- What is declared in a run, up to where it stops: the first orders, with no condiment left. -/
theorem controller_declared {P : Program} (hnat : ∀ row ∈ P.sortedOrder, row.Natural)
    {nextId : Nat} {inputs : List (Input κ)} {c : Config} {es : List Event}
    (h : controller P nextId inputs = .ok (c, es)) :
    es.filterMap Event.declared <+: P.rows.map Row.served := by
  obtain ⟨ms, hms, -⟩ := controller_follows hnat h
  rw [filterMap_declared, ← script_declared 1, hms, List.filterMap_append]
  exact List.prefix_append _ _

/-- **Every drink is served once.** A run for two to five drinks with natural condiment counts,
as far as it goes, does the cases of the first orders one after the other; when it has inputs for
all cases and raises no error, it ends, in state 1, after doing them all, and it has declared every
id once, by non-increasing priority and then by id, with no condiment left. -/
theorem serves_every_drink_once (order : List ℚ) (n : Nat) (hn : 2 ≤ n ∧ n ≤ 5)
    (sortedOrder : List Row) (hparse : parseOrder order = .ok (n, sortedOrder))
    (hnat : ∀ row ∈ sortedOrder, row.Natural) (xyzPoints : PointCloud) (warmUp : Nat → Frame κ)
    (inputs : List (Input κ)) (c : Config) (es : List Event)
    (hrun : prac3Main2 order xyzPoints warmUp inputs = .ok (c, es)) :
    es.map Event.place <+: allCases 1 sortedOrder ∧
    (∀ cup ∈ es.filterMap Event.declared, cup.coffee = 0 ∧ cup.tea = 0 ∧ cup.sugar = 0) ∧
    ((allCases 1 sortedOrder).length ≤ inputs.length →
      halted ⟨n, sortedOrder, xyzPoints⟩ c = true ∧ c.state = .nextCup ∧
      es.map Event.place = allCases 1 sortedOrder ∧
      es.filterMap Event.declared = sortedOrder.map Row.served ∧
      ((es.filterMap Event.declared).map Row.id).Perm (List.range' 1 n) ∧
      (es.filterMap Event.declared).Pairwise Row.Before) := by
  obtain ⟨hlen, hids, hbefore⟩ := parseOrder_ok hn hparse
  unfold prac3Main2 at hrun
  rw [hparse] at hrun
  obtain ⟨nextId, -, hctl⟩ := Run.bind_ok.mp (show (callEachFrame _ >>= _) = _ from hrun)
  let P : Program := ⟨n, sortedOrder, xyzPoints⟩
  have hrows : P.rows = sortedOrder := by simp [P, Program.rows, ← hlen]
  have hplace := script_place hnat 1
  have hmap : es.map Event.place = (es.map Event.mark).map Mark.place := by
    rw [List.map_map]
    exact List.map_congr_left fun e _ => e.mark_place.symm
  refine ⟨?_, fun cup hcup => ?_, fun hinputs => ?_⟩
  · obtain ⟨ms, hms, -⟩ := controller_follows (P := P) hnat hctl
    rw [hrows] at hms
    rw [hmap, ← hplace, hms, List.map_append]
    exact List.prefix_append _ _
  · have := (controller_declared (P := P) hnat hctl).subset hcup
    rw [hrows] at this
    obtain ⟨row, -, rfl⟩ := List.mem_map.mp this
    exact ⟨rfl, rfl, rfl⟩
  · rw [← hplace, List.length_map] at hinputs
    obtain ⟨hhalt, hst, hmarks⟩ := controller_ends (P := P) hnat (by rw [hrows, hlen]) hctl
      (by rwa [hrows])
    rw [hrows] at hmarks
    have hdecl : es.filterMap Event.declared = sortedOrder.map Row.served := by
      rw [filterMap_declared, hmarks, script_declared]
    refine ⟨hhalt, hst, by rw [hmap, hmarks, hplace], hdecl, ?_, ?_⟩
    · rw [hdecl, List.map_map]
      exact hids
    · rw [hdecl, List.pairwise_map]
      exact hbefore

/-- Two drinks without errors: the second one has the higher priority and is served first. -/
theorem serves_every_drink_once_two :
    ∃ c es, prac3Main2 [2, 1, 1, 0, 0, 0, 0, 2, 0, 0, 1, 0, 3] flatCloud
        (fun _ => stillFrame [⟨100, 100, 20⟩, ⟨200, 200, 30⟩])
        (List.replicate 12 ⟨stillFrame [⟨100, 100, 20⟩, ⟨200, 200, 30⟩], fun _ => true⟩) =
          .ok (c, es) ∧
      (es.filterMap Event.declared).Pairwise Row.Before := by
  obtain ⟨⟨c, es⟩, hrun⟩ := Run.exists_ok
    (x := prac3Main2 [2, 1, 1, 0, 0, 0, 0, 2, 0, 0, 1, 0, 3] flatCloud
      (fun _ => stillFrame [⟨100, 100, 20⟩, ⟨200, 200, 30⟩])
      (List.replicate 12 ⟨stillFrame [⟨100, 100, 20⟩, ⟨200, 200, 30⟩], fun _ => true⟩))
    (by decide +kernel)
  have hparse : parseOrder [2, 1, 1, 0, 0, 0, 0, 2, 0, 0, 1, 0, 3] =
      .ok ((2 : Nat), [⟨2, 2, 0, 0, 1, 0, 3⟩, ⟨1, 1, 1, 0, 0, 0, 0⟩]) := by decide +kernel
  have hnat : ∀ row ∈ [(⟨2, 2, 0, 0, 1, 0, 3⟩ : Row), ⟨1, 1, 1, 0, 0, 0, 0⟩], row.Natural := by
    simp only [List.mem_cons, List.not_mem_nil, or_false, forall_eq_or_imp, forall_eq]
    exact ⟨⟨0, 0, 1, by simp⟩, ⟨1, 0, 0, by simp⟩⟩
  have h := serves_every_drink_once _ 2 (by omega) _ hparse hnat _ _ _ c es hrun
  exact ⟨c, es, hrun, (h.2.2 (by decide +kernel)).2.2.2.2.2⟩

/-! ## Accounts -/

/-- A station visit or a drop. -/
inductive Action where
  | visit (condimentFlag : CondimentFlag)
  | drop
deriving DecidableEq

/-- The action of a mark of order `i`. -/
def Mark.action (i : Nat) : Mark → Option Action
  | .collect j f => if j = i ∧ f ≠ .noCondiment then some (.visit f) else none
  | .drop j => if j = i then some .drop else none
  | _ => none

def Event.action (i : Nat) (e : Event) : Option Action := e.mark.action i

/-- The station visits and drops for order `i` are a visit and a drop for each condiment of its
row, and nothing else. -/
def Accounted (es : List Event) (i : Nat) (row : Row) : Prop :=
  es.filterMap (Event.action i) = row.condiments.flatMap fun f => [.visit f, .drop]

/-- The order that a mark belongs to. -/
def Mark.order (m : Mark) : Nat := m.place.1

section Actions

variable (i j : Nat) (f : CondimentFlag) (row : Row)

@[simp] theorem action_start : (Mark.start j).action i = none := rfl
@[simp] theorem action_select : (Mark.select j f).action i = none := rfl
@[simp] theorem action_collect :
    (Mark.collect j f).action i = if j = i ∧ f ≠ .noCondiment then some (.visit f) else none := rfl
@[simp] theorem action_find : (Mark.find j).action i = none := rfl
@[simp] theorem action_drop : (Mark.drop j).action i = if j = i then some .drop else none := rfl
@[simp] theorem action_declare : (Mark.declare j row).action i = none := rfl

end Actions

theorem action_of_order_ne {i : Nat} {m : Mark} (h : m.order ≠ i) : m.action i = none := by
  cases m with
  | collect j f => exact if_neg fun hj => h hj.1
  | drop j => exact if_neg h
  | _ => rfl

theorem actions_nil {i : Nat} {ms : List Mark} (h : ∀ m ∈ ms, m.order ≠ i) :
    ms.filterMap (Mark.action i) = [] :=
  List.filterMap_eq_nil_iff.mpr fun m hm => action_of_order_ne (h m hm)

theorem mem_rounds_order {i : Nat} {fs : List CondimentFlag} {m : Mark} (h : m ∈ rounds i fs) :
    m.order = i ∧ m.declared = none := by
  have hround : ∀ f, ∀ m ∈ roundMarks i f, m.order = i ∧ m.declared = none := by
    intro f m hm
    simp only [roundMarks, List.mem_cons, List.not_mem_nil, or_false] at hm
    rcases hm with rfl | rfl | rfl | rfl <;> exact ⟨rfl, rfl⟩
  cases fs with
  | nil => exact hround _ m h
  | cons f fs =>
    obtain ⟨f', -, hm⟩ := List.mem_flatMap.mp (show m ∈ (f :: fs).flatMap (roundMarks i) from h)
    exact hround f' m hm

theorem mem_orderMarks_order {i : Nat} {row : Row} {m : Mark} (h : m ∈ orderMarks i row) :
    m.order = i := by
  rw [orderMarks, List.mem_cons, List.mem_append, List.mem_singleton] at h
  rcases h with rfl | h | rfl
  · rfl
  · exact (mem_rounds_order h).1
  · rfl

theorem le_order_of_mem_script {i : Nat} {rows : List Row} {m : Mark} (h : m ∈ script i rows) :
    i ≤ m.order := by
  induction rows generalizing i with
  | nil => cases h
  | cons row rows ih =>
    rcases List.mem_append.mp h with h | h
    · exact le_of_eq (mem_orderMarks_order h).symm
    · exact Nat.le_of_succ_le (ih h)

/-- The actions of an order: a visit and a drop for each condiment, or one drop without any. -/
theorem orderMarks_actions {row : Row} (i : Nat) :
    (orderMarks i row).filterMap (Mark.action i) =
      if row.condiments = [] then [.drop]
      else row.condiments.flatMap fun f => [.visit f, .drop] := by
  have hflags : ∀ f ∈ row.condiments, f ≠ .noCondiment := by
    intro f hf
    simp only [Row.condiments, List.mem_append, List.mem_replicate] at hf
    rcases hf with (⟨-, rfl⟩ | ⟨-, rfl⟩) | ⟨-, rfl⟩ <;> decide
  have hround : ∀ f, f ≠ .noCondiment →
      (roundMarks i f).filterMap (Mark.action i) = [.visit f, .drop] := by
    intro f hf
    simp [roundMarks, List.filterMap_cons, hf]
  have hends : (orderMarks i row).filterMap (Mark.action i) =
      (rounds i row.condiments).filterMap (Mark.action i) := by
    simp [orderMarks, List.filterMap_cons]
  rw [hends]
  cases hc : row.condiments with
  | nil => simp [rounds, roundMarks, List.filterMap_cons]
  | cons f fs =>
    rw [if_neg (List.cons_ne_nil f fs), rounds_of_ne_nil i (List.cons_ne_nil f fs), ← hc,
      List.filterMap_flatMap]
    exact List.flatMap_congr fun f hf => hround f (hflags f hf)

/-- The declaration is the last mark of an order: with it, no mark of the order is missing. -/
theorem orderMarks_eq_of_declared {i : Nat} {row cup : Row} {ms ks : List Mark}
    (h : orderMarks i row = ms ++ ks) (hd : Mark.declare i cup ∈ ms) : ms = orderMarks i row := by
  rcases List.eq_nil_or_concat ks with rfl | ⟨ks', k, rfl⟩
  · rw [h, List.append_nil]
  · exfalso
    rw [orderMarks, ← List.cons_append, List.concat_eq_append, ← List.append_assoc] at h
    have hpre := (List.append_inj' h rfl).1
    have hmem : Mark.declare i cup ∈ .start i :: rounds i row.condiments := by
      rw [hpre]; exact List.mem_append_left _ hd
    rcases List.mem_cons.mp hmem with hstart | hround
    · cases hstart
    · exact absurd (mem_rounds_order hround).2 (by simp [Mark.declared])

/-- When a drink is declared, all marks of its order are there. -/
theorem actions_of_declared {ms ms' : List Mark} {j i : Nat} {rows : List Row} {cup : Row}
    (h : ms ++ ms' = script j rows) (hd : Mark.declare i cup ∈ ms) :
    ∃ row, j ≤ i ∧ rows[i - j]? = some row ∧
      ms.filterMap (Mark.action i) = (orderMarks i row).filterMap (Mark.action i) := by
  induction rows generalizing ms j with
  | nil =>
    obtain ⟨rfl, -⟩ := List.append_eq_nil_iff.mp h
    cases hd
  | cons row rows ih =>
    have hmem : Mark.declare i cup ∈ script j (row :: rows) := by
      rw [← h]; exact List.mem_append_left _ hd
    have hji : j ≤ i := le_order_of_mem_script hmem
    rw [script, List.append_eq_append_iff] at h
    -- the order is the first one, or a later one and the first has no action for it
    by_cases he : i = j
    · subst he
      refine ⟨row, le_refl i, by simp, ?_⟩
      rcases h with ⟨ks, hks, hms'⟩ | ⟨ks, hms, hks⟩
      · rw [orderMarks_eq_of_declared hks hd]
      · rw [hms, List.filterMap_append]
        have : ks.filterMap (Mark.action i) = [] := by
          refine actions_nil fun m hm => ?_
          have := le_order_of_mem_script (show m ∈ script (i + 1) rows by rw [hks]; simp [hm])
          omega
        rw [this, List.append_nil]
    · have hlt : j + 1 ≤ i := by omega
      have hnot : Mark.declare i cup ∉ orderMarks j row := fun hm =>
        he (mem_orderMarks_order hm)
      rcases h with ⟨ks, hks, hms'⟩ | ⟨ks, hms, hks⟩
      · exact absurd (by rw [hks]; exact List.mem_append_left _ hd) hnot
      · subst hms
        obtain ⟨row', -, hrow, hacts⟩ := ih hks.symm ((List.mem_append.mp hd).resolve_left hnot)
        refine ⟨row', hji, ?_, ?_⟩
        · have : i - j = (i - (j + 1)) + 1 := by omega
          rw [this, List.getElem?_cons_succ, hrow]
        · rw [List.filterMap_append, hacts, actions_nil, List.nil_append]
          exact fun m hm => by rw [mem_orderMarks_order hm]; omega

/-- **When condiments are accounted for.** In every run without error so far, with natural
condiment counts: a declared drink had one station visit and one drop for each condiment, coffee
first, then tea, then sugar, and no others, exactly when it has condiments. -/
theorem condiments_accounted_iff (P : Program) (hnat : ∀ row ∈ P.sortedOrder, row.Natural)
    (nextId : Nat) (inputs : List (Input κ)) (c : Config) (es : List Event)
    (hrun : controller P nextId inputs = .ok (c, es)) (i : Nat) (cup : Row)
    (hd : Event.declare i cup ∈ es) :
    ∃ row, P.sortedOrder[i - 1]? = some row ∧
      (Accounted es i row ↔ row.coffee + row.tea + row.sugar ≠ 0) := by
  obtain ⟨ms, hms, -⟩ := controller_follows hnat hrun
  obtain ⟨row, -, hrow, hacts⟩ := actions_of_declared hms.symm
    (List.mem_map.mpr ⟨_, hd, rfl⟩ : Mark.declare i cup ∈ es.map Event.mark)
  have hrow' : P.sortedOrder[i - 1]? = some row := by
    rw [Program.rows, List.getElem?_take] at hrow
    split at hrow
    · exact hrow
    · cases hrow
  refine ⟨row, hrow', ?_⟩
  have hnatural := hnat row (List.mem_of_getElem? hrow')
  have hes : es.filterMap (Event.action i) = (es.map Event.mark).filterMap (Mark.action i) := by
    rw [List.filterMap_map]
    rfl
  rw [Accounted, hes, hacts, orderMarks_actions, Ne, ← hnatural.condiments_eq_nil_iff]
  by_cases hc : row.condiments = []
  · simp [hc]
  · simp [hc]

/-- Two orders for medium cups, the first one without condiments. -/
def plainDrink : Program where
  n := 2
  sortedOrder := [⟨1, 1, 0, 0, 0, 0, 1⟩, ⟨2, 1, 1, 0, 0, 0, 0⟩]
  xyzPoints := flatCloud

/-- A pass that sees two medium cups and an arm that reaches everything. -/
def twoCups : Input (ℚ × ℚ) := ⟨stillFrame [⟨100, 100, 20⟩, ⟨200, 200, 20⟩], fun _ => true⟩

/-- The drink without condiments is declared after one drop into its cup. -/
theorem plain_drink_gets_drop :
    ∃ c es, controller plainDrink 1 (List.replicate 6 twoCups) = .ok (c, es) ∧
      Event.declare 1 ⟨1, 1, 0, 0, 0, 0, 1⟩ ∈ es ∧ ¬ Accounted es 1 ⟨1, 1, 0, 0, 0, 0, 1⟩ := by
  obtain ⟨⟨c, es⟩, hrun⟩ := Run.exists_ok
    (x := controller plainDrink 1 (List.replicate 6 twoCups)) (by decide +kernel)
  have hes : (controller plainDrink 1 (List.replicate 6 twoCups)).toOption.map (fun p =>
      (decide (Event.declare 1 ⟨1, 1, 0, 0, 0, 0, 1⟩ ∈ p.2), p.2.filterMap (Event.action 1))) =
      some (true, [.drop]) := by decide +kernel
  rw [hrun] at hes
  simp only [Except.toOption, Option.map_some, Option.some.injEq, Prod.mk.injEq,
    decide_eq_true_eq] at hes
  refine ⟨c, es, hrun, hes.1, fun hacc => ?_⟩
  rw [Accounted, hes.2] at hacc
  simp [Row.condiments] at hacc

theorem condiments_accounted_plain :
    ∃ c es, controller plainDrink 1 (List.replicate 12 twoCups) = .ok (c, es) ∧
      ∃ row, plainDrink.sortedOrder[2 - 1]? = some row ∧
        (Accounted es 2 row ↔ row.coffee + row.tea + row.sugar ≠ 0) := by
  obtain ⟨⟨c, es⟩, hrun⟩ := Run.exists_ok
    (x := controller plainDrink 1 (List.replicate 12 twoCups)) (by decide +kernel)
  have hes : (controller plainDrink 1 (List.replicate 12 twoCups)).toOption.map (fun p =>
      decide (Event.declare 2 ⟨2, 1, 0, 0, 0, 0, 0⟩ ∈ p.2)) = some true := by decide +kernel
  rw [hrun] at hes
  simp only [Except.toOption, Option.map_some, Option.some.injEq, decide_eq_true_eq] at hes
  have hnat : ∀ row ∈ plainDrink.sortedOrder, row.Natural := by
    simp only [plainDrink, List.mem_cons, List.not_mem_nil, or_false, forall_eq_or_imp, forall_eq]
    exact ⟨⟨0, 0, 0, by simp⟩, ⟨1, 0, 0, by simp⟩⟩
  exact ⟨c, es, hrun, condiments_accounted_iff plainDrink hnat 1 _ c es hrun 2 _ hes⟩

end DrinkRobot
