import DrinkRobot.Controller.Orders
import DrinkRobot.Tracker.PerCall

/-!
# The drink controller

The part of `Prac3Main2.m` from the order list on: `for i = 1:n` around `while (1)` around
`switch state`. A step is one pass through the `switch`; it takes the camera frame and the answer
of the arm that this pass sees, and reports what it did as an `Event`.

* `Config`: the workspace variables the `switch` reads and writes. A variable that is not yet
  assigned is `none`, and reading it is an error.
* `step`: the six cases. `controller`: the loops, until `i` passes `n`.
* `step_pass`: all that a step without error can do, one constructor of `Pass` for each case.
* `prac3Main2`: the script from the order vector on, with its ten warm-up calls.

The arm is a parameter: for a target, whether `move_dynamixel_steps(GoToPos(..))` and the
commands after it raise no error. Not modelled: the figure windows, the pauses and the messages,
and the fiducial search, whose results are overwritten by constants.
-/

namespace DrinkRobot

open OneBased

variable {κ : Type}

/-- The values 0 to 3 of `condimentFlag`. -/
inductive CondimentFlag where
  | noCondiment
  | coffee
  | tea
  | sugar
deriving DecidableEq, Repr

/-- The cases 1 to 6 of `switch state`. -/
inductive ControllerState where
  /-- Find next cup to complete. -/
  | nextCup
  /-- Select condiment. -/
  | selectCondiment
  /-- Collect condiment. -/
  | collectCondiment
  /-- Finding cups. -/
  | findCups
  /-- Move arm to cup, and drop condiment in cup. -/
  | dropCondiment
  /-- Declare cup finished. -/
  | declareFinished
deriving DecidableEq, Repr

/-- The number of the case. -/
def ControllerState.code : ControllerState → Nat
  | .nextCup => 1
  | .selectCondiment => 2
  | .collectCondiment => 3
  | .findCups => 4
  | .dropCondiment => 5
  | .declareFinished => 6

/-- What the `switch` reads and does not change. -/
structure Program where
  n : ℚ
  sortedOrder : List Row
  xyzPoints : PointCloud

structure Config where
  i : Nat
  state : ControllerState
  cup : Option Row
  condimentFlag : Option CondimentFlag
  currentCupXY : Option XY
  nextId : Nat

/-- What a pass through the `switch` sees of the world. -/
structure Input (κ : Type) where
  frame : Frame κ
  arm : XY → Bool

/-- A row of `selectedCups_XY`. -/
structure SelectedCup where
  xy : XY
  cupType : Nat
  cupNumber : Nat
deriving DecidableEq

/-- What a pass through the `switch` did, with the order `i` it did it for. -/
inductive Event where
  | start (i : Nat) (cup : Row)
  | select (i : Nat) (condimentFlag : CondimentFlag)
  | collect (i : Nat) (condimentFlag : CondimentFlag)
  | find (i : Nat) (selectedCupsXY : List SelectedCup)
  | drop (i : Nat) (currentCupXY : XY)
  | declare (i : Nat) (cup : Row)
deriving DecidableEq

/-! ## The cases -/

def xyCof : XY := ⟨some 18, some 15⟩
def xySug : XY := ⟨some (-16), some 14⟩
def xyTea : XY := ⟨some (-16), some 8⟩

/-- Where a condiment is collected. -/
def station : CondimentFlag → Option XY
  | .noCondiment => none
  | .coffee => some xyCof
  | .tea => some xyTea
  | .sugar => some xySug

/-- Case 2: the flag and the cup with one condiment less to come. -/
def selectCondiment (cup : Row) : CondimentFlag × Row :=
  if cup.coffee > 0 then (.coffee, { cup with coffee := cup.coffee - 1 })
  else if cup.tea > 0 then (.tea, { cup with tea := cup.tea - 1 })
  else if cup.sugar > 0 then (.sugar, { cup with sugar := cup.sugar - 1 })
  else (.noCondiment, cup)

/-- The arm moves to `xy`. -/
def moveArm (inp : Input κ) (xy : XY) : Except MatlabError Unit :=
  if inp.arm xy then .ok () else .error .armFailed

/-- Case 3. -/
def collectCondiment (inp : Input κ) (condimentFlag : CondimentFlag) : Except MatlabError Unit :=
  match station condimentFlag with
  | none => .ok ()
  | some xy => moveArm inp xy

/-- `selectedCups_XY` from the metric positions and the table. -/
def selectedCups (XYs : List XY) (everything : List CupRow) : List SelectedCup :=
  XYs.zipWith (fun xy r => { xy, cupType := r.cupType, cupNumber := r.cupNumber }) everything

/-- `cupNumber`: the loop over the first `i` orders. -/
def countCups (sortedOrder : List Row) (i : Nat) (cupType : ℚ) : Nat :=
  (sortedOrder.take i).foldl
    (fun cupNumber row => if row.cupType = cupType then cupNumber + 1 else cupNumber) 0

/-- The search for the first row with the cup's type and number. -/
def searchCup (selectedCupsXY : List SelectedCup) (cupType : ℚ) (cupNumber : Nat) :
    Option SelectedCup :=
  selectedCupsXY.find? fun r =>
    decide ((r.cupType : ℚ) = cupType) && decide (r.cupNumber = cupNumber)

/-- The limits on `currentCup_XY`, one after the other. -/
def limitXY (xy : XY) : XY :=
  let xy := if xy.x.above 24 then { xy with x := some 23 } else xy
  let xy := if xy.x.below (-24) then { xy with x := some (-23) } else xy
  let xy := if xy.y.above 23 then { xy with y := some 22 } else xy
  if xy.y.below 2 then { xy with y := some 3 } else xy

/-- `currentCup_XY` after the search: without a matching row it is not assigned. -/
def setTarget (selectedCupsXY : List SelectedCup) (cupType : ℚ) (cupNumber : Nat)
    (currentCupXY : Option XY) : Option XY :=
  match searchCup selectedCupsXY cupType cupNumber with
  | some r => some (limitXY r.xy)
  | none => currentCupXY

/-- Case 4 up to the search: a call of the tracker, and its table in centimetres. -/
def findCups (xyzPoints : PointCloud) (inp : Input κ) (nextId : Nat) :
    Except MatlabError (Nat × List SelectedCup) := do
  let (nextId, everything) ← multiObjectTrackingHCNew inp.frame initializeTracks nextId
  let XYs ← metric xyzPoints (everything.map fun r => (r.left, r.top))
  pure (nextId, selectedCups XYs everything)

/-! ## The loops -/

/-- One pass through `switch state`. -/
def step (P : Program) (c : Config) (inp : Input κ) : Except MatlabError (Config × Event) :=
  match c.state with
  | .nextCup => do
    let cup ← get .badIndex P.sortedOrder c.i
    pure ({ c with cup := some cup, state := .selectCondiment }, .start c.i cup)
  | .selectCondiment => do
    let cup ← read "cup" c.cup
    let (condimentFlag, cup) := selectCondiment cup
    pure ({ c with
      cup := some cup
      condimentFlag := some condimentFlag
      state := .collectCondiment }, .select c.i condimentFlag)
  | .collectCondiment => do
    let condimentFlag ← read "condimentFlag" c.condimentFlag
    collectCondiment inp condimentFlag
    pure ({ c with condimentFlag := some .noCondiment, state := .findCups },
      .collect c.i condimentFlag)
  | .findCups => do
    let (nextId, selectedCupsXY) ← findCups P.xyzPoints inp c.nextId
    let cup ← read "cup" c.cup
    let cupNumber := countCups P.sortedOrder c.i cup.cupType
    let currentCupXY := setTarget selectedCupsXY cup.cupType cupNumber c.currentCupXY
    pure ({ c with nextId, currentCupXY, state := .dropCondiment }, .find c.i selectedCupsXY)
  | .dropCondiment => do
    let currentCupXY ← read "currentCup_XY" c.currentCupXY
    moveArm inp currentCupXY
    let cup ← read "cup" c.cup
    let state := if cup.coffee + cup.tea + cup.sugar = 0 then .declareFinished else .selectCondiment
    pure ({ c with state }, .drop c.i currentCupXY)
  | .declareFinished => do
    let cup ← read "cup" c.cup
    -- `break` leaves `while (1)`, and `for` goes on to the next order
    pure ({ c with state := .nextCup, i := c.i + 1 }, .declare c.i cup)

/-- `for i = 1:n` is over. -/
def halted (P : Program) (c : Config) : Bool := !decide ((c.i : ℚ) ≤ P.n)

/-- The workspace before the loop. -/
def controllerStart (nextId : Nat) : Config where
  i := 1
  state := .nextCup
  cup := none
  condimentFlag := none
  currentCupXY := none
  nextId := nextId

/-- The loops, for the passes that the inputs allow. -/
def controller (P : Program) (nextId : Nat) (inputs : List (Input κ)) :
    Except MatlabError (Config × List Event) :=
  Run.exec (halted P) (step P) (controllerStart nextId) inputs

/-- The script: the order vector, the warm-up calls and the loops. -/
def prac3Main2 (order : List ℚ) (xyzPoints : PointCloud) (warmUp : Nat → Frame κ)
    (inputs : List (Input κ)) : Except MatlabError (Config × List Event) := do
  let (n, sortedOrder) ← parseOrder order
  let nextId ← callEachFrame ((List.range' 1 10).map warmUp)
  controller { n, sortedOrder, xyzPoints } nextId inputs

/-! ## What a pass does -/

/-- What a pass through the `switch` does when it raises no error. -/
inductive Pass (P : Program) (inp : Input κ) (c : Config) : Config → Event → Prop
  | start {cup : Row} (hs : c.state = .nextCup)
    (hcup : get MatlabError.badIndex P.sortedOrder c.i = .ok cup) :
    Pass P inp c { c with cup := some cup, state := .selectCondiment } (.start c.i cup)
  | select {cup : Row} (hs : c.state = .selectCondiment) (hcup : c.cup = some cup) :
    Pass P inp c { c with
      cup := some (selectCondiment cup).2
      condimentFlag := some (selectCondiment cup).1
      state := .collectCondiment } (.select c.i (selectCondiment cup).1)
  | collect {condimentFlag : CondimentFlag} (hs : c.state = .collectCondiment)
    (hflag : c.condimentFlag = some condimentFlag) :
    Pass P inp c { c with condimentFlag := some .noCondiment, state := .findCups }
      (.collect c.i condimentFlag)
  | find {cup : Row} {nextId : Nat} {selectedCupsXY : List SelectedCup} (hs : c.state = .findCups)
    (hfind : findCups P.xyzPoints inp c.nextId = .ok (nextId, selectedCupsXY))
    (hcup : c.cup = some cup) :
    Pass P inp c { c with
      nextId
      currentCupXY := setTarget selectedCupsXY cup.cupType
        (countCups P.sortedOrder c.i cup.cupType) c.currentCupXY
      state := .dropCondiment } (.find c.i selectedCupsXY)
  | drop {cup : Row} {xy : XY} (hs : c.state = .dropCondiment) (hxy : c.currentCupXY = some xy)
    (hcup : c.cup = some cup) :
    Pass P inp c { c with
      state := if cup.coffee + cup.tea + cup.sugar = 0 then .declareFinished else .selectCondiment }
      (.drop c.i xy)
  | declare {cup : Row} (hs : c.state = .declareFinished) (hcup : c.cup = some cup) :
    Pass P inp c { c with state := .nextCup, i := c.i + 1 } (.declare c.i cup)

theorem step_pass {P : Program} {c c' : Config} {inp : Input κ} {e : Event}
    (h : step P c inp = .ok (c', e)) : Pass P inp c c' e := by
  unfold step at h
  cases hs : c.state with
  | nextCup =>
    rw [hs] at h
    obtain ⟨cup, hcup, h⟩ := Run.bind_ok.mp h
    cases h
    exact .start hs hcup
  | selectCondiment =>
    rw [hs] at h
    obtain ⟨cup, hcup, h⟩ := Run.bind_ok.mp h
    cases h
    exact .select hs (read_ok hcup)
  | collectCondiment =>
    rw [hs] at h
    obtain ⟨condimentFlag, hflag, h⟩ := Run.bind_ok.mp h
    obtain ⟨-, -, h⟩ := Run.bind_ok.mp h
    cases h
    exact .collect hs (read_ok hflag)
  | findCups =>
    rw [hs] at h
    obtain ⟨⟨nextId, selectedCupsXY⟩, hfind, h⟩ := Run.bind_ok.mp h
    obtain ⟨cup, hcup, h⟩ := Run.bind_ok.mp h
    cases h
    exact .find hs hfind (read_ok hcup)
  | dropCondiment =>
    rw [hs] at h
    obtain ⟨xy, hxy, h⟩ := Run.bind_ok.mp h
    obtain ⟨-, -, h⟩ := Run.bind_ok.mp h
    obtain ⟨cup, hcup, h⟩ := Run.bind_ok.mp h
    cases h
    exact .drop hs (read_ok hxy) (read_ok hcup)
  | declareFinished =>
    rw [hs] at h
    obtain ⟨cup, hcup, h⟩ := Run.bind_ok.mp h
    cases h
    exact .declare hs (read_ok hcup)

/-- The order that an event was reported for and the number of its case. -/
def Event.place : Event → Nat × Nat
  | .start i _ => (i, 1)
  | .select i _ => (i, 2)
  | .collect i _ => (i, 3)
  | .find i _ => (i, 4)
  | .drop i _ => (i, 5)
  | .declare i _ => (i, 6)

/-- An event is reported by its own case, for the order the loop is at. -/
theorem Pass.place {P : Program} {inp : Input κ} {c c' : Config} {e : Event}
    (h : Pass P inp c c' e) : e.place = (c.i, c.state.code) := by
  cases h with
  | start hs => rw [hs]; rfl
  | select hs => rw [hs]; rfl
  | collect hs => rw [hs]; rfl
  | find hs => rw [hs]; rfl
  | drop hs => rw [hs]; rfl
  | declare hs => rw [hs]; rfl

end DrinkRobot
