import DrinkRobot.Lib.RoundAway
import Mathlib.Algebra.Order.Floor.Ring
import Mathlib.Data.Rat.Floor

/-!
# The part of MATLAB that the programs use

* `MatlabError`: what a run can stop with.
* `Double`: a double is an exact rational or NaN. Every comparison with NaN is false, and
  arithmetic on NaN is NaN (`Option.map`). Rounding errors are not modelled.
* `read`: a variable that is not yet assigned is `none`, and reading it is an error.
* `matlabRound`: `round`, halves away from zero.
-/

namespace DrinkRobot

/-- The errors a run of the modelled programs can stop with. -/
inductive MatlabError where
  /-- A read of a variable that was never assigned. -/
  | undefinedVariable (name : String)
  /-- An index that is not a positive integer within the array. -/
  | badIndex
  /-- Rows of different lengths put under each other. -/
  | dimensionMismatch
  /-- An error raised by the arm commands (inverse kinematics, servo library). -/
  | armFailed
deriving DecidableEq, Repr

/-- A read of a variable. -/
def read {α : Type} (name : String) (x : Option α) : Except MatlabError α :=
  match x with
  | some v => .ok v
  | none => .error (.undefinedVariable name)

theorem read_ok {α : Type} {name : String} {x : Option α} {v : α} (h : read name x = .ok v) :
    x = some v := by
  cases x with
  | none => cases h
  | some u => cases h; rfl

/-- A double: an exact rational, or `none` for NaN. -/
abbrev Double := Option ℚ

/-- `a > q`, false for NaN. -/
def Double.above (a : Double) (q : ℚ) : Bool :=
  match a with
  | some v => decide (q < v)
  | none => false

/-- `a < q`, false for NaN. -/
def Double.below (a : Double) (q : ℚ) : Bool :=
  match a with
  | some v => decide (v < q)
  | none => false

/-- `round`: the nearest integer, halves away from zero. -/
def matlabRound (q : ℚ) : Int := if 0 ≤ q then ⌊q + 1 / 2⌋ else -⌊-q + 1 / 2⌋

theorem matlabRound_eq (q : ℚ) : matlabRound q = RoundAway.round q := rfl

/-- A point of the arm's plane, in centimetres. -/
structure XY where
  x : Double
  y : Double
deriving DecidableEq

end DrinkRobot
