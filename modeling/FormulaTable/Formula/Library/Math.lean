import FormulaTable.Formula.Library.Basic
import FormulaTable.Number.Rounding

/-!
# Functions of numbers
-/

namespace FormulaTable.Formula.Library

/-- 1, -1 or 0, by the sign of a number. -/
def signOf (x : Float) : Float := if 0 < x then 1 else if x < 0 then -1 else 0

/-- Rounds the first argument to as many decimal places as the second says, or to a whole number. -/
def round (args : List Value) : Value :=
  match numberArg args 0 with
  | none => .null
  | some x =>
    if 1 < args.length then
      match numberArg args 1 with
      | some places => .ofOption .number (Number.round x places.toInt32.toInt)
      | none => .null
    else .ofOption .number (Number.round x 0)

/-- The numbers among the arguments: those of a list of options one by one, and all others that read as
a number. -/
def numbersAmong (args : List Value) : List Float :=
  args.flatMap fun
    | .options items => items.filterMap Value.finiteNumber?
    | v => v.toNumber?.toList

/-- Combines numbers from the left; there is no result without any. -/
def reduce? (f : Float → Float → Float) : List Float → Option Float
  | [] => none
  | x :: xs => some (xs.foldl f x)

/-- The least number among the arguments. -/
def min (args : List Value) : Value := .ofOption .number (reduce? Number.least (numbersAmong args))

/-- The greatest number among the arguments. -/
def max (args : List Value) : Value :=
  .ofOption .number (reduce? Number.greatest (numbersAmong args))

/-- The functions of numbers. -/
def math : List Builtin :=
  [.pure "add" (.exactly 2) (onTwo Value.add),
    .pure "subtract" (.exactly 2) (onTwo Value.subtract),
    .pure "multiply" (.exactly 2) (onTwo Value.multiply),
    .pure "divide" (.exactly 2) (onTwo Value.divide),
    .pure "mod" (.exactly 2) (onTwo Value.modulo),
    .pure "abs" (.exactly 1) (onNumber Float.abs),
    .pure "round" (.between 1 2) round,
    .pure "floor" (.exactly 1) (onNumber Number.floor),
    .pure "ceil" (.exactly 1) (onNumber Number.ceiling),
    .pure "min" (.atLeast 1) min,
    .pure "max" (.atLeast 1) max,
    .pure "pow" (.exactly 2) (onTwo (Value.arithmetic Float.pow)),
    .pure "sqrt" (.exactly 1) (onNumberIf (0 ≤ ·) Float.sqrt),
    .pure "sign" (.exactly 1) (onNumber signOf),
    .pure "ln" (.exactly 1) (onNumberIf (0 < ·) Float.log),
    .pure "log10" (.exactly 1) (onNumberIf (0 < ·) Float.log10),
    .pure "exp" (.exactly 1) (onNumber Float.exp)]

end FormulaTable.Formula.Library
