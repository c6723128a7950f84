import FormulaTable.Formula.FormulaError
import FormulaTable.Value.Arithmetic
import FormulaTable.Value.Comparison

/-!
# Built-in functions

A built-in function has a name, the numbers of arguments it accepts, and a value for every list of
arguments; an argument that is missing is null. Some functions look at the clock.
-/

namespace FormulaTable.Formula

open Calendar (Instant Fault)

/-- A built-in function. -/
structure Builtin where
  name : String
  arity : Arity
  run : Instant → List Value → Except Fault Value

namespace Builtin

/-- A function of its arguments alone. -/
def pure (name : String) (arity : Arity) (f : List Value → Value) : Builtin :=
  { name, arity, run := fun _ args => .ok (f args) }

/-- A function of the clock and its arguments. -/
def timed (name : String) (f : Instant → Value) : Builtin :=
  { name, arity := .exactly 0, run := fun now _ => .ok (f now) }

end Builtin

/-- An argument; null if it is missing. -/
def arg (args : List Value) (i : Nat) : Value := args.getD i .null

/-- An argument as a number. -/
def numberArg (args : List Value) (i : Nat) : Option Float := (arg args i).toNumber?

/-- An argument as text. -/
def textArg (args : List Value) (i : Nat) : List Char := (arg args i).chars

/-- An argument as a date. -/
def dateArg (args : List Value) (i : Nat) : Option Instant := (arg args i).toInstant?

/-- A function of two values. -/
def onTwo (f : Value → Value → Value) (args : List Value) : Value := f (arg args 0) (arg args 1)

/-- A function of one number; null where there is no finite result. -/
def onNumber (f : Float → Float) (args : List Value) : Value :=
  Value.ofOption (fun x => Value.finite (f x)) (numberArg args 0)

/-- A function of one number that passes a test; null where there is no finite result. -/
def onNumberIf (test : Float → Bool) (f : Float → Float) (args : List Value) : Value :=
  Value.ofOption (fun x => Value.finite (f x)) ((numberArg args 0).filter test)

end FormulaTable.Formula
