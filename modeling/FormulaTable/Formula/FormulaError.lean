import FormulaTable.Calendar.TimeUnit
import FormulaTable.Formula.SyntaxError

/-!
# Errors of formulas

Values never make a formula fail: what cannot be computed is null. A formula fails if it cannot be
read, names a column or function that does not exist, calls a function with a wrong number of
arguments, or is nested too deeply for the evaluation.
-/

namespace FormulaTable.Formula

/-- The numbers of arguments that a function accepts: from `least` to `most`, or without end. -/
structure Arity where
  least : Nat
  most : Option Nat
deriving DecidableEq, Repr

namespace Arity

/-- A fixed number of arguments. -/
def exactly (n : Nat) : Arity := { least := n, most := some n }

/-- A number of arguments between two. -/
def between (least most : Nat) : Arity := { least, most := some most }

/-- Any number of arguments from one on. -/
def atLeast (least : Nat) : Arity := { least, most := none }

/-- The function accepts `n` arguments. -/
def accepts (a : Arity) (n : Nat) : Bool :=
  a.least ≤ n && match a.most with
    | some most => n ≤ most
    | none => true

/-- The numbers of arguments in words. -/
def describe (a : Arity) : String :=
  match a.most with
  | some most =>
    if most = a.least then toString a.least else toString a.least ++ " to " ++ toString most
  | none => "at least " ++ toString a.least

end Arity

/-- Why a formula fails. -/
inductive FormulaError where
  | invalid (error : SyntaxError)
  | unknownProperty (name : String)
  | unknownFunction (name : String)
  | argumentCount (function : String) (expected : Arity) (actual : Nat)
  | depthExceeded (limit : Nat)
deriving DecidableEq

/-- The wording of the error. -/
def FormulaError.message : FormulaError → String
  | invalid error => "Parse error: " ++ error.message
  | unknownProperty name => "Unknown property: " ++ name
  | unknownFunction name => "Unknown function: " ++ name
  | argumentCount function expected actual =>
    "Wrong number of arguments for " ++ function ++ ": expected " ++ expected.describe ++ ", got " ++
      toString actual
  | depthExceeded limit => "Maximum evaluation depth of " ++ toString limit ++ " exceeded"

/-- Why an evaluation ends without a value: the formula fails, or the evaluation is abandoned. -/
inductive Failure where
  | error (e : FormulaError)
  | abandoned (fault : Calendar.Fault)
deriving DecidableEq

end FormulaTable.Formula
