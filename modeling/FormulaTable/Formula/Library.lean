import FormulaTable.Formula.Library.Date
import FormulaTable.Formula.Library.Logic
import FormulaTable.Formula.Library.Math
import FormulaTable.Formula.Library.Text

/-!
# The library of built-in functions

Functions are found by name, in small or capital letters.
-/

namespace FormulaTable.Formula

/-- All built-in functions. -/
def library : List Builtin := Library.math ++ Library.texts ++ Library.logic ++ Library.dates

/-- The built-in function with this name. -/
def builtin? (name : String) : Option Builtin :=
  library.find? fun b => Text.fold b.name = Text.fold name

/-- The names of all built-in functions in the order of their small letters. -/
def builtinNames : List String :=
  (library.map Builtin.name).mergeSort fun a b => Text.fold a ≤ Text.fold b

end FormulaTable.Formula
