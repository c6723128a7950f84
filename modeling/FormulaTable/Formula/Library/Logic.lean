import FormulaTable.Formula.Library.Basic

/-!
# Functions of truth values, and comparisons
-/

namespace FormulaTable.Formula.Library

/-- The second argument if the first is true, and the third otherwise. -/
def choose (args : List Value) : Value :=
  if (arg args 0).toBool then arg args 1 else arg args 2

/-- All arguments are true. -/
def all (args : List Value) : Value := .boolean (args.all Value.toBool)

/-- One of the arguments is true. -/
def any (args : List Value) : Value := .boolean (args.any Value.toBool)

/-- The argument is not true. -/
def negation (args : List Value) : Value := .boolean (!(arg args 0).toBool)

/-- The argument is empty. -/
def empty (args : List Value) : Value := .boolean (arg args 0).isEmpty

/-- The first argument that is not null. -/
def coalesce (args : List Value) : Value := (args.find? (!·.isNull)).getD .null

/-- The arguments are loosely equal. -/
def equal (v w : Value) : Value := .boolean (v.looselyEqual w)

/-- The arguments are not loosely equal. -/
def unequal (v w : Value) : Value := .boolean (!v.looselyEqual w)

/-- The functions of truth values and the comparisons. -/
def logic : List Builtin :=
  [.pure "if" (.between 2 3) choose,
    .pure "and" (.atLeast 1) all,
    .pure "or" (.atLeast 1) any,
    .pure "not" (.exactly 1) negation,
    .pure "empty" (.exactly 1) empty,
    .pure "coalesce" (.atLeast 1) coalesce,
    .pure "equal" (.exactly 2) (onTwo equal),
    .pure "unequal" (.exactly 2) (onTwo unequal),
    .pure "larger" (.exactly 2) (onTwo (Value.ordered (· == .gt))),
    .pure "smaller" (.exactly 2) (onTwo (Value.ordered (· == .lt))),
    .pure "largerEq" (.exactly 2) (onTwo (Value.ordered (· != .lt))),
    .pure "smallerEq" (.exactly 2) (onTwo (Value.ordered (· != .gt)))]

end FormulaTable.Formula.Library
