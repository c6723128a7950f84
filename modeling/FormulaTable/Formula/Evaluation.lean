import FormulaTable.Formula.Library
import FormulaTable.Formula.Parser
import FormulaTable.Row

/-!
# Evaluation

A tree has a value for a row. Operands and arguments are evaluated from the left, all of them; of the
branches of a conditional only the chosen one. A call is resolved, and its number of arguments is
checked, before its arguments are evaluated.
-/

namespace FormulaTable.Formula

open Calendar (Instant Fault)

/-! ## What a formula can see -/

/-- A function added to an engine. -/
structure CustomFunction where
  arity : Arity
  run : List Value → Value

/-- Functions by name in small letters. -/
abbrev CustomFunctions := Std.ExtTreeMap String CustomFunction compare

/-- The row, the columns of its table, the clock, the greatest depth and the added functions. -/
structure Scope where
  row : Row
  columns : List Column
  now : Instant
  maxDepth : Nat
  custom : CustomFunctions

/-- The first column with this id. -/
def columnById? (columns : List Column) (id : String) : Option Column :=
  columns.find? (·.id = id)

/-- The column that a property names: the first one with this name, in small or capital letters, or
else the one with exactly this id. -/
def column? (columns : List Column) (name : String) : Option Column :=
  (columns.find? fun c => Text.fold c.name = Text.fold name) <|> columnById? columns name

/-- A function that can be called, with the name it has in errors. -/
structure Callable where
  name : String
  arity : Arity
  run : List Value → Except Fault Value

/-- The function that a call names: an added function, or else a built-in one. -/
def Scope.callable? (scope : Scope) (name : String) : Option Callable :=
  match scope.custom[Text.fold name]? with
  | some f => some { name, arity := f.arity, run := fun args => .ok (f.run args) }
  | none => (builtin? name).map fun b => { name := b.name, arity := b.arity, run := b.run scope.now }

/-! ## Operators -/

/-- The value of an operator between two values. -/
def BinaryOp.apply : BinaryOp → Value → Value → Value
  | add => Value.add
  | subtract => Value.subtract
  | multiply => Value.multiply
  | divide => Value.divide
  | modulo => Value.modulo
  | equal => Library.equal
  | notEqual => Library.unequal
  | less => Value.ordered (· == .lt)
  | lessEqual => Value.ordered (· != .gt)
  | greater => Value.ordered (· == .gt)
  | greaterEqual => Value.ordered (· != .lt)
  | and => fun v w => .boolean (v.toBool && w.toBool)
  | or => fun v w => .boolean (v.toBool || w.toBool)

/-- The value of an operator before a value. -/
def UnaryOp.apply : UnaryOp → Value → Value
  | not => fun v => .boolean (!v.toBool)
  | negate => Value.negate
  | plus => Value.plus

/-! ## Trees -/

/-- The value of a property. -/
def Scope.property (scope : Scope) (name : String) : Except Failure Value :=
  match column? scope.columns name with
  | some c => .ok (scope.row.value c)
  | none => .error (.error (.unknownProperty name))

/-- The function that a call names, if it accepts the number of arguments. -/
def Scope.resolve (scope : Scope) (name : String) (count : Nat) : Except Failure Callable :=
  match scope.callable? name with
  | none => .error (.error (.unknownFunction name))
  | some f =>
    if f.arity.accepts count then .ok f
    else .error (.error (.argumentCount f.name f.arity count))

/-- Calls a function. -/
def Callable.call (f : Callable) (args : List Value) : Except Failure Value :=
  (f.run args).mapError .abandoned

mutual

/-- The value of a tree that stands at a depth of nesting. -/
def Scope.evalAt (scope : Scope) (depth : Nat) (e : Expr) : Except Failure Value :=
  if scope.maxDepth < depth then .error (.error (.depthExceeded scope.maxDepth))
  else match e with
    | .number x => .ok (.number x)
    | .string s => .ok (.text s)
    | .boolean b => .ok (.boolean b)
    | .property name => scope.property name
    | .binary op left right => do
      let v ← scope.evalAt (depth + 1) left
      let w ← scope.evalAt (depth + 1) right
      return op.apply v w
    | .unary op operand => do
      let v ← scope.evalAt (depth + 1) operand
      return op.apply v
    | .call name args => do
      let f ← scope.resolve name args.length
      let vs ← scope.evalAll (depth + 1) args
      f.call vs
    | .conditional condition consequent alternate => do
      let v ← scope.evalAt (depth + 1) condition
      if v.toBool then scope.evalAt (depth + 1) consequent else scope.evalAt (depth + 1) alternate

/-- The values of trees that stand at a depth of nesting. -/
def Scope.evalAll (scope : Scope) (depth : Nat) : List Expr → Except Failure (List Value)
  | [] => .ok []
  | e :: es => do
    let v ← scope.evalAt depth e
    let vs ← scope.evalAll depth es
    return v :: vs

end

/-- The value of a tree. -/
def Scope.eval (scope : Scope) (e : Expr) : Except Failure Value := scope.evalAt 1 e

end FormulaTable.Formula
