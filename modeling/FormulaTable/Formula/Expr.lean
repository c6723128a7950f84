import FormulaTable.Text.Case

/-!
# Formula trees

What a formula means, apart from any row.
-/

namespace FormulaTable.Formula

/-- An operator between two operands. -/
inductive BinaryOp where
  | add
  | subtract
  | multiply
  | divide
  | modulo
  | equal
  | notEqual
  | less
  | lessEqual
  | greater
  | greaterEqual
  | and
  | or
deriving DecidableEq, Repr

/-- The sign or word of an operator. -/
def BinaryOp.spelling : BinaryOp → String
  | add => "+"
  | subtract => "-"
  | multiply => "*"
  | divide => "/"
  | modulo => "%"
  | equal => "=="
  | notEqual => "!="
  | less => "<"
  | lessEqual => "<="
  | greater => ">"
  | greaterEqual => ">="
  | and => "and"
  | or => "or"

/-- An operator before its operand. -/
inductive UnaryOp where
  | not
  | negate
  | plus
deriving DecidableEq, Repr

/-- The tree of a formula. The name of a called function is in small letters. -/
inductive Expr where
  | number (x : Float)
  | string (s : String)
  | boolean (b : Bool)
  /-- The value of the column with this name. -/
  | property (name : String)
  | binary (op : BinaryOp) (left right : Expr)
  | unary (op : UnaryOp) (operand : Expr)
  | call (function : String) (args : List Expr)
  | conditional (condition consequent alternate : Expr)

namespace Expr

/-! ## What a tree mentions -/

mutual

/-- The names of the properties in a tree, from left to right. -/
def properties : Expr → List String
  | .number _ | .string _ | .boolean _ => []
  | .property name => [name]
  | .binary _ left right => left.properties ++ right.properties
  | .unary _ operand => operand.properties
  | .call _ args => propertiesOfAll args
  | .conditional condition consequent alternate =>
    condition.properties ++ consequent.properties ++ alternate.properties

/-- The names of the properties in some trees, from left to right. -/
def propertiesOfAll : List Expr → List String
  | [] => []
  | e :: es => e.properties ++ propertiesOfAll es

end

mutual

/-- The names of the called functions in a tree, from left to right, an outer call before the calls in
its arguments. -/
def functions : Expr → List String
  | .number _ | .string _ | .boolean _ | .property _ => []
  | .binary _ left right => left.functions ++ right.functions
  | .unary _ operand => operand.functions
  | .call function args => function :: functionsOfAll args
  | .conditional condition consequent alternate =>
    condition.functions ++ consequent.functions ++ alternate.functions

/-- The names of the called functions in some trees, from left to right. -/
def functionsOfAll : List Expr → List String
  | [] => []
  | e :: es => e.functions ++ functionsOfAll es

end

/-- Keeps the first of the names with equal keys, given the keys met before. -/
def firstByKey (key : String → String) : List String → List String → List String
  | _, [] => []
  | met, name :: names =>
    if key name ∈ met then firstByKey key met names
    else name :: firstByKey key (key name :: met) names

/-- The distinct property names of a tree in the order in which they first occur. Names that agree in
small letters are the same. -/
def propertyNames (e : Expr) : List String := firstByKey Text.fold [] e.properties

/-- The distinct function names of a tree in the order in which they first occur. -/
def functionNames (e : Expr) : List String := firstByKey id [] e.functions

end Expr

end FormulaTable.Formula
