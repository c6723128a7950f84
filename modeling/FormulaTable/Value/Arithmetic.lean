import FormulaTable.Value.Coercion

/-!
# Arithmetic on values

Both sides are read as numbers. Where that fails, or the result is not finite, it is null.
-/

namespace FormulaTable.Value

/-- Applies an operation to both values as numbers. -/
def arithmetic (op : Float → Float → Float) (v w : Value) : Value :=
  match v.toNumber?, w.toNumber? with
  | some x, some y => finite (op x y)
  | _, _ => null

/-- The sum of two numbers, or the two texts one after the other if one of the values is text. -/
def add (v w : Value) : Value :=
  if v.isText || w.isText then text (v.toText ++ w.toText)
  else arithmetic (· + ·) v w

def subtract : Value → Value → Value := arithmetic (· - ·)

def multiply : Value → Value → Value := arithmetic (· * ·)

/-- The value reads as zero. -/
def isZero (v : Value) : Bool := v.toNumber?.any (· == 0)

/-- The quotient; null if the divisor is zero. -/
def divide (v w : Value) : Value := if w.isZero then null else arithmetic (· / ·) v w

/-- The remainder, with the sign of the dividend; null if the divisor is zero. -/
def modulo (v w : Value) : Value := if w.isZero then null else arithmetic Number.remainder v w

/-- The number with its sign changed. -/
def negate (v : Value) : Value := ofOption (fun x => number (-x)) v.toNumber?

/-- The value as a number. -/
def plus (v : Value) : Value := ofOption number v.toNumber?

end FormulaTable.Value
