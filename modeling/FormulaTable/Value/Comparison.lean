import FormulaTable.Value.Coercion

/-!
# Comparing values

The loose equality and order that formulas use. A date makes both sides dates; otherwise values are
ordered as numbers.
-/

namespace FormulaTable.Value

open Calendar (Instant)

/-- The value is the same date. -/
def isInstant (t : Instant) (v : Value) : Bool :=
  match v.toInstant? with
  | some u => t == u
  | none => false

/-- Loose equality. Null equals only null. A date equals whatever reads as the same date, and a number
equals a truth value as 0 or 1; other values must be the same. -/
def looselyEqual : Value → Value → Bool
  | null, null => true
  | null, _ => false
  | _, null => false
  | date t, v => isInstant t v
  | v, date t => isInstant t v
  | number x, boolean b => x == if b then 1 else 0
  | boolean b, number x => x == if b then 1 else 0
  | v, w => v.same w

/-- The order of two numbers; there is none with what is not a number. -/
def compareNumbers? (x y : Float) : Option Ordering :=
  if x < y then some .lt else if y < x then some .gt else if x == y then some .eq else none

/-- The order of two values: as dates if one of them is a date, as numbers otherwise. There is none if
one of them cannot be read so. -/
def compare? (v w : Value) : Option Ordering :=
  if v.isDate || w.isDate then
    v.toInstant?.bind fun s => w.toInstant?.map fun t => s.compare t
  else
    v.toNumber?.bind fun x => w.toNumber?.bind fun y => compareNumbers? x y

/-- The values have an order and it passes the test. -/
def ordered (test : Ordering → Bool) (v w : Value) : Value := boolean ((v.compare? w).any test)

end FormulaTable.Value
