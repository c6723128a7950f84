/-!
# Decimal numbers

A decimal is a natural number times a power of ten. It is written in positional notation, never
with an exponent, and it can be rounded to a number of decimal places.
-/

namespace FormulaTable.Number

/-- The number `coefficient · 10 ^ exponent`. -/
structure Decimal where
  coefficient : Nat
  exponent : Int
deriving DecidableEq, Repr

namespace Decimal

/-- The nearest double; of two equally near ones, the one with even mantissa. -/
def toFloat (d : Decimal) : Float :=
  Float.ofScientific d.coefficient (d.exponent < 0) d.exponent.natAbs

/-- The digits of the coefficient. -/
def digits (d : Decimal) : List Char := Nat.toDigits 10 d.coefficient

/-- The number of decimal places. -/
def places (d : Decimal) : Nat := (-d.exponent).toNat

/-- The digits before the point. Zeros stand in for missing digits, and a number below one has a
single zero. -/
def wholePart (d : Decimal) : List Char :=
  if d.places = 0 then d.digits ++ List.replicate d.exponent.toNat '0'
  else if d.places < d.digits.length then d.digits.take (d.digits.length - d.places)
  else ['0']

/-- The digits after the point, with zeros in front where they are missing. -/
def fractionPart (d : Decimal) : List Char :=
  if d.places = 0 then []
  else if d.places < d.digits.length then d.digits.drop (d.digits.length - d.places)
  else List.replicate (d.places - d.digits.length) '0' ++ d.digits

/-- Positional notation: a whole number has no point. -/
def positional (d : Decimal) : List Char :=
  if d.fractionPart.isEmpty then d.wholePart else d.wholePart ++ '.' :: d.fractionPart

/-- Rounds to at most `places` decimal places; a half goes away from zero. -/
def roundHalfAway (places : Nat) (d : Decimal) : Decimal :=
  let extra := ((-d.exponent) - places).toNat
  if extra = 0 then d
  else
    { coefficient := (2 * d.coefficient + Nat.pow 10 extra) / (2 * Nat.pow 10 extra)
      exponent := -places }

end Decimal

end FormulaTable.Number
