/-!
# Doubles as exact binary numbers

A double is read as what it denotes: not a number, a signed infinity, a signed zero, or a sign with
a positive mantissa and a power of two. Whole-number rounding and the remainder are computed on
that reading with integers, so they are exact, and their results are rounded once.
-/

namespace FormulaTable.Number

open Float.Model (UnpackedFloat Format)
open Float.Model.UnpackedFloat (Sign)

/-- What a double denotes. -/
def exact (x : Float) : UnpackedFloat := x.toModel.unpack

/-- The double nearest to `± m · 2 ^ e`; of two equally near ones, the one with even mantissa. -/
def nearest (sign : Sign) (m : Nat) (e : Int) : Float :=
  .ofModel (.pack (UnpackedFloat.round .binary64 sign m e))

/-- The result of an operation without a value. -/
def notANumber : Float := 0.0 / 0.0

/-! ## Rounding to a whole number -/

/-- Rounds a finite double with fractional digits to the whole number whose magnitude `pick` chooses
for the magnitude `m / d`. A double without fractional digits is kept. -/
def toWhole (pick : Sign → Nat → Nat → Nat) (x : Float) : Float :=
  match exact x with
  | .finite sign m (.negSucc k) _ => nearest sign (pick sign m (Nat.pow 2 (k + 1))) 0
  | _ => x

/-- The whole number at or next to `m / d`, away from zero. -/
def quotientUp (m d : Nat) : Nat := (m + (d - 1)) / d

/-- Cuts off the fractional digits. -/
def truncate : Float → Float := toWhole fun _ m d => m / d

/-- The greatest whole number that is not greater. -/
def floor : Float → Float := toWhole fun
  | .positive, m, d => m / d
  | .negative, m, d => quotientUp m d

/-- The least whole number that is not less. -/
def ceiling : Float → Float := toWhole fun
  | .positive, m, d => quotientUp m d
  | .negative, m, d => m / d

/-- The nearest whole number; a half goes away from zero. -/
def roundHalfAway : Float → Float := toWhole fun _ m d => (2 * m + d) / (2 * d)

/-- The whole part of a double as an integer of 64 bits: the nearest of these if it lies beyond them,
and zero for what is not a number. -/
def toInt64 (x : Float) : Int := (exact x).toInt64.toInt

/-! ## Remainder -/

/-- What is left of `x` after taking away `y` as often as it fits, with the sign of `x`. Both are
brought to the smaller of the two powers of two, where they are whole. -/
def remainder (x y : Float) : Float :=
  match exact x, exact y with
  | .finite sign m e _, .finite _ n f _ =>
    let g := min e f
    nearest sign ((m * Nat.pow 2 (e - g).toNat) % (n * Nat.pow 2 (f - g).toNat)) g
  | .zero _, .finite .. | .zero _, .infinity _ | .finite .., .infinity _ => x
  | _, _ => notANumber

/-! ## Least and greatest -/

/-- The lesser of two doubles. What is not a number gives way to the other one, and of two equal
doubles, which the two zeros are, the second is taken. -/
def least (x y : Float) : Float :=
  if x.isNaN || y <= x then y else x

/-- The greater of two doubles, under the same rules as `least`. -/
def greatest (x y : Float) : Float :=
  if x.isNaN || x <= y then y else x

end FormulaTable.Number
