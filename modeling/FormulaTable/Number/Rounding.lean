import FormulaTable.Number.Text

/-!
# Rounding to decimal places

A number is rounded as it is written: its shortest decimal text decides, so `2.345` rounds to `2.35`
although the double lies just below the middle. A half goes away from zero. Negative places round to
tens, hundreds and so on.
-/

namespace FormulaTable.Number

open Float.Model.UnpackedFloat (Sign)

/-- The most decimal places that are kept. -/
def maxPlaces : Nat := 28

/-- The greatest power of ten that is a double. -/
def maxPowerOfTen : Nat := 308

/-- `base ^ n` by squaring, rounded after each product. -/
def power (base : Float) : Nat → Float → Float
  | 0, product => product
  | n + 1, product =>
    let product := if (n + 1) % 2 = 1 then product * base else product
    if (n + 1) / 2 = 0 then product else power (base * base) ((n + 1) / 2) product
termination_by n => n
decreasing_by omega

/-- `10 ^ n` as a double. -/
def powerOfTen (n : Nat) : Float := power 10 n 1

/-- Rounds to a multiple of a power of ten, if the result is finite. -/
def roundToTens (x : Float) (n : Nat) : Option Float :=
  -- every finite double is below half of `10 ^ 309`
  if maxPowerOfTen < n then some 0
  else
    let factor := powerOfTen n
    let rounded := roundHalfAway (x / factor) * factor
    if rounded.isFinite then some rounded else none

/-- Rounds the shortest decimal text of a double. Digits beyond the last place that is kept are
rounded off first, a half away from zero. Zero has no sign. -/
def roundDecimal (sign : Sign) (m : Nat) (e : Int) (places : Nat) : Float :=
  let d := ((shortest .up m e).roundHalfAway maxPlaces).roundHalfAway places
  if d.coefficient = 0 then 0 else withSign sign d.toFloat

/-- Rounds a magnitude too great for `roundDecimal` in binary, and keeps it where that overflows. -/
def roundBinary (x : Float) (places : Nat) : Float :=
  let factor := powerOfTen places
  let rounded := roundHalfAway (x * factor) / factor
  if rounded.isFinite then rounded else x

/-- Rounds to `places` decimal places, a half away from zero. There is no result for an infinity or
what is not a number, or where the result would not be finite. -/
def round (x : Float) (places : Int) : Option Float :=
  match exact x with
  | .notANumber | .infinity _ => none
  | .zero _ =>
    match places with
    | .ofNat _ => some 0
    | .negSucc n => roundToTens x (n + 1)
  | .finite sign m e _ =>
    match places with
    | .ofNat n =>
      let places := min n maxPlaces
      if x.abs < 79228162514264337593543950336.0 then some (roundDecimal sign m e places)
      else some (roundBinary x places)
    | .negSucc n => roundToTens x (n + 1)

end FormulaTable.Number
