import FormulaTable.Number.Decimal

/-!
# The shortest decimal of a double

A positive double stands for every real number that rounds to it. Of the decimals in that interval
the one with the fewest digits is chosen, and of those with equally few digits the nearest.

The interval is measured in quarters of the double's last place, so its ends are whole.
-/

namespace FormulaTable.Number

/-- The choice between two decimals equally near to a double. -/
inductive Tie where
  | up
  | even

/-- The numbers from `lower · 2 ^ exponent` to `upper · 2 ^ exponent`, with the ends if `closed`,
around `centre · 2 ^ exponent`. -/
structure Interval where
  lower : Nat
  centre : Nat
  upper : Nat
  exponent : Int
  closed : Bool

namespace Interval

/-- The numbers that round to the double `m · 2 ^ e`. Below a power of two the doubles lie twice as
close, except at the least exponent. An end belongs to the double with even mantissa. -/
def ofDouble (m : Nat) (e : Int) : Interval where
  lower := if m = Nat.pow 2 52 ∧ -1074 < e then 4 * m - 1 else 4 * m - 2
  centre := 4 * m
  upper := 4 * m + 2
  exponent := e - 2
  closed := m % 2 == 0

/-- `a` is below `b`, or equal to it where the ends belong to the interval. -/
def ordered (i : Interval) (a b : Nat) : Bool :=
  if i.closed then a ≤ b else a < b

/-- The multiple of `10 ^ k` nearest to the centre, if the interval holds one. Both sides of each
comparison are scaled to whole numbers. -/
def onGrid? (tie : Tie) (i : Interval) (k : Int) : Option Nat :=
  let scale := Nat.pow 2 i.exponent.toNat * Nat.pow 10 (-k).toNat
  let step := Nat.pow 10 k.toNat * Nat.pow 2 (-i.exponent).toNat
  let below := i.centre * scale / step
  let rest := i.centre * scale % step
  let hasBelow := i.ordered (i.lower * scale) (below * step)
  let hasAbove := i.ordered ((below + 1) * step) (i.upper * scale)
  match hasBelow, hasAbove with
  | false, false => none
  | true, false => some below
  | false, true => some (below + 1)
  | true, true =>
    if 2 * rest < step then some below
    else if step < 2 * rest then some (below + 1)
    else match tie with
      | .up => some (below + 1)
      | .even => some (below + below % 2)

/-- The centre, written out in full. -/
def expansion (i : Interval) : Decimal :=
  { coefficient := i.centre * Nat.pow 2 i.exponent.toNat * Nat.pow 5 (-i.exponent).toNat
    exponent := -((-i.exponent).toNat : Int) }

/-- Tries the grids of `10 ^ k`, `10 ^ (k - 1)`, ... in this order, `tries` of them. -/
def search (tie : Tie) (i : Interval) : Int → Nat → Decimal
  | _, 0 => i.expansion
  | k, tries + 1 =>
    match i.onGrid? tie k with
    | some coefficient => { coefficient, exponent := k }
    | none => i.search tie (k - 1) tries

end Interval

/-- A power of ten above every number below `2 ^ b`, and at most two places too high. -/
def powerOfTenAbove (b : Int) : Int := b * 30103 / 100000 + 1

/-- The shortest decimal that reads back as the double `m · 2 ^ e`. Seventeen digits are always
enough, so twenty grids are. -/
def shortest (tie : Tie) (m : Nat) (e : Int) : Decimal :=
  (Interval.ofDouble m e).search tie (powerOfTenAbove (m.log2 + 1 + e)) 20

end FormulaTable.Number
