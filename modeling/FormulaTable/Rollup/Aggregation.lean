import FormulaTable.Number.Exact
import FormulaTable.Rollup.Entries
import FormulaTable.Rollup.Key
import FormulaTable.Rollup.Result

/-!
# Aggregations

What each aggregation makes of the entries of a rollup. Entries that are not numbers are passed over
where numbers are needed, so no aggregation fails.
-/

namespace FormulaTable

namespace RollupResult

/-- A count. -/
def ofCount (n : Nat) : RollupResult := number (Float.ofNat n)

/-- A part of a whole in percent; no part of nothing. -/
def percent (part whole : Nat) : RollupResult :=
  if whole = 0 then number 0.0 else number (Float.ofNat part / Float.ofNat whole * 100.0)

/-- The sum, added up from the left. The empty sum is negative zero, which changes no other sum. -/
def sum (xs : List Float) : RollupResult := number (xs.foldl (· + ·) (-0.0))

/-- The mean; there is none of no numbers. -/
def average (xs : List Float) : RollupResult :=
  if xs.isEmpty then null else number (xs.foldl (· + ·) 0.0 / Float.ofNat xs.length)

/-- The number that is chosen over all others, two by two from the left. -/
def best (choose : Float → Float → Float) : List Float → RollupResult
  | [] => null
  | x :: xs => number (xs.foldl choose x)

end RollupResult

namespace Aggregation

open RollupResult

/-- The numbers to choose the least or greatest from: the dates in a column of dates. -/
def candidates (target : Column) (e : Entries) : List Float :=
  if target.kind.isDate then e.times else e.numbers

/-- The result of an aggregation of the entries of a column. -/
def apply (target : Column) (e : Entries) : Aggregation → RollupResult
  | count => ofCount e.rowCount
  | countValues | countNotEmpty => ofCount e.filled.length
  | countEmpty => ofCount e.emptyCount
  | countUnique => ofCount (Value.firstPerKey e.values).length
  | sum => RollupResult.sum e.numbers
  | average => RollupResult.average e.numbers
  | min => best Number.least (candidates target e)
  | max => best Number.greatest (candidates target e)
  | percentEmpty => percent e.emptyCount e.values.length
  | percentNotEmpty => percent e.filled.length e.values.length
  | showOriginal => values e.filled
  | showUnique => values (Value.firstPerKey e.filled)

end Aggregation

/-- The result of a rollup over related rows. -/
def RollupConfig.calculate (config : RollupConfig) (target : Column) (rows : List Row) :
    RollupResult :=
  config.aggregation.apply target (Entries.ofRows target rows)

end FormulaTable
