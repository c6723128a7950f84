import FormulaTable.Value.Coercion

/-!
# Results of rollups

A rollup gives a number, nothing, or a list of values. In a cell such a list is a list of references
if all its values are, and otherwise a list of texts.
-/

namespace FormulaTable

/-- The result of a rollup. -/
inductive RollupResult where
  | number (x : Float)
  /-- There was nothing to calculate with. -/
  | null
  | values (vs : List Value)
deriving DecidableEq

namespace RollupResult

/-- The number, if the result is one. -/
def number? : RollupResult → Option Float
  | number x => some x
  | _ => none

/-- The result is null. -/
def isNull : RollupResult → Bool
  | null => true
  | _ => false

/-- The references of a value, if it is a list of them. -/
def references? : Value → Option (List Reference)
  | .references refs => some refs
  | _ => none

/-- A list of values as one value. -/
def listValue (vs : List Value) : Value :=
  match vs, vs.mapM references? with
  | _ :: _, some lists => .references lists.flatten
  | _, _ => .options (vs.map Value.toText)

/-- The result as the value of a cell. -/
def toValue : RollupResult → Value
  | number x => .number x
  | null => .null
  | values vs => listValue vs

end RollupResult

end FormulaTable
