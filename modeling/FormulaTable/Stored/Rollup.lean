import FormulaTable.Rollup.Result
import FormulaTable.Stored.Value

/-!
# Stored results of rollups

A result is stored like a value: as its type and its content.
-/

namespace FormulaTable.RollupResult

open Json (Place)

/-- The stored form of a result. -/
def toJson : RollupResult → Json
  | number x => .record [("type", .text "number"), ("value", .ofFloat x)]
  | null => .record [("type", .text "null")]
  | values vs => .record [("type", .text "values"), ("value", .array (vs.map Value.toJson))]

/-- Reads a stored result. -/
def ofJson? (p : Place) (j : Json) : Option RollupResult := do
  let t ← j.toTagged? p
  match t.tag with
  | "number" => (t.content? fun _ => Json.toFloat?).map number
  | "null" => if t.isBare then some null else none
  | "values" => (t.content? fun p => Json.toList? (Value.ofJson? (p.inside 1))).map values
  | _ => none

end FormulaTable.RollupResult
