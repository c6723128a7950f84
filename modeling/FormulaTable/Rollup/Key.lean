import FormulaTable.Json.Text
import FormulaTable.Stored.Value
import FormulaTable.Value.Coercion

/-!
# Keys of values

Values with the same key count as the same in rollups that look for different values. A letter in
front keeps the kinds apart, so the number 1 and the text `1` differ. The key of a list is its stored
form.
-/

namespace FormulaTable.Value

/-- The key of a value. -/
def key (v : Value) : String :=
  match v with
  | null => "\x00null"
  | text s => "s:" ++ s
  | number x => "n:" ++ String.ofList (Number.text x)
  | boolean b => "b:" ++ if b then "true" else "false"
  | date t => "d:" ++ String.ofList t.milliText
  | options _ | references _ => "j:" ++ String.ofList v.toJson.compact

/-- The values without those whose key an earlier one has. -/
def firstPerKey : List Value → List Value
  | [] => []
  | v :: vs => v :: (firstPerKey vs).filter fun w => w.key ≠ v.key

end FormulaTable.Value
