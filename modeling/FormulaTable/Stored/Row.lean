import FormulaTable.Row
import FormulaTable.Stored.Value

/-!
# Stored rows

A row is stored with its id and its cells, and with its computed values if there are any.
-/

namespace FormulaTable

open Json (Place)

namespace Cells

/-- The stored form of values by column. -/
def toJson (cells : Cells) : Json := .record (cells.toList.map fun (id, v) => (id, v.toJson))

/-- Reads stored values by column. -/
def ofJson? (p : Place) (j : Json) : Option Cells :=
  (j.toMap? (Value.ofJson? (p.inside 1))).map fun entries => Std.ExtTreeMap.ofList entries compare

end Cells

namespace Row

/-- The stored form of a row. -/
def toJson (r : Row) : Json :=
  .record ([("id", .text r.id), ("cells", Cells.toJson r.cells)] ++
    Json.optionalField "computed"
      (if r.computed.isEmpty then none else some (Cells.toJson r.computed)))

/-- Reads a stored row. -/
def ofJson? (p : Place) (j : Json) : Option Row := do
  let fields ← j.toFields? ["id", "cells", "computed"]
  let id ← Json.required? Json.toText? "id" fields
  let cells ← Json.defaulted? (Cells.ofJson? (p.inside 1)) ∅ "cells" fields
  let computed ← Json.defaulted? (Cells.ofJson? (p.inside 1)) ∅ "computed" fields
  return { id, cells, computed }

end Row

end FormulaTable
