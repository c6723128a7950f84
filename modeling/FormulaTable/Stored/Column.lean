import FormulaTable.Column
import FormulaTable.Stored.Value

/-!
# Stored columns

A column is stored with its id, name and type, and with its settings if it has any. The settings say
which kind of column they are for.
-/

namespace FormulaTable

open Json (Place)

namespace RollupConfig

/-- The fields of the settings of a rollup. -/
def fields (c : RollupConfig) : List (String × Json) :=
  [("relation_column_id", .text c.relation), ("target_column_id", .text c.target),
    ("function", .text c.aggregation.name)]

/-- The stored form of the settings of a rollup. -/
def toJson (c : RollupConfig) : Json := .record c.fields

/-- Reads the stored settings of a rollup. -/
def ofJson? (p : Place) (j : Json) : Option RollupConfig := do
  let fields ← j.toFields? ["relation_column_id", "target_column_id", "function"]
  let relation ← Json.required? Json.toText? "relation_column_id" fields
  let target ← Json.required? Json.toText? "target_column_id" fields
  let aggregation ←
    Json.required? (fun j => (j.toName? p).bind Aggregation.ofExactName?) "function" fields
  return { relation, target, aggregation }

end RollupConfig

namespace ColumnConfig

/-- The kind of settings, and their fields. -/
def kindAndFields : ColumnConfig → String × List (String × Json)
  | formula expression => ("formula", [("expression", .text expression)])
  | rollup config => ("rollup", config.fields)
  | relation table => ("relation", [("target_table_id", (table.map .text).getD .null)])
  | select choices => ("select", [("options", .array (choices.map .text))])

/-- The stored form of settings. -/
def toJson (c : ColumnConfig) : Json :=
  .record (("kind", .text c.kindAndFields.1) :: c.kindAndFields.2)

/-- Reads stored settings. -/
def ofJson? (p : Place) (j : Json) : Option ColumnConfig := do
  let (kind, j) ← j.toKindAndFields? p
  match kind with
  | "formula" => do
    let fields ← j.toFields? ["expression"]
    return formula (← Json.required? Json.toText? "expression" fields)
  | "rollup" => return rollup (← RollupConfig.ofJson? { p with held := true } j)
  | "relation" => do
    let fields ← j.toFields? ["target_table_id"]
    return relation (← Json.optional? Json.toText? "target_table_id" fields)
  | "select" => do
    let fields ← j.toFields? ["options"]
    return select (← Json.defaulted? (Json.toList? Json.toText?) [] "options" fields)
  | _ => none

end ColumnConfig

namespace Column

/-- The stored form of a column. -/
def toJson (c : Column) : Json :=
  .record ([("id", .text c.id), ("name", .text c.name), ("type", .text c.kind.name)] ++
    Json.optionalField "config" (c.config.map ColumnConfig.toJson))

/-- Reads a stored column. -/
def ofJson? (p : Place) (j : Json) : Option Column := do
  let fields ← j.toFields? ["id", "name", "type", "config"]
  let id ← Json.required? Json.toText? "id" fields
  let name ← Json.required? Json.toText? "name" fields
  let kind ← Json.required? (fun j => (j.toName? p).bind ColumnKind.ofName?) "type" fields
  let config ← Json.optional? (ColumnConfig.ofJson? (p.inside 1)) "config" fields
  return { id, name, kind, config }

end Column

end FormulaTable
