import FormulaTable.Relation.Basic
import FormulaTable.Text.Space

/-!
# Tables

Tables held by id resolve relations among themselves. A relation column names the table it leads to;
without a name it leads to the default table.
-/

namespace FormulaTable

/-- The ids of the rows that a cell of a relation column points at: those of references to rows, the
options, or a text without the white space around it. -/
def Value.relatedIds : Value → List String
  | references refs => (refs.filter (·.kind = .relation)).map Reference.id
  | options ids => ids
  | text s =>
    let id := Text.trim s.toList
    if id.isEmpty then [] else [String.ofList id]
  | _ => []

/-- A table. -/
structure Table where
  id : String
  columns : List Column
  rows : List Row

/-- The first row with this id. -/
def Table.row? (t : Table) (id : String) : Option Row := t.rows.find? (·.id = id)

/-- Tables by id, and the id of the one that relations without a target lead to. -/
structure TableSet where
  tables : Std.ExtTreeMap String Table compare
  default : Option String

namespace TableSet

/-- No tables. -/
def empty : TableSet := { tables := ∅, default := none }

/-- Adds a table, in place of any other with its id. -/
def insert (s : TableSet) (t : Table) : TableSet := { s with tables := s.tables.insert t.id t }

/-- The table that a relation column names. -/
def targetId? (relation : Column) : Option String :=
  match relation.config with
  | some (.relation table) => table
  | _ => none

/-- The table that a relation column leads to. -/
def target (s : TableSet) (relation : Column) : Except RelationError Table :=
  match targetId? relation <|> s.default with
  | none => .error { column := relation.id, cause := .noTargetTable }
  | some id =>
    match s.tables[id]? with
    | none => .error { column := relation.id, cause := .unknownTable id }
    | some t => .ok t

/-- The rows that a relation leads to. Ids without a row are passed over. -/
def resolve (s : TableSet) : Resolver := fun row relation => do
  let t ← s.target relation
  return {
    rows := (row.cell relation.id).relatedIds.filterMap t.row?
    columns := t.columns }

end TableSet

end FormulaTable
