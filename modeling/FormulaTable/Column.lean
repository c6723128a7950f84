/-!
# Columns

A column has an id, by which rows hold its cells, a name, by which formulas refer to it, a kind, and
settings that some kinds need.
-/

namespace FormulaTable

/-- The kind of a column. -/
inductive ColumnKind where
  | text
  | number
  | date
  | boolean
  | select
  | multiSelect
  | url
  | file
  | formula
  | relation
  | rollup
  | createdTime
  | lastEditedTime
deriving DecidableEq, Repr

namespace ColumnKind

/-- Every kind. -/
def all : List ColumnKind :=
  [text, number, date, boolean, select, multiSelect, url, file, formula, relation, rollup,
    createdTime, lastEditedTime]

/-- The name of a kind in a stored schema. -/
def name : ColumnKind → String
  | text => "text"
  | number => "number"
  | date => "date"
  | boolean => "boolean"
  | select => "select"
  | multiSelect => "multi_select"
  | url => "url"
  | file => "file"
  | formula => "formula"
  | relation => "relation"
  | rollup => "rollup"
  | createdTime => "created_time"
  | lastEditedTime => "last_edited_time"

/-- The kind with this name. -/
def ofName? (s : String) : Option ColumnKind := all.find? (·.name = s)

/-- The values of the column are computed from others. -/
def isDerived : ColumnKind → Bool
  | formula | rollup => true
  | _ => false

/-- The values of the column are dates. -/
def isDate : ColumnKind → Bool
  | date | createdTime | lastEditedTime => true
  | _ => false

end ColumnKind

/-- What a rollup makes of the related values. -/
inductive Aggregation where
  | count
  | countValues
  | countNotEmpty
  | countUnique
  | countEmpty
  | sum
  | average
  | min
  | max
  | percentEmpty
  | percentNotEmpty
  | showOriginal
  | showUnique
deriving DecidableEq, Repr

namespace Aggregation

/-- Every aggregation. -/
def all : List Aggregation :=
  [count, countValues, countNotEmpty, countUnique, countEmpty, sum, average, min, max, percentEmpty,
    percentNotEmpty, showOriginal, showUnique]

/-- The name of an aggregation. -/
def name : Aggregation → String
  | count => "count"
  | countValues => "countValues"
  | countNotEmpty => "countNotEmpty"
  | countUnique => "countUnique"
  | countEmpty => "countEmpty"
  | sum => "sum"
  | average => "average"
  | min => "min"
  | max => "max"
  | percentEmpty => "percentEmpty"
  | percentNotEmpty => "percentNotEmpty"
  | showOriginal => "showOriginal"
  | showUnique => "showUnique"

/-- The aggregation with exactly this name. -/
def ofExactName? (s : String) : Option Aggregation := all.find? (·.name = s)

/-- The aggregation with this name; ASCII letters may be small or capital. -/
def ofName? (s : String) : Option Aggregation :=
  all.find? fun f => f.name.toList.map Char.toLower = s.toList.map Char.toLower

end Aggregation

/-- A name that stands for nothing. -/
inductive NameError where
  | unknownColumnKind (name : String)
  | unknownAggregation (name : String)
deriving DecidableEq, Repr

/-- The wording of the error. -/
def NameError.message : NameError → String
  | unknownColumnKind name => "Unknown column type: " ++ name
  | unknownAggregation name => "Unknown rollup function: " ++ name

/-- The settings of a rollup: the relation column it follows, the column of the related table it
reads, and what it makes of the values. -/
structure RollupConfig where
  relation : String
  target : String
  aggregation : Aggregation
deriving DecidableEq, Repr

/-- The settings of a column. -/
inductive ColumnConfig where
  | formula (expression : String)
  | rollup (config : RollupConfig)
  /-- The table a relation leads to; without one, the table of its row. -/
  | relation (table : Option String)
  | select (choices : List String)
deriving DecidableEq, Repr

/-- A column of a table. -/
structure Column where
  id : String
  name : String
  kind : ColumnKind
  config : Option ColumnConfig
deriving DecidableEq, Repr

namespace Column

/-- The formula of a formula column. -/
def formula? (c : Column) : Option String :=
  match c.config with
  | some (.formula expression) => some expression
  | _ => none

/-- The settings of a rollup column. -/
def rollup? (c : Column) : Option RollupConfig :=
  match c.config with
  | some (.rollup config) => some config
  | _ => none

end Column

end FormulaTable
