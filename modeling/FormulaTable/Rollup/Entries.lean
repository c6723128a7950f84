import FormulaTable.Column
import FormulaTable.Row
import FormulaTable.Value.Coercion

/-!
# Entries of a rollup

A rollup reads one column of the related rows. Each row gives one entry; a list of options in a
column of such lists gives an entry for each option, and a null for none.
-/

namespace FormulaTable

/-- What a rollup reads: the number of rows, and their entries. -/
structure Entries where
  rowCount : Nat
  values : List Value

namespace Entries

/-- The entries of the chosen options. -/
def ofOptions (items : List String) : List Value :=
  if items.isEmpty then [.null] else items.map .text

/-- The entries that one row gives. -/
def ofRow (target : Column) (row : Row) : List Value :=
  match target.kind, row.value target with
  | .multiSelect, .options items => ofOptions items
  | _, v => [v]

/-- The entries of rows. -/
def ofRows (target : Column) (rows : List Row) : Entries :=
  { rowCount := rows.length, values := rows.flatMap (ofRow target) }

/-- The entries that are not empty. -/
def filled (e : Entries) : List Value := e.values.filter fun v => !v.isEmpty

/-- The number of empty entries. -/
def emptyCount (e : Entries) : Nat := e.values.length - e.filled.length

/-- The entries that are numbers, in their order. -/
def numbers (e : Entries) : List Float := e.values.filterMap Value.toNumber?

/-- The entries that are dates, as milliseconds since 1970-01-01. -/
def times (e : Entries) : List Float :=
  e.values.filterMap fun v => v.toInstant?.map Calendar.Instant.toNumber

end Entries

end FormulaTable
