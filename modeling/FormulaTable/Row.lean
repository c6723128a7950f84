import FormulaTable.Column
import FormulaTable.Value.Basic
import Std.Data.ExtTreeMap

/-!
# Rows

A row holds the values typed into its cells and the values computed for its derived columns, both by
column id. A cell that is not there is null.
-/

namespace FormulaTable

/-- Values by column id. Two of them are equal if they hold the same values. -/
abbrev Cells := Std.ExtTreeMap String Value compare

/-- A row of a table. -/
structure Row where
  id : String
  cells : Cells
  computed : Cells

namespace Row

/-- A row without any values. -/
def empty (id : String) : Row := { id, cells := ∅, computed := ∅ }

/-- The value of a cell. -/
def cell (r : Row) (id : String) : Value := r.cells[id]?.getD .null

/-- Puts a value into a cell. -/
def setCell (r : Row) (id : String) (v : Value) : Row := { r with cells := r.cells.insert id v }

/-- Stores a computed value. -/
def setComputed (r : Row) (id : String) (v : Value) : Row :=
  { r with computed := r.computed.insert id v }

/-- The value of a column: for a derived column its computed value, if there is one, and the cell
otherwise. -/
def value (r : Row) (c : Column) : Value :=
  if c.kind.isDerived then r.computed[c.id]?.getD (r.cell c.id) else r.cell c.id

end Row

end FormulaTable
