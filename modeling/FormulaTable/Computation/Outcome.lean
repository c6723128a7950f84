import FormulaTable.Formula.FormulaError
import FormulaTable.Relation.Basic
import FormulaTable.Value.Basic

/-!
# Outcomes of computing rows

The outcome for a row holds a value for every derived column that was computed, null where it failed,
the errors, and counts.
-/

namespace FormulaTable

open Formula (FormulaError)

/-- Why a derived column has no value. -/
inductive ComputationError where
  | formula (error : FormulaError)
  /-- The column lacks the settings of its kind. -/
  | missingConfig (column : String) (kind : ColumnKind)
  | unknownRelation (column : String)
  | unknownTarget (column : String)
  | relation (error : RelationError)
deriving DecidableEq

/-- The wording of the error. -/
def ComputationError.message : ComputationError → String
  | formula error => error.message
  | missingConfig column kind => "Column " ++ column ++ " has no " ++ kind.name ++ " configuration"
  | unknownRelation column => "Relation column not found: " ++ column
  | unknownTarget column => "Target column not found in related table: " ++ column
  | relation error => error.message

/-- Counts of derived columns: evaluated formulas and calculated rollups, failed ones included, the
ones that failed, and the ones that were skipped. -/
structure Statistics where
  formulas : Nat := 0
  rollups : Nat := 0
  errors : Nat := 0
  skipped : Nat := 0
deriving DecidableEq, Repr

instance : Add Statistics where
  add s t :=
    { formulas := s.formulas + t.formulas, rollups := s.rollups + t.rollups,
      errors := s.errors + t.errors, skipped := s.skipped + t.skipped }

/-- What computing the derived columns of a row gives, in the order of the columns. -/
structure Outcome where
  values : List (String × Value) := []
  errors : List (String × ComputationError) := []
  statistics : Statistics := {}

namespace Outcome

/-- The outcome of a column that is skipped. -/
def ofSkipped : Outcome := { statistics := { skipped := 1 } }

/-- The outcome of one column of a kind. -/
def ofColumn (id : String) (kind : ColumnKind) (result : Except ComputationError Value) : Outcome :=
  let formulas := if kind = .formula then 1 else 0
  let rollups := if kind = .formula then 0 else 1
  match result with
  | .ok v => { values := [(id, v)], statistics := { formulas, rollups } }
  | .error e =>
    { values := [(id, .null)], errors := [(id, e)], statistics := { formulas, rollups, errors := 1 } }

/-- One outcome after another. -/
instance : Append Outcome where
  append a b :=
    { values := a.values ++ b.values, errors := a.errors ++ b.errors,
      statistics := a.statistics + b.statistics }

/-- The value of a column. -/
def value? (o : Outcome) (id : String) : Option Value := o.values.lookup id

/-- The error of a column. -/
def error? (o : Outcome) (id : String) : Option ComputationError := o.errors.lookup id

/-- No column failed. -/
def succeeded (o : Outcome) : Bool := o.errors.isEmpty

end Outcome

end FormulaTable
