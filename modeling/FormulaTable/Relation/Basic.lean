import FormulaTable.Column
import FormulaTable.Row

/-!
# Relations

A relation column leads from a row to other rows. How they are found is up to a resolver.
-/

namespace FormulaTable

/-- The rows that a relation leads to, and the columns of their table. -/
structure RelatedRows where
  rows : List Row
  columns : List Column

/-- Why a relation leads nowhere. -/
inductive RelationCause where
  | noResolver
  | noTargetTable
  | unknownTable (id : String)
  /-- A resolver's own reason. -/
  | other (reason : String)
deriving DecidableEq, Repr

/-- The wording of a cause. -/
def RelationCause.message : RelationCause → String
  | noResolver => "no relation resolver configured"
  | noTargetTable => "no target table"
  | unknownTable id => "unknown table " ++ id
  | other reason => reason

/-- A relation column that leads nowhere, and why. -/
structure RelationError where
  column : String
  cause : RelationCause
deriving DecidableEq, Repr

/-- The wording of the error. -/
def RelationError.message (e : RelationError) : String :=
  "Cannot resolve relation " ++ e.column ++ ": " ++ e.cause.message

/-- Finds the rows related to a row through a relation column. -/
abbrev Resolver := Row → Column → Except RelationError RelatedRows

/-- The resolver of tables without relations. -/
def Resolver.none : Resolver := fun _ relation =>
  .error { column := relation.id, cause := .noResolver }

end FormulaTable
