import FormulaTable.Computation.Outcome
import FormulaTable.Formula.Engine
import FormulaTable.Rollup.Aggregation

/-!
# Computing rows

The derived columns of a row are computed in the order of the columns. Each sees the results of those
before it, and of those after it what the row held before.
-/

namespace FormulaTable

open Calendar (Fault Instant)
open Formula (Engine)

/-- The kinds of derived columns that are left as they are. -/
structure Skips where
  rollups : Bool := false
  formulas : Bool := false
deriving DecidableEq, Repr

/-- Columns of this kind are left as they are. -/
def Skips.skips (s : Skips) (kind : ColumnKind) : Bool :=
  if kind = .formula then s.formulas else s.rollups

/-- What computing needs besides a row: the columns of its table, what to skip, how relations are
resolved, and the clock. -/
structure Setting where
  columns : List Column
  skips : Skips
  resolver : Resolver
  now : Instant

/-! ## One column -/

/-- The value of a rollup column. -/
def Setting.rollup (s : Setting) (row : Row) (c : Column) : Except ComputationError Value := do
  let some config := c.rollup? | throw (.missingConfig c.id .rollup)
  let some relation := Formula.columnById? s.columns config.relation
    | throw (.unknownRelation config.relation)
  let related ← (s.resolver row relation).mapError .relation
  let some target := Formula.columnById? related.columns config.target
    | throw (.unknownTarget config.target)
  return (config.calculate target related.rows).toValue

/-- The value of a formula column. -/
def Setting.formula (s : Setting) (engine : Engine) (row : Row) (c : Column) :
    Except Fault (Except ComputationError Value × Engine) :=
  match c.formula? with
  | none => .ok (.error (.missingConfig c.id .formula), engine)
  | some expression =>
    match engine.evaluate expression row s.columns s.now with
    | (.ok v, engine) => .ok (.ok v, engine)
    | (.error (.error e), engine) => .ok (.error (.formula e), engine)
    | (.error (.abandoned fault), _) => .error fault

/-- The value of a derived column. -/
def Setting.derived (s : Setting) (engine : Engine) (row : Row) (c : Column) :
    Except Fault (Except ComputationError Value × Engine) :=
  if c.kind = .formula then s.formula engine row c else .ok (s.rollup row c, engine)

/-! ## One row -/

/-- The outcome for some of the columns, in order, of a row that holds the values computed so far. -/
def Setting.computeColumns (s : Setting) (engine : Engine) (row : Row) :
    List Column → Except Fault (Outcome × Engine)
  | [] => .ok ({}, engine)
  | c :: cs =>
    if !c.kind.isDerived then s.computeColumns engine row cs
    else if s.skips.skips c.kind then do
      let (rest, engine) ← s.computeColumns engine row cs
      return (Outcome.ofSkipped ++ rest, engine)
    else do
      let (result, engine) ← s.derived engine row c
      let row := row.setComputed c.id (result.toOption.getD .null)
      let (rest, engine) ← s.computeColumns engine row cs
      return (Outcome.ofColumn c.id c.kind result ++ rest, engine)

/-- The outcome for a row. -/
def Setting.compute (s : Setting) (engine : Engine) (row : Row) : Except Fault (Outcome × Engine) :=
  s.computeColumns engine row s.columns

/-- The row with the values of an outcome. -/
def Row.store (row : Row) (o : Outcome) : Row :=
  o.values.foldl (fun row (id, v) => row.setComputed id v) row

/-- Computes a row and stores the values in it. -/
def Setting.apply (s : Setting) (engine : Engine) (row : Row) :
    Except Fault (Outcome × Row × Engine) := do
  let (outcome, engine) ← s.compute engine row
  return (outcome, row.store outcome, engine)

/-! ## All rows -/

/-- Computes rows one after another and stores the values in them. -/
def Setting.applyAll (s : Setting) (engine : Engine) :
    List Row → Except Fault (Statistics × List Row × Engine)
  | [] => .ok ({}, [], engine)
  | row :: rows => do
    let (outcome, row, engine) ← s.apply engine row
    let (statistics, rows, engine) ← s.applyAll engine rows
    return (outcome.statistics + statistics, row :: rows, engine)

end FormulaTable
