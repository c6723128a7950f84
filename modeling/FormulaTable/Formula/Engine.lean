import FormulaTable.Formula.Evaluation

/-!
# Engines

An engine reads and evaluates formulas. It remembers the trees of the formulas it has read, counts how
often it read one, and holds the functions added to it.
-/

namespace FormulaTable.Formula

open Calendar (Instant)

/-- The settings of an engine: the greatest depth of an evaluation, and whether trees are
remembered. -/
structure EngineOptions where
  maxDepth : Nat := 100
  remembers : Bool := true
deriving DecidableEq, Repr

/-- The trees of formulas. -/
abbrev Cache := Std.ExtTreeMap String Expr compare

/-- An engine. -/
structure Engine where
  options : EngineOptions
  cache : Cache
  parseCount : Nat
  custom : CustomFunctions

/-- What a check of a formula finds. -/
abbrev Validation := Option SyntaxError

/-- The value of a formula, null if it fails, and the error if it fails. -/
structure EvaluationOutcome where
  value : Value
  error : Option FormulaError

namespace Engine

/-- An engine that has done nothing yet. -/
def new (options : EngineOptions) : Engine :=
  { options, cache := ∅, parseCount := 0, custom := ∅ }

/-! ## Reading -/

/-- Reads a formula that is not remembered. -/
def parseNew (engine : Engine) (formula : String) : Except SyntaxError Expr × Engine :=
  let counted := { engine with parseCount := engine.parseCount + 1 }
  match Formula.parse formula with
  | .error e => (.error e, counted)
  | .ok e =>
    if engine.options.remembers then
      (.ok e, { counted with cache := engine.cache.insert formula e })
    else (.ok e, counted)

/-- The tree of a formula: the remembered one, or else it is read. Errors are not remembered. -/
def parse (engine : Engine) (formula : String) : Except SyntaxError Expr × Engine :=
  if engine.options.remembers then
    match engine.cache[formula]? with
    | some e => (.ok e, engine)
    | none => engine.parseNew formula
  else engine.parseNew formula

/-- Checks a formula without evaluating it; the syntax error, if there is one. -/
def validate (engine : Engine) (formula : String) : Validation × Engine :=
  match engine.parse formula with
  | (.ok _, engine) => (none, engine)
  | (.error e, engine) => (some e, engine)

/-- The number of remembered trees. -/
def cacheSize (engine : Engine) : Nat := engine.cache.size

/-- Forgets all trees. -/
def clearCache (engine : Engine) : Engine := { engine with cache := ∅ }

/-! ## Evaluating -/

/-- What a formula sees in this engine. -/
def scope (engine : Engine) (row : Row) (columns : List Column) (now : Instant) : Scope :=
  { row, columns, now, maxDepth := engine.options.maxDepth, custom := engine.custom }

/-- The value of a tree. -/
def evaluateExpr (engine : Engine) (e : Expr) (row : Row) (columns : List Column) (now : Instant) :
    Except Failure Value :=
  (engine.scope row columns now).eval e

/-- The value of a formula. -/
def evaluate (engine : Engine) (formula : String) (row : Row) (columns : List Column)
    (now : Instant) : Except Failure Value × Engine :=
  match engine.parse formula with
  | (.error e, engine) => (.error (.error (.invalid e)), engine)
  | (.ok e, engine) => (engine.evaluateExpr e row columns now, engine)

/-- The value of a formula with its error set apart. Only an abandoned evaluation has no outcome. -/
def evaluateOutcome (engine : Engine) (formula : String) (row : Row) (columns : List Column)
    (now : Instant) : Except Calendar.Fault EvaluationOutcome × Engine :=
  match engine.evaluate formula row columns now with
  | (.ok value, engine) => (.ok { value, error := none }, engine)
  | (.error (.error e), engine) => (.ok { value := .null, error := some e }, engine)
  | (.error (.abandoned fault), engine) => (.error fault, engine)

/-! ## Functions -/

/-- Adds a function, in place of any other that was added under its name. -/
def register (engine : Engine) (name : String) (f : CustomFunction) : Engine :=
  { engine with custom := engine.custom.insert (Text.fold name) f }

/-- Removes an added function; says if there was one. -/
def unregister (engine : Engine) (name : String) : Bool × Engine :=
  (engine.custom.contains (Text.fold name),
    { engine with custom := engine.custom.erase (Text.fold name) })

/-- There is an added or built-in function with this name. -/
def hasFunction (engine : Engine) (name : String) : Bool :=
  engine.custom.contains (Text.fold name) || (builtin? name).isSome

end Engine

end FormulaTable.Formula
