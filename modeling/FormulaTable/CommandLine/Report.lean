import FormulaTable.CommandLine.Arguments
import FormulaTable.Json.Reading
import FormulaTable.Json.Text
import FormulaTable.Rollup.Aggregation
import FormulaTable.Stored.Column
import FormulaTable.Stored.Engine
import FormulaTable.Stored.Rollup
import FormulaTable.Stored.Row

/-!
# Commands and their reports

A command reads the files it names, and reports what it prints, an error if it fails, and an exit
code. Answers are printed as JSON with one member or item to a line.
-/

namespace FormulaTable.CommandLine

open Calendar (Instant)
open Formula (Engine EngineOptions)
open Json (Place)

/-- The contents of files by path; none of a file that cannot be read. -/
abbrev Files := String → Option String

/-- Why a command fails. -/
inductive CommandError where
  | unreadable (path : String)
  | invalidJson (path : String)
  | evaluation (formula : String)
  /-- The evaluation is abandoned because of a date. -/
  | abandoned (formula : String)
  | invalidFormula
deriving DecidableEq, Repr

/-- The wording of the error. -/
def CommandError.message : CommandError → String
  | unreadable path => "Failed to read '" ++ path ++ "'"
  | invalidJson path => "Invalid JSON in '" ++ path ++ "'"
  | evaluation formula => "Failed to evaluate '" ++ formula ++ "'"
  | abandoned formula => "Abandoned the evaluation of '" ++ formula ++ "'"
  | invalidFormula => "Invalid formula"

/-- The exit code of a run that ends with the error: an abandoned evaluation has one of its own. -/
def CommandError.exitCode : CommandError → Nat
  | abandoned _ => 101
  | unreadable _ | invalidJson _ | evaluation _ | invalidFormula => 1

/-- What a run of the program leaves. -/
structure Report where
  exitCode : Nat
  output : String
  /-- The text for the error stream. -/
  errors : String
deriving DecidableEq, Repr

namespace Report

/-- Everything went well. -/
def success (output : String) : Report := { exitCode := 0, output, errors := "" }

/-- A command failed after it had printed something. -/
def failure (output : String) (e : CommandError) : Report :=
  { exitCode := e.exitCode, output, errors := "Error: " ++ e.message ++ "\n" }

/-- The arguments make no command. -/
def ofRefusal : Refusal → Report
  | .misused => { exitCode := 2, output := "", errors := "error: unexpected arguments\n" }
  | .version => success "tabula 0.1.0\n"

end Report

/-- A line for each member or item of a value. -/
def lines (j : Json) : String := String.ofList (j.pretty 0 ++ ['\n'])

/-- Reads a stored value from a file. -/
def load {α : Type} (files : Files) (decode : Json → Option α) (path : String) :
    Except CommandError α :=
  match files path with
  | none => .error (.unreadable path)
  | some text =>
    match (Json.ofText? text.toList).bind decode with
    | none => .error (.invalidJson path)
    | some a => .ok a

/-- Reads a stored value from a file, if there is one. -/
def loadOr {α : Type} (default : α) (files : Files) (decode : Json → Option α) :
    Option String → Except CommandError α
  | none => .ok default
  | some path => load files decode path

/-- The place of the items of a stored list. -/
def itemPlace : Place := { depth := 1 }

/-- Evaluates a formula for a row. -/
def evaluate (engine : Engine) (now : Instant) (files : Files) (formula : String)
    (columns row : Option String) : Except CommandError String := do
  let columns ← loadOr [] files (Json.toList? (Column.ofJson? itemPlace)) columns
  let row ← loadOr (Row.empty "row") files (Row.ofJson? {}) row
  match (engine.evaluate formula row columns now).1 with
  | .ok v => return lines v.toJson
  | .error (.error _) => throw (.evaluation formula)
  | .error (.abandoned _) => throw (.abandoned formula)

/-- Calculates a rollup. -/
def calculate (files : Files) (config target rows : String) : Except CommandError String := do
  let config ← load files (RollupConfig.ofJson? {}) config
  let target ← load files (Column.ofJson? {}) target
  let rows ← load files (Json.toList? (Row.ofJson? itemPlace)) rows
  return lines (config.calculate target rows).toJson

/-- The report of something printed or an error. -/
def Report.ofResult : Except CommandError String → Report
  | .ok output => success output
  | .error e => failure "" e

/-- The report of a check of a formula. -/
def check (engine : Engine) (formula : String) : Report :=
  let validation := (engine.validate formula).1
  if validation.isNone then .success (lines validation.toJson)
  else .failure (lines validation.toJson) .invalidFormula

/-- The engine that a request asks for. -/
def Request.engine (r : Request) : Engine :=
  let defaults : EngineOptions := {}
  .new { maxDepth := r.maxDepth.getD defaults.maxDepth, remembers := !r.noCache }

/-- Carries out a request. -/
def Request.report (r : Request) (now : Instant) (files : Files) : Report :=
  match r.command with
  | .eval formula columns row =>
    .ofResult (evaluate r.engine now files formula columns row)
  | .validate formula => check r.engine formula
  | .rollup config target rows => .ofResult (calculate files config target rows)
  | .functions => .success (String.join (Formula.builtinNames.map (· ++ "\n")))

/-- The report of a run with these arguments. -/
def run (arguments : List String) (now : Instant) (files : Files) : Report :=
  match Request.ofArguments arguments with
  | .ok request => request.report now files
  | .error refusal => .ofRefusal refusal

/-- The paths of the files that a command reads. -/
def Command.paths : Command → List String
  | eval _ columns row => columns.toList ++ row.toList
  | rollup config target rows => [config, target, rows]
  | validate _ | functions => []

end FormulaTable.CommandLine
