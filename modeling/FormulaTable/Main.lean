import FormulaTable.CommandLine.Report
import Std.Time.DateTime.Timestamp

/-!
# The program

Reads the files that the arguments name and the clock, and prints the report.
-/

namespace FormulaTable

open Calendar (Instant)
open CommandLine

/-- The content of a file with its path, if it can be read. -/
def readFile (path : String) : IO (String × Option String) := do
  return (path, (← (IO.FS.readFile path).toBaseIO).toOption)

/-- The time of day. -/
def readClock : IO (Option Instant) := do
  return Instant.ofNanos? 0 (← Std.Time.Timestamp.now).toNanosecondsSinceUnixEpoch.val

/-- The paths of the files that arguments name. -/
def pathsOf (arguments : List String) : List String :=
  match Request.ofArguments arguments with
  | .ok request => request.command.paths
  | .error _ => []

end FormulaTable

open FormulaTable in
/-- Evaluates formulas and rollups over stored tables. -/
def main (arguments : List String) : IO UInt32 := do
  let contents ← (pathsOf arguments).mapM readFile
  let some now ← readClock | throw (IO.userError "the clock is out of range")
  let report := CommandLine.run arguments now fun path => (contents.lookup path).join
  IO.print report.output
  IO.eprint report.errors
  return report.exitCode.toUInt32
