import FormulaTable.Calendar.Pattern
import FormulaTable.Formula.Library.Basic

/-!
# Functions of dates

All dates are in universal time. What cannot be read as a date, and a result beyond the calendar, is
null.
-/

namespace FormulaTable.Formula.Library

open Calendar (Instant TimeUnit Fault)

/-- The pattern of a date where none is given. -/
def defaultPattern : List Char := "YYYY-MM-DD".toList

/-- An argument as a unit of time. -/
def unitArg (args : List Value) (i : Nat) : Option TimeUnit := TimeUnit.ofName? (textArg args i)

/-- A date that may be missing. -/
def ofInstant (t : Option Instant) : Value := .ofOption .date t

/-- The day of the clock. -/
def today (now : Instant) : Value := ofInstant now.midnight?

/-- Moves a date by an amount of units, times a factor. -/
def move (factor : Float) (args : List Value) : Value :=
  match dateArg args 0, numberArg args 1, unitArg args 2 with
  | some t, some amount, some unit => ofInstant (t.shift? (factor * amount) unit)
  | _, _, _ => .null

/-- The units from the second date to the first. -/
def dateBetween (args : List Value) : Value :=
  match dateArg args 0, dateArg args 1, unitArg args 2 with
  | some later, some earlier, some unit => .number (later.difference earlier unit)
  | _, _, _ => .null

/-- A date in a pattern. -/
def formatDate (args : List Value) : Value :=
  .ofOption (fun t : Instant =>
      .ofChars (t.format (if 1 < args.length then textArg args 1 else defaultPattern)))
    (dateArg args 0)

/-- A number that belongs to a date. -/
def part (f : Instant → Int) (args : List Value) : Value :=
  .ofOption (fun t => .number (Float.ofInt (f t))) (dateArg args 0)

/-- A date from its year, month and day and its hour, minute and second, which are zero if missing. -/
def ofParts? (parts : List Int) : Option Instant := do
  let part := fun i => (parts.getD i 0).toNat?
  let month ← part 1
  let day ← part 2
  let hour ← part 3
  let minute ← part 4
  let second ← part 5
  Instant.ofCivil? (parts.getD 0 0) month day hour minute second

/-- The start of the day of one date, or a date from at least three parts. -/
def date (args : List Value) : Value :=
  if args.length = 1 then ofInstant ((dateArg args 0).bind Instant.midnight?)
  else if args.length < 3 then .null
  else
    ofInstant (((args.take 6).mapM fun v : Value => v.toNumber?.map Number.toInt64).bind ofParts?)

/-- A date that a date and a unit of time give. -/
def bound (f : Instant → TimeUnit → Except Fault (Option Instant)) (args : List Value) :
    Except Fault Value :=
  match dateArg args 0, unitArg args 1 with
  | some t, some unit => (f t unit).map ofInstant
  | _, _ => .ok .null

/-- The functions of dates. -/
def dates : List Builtin :=
  [.timed "now" .date,
    .timed "today" today,
    .pure "dateAdd" (.exactly 3) (move 1),
    .pure "dateSubtract" (.exactly 3) (move (-1)),
    .pure "dateBetween" (.exactly 3) dateBetween,
    .pure "formatDate" (.between 1 2) formatDate,
    .pure "year" (.exactly 1) (part fun t => t.civil.year),
    .pure "month" (.exactly 1) (part fun t => t.civil.month),
    .pure "day" (.exactly 1) (part fun t => t.civil.day),
    .pure "dayOfWeek" (.exactly 1) (part fun t => t.weekday),
    .pure "hour" (.exactly 1) (part fun t => t.hour),
    .pure "minute" (.exactly 1) (part fun t => t.minute),
    .pure "second" (.exactly 1) (part fun t => t.secondOfMinute),
    .pure "timestamp" (.exactly 1) (part Instant.epochMillis),
    .pure "date" (.between 1 6) date,
    .pure "parseDate" (.exactly 1) (fun args => ofInstant (dateArg args 0)),
    { name := "startOf", arity := .exactly 2, run := fun _ => bound Instant.startOf },
    { name := "endOf", arity := .exactly 2, run := fun _ => bound Instant.endOf }]

end FormulaTable.Formula.Library
