import FormulaTable.Calendar.Shift
import FormulaTable.Text.Case
import FormulaTable.Text.Space

/-!
# Units of time

Years and months follow the calendar; the other units have a fixed length. An instant is moved by
units, two instants are compared in units, and a unit of time is bounded by its start and its end.
-/

namespace FormulaTable.Calendar

/-- A unit of time. -/
inductive TimeUnit where
  | year
  | month
  | week
  | day
  | hour
  | minute
  | second
  | millisecond
deriving DecidableEq, Repr

/-- Why a computation with instants is abandoned. -/
inductive Fault where
  /-- A week that starts before the first day of the calendar. -/
  | weekBeforeCalendar
deriving DecidableEq, Repr

namespace TimeUnit

/-- The unit with this name, in any case, singular or plural, with white space around it. -/
def ofName? (name : List Char) : Option TimeUnit :=
  let name := Text.lower (Text.trim name)
  let singular := if name.getLast? = some 's' then name.dropLast else name
  match String.ofList singular with
  | "year" => some .year
  | "month" => some .month
  | "week" => some .week
  | "day" => some .day
  | "hour" => some .hour
  | "minute" => some .minute
  | "second" => some .second
  | "millisecond" => some .millisecond
  | _ => none

/-- The length in milliseconds of a unit of fixed length. -/
def millis? : TimeUnit → Option Nat
  | .year | .month => none
  | .week => some 604800000
  | .day => some 86400000
  | .hour => some 3600000
  | .minute => some 60000
  | .second => some 1000
  | .millisecond => some 1

/-- The number of months of a unit that follows the calendar. -/
def months : TimeUnit → Float
  | .year => 12
  | _ => 1

end TimeUnit

namespace Instant

/-- The greatest number of months an instant can be moved by. -/
def maxMonths : Float := 4294967295

/-- Moves by an amount of units: by the nearest whole number of milliseconds if the unit has a fixed
length, and by whole years or months otherwise. -/
def shift? (t : Instant) (amount : Float) (unit : TimeUnit) : Option Instant :=
  if amount.isFinite then
    match unit.millis? with
    | some ms => t.addMillis? (Number.toInt64 (Number.roundHalfAway (amount * Float.ofNat ms)))
    | none =>
      let months := Number.truncate amount * unit.months
      if maxMonths < months.abs then none else t.addMonths? (Number.toInt64 months)
  else none

/-- The whole units from `earlier` to `later`. Years and months are the difference of the calendar's
numbers; the other units fit that often into the milliseconds between, rounded down. -/
def difference (later earlier : Instant) (unit : TimeUnit) : Float :=
  let years := Float.ofInt (later.civil.year - earlier.civil.year)
  match unit with
  | .year => years
  | .month => years * 12 + Float.ofInt (later.civil.month - earlier.civil.month)
  | unit => Number.floor ((later.toNumber - earlier.toNumber) / Float.ofNat (unit.millis?.getD 1))

/-- The first instant of the unit around `t`. A week starts on Sunday; one that would start before the
calendar is a fault. -/
def startOf (t : Instant) (unit : TimeUnit) : Except Fault (Option Instant) :=
  match unit with
  | .year => .ok ((dayOf? t.civil.year 1 1).bind (ofFields? · 0 0))
  | .month => .ok ((dayOf? t.civil.year t.civil.month 1).bind (ofFields? · 0 0))
  | .week =>
    let sunday := t.day - t.weekday
    if InCalendar sunday then .ok (ofFields? sunday 0 0) else .error .weekBeforeCalendar
  | .day => .ok (t.atTime? 0 0)
  | .hour => .ok (t.atTime? (t.hour * 3600) 0)
  | .minute => .ok (t.atTime? (t.hour * 3600 + t.minute * 60) 0)
  | .second => .ok (t.atTime? t.second 0)
  | .millisecond => .ok (t.atTime? t.second (t.milli * nanosPerMilli))

/-- The last millisecond of the unit around `t`: one before the start of the next one. -/
def endOf (t : Instant) (unit : TimeUnit) : Except Fault (Option Instant) :=
  (t.startOf unit).map fun start? =>
    start?.bind fun start => (start.shift? 1 unit).bind fun next => next.addMillis? (-1)

end Instant

end FormulaTable.Calendar
