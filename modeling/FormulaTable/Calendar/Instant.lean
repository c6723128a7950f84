import FormulaTable.Calendar.Day
import FormulaTable.Number.Exact

/-!
# Instants

An instant is a day of the calendar with a second of the day and nanoseconds, all in universal time.
A leap second is kept in the second before it, as its nanoseconds from 1,000,000,000 on, so it is
always the last second of a minute.
-/

namespace FormulaTable.Calendar

/-- The number of seconds of a day. -/
def secondsPerDay : Nat := 86400

/-- The number of nanoseconds of a second. -/
def nanosPerSecond : Nat := 1000000000

/-- The number of nanoseconds of a millisecond. -/
def nanosPerMilli : Nat := 1000000

/-- A point in time. -/
structure Instant where
  day : Int
  second : Nat
  nano : Nat
  inCalendar : InCalendar day
  second_lt : second < secondsPerDay
  nano_lt : nano < 2 * nanosPerSecond
  leap : nanosPerSecond ≤ nano → second % 60 = 59
deriving DecidableEq

namespace Instant

/-! ## Building instants -/

/-- The instant with these fields, if they are in range. -/
def ofFields? (day : Int) (second nano : Nat) : Option Instant :=
  if h : InCalendar day ∧ second < secondsPerDay ∧ nano < 2 * nanosPerSecond ∧
      (nanosPerSecond ≤ nano → second % 60 = 59) then
    some ⟨day, second, nano, h.1, h.2.1, h.2.2.1, h.2.2.2⟩
  else none

/-- The instant `nanos` nanoseconds after the start of a day, before it if negative. -/
def ofNanos? (day nanos : Int) : Option Instant :=
  let seconds := nanos / nanosPerSecond
  ofFields? (day + seconds / secondsPerDay) (seconds % secondsPerDay).toNat
    (nanos % nanosPerSecond).toNat

/-- The instant with this date and time of day, if both exist. -/
def ofCivil? (year : Int) (month day hour minute second : Nat) : Option Instant :=
  if hour < 24 ∧ minute < 60 ∧ second < 60 then
    (dayOf? year month day).bind fun d => ofFields? d (hour * 3600 + minute * 60 + second) 0
  else none

/-- The same day at another time. -/
def atTime? (t : Instant) (second nano : Nat) : Option Instant := ofFields? t.day second nano

/-- The start of the day. -/
def midnight? (t : Instant) : Option Instant := t.atTime? 0 0

/-! ## Fields -/

/-- The name of the day. -/
def civil (t : Instant) : Civil := Civil.ofDay t.day

def hour (t : Instant) : Nat := t.second / 3600

def minute (t : Instant) : Nat := t.second / 60 % 60

/-- The second of the minute; 59 in a leap second. -/
def secondOfMinute (t : Instant) : Nat := t.second % 60

/-- Milliseconds since the start of the second; 1000 or more in a leap second. -/
def milli (t : Instant) : Nat := t.nano / nanosPerMilli

/-- The number of days since the last Sunday. -/
def weekday (t : Instant) : Nat := Calendar.weekday t.day

/-- The instant lies in a leap second. -/
def inLeapSecond (t : Instant) : Bool := nanosPerSecond ≤ t.nano

/-! ## Order -/

/-- The chronological order. -/
def compare (s t : Instant) : Ordering :=
  (Ord.compare s.day t.day).then
    ((Ord.compare s.second t.second).then (Ord.compare s.nano t.nano))

/-! ## Milliseconds -/

/-- Whole milliseconds since 1970-01-01. -/
def epochMillis (t : Instant) : Int :=
  (t.day * secondsPerDay + t.second) * 1000 + t.milli

/-- The instant a number of milliseconds after 1970-01-01. -/
def ofEpochMillis? (ms : Int) : Option Instant := ofNanos? 0 (ms * nanosPerMilli)

/-- Whole milliseconds since 1970-01-01 as a number. -/
def toNumber (t : Instant) : Float := Float.ofInt t.epochMillis

/-- The instant a number stands for: its milliseconds since 1970-01-01, fractions cut off. -/
def ofNumber? (x : Float) : Option Instant :=
  if x.isFinite then ofEpochMillis? (Number.toInt64 x) else none

end Instant

end FormulaTable.Calendar
