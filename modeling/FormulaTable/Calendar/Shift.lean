import FormulaTable.Calendar.Instant

/-!
# Moving an instant

By milliseconds, or by months of the calendar. There is no result beyond the calendar.
-/

namespace FormulaTable.Calendar.Instant

/-- Moves by milliseconds. Within a leap second and the second before it the nanoseconds are counted
on; moving forward out of a leap second counts from the second it follows, and moving back by a
second or more from the second after it. -/
def addMillis? (t : Instant) (ms : Int) : Option Instant :=
  let nanos : Int := t.nano + ms * nanosPerMilli
  let start : Int := t.second * nanosPerSecond
  if t.inLeapSecond then
    if 2 * nanosPerSecond ≤ nanos then ofNanos? t.day (start + nanos - nanosPerSecond)
    else if ms ≤ -1000 then ofNanos? t.day (start + nanos)
    else ofFields? t.day t.second nanos.toNat
  else ofNanos? t.day (start + nanos)

/-- Moves by months. The day of the month is kept, or else becomes the last day of the month. -/
def addMonths? (t : Instant) (months : Int) : Option Instant :=
  let c := t.civil
  let count := c.year * 12 + (c.month - 1) + months
  let year := count / 12
  let month := (count % 12).toNat + 1
  (dayOf? year month (min c.day (daysInMonth year month))).bind fun d =>
    ofFields? d t.second t.nano

end FormulaTable.Calendar.Instant
