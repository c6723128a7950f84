/-!
# Days of the Gregorian calendar

Days are counted from 1970-01-01 and named by year, month and day of the Gregorian calendar, which
is carried on without end before and after its time; the year 0 comes before the year 1. The
calendar of this library starts on -262143-01-01 and ends on +262142-12-31.
-/

namespace FormulaTable.Calendar

/-- The name of a day. -/
structure Civil where
  year : Int
  month : Nat
  day : Nat
deriving DecidableEq, Repr

/-- The first day of the calendar, -262143-01-01. -/
def firstDay : Int := -96465292

/-- The last day of the calendar, +262142-12-31. -/
def lastDay : Int := 95026236

/-- The day belongs to the calendar. -/
def InCalendar (day : Int) : Prop := firstDay ≤ day ∧ day ≤ lastDay

instance (day : Int) : Decidable (InCalendar day) := inferInstanceAs (Decidable (_ ∧ _))

/-! ## Years and months -/

/-- Every fourth year is a leap year, but of the full centuries only every fourth. -/
def isLeapYear (year : Int) : Bool :=
  year % 4 == 0 && (year % 100 != 0 || year % 400 == 0)

/-- The number of days of a month. -/
def daysInMonth (year : Int) (month : Nat) : Nat :=
  if month = 2 then (if isLeapYear year then 29 else 28)
  else if month = 4 ∨ month = 6 ∨ month = 9 ∨ month = 11 then 30
  else 31

/-- The number of days of the year that lie before a month. -/
def daysBeforeMonth (year : Int) (month : Nat) : Nat :=
  let regular := [0, 31, 59, 90, 120, 151, 181, 212, 243, 273, 304, 334].getD (month - 1) 365
  if 2 < month ∧ isLeapYear year then regular + 1 else regular

/-- The number of days from the start of the year 0 to the start of a year. -/
def daysBeforeYear (year : Int) : Int :=
  365 * year + (year + 3) / 4 - (year + 99) / 100 + (year + 399) / 400

/-- The number of days from the start of the year 0 to 1970-01-01. -/
def epochOffset : Int := 719528

/-! ## Naming and counting -/

/-- The month and the day exist. -/
def Civil.Valid (c : Civil) : Prop :=
  1 ≤ c.month ∧ c.month ≤ 12 ∧ 1 ≤ c.day ∧ c.day ≤ daysInMonth c.year c.month

instance (c : Civil) : Decidable c.Valid := inferInstanceAs (Decidable (_ ∧ _))

/-- The count of a named day. -/
def Civil.toDay (c : Civil) : Int :=
  daysBeforeYear c.year + daysBeforeMonth c.year c.month + c.day - 1 - epochOffset

/-- The year that holds the `n`-th day from the start of the year 0. The mean length of a year gives
it up to one year more or less. -/
def yearOfDay (n : Int) : Int :=
  let guess := 400 * n / 146097
  if n < daysBeforeYear guess then guess - 1
  else if daysBeforeYear (guess + 1) ≤ n then guess + 1
  else guess

/-- The month that holds the `n`-th day of a year: the last one that starts no later. -/
def monthOfDay (year : Int) (n : Nat) : Nat :=
  1 + ([2, 3, 4, 5, 6, 7, 8, 9, 10, 11, 12].filter fun m => daysBeforeMonth year m ≤ n).length

/-- The name of a day. -/
def Civil.ofDay (day : Int) : Civil :=
  let n := day + epochOffset
  let year := yearOfDay n
  let inYear := (n - daysBeforeYear year).toNat
  let month := monthOfDay year inYear
  { year, month, day := inYear - daysBeforeMonth year month + 1 }

/-- The count of the day with this name, if there is such a day in the calendar. -/
def dayOf? (year : Int) (month day : Nat) : Option Int :=
  let c : Civil := { year, month, day }
  if c.Valid ∧ InCalendar c.toDay then some c.toDay else none

/-! ## Weekdays -/

/-- The number of days since the last Sunday. -/
def weekday (day : Int) : Nat := ((day + 4) % 7).toNat

/-- The names of the months. -/
def monthNames : List String :=
  ["January", "February", "March", "April", "May", "June", "July", "August", "September",
    "October", "November", "December"]

/-- The names of the days of the week, from Sunday on. -/
def weekdayNames : List String :=
  ["Sunday", "Monday", "Tuesday", "Wednesday", "Thursday", "Friday", "Saturday"]

/-- The name of a month. -/
def monthName (month : Nat) : String := monthNames.getD (month - 1) ""

/-- The name of a day of the week. -/
def weekdayName (n : Nat) : String := weekdayNames.getD n ""

end FormulaTable.Calendar
