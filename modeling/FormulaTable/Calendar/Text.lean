import FormulaTable.Calendar.Instant

/-!
# Instants as text

The international form of a date and time: `2024-01-15T10:30:00.000Z`. A year outside 0 to 9999 has
a sign and at least four digits. A leap second is written as second 60.
-/

namespace FormulaTable.Calendar

/-- A number with zeros in front up to a width. -/
def padded (width n : Nat) : List Char :=
  let ds := Nat.toDigits 10 n
  List.replicate (width - ds.length) '0' ++ ds

/-- A year: four digits from 0 to 9999, otherwise a sign and at least four digits. -/
def yearText (year : Int) : List Char :=
  if 0 ≤ year ∧ year ≤ 9999 then padded 4 year.toNat
  else (if year < 0 then '-' else '+') :: padded 4 year.natAbs

/-- The date: `2024-01-15`. -/
def Civil.text (c : Civil) : List Char :=
  yearText c.year ++ '-' :: padded 2 c.month ++ '-' :: padded 2 c.day

namespace Instant

/-- The nanoseconds since the start of the second that is written, a leap second on its own. -/
def writtenNano (t : Instant) : Nat :=
  if t.inLeapSecond then t.nano - nanosPerSecond else t.nano

/-- The second that is written, 60 for a leap second. -/
def writtenSecond (t : Instant) : Nat :=
  if t.inLeapSecond then t.secondOfMinute + 1 else t.secondOfMinute

/-- The fraction of the second cut off after some digits, with its point; nothing for no digits. -/
def fractionText (t : Instant) (digits : Nat) : List Char :=
  if digits = 0 then [] else '.' :: padded digits (t.writtenNano / Nat.pow 10 (9 - digits))

/-- Date and time in universal time, with this many digits of the fraction. -/
def text (t : Instant) (digits : Nat) : List Char :=
  t.civil.text ++ 'T' :: padded 2 t.hour ++ ':' :: padded 2 t.minute ++ ':' ::
    padded 2 t.writtenSecond ++ t.fractionText digits ++ ['Z']

/-- The least of 0, 3, 6 and 9 digits that write the fraction in full. -/
def fractionDigits (t : Instant) : Nat :=
  if t.writtenNano = 0 then 0
  else if t.writtenNano % 1000000 = 0 then 3
  else if t.writtenNano % 1000 = 0 then 6
  else 9

/-- The text with milliseconds. -/
def milliText (t : Instant) : List Char := t.text 3

/-- The text with as many digits of the fraction as it has, in groups of three. -/
def fullText (t : Instant) : List Char := t.text t.fractionDigits

end Instant

end FormulaTable.Calendar
