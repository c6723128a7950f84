import FormulaTable.Calendar.Instant
import FormulaTable.Number.Text
import FormulaTable.Text.Space

/-!
# Reading instants

A date or a date and time is read from text in the common numeric layouts. With an offset from
universal time the form is strict; without one it is taken as universal time, and each number may
have white space before it. A stored instant always has an offset, and white space may stand between
its parts.
-/

namespace FormulaTable.Calendar

open Number (ofDigits)
open Text (trim trimStart isSpace)

/-- Reads something from the front of a text and leaves the rest. -/
abbrev Reader (α : Type) := List Char → Option (α × List Char)

/-! ## Numbers and marks -/

/-- From `least` to `most` digits, as many as there are. -/
def readDigits (least most : Nat) : Reader Nat := fun s =>
  let ds := (s.take most).takeWhile Char.isDigit
  if ds.length < least then none else some (ofDigits ds, s.drop ds.length)

/-- A given character. -/
def readMark (c : Char) : Reader Unit
  | [] => none
  | d :: rest => if d = c then some ((), rest) else none

/-- A number from `low` to `high`. -/
def readBetween (low high : Nat) (read : Reader Nat) : Reader Nat := fun s =>
  (read s).filter fun (n, _) => low ≤ n ∧ n ≤ high

/-- A fraction of a second in nanoseconds, if a point follows; digits beyond the ninth are skipped. -/
def readFraction : Reader Nat
  | '.' :: s =>
    let ds := s.takeWhile Char.isDigit
    if ds.isEmpty then none
    else some (ofDigits (ds.take 9) * Nat.pow 10 (9 - (ds.take 9).length), s.dropWhile Char.isDigit)
  | s => some (0, s)

/-- A year: up to four digits, or a sign and any number of digits. -/
def readYear : Reader Int
  | '-' :: s => (readDigits 1 s.length s).map fun (n, rest) => (-n, rest)
  | '+' :: s => (readDigits 1 s.length s).map fun (n, rest) => (n, rest)
  | s => (readDigits 1 4 s).map fun (n, rest) => (n, rest)

/-- Splits off a sign: plus, hyphen or minus. -/
def readOffsetSign : Reader Int
  | '+' :: s => some (1, s)
  | '-' :: s | '\u2212' :: s => some (-1, s)
  | _ => none

/-- An offset from universal time in minutes: `Z`, or a sign, two digits of hours and two of minutes
with `between` read between them. -/
def readOffset (between : Reader Unit) : Reader Int
  | 'Z' :: s | 'z' :: s => some (0, s)
  | s => do
    let (sign, s) ← readOffsetSign s
    let (hours, s) ← readDigits 2 2 s
    let ((), s) ← between s
    let (minutes, s) ← readBetween 0 59 (readDigits 2 2) s
    return (sign * (hours * 60 + minutes), s)

/-! ## Date and time -/

/-- The fields of a date and time as they are written. -/
structure Stamp where
  year : Int := 0
  month : Nat := 1
  day : Nat := 1
  hour : Nat := 0
  minute : Nat := 0
  second : Nat := 0
  nano : Nat := 0

/-- The instant with these fields, if they exist, `offset` minutes ahead of universal time. The second
60 is a leap second. -/
def Stamp.instant? (f : Stamp) (offset : Int) : Option Instant := do
  let day ← dayOf? f.year f.month f.day
  if 24 ≤ f.hour ∨ 60 ≤ f.minute ∨ 61 ≤ f.second then none
  let (second, nano) := if f.second = 60 then (59, f.nano + nanosPerSecond) else (f.second, f.nano)
  let seconds : Int := f.hour * 3600 + f.minute * 60 + second - offset * 60
  -- the local time lies in the calendar too
  Instant.ofFields? (day + seconds / secondsPerDay) (seconds % secondsPerDay).toNat nano

/-- The greatest offset from universal time, 23:59, in minutes. -/
def maxOffset : Nat := 23 * 60 + 59

/-- The mark between date and time. -/
def readSeparator : Reader Unit
  | 'T' :: s | 't' :: s | ' ' :: s => some ((), s)
  | _ => none

/-- The strict form with an offset: every number has all its digits and nothing may be left out but
the fraction. -/
def readStrict? (s : List Char) : Option Instant := do
  let (year, s) ← readDigits 4 4 s
  let ((), s) ← readMark '-' s
  let (month, s) ← readDigits 2 2 s
  let ((), s) ← readMark '-' s
  let (day, s) ← readDigits 2 2 s
  let ((), s) ← readSeparator s
  let (hour, s) ← readDigits 2 2 s
  let ((), s) ← readMark ':' s
  let (minute, s) ← readDigits 2 2 s
  let ((), s) ← readMark ':' s
  let (second, s) ← readDigits 2 2 s
  let (nano, s) ← readFraction s
  let (offset, s) ← readOffset (readMark ':') s
  if s ≠ [] ∨ maxOffset < offset.natAbs then none
  ({ year, month, day, hour, minute, second, nano } : Stamp).instant? offset

/-! ## Layouts -/

/-- A part of a layout. -/
inductive LayoutItem where
  | year
  | month
  | day
  | hour
  | minute
  | second
  | fraction
  | mark (c : Char)
  | spaces

/-- Reads one part of a layout into the fields. White space before a number is skipped. -/
def LayoutItem.read (f : Stamp) : LayoutItem → Reader Stamp
  | .year, s => (readYear (trimStart s)).map fun (n, s) => ({ f with year := n }, s)
  | .month, s => (readDigits 1 2 (trimStart s)).map fun (n, s) => ({ f with month := n }, s)
  | .day, s => (readDigits 1 2 (trimStart s)).map fun (n, s) => ({ f with day := n }, s)
  | .hour, s => (readDigits 1 2 (trimStart s)).map fun (n, s) => ({ f with hour := n }, s)
  | .minute, s => (readDigits 1 2 (trimStart s)).map fun (n, s) => ({ f with minute := n }, s)
  | .second, s => (readDigits 1 2 (trimStart s)).map fun (n, s) => ({ f with second := n }, s)
  | .fraction, s => (readFraction s).map fun (n, s) => ({ f with nano := n }, s)
  | .mark c, s => (readMark c s).map fun ((), s) => (f, s)
  | .spaces, s => some (f, trimStart s)

/-- Reads the parts of a layout one after the other. -/
def readLayout (f : Stamp) : List LayoutItem → Reader Stamp
  | [], s => some (f, s)
  | item :: items, s => (item.read f s).bind fun (f, s) => readLayout f items s

/-- A date with a mark between its numbers. -/
def dateLayout (c : Char) : List LayoutItem := [.year, .mark c, .month, .mark c, .day]

/-- Hours and minutes. -/
def minuteLayout : List LayoutItem := [.hour, .mark ':', .minute]

/-- Hours, minutes and seconds with an optional fraction. -/
def secondLayout : List LayoutItem := minuteLayout ++ [.mark ':', .second, .fraction]

/-- The layouts without an offset, in the order they are tried. -/
def plainLayouts : List (List LayoutItem) :=
  [dateLayout '-' ++ [.mark 'T'] ++ secondLayout,
    dateLayout '-' ++ [.spaces] ++ secondLayout,
    dateLayout '-' ++ [.mark 'T'] ++ minuteLayout,
    dateLayout '-' ++ [.spaces] ++ minuteLayout,
    dateLayout '-',
    dateLayout '/']

/-- Reads a whole text in a layout, as universal time. -/
def readPlain? (layout : List LayoutItem) (s : List Char) : Option Instant := do
  let (f, s) ← readLayout {} layout s
  if s ≠ [] then none
  f.instant? 0

/-- The instant a text names: in the strict form, or else in the first layout that fits. White space
around it is ignored. -/
def Instant.ofText? (text : List Char) : Option Instant :=
  let s := trim text
  readStrict? s <|> plainLayouts.findSome? (readPlain? · s)

/-! ## Stored instants -/

/-- Any number of colons and white space. -/
def readColons : Reader Unit := fun s =>
  some ((), s.dropWhile fun c => c = ':' || isSpace c)

/-- The word for universal time, or an offset. -/
def readZone : Reader Int := fun s =>
  if (s.take 3).map Char.toLower = "utc".toList then some (0, s.drop 3)
  else readOffset readColons s

/-- The date of a stored instant. -/
def storedDate : List LayoutItem := [.year, .spaces, .mark '-', .month, .spaces, .mark '-', .day]

/-- The time of a stored instant. -/
def storedTime : List LayoutItem :=
  [.hour, .spaces, .mark ':', .minute, .spaces, .mark ':', .second, .fraction, .spaces]

/-- The instant a stored text names: date, time and zone, with white space allowed before each
number, mark and zone and at the end. -/
def Instant.ofStored? (s : List Char) : Option Instant := do
  let (f, s) ← readLayout {} storedDate s
  let ((), s) ← readSeparator s
  let (f, s) ← readLayout f storedTime s
  let (offset, s) ← readZone s
  if trimStart s ≠ [] ∨ maxOffset < offset.natAbs then none
  f.instant? offset

end FormulaTable.Calendar
