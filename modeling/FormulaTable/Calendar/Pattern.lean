import FormulaTable.Calendar.Text

/-!
# Date patterns

A pattern such as `YYYY-MM-DD HH:mm` names fields of a date by runs of letters. It is read from the
left; at each place the longest field name that fits is taken, and any other character stands for
itself.
-/

namespace FormulaTable.Calendar

/-- A field of a date in a pattern. -/
inductive Field where
  | year4
  | year2
  | monthName
  | monthShort
  | month2
  | month
  | day2
  | day
  | weekdayName
  | weekdayShort
  | weekday
  | hour2
  | hour
  | clockHour2
  | clockHour
  | minute2
  | minute
  | second2
  | second
  | milli
  | halfDay
deriving DecidableEq, Repr

/-- A piece of a pattern. -/
inductive Piece where
  | field (f : Field)
  | literal (c : Char)
deriving DecidableEq, Repr

namespace Field

/-- The names of the fields, a longer one before every shorter one. -/
def names : List (List Char × Field) :=
  [("YYYY".toList, .year4), ("MMMM".toList, .monthName), ("dddd".toList, .weekdayName),
    ("SSS".toList, .milli), ("MMM".toList, .monthShort), ("ddd".toList, .weekdayShort),
    ("YY".toList, .year2), ("MM".toList, .month2), ("DD".toList, .day2), ("HH".toList, .hour2),
    ("hh".toList, .clockHour2), ("mm".toList, .minute2), ("ss".toList, .second2),
    ("M".toList, .month), ("D".toList, .day), ("d".toList, .weekday), ("H".toList, .hour),
    ("h".toList, .clockHour), ("m".toList, .minute), ("s".toList, .second), ("A".toList, .halfDay)]

/-- The field whose name the text starts with, and the name. -/
def starting? (s : List Char) : Option (List Char × Field) :=
  names.find? fun (name, _) => name.isPrefixOf s

/-- The hour on a clock face. -/
def hourOnClock (t : Instant) : Nat := if t.hour % 12 = 0 then 12 else t.hour % 12

/-- The year with at least four characters, the sign among them. -/
def signedYear (year : Int) : List Char :=
  if year < 0 then '-' :: padded 3 year.natAbs else padded 4 year.toNat

/-- The text of a field. -/
def render (t : Instant) : Field → List Char
  | .year4 => signedYear t.civil.year
  | .year2 => padded 2 (t.civil.year % 100).toNat
  | .monthName => (Calendar.monthName t.civil.month).toList
  | .monthShort => (Calendar.monthName t.civil.month).toList.take 3
  | .month2 => padded 2 t.civil.month
  | .month => padded 1 t.civil.month
  | .day2 => padded 2 t.civil.day
  | .day => padded 1 t.civil.day
  | .weekdayName => (Calendar.weekdayName t.weekday).toList
  | .weekdayShort => (Calendar.weekdayName t.weekday).toList.take 3
  | .weekday => padded 1 t.weekday
  | .hour2 => padded 2 t.hour
  | .hour => padded 1 t.hour
  | .clockHour2 => padded 2 (hourOnClock t)
  | .clockHour => padded 1 (hourOnClock t)
  | .minute2 => padded 2 t.minute
  | .minute => padded 1 t.minute
  | .second2 => padded 2 t.secondOfMinute
  | .second => padded 1 t.secondOfMinute
  | .milli => padded 3 t.milli
  | .halfDay => if t.hour < 12 then "AM".toList else "PM".toList

end Field

/-- The pieces of a pattern, after `skip` characters that belong to a field found before. -/
def piecesAfter : Nat → List Char → List Piece
  | _, [] => []
  | skip + 1, _ :: rest => piecesAfter skip rest
  | 0, c :: rest =>
    match Field.starting? (c :: rest) with
    | some (name, f) => .field f :: piecesAfter (name.length - 1) rest
    | none => .literal c :: piecesAfter 0 rest

/-- The pieces of a pattern. -/
def pieces (pattern : List Char) : List Piece := piecesAfter 0 pattern

/-- The text of a piece. -/
def Piece.render (t : Instant) : Piece → List Char
  | .field f => f.render t
  | .literal c => [c]

/-- The text of an instant in a pattern. -/
def Instant.format (t : Instant) (pattern : List Char) : List Char :=
  (pieces pattern).flatMap (·.render t)

end FormulaTable.Calendar
