import FormulaTable.Calendar.Reading
import FormulaTable.Calendar.Text
import FormulaTable.Value.Basic

/-!
# Coercions of values

Every value can be read as text and as a truth value; some can be read as a number or a date.
-/

namespace FormulaTable.Value

open Calendar (Instant)

/-- The number a text denotes, if it is finite; white space around it is ignored. -/
def finiteNumber? (s : String) : Option Float :=
  (Number.ofText? (Text.trim s.toList)).filter Float.isFinite

/-- Empty are null, text of nothing but white space, and empty lists. -/
def isEmpty : Value → Bool
  | null => true
  | text s => s.toList.all Text.isSpace
  | options items => items.isEmpty
  | references refs => refs.isEmpty
  | _ => false

/-- The value as a number: text is read, the truth values are 1 and 0, and a date is its milliseconds
since 1970-01-01. -/
def toNumber? : Value → Option Float
  | number x => some x
  | boolean b => some (if b then 1 else 0)
  | text s => finiteNumber? s
  | date t => some t.toNumber
  | _ => none

/-- A list of names as text. -/
def joinNames (names : List String) : String := ", ".intercalate names

/-- The value as text. -/
def toText : Value → String
  | null => ""
  | text s => s
  | number x => String.ofList (Number.text x)
  | boolean b => if b then "true" else "false"
  | date t => String.ofList t.milliText
  | options items => joinNames items
  | references refs => joinNames (refs.map Reference.label)

/-- The characters of the value as text. -/
def chars (v : Value) : List Char := v.toText.toList

/-- The value as a truth value. False are null, zero, what is not a number, the empty text and empty
lists. -/
def toBool : Value → Bool
  | null => false
  | boolean b => b
  | number x => x != 0 && !x.isNaN
  | text s => !s.isEmpty
  | date _ => true
  | options items => !items.isEmpty
  | references refs => !refs.isEmpty

/-- The value as a date: a number counts milliseconds since 1970-01-01, and text is read. -/
def toInstant? : Value → Option Instant
  | date t => some t
  | number x => Instant.ofNumber? x
  | text s => Instant.ofText? s.toList
  | _ => none

end FormulaTable.Value
