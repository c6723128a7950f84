import FormulaTable.Calendar.Instant

/-!
# Cell values

The one type of value in cells, formulas and rollups.
-/

namespace FormulaTable

open Calendar (Instant)

/-- What a reference points at. -/
inductive ReferenceKind where
  | file
  | relation
deriving DecidableEq, Repr

/-- A reference to a file or to a row of a table. -/
structure Reference where
  kind : ReferenceKind
  id : String
  name : Option String
  url : Option String
deriving DecidableEq

namespace Reference

/-- A reference to a row. -/
def toRow (id : String) : Reference := { kind := .relation, id, name := none, url := none }

/-- A reference to a file. -/
def toFile (id : String) (url : Option String) : Reference :=
  { kind := .file, id, name := none, url }

/-- What the reference is called: its name, or else its id. -/
def label (r : Reference) : String := r.name.getD r.id

end Reference

/-- The value of a cell. -/
inductive Value where
  | null
  | text (s : String)
  | number (x : Float)
  | boolean (b : Bool)
  | date (t : Instant)
  /-- The options chosen in a cell, in order. -/
  | options (items : List String)
  | references (refs : List Reference)
deriving DecidableEq

namespace Value

instance : Inhabited Value := ⟨null⟩

/-- A text from its characters. -/
def ofChars (s : List Char) : Value := .text (String.ofList s)

/-- A value that may be missing. -/
def ofOption {α : Type} (f : α → Value) : Option α → Value
  | some a => f a
  | none => null

/-- A number if it is finite, and null otherwise. -/
def finite (x : Float) : Value := if x.isFinite then number x else null

/-- The value is null. -/
def isNull : Value → Bool
  | null => true
  | _ => false

/-- The value is text. -/
def isText : Value → Bool
  | text _ => true
  | _ => false

/-- The value is a date. -/
def isDate : Value → Bool
  | date _ => true
  | _ => false

/-- The name of the kind of value. -/
def kindName : Value → String
  | null => "null"
  | text _ => "text"
  | number _ => "number"
  | boolean _ => "boolean"
  | date _ => "date"
  | options _ => "multi_select"
  | references _ => "references"

/-- Equality of values. Numbers are compared as numbers: zero equals negative zero, and what is not a
number equals nothing. -/
def same : Value → Value → Bool
  | null, null => true
  | text s, text t => s == t
  | number x, number y => x == y
  | boolean a, boolean b => a == b
  | date s, date t => s == t
  | options xs, options ys => xs == ys
  | references rs, references ss => rs == ss
  | _, _ => false

end Value

end FormulaTable
