import FormulaTable.Json.Numeral

/-!
# JSON values

A JSON value keeps its numerals as they are written, the members of its objects in their order, and
strings that hold half of a character, so a part of it that nobody asks for can hold anything.
-/

namespace FormulaTable

/-- A JSON value. A string without text holds half of a character. -/
inductive Json where
  | null
  | boolean (b : Bool)
  | number (n : Json.Numeral)
  | string (text : Option String)
  | array (items : List Json)
  | object (members : List (Option String × Json))

namespace Json

instance : Inhabited Json := ⟨null⟩

/-- A string with a text. -/
def text (s : String) : Json := .string (some s)

/-- An object whose keys have texts. -/
def record (fields : List (String × Json)) : Json :=
  .object (fields.map fun (key, value) => (some key, value))

/-- A field of a record that is left out if it has no value. -/
def optionalField (name : String) (value : Option Json) : List (String × Json) :=
  (value.map (name, ·)).toList

/-- A number; what is not finite is null. -/
def ofFloat (x : Float) : Json := ((Numeral.ofFloat? x).map .number).getD .null

/-- A natural number. -/
def ofNat (n : Nat) : Json := .number (.ofNat n)

end Json

end FormulaTable
