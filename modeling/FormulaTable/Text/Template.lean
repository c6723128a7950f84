import FormulaTable.Number.Text

/-!
# Templates

A template holds places such as `{0}` and `{1}`. They are filled in one pass, so a text that is put
in is not looked at again. A place with no text for it, and a brace that opens no place, stay as
they are.
-/

namespace FormulaTable.Text

/-- The text for the place `{n}` of a template, whose fields are the template itself followed by the
texts for its places. The field after the `n`-th is counted in 64 bits. -/
def fieldFor (fields : List (List Char)) (n : Nat) : Option (List Char) :=
  if n < Nat.pow 2 64 then fields[(n + 1) % Nat.pow 2 64]? else none

/-- What a place written with `digits` becomes. -/
def fillPlace (fields : List (List Char)) (digits : List Char) : List Char :=
  (fieldFor fields (Number.ofDigits digits)).getD ('\x7b' :: digits ++ ['\x7d'])

/-- Fills the rest of a template. After an opening brace `digits?` holds the digits read since. -/
def fillAfter (fields : List (List Char)) : Option (List Char) → List Char → List Char
  | none, [] => []
  | none, c :: rest =>
    if c = '\x7b' then fillAfter fields (some []) rest else c :: fillAfter fields none rest
  | some digits, [] => '\x7b' :: digits
  | some digits, c :: rest =>
    if c.isDigit then fillAfter fields (some (digits ++ [c])) rest
    else if c = '\x7d' ∧ digits ≠ [] then fillPlace fields digits ++ fillAfter fields none rest
    else if c = '\x7b' then '\x7b' :: digits ++ fillAfter fields (some []) rest
    else '\x7b' :: digits ++ c :: fillAfter fields none rest

/-- Fills a template with the texts for its places. -/
def fill (template : List Char) (texts : List (List Char)) : List Char :=
  fillAfter (template :: texts) none template

end FormulaTable.Text
