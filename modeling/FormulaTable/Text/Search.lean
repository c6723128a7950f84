/-!
# Searching, splitting and replacing

Occurrences of a text in another are found from the left and never overlap. Positions count
characters.
-/

namespace FormulaTable.Text

/-- The position of the first occurrence of `needle`. -/
def indexOf? (needle : List Char) : List Char → Option Nat
  | [] => if needle.isEmpty then some 0 else none
  | c :: rest =>
    if needle.isPrefixOf (c :: rest) then some 0 else (indexOf? needle rest).map (· + 1)

/-- `needle` occurs. -/
def contains (needle : List Char) : List Char → Bool
  | [] => needle.isEmpty
  | c :: rest => needle.isPrefixOf (c :: rest) || contains needle rest

/-- Puts a character in front of the first part. -/
def consHead (c : Char) : List (List Char) → List (List Char)
  | [] => [[c]]
  | part :: parts => (c :: part) :: parts

/-- The parts between the occurrences of `separator`, after `skip` characters that belong to an
occurrence found before. -/
def splitAfter (separator : List Char) : Nat → List Char → List (List Char)
  | _, [] => [[]]
  | skip + 1, _ :: rest => splitAfter separator skip rest
  | 0, c :: rest =>
    if separator.isPrefixOf (c :: rest) then [] :: splitAfter separator (separator.length - 1) rest
    else consHead c (splitAfter separator 0 rest)

/-- The parts between the occurrences of `separator`; with an empty separator, the characters. -/
def split (separator s : List Char) : List (List Char) :=
  if separator.isEmpty then s.map ([·]) else splitAfter separator 0 s

/-- Puts `replacement` for each occurrence of `search`, after `skip` characters that belong to an
occurrence found before. -/
def replaceAfter (search replacement : List Char) : Nat → List Char → List Char
  | _, [] => []
  | skip + 1, _ :: rest => replaceAfter search replacement skip rest
  | 0, c :: rest =>
    if search.isPrefixOf (c :: rest) then
      replacement ++ replaceAfter search replacement (search.length - 1) rest
    else c :: replaceAfter search replacement 0 rest

/-- Puts `replacement` for each occurrence of `search`. An empty search text occurs nowhere. -/
def replace (search replacement s : List Char) : List Char :=
  if search.isEmpty then s else replaceAfter search replacement 0 s

/-- Puts `replacement` for the first occurrence of `search`. An empty search text occurs nowhere. -/
def replaceFirst (search replacement s : List Char) : List Char :=
  if search.isEmpty then s
  else match indexOf? search s with
    | some i => s.take i ++ (replacement ++ s.drop (i + search.length))
    | none => s

/-- The parts one after the other with `separator` between them. -/
def join (separator : List Char) (parts : List (List Char)) : List Char :=
  separator.intercalate parts

end FormulaTable.Text
