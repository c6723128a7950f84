import FormulaTable.Text.LetterTable

/-!
# Letters and numbers

The character classes that names are made of, over all of Unicode.
-/

namespace FormulaTable.Text

/-- The code point lies in one of the ranges. -/
def inRanges (ranges : List (Nat × Nat)) (n : Nat) : Bool :=
  ranges.any fun (first, last) => first ≤ n && n ≤ last

/-- The characters of the property `Alphabetic`. -/
def isLetter (c : Char) : Bool :=
  if c.toNat < 128 then c.isAlpha else inRanges alphabeticRanges c.toNat

/-- The characters of the general category `Number`. -/
def isNumber (c : Char) : Bool :=
  if c.toNat < 128 then c.isDigit else inRanges numericRanges c.toNat

/-- Letters and numbers. -/
def isLetterOrNumber (c : Char) : Bool := isLetter c || isNumber c

end FormulaTable.Text
