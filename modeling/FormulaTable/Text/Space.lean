/-!
# White space

White space is the Unicode property `White_Space`.
-/

namespace FormulaTable.Text

/-- The characters of the property `White_Space`. -/
def isSpace (c : Char) : Bool :=
  let n := c.toNat
  (9 ≤ n && n ≤ 13) || n == 0x20 || n == 0x85 || n == 0xA0 || n == 0x1680 ||
    (0x2000 ≤ n && n ≤ 0x200A) || n == 0x2028 || n == 0x2029 || n == 0x202F || n == 0x205F ||
    n == 0x3000

/-- The text without the white space it starts with. -/
def trimStart (s : List Char) : List Char := s.dropWhile isSpace

/-- The text without the white space it ends with. -/
def trimEnd (s : List Char) : List Char := (s.reverse.dropWhile isSpace).reverse

/-- The text without the white space around it. -/
def trim (s : List Char) : List Char := trimEnd (trimStart s)

end FormulaTable.Text
