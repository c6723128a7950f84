/-!
# Padding

A text is brought to a length by repeating a filler, whose last repetition may be cut short.
-/

namespace FormulaTable.Text

/-- The first `n` characters of the text repeated without end; nothing, if the text is empty. -/
def cycle (filler : List Char) (n : Nat) : List Char :=
  (List.replicate (n / filler.length + 1) filler).flatten.take n

/-- The characters that are missing from `s` for the length `n`. -/
def padding (s : List Char) (n : Nat) (filler : List Char) : List Char :=
  cycle filler (n - s.length)

/-- Fills up to the length `n` before the text. -/
def padStart (s : List Char) (n : Nat) (filler : List Char) : List Char :=
  padding s n filler ++ s

/-- Fills up to the length `n` after the text. -/
def padEnd (s : List Char) (n : Nat) (filler : List Char) : List Char :=
  s ++ padding s n filler

end FormulaTable.Text
