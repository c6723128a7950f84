import FormulaTable.Text.CaseTable
import FormulaTable.Text.Letter

/-!
# Small and capital letters

The full case mappings of Unicode, independent of language. A capital sigma becomes a final sigma at
the end of a word; every other letter is mapped on its own.
-/

namespace FormulaTable.Text

/-- The letter a run of the table maps `n` to. -/
def CaseRun.map? (r : CaseRun) (n : Nat) : Option Char :=
  if r.first ≤ n ∧ n ≤ r.last ∧ (n - r.first) % r.stride = 0 then
    some (Char.ofNat (n + r.shift).toNat)
  else none

/-- The small form of a letter, whatever stands around it. -/
def lowerChar (c : Char) : List Char :=
  if c.toNat < 128 then [c.toLower]
  else if c = '\u0130' then ['i', '\u0307']
  else [(lowerRuns.findSome? (·.map? c.toNat)).getD c]

/-- The capital form of a letter. -/
def upperChar (c : Char) : List Char :=
  if c.toNat < 128 then [c.toUpper]
  else match upperExpansions.lookup c.toNat with
    | some codes => codes.map Char.ofNat
    | none => [(upperRuns.findSome? (·.map? c.toNat)).getD c]

/-- Letters that have a case. -/
def isCased (c : Char) : Bool := inRanges casedRanges c.toNat

/-- Characters that do not separate a letter from the rest of its word. -/
def isCaseIgnorable (c : Char) : Bool := inRanges caseIgnorableRanges c.toNat

/-- The first character that is not ignorable is a cased letter. -/
def startsCased (s : List Char) : Bool :=
  match s.dropWhile isCaseIgnorable with
  | c :: _ => isCased c
  | [] => false

/-- A capital sigma between `before` (read backwards) and `after` ends a word. -/
def endsWord (before after : List Char) : Bool :=
  startsCased before && !startsCased after

/-- The small form of the second text, which stands after the first (read backwards). -/
def lowerAfter (before : List Char) : List Char → List Char
  | [] => []
  | c :: rest =>
    (if c = 'Σ' then [if endsWord before rest then 'ς' else 'σ'] else lowerChar c)
      ++ lowerAfter (c :: before) rest

/-- The text in small letters. -/
def lower (s : List Char) : List Char := lowerAfter [] s

/-- The text in capital letters. -/
def upper (s : List Char) : List Char := s.flatMap upperChar

/-- Names that agree in small letters are the same name. -/
def fold (name : String) : String := String.ofList (lower name.toList)

end FormulaTable.Text
