import FormulaTable.Number.Exact
import FormulaTable.Number.Shortest

/-!
# Numbers as text

A number is written with the fewest digits that read back as the same double, in positional
notation, and read from a decimal numeral with an optional exponent.
-/

namespace FormulaTable.Number

open Float.Model.UnpackedFloat (Sign)

/-! ## Writing -/

/-- The sign of a written number. -/
def signText : Sign → List Char
  | .positive => []
  | .negative => ['-']

/-- The positional text of a double; zero keeps its sign. -/
def signedText (x : Float) : List Char :=
  match exact x with
  | .notANumber => "NaN".toList
  | .infinity sign => signText sign ++ "inf".toList
  | .zero sign => signText sign ++ ['0']
  | .finite sign m e _ => signText sign ++ (shortest .up m e).positional

/-- The positional text of a double; zero has no sign. -/
def text (x : Float) : List Char :=
  if x == 0 then ['0'] else signedText x

/-! ## Reading -/

/-- The number written by a row of decimal digits. -/
def ofDigits (ds : List Char) : Nat :=
  ds.foldl (fun n c => 10 * n + (c.toNat - '0'.toNat)) 0

/-- Splits off an optional sign. -/
def readSign : List Char → Sign × List Char
  | '-' :: s => (.negative, s)
  | '+' :: s => (.positive, s)
  | s => (.positive, s)

/-- The sign applied to a number. -/
def withSign : Sign → Float → Float
  | .positive, x => x
  | .negative, x => -x

/-- The sign applied to a whole number. -/
def withSignInt : Sign → Int → Int
  | .positive, n => n
  | .negative, n => -n

/-- An exponent: nothing, or `e` or `E`, an optional sign and at least one digit up to the end. -/
def readExponent? : List Char → Option Int
  | [] => some 0
  | c :: s =>
    if c = 'e' ∨ c = 'E' then
      let (sign, ds) := readSign s
      if ds.isEmpty || !ds.all Char.isDigit then none
      else some (withSignInt sign (ofDigits ds))
    else none

/-- An unsigned decimal numeral: digits with an optional point among or around them, at least one
digit, and an optional exponent. -/
def readDecimal? (s : List Char) : Option Decimal :=
  let whole := s.takeWhile Char.isDigit
  let afterWhole := s.dropWhile Char.isDigit
  let (fraction, rest) := match afterWhole with
    | '.' :: t => (t.takeWhile Char.isDigit, t.dropWhile Char.isDigit)
    | t => ([], t)
  if whole.isEmpty && fraction.isEmpty then none
  else (readExponent? rest).map fun e =>
    { coefficient := ofDigits (whole ++ fraction), exponent := e - fraction.length }

/-- The words for infinity and for what is not a number, in any case. -/
def readWord? (s : List Char) : Option Float :=
  let word := String.ofList (s.map Char.toLower)
  if word = "inf" ∨ word = "infinity" then some (1.0 / 0.0)
  else if word = "nan" then some notANumber
  else none

/-- The number a text denotes: an optional sign, then a decimal numeral or a word. -/
def ofText? (s : List Char) : Option Float :=
  let (sign, t) := readSign s
  let magnitude := (readDecimal? t).map Decimal.toFloat <|> readWord? t
  magnitude.map (withSign sign)

end FormulaTable.Number
