import FormulaTable.Formula.SyntaxError
import FormulaTable.Text.Letter
import FormulaTable.Text.Space

/-!
# From text to tokens

White space is skipped; every other stretch of the text must be a token. A token takes as many
characters as it can: a number its point and exponent, a name all letters and numbers, and a sign of
two characters wins over a sign of one.
-/

namespace FormulaTable.Formula

open Text (isSpace isLetter isLetterOrNumber)

/-! ## Numbers -/

/-- The length of the fraction that a text starts with: a point and any digits after it. -/
def fractionLength : List Char → Nat
  | '.' :: s => 1 + (s.takeWhile Char.isDigit).length
  | _ => 0

/-- The length of the sign that a text starts with. -/
def signLength : List Char → Nat
  | '+' :: _ | '-' :: _ => 1
  | _ => 0

/-- The length of the exponent that a text starts with. Without a digit there is none. -/
def exponentLength : List Char → Nat
  | c :: s =>
    let sign := signLength s
    let digits := ((s.drop sign).takeWhile Char.isDigit).length
    if (c = 'e' ∨ c = 'E') ∧ 0 < digits then 1 + sign + digits else 0
  | [] => 0

/-- The length of the number that a text starts with. -/
def numberLength (s : List Char) : Nat :=
  let whole := (s.takeWhile Char.isDigit).length
  let fraction := fractionLength (s.drop whole)
  whole + fraction + exponentLength (s.drop (whole + fraction))

/-- A number starts here: a digit, or a point and a digit. -/
def startsNumber : List Char → Bool
  | '.' :: d :: _ => d.isDigit
  | c :: _ => c.isDigit
  | [] => false

/-- The token of a number. -/
def numberToken (lexeme : List Char) : TokenKind :=
  .number ((Number.ofText? lexeme).getD 0)

/-! ## Strings -/

/-- What a character stands for after a backslash. -/
def unescape : Char → Char
  | 'n' => '\n'
  | 't' => '\t'
  | 'r' => '\r'
  | c => c

/-- The content of a string up to the closing quote, and the number of characters it takes with that
quote. -/
def scanString (quote : Char) : List Char → Option (List Char × Nat)
  | [] => none
  | c :: rest =>
    if c = quote then some ([], 1)
    else if c = '\\' then
      match rest with
      | [] => none
      | e :: rest => (scanString quote rest).map fun (s, n) => (unescape e :: s, n + 2)
    else (scanString quote rest).map fun (s, n) => (c :: s, n + 1)

/-! ## Names -/

/-- A name may start with this character. -/
def startsName (c : Char) : Bool := isLetter c || c == '_'

/-- A name may go on with this character. -/
def continuesName (c : Char) : Bool := isLetterOrNumber c || c == '_'

/-- The token of a name: a truth value or a symbol if it is one of their words, in any case. -/
def nameToken (name : List Char) : TokenKind :=
  match String.ofList (name.map Char.toLower) with
  | "true" => .boolean true
  | "false" => .boolean false
  | "and" => .symbol .and
  | "or" => .symbol .or
  | "not" => .symbol .not
  | _ => .identifier (String.ofList name)

/-! ## Signs -/

/-- The sign that a text starts with, and its length. -/
def sign? : List Char → Option (Symbol × Nat)
  | '=' :: '=' :: _ => some (.equal, 2)
  | '!' :: '=' :: _ => some (.notEqual, 2)
  | '>' :: '=' :: _ => some (.greaterEqual, 2)
  | '<' :: '=' :: _ => some (.lessEqual, 2)
  | '&' :: '&' :: _ => some (.and, 2)
  | '|' :: '|' :: _ => some (.or, 2)
  | '(' :: _ => some (.leftParen, 1)
  | ')' :: _ => some (.rightParen, 1)
  | ',' :: _ => some (.comma, 1)
  | '+' :: _ => some (.plus, 1)
  | '-' :: _ => some (.minus, 1)
  | '*' :: _ => some (.star, 1)
  | '/' :: _ => some (.slash, 1)
  | '%' :: _ => some (.percent, 1)
  | '>' :: _ => some (.greater, 1)
  | '<' :: _ => some (.less, 1)
  | '?' :: _ => some (.question, 1)
  | ':' :: _ => some (.colon, 1)
  | '!' :: _ => some (.not, 1)
  | _ => none

/-! ## Tokens -/

/-- The token that the text `c :: rest` starts with, and the number of characters of `rest` that
belong to it. -/
def scanToken (c : Char) (rest : List Char) : Except SyntaxCause (TokenKind × Nat) :=
  if c = '"' ∨ c = '\'' then
    match scanString c rest with
    | some (s, n) => .ok (.string (String.ofList s), n)
    | none => .error .unterminatedString
  else if startsNumber (c :: rest) then
    let n := numberLength (c :: rest)
    .ok (numberToken ((c :: rest).take n), n - 1)
  else if startsName c then
    let more := rest.takeWhile continuesName
    .ok (nameToken (c :: more), more.length)
  else
    match sign? (c :: rest) with
    | some (s, n) => .ok (.symbol s, n - 1)
    | none => .error (.unexpectedCharacter c)

/-- The tokens of the text that follows `position` characters. -/
def tokensFrom (position : Nat) : List Char → Except SyntaxError TokenStream
  | [] => .ok { tokens := [], length := position }
  | c :: rest =>
    if isSpace c then tokensFrom (position + 1) rest
    else
      match scanToken c rest with
      | .error cause => .error { cause, position }
      | .ok (kind, n) => do
        let stream ← tokensFrom (position + 1 + n) (rest.drop n)
        return { stream with tokens := { kind, position } :: stream.tokens }
termination_by s => s.length
decreasing_by all_goals simp_wf; try omega

/-- The tokens of a formula. -/
def tokenize (formula : String) : Except SyntaxError TokenStream :=
  tokensFrom 0 formula.toList

end FormulaTable.Formula
