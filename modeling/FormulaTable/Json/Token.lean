import FormulaTable.Json.Basic
import FormulaTable.Json.Quoted

/-!
# Tokens of JSON texts

A JSON text is a row of tokens with white space between them.
-/

namespace FormulaTable.Json

/-! ## Kinds of tokens -/


/-- A mark that gives a JSON text its structure. -/
inductive Mark where
  | openArray
  | closeArray
  | openObject
  | closeObject
  | comma
  | colon
deriving DecidableEq

/-- The character of a mark. -/
def Mark.char : Mark → Char
  | openArray => '['
  | closeArray => ']'
  | openObject => '\x7b'
  | closeObject => '\x7d'
  | comma => ','
  | colon => ':'

/-- The mark that a character is. -/
def Mark.ofChar? : Char → Option Mark
  | '[' => some openArray
  | ']' => some closeArray
  | '\x7b' => some openObject
  | '\x7d' => some closeObject
  | ',' => some comma
  | ':' => some colon
  | _ => none

/-- A token of a JSON text. -/
inductive Token where
  | mark (m : Mark)
  | null
  | boolean (b : Bool)
  | number (n : Numeral)
  | string (text : Option String)
deriving DecidableEq

/-! ## Reading -/

/-- White space between tokens. -/
def isBlank (c : Char) : Bool := c == ' ' || c == '\t' || c == '\n' || c == '\r'

/-- Reads the token that a text starts with. -/
def scanToken : List Char → Option (Token × List Char)
  | 'n' :: 'u' :: 'l' :: 'l' :: rest => some (.null, rest)
  | 't' :: 'r' :: 'u' :: 'e' :: rest => some (.boolean true, rest)
  | 'f' :: 'a' :: 'l' :: 's' :: 'e' :: rest => some (.boolean false, rest)
  | '"' :: rest => (scanString rest).map fun (text, rest) => (.string text, rest)
  | [] => none
  | c :: rest =>
    match Mark.ofChar? c with
    | some m => some (.mark m, rest)
    | none => (Numeral.scan (c :: rest)).map fun (n, rest) => (.number n, rest)

/-- A token takes at least one character. -/
theorem length_lt_of_scanToken {s rest : List Char} {t : Token} (h : scanToken s = some (t, rest)) :
    rest.length < s.length := by
  unfold scanToken at h
  split at h
  · cases h; simp only [List.length_cons]; omega
  · cases h; simp only [List.length_cons]; omega
  · cases h; simp only [List.length_cons]; omega
  · obtain ⟨⟨text, rest'⟩, h₁, h₂⟩ := Option.map_eq_some_iff.mp h
    cases h₂
    have := length_lt_of_scanString h₁
    simp only [List.length_cons]
    omega
  · cases h
  · split at h
    · cases h; simp
    · obtain ⟨⟨n, rest'⟩, h₁, h₂⟩ := Option.map_eq_some_iff.mp h
      cases h₂
      exact Numeral.length_lt_of_scan h₁

/-- The tokens of a text. -/
def tokens? (s : List Char) : Option (List Token) :=
  match s with
  | [] => some []
  | c :: rest =>
    if isBlank c then tokens? rest
    else
      match scanned : scanToken (c :: rest) with
      | none => none
      | some (t, rest') =>
        have := length_lt_of_scanToken scanned
        (tokens? rest').map (t :: ·)
termination_by s.length
decreasing_by
  · simp
  · assumption

end FormulaTable.Json
