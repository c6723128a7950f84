/-!
# Strings of JSON texts

Between its quotes a string writes most characters as themselves. Some are written with a backslash,
and any can be written by its number in UTF-16, in one or two units.
-/

namespace FormulaTable.Json

/-- A character of a string, or a unit that is only half of one. -/
inductive Unit16 where
  | char (c : Char)
  | half (n : Nat)
deriving DecidableEq

/-! ## Reading -/

/-- The value of a hexadecimal digit. -/
def hexDigit? (c : Char) : Option Nat :=
  if c.isDigit then some (c.toNat - '0'.toNat)
  else if 'a' ≤ c ∧ c ≤ 'f' then some (c.toNat - 'a'.toNat + 10)
  else if 'A' ≤ c ∧ c ≤ 'F' then some (c.toNat - 'A'.toNat + 10)
  else none

/-- The number of four hexadecimal digits. -/
def hexNumber? (a b c d : Char) : Option Nat := do
  return 4096 * (← hexDigit? a) + 256 * (← hexDigit? b) + 16 * (← hexDigit? c) + (← hexDigit? d)

/-- The unit with a number. -/
def Unit16.ofNat (n : Nat) : Unit16 :=
  if 0xD800 ≤ n ∧ n < 0xE000 then .half n else .char (Char.ofNat n)

/-- The character that a letter after a backslash stands for. -/
def escaped? : Char → Option Char
  | '"' => some '"'
  | '\\' => some '\\'
  | '/' => some '/'
  | 'b' => some '\x08'
  | 'f' => some '\x0c'
  | 'n' => some '\n'
  | 'r' => some '\r'
  | 't' => some '\t'
  | _ => none

/-- Reads a string up to its closing quote. -/
def scanUnits : List Char → Option (List Unit16 × List Char)
  | [] | ['\\'] => none
  | '"' :: rest => some ([], rest)
  | '\\' :: 'u' :: a :: b :: c :: d :: rest => do
    let n ← hexNumber? a b c d
    let (units, rest) ← scanUnits rest
    return (.ofNat n :: units, rest)
  | '\\' :: e :: rest => do
    let c ← escaped? e
    let (units, rest) ← scanUnits rest
    return (.char c :: units, rest)
  | c :: rest =>
    if c.toNat < 0x20 then none
    else do
      let (units, rest) ← scanUnits rest
      return (.char c :: units, rest)

/-- The characters of a string, if every half is followed by its other half. -/
def joinHalves? : List Unit16 → Option (List Char)
  | [] => some []
  | .char c :: units => (joinHalves? units).map (c :: ·)
  | .half high :: .half low :: units =>
    if high < 0xDC00 ∧ 0xDC00 ≤ low then
      (joinHalves? units).map
        (Char.ofNat (0x10000 + 0x400 * (high - 0xD800) + (low - 0xDC00)) :: ·)
    else none
  | .half _ :: _ => none

/-- Reads a string after its opening quote. It has no text if it holds half of a character. -/
def scanString (s : List Char) : Option (Option String × List Char) :=
  (scanUnits s).map fun (units, rest) => ((joinHalves? units).map String.ofList, rest)

theorem length_lt_of_scanUnits {s rest : List Char} {units : List Unit16}
    (h : scanUnits s = some (units, rest)) : rest.length < s.length := by
  fun_induction scanUnits s generalizing units with
  | case1 | case2 => cases h
  | case3 => cases h; simp
  | case4 a b c d tail ih =>
    simp only [Option.bind_eq_bind, Option.bind_eq_some_iff] at h
    obtain ⟨_, _, ⟨units', rest'⟩, h₂, h₃⟩ := h
    cases h₃
    have : rest'.length < tail.length := ih h₂
    change rest'.length < _
    simp only [List.length_cons]
    omega
  | case5 e tail _ ih =>
    simp only [Option.bind_eq_bind, Option.bind_eq_some_iff] at h
    obtain ⟨_, _, ⟨units', rest'⟩, h₂, h₃⟩ := h
    cases h₃
    have : rest'.length < tail.length := ih h₂
    change rest'.length < _
    simp only [List.length_cons]
    omega
  | case6 => cases h
  | case7 c tail _ _ _ _ _ ih =>
    simp only [Option.bind_eq_bind, Option.bind_eq_some_iff] at h
    obtain ⟨⟨units', rest'⟩, h₂, h₃⟩ := h
    cases h₃
    have : rest'.length < tail.length := ih h₂
    change rest'.length < _
    simp only [List.length_cons]
    omega

/-- A string takes at least one character. -/
theorem length_lt_of_scanString {s rest : List Char} {text : Option String}
    (h : scanString s = some (text, rest)) : rest.length < s.length := by
  obtain ⟨⟨units, rest'⟩, h₁, h₂⟩ := Option.map_eq_some_iff.mp h
  cases h₂
  exact length_lt_of_scanUnits h₁

/-! ## Writing -/

/-- The hexadecimal digit of a number below 16. -/
def hexDigit (n : Nat) : Char := Nat.digitChar n

/-- A character between quotes. Control characters without a letter of their own are written by
number. -/
def escape (c : Char) : List Char :=
  match c with
  | '"' => ['\\', '"']
  | '\\' => ['\\', '\\']
  | '\x08' => ['\\', 'b']
  | '\x0c' => ['\\', 'f']
  | '\n' => ['\\', 'n']
  | '\r' => ['\\', 'r']
  | '\t' => ['\\', 't']
  | c =>
    if c.toNat < 0x20 then ['\\', 'u', '0', '0', hexDigit (c.toNat / 16), hexDigit (c.toNat % 16)]
    else [c]

/-- A text between quotes. -/
def quote (s : List Char) : List Char := '"' :: s.flatMap escape ++ ['"']

end FormulaTable.Json
