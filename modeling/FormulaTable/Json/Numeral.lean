import FormulaTable.Number.Text

/-!
# Numerals

A numeral of a JSON text is kept as its digits. It is read as a double in a fixed number of rounded
steps, and a double is written as the shortest numeral that stands for it.
-/

namespace FormulaTable.Json

open Number (Decimal ofDigits)
open Float.Model.UnpackedFloat (Sign)

/-- A numeral: digits, a fraction unless it is empty, and a power of ten. -/
structure Numeral where
  negative : Bool
  whole : List Char
  fraction : List Char
  exponent : Option Int
deriving DecidableEq

namespace Numeral

/-! ## Whole numbers -/

/-- The numeral of a natural number. -/
def ofNat (n : Nat) : Numeral :=
  { negative := false, whole := Nat.toDigits 10 n, fraction := [], exponent := none }

/-- The natural number that a numeral of digits alone denotes, if it fits 64 bits. -/
def toWord? (n : Numeral) : Option Nat :=
  if n.negative ∨ n.fraction ≠ [] ∨ n.exponent ≠ none then none
  else if ofDigits n.whole < Nat.pow 2 64 then some (ofDigits n.whole) else none

/-! ## Doubles -/

/-- Puts digits behind a number as long as it fits 64 bits. The digits that are left over come with
it. -/
def absorb (n : Nat) : List Char → Nat × List Char
  | [] => (n, [])
  | d :: ds =>
    let m := 10 * n + (d.toNat - '0'.toNat)
    if m < Nat.pow 2 64 then absorb m ds else (n, d :: ds)

/-- `10 ^ n` as the nearest double. -/
def powerOfTen (n : Nat) : Float := { coefficient := 1, exponent := n : Decimal }.toFloat

/-- A power of ten times a double in one rounded step, or in steps of `10 ^ 308` where that is not a
double. There is no result beyond the greatest double. -/
def scale? (x : Float) (e : Int) : Option Float :=
  if e.natAbs ≤ 308 then
    if 0 ≤ e then some (x * powerOfTen e.natAbs) |>.filter Float.isFinite
    else some (x / powerOfTen e.natAbs)
  else if x == 0 then some x
  else if 0 < e then none
  else scale? (x / powerOfTen 308) (e + 308)
termination_by (-e).toNat
decreasing_by omega

/-- The double that a numeral denotes. Its leading digits make a 64-bit number; digits of the whole
part that do not fit count as zeros, and such digits of the fraction do not count. -/
def toFloat? (n : Numeral) : Option Float :=
  let (high, left) := absorb 0 n.whole
  let (significand, unused) := absorb high n.fraction
  let exponent := n.exponent.getD 0 + left.length - (n.fraction.length - unused.length : Nat)
  let magnitude := scale? { coefficient := significand, exponent := 0 : Decimal }.toFloat exponent
  magnitude.map fun x => if n.negative then -x else x

/-- The sign of a numeral. -/
def isNegative : Sign → Bool
  | .positive => false
  | .negative => true

/-- The numeral of a decimal with a sign. From `0.00001` to below `10 ^ 16` it is positional with at
least one digit after the point; otherwise one digit stands before the point. -/
def ofDecimal (sign : Sign) (d : Decimal) : Numeral :=
  let magnitude : Int := d.digits.length - 1 + d.exponent
  if -5 ≤ magnitude ∧ magnitude ≤ 15 then
    { negative := isNegative sign
      whole := d.wholePart
      fraction := if d.fractionPart.isEmpty then ['0'] else d.fractionPart
      exponent := none }
  else
    { negative := isNegative sign
      whole := d.digits.take 1
      fraction := d.digits.drop 1
      exponent := some magnitude }

/-- The numeral of a finite double. -/
def ofFloat? (x : Float) : Option Numeral :=
  match Number.exact x with
  | .notANumber | .infinity _ => none
  | .zero sign => some (ofDecimal sign { coefficient := 0, exponent := 0 })
  | .finite sign m e _ => some (ofDecimal sign (Number.shortest .even m e))

/-! ## Text -/

/-- The text of an exponent, always with a sign. -/
def exponentText (e : Int) : List Char :=
  'e' :: (if e < 0 then '-' else '+') :: Nat.toDigits 10 e.natAbs

/-- The text of a numeral. -/
def text (n : Numeral) : List Char :=
  (if n.negative then ['-'] else []) ++ n.whole ++
    (if n.fraction.isEmpty then [] else '.' :: n.fraction) ++
    (n.exponent.map exponentText).getD []

/-- Reads digits, at least one. -/
def scanDigits (s : List Char) : Option (List Char × List Char) :=
  if (s.takeWhile Char.isDigit).isEmpty then none
  else some (s.takeWhile Char.isDigit, s.dropWhile Char.isDigit)

/-- Reads a whole part: a zero alone, or digits that start with another one. -/
def scanWhole : List Char → Option (List Char × List Char)
  | '0' :: rest => some (['0'], rest)
  | s => scanDigits s

/-- Reads a point with digits after it, if there is a point. -/
def scanFraction : List Char → Option (List Char × List Char)
  | '.' :: s => scanDigits s
  | s => some ([], s)

/-- Reads `e` or `E`, an optional sign and digits, if there is such a letter. -/
def scanExponent : List Char → Option (Option Int × List Char)
  | [] => some (none, [])
  | c :: s =>
    if c = 'e' ∨ c = 'E' then
      (scanDigits (Number.readSign s).2).map fun (ds, rest) =>
        (some (Number.withSignInt (Number.readSign s).1 (ofDigits ds)), rest)
    else some (none, c :: s)

/-- Reads a numeral without its sign. -/
def scanUnsigned (negative : Bool) (s : List Char) : Option (Numeral × List Char) := do
  let (whole, s) ← scanWhole s
  let (fraction, s) ← scanFraction s
  let (exponent, s) ← scanExponent s
  return ({ negative, whole, fraction, exponent }, s)

/-- Reads a numeral. -/
def scan : List Char → Option (Numeral × List Char)
  | '-' :: s => scanUnsigned true s
  | s => scanUnsigned false s

/-! ## Progress -/

theorem length_lt_of_scanDigits {s ds rest : List Char} (h : scanDigits s = some (ds, rest)) :
    rest.length < s.length := by
  unfold scanDigits at h
  split at h
  · cases h
  · rename_i nonempty
    cases h
    have split := congrArg List.length (List.takeWhile_append_dropWhile (p := Char.isDigit) (l := s))
    have := List.length_pos_iff.mpr (mt List.isEmpty_iff.mpr nonempty)
    rw [List.length_append] at split
    omega

theorem length_lt_of_scanWhole {s ds rest : List Char} (h : scanWhole s = some (ds, rest)) :
    rest.length < s.length := by
  unfold scanWhole at h
  split at h
  · cases h; simp
  · exact length_lt_of_scanDigits h

theorem length_le_of_scanFraction {s ds rest : List Char} (h : scanFraction s = some (ds, rest)) :
    rest.length ≤ s.length := by
  unfold scanFraction at h
  split at h
  · have := length_lt_of_scanDigits h
    simp only [List.length_cons]
    omega
  · cases h; exact Nat.le_refl _

theorem length_readSign_le (s : List Char) : (Number.readSign s).2.length ≤ s.length := by
  unfold Number.readSign
  split <;> simp

theorem length_le_of_scanExponent {s rest : List Char} {e : Option Int}
    (h : scanExponent s = some (e, rest)) : rest.length ≤ s.length := by
  unfold scanExponent at h
  split at h
  · cases h; exact Nat.le_refl _
  · rename_i c s
    split at h
    · obtain ⟨⟨ds, rest'⟩, h₁, h₂⟩ := Option.map_eq_some_iff.mp h
      cases h₂
      have := length_lt_of_scanDigits h₁
      have := length_readSign_le s
      simp only [List.length_cons]
      omega
    · cases h; exact Nat.le_refl _

theorem length_lt_of_scanUnsigned {negative : Bool} {s rest : List Char} {n : Numeral}
    (h : scanUnsigned negative s = some (n, rest)) : rest.length < s.length := by
  simp only [scanUnsigned, Option.bind_eq_bind, Option.bind_eq_some_iff] at h
  obtain ⟨⟨ds, s₁⟩, h₁, ⟨fs, s₂⟩, h₂, ⟨e, s₃⟩, h₃, h₄⟩ := h
  cases h₄
  have l₁ : s₁.length < s.length := length_lt_of_scanWhole h₁
  have l₂ : s₂.length ≤ s₁.length := length_le_of_scanFraction h₂
  have l₃ : s₃.length ≤ s₂.length := length_le_of_scanExponent h₃
  change s₃.length < s.length
  omega

/-- A numeral takes at least one character. -/
theorem length_lt_of_scan {s rest : List Char} {n : Numeral} (h : scan s = some (n, rest)) :
    rest.length < s.length := by
  unfold scan at h
  split at h
  · have := length_lt_of_scanUnsigned h
    simp only [List.length_cons]
    omega
  · exact length_lt_of_scanUnsigned h

end Numeral

end FormulaTable.Json
