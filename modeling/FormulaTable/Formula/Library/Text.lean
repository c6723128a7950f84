import FormulaTable.Formula.Library.Basic
import FormulaTable.Text.Padding
import FormulaTable.Text.Search
import FormulaTable.Text.Template

/-!
# Functions of texts

Positions and lengths count characters.
-/

namespace FormulaTable.Formula.Library

/-- The most times a text is repeated. -/
def maxRepeat : Nat := 10000

/-- The greatest length a text is padded to. -/
def maxPadding : Nat := 10000

/-- All arguments as text, one after the other. -/
def concat (args : List Value) : Value := .ofChars (args.flatMap Value.chars)

/-- A length or a position, which is a word of 64 bits, as a number. -/
def ofCount (n : Nat) : Value := .number n.toUInt64.toFloat

/-- The number of options, references or characters. -/
def length (args : List Value) : Value :=
  ofCount (match arg args 0 with
    | .options items => items.length
    | .references refs => refs.length
    | v => v.chars.length)

/-- The second text occurs in the first, or is one of the options. -/
def contains (args : List Value) : Value :=
  .boolean (match arg args 0 with
    | .options items => items.contains (arg args 1).toText
    | v => Text.contains (textArg args 1) v.chars)

/-- Puts the third text for every occurrence of the second in the first. -/
def replace (args : List Value) : Value :=
  .ofChars (Text.replace (textArg args 1) (textArg args 2) (textArg args 0))

/-- Puts the third text for the first occurrence of the second in the first. -/
def replaceFirst (args : List Value) : Value :=
  .ofChars (Text.replaceFirst (textArg args 1) (textArg args 2) (textArg args 0))

/-- The place in a text that an index names; a negative one counts from the end. -/
def clampIndex (index : Float) (length : Nat) : Nat :=
  let whole := Number.truncate index
  if whole < 0 then (Number.greatest (Float.ofNat length + whole) 0).toUInt64.toNat
  else Nat.min whole.toUInt64.toNat length

/-- The characters between two places. -/
def cut (s : List Char) (start stop : Nat) : List Char := (s.take stop).drop start

/-- The part of a text between two indices; without the second, up to the end. -/
def slice (args : List Value) : Value :=
  let s := textArg args 0
  match numberArg args 1 with
  | none => .null
  | some start =>
    if 2 < args.length then
      match numberArg args 2 with
      | none => .null
      | some stop => .ofChars (cut s (clampIndex start s.length) (clampIndex stop s.length))
    else .ofChars (cut s (clampIndex start s.length) s.length)

/-- The parts of the first text between the occurrences of the second. -/
def split (args : List Value) : Value :=
  .options ((Text.split (textArg args 1) (textArg args 0)).map String.ofList)

/-- The first text starts with the second. -/
def startsWith (args : List Value) : Value :=
  .boolean ((textArg args 1).isPrefixOf (textArg args 0))

/-- The first text ends with the second. -/
def endsWith (args : List Value) : Value :=
  .boolean ((textArg args 1).isSuffixOf (textArg args 0))

/-- The position of the second text in the first. -/
def indexOf (args : List Value) : Value :=
  .ofOption ofCount (Text.indexOf? (textArg args 1) (textArg args 0))

/-- A count: the whole part of an argument, if it lies between 0 and a limit. -/
def countArg (args : List Value) (i limit : Nat) : Option Nat :=
  (numberArg args i).bind fun x =>
    let whole := Number.truncate x
    if 0 ≤ whole ∧ whole ≤ Float.ofNat limit then some whole.toUInt64.toNat else none

/-- The first text as often as the second argument says. -/
def replicate (args : List Value) : Value :=
  .ofOption (fun n => .ofChars (List.replicate n (textArg args 0)).flatten)
    (countArg args 1 maxRepeat)

/-- Pads the first text to the length in the second argument, with the third text or with blanks. -/
def pad (fill : List Char → Nat → List Char → List Char) (args : List Value) : Value :=
  .ofOption (fun n => .ofChars (fill (textArg args 0) n (if 2 < args.length then textArg args 2 else [' '])))
    (countArg args 1 maxPadding)

/-- Fills the first text as a template with the others; alone, it is just turned into text. -/
def format (args : List Value) : Value :=
  if args.length = 1 then .ofChars (textArg args 0)
  else .ofChars (Text.fill (textArg args 0) ((args.drop 1).map Value.chars))

/-- A function that maps one text. -/
def onText (f : List Char → List Char) (args : List Value) : Value := .ofChars (f (textArg args 0))

/-- The argument as a number. -/
def toNumber (args : List Value) : Value := (arg args 0).plus

/-- The functions of texts. -/
def texts : List Builtin :=
  [.pure "concat" (.atLeast 1) concat,
    .pure "length" (.exactly 1) length,
    .pure "contains" (.exactly 2) contains,
    .pure "replace" (.exactly 3) replace,
    .pure "replaceFirst" (.exactly 3) replaceFirst,
    .pure "lower" (.exactly 1) (onText Text.lower),
    .pure "upper" (.exactly 1) (onText Text.upper),
    .pure "trim" (.exactly 1) (onText Text.trim),
    .pure "slice" (.between 2 3) slice,
    .pure "split" (.exactly 2) split,
    .pure "startsWith" (.exactly 2) startsWith,
    .pure "endsWith" (.exactly 2) endsWith,
    .pure "indexOf" (.exactly 2) indexOf,
    .pure "repeat" (.exactly 2) replicate,
    .pure "padStart" (.between 2 3) (pad Text.padStart),
    .pure "padEnd" (.between 2 3) (pad Text.padEnd),
    .pure "format" (.atLeast 1) format,
    .pure "toNumber" (.exactly 1) toNumber]

end FormulaTable.Formula.Library
