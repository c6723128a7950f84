import FormulaTable.Json.Token

/-!
# Writing JSON values

A value is written without white space, or with one member or item to a line. The first form is the
texts of its tokens, one after another.
-/

namespace FormulaTable.Json

/-! ## Tokens -/

/-- The text of a token. A string without a text has nothing between its quotes. -/
def Token.text : Token → List Char
  | mark m => [m.char]
  | null => "null".toList
  | boolean b => (if b then "true" else "false").toList
  | number n => n.text
  | string text => quote (text.getD "").toList

mutual

/-- The tokens of a value. -/
def tokens : Json → List Token
  | .null => [.null]
  | .boolean b => [.boolean b]
  | .number n => [.number n]
  | .string text => [.string text]
  | .array items => .mark .openArray :: itemTokens items ++ [.mark .closeArray]
  | .object members => .mark .openObject :: memberTokens members ++ [.mark .closeObject]

/-- The tokens of the items of an array. -/
def itemTokens : List Json → List Token
  | [] => []
  | [item] => item.tokens
  | item :: items => item.tokens ++ .mark .comma :: itemTokens items

/-- The tokens of the members of an object. -/
def memberTokens : List (Option String × Json) → List Token
  | [] => []
  | [(key, value)] => .string key :: .mark .colon :: value.tokens
  | (key, value) :: members =>
    .string key :: .mark .colon :: value.tokens ++ .mark .comma :: memberTokens members

end

/-- The text of a value without white space. -/
def compact (j : Json) : List Char := j.tokens.flatMap Token.text

/-! ## Lines -/

/-- A new line at a level of nesting: two blanks for each level. -/
def newLine (level : Nat) : List Char := '\n' :: List.replicate (2 * level) ' '

mutual

/-- The text of a value at a level of nesting, with one item or member to a line. -/
def pretty (level : Nat) : Json → List Char
  | .array [] => "[]".toList
  | .array items => '[' :: prettyItems (level + 1) items ++ newLine level ++ [']']
  | .object [] => ['\x7b', '\x7d']
  | .object members => '\x7b' :: prettyMembers (level + 1) members ++ newLine level ++ ['\x7d']
  | .null => Token.null.text
  | .boolean b => (Token.boolean b).text
  | .number n => (Token.number n).text
  | .string text => (Token.string text).text

/-- The items of an array, each on a line. -/
def prettyItems (level : Nat) : List Json → List Char
  | [] => []
  | [item] => newLine level ++ item.pretty level
  | item :: items => newLine level ++ item.pretty level ++ ',' :: prettyItems level items

/-- The members of an object, each on a line. -/
def prettyMembers (level : Nat) : List (Option String × Json) → List Char
  | [] => []
  | [(key, value)] => newLine level ++ (Token.string key).text ++ ": ".toList ++ value.pretty level
  | (key, value) :: members =>
    newLine level ++ (Token.string key).text ++ ": ".toList ++ value.pretty level ++
      ',' :: prettyMembers level members

end

/-! ## Order -/

/-- Members are ordered by the characters of their keys. -/
def keyBefore (a b : Option String × Json) : Bool := a.1.getD "" ≤ b.1.getD ""

mutual

/-- The value with the members of every object in the order of their keys. -/
def sortKeys : Json → Json
  | .array items => .array (sortItems items)
  | .object members => .object ((sortMembers members).mergeSort keyBefore)
  | j => j

/-- Items with sorted members. -/
def sortItems : List Json → List Json
  | [] => []
  | item :: items => item.sortKeys :: sortItems items

/-- Members with sorted values. -/
def sortMembers : List (Option String × Json) → List (Option String × Json)
  | [] => []
  | (key, value) :: members => (key, value.sortKeys) :: sortMembers members

end

end FormulaTable.Json
