import FormulaTable.Number.Text

/-!
# Tokens of formulas

A formula is made of literals, identifiers and symbols. The words `and`, `or` and `not` are symbols.
-/

namespace FormulaTable.Formula

/-- A fixed sign or word. -/
inductive Symbol where
  | and
  | or
  | not
  | plus
  | minus
  | star
  | slash
  | percent
  | equal
  | notEqual
  | greater
  | greaterEqual
  | less
  | lessEqual
  | question
  | colon
  | comma
  | leftParen
  | rightParen
deriving DecidableEq, Repr

/-- The sign or word of a symbol. -/
def Symbol.spelling : Symbol → String
  | and => "and"
  | or => "or"
  | not => "not"
  | plus => "+"
  | minus => "-"
  | star => "*"
  | slash => "/"
  | percent => "%"
  | equal => "=="
  | notEqual => "!="
  | greater => ">"
  | greaterEqual => ">="
  | less => "<"
  | lessEqual => "<="
  | question => "?"
  | colon => ":"
  | comma => ","
  | leftParen => "("
  | rightParen => ")"

/-- What a token is. -/
inductive TokenKind where
  | number (x : Float)
  | string (s : String)
  | boolean (b : Bool)
  | identifier (name : String)
  | symbol (s : Symbol)
deriving DecidableEq

/-- The name of a kind of token in messages. -/
def TokenKind.describe : TokenKind → String
  | number x => "number " ++ String.ofList (Number.signedText x)
  | string s => "string \"" ++ s ++ "\""
  | boolean b => if b then "true" else "false"
  | identifier name => "identifier '" ++ name ++ "'"
  | symbol s => "'" ++ s.spelling ++ "'"

/-- A token and the place of its first character, counted from the start of the formula. -/
structure Token where
  kind : TokenKind
  position : Nat
deriving DecidableEq

/-- The tokens of a formula and its length, at which it ends. -/
structure TokenStream where
  tokens : List Token
  length : Nat
deriving DecidableEq

/-- The name of what stands somewhere in a formula, a token or its end. -/
def describe : Option TokenKind → String
  | some k => k.describe
  | none => "end of input"

end FormulaTable.Formula
