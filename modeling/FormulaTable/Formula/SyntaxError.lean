import FormulaTable.Formula.Token

/-!
# Syntax errors

A formula that cannot be read has one error: what is wrong, and where.
-/

namespace FormulaTable.Formula

/-- Where a symbol was expected. -/
inductive Context where
  | conditional
  | parenthesis
  | arguments (function : String)
deriving DecidableEq, Repr

/-- The wording of a context. -/
def Context.describe : Context → String
  | conditional => "in conditional expression"
  | parenthesis => "to close parenthesis"
  | arguments function => "in argument list of " ++ function ++ "()"

/-- What is wrong with a formula. -/
inductive SyntaxCause where
  | empty
  | unterminatedString
  | unexpectedCharacter (c : Char)
  | unexpectedToken (kind : TokenKind)
  | unexpectedEnd
  | afterExpression (found : TokenKind)
  | expected (symbol : Symbol) (context : Context) (found : Option TokenKind)
  | unknownIdentifier (name : String)
  | propertyArgument
  | nestedTooDeeply
deriving DecidableEq

/-- The wording of a cause. -/
def SyntaxCause.message : SyntaxCause → String
  | empty => "Formula is empty"
  | unterminatedString => "Unterminated string literal"
  | unexpectedCharacter c => "Unexpected character '" ++ String.ofList [c] ++ "'"
  | unexpectedToken kind => "Unexpected " ++ kind.describe
  | unexpectedEnd => "Unexpected end of input"
  | afterExpression found => "Unexpected " ++ found.describe ++ " after expression"
  | expected symbol context found =>
    "Expected '" ++ symbol.spelling ++ "' " ++ context.describe ++ ", got " ++ Formula.describe found
  | unknownIdentifier name =>
    "Unknown identifier '" ++ name ++ "' - did you mean to call a function?"
  | propertyArgument => "prop() expects exactly one string literal argument"
  | nestedTooDeeply => "Formula is nested too deeply"

/-- What is wrong with a formula, and the place of the character where it shows. -/
structure SyntaxError where
  cause : SyntaxCause
  position : Nat
deriving DecidableEq

/-- The wording of the error. -/
def SyntaxError.message (e : SyntaxError) : String :=
  e.cause.message ++ " (at position " ++ toString e.position ++ ")"

end FormulaTable.Formula
