import FormulaTable.Formula.Expr
import FormulaTable.Formula.Lexer

/-!
# From tokens to trees

The levels of a formula, from the loosest to the tightest: the conditional, `or`, `and`, equality,
order, sums, products, signs and `not`, and the operands themselves. Operators of one level stand in
a chain that groups to the left; the conditional groups to the right.

A formula may be nested only so deep. The depth grows with every expression, sign and link of a
chain, and falls back when the expression, sign or chain ends.
-/

namespace FormulaTable.Formula

/-- The greatest depth of nesting. -/
def maxNesting : Nat := 256

/-! ## The place in the formula -/

/-- What is left to read, and the depth of nesting. -/
structure Cursor where
  rest : List Token
  depth : Nat

namespace Cursor

/-- The kind of the next token, if any. -/
def peek (c : Cursor) : Option TokenKind := c.rest.head?.map Token.kind

/-- The place of the next token, or the length of the formula. -/
def position (length : Nat) (c : Cursor) : Nat := (c.rest.head?.map Token.position).getD length

/-- The next token is the symbol `s`. -/
def sees (c : Cursor) (s : Symbol) : Bool := c.peek == some (.symbol s)

/-- An error at the next token. -/
def fail {α : Type} (length : Nat) (c : Cursor) (cause : SyntaxCause) : Except SyntaxError α :=
  .error { cause, position := c.position length }

/-- One level deeper. -/
def enter (length : Nat) (c : Cursor) : Except SyntaxError Cursor :=
  if maxNesting ≤ c.depth then c.fail length .nestedTooDeeply
  else .ok { c with depth := c.depth + 1 }

/-- Some levels back up. -/
def leave (c : Cursor) (levels : Nat) : Cursor := { c with depth := c.depth - levels }

/-- Past the next token. -/
def next (c : Cursor) : Cursor := { c with rest := c.rest.tail }

/-- Past the symbol `s`, which has to come next. -/
def expect (length : Nat) (c : Cursor) (s : Symbol) (context : Context) :
    Except SyntaxError Cursor :=
  if c.sees s then .ok c.next else c.fail length (.expected s context c.peek)

/-- The number of tokens left. -/
def remaining (c : Cursor) : Nat := c.rest.length

theorem remaining_next_lt {c : Cursor} {k : TokenKind} (h : c.peek = some k) :
    c.next.remaining < c.remaining := by
  obtain ⟨rest, depth⟩ := c
  cases rest with
  | nil => simp [peek] at h
  | cons t rest => simp [next, remaining]

theorem peek_of_sees {c : Cursor} {s : Symbol} (h : c.sees s) : c.peek = some (.symbol s) := by
  simpa [sees] using h

theorem remaining_enter {length : Nat} {c d : Cursor} (h : c.enter length = .ok d) :
    d.remaining = c.remaining := by
  unfold enter at h
  split at h
  · cases h
  · cases h; rfl

theorem remaining_expect {length : Nat} {c d : Cursor} {s : Symbol} {context : Context}
    (h : c.expect length s context = .ok d) : d.remaining < c.remaining := by
  unfold expect at h
  split at h
  · rename_i seen
    cases h
    exact remaining_next_lt (peek_of_sees seen)
  · cases h

@[simp] theorem remaining_leave (c : Cursor) (levels : Nat) :
    (c.leave levels).remaining = c.remaining := rfl

end Cursor

/-! ## Operators -/

/-- A level of operators that stand in chains. -/
inductive Level where
  | or
  | and
  | equality
  | order
  | sum
  | product
deriving DecidableEq, Repr

/-- The next tighter level of operators; after the products there is none. -/
def Level.tighter? : Level → Option Level
  | or => some and
  | and => some equality
  | equality => some order
  | order => some sum
  | sum => some product
  | product => none

/-- The number of levels of operators from a level on. -/
def levelsFrom : Option Level → Nat
  | some .or => 6
  | some .and => 5
  | some .equality => 4
  | some .order => 3
  | some .sum => 2
  | some .product => 1
  | none => 0

theorem levelsFrom_tighter? (level : Level) :
    levelsFrom level.tighter? < levelsFrom (some level) := by
  cases level <;> decide

theorem levelsFrom_le (level? : Option Level) : levelsFrom level? ≤ 6 := by
  cases level? with
  | none => decide
  | some level => cases level <;> decide

/-- The operator of a level that a symbol stands for. -/
def Level.operator? : Level → Symbol → Option BinaryOp
  | or, .or => some .or
  | and, .and => some .and
  | equality, .equal => some .equal
  | equality, .notEqual => some .notEqual
  | order, .greater => some .greater
  | order, .greaterEqual => some .greaterEqual
  | order, .less => some .less
  | order, .lessEqual => some .lessEqual
  | sum, .plus => some .add
  | sum, .minus => some .subtract
  | product, .star => some .multiply
  | product, .slash => some .divide
  | product, .percent => some .modulo
  | _, _ => none

/-- The operator of a level that comes next. -/
def Cursor.operator? (c : Cursor) (level : Level) : Option BinaryOp :=
  match c.peek with
  | some (.symbol s) => level.operator? s
  | _ => none

/-- The sign that comes next, or `not` unless an opening parenthesis follows it. -/
def Cursor.unary? (c : Cursor) : Option UnaryOp :=
  match c.peek with
  | some (.symbol .not) => if c.next.sees .leftParen then none else some .not
  | some (.symbol .minus) => some .negate
  | some (.symbol .plus) => some .plus
  | _ => none

/-- The function that a token names if an opening parenthesis follows: an identifier, or one of the
words `and`, `or` and `not`. -/
def calledName? : TokenKind → Option String
  | .identifier name => some name
  | .symbol .and => some "and"
  | .symbol .or => some "or"
  | .symbol .not => some "not"
  | _ => none

/-- The tree of a token that is an operand by itself. -/
def literal? : TokenKind → Option Expr
  | .number x => some (.number x)
  | .string s => some (.string s)
  | .boolean b => some (.boolean b)
  | _ => none

/-- The tree of a call. A call of `prop` is a property, and its one argument has to be a string. -/
def callTree (name : String) (args : List Expr) : Except SyntaxCause Expr :=
  if Text.fold name = "prop" then
    match args with
    | [.string column] => .ok (.property column)
    | _ => .error .propertyArgument
  else .ok (.call (Text.fold name) args)

/-- Why a token cannot be an operand. -/
def operandCause : TokenKind → SyntaxCause
  | .identifier name => .unknownIdentifier name
  | kind => .unexpectedToken kind

theorem Cursor.peek_of_operator? {c : Cursor} {level : Level} {op : BinaryOp}
    (h : c.operator? level = some op) : ∃ k, c.peek = some k := by
  unfold operator? at h
  split at h
  · exact ⟨_, by assumption⟩
  · cases h

theorem Cursor.peek_of_unary? {c : Cursor} {op : UnaryOp}
    (h : c.unary? = some op) : ∃ k, c.peek = some k := by
  unfold unary? at h
  split at h <;> first | exact ⟨_, by assumption⟩ | cases h

/-! ## Levels -/

/-- A result and the place after it, which lies past at least one token. -/
structure Parsed (α : Type) (c : Cursor) where
  value : α
  after : Cursor
  advanced : after.remaining < c.remaining

/-- A result and the place after it, past any number of tokens. -/
structure ParsedAny (α : Type) (c : Cursor) where
  value : α
  after : Cursor
  advanced : after.remaining ≤ c.remaining

mutual

/-- Reads an expression: a chain of operators, or a conditional after one. -/
def parseExpression (length : Nat) (c : Cursor) : Except SyntaxError (Parsed Expr c) :=
  match entered : c.enter length with
  | .error e => .error e
  | .ok d => do
    have h := Cursor.remaining_enter entered
    let condition ← parseLevel length (some .or) d
    have h₁ := condition.advanced
    if question : condition.after.sees .question then
      have h₂ := Cursor.remaining_next_lt (Cursor.peek_of_sees question)
      let consequent ← parseExpression length condition.after.next
      have h₃ := consequent.advanced
      match colon : consequent.after.expect length .colon .conditional with
      | .error e => .error e
      | .ok c₁ => do
        have h₄ := Cursor.remaining_expect colon
        let alternate ← parseExpression length c₁
        have h₅ := alternate.advanced
        return {
          value := .conditional condition.value consequent.value alternate.value
          after := alternate.after.leave 1
          advanced := by rw [Cursor.remaining_leave]; omega }
    else
      return {
        value := condition.value
        after := condition.after.leave 1
        advanced := by rw [Cursor.remaining_leave]; omega }
termination_by 16 * c.remaining + 9
decreasing_by
  all_goals try simp only [levelsFrom]
  all_goals omega

/-- Reads a chain of a level, whose operands are read at the next tighter one; after the last level,
signs and an operand. -/
def parseLevel (length : Nat) (level? : Option Level) (c : Cursor) :
    Except SyntaxError (Parsed Expr c) :=
  match level? with
  | none => parseUnary length c
  | some level => do
    have h := levelsFrom_tighter? level
    let first ← parseLevel length level.tighter? c
    have h₁ := first.advanced
    let chain ← parseChain length level first.value 0 first.after
    have h₂ := chain.advanced
    return { value := chain.value, after := chain.after, advanced := by omega }
termination_by 16 * c.remaining + levelsFrom level? + 2
decreasing_by all_goals omega

/-- Reads the links of a chain after `left`, which is what has been read of it; `links` of them have
been read. -/
def parseChain (length : Nat) (level : Level) (left : Expr) (links : Nat) (c : Cursor) :
    Except SyntaxError (ParsedAny Expr c) :=
  match operator : c.operator? level with
  | none => .ok { value := left, after := c.leave links, advanced := by simp }
  | some op =>
    match entered : c.next.enter length with
    | .error e => .error e
    | .ok d => do
      have h := Cursor.remaining_enter entered
      have h₁ := Cursor.remaining_next_lt (Cursor.peek_of_operator? operator).choose_spec
      have h₂ : levelsFrom level.tighter? ≤ 6 := levelsFrom_le _
      let right ← parseLevel length level.tighter? d
      have h₃ := right.advanced
      let chain ← parseChain length level (.binary op left right.value) (links + 1) right.after
      have h₄ := chain.advanced
      return { value := chain.value, after := chain.after, advanced := by omega }
termination_by 16 * c.remaining
decreasing_by all_goals omega

/-- Reads signs and an operand after them. -/
def parseUnary (length : Nat) (c : Cursor) : Except SyntaxError (Parsed Expr c) :=
  match operator : c.unary? with
  | none => parsePrimary length c
  | some op =>
    match entered : c.next.enter length with
    | .error e => .error e
    | .ok d => do
      have h := Cursor.remaining_enter entered
      have h₁ := Cursor.remaining_next_lt (Cursor.peek_of_unary? operator).choose_spec
      let operand ← parseUnary length d
      have h₂ := operand.advanced
      return {
        value := .unary op operand.value
        after := operand.after.leave 1
        advanced := by rw [Cursor.remaining_leave]; omega }
termination_by 16 * c.remaining + 1
decreasing_by all_goals omega

/-- Reads an operand: a literal, a call, or an expression in parentheses. -/
def parsePrimary (length : Nat) (c : Cursor) : Except SyntaxError (Parsed Expr c) :=
  match next : c.peek with
  | none => c.fail length .unexpectedEnd
  | some kind =>
    have h₁ := Cursor.remaining_next_lt next
    match literal? kind with
    | some e => .ok { value := e, after := c.next, advanced := h₁ }
    | none =>
      if kind = .symbol .leftParen then do
        let inner ← parseExpression length c.next
        have h₂ := inner.advanced
        match closed : inner.after.expect length .rightParen .parenthesis with
        | .error e => .error e
        | .ok c₁ =>
          have h₃ := Cursor.remaining_expect closed
          return { value := inner.value, after := c₁, advanced := by omega }
      else
        match calledName? kind with
        | none => c.fail length (operandCause kind)
        | some name =>
          if opened : c.next.sees .leftParen then do
            have h₂ := Cursor.remaining_next_lt (Cursor.peek_of_sees opened)
            let args ← parseArguments length c.next.next
            have h₃ := args.advanced
            match closed : args.after.expect length .rightParen (.arguments name) with
            | .error e => .error e
            | .ok c₁ =>
              have h₄ := Cursor.remaining_expect closed
              match callTree name args.value with
              | .error cause => c.fail length cause
              | .ok e => return { value := e, after := c₁, advanced := by omega }
          else c.fail length (operandCause kind)
termination_by 16 * c.remaining
decreasing_by all_goals omega

/-- Reads the arguments of a call up to the closing parenthesis; there may be none. -/
def parseArguments (length : Nat) (c : Cursor) : Except SyntaxError (ParsedAny (List Expr) c) :=
  if c.sees .rightParen then .ok { value := [], after := c, advanced := Nat.le_refl _ }
  else do
    let args ← parseList length c
    have h := args.advanced
    return { value := args.value, after := args.after, advanced := by omega }
termination_by 16 * c.remaining + 11
decreasing_by all_goals omega

/-- Reads expressions with commas between them. -/
def parseList (length : Nat) (c : Cursor) : Except SyntaxError (Parsed (List Expr) c) := do
  let first ← parseExpression length c
  have h₁ := first.advanced
  if comma : first.after.sees .comma then
    have h₂ := Cursor.remaining_next_lt (Cursor.peek_of_sees comma)
    let others ← parseList length first.after.next
    have h₃ := others.advanced
    return { value := first.value :: others.value, after := others.after, advanced := by omega }
  else
    return { value := [first.value], after := first.after, advanced := h₁ }
termination_by 16 * c.remaining + 10
decreasing_by all_goals omega

end

/-! ## Formulas -/

/-- The tree of a formula whose tokens are known. -/
def parseTokens (stream : TokenStream) : Except SyntaxError Expr := do
  let e ← parseExpression stream.length { rest := stream.tokens, depth := 0 }
  match e.after.peek with
  | none => return e.value
  | some kind => e.after.fail stream.length (.afterExpression kind)

/-- The tree of a formula. -/
def parse (formula : String) : Except SyntaxError Expr :=
  if formula.toList.all Text.isSpace then .error { cause := .empty, position := 0 }
  else (tokenize formula).bind parseTokens

end FormulaTable.Formula
