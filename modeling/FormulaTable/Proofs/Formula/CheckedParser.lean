import FormulaTable.Proofs.Formula.Reading

/-!
# The counters of the parser

The parser of a formula walks over a list of tokens that ends with the end of the formula. It keeps two
counters: how many tokens it has passed, and how deep it is nested. Here the parser is told by these
counters, and each of its steps is checked: a token that is looked up has to be in the list, the parser
may not pass the end, the depth may not leave its bounds, and only so many calls may be open at once.

No check ever fails, whichever function of the parser is called and wherever it starts. Counters apart,
the function does what the parser of the tokens that are left does.
-/

namespace FormulaTable.Formula

/-! ## The list of tokens -/

/-- A token and its place, or the end of the formula, which has no kind. -/
structure Entry where
  kind : Option TokenKind
  position : Nat

/-- The entry of a token. -/
def Token.entry (t : Token) : Entry := ⟨t.kind, t.position⟩

/-- The tokens of a formula, and its end. -/
def TokenStream.entries (stream : TokenStream) : List Entry :=
  stream.tokens.map Token.entry ++ [⟨none, stream.length⟩]

@[simp] theorem TokenStream.length_entries (stream : TokenStream) :
    stream.entries.length = stream.tokens.length + 1 := by
  simp [entries]

/-- A list of entries is one of a formula if it ends with its only end. -/
theorem exists_entries_iff {entries : List Entry} :
    (∃ stream : TokenStream, stream.entries = entries) ↔
      ∃ front last, entries = front ++ [last] ∧ last.kind = none ∧
        ∀ entry ∈ front, entry.kind ≠ none := by
  constructor
  · rintro ⟨stream, rfl⟩
    refine ⟨_, _, rfl, rfl, ?_⟩
    simp [Token.entry]
  · rintro ⟨front, ⟨_, length⟩, rfl, rfl, hfront⟩
    have htokens : ∃ tokens : List Token, tokens.map Token.entry = front := by
      induction front with
      | nil => exact ⟨[], rfl⟩
      | cons entry front ih =>
          obtain ⟨k, hk⟩ := Option.ne_none_iff_exists'.mp (hfront entry List.mem_cons_self)
          obtain ⟨tokens, rfl⟩ := ih fun e he => hfront e (List.mem_cons_of_mem _ he)
          refine ⟨⟨k, entry.position⟩ :: tokens, ?_⟩
          rw [List.map_cons, Token.entry, ← hk]
    obtain ⟨tokens, rfl⟩ := htokens
    exact ⟨⟨tokens, length⟩, rfl⟩

/-! ## Checked steps -/

/-- The number of tokens passed, and the depth of nesting. -/
structure Counters where
  passed : Nat
  depth : Nat

namespace Counters

/-- One more token is passed. -/
def next (c : Counters) : Counters := { c with passed := c.passed + 1 }

/-- One level deeper. -/
def deeper (c : Counters) : Counters := { c with depth := c.depth + 1 }

/-- Some levels back up. -/
def back (c : Counters) (levels : Nat) : Counters := { c with depth := c.depth - levels }

/-- The tokens that are left, and the depth. -/
def cursor (stream : TokenStream) (c : Counters) : Cursor :=
  ⟨stream.tokens.drop c.passed, c.depth⟩

/-- The counters are in their bounds. -/
structure Valid (stream : TokenStream) (c : Counters) : Prop where
  passed_le : c.passed ≤ stream.tokens.length
  depth_le : c.depth ≤ maxNesting

variable {stream : TokenStream} {c : Counters}

@[simp] theorem cursor_next (stream : TokenStream) (c : Counters) :
    c.next.cursor stream = (c.cursor stream).next := by
  rw [cursor, cursor, Cursor.next, next, List.tail_drop]

/-- A token comes next only if not all have been passed. -/
theorem Valid.next (hc : c.Valid stream) {k : TokenKind}
    (h : (c.cursor stream).peek = some k) : c.next.Valid stream := by
  refine ⟨?_, hc.depth_le⟩
  by_contra hpassed
  have hnil : stream.tokens.drop c.passed = [] :=
    List.drop_eq_nil_of_le (Nat.le_of_lt_succ (Nat.lt_of_not_le hpassed))
  rw [cursor, Cursor.peek, hnil] at h
  cases h

theorem Valid.back (hc : c.Valid stream) (levels : Nat) : (c.back levels).Valid stream :=
  ⟨hc.passed_le, Nat.le_trans (Nat.sub_le _ _) hc.depth_le⟩

end Counters

/-- What the parser may not do. -/
inductive Misstep where
  /-- Look up a token that is not in the list. -/
  | outOfBounds
  /-- Pass the end of the formula. -/
  | pastEnd
  /-- Nest deeper than the greatest depth. -/
  | tooDeep
  /-- Leave more levels than it has entered. -/
  | belowZero
  /-- Have more calls open than it may. -/
  | tooManyCalls
deriving DecidableEq

/-- An error as the parser words it, and its place. -/
structure ParseError where
  message : String
  position : Nat
deriving DecidableEq

/-- A step that changes the counters or is a misstep. -/
abbrev Stepping := StateT Counters (Except Misstep)

/-- Some steps after which the formula may turn out to have an error. -/
abbrev Counting := ExceptT ParseError Stepping

/-- The token `ahead` places after the next one, or the end if there are not so many. -/
def look (entries : List Entry) (ahead : Nat) : Stepping Entry := do
  let c ← get
  match entries[min (c.passed + ahead) (entries.length - 1)]? with
  | none => throw .outOfBounds
  | some entry => return entry

/-- The next token is the symbol `s`. -/
def sees (entries : List Entry) (s : Symbol) : Stepping Bool := do
  let entry ← look entries 0
  return entry.kind == some (.symbol s)

/-- Past one entry, which may not be the last one. -/
def advance (entries : List Entry) : Stepping Unit := do
  let c ← get
  if c.next.passed < entries.length then set c.next else throw .pastEnd

/-- The next entry; if it is a token, the parser passes it. -/
def consume (entries : List Entry) : Stepping Entry := do
  let entry ← look entries 0
  match entry.kind with
  | none => return entry
  | some _ =>
    advance entries
    return entry

/-- One level deeper, which may not be too deep. -/
def deepen : Stepping Unit := do
  let c ← get
  if c.deeper.depth ≤ maxNesting then set c.deeper else throw .tooDeep

/-- Some levels back up, which have to be there. -/
def leave (levels : Nat) : Stepping Unit := do
  let c ← get
  if levels ≤ c.depth then set (c.back levels) else throw .belowZero

/-- Past the symbol `s`, which has to come next. -/
def expect (entries : List Entry) (s : Symbol) (context : String) : Counting Unit := do
  if ← sees entries s then
    let _ ← consume entries
  else
    let entry ← look entries 0
    throw ⟨"Expected '" ++ s.spelling ++ "' " ++ context ++ ", got " ++ describe entry.kind,
      entry.position⟩

/-- One level deeper, or an error at the next token. -/
def enter (entries : List Entry) : Counting Unit := do
  let c ← get
  if maxNesting ≤ c.depth then
    let entry ← look entries 0
    throw ⟨SyntaxCause.nestedTooDeeply.message, entry.position⟩
  else deepen

/-- What `m` does, and one level back up after it, also after an error. -/
def leaving {α : Type} (m : Counting α) : Counting α := ExceptT.mk do
  let outcome ← m.run
  leave 1
  return outcome

/-! ## The functions of the parser -/

/-- The functions of the parser and the loops in them. -/
inductive Routine where
  /-- An expression, one level deeper. -/
  | expression
  /-- A chain of `or`, or a conditional after one. -/
  | conditional
  /-- A chain of a level; after the last level, signs and an operand. -/
  | level (level? : Option Level)
  /-- The loop over the links of a chain after `left`, of which `chained` have been read. -/
  | links (level : Level) (left : Expr) (chained : Nat)
  /-- An operand without signs. -/
  | operand
  /-- The call of a function whose name stands at `position`, from the parenthesis on. -/
  | call (name : String) (position : Nat)
  /-- The loop over the arguments of a call after `args`, and the parenthesis that ends it. -/
  | arguments (name : String) (position : Nat) (args : List Expr)

/-- The operator of a level that an entry is. -/
def Level.operatorOf? (level : Level) (entry : Entry) : Option BinaryOp :=
  match entry.kind with
  | some (.symbol s) => level.operator? s
  | _ => none

/-- The sign that comes next, or `not` unless an opening parenthesis follows it. -/
def signNext (entries : List Entry) : Stepping (Option UnaryOp) := do
  let entry ← look entries 0
  match entry.kind with
  | some (.symbol .not) =>
    let following ← look entries 1
    return if following.kind == some (.symbol .leftParen) then none else some .not
  | some (.symbol .minus) => return some .negate
  | some (.symbol .plus) => return some .plus
  | _ => return none

/-- The end of the call of a function: the closing parenthesis, and the tree of the call. -/
def closeCall (entries : List Entry) (name : String) (position : Nat) (args : List Expr) :
    Counting Expr := do
  expect entries .rightParen (Context.arguments name).describe
  match callTree name args with
  | .error cause => throw ⟨cause.message, position⟩
  | .ok e => return e

/-- What a function of the parser does, where `self` is what the functions do that it calls. -/
def Routine.body (entries : List Entry) (self : Routine → Counting Expr) :
    Routine → Counting Expr
  | expression => do
    enter entries
    leaving (self conditional)
  | conditional => do
    let condition ← self (level (some .or))
    if ← sees entries .question then
      let _ ← consume entries
      let consequent ← self expression
      expect entries .colon Context.conditional.describe
      let alternate ← self expression
      return .conditional condition consequent alternate
    else return condition
  | level (some chain) => do
    let first ← self (level chain.tighter?)
    self (links chain first 0)
  | links chain left chained => do
    let entry ← look entries 0
    match chain.operatorOf? entry with
    | none =>
      leave chained
      return left
    | some op =>
      let _ ← consume entries
      enter entries
      let right ← self (level chain.tighter?)
      self (links chain (.binary op left right) (chained + 1))
  | level none => do
    let sign ← signNext entries
    match sign with
    | none => self operand
    | some op =>
      let _ ← consume entries
      enter entries
      let e ← leaving (self (level none))
      return .unary op e
  | operand => do
    let entry ← consume entries
    match entry.kind with
    | none => throw ⟨SyntaxCause.unexpectedEnd.message, entry.position⟩
    | some kind =>
      match literal? kind with
      | some e => return e
      | none =>
        if kind = .symbol .leftParen then
          let e ← self expression
          expect entries .rightParen Context.parenthesis.describe
          return e
        else
          match calledName? kind with
          | none => throw ⟨(operandCause kind).message, entry.position⟩
          | some name =>
            if ← sees entries .leftParen then self (call name entry.position)
            else throw ⟨(operandCause kind).message, entry.position⟩
  | call name position => do
    expect entries .leftParen "after function name"
    if ← sees entries .rightParen then closeCall entries name position []
    else
      let first ← self expression
      self (arguments name position [first])
  | arguments name position args => do
    if ← sees entries .comma then
      let _ ← consume entries
      let next ← self expression
      self (arguments name position (args ++ [next]))
    else closeCall entries name position args

/-- The parser with only so many calls open at once. -/
def Routine.run (entries : List Entry) : Nat → Routine → Counting Expr
  | 0, _ => throwThe Misstep .tooManyCalls
  | calls + 1, r => r.body entries (run entries calls)

/-! ## Steps that are none amiss -/

variable {α β : Type} {stream : TokenStream} {c : Counters}

/-- What comes next, and its place. -/
def Cursor.entry (length : Nat) (c : Cursor) : Entry := ⟨c.peek, c.position length⟩

/-- The entry at a place is what comes next there. -/
theorem TokenStream.entries_getElem? {n : Nat} (h : n ≤ stream.tokens.length) (depth : Nat) :
    stream.entries[n]? = some (Cursor.entry stream.length ⟨stream.tokens.drop n, depth⟩) := by
  rw [Cursor.entry, Cursor.peek, Cursor.position, List.head?_drop, entries]
  rcases Nat.lt_or_eq_of_le h with hlt | rfl
  · rw [List.getElem?_append_left (by simpa using hlt), List.getElem?_map,
      List.getElem?_eq_getElem hlt]
    rfl
  · simp

theorem run_look {ahead : Nat} (h : c.passed + ahead ≤ stream.tokens.length) :
    (look stream.entries ahead).run c =
      .ok (Cursor.entry stream.length ⟨stream.tokens.drop (c.passed + ahead), c.depth⟩, c) := by
  have hplace : min (c.passed + ahead) (stream.entries.length - 1) = c.passed + ahead := by
    rw [stream.length_entries]
    omega
  show (match stream.entries[min (c.passed + ahead) (stream.entries.length - 1)]? with
    | none => throw Misstep.outOfBounds
    | some entry => pure entry : Stepping Entry).run c = _
  rw [hplace, TokenStream.entries_getElem? h c.depth]
  rfl

theorem run_look_zero (hc : c.Valid stream) :
    (look stream.entries 0).run c = .ok ((c.cursor stream).entry stream.length, c) :=
  run_look hc.passed_le

/-- A step after one that is none amiss. -/
theorem run_bind_ok {m : Stepping α} {f : α → Stepping β} {a : α} {c' : Counters}
    (h : m.run c = .ok (a, c')) : (m >>= f).run c = (f a).run c' := by
  rw [StateT.run_bind, h]
  rfl

/-- A step that is none amiss as a part of a run. -/
theorem run_lift_ok {m : Stepping α} {a : α} {c' : Counters} (h : m.run c = .ok (a, c')) :
    (liftM m : Counting α).run.run c = .ok (.ok a, c') := by
  show (Except.ok <$> m : Stepping (Except ParseError α)).run c = _
  rw [StateT.run_map, h]
  rfl

theorem run_sees (hc : c.Valid stream) (s : Symbol) :
    (sees stream.entries s).run c = .ok ((c.cursor stream).sees s, c) := by
  rw [sees, run_bind_ok (run_look_zero hc)]
  rfl

theorem run_advance (hc : c.next.Valid stream) :
    (advance stream.entries).run c = .ok ((), c.next) := by
  have hlt : c.next.passed < stream.entries.length := by
    rw [stream.length_entries]
    exact Nat.lt_succ_of_le hc.passed_le
  show (if c.next.passed < stream.entries.length then set c.next
    else throw Misstep.pastEnd : Stepping Unit).run c = _
  rw [if_pos hlt]
  rfl

theorem run_consume (hc : c.Valid stream) : (consume stream.entries).run c =
    .ok ((c.cursor stream).entry stream.length,
      if (c.cursor stream).peek.isSome then c.next else c) := by
  rw [consume, run_bind_ok (run_look_zero hc)]
  dsimp only [Cursor.entry]
  cases h : (c.cursor stream).peek with
  | none => rfl
  | some k =>
      dsimp only
      rw [run_bind_ok (run_advance (hc.next h))]
      rfl

theorem run_leave {levels : Nat} (h : levels ≤ c.depth) :
    (leave levels).run c = .ok ((), c.back levels) := by
  show (if levels ≤ c.depth then set (c.back levels)
    else throw Misstep.belowZero : Stepping Unit).run c = _
  rw [if_pos h]
  rfl

/-- The sign that comes next; a token is looked up behind the word `not`, which is not the end. -/
theorem run_signNext (hc : c.Valid stream) :
    (signNext stream.entries).run c = .ok ((c.cursor stream).unary?, c) := by
  rw [signNext, run_bind_ok (run_look_zero hc), Cursor.unary?]
  dsimp only [Cursor.entry]
  cases h : (c.cursor stream).peek with
  | none => rfl
  | some k =>
      cases k with
      | symbol s =>
          cases s with
          | not =>
              have hnext : (look stream.entries 1).run c =
                  .ok ((c.next.cursor stream).entry stream.length, c) :=
                run_look (hc.next h).passed_le
              dsimp only
              rw [run_bind_ok hnext, Counters.cursor_next]
              rfl
          | _ => rfl
      | _ => rfl

theorem run_expect_seen (hc : c.Valid stream) {s : Symbol}
    (h : (c.cursor stream).sees s = true) (context : String) :
    (expect stream.entries s context).run.run c = .ok (.ok (), c.next) := by
  have hconsume := run_consume hc
  rw [Cursor.peek_of_sees h] at hconsume
  rw [expect, ExceptT.run_bind, run_bind_ok (run_lift_ok (run_sees hc s)), h]
  dsimp only
  rw [if_pos rfl, ExceptT.run_bind, run_bind_ok (run_lift_ok hconsume)]
  rfl

theorem run_expect_missed (hc : c.Valid stream) {s : Symbol}
    (h : ¬ (c.cursor stream).sees s = true) (context : String) :
    (expect stream.entries s context).run.run c =
      .ok (.error ⟨"Expected '" ++ s.spelling ++ "' " ++ context ++ ", got " ++
        describe (c.cursor stream).peek, (c.cursor stream).position stream.length⟩, c) := by
  rw [expect, ExceptT.run_bind, run_bind_ok (run_lift_ok (run_sees hc s))]
  dsimp only
  rw [if_neg h, ExceptT.run_bind, run_bind_ok (run_lift_ok (run_look_zero hc))]
  rfl

theorem run_enter (h : ¬ maxNesting ≤ c.depth) :
    (enter stream.entries).run.run c = .ok (.ok (), c.deeper) := by
  have hdeepen : deepen.run c = .ok ((), c.deeper) := by
    show (if c.deeper.depth ≤ maxNesting then set c.deeper
      else throw Misstep.tooDeep : Stepping Unit).run c = _
    rw [if_pos (show c.deeper.depth ≤ maxNesting from Nat.lt_of_not_le h)]
    rfl
  show (if maxNesting ≤ c.depth then _ else liftM deepen : Counting Unit).run.run c = _
  rw [if_neg h]
  exact run_lift_ok hdeepen

theorem run_enter_deepest (hc : c.Valid stream) (h : maxNesting ≤ c.depth) :
    (enter stream.entries).run.run c = .ok (.error ⟨SyntaxCause.nestedTooDeeply.message,
      (c.cursor stream).position stream.length⟩, c) := by
  show (if maxNesting ≤ c.depth then (do
      let entry ← look stream.entries 0
      throw ⟨SyntaxCause.nestedTooDeeply.message, entry.position⟩)
    else liftM deepen : Counting Unit).run.run c = _
  rw [if_pos h, ExceptT.run_bind, run_bind_ok (run_lift_ok (run_look_zero hc))]
  rfl

end FormulaTable.Formula
