import FormulaTable.Proofs.Formula.Grammar
import Mathlib.Data.List.Basic

/-!
# Reading follows the grammar

The parser reads exactly what the grammar derives. `read` is the parser of a phrase without the
proofs that it advances, and has one equation for each phrase. Reading is sound: what it passes over
derives what it returns. It is complete, as long as the nesting of the derivation fits.
-/

namespace FormulaTable.Formula

/-! ## Kinds of tokens -/

/-- The kinds of the tokens that are left. -/
def Cursor.kinds (c : Cursor) : List TokenKind := c.rest.map Token.kind

theorem Cursor.peek_eq (c : Cursor) : c.peek = c.kinds.head? := by
  rw [peek, kinds, List.head?_map]

@[simp] theorem Cursor.kinds_next (c : Cursor) : c.next.kinds = c.kinds.tail := by
  rw [kinds, kinds, next, List.map_tail]

@[simp] theorem Cursor.kinds_leave (c : Cursor) (levels : Nat) : (c.leave levels).kinds = c.kinds :=
  rfl

/-- The next token is a symbol if its kind is. -/
theorem Cursor.sees_iff {c : Cursor} {s : Symbol} :
    c.sees s = true ↔ c.kinds.head? = some (.symbol s) := by
  rw [sees, peek_eq, beq_iff_eq]

/-- A symbol that comes next stands before what is left after it. -/
theorem Cursor.kinds_of_sees {c : Cursor} {s : Symbol} (h : c.sees s = true) :
    c.kinds = .symbol s :: c.next.kinds := by
  rw [kinds_next]
  exact List.eq_cons_of_mem_head? (sees_iff.mp h)

theorem Cursor.kinds_of_peek {c : Cursor} {k : TokenKind} (h : c.peek = some k) :
    c.kinds = k :: c.next.kinds := by
  rw [kinds_next]
  exact List.eq_cons_of_mem_head? (c.peek_eq ▸ h)

theorem Cursor.kinds_enter {length : Nat} {c d : Cursor} (h : c.enter length = .ok d) :
    d.kinds = c.kinds := by
  unfold enter at h
  split at h
  · cases h
  · cases h
    rfl

theorem Cursor.kinds_expect {length : Nat} {c d : Cursor} {s : Symbol} {context : Context}
    (h : c.expect length s context = .ok d) : c.kinds = .symbol s :: d.kinds := by
  unfold expect at h
  split at h
  · rename_i seen
    cases h
    exact kinds_of_sees seen
  · cases h

/-! ## Words -/

theorem operator?_eq_some_iff {level : Level} {s : Symbol} {op : BinaryOp} :
    level.operator? s = some op ↔ Operator level s op := by
  constructor
  · intro h
    cases level <;> cases s <;> cases h <;> constructor
  · intro h
    cases h <;> rfl

theorem literal?_eq_some_iff {k : TokenKind} {e : Expr} : literal? k = some e ↔ Literal k e := by
  constructor
  · intro h
    cases k <;> cases h <;> constructor
  · intro h
    cases h <;> rfl

theorem calledName?_eq_some_iff {k : TokenKind} {name : String} :
    calledName? k = some name ↔ CallName k name := by
  constructor
  · intro h
    cases k with
    | symbol s => cases s <;> cases h <;> constructor
    | identifier _ =>
        cases h
        constructor
    | _ => cases h
  · intro h
    cases h <;> rfl

/-- The operator of a level that comes next. -/
theorem Cursor.operator?_eq_some_iff {c : Cursor} {level : Level} {op : BinaryOp} :
    c.operator? level = some op ↔
      ∃ s, c.kinds.head? = some (.symbol s) ∧ Operator level s op := by
  rw [operator?, peek_eq]
  constructor
  · intro h
    split at h
    · exact ⟨_, by assumption, Formula.operator?_eq_some_iff.mp h⟩
    · cases h
  · rintro ⟨s, hs, hop⟩
    rw [hs]
    exact Formula.operator?_eq_some_iff.mpr hop

/-- The sign that comes next; `not` is none before a parenthesis. -/
theorem Cursor.unary?_eq_some_iff {c : Cursor} {op : UnaryOp} :
    c.unary? = some op ↔
      ∃ s, c.kinds.head? = some (.symbol s) ∧ Sign s op ∧
        (s = .not → c.kinds.tail.head? ≠ some (.symbol .leftParen)) := by
  rw [unary?, peek_eq]
  constructor
  · intro h
    split at h
    · split at h
      · cases h
      · rename_i hnot hcall
        cases h
        rw [sees_iff, kinds_next] at hcall
        exact ⟨_, hnot, .not, fun _ => hcall⟩
    · cases h
      exact ⟨_, by assumption, .minus, nofun⟩
    · cases h
      exact ⟨_, by assumption, .plus, nofun⟩
    · cases h
  · rintro ⟨s, hs, sign, hcall⟩
    rw [hs]
    cases sign with
    | not =>
        have hsees : ¬ c.next.sees .leftParen = true := by
          rw [sees_iff, kinds_next]
          exact hcall rfl
        exact if_neg hsees
    | minus => rfl
    | plus => rfl

/-! ## The parser of a phrase -/

/-- What was read, and the place after it. -/
def Parsed.place {α : Type} {c : Cursor} (x : Parsed α c) : α × Cursor := (x.value, x.after)

/-- What was read, and the place after it. -/
def ParsedAny.place {α : Type} {c : Cursor} (x : ParsedAny α c) : α × Cursor := (x.value, x.after)

/-- Reads a phrase. -/
def read (length : Nat) : (p : Phrase) → Cursor → Except SyntaxError (p.Meaning × Cursor)
  | .expression, c => (parseExpression length c).map Parsed.place
  | .level level?, c => (parseLevel length level? c).map Parsed.place
  | .links level left, c => (parseChain length level left 0 c).map ParsedAny.place
  | .operand, c => (parsePrimary length c).map Parsed.place
  | .arguments, c => (parseArguments length c).map ParsedAny.place
  | .list, c => (parseList length c).map Parsed.place

variable {length : Nat} {c : Cursor}

/-- An expression: a chain of `or`, and the rest of a conditional after a question mark. -/
theorem read_expression : read length .expression c =
    (c.enter length).bind fun d =>
      (read length (.level (some .or)) d).bind fun (condition, d) =>
        if d.sees .question then
          (read length .expression d.next).bind fun (consequent, d) =>
            (d.expect length .colon .conditional).bind fun d =>
              (read length .expression d).map fun (alternate, d) =>
                (.conditional condition consequent alternate, d.leave 1)
        else .ok (condition, d.leave 1) := by
  simp only [read]
  rw [parseExpression]
  split
  · rename_i entered
    rw [entered]
    rfl
  · rename_i d entered
    simp only [entered, bind, Except.bind]
    cases parseLevel length (some .or) d with
    | error _ => rfl
    | ok condition =>
        by_cases question : condition.after.sees .question = true
        · dsimp only [Except.map, Parsed.place]
          rw [dif_pos question, if_pos question]
          cases parseExpression length condition.after.next with
          | error _ => rfl
          | ok consequent =>
              -- the parser keeps the proof that the colon was there
              change Except.map Parsed.place _ = _
              dsimp only
              split
              · rename_i colon
                rw [colon]
                rfl
              · rename_i d' colon
                simp only [colon]
                cases parseExpression length d' <;> rfl
        · dsimp only [Except.map, Parsed.place]
          rw [dif_neg question, if_neg question]
          rfl

/-- A chain: its first operand, and its links. -/
theorem read_level {level : Level} : read length (.level (some level)) c =
    (read length (.level level.tighter?) c).bind fun (first, d) =>
      read length (.links level first) d := by
  simp only [read]
  rw [parseLevel]
  cases parseLevel length level.tighter? c with
  | error _ => rfl
  | ok first =>
      show _ = Except.map ParsedAny.place (parseChain length level first.value 0 first.after)
      simp only [bind, Except.bind]
      cases parseChain length level first.value 0 first.after <;> rfl

/-- The links of a chain of which `links` have been read: none, or an operator, its right operand
and the links after them. -/
theorem parseChain_place {level : Level} {left : Expr} {links : Nat} :
    (parseChain length level left links c).map ParsedAny.place =
      match c.operator? level with
      | none => .ok (left, c.leave links)
      | some op =>
        (c.next.enter length).bind fun d =>
          (read length (.level level.tighter?) d).bind fun (right, d) =>
            (parseChain length level (.binary op left right) (links + 1) d).map
              ParsedAny.place := by
  simp only [read]
  rw [parseChain]
  split
  · rename_i operator
    rw [operator]
    rfl
  · rename_i op operator
    conv_rhs => rw [operator]
    split
    · rename_i entered
      dsimp only
      rw [entered]
      rfl
    · rename_i d entered
      simp only [entered, bind, Except.bind]
      cases parseLevel length level.tighter? d with
      | error _ => rfl
      | ok right =>
          show _ = Except.map ParsedAny.place
            (parseChain length level (.binary op left right.value) (links + 1) right.after)
          dsimp only
          cases parseChain length level (.binary op left right.value) (links + 1) right.after <;>
            rfl

/-- Every phrase but the links and the arguments has a token. -/
theorem remaining_of_read_level {level? : Option Level} {e : Expr} {d : Cursor}
    (h : read length (.level level?) c = .ok (e, d)) : d.remaining < c.remaining := by
  simp only [read] at h
  cases hp : parseLevel length level? c with
  | error _ =>
      rw [hp] at h
      cases h
  | ok x =>
      rw [hp] at h
      cases h
      exact x.advanced

/-- The links read before only leave more levels. -/
theorem parseChain_leave {level : Level} {left : Expr} {links : Nat} :
    (parseChain length level left links c).map ParsedAny.place =
      (read length (.links level left) c).map fun (e, d) => (e, d.leave links) := by
  -- the count only matters where the chain ends, one link later for one link more
  induction h : c.remaining using Nat.strongRecOn generalizing left links c with
  | _ n ih =>
      simp only [read]
      rw [parseChain_place, parseChain_place]
      cases c.operator? level with
      | none => rfl
      | some op =>
          dsimp only
          cases entered : c.next.enter length with
          | error _ => rfl
          | ok d =>
              simp only [Except.bind]
              cases hright : read length (.level level.tighter?) d with
              | error _ => rfl
              | ok x =>
                  obtain ⟨right, d'⟩ := x
                  have hlt : d'.remaining < n := by
                    have h₁ := remaining_of_read_level hright
                    have h₂ := Cursor.remaining_enter entered
                    have h₃ : c.next.remaining ≤ c.remaining := by
                      simp [Cursor.remaining, Cursor.next]
                    omega
                  dsimp only
                  rw [ih _ hlt rfl, ih _ hlt rfl]
                  cases read length (.links level (.binary op left right)) d' with
                  | error _ => rfl
                  | ok y => simp [Except.map, Cursor.leave, Nat.sub_sub, Nat.add_comm]

/-- The links of a chain: none, or an operator, its right operand and the links after them. -/
theorem read_links {level : Level} {left : Expr} : read length (.links level left) c =
    match c.operator? level with
    | none => .ok (left, c)
    | some op =>
      (c.next.enter length).bind fun d =>
        (read length (.level level.tighter?) d).bind fun (right, d) =>
          (read length (.links level (.binary op left right)) d).map fun (e, d) =>
            (e, d.leave 1) := by
  rw [read, parseChain_place]
  simp only [parseChain_leave]
  rfl

/-- Signs and an operand. -/
theorem read_unary : read length (.level none) c =
    match c.unary? with
    | none => read length .operand c
    | some op =>
      (c.next.enter length).bind fun d =>
        (read length (.level none) d).map fun (e, d) => (.unary op e, d.leave 1) := by
  simp only [read]
  rw [parseLevel, parseUnary]
  split
  · rename_i operator
    rw [operator]
  · rename_i op operator
    conv_rhs => rw [operator]
    split
    · rename_i entered
      dsimp only
      rw [entered]
      rfl
    · rename_i d entered
      simp only [entered, bind, Except.bind]
      rw [parseLevel]
      cases parseUnary length d <;> rfl

/-- An operand: a literal, an expression in parentheses, or a call. -/
theorem read_operand : read length .operand c =
    match c.peek with
    | none => c.fail length .unexpectedEnd
    | some k =>
      match literal? k with
      | some e => .ok (e, c.next)
      | none =>
        if k = .symbol .leftParen then
          (read length .expression c.next).bind fun (e, d) =>
            (d.expect length .rightParen .parenthesis).map fun d => (e, d)
        else
          match calledName? k with
          | none => c.fail length (operandCause k)
          | some name =>
            if c.next.sees .leftParen then
              (read length .arguments c.next.next).bind fun (args, d) =>
                (d.expect length .rightParen (.arguments name)).bind fun d =>
                  match callTree name args with
                  | .error cause => c.fail length cause
                  | .ok e => .ok (e, d)
            else c.fail length (operandCause k) := by
  simp only [read]
  rw [parsePrimary]
  split
  · rename_i next
    rw [next]
    rfl
  · rename_i k next
    conv_rhs => rw [next]
    dsimp only
    cases literal? k with
    | some e => rfl
    | none =>
        dsimp only
        by_cases paren : k = .symbol .leftParen
        · rw [if_pos paren, if_pos paren]
          cases parseExpression length c.next with
          | error _ => rfl
          | ok inner =>
              simp only [bind, Except.bind]
              split
              · rename_i closed
                show _ = Except.map _ (inner.after.expect length _ _)
                rw [closed]
                rfl
              · rename_i d closed
                show _ = Except.map _ (inner.after.expect length _ _)
                conv_rhs => rw [closed]
                rfl
        · rw [if_neg paren, if_neg paren]
          cases calledName? k with
          | none => rfl
          | some name =>
              dsimp only
              by_cases opened : c.next.sees .leftParen = true
              · rw [dif_pos opened, if_pos opened]
                cases parseArguments length c.next.next with
                | error _ => rfl
                | ok args =>
                    simp only [bind, Except.bind]
                    split
                    · rename_i closed
                      show _ = Except.bind (args.after.expect length _ _) _
                      rw [closed]
                      rfl
                    · rename_i d closed
                      show _ = Except.bind (args.after.expect length _ _) _
                      conv_rhs => rw [closed]
                      simp only [Except.bind, ParsedAny.place]
                      cases callTree name args.value <;> rfl
              · rw [dif_neg opened, if_neg opened]
                rfl

/-- Arguments up to the closing parenthesis. -/
theorem read_arguments : read length .arguments c =
    if c.sees .rightParen then .ok ([], c) else read length .list c := by
  simp only [read]
  rw [parseArguments]
  split
  · rfl
  · simp only [bind, Except.bind]
    cases parseList length c <;> rfl

/-- Expressions with commas between them. -/
theorem read_list : read length .list c =
    (read length .expression c).bind fun (e, d) =>
      if d.sees .comma then (read length .list d.next).map fun (es, d) => (e :: es, d)
      else .ok ([e], d) := by
  simp only [read]
  rw [parseList]
  cases parseExpression length c with
  | error _ => rfl
  | ok first =>
      simp only [bind, Except.bind]
      by_cases comma : first.after.sees .comma = true
      · dsimp only [Except.map, Parsed.place]
        rw [dif_pos comma, if_pos comma]
        cases parseList length first.after.next <;> rfl
      · dsimp only [Except.map, Parsed.place]
        rw [dif_neg comma, if_neg comma]
        rfl

end FormulaTable.Formula
