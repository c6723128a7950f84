import FormulaTable.Proofs.Formula.Recognition
import FormulaTable.Proofs.Text.Case

/-!
# Tokens at other places, with other names

A formula is parsed by the kinds of its tokens, and a call by the small letters of its name. Where the
tokens stand and how names are spelled shows in nothing but an error: if every token is moved and every
name respelled, the parser does the same, and an error is the error it was, at the new place and with
the new names.
-/

namespace FormulaTable.Formula

/-! ## Names -/

/-- Names are spelled in another way, with the same small letters. Words stay as they are. -/
structure Respelling where
  spell : String → String
  fold_spell : ∀ name, Text.fold (spell name) = Text.fold name
  spell_word : ∀ name ∈ ["and", "or", "not"], spell name = name

variable {α β : Type} {ρ : Nat → Nat} {σ : Respelling} {length : Nat} {c : Cursor}

namespace Respelling

/-- Every name stays as it is. -/
def same : Respelling := ⟨id, fun _ => rfl, fun _ _ => rfl⟩

/-- Every name in small letters. -/
def small : Respelling := ⟨Text.fold, Text.fold_fold, by decide⟩

end Respelling

/-- The token with its name respelled. -/
def TokenKind.respell (σ : Respelling) : TokenKind → TokenKind
  | .identifier name => .identifier (σ.spell name)
  | kind => kind

/-- The context with its name respelled. -/
def Context.respell (σ : Respelling) : Context → Context
  | .arguments function => .arguments (σ.spell function)
  | context => context

/-- The cause with its names respelled. -/
def SyntaxCause.respell (σ : Respelling) : SyntaxCause → SyntaxCause
  | .unexpectedToken kind => .unexpectedToken (kind.respell σ)
  | .afterExpression found => .afterExpression (found.respell σ)
  | .expected symbol context found =>
    .expected symbol (context.respell σ) (found.map (TokenKind.respell σ))
  | .unknownIdentifier name => .unknownIdentifier (σ.spell name)
  | cause => cause

namespace TokenKind

@[simp] theorem respell_eq_symbol (σ : Respelling) (k : TokenKind) (s : Symbol) :
    k.respell σ = .symbol s ↔ k = .symbol s := by
  cases k <;> simp [respell]

@[simp] theorem literal?_respell (σ : Respelling) (k : TokenKind) :
    literal? (k.respell σ) = literal? k := by
  cases k <;> rfl

theorem calledName?_respell (σ : Respelling) (k : TokenKind) :
    calledName? (k.respell σ) = (calledName? k).map σ.spell := by
  cases k with
  | identifier name => rfl
  | symbol s =>
      cases s with
      | and | or | not => exact congrArg some (σ.spell_word _ (by decide)).symm
      | _ => rfl
  | number x | string s | boolean b => rfl

theorem operandCause_respell (σ : Respelling) (k : TokenKind) :
    operandCause (k.respell σ) = (operandCause k).respell σ := by
  cases k <;> rfl

end TokenKind

/-- A call has the same tree under the same name, and an error of it has no name. -/
theorem callTree_spell (σ : Respelling) (name : String) (args : List Expr) :
    callTree (σ.spell name) args = (callTree name args).mapError (SyntaxCause.respell σ) := by
  unfold callTree
  rw [σ.fold_spell]
  split
  · split <;> rfl
  · rfl

/-! ## Tokens -/

/-- The token at another place, with another name. -/
def Token.change (ρ : Nat → Nat) (σ : Respelling) (t : Token) : Token where
  kind := t.kind.respell σ
  position := ρ t.position

/-- The cursor before tokens at other places. -/
def Cursor.change (ρ : Nat → Nat) (σ : Respelling) (c : Cursor) : Cursor :=
  { c with rest := c.rest.map (Token.change ρ σ) }

/-- The tokens of a formula, and its end, at other places. -/
def TokenStream.change (ρ : Nat → Nat) (σ : Respelling) (stream : TokenStream) : TokenStream where
  tokens := stream.tokens.map (Token.change ρ σ)
  length := ρ stream.length

/-- The error at another place, with other names. -/
def SyntaxError.change (ρ : Nat → Nat) (σ : Respelling) (e : SyntaxError) : SyntaxError where
  cause := e.cause.respell σ
  position := ρ e.position

/-- The outcome for changed tokens: the error is changed, or a result has been changed. -/
def changeOutcome (ρ : Nat → Nat) (σ : Respelling) (change : α → α) (r : Except SyntaxError α) :
    Except SyntaxError α :=
  (r.map change).mapError (SyntaxError.change ρ σ)

/-- A computation of two steps changes as its steps do. -/
theorem changeOutcome_bind {change : α → α} {change' : β → β} {m : Except SyntaxError α}
    {f g : α → Except SyntaxError β}
    (h : ∀ a, m = .ok a → g (change a) = changeOutcome ρ σ change' (f a)) :
    (changeOutcome ρ σ change m).bind g = changeOutcome ρ σ change' (m.bind f) := by
  cases m with
  | error _ => rfl
  | ok a => exact h a rfl

theorem changeOutcome_map {change : α → α} {change' : β → β} {m : Except SyntaxError α}
    {f g : α → β} (h : ∀ a, g (change a) = change' (f a)) :
    (changeOutcome ρ σ change m).map g = changeOutcome ρ σ change' (m.map f) := by
  cases m with
  | error _ => rfl
  | ok a => exact congrArg Except.ok (h a)

namespace Cursor

theorem peek_change (ρ : Nat → Nat) (σ : Respelling) (c : Cursor) :
    (c.change ρ σ).peek = c.peek.map (TokenKind.respell σ) := by
  rw [peek, peek, change, List.head?_map, Option.map_map, Option.map_map]
  rfl

@[simp] theorem sees_change (ρ : Nat → Nat) (σ : Respelling) (c : Cursor) (s : Symbol) :
    (c.change ρ σ).sees s = c.sees s := by
  rw [sees, sees, peek_change, Bool.eq_iff_iff, beq_iff_eq, beq_iff_eq]
  cases c.peek with
  | none => exact Iff.rfl
  | some k => simp

@[simp] theorem next_change (ρ : Nat → Nat) (σ : Respelling) (c : Cursor) :
    (c.change ρ σ).next = c.next.change ρ σ := by
  rw [next, next, change, change, List.map_tail]

@[simp] theorem leave_change (ρ : Nat → Nat) (σ : Respelling) (c : Cursor) (levels : Nat) :
    (c.change ρ σ).leave levels = (c.leave levels).change ρ σ := rfl

@[simp] theorem operator?_change (ρ : Nat → Nat) (σ : Respelling) (c : Cursor) (level : Level) :
    (c.change ρ σ).operator? level = c.operator? level := by
  rw [operator?, operator?, peek_change]
  cases c.peek with
  | none => rfl
  | some k => cases k <;> rfl

@[simp] theorem unary?_change (ρ : Nat → Nat) (σ : Respelling) (c : Cursor) :
    (c.change ρ σ).unary? = c.unary? := by
  rw [unary?, unary?, peek_change, next_change, sees_change]
  cases c.peek with
  | none => rfl
  | some k => cases k <;> rfl

/-- The place of the next token moves with it. -/
theorem position_change (ρ : Nat → Nat) (σ : Respelling) (c : Cursor) (length : Nat) :
    (c.change ρ σ).position (ρ length) = ρ (c.position length) := by
  rw [position, position, change]
  cases c.rest <;> rfl

/-- An error at the next token changes with it. -/
theorem fail_change (change : α → α) {cause cause' : SyntaxCause}
    (h : cause' = cause.respell σ) : (c.change ρ σ).fail (ρ length) cause' =
      changeOutcome ρ σ change (c.fail length cause) := by
  rw [fail, fail, position_change, h]
  rfl

theorem enter_change : (c.change ρ σ).enter (ρ length) =
    changeOutcome ρ σ (change ρ σ) (c.enter length) := by
  rw [enter, enter, show (c.change ρ σ).depth = c.depth from rfl]
  split
  · exact fail_change _ rfl
  · rfl

theorem expect_change {s : Symbol} (context : Context) {context' : Context}
    (h : context' = context.respell σ) : (c.change ρ σ).expect (ρ length) s context' =
      changeOutcome ρ σ (change ρ σ) (c.expect length s context) := by
  subst h
  rw [expect, expect, sees_change, peek_change, next_change]
  split
  · rfl
  · exact fail_change _ rfl

end Cursor

/-! ## Phrases -/

/-- Reading a phrase from `c` on changes with the tokens. -/
def Changes (ρ : Nat → Nat) (σ : Respelling) (length : Nat) (p : Phrase) (c : Cursor) : Prop :=
  read (ρ length) p (c.change ρ σ) =
    changeOutcome ρ σ (Prod.map id (Cursor.change ρ σ)) (read length p c)

/-- Reading changes with the tokens at every place after `c`. -/
def ChangesAfter (ρ : Nat → Nat) (σ : Respelling) (length : Nat) (c : Cursor) : Prop :=
  ∀ d : Cursor, d.remaining < c.remaining → ∀ p, Changes ρ σ length p d

/-- A deeper cursor at the same place has the same places after it. -/
theorem ChangesAfter.enter (ih : ChangesAfter ρ σ length c) {d : Cursor}
    (h : c.enter length = .ok d) : ChangesAfter ρ σ length d := by
  intro d' hd'
  rw [Cursor.remaining_enter h] at hd'
  exact ih d' hd'

/-- What is left after a phrase is no more than before it. -/
theorem remaining_le_of_read {p : Phrase} {r : p.Meaning} {d : Cursor}
    (h : read length p c = .ok (r, d)) : d.remaining ≤ c.remaining :=
  (sound length p c r d h).remaining_le

theorem changes_operand (ih : ChangesAfter ρ σ length c) : Changes ρ σ length .operand c := by
  rw [Changes, read_operand, read_operand, Cursor.peek_change, Cursor.next_change]
  cases next : c.peek with
  | none => exact Cursor.fail_change _ rfl
  | some k =>
      have hlt := Cursor.remaining_next_lt next
      dsimp only [Option.map_some]
      rw [TokenKind.literal?_respell]
      cases literal? k with
      | some e => rfl
      | none =>
          dsimp only
          simp only [TokenKind.respell_eq_symbol]
          split
          · rw [ih c.next hlt .expression]
            refine changeOutcome_bind ?_
            rintro ⟨e, d⟩ -
            exact Cursor.expect_change .parenthesis rfl ▸ changeOutcome_map fun _ => rfl
          · rw [TokenKind.calledName?_respell]
            cases calledName? k with
            | none => exact Cursor.fail_change _ (k.operandCause_respell σ)
            | some name =>
                dsimp only [Option.map_some]
                rw [Cursor.sees_change, Cursor.next_change]
                split
                · next opened =>
                  have hlt' := Cursor.remaining_next_lt (Cursor.peek_of_sees opened)
                  rw [ih c.next.next (by omega) .arguments]
                  refine changeOutcome_bind ?_
                  rintro ⟨args, d⟩ -
                  refine Cursor.expect_change (.arguments name) rfl ▸ changeOutcome_bind ?_
                  rintro d' -
                  dsimp only [Prod.map, id_eq]
                  rw [callTree_spell]
                  cases callTree name args with
                  | error cause => exact Cursor.fail_change _ rfl
                  | ok e => rfl
                · exact Cursor.fail_change _ (k.operandCause_respell σ)

theorem changes_unary (ih : ChangesAfter ρ σ length c) : Changes ρ σ length (.level none) c := by
  rw [Changes, read_unary, read_unary, Cursor.unary?_change, Cursor.next_change]
  cases operator : c.unary? with
  | none => exact changes_operand ih
  | some op =>
      obtain ⟨k, hk⟩ := Cursor.peek_of_unary? operator
      have hlt := Cursor.remaining_next_lt hk
      dsimp only
      rw [Cursor.enter_change]
      refine changeOutcome_bind ?_
      intro d entered
      rw [ih d (by rw [Cursor.remaining_enter entered]; exact hlt) (.level none)]
      exact changeOutcome_map fun _ => rfl

theorem changes_links (ih : ChangesAfter ρ σ length c) {level : Level} {left : Expr} :
    Changes ρ σ length (.links level left) c := by
  rw [Changes, read_links, read_links, Cursor.operator?_change, Cursor.next_change]
  cases operator : c.operator? level with
  | none => rfl
  | some op =>
      obtain ⟨k, hk⟩ := Cursor.peek_of_operator? operator
      have hlt := Cursor.remaining_next_lt hk
      dsimp only
      rw [Cursor.enter_change]
      refine changeOutcome_bind ?_
      intro d entered
      have hd := Cursor.remaining_enter entered
      rw [ih d (by omega) (.level level.tighter?)]
      refine changeOutcome_bind ?_
      rintro ⟨right, d'⟩ hright
      have hd' := remaining_le_of_read hright
      dsimp only [Prod.map, id_eq]
      rw [ih d' (by omega) (.links level (.binary op left right))]
      exact changeOutcome_map fun _ => rfl

/-- A chain changes if its operands do. -/
theorem changes_chain (ih : ChangesAfter ρ σ length c) {level : Level}
    (tighter : Changes ρ σ length (.level level.tighter?) c) :
    Changes ρ σ length (.level (some level)) c := by
  rw [Changes, read_level, read_level, tighter]
  refine changeOutcome_bind ?_
  rintro ⟨first, d⟩ hfirst
  exact ih d (remaining_of_read_level hfirst) (.links level first)

theorem changes_level (ih : ChangesAfter ρ σ length c) (level? : Option Level) :
    Changes ρ σ length (.level level?) c := by
  induction level? using levels_induction with
  | last => exact changes_unary ih
  | looser level tighter => exact changes_chain ih tighter

theorem changes_expression (ih : ChangesAfter ρ σ length c) : Changes ρ σ length .expression c := by
  rw [Changes, read_expression, read_expression, Cursor.enter_change]
  refine changeOutcome_bind ?_
  intro d entered
  have hd := Cursor.remaining_enter entered
  rw [changes_level (ih.enter entered) (some .or)]
  refine changeOutcome_bind ?_
  rintro ⟨condition, d₁⟩ hcondition
  have hd₁ := remaining_le_of_read hcondition
  dsimp only [Prod.map]
  rw [Cursor.sees_change, Cursor.next_change]
  split
  · next question =>
    have hlt := Cursor.remaining_next_lt (Cursor.peek_of_sees question)
    rw [ih d₁.next (by omega) .expression]
    refine changeOutcome_bind ?_
    rintro ⟨consequent, d₂⟩ hconsequent
    have hd₂ := remaining_le_of_read hconsequent
    dsimp only [Prod.map]
    rw [Cursor.expect_change .conditional (rfl : .conditional = Context.respell σ .conditional)]
    refine changeOutcome_bind ?_
    intro d₃ colon
    have hd₃ := Cursor.remaining_expect colon
    rw [ih d₃ (by omega) .expression]
    exact changeOutcome_map fun _ => rfl
  · rfl

theorem changes_list (ih : ChangesAfter ρ σ length c) : Changes ρ σ length .list c := by
  rw [Changes, read_list, read_list, changes_expression ih]
  refine changeOutcome_bind ?_
  rintro ⟨e, d⟩ he
  have hd := remaining_le_of_read he
  dsimp only [Prod.map]
  rw [Cursor.sees_change, Cursor.next_change]
  split
  · next comma =>
    have hlt := Cursor.remaining_next_lt (Cursor.peek_of_sees comma)
    rw [ih d.next (by omega) .list]
    exact changeOutcome_map fun _ => rfl
  · rfl

theorem changes_arguments (ih : ChangesAfter ρ σ length c) : Changes ρ σ length .arguments c := by
  rw [Changes, read_arguments, read_arguments, Cursor.sees_change]
  split
  · rfl
  · exact changes_list ih

/-- Every phrase is read alike wherever its tokens stand and however its names are spelled. -/
theorem changes (ρ : Nat → Nat) (σ : Respelling) (length : Nat) (p : Phrase) (c : Cursor) :
    Changes ρ σ length p c := by
  -- on the number of tokens left, as for soundness
  induction h : c.remaining using Nat.strongRecOn generalizing p c with
  | _ n ih =>
      have ih : ChangesAfter ρ σ length c := by
        intro d hd p
        exact ih _ (h ▸ hd) p d rfl
      cases p with
      | expression => exact changes_expression ih
      | level level? => exact changes_level ih level?
      | links level left => exact changes_links ih
      | operand => exact changes_operand ih
      | arguments => exact changes_arguments ih
      | list => exact changes_list ih

/-! ## Formulas -/

/-- **A formula is parsed alike wherever its tokens stand and however its names are spelled**, and its
error changes with them. -/
theorem parseTokens_change (ρ : Nat → Nat) (σ : Respelling) (stream : TokenStream) :
    parseTokens (stream.change ρ σ) = changeOutcome ρ σ id (parseTokens stream) := by
  rw [parseTokens_eq, parseTokens_eq]
  have hread := changes ρ σ stream.length .expression { rest := stream.tokens, depth := 0 }
  rw [Changes] at hread
  show (read (ρ stream.length) .expression
    (Cursor.change ρ σ { rest := stream.tokens, depth := 0 })).bind _ = _
  rw [hread]
  refine changeOutcome_bind ?_
  rintro ⟨e, d⟩ -
  dsimp only [Prod.map]
  rw [Cursor.peek_change]
  cases d.peek with
  | none => rfl
  | some k => exact Cursor.fail_change _ rfl

end FormulaTable.Formula
