import FormulaTable.Proofs.Formula.TokenChanges

/-!
# Places of tokens

Where tokens stand shows in nothing but the place of an error: if every token is moved, and the end of
the formula with them, an error moves with the token where it shows. So a formula is parsed as the
list of its kinds is, with the tokens standing at 0, 1, 2 and so on.
-/

namespace FormulaTable.Formula

variable {α : Type} {ρ : Nat → Nat}

/-! ## Moving -/

/-- The token at another place. -/
def Token.move (ρ : Nat → Nat) (t : Token) : Token := { t with position := ρ t.position }

/-- The tokens of a formula, and its end, at other places. -/
def TokenStream.move (ρ : Nat → Nat) (stream : TokenStream) : TokenStream where
  tokens := stream.tokens.map (Token.move ρ)
  length := ρ stream.length

/-- The error at another place. -/
def SyntaxError.move (ρ : Nat → Nat) (e : SyntaxError) : SyntaxError :=
  { e with position := ρ e.position }

/-- The outcome for tokens at other places: the error has moved, or a result has been changed. -/
def moveOutcome (ρ : Nat → Nat) (change : α → α) (r : Except SyntaxError α) :
    Except SyntaxError α :=
  (r.map change).mapError (SyntaxError.move ρ)

/-! To move tokens is to change them without respelling their names. -/

theorem TokenKind.respell_same (k : TokenKind) : k.respell .same = k := by
  cases k <;> rfl

theorem Token.change_same (t : Token) : t.change ρ .same = t.move ρ := by
  rw [change, TokenKind.respell_same]
  rfl

theorem TokenStream.change_same (stream : TokenStream) :
    stream.change ρ .same = stream.move ρ := by
  rw [change, funext Token.change_same]
  rfl

theorem SyntaxCause.respell_same (cause : SyntaxCause) : cause.respell .same = cause := by
  cases cause with
  | expected symbol context found =>
      have hfound : found.map (TokenKind.respell .same) = found := by
        rw [funext TokenKind.respell_same, Option.map_id']
      rw [respell, hfound]
      cases context <;> rfl
  | unexpectedToken kind | afterExpression kind => rw [respell, TokenKind.respell_same]
  | _ => rfl

theorem SyntaxError.change_same (e : SyntaxError) : e.change ρ .same = e.move ρ := by
  rw [change, SyntaxCause.respell_same]
  rfl

theorem changeOutcome_same (change : α → α) (r : Except SyntaxError α) :
    changeOutcome ρ .same change r = moveOutcome ρ change r := by
  rw [changeOutcome, funext SyntaxError.change_same]
  rfl

/-! ## Formulas -/

/-- A formula is parsed alike wherever its tokens stand, and its error moves with them. -/
theorem parseTokens_move (ρ : Nat → Nat) (stream : TokenStream) :
    parseTokens (stream.move ρ) = moveOutcome ρ id (parseTokens stream) := by
  rw [← stream.change_same, parseTokens_change, changeOutcome_same]

/-- The place of a token of a formula, counted from the first one; the place after the last token is
the end of the formula. -/
def TokenStream.place (stream : TokenStream) (i : Nat) : Nat :=
  (stream.tokens[i]?.map Token.position).getD stream.length

theorem TokenStream.place_of_le {stream : TokenStream} {i : Nat} (h : stream.tokens.length ≤ i) :
    stream.place i = stream.length := by
  rw [place, List.getElem?_eq_none h]
  rfl

/-- Tokens of these kinds, each of which stands at its own number. -/
def TokenStream.ofKinds (kinds : List TokenKind) : TokenStream where
  tokens := kinds.zipIdx.map fun (kind, i) => { kind, position := i }
  length := kinds.length

/-- The tokens of a formula are its numbered kinds, moved to their places. -/
theorem TokenStream.move_ofKinds (stream : TokenStream) :
    (ofKinds stream.kinds).move stream.place = stream := by
  obtain ⟨tokens, length⟩ := stream
  rw [move, ofKinds, kinds]
  congr 1
  · refine List.ext_getElem (by simp) fun i h h' => ?_
    simp [Token.move, place, h']
  · rw [place_of_le (by simp)]

/-- A formula is parsed as its numbered kinds are, and an error stands at the place of its number.
-/
theorem parseTokens_eq_move (stream : TokenStream) :
    parseTokens stream = moveOutcome stream.place id (parseTokens (.ofKinds stream.kinds)) := by
  rw [← parseTokens_move, TokenStream.move_ofKinds]

/-- Two formulas with tokens of the same kinds have the same tree, or the same error at tokens of
the same number. -/
theorem parseTokens_of_kinds_eq {stream stream' : TokenStream} (h : stream.kinds = stream'.kinds) :
    (∃ e, parseTokens stream = .ok e ∧ parseTokens stream' = .ok e) ∨
      ∃ cause i, i ≤ stream.tokens.length ∧
        parseTokens stream = .error { cause, position := stream.place i } ∧
        parseTokens stream' = .error { cause, position := stream'.place i } := by
  have hlength : stream.tokens.length = stream'.tokens.length := by
    simpa [TokenStream.kinds] using congrArg List.length h
  rw [parseTokens_eq_move stream, parseTokens_eq_move stream', ← h]
  cases parseTokens (.ofKinds stream.kinds) with
  | ok e => exact .inl ⟨e, rfl, rfl⟩
  | error error =>
      obtain ⟨cause, i⟩ := error
      by_cases hi : i ≤ stream.tokens.length
      · exact .inr ⟨cause, i, hi, rfl, rfl⟩
      · -- all places after the last token are the end of the formula
        refine .inr ⟨cause, stream.tokens.length, Nat.le_refl _, ?_, ?_⟩
        · rw [TokenStream.place_of_le (Nat.le_refl _), ← TokenStream.place_of_le (Nat.le_of_not_le hi)]
          rfl
        · rw [TokenStream.place_of_le (Nat.le_of_eq hlength.symm),
            ← TokenStream.place_of_le (hlength ▸ Nat.le_of_not_le hi)]
          rfl

end FormulaTable.Formula
