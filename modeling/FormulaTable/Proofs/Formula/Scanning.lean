import FormulaTable.Formula.Lexer
import FormulaTable.Proofs.Result

/-!
# Tokens one after another

How the tokens of a text start: with the tokens of what follows its first character, or with the
token that its first character starts. Characters that are the same tokens whatever follows them
spell these tokens, and such texts can be put one after another.
-/

namespace FormulaTable.Formula

/-! ## The first token -/

/-- The end of a text has no tokens. -/
theorem tokensFrom_nil (position : Nat) :
    tokensFrom position [] = .ok { tokens := [], length := position } := by
  rw [tokensFrom.eq_def]

/-- White space is passed over; anything else starts a token. -/
theorem tokensFrom_cons (position : Nat) (c : Char) (rest : List Char) :
    tokensFrom position (c :: rest) =
      if Text.isSpace c then tokensFrom (position + 1) rest
      else
        match scanToken c rest with
        | .error cause => .error { cause, position }
        | .ok (kind, n) =>
          (tokensFrom (position + 1 + n) (rest.drop n)).map fun stream =>
            { stream with tokens := { kind, position } :: stream.tokens } := by
  rw [tokensFrom.eq_def]
  rfl

/-- White space has no tokens. -/
theorem tokensFrom_of_blank {position : Nat} {s : List Char} (h : s.all Text.isSpace = true) :
    tokensFrom position s = .ok { tokens := [], length := position + s.length } := by
  induction s generalizing position with
  | nil => exact tokensFrom_nil position
  | cons c rest ih =>
      rw [List.all_cons, Bool.and_eq_true] at h
      rw [tokensFrom_cons, if_pos h.1, ih h.2, List.length_cons]
      congr 2
      omega

/-- The quote ends a string. -/
theorem scanString_quote (quote : Char) (rest : List Char) :
    scanString quote (quote :: rest) = some ([], 1) := by
  rw [scanString.eq_def]
  exact if_pos rfl

/-- A quote starts a string. -/
theorem scanToken_string {c : Char} {rest s : List Char} {n : Nat} (hc : c = '"' ∨ c = '\'')
    (h : scanString c rest = some (s, n)) :
    scanToken c rest = .ok (.string (String.ofList s), n) := by
  rw [scanToken, if_pos hc, h]

/-- A text that is one token, with white space after it. -/
theorem tokensFrom_token {position : Nat} {c : Char} {l blank : List Char} {k : TokenKind}
    (hspace : Text.isSpace c = false) (hscan : scanToken c (l ++ blank) = .ok (k, l.length))
    (hblank : blank.all Text.isSpace = true) :
    tokensFrom position (c :: (l ++ blank)) =
      .ok { tokens := [{ kind := k, position }], length := position + (c :: (l ++ blank)).length } := by
  have hlength : position + (c :: (l ++ blank)).length = position + 1 + l.length + blank.length := by
    rw [List.length_cons, List.length_append]
    omega
  rw [tokensFrom_cons, hspace, if_neg Bool.false_ne_true, hscan]
  dsimp only
  rw [List.drop_left, tokensFrom_of_blank hblank, hlength]
  rfl

/-! ## One token after the other -/

/-- A text is its tokens with white space around them. -/
inductive Scans : Nat → List Char → TokenStream → Prop where
  | done (position : Nat) : Scans position [] { tokens := [], length := position }
  | space {position : Nat} {c : Char} {rest : List Char} {stream : TokenStream}
      (hspace : Text.isSpace c = true) (h : Scans (position + 1) rest stream) :
      Scans position (c :: rest) stream
  | token {position : Nat} {c : Char} {rest : List Char} {kind : TokenKind} {n : Nat}
      {stream : TokenStream} (hspace : Text.isSpace c = false)
      (hscan : scanToken c rest = .ok (kind, n)) (h : Scans (position + 1 + n) (rest.drop n) stream) :
      Scans position (c :: rest) { stream with tokens := { kind, position } :: stream.tokens }

theorem Scans.tokensFrom_eq {position : Nat} {text : List Char} {stream : TokenStream}
    (h : Scans position text stream) : tokensFrom position text = .ok stream := by
  induction h with
  | done position => exact tokensFrom_nil position
  | space hspace _ ih => rw [tokensFrom_cons, if_pos hspace, ih]
  | token hspace hscan _ ih =>
      rw [tokensFrom_cons, hspace, hscan, if_neg Bool.false_ne_true]
      dsimp only
      rw [ih]
      rfl

/-- The tokens that are found are the tokens of the text. -/
theorem scans_of_tokensFrom {position : Nat} {text : List Char} {stream : TokenStream}
    (h : tokensFrom position text = .ok stream) : Scans position text stream := by
  -- on the length, since a token takes any number of characters
  induction hlength : text.length using Nat.strongRecOn generalizing position text stream with
  | _ length ih =>
  cases text with
  | nil =>
      rw [tokensFrom_nil] at h
      obtain rfl := Except.ok.inj h
      exact .done position
  | cons c rest =>
      rw [List.length_cons] at hlength
      rw [tokensFrom_cons] at h
      split at h
      · next hspace => exact .space hspace (ih rest.length (by omega) h rfl)
      next hspace =>
      split at h
      · cases h
      · next kind n hscan =>
        obtain ⟨stream', hstream', rfl⟩ := map_eq_ok h
        have hdrop : (rest.drop n).length < length := by
          rw [List.length_drop]
          omega
        exact .token (Bool.eq_false_iff.mpr hspace) hscan (ih _ hdrop hstream' rfl)

/-! ## Texts of tokens -/

/-- The kinds of the tokens of a formula. -/
def TokenStream.kinds (stream : TokenStream) : List TokenKind := stream.tokens.map Token.kind

/-- The text has tokens of these kinds. -/
def Reads (position : Nat) (text : List Char) (kinds : List TokenKind) : Prop :=
  ∃ stream, tokensFrom position text = .ok stream ∧ stream.kinds = kinds

theorem Scans.reads {position : Nat} {text : List Char} {stream : TokenStream}
    (h : Scans position text stream) : Reads position text stream.kinds :=
  ⟨stream, h.tokensFrom_eq, rfl⟩

/-- White space before tokens. -/
theorem Reads.space {position : Nat} {c : Char} {rest : List Char} {kinds : List TokenKind}
    (hspace : Text.isSpace c = true) (h : Reads (position + 1) rest kinds) :
    Reads position (c :: rest) kinds := by
  obtain ⟨stream, hstream, rfl⟩ := h
  exact (Scans.space hspace (scans_of_tokensFrom hstream)).reads

/-- A token before others. -/
theorem Reads.token {position : Nat} {c : Char} {rest : List Char} {k : TokenKind} {n : Nat}
    {kinds : List TokenKind} (hspace : Text.isSpace c = false)
    (hscan : scanToken c rest = .ok (k, n)) (h : Reads (position + 1 + n) (rest.drop n) kinds) :
    Reads position (c :: rest) (k :: kinds) := by
  obtain ⟨stream, hstream, rfl⟩ := h
  exact (Scans.token hspace hscan (scans_of_tokensFrom hstream)).reads

/-- The characters `s` are tokens of the kinds `ts`, whatever tokens follow. -/
def Spells (s : List Char) (ts : List TokenKind) : Prop :=
  ∀ ⦃position : Nat⦄ ⦃text : List Char⦄ ⦃kinds : List TokenKind⦄,
    Reads (position + s.length) text kinds → Reads position (s ++ text) (ts ++ kinds)

namespace Spells

variable {s s' : List Char} {ts ts' : List TokenKind}

theorem nil : Spells [] [] := fun _ _ _ h => h

theorem append (h : Spells s ts) (h' : Spells s' ts') : Spells (s ++ s') (ts ++ ts') := by
  intro position text kinds hr
  rw [List.append_assoc, List.append_assoc]
  apply h
  apply h'
  rwa [Nat.add_assoc, ← List.length_append]

/-- A token before others: what is left of the others may be part of how its end is found. -/
theorem cons {c : Char} {l : List Char} {k : TokenKind} (hspace : Text.isSpace c = false)
    (hscan : ∀ text, scanToken c (l ++ (s ++ text)) = .ok (k, l.length)) (h : Spells s ts) :
    Spells (c :: (l ++ s)) (k :: ts) := by
  intro position text kinds hr
  have hlength : position + (c :: (l ++ s)).length = position + 1 + l.length + s.length := by
    rw [List.length_cons, List.length_append]
    omega
  rw [hlength] at hr
  rw [List.cons_append, List.append_assoc]
  refine .token hspace (hscan text) ?_
  rw [List.drop_left]
  exact h hr

/-- One token that ends by itself. -/
theorem token {c : Char} {l : List Char} {k : TokenKind} (hspace : Text.isSpace c = false)
    (hscan : ∀ text, scanToken c (l ++ text) = .ok (k, l.length)) : Spells (c :: l) [k] := by
  have h : Spells (c :: (l ++ [])) [k] := cons hspace hscan nil
  rwa [List.append_nil] at h

/-- The tokens of a text are the tokens of the formula. -/
theorem tokenize_eq (h : Spells s ts) :
    ∃ stream, tokenize (String.ofList s) = .ok stream ∧ stream.kinds = ts := by
  have hnil : Reads (0 + s.length) [] [] := ⟨_, tokensFrom_nil _, rfl⟩
  obtain ⟨stream, hstream, hkinds⟩ := h hnil
  rw [List.append_nil] at hstream hkinds
  refine ⟨stream, ?_, hkinds⟩
  rw [tokenize, String.toList_ofList]
  exact hstream

end Spells

end FormulaTable.Formula
