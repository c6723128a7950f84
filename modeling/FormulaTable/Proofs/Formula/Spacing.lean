import FormulaTable.Proofs.Formula.Places
import FormulaTable.Proofs.Formula.TokenEnds

/-!
# White space between tokens

White space before a token, or at the end of a formula, adds no token and ends none: with more of it
the formula has tokens of the same kinds, and so the same tree, or the same error at the same token.
-/

namespace FormulaTable.Formula

open Text (isSpace)

variable {position i : Nat} {text a s b w : List Char} {kinds : List TokenKind}
  {stream : TokenStream}

/-! ## Places -/

/-- The places after the first token are those of the other tokens. -/
theorem TokenStream.place_succ (t : Token) (stream : TokenStream) (i : Nat) :
    { stream with tokens := t :: stream.tokens }.place (i + 1) = stream.place i := rfl

/-- Tokens stand after the characters before the text. -/
theorem Scans.le_place (h : Scans position text stream) (i : Nat) : position ≤ stream.place i := by
  induction h generalizing i with
  | done position => exact Nat.le_refl position
  | space _ _ ih => exact Nat.le_of_succ_le (ih i)
  | @token position _ _ _ _ stream _ _ _ ih =>
      cases i with
      | zero => exact Nat.le_refl position
      | succ i =>
          have hle := ih i
          rw [TokenStream.place_succ]
          omega

/-- The kinds of the tokens of a text do not depend on what stands before it. -/
theorem Reads.elsewhere (h : Reads position text kinds) (position' : Nat) :
    Reads position' text kinds := by
  obtain ⟨stream, hstream, rfl⟩ := h
  replace hstream := scans_of_tokensFrom hstream
  induction hstream generalizing position' with
  | done => exact (Scans.done position').reads
  | space hspace _ ih => exact .space hspace (ih _)
  | token hspace hscan _ ih => exact .token hspace hscan (ih _)

/-! ## More white space -/

/-- White space in front adds no tokens. -/
theorem Reads.blank (hw : w.all isSpace = true) (h : Reads position text kinds) :
    Reads position (w ++ text) kinds := by
  induction w generalizing position with
  | nil => exact h
  | cons c w ih =>
      rw [List.all_cons, Bool.and_eq_true] at hw
      exact .space hw.1 (ih hw.2 (h.elsewhere _))

/-- A token that ends before white space is put in does not change. -/
theorem scanToken_blank {c : Char} {k : TokenKind} {n : Nat} {x : List Char}
    (hw : w.all isSpace = true) (h : scanToken c (x ++ b) = .ok (k, n)) (hn : n ≤ x.length) :
    scanToken c (x ++ (w ++ b)) = .ok (k, n) := by
  cases w with
  | nil => exact h
  | cons z w =>
      rw [List.all_cons, Bool.and_eq_true] at hw
      exact scanToken_replace (spaceNext_cons hw.1) h hn

/-- A token that stops before or in white space stops before it. -/
theorem le_of_scanToken {c : Char} {k : TokenKind} {n : Nat} {x : List Char}
    (hs : s.all isSpace = true) (h : scanToken c (x ++ (s ++ b)) = .ok (k, n))
    (hn : n ≤ x.length + s.length) : n ≤ x.length := by
  by_contra hlt
  obtain ⟨m, rfl⟩ : ∃ m, n = x.length + m + 1 := ⟨n - x.length - 1, by omega⟩
  have hm : m < s.length := by omega
  have hlast : (x ++ (s ++ b))[x.length + m]? = some s[m] := by
    rw [List.getElem?_append_right (Nat.le_add_right _ _), Nat.add_sub_cancel_left,
      List.getElem?_append_left hm, List.getElem?_eq_getElem hm]
  have hspace : isSpace s[m] = true := List.all_eq_true.mp hs _ (List.getElem_mem hm)
  rw [scanToken_solid h hlast] at hspace
  cases hspace

/-- White space put into white space before a token, or at the end, adds no tokens. -/
theorem reads_insert (hs : s.all isSpace = true) (hw : w.all isSpace = true)
    (h : Scans position (a ++ (s ++ b)) stream)
    (hplace : position + (a ++ s).length = stream.place i) :
    Reads position (a ++ (w ++ (s ++ b))) stream.kinds := by
  -- on the length of the text before the white space
  induction hlength : a.length using Nat.strong_induction_on generalizing position a stream i with
  | _ length ih =>
  cases a with
  | nil =>
      rw [List.nil_append] at h ⊢
      exact h.reads.blank hw
  | cons c a =>
      rw [List.length_cons] at hlength
      rw [List.length_append, List.length_cons] at hplace
      cases h with
      | space hspace h =>
          refine .space hspace (ih a.length (by omega) h (i := i) ?_ rfl)
          rw [← hplace, List.length_append]
          omega
      | @token _ _ _ kind n stream hspace hscan h =>
          cases i with
          | zero =>
              change _ = position at hplace
              omega
          | succ i =>
              rw [TokenStream.place_succ] at hplace
              have hle := h.le_place i
              have hn : n ≤ a.length := le_of_scanToken hs hscan (by omega)
              rw [List.append_eq, List.drop_append_of_le_length hn] at h
              refine .token hspace (scanToken_blank hw hscan hn) ?_
              rw [List.append_eq, List.drop_append_of_le_length hn]
              refine ih (a.drop n).length ?_ h (i := i) ?_ rfl
              · rw [List.length_drop]
                omega
              · rw [← hplace, List.length_append, List.length_drop]
                omega

/-! ## Formulas -/

/-- **A formula is parsed by the kinds of its tokens, and white space between tokens is no part of
them.** Another formula with tokens of the same kinds has the same tree, or the same error at the
token of the same number, or at the end. White space can be put in before any token and at the end,
anywhere in the white space that is there. -/
theorem parse_by_kinds {formula : String} (h : tokenize formula = .ok stream) :
    (∀ {formula' : String} {stream' : TokenStream}, tokenize formula' = .ok stream' →
      stream.kinds = stream'.kinds → ¬ formula.toList.all isSpace = true →
      ¬ formula'.toList.all isSpace = true →
      (∃ e, parse formula = .ok e ∧ parse formula' = .ok e) ∨
        ∃ cause i, i ≤ stream.tokens.length ∧
          parse formula = .error { cause, position := stream.place i } ∧
          parse formula' = .error { cause, position := stream'.place i }) ∧
    ∀ {before blank after inserted : List Char} {i : Nat},
      formula.toList = before ++ (blank ++ after) → (before ++ blank).length = stream.place i →
      blank.all isSpace = true → inserted.all isSpace = true →
      ∃ stream', tokenize (String.ofList (before ++ (inserted ++ (blank ++ after)))) = .ok stream' ∧
        stream'.kinds = stream.kinds := by
  constructor
  · intro formula' stream' h' hkinds hblank hblank'
    rw [parse_of_tokenize h hblank, parse_of_tokenize h' hblank']
    exact parseTokens_of_kinds_eq hkinds
  · intro before blank after inserted i htext hplace hblank hinserted
    rw [tokenize, htext] at h
    rw [tokenize, String.toList_ofList]
    exact reads_insert hblank hinserted (scans_of_tokensFrom h) (by rwa [Nat.zero_add])

/-- White space can be put between `1e` and `2`, but `1e2` is one number. -/
theorem one_e_spaced :
    ∃ stream stream', tokenize "1e 2" = .ok stream ∧ tokenize "1 e\t2.0" = .ok stream' ∧
      ((∃ e, parse "1e 2" = .ok e ∧ parse "1 e\t2.0" = .ok e) ∨
        ∃ cause i, i ≤ stream.tokens.length ∧
          parse "1e 2" = .error { cause, position := stream.place i } ∧
          parse "1 e\t2.0" = .error { cause, position := stream'.place i }) ∧
      ∃ stream', tokenize (String.ofList ("1e".toList ++ ("\t\n".toList ++
          (" ".toList ++ "2".toList)))) = .ok stream' ∧ stream'.kinds = stream.kinds := by
  have h : tokenize "1e 2" =
      .ok ⟨[⟨.number 1, 0⟩, ⟨.identifier "e", 1⟩, ⟨.number 2, 3⟩], 4⟩ := by decide +kernel
  have h' : tokenize "1 e\t2.0" =
      .ok ⟨[⟨.number 1, 0⟩, ⟨.identifier "e", 2⟩, ⟨.number 2, 4⟩], 7⟩ := by decide +kernel
  have htext : "1e 2".toList = "1e".toList ++ (" ".toList ++ "2".toList) := by decide
  have hinserted : "\t\n".toList.all isSpace = true := by decide
  obtain ⟨hparse, hspace⟩ := parse_by_kinds h
  exact ⟨_, _, h, h', hparse h' rfl (by decide) (by decide),
    hspace htext (i := 2) rfl (by decide) hinserted⟩

end FormulaTable.Formula
