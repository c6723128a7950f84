import FormulaTable.Proofs.Formula.Lexemes
import FormulaTable.Proofs.Formula.TokenTexts

/-!
# Places of errors

An error points into its formula. Where a formula has no tokens, it points to the first character that
starts none, and all that stands before this character has tokens. Where a formula has tokens but no
tree, it points to one of them, or to the end.
-/

namespace FormulaTable.Formula

open Text (isSpace)

variable {position : Nat} {c : Char} {rest text s : List Char} {stream : TokenStream}
  {error : SyntaxError}

/-! ## Characters that start no token -/

/-- The place where no token is found in a text that follows `position` characters: the characters
`before` it have tokens, and the character `stop` there, with all that comes after it, starts none. -/
structure Stopping (position : Nat) (text : List Char) (error : SyntaxError) where
  before : List Char
  stop : Char
  after : List Char
  stream : TokenStream
  text_eq : text = before ++ stop :: after
  position_eq : error.position = position + before.length
  scans : Scans position before stream
  solid : isSpace stop = false
  scan : scanToken stop after = .error error.cause

/-- It is the same place with white space in front. -/
def Stopping.behindSpace (st : Stopping (position + 1) rest error) (hspace : isSpace c = true) :
    Stopping position (c :: rest) error :=
  { st with
    before := c :: st.before
    text_eq := congrArg (c :: ·) st.text_eq
    position_eq := by rw [st.position_eq, List.length_cons]; omega
    scans := .space hspace st.scans }

/-- It is the same place with a token in front, which does not depend on what follows the place. -/
def Stopping.behindToken {kind : TokenKind} {n : Nat}
    (st : Stopping (position + 1 + n) (rest.drop n) error) (hspace : isSpace c = false)
    (hscan : scanToken c rest = .ok (kind, n)) : Stopping position (c :: rest) error :=
  have hlength : (rest.take n).length = n := List.length_take_of_le (scanToken_le hscan)
  have hrest : rest = rest.take n ++ st.before ++ st.stop :: st.after := by
    rw [List.append_assoc, ← st.text_eq, List.take_append_drop]
  { st with
    before := c :: (rest.take n ++ st.before)
    stream := { st.stream with tokens := { kind, position } :: st.stream.tokens }
    text_eq := congrArg (c :: ·) hrest
    position_eq := by
      rw [st.position_eq, List.length_cons, List.length_append, hlength]
      omega
    scans := by
      refine .token hspace (n := n) ?_ ?_
      · rw [hrest] at hscan
        have halone := scanToken_replace (y := []) nofun hscan
          (by rw [List.length_append, hlength]; omega)
        rwa [List.append_nil] at halone
      · rw [List.drop_append_of_le_length (Nat.le_of_eq hlength.symm), List.drop_of_length_le
          (Nat.le_of_eq hlength), List.nil_append]
        exact st.scans }

/-- A text without tokens stops somewhere. -/
theorem exists_stopping (h : tokensFrom position text = .error error) :
    Nonempty (Stopping position text error) := by
  -- on the length, since a token takes any number of characters
  induction hlength : text.length using Nat.strongRecOn generalizing position text with
  | _ length ih =>
  cases text with
  | nil =>
      rw [tokensFrom_nil] at h
      cases h
  | cons c rest =>
      rw [List.length_cons] at hlength
      rw [tokensFrom_cons] at h
      split at h
      · next hspace =>
        obtain ⟨st⟩ := ih rest.length (by omega) h rfl
        exact ⟨st.behindSpace hspace⟩
      next hspace =>
      rw [Bool.not_eq_true] at hspace
      split at h
      · next cause hscan =>
        cases h
        exact ⟨⟨[], c, rest, _, rfl, rfl, .done position, hspace, hscan⟩⟩
      · next kind n hscan =>
        cases hdrop : tokensFrom (position + 1 + n) (rest.drop n) with
        | ok stream =>
            rw [hdrop] at h
            cases h
        | error e =>
            rw [hdrop] at h
            cases h
            have hshorter : (rest.drop n).length < length := by
              rw [List.length_drop]
              omega
            obtain ⟨st⟩ := ih _ hshorter hdrop rfl
            exact ⟨st.behindToken hspace hscan⟩

/-! ## Tokens without a tree -/

theorem TokenStream.place_mem (stream : TokenStream) (i : Nat) : stream.place i ∈ stream.places := by
  rw [place, places]
  cases h : stream.tokens[i]? with
  | none => exact List.mem_append_right _ (List.mem_singleton_self _)
  | some t => exact List.mem_append_left _ (List.mem_map_of_mem (List.mem_of_getElem? h))

/-- No place lies after the end. -/
theorem Scans.place_le_length {p : Nat} (h : Scans position text stream) (hp : p ∈ stream.places) :
    p ≤ stream.length := by
  obtain ⟨-, -, hend⟩ := List.pairwise_append.mp h.places_increase
  rcases List.mem_append.mp hp with hp | hp
  · exact Nat.le_of_lt (hend p hp _ (List.mem_singleton_self _))
  · exact Nat.le_of_eq (List.mem_singleton.mp hp)

/-- An error of tokens points to one of them, or to the end. -/
theorem position_mem_places (h : parseTokens stream = .error error) :
    error.position ∈ stream.places := by
  rcases parseTokens_of_kinds_eq (rfl : stream.kinds = stream.kinds) with
    ⟨e, he, -⟩ | ⟨cause, i, -, herror, -⟩
  · rw [he] at h
    cases h
  · rw [herror] at h
    cases h
    exact stream.place_mem i

/-! ## Formulas -/

/-- What a formula that has no tree fails for: it is blank, has no tokens, or its tokens have no tree. -/
theorem parse_eq_error {formula : String} (h : parse formula = .error error) :
    formula.toList.all isSpace = true ∧ error.position = 0 ∨
      formula.toList.all isSpace = false ∧
        (tokenize formula = .error error ∨
          ∃ stream, tokenize formula = .ok stream ∧ parseTokens stream = .error error) := by
  unfold parse at h
  split at h
  · next hblank =>
    cases h
    exact .inl ⟨hblank, rfl⟩
  · next hblank => exact .inr ⟨Bool.eq_false_iff.mpr hblank, bind_eq_error h⟩

/-- A formula without tokens stops at a quote that is never closed, or where no lexeme stands. -/
theorem Stopping.cause_cases (st : Stopping position text error) :
    error.cause = .unterminatedString ∧ IsQuote st.stop ∧
        (∀ body rest, StringBody st.stop body → st.after ≠ body ++ st.stop :: rest) ∨
      error.cause = .unexpectedCharacter st.stop ∧
        ∀ l, Lexeme l → ¬ l <+: st.stop :: st.after := by
  rcases scanToken_eq_error_iff.mp st.scan with ⟨hquote, hscan, hcause⟩ | ⟨-, -, -, -, hcause⟩
  · exact .inl ⟨hcause, hquote, (scanString_eq_none_iff hquote).mp hscan⟩
  · exact .inr ⟨hcause, fun l hl => not_prefix_of_scanToken st.scan hl⟩

/-- **Errors point into the formula.** The place of an error is no greater than the number of
characters. It is 0 in a blank formula. Where the formula has no tokens, it is the place of a
character that starts none, with tokens before it: a quote that no quote closes, or a character where
no lexeme stands. Otherwise it is the place of a token, or of the end. -/
theorem errors_point_into_formula {formula : String} (h : parse formula = .error error) :
    error.position ≤ formula.length ∧
      (formula.toList.all isSpace = true → error.position = 0) ∧
      (∀ e, tokenize formula = .error e → ∃ before c after,
        formula.toList = before ++ c :: after ∧ error.position = before.length ∧
          isSpace c = false ∧ (∃ stream, tokenize (String.ofList before) = .ok stream) ∧
          (error.cause = .unterminatedString ∧ IsQuote c ∧
              (∀ body rest, StringBody c body → after ≠ body ++ c :: rest) ∨
            error.cause = .unexpectedCharacter c ∧ ∀ l, Lexeme l → ¬ l <+: c :: after)) ∧
      (∀ stream, tokenize formula = .ok stream → formula.toList.all isSpace = false →
        error.position ∈ stream.places) := by
  rw [← String.length_toList]
  rcases parse_eq_error h with ⟨hblank, hzero⟩ | ⟨hblank, htokens | ⟨stream, hstream, htree⟩⟩
  · have htokens : tokenize formula = .ok _ := tokensFrom_of_blank hblank
    refine ⟨by omega, fun _ => hzero, fun e he => ?_, fun stream _ hsolid => ?_⟩
    · rw [htokens] at he
      cases he
    · rw [hblank] at hsolid
      cases hsolid
  · obtain ⟨st⟩ := exists_stopping htokens
    have hposition := st.position_eq
    rw [Nat.zero_add] at hposition
    refine ⟨?_, fun hspace => ?_, fun e he => ?_, fun stream hstream => ?_⟩
    · have hlength := congrArg List.length st.text_eq
      rw [List.length_append] at hlength
      omega
    · rw [hblank] at hspace
      cases hspace
    · refine ⟨st.before, st.stop, st.after, st.text_eq, hposition, st.solid, ⟨st.stream, ?_⟩,
        st.cause_cases⟩
      rw [tokenize, String.toList_ofList]
      exact st.scans.tokensFrom_eq
    · rw [htokens] at hstream
      cases hstream
  · have hscans := scans_of_tokensFrom hstream
    have hplace := position_mem_places htree
    refine ⟨?_, fun hspace => ?_, fun e he => ?_, fun stream' hstream' _ => ?_⟩
    · have hle := hscans.place_le_length hplace
      rwa [hscans.length_eq, Nat.zero_add] at hle
    · rw [hblank] at hspace
      cases hspace
    · rw [hstream] at he
      cases he
    · rw [hstream] at hstream'
      cases hstream'
      exact hplace

/-- A string after characters of several bytes, whose closing quote is escaped. -/
theorem unclosed_string_after_accents : ∃ error before c after,
    parse "\"é𝄞\" + 'a\\'" = .error error ∧ tokenize "\"é𝄞\" + 'a\\'" = .error error ∧
      error.position = 7 ∧ before.length = 7 ∧ ("\"é𝄞\" + 'a\\'").toList = before ++ c :: after ∧
      IsQuote c := by
  have htokens : tokenize "\"é𝄞\" + 'a\\'" = .error ⟨.unterminatedString, 7⟩ := by decide +kernel
  have hparse : parse "\"é𝄞\" + 'a\\'" = .error ⟨.unterminatedString, 7⟩ := by
    rw [parse, if_neg (by decide), htokens]
    rfl
  obtain ⟨-, -, hstop, -⟩ := errors_point_into_formula hparse
  obtain ⟨before, c, after, htext, hposition, -, -, ⟨-, hquote, -⟩ | ⟨hcause, -⟩⟩ := hstop _ htokens
  · exact ⟨_, before, c, after, hparse, htokens, rfl, hposition.symm, htext, hquote⟩
  · cases hcause

end FormulaTable.Formula
