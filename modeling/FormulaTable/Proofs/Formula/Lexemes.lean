import FormulaTable.Proofs.Formula.StringLiterals

/-!
# Lexemes

The texts that a token can be, as a grammar has them: strings, numerals, names and signs. A token is
found just where one of them stands, and its characters are one of them.
-/

namespace FormulaTable.Formula

open Number (AllDigits DigitFirst)

variable {quote c : Char} {s text rest l : List Char} {k : TokenKind} {n : Nat} {cause : SyntaxCause}

/-! ## Grammar -/

/-- The signs of an exponent. -/
def exponentSigns : List (List Char) := [[], ['+'], ['-']]

/-- The exponent of a numeral, if it has one. -/
inductive ExponentPart : List Char → Prop where
  | none : ExponentPart []
  | some {letter : Char} {sign digits : List Char} (hletter : letter = 'e' ∨ letter = 'E')
      (hsign : sign ∈ exponentSigns) (hdigits : AllDigits digits) (hne : digits ≠ []) :
      ExponentPart (letter :: (sign ++ digits))

/-- Digits, among which a point may stand, and an exponent. -/
inductive Numeral : List Char → Prop where
  | whole {digits exponent : List Char} (hdigits : AllDigits digits) (hne : digits ≠ [])
      (hexponent : ExponentPart exponent) : Numeral (digits ++ exponent)
  | point {whole fraction exponent : List Char} (hwhole : AllDigits whole)
      (hfraction : AllDigits fraction) (hne : whole ≠ [] ∨ fraction ≠ [])
      (hexponent : ExponentPart exponent) : Numeral (whole ++ '.' :: (fraction ++ exponent))

/-- The signs. -/
def signs : List (List Char) :=
  [['=', '='], ['!', '='], ['>', '='], ['<', '='], ['&', '&'], ['|', '|'], ['('], [')'], [','],
    ['+'], ['-'], ['*'], ['/'], ['%'], ['>'], ['<'], ['?'], [':'], ['!']]

/-- The text of a token. -/
inductive Lexeme : List Char → Prop where
  | string {quote : Char} {body : List Char} (hquote : IsQuote quote)
      (hbody : StringBody quote body) : Lexeme (quote :: (body ++ [quote]))
  | number {s : List Char} (h : Numeral s) : Lexeme s
  | name {c : Char} {s : List Char} (hc : startsName c = true)
      (hs : ∀ d ∈ s, continuesName d = true) : Lexeme (c :: s)
  | sign {s : List Char} (h : s ∈ signs) : Lexeme s

/-! ## Strings -/

/-- A string is found if a quote closes it. -/
theorem StringBody.scanString_eq (h : StringBody quote s) (hquote : IsQuote quote)
    (rest : List Char) :
    ∃ content, scanString quote (s ++ quote :: rest) = some (content, s.length + 1) := by
  induction h with
  | nil => exact ⟨[], scanString_quote quote rest⟩
  | @plain c s hc hbackslash _ ih =>
      obtain ⟨content, hcontent⟩ := ih
      refine ⟨c :: content, ?_⟩
      rw [List.cons_append, scanString_cons hc hbackslash, hcontent]
      rfl
  | @escaped c s _ ih =>
      obtain ⟨content, hcontent⟩ := ih
      refine ⟨unescape c :: content, ?_⟩
      rw [List.cons_append, List.cons_append, scanString_backslash hquote.ne_backslash, hcontent]
      rfl

/-- A string is never closed if no quote ends it. -/
theorem scanString_eq_none_iff (hquote : IsQuote quote) : scanString quote text = none ↔
    ∀ body rest, StringBody quote body → text ≠ body ++ quote :: rest := by
  constructor
  · rintro h body rest hbody rfl
    obtain ⟨content, hcontent⟩ := hbody.scanString_eq hquote rest
    rw [hcontent] at h
    cases h
  · intro h
    rw [Option.eq_none_iff_forall_ne_some]
    rintro ⟨content, n⟩ hscan
    obtain ⟨body, rest, hbody, htext, -⟩ := scanString_eq_some hscan
    exact h body rest hbody htext

/-! ## Numerals -/

theorem take_signLength_mem (s : List Char) : s.take (signLength s) ∈ exponentSigns := by
  unfold signLength
  split
  · exact .tail _ (.head _)
  · exact .tail _ (.tail _ (.head _))
  · exact .head _

/-- The exponent that is found is one. -/
theorem exponentPart_take (s : List Char) : ExponentPart (s.take (exponentLength s)) := by
  cases s with
  | nil => exact .none
  | cons c s =>
      rw [exponentLength_cons]
      split
      · next h =>
        obtain ⟨hletter, hdigits⟩ := h
        rw [Nat.add_assoc, Nat.add_comm 1, List.take_succ_cons, List.take_add, digitsAfterSign,
          take_takeWhile]
        exact .some hletter (take_signLength_mem s) (allDigits_takeWhile _)
          (List.length_pos_iff.mp hdigits)
      · exact .none

/-- The number that is found is a numeral. -/
theorem numeral_take (h : startsNumber s = true) : Numeral (s.take (numberLength s)) := by
  obtain ⟨whole, t, hwhole, ⟨hne, htake⟩ | ⟨fraction, hfraction, hne, htake⟩⟩ := take_numberLength h
  · rw [htake]
    exact .whole hwhole hne (exponentPart_take t)
  · rw [htake]
    exact .point hwhole hfraction hne (exponentPart_take t)

theorem startsNumber_cons (hc : c.isDigit = true) : startsNumber (c :: s) = true := by
  have hpoint : c ≠ '.' := by
    rintro rfl
    cases hc
  simpa [startsNumber, hpoint] using hc

theorem startsNumber_digits (hs : AllDigits s) (hne : s ≠ []) :
    startsNumber (s ++ rest) = true := by
  cases s with
  | nil => exact absurd rfl hne
  | cons d s => exact startsNumber_cons (hs d (.head _))

/-- A numeral starts a number. -/
theorem Numeral.startsNumber_append (h : Numeral s) (rest : List Char) :
    startsNumber (s ++ rest) = true := by
  cases h with
  | whole hdigits hne =>
      rw [List.append_assoc]
      exact startsNumber_digits hdigits hne
  | @point whole fraction exponent hwhole hfraction hne =>
      cases whole with
      | cons d whole => exact startsNumber_cons (hwhole d (.head _))
      | nil =>
          cases fraction with
          | nil => exact absurd rfl (hne.resolve_left (absurd rfl))
          | cons d fraction => exact hfraction d (.head _)

theorem numberLength_pos (h : startsNumber s = true) : 0 < numberLength s := by
  rw [Nat.pos_iff_ne_zero]
  intro hzero
  have hnumeral := numeral_take h
  rw [hzero, List.take_zero] at hnumeral
  cases hnumeral.startsNumber_append []

/-! ## Signs -/

/-- The sign that is found is one. -/
theorem take_mem_signs {symbol : Symbol} (h : sign? s = some (symbol, n)) : s.take n ∈ signs := by
  unfold sign? at h
  split at h <;> cases h <;> simp [signs]

/-- A sign is found where one stands. -/
theorem sign?_append (h : s ∈ signs) (rest : List Char) : sign? (s ++ rest) ≠ none := by
  simp only [signs, List.mem_cons, List.not_mem_nil, or_false] at h
  rcases h with rfl | rfl | rfl | rfl | rfl | rfl | rfl | rfl | rfl | rfl | rfl | rfl | rfl | rfl |
    rfl | rfl | rfl | rfl | rfl
  all_goals try (intro h; cases h)
  -- three signs that an equals sign makes longer
  all_goals
    cases rest with
    | nil => simp [sign?]
    | cons d rest =>
        by_cases hd : d = '='
        · subst hd
          simp [sign?]
        · simp [sign?, hd]

/-! ## Tokens -/

/-- A string that is never closed is no token, and neither are characters that start nothing. -/
theorem scanToken_eq_error_iff : scanToken c rest = .error cause ↔
    IsQuote c ∧ scanString c rest = none ∧ cause = .unterminatedString ∨
      ¬ IsQuote c ∧ startsNumber (c :: rest) = false ∧ startsName c = false ∧
        sign? (c :: rest) = none ∧ cause = .unexpectedCharacter c := by
  unfold scanToken
  by_cases hquote : IsQuote c
  · rw [if_pos (show c = '"' ∨ c = '\'' from hquote)]
    simp only [hquote, true_and, not_true, false_and, or_false]
    cases scanString c rest with
    | none => simp [eq_comm]
    | some => simp
  rw [if_neg (show ¬ (c = '"' ∨ c = '\'') from hquote)]
  simp only [hquote, false_and, not_false_eq_true, true_and, false_or]
  cases startsNumber (c :: rest) with
  | true => simp
  | false =>
    cases startsName c with
    | true => simp
    | false =>
      cases sign? (c :: rest) with
      | none => simp [eq_comm]
      | some => simp

/-- A quote starts nothing but a string. -/
theorem IsQuote.starts_string (h : IsQuote c) (hl : Lexeme l) (hstands : l <+: c :: rest) :
    ∃ body, StringBody c body ∧ l = c :: (body ++ [c]) := by
  obtain ⟨after, htext⟩ := hstands
  cases hl with
  | @string quote body _ hbody =>
      obtain rfl := (List.cons.inj htext).1
      exact ⟨body, hbody, rfl⟩
  | number hnumeral =>
      have hstarts := hnumeral.startsNumber_append after
      rw [htext] at hstarts
      rcases h with rfl | rfl <;> cases hstarts
  | name hc =>
      obtain rfl := (List.cons.inj htext).1
      rcases h with rfl | rfl <;> cases hc
  | sign hsign =>
      have hfound := sign?_append hsign after
      rw [htext] at hfound
      rcases h with rfl | rfl <;> exact absurd rfl hfound

/-- The characters of a token are a lexeme. -/
theorem lexeme_of_scanToken (h : scanToken c rest = .ok (k, n)) :
    Lexeme ((c :: rest).take (n + 1)) := by
  unfold scanToken at h
  split at h
  · next hquote =>
    split at h
    · next content m hscan =>
      cases h
      obtain ⟨body, rest, hbody, rfl, rfl, -⟩ := scanString_eq_some hscan
      have hlength : body.length + 1 = (body ++ [c]).length := by rw [List.length_append]; rfl
      rw [List.take_succ_cons, List.append_cons, hlength, List.take_left]
      exact .string hquote hbody
    · cases h
  split at h
  · next hstarts =>
    cases h
    rw [Nat.sub_add_cancel (numberLength_pos hstarts)]
    exact .number (numeral_take hstarts)
  split at h
  · next hname =>
    cases h
    rw [List.take_succ_cons, take_takeWhile]
    exact .name hname fun d hd => List.mem_takeWhile_imp hd
  split at h
  · next s m hsign =>
    cases h
    have hpos : 0 < m := by
      obtain ⟨-, ⟨rfl, -⟩ | ⟨rfl, -⟩⟩ := sign?_cases hsign
      · exact Nat.one_pos
      · exact Nat.two_pos
    rw [Nat.sub_add_cancel hpos]
    exact .sign (take_mem_signs hsign)
  · cases h

/-- No lexeme stands where no token is found. -/
theorem not_prefix_of_scanToken (h : scanToken c rest = .error cause) (hl : Lexeme l) :
    ¬ l <+: c :: rest := by
  intro hstands
  rcases scanToken_eq_error_iff.mp h with
    ⟨hquote, hscan, -⟩ | ⟨hquote, hnumber, hname, hsign, -⟩
  · obtain ⟨body, hbody, rfl⟩ := hquote.starts_string hl hstands
    obtain ⟨after, htext⟩ := hstands
    rw [List.cons_append, List.append_assoc, List.singleton_append] at htext
    exact (scanString_eq_none_iff hquote).mp hscan body after hbody (List.cons.inj htext).2.symm
  · obtain ⟨after, htext⟩ := hstands
    cases hl with
    | string hquote' =>
        obtain rfl := (List.cons.inj htext).1
        exact hquote hquote'
    | number hnumeral =>
        have hstarts := hnumeral.startsNumber_append after
        rw [htext, hnumber] at hstarts
        cases hstarts
    | name hc =>
        obtain rfl := (List.cons.inj htext).1
        rw [hname] at hc
        cases hc
    | sign hmem =>
        rw [← htext] at hsign
        exact sign?_append hmem after hsign

/-- **A token is found just where a lexeme stands.** -/
theorem exists_scanToken_iff :
    (∃ k n, scanToken c rest = .ok (k, n)) ↔ ∃ l, Lexeme l ∧ l <+: c :: rest := by
  constructor
  · rintro ⟨k, n, h⟩
    exact ⟨_, lexeme_of_scanToken h, List.take_prefix _ _⟩
  · rintro ⟨l, hl, hstands⟩
    cases hscan : scanToken c rest with
    | ok token => exact ⟨token.1, token.2, rfl⟩
    | error cause => exact absurd hstands (not_prefix_of_scanToken hscan hl)

end FormulaTable.Formula
