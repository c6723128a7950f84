import FormulaTable.Proofs.Formula.Lexemes
import FormulaTable.Proofs.Formula.TokenTexts
import FormulaTable.Proofs.Text.Longest

/-!
# Numbers are the longest numerals

A number starts where a numeral stands. Its characters are the longest numeral there, and they denote
a number, as every numeral does.
-/

namespace FormulaTable.Formula

open Number (AllDigits DigitFirst NoDigitNext noDigitNext_cons takeWhile_append)
open Text (IsLongest isSpace)

variable {position n : Nat} {c : Char} {ds e l rest s sign text : List Char} {x : Float}
  {stream : TokenStream} {t : Token}

/-! ## The parts of a numeral in a text -/

/-- All digits of a numeral are taken, and perhaps more that follow. -/
theorem length_le_takeWhile (hds : AllDigits ds) (rest : List Char) :
    ds.length ≤ ((ds ++ rest).takeWhile Char.isDigit).length := by
  rw [List.takeWhile_append_of_pos hds, List.length_append]
  exact Nat.le_add_right _ _

/-- The sign of an exponent is taken. -/
theorem signLength_append (hsign : sign ∈ exponentSigns) (hds : AllDigits ds) (hne : ds ≠ [])
    (rest : List Char) : signLength (sign ++ (ds ++ rest)) = sign.length := by
  simp only [exponentSigns, List.mem_cons, List.not_mem_nil, or_false] at hsign
  rcases hsign with rfl | rfl | rfl
  · have hfirst : DigitFirst (ds ++ rest) := hds.digitFirst hne
    rw [List.nil_append]
    unfold signLength
    split
    · next heq =>
      rw [heq] at hfirst
      exact absurd rfl (hfirst.head?_ne (c := '+') (by decide))
    · next heq =>
      rw [heq] at hfirst
      exact absurd rfl (hfirst.head?_ne (c := '-') (by decide))
    · rfl
  · rfl
  · rfl

/-- So is the whole exponent, and perhaps more digits that follow. -/
theorem ExponentPart.length_le (h : ExponentPart e) (rest : List Char) :
    e.length ≤ exponentLength (e ++ rest) := by
  cases h with
  | none => exact Nat.zero_le _
  | @some letter sign digits hletter hsign hdigits hne =>
      have htaken : signLength (sign ++ digits ++ rest) = sign.length := by
        rw [List.append_assoc]
        exact signLength_append hsign hdigits hne rest
      have hle : digits.length ≤ digitsAfterSign (sign ++ digits ++ rest) := by
        rw [digitsAfterSign, htaken, List.append_assoc, List.drop_left]
        exact length_le_takeWhile hdigits rest
      have hpos : 0 < digits.length := List.length_pos_iff.mpr hne
      rw [List.cons_append, exponentLength_cons, if_pos ⟨hletter, by omega⟩, htaken,
        List.length_cons, List.length_append]
      omega

/-- An exponent starts with a letter, which is no digit and no point. -/
theorem ExponentPart.eq_nil_or (h : ExponentPart e) :
    e = [] ∨ ∀ rest, NoDigitNext (e ++ rest) ∧ fractionLength (e ++ rest) = 0 := by
  cases h with
  | none => exact .inl rfl
  | some hletter =>
      refine .inr fun rest => ?_
      rcases hletter with rfl | rfl
      · exact ⟨noDigitNext_cons (by decide), rfl⟩
      · exact ⟨noDigitNext_cons (by decide), rfl⟩

/-- Digits are taken before anything else. -/
theorem numberLength_append (hds : AllDigits ds) (hrest : NoDigitNext rest) :
    numberLength (ds ++ rest) =
      ds.length + (fractionLength rest + exponentLength (rest.drop (fractionLength rest))) := by
  unfold numberLength
  dsimp only
  rw [takeWhile_append hds hrest, List.drop_left, List.drop_length_add_append, Nat.add_assoc]

/-- The fraction of a numeral and its exponent are taken. -/
theorem length_le_fraction (hds : AllDigits ds) (he : ExponentPart e) (rest : List Char) :
    1 + ds.length + e.length ≤ fractionLength ('.' :: (ds ++ (e ++ rest))) +
      exponentLength (('.' :: (ds ++ (e ++ rest))).drop
        (fractionLength ('.' :: (ds ++ (e ++ rest))))) := by
  have hfraction : fractionLength ('.' :: (ds ++ (e ++ rest))) =
      ((ds ++ (e ++ rest)).takeWhile Char.isDigit).length + 1 := Nat.add_comm _ _
  rw [hfraction, List.drop_succ_cons]
  rcases he.eq_nil_or with rfl | hletter
  · have hle := length_le_takeWhile hds ([] ++ rest)
    rw [List.length_nil]
    omega
  · have hle := he.length_le rest
    rw [takeWhile_append hds (hletter rest).1, List.drop_left]
    omega

/-! ## Numerals -/

/-- A numeral that stands in a text is no longer than the number that is found there. -/
theorem Numeral.length_le (h : Numeral l) (rest : List Char) :
    l.length ≤ numberLength (l ++ rest) := by
  cases h with
  | @whole digits exponent hdigits hne hexponent =>
      rw [List.append_assoc, List.length_append]
      rcases hexponent.eq_nil_or with rfl | hletter
      · have hle := length_le_takeWhile hdigits ([] ++ rest)
        rw [List.length_nil]
        unfold numberLength
        dsimp only
        omega
      · obtain ⟨hnoDigit, hnoPoint⟩ := hletter rest
        have hle := hexponent.length_le rest
        rw [numberLength_append hdigits hnoDigit, hnoPoint, List.drop_zero]
        omega
  | @point whole fraction exponent hwhole hfraction hne hexponent =>
      have hle := length_le_fraction hfraction hexponent rest
      rw [List.append_assoc, List.cons_append, List.append_assoc,
        numberLength_append hwhole (noDigitNext_cons (by decide)), List.length_append,
        List.length_cons, List.length_append]
      omega

/-- The number that is found is the longest numeral. -/
theorem isLongest_take (h : startsNumber s = true) :
    IsLongest Numeral s (s.take (numberLength s)) where
  holds := numeral_take h
  starts := List.take_prefix _ _
  longest := by
    rintro l hl ⟨rest, rfl⟩
    rw [List.length_take_of_le (numberLength_le _)]
    exact hl.length_le rest

/-- A number starts just where a numeral stands. -/
theorem startsNumber_iff : startsNumber s = true ↔ ∃ l, Numeral l ∧ l <+: s := by
  constructor
  · intro h
    exact ⟨_, numeral_take h, List.take_prefix _ _⟩
  · rintro ⟨l, hl, rest, rfl⟩
    exact hl.startsNumber_append rest

/-- A numeral denotes a number. -/
theorem Numeral.exists_ofText?_eq (h : Numeral l) : ∃ x, Number.ofText? l = some x := by
  have hlength : numberLength l = l.length := by
    have hle := h.length_le []
    rw [List.append_nil] at hle
    exact Nat.le_antisymm (numberLength_le l) hle
  have hstarts := h.startsNumber_append []
  rw [List.append_nil] at hstarts
  obtain ⟨d, hd⟩ := readDecimal?_take hstarts
  rw [hlength, List.take_length] at hd
  exact ⟨d.toFloat, ofText?_eq hd⟩

/-! ## Tokens -/

/-- White space starts no number. -/
theorem isSpace_of_startsNumber (h : startsNumber (c :: rest) = true) : isSpace c = false := by
  rcases digitFirst_of_startsNumber h with ⟨d, hd, hdigit⟩ | ⟨t, ht, -⟩
  · obtain rfl := Option.some.inj hd
    by_contra hspace
    rw [isDigit_of_isSpace (Bool.not_eq_false _ ▸ hspace)] at hdigit
    cases hdigit
  · obtain rfl := (List.cons.inj ht).1
    rfl

/-- A token is a number where one starts. -/
theorem scanToken_of_startsNumber (h : startsNumber (c :: rest) = true) :
    scanToken c rest = .ok (numberToken ((c :: rest).take (numberLength (c :: rest))),
      numberLength (c :: rest) - 1) := by
  have hquote : ¬ (c = '"' ∨ c = '\'') := by
    rintro (rfl | rfl) <;> cases h
  rw [scanToken, if_neg hquote, if_pos h]

/-- The characters of a number are the longest numeral, and it is what they denote. -/
theorem isLongest_of_scanToken (h : scanToken c rest = .ok (.number x, n)) :
    IsLongest Numeral (c :: rest) ((c :: rest).take (n + 1)) ∧
      Number.ofText? ((c :: rest).take (n + 1)) = some x := by
  obtain ⟨hstarts, htoken, rfl⟩ := scanToken_eq_number h
  have hlongest := isLongest_take hstarts
  rw [Nat.sub_add_cancel (numberLength_pos hstarts)]
  obtain ⟨y, hy⟩ := hlongest.holds.exists_ofText?_eq
  rw [numberToken, hy] at htoken
  exact ⟨hlongest, hy.trans (congrArg some (TokenKind.number.inj htoken))⟩

/-- Where a numeral stands, the longest one is the next token. -/
theorem tokensFrom_of_isLongest (h : IsLongest Numeral (l ++ rest) l)
    (hx : Number.ofText? l = some x) : tokensFrom position (l ++ rest) =
      (tokensFrom (position + l.length) rest).map fun stream =>
        { stream with tokens := { kind := .number x, position } :: stream.tokens } := by
  have hstarts := h.holds.startsNumber_append rest
  have htake : (l ++ rest).take (numberLength (l ++ rest)) = l := (isLongest_take hstarts).eq h
  have hlength : numberLength (l ++ rest) = l.length := by
    rw [← List.length_take_of_le (numberLength_le (l ++ rest)), htake]
  cases l with
  | nil =>
      have hpos := numberLength_pos hstarts
      rw [hlength] at hpos
      cases hpos
  | cons c l =>
      have hscan : scanToken c (l ++ rest) = _ := scanToken_of_startsNumber hstarts
      rw [← List.cons_append, htake, hlength, numberToken, hx] at hscan
      rw [List.cons_append, tokensFrom_cons, isSpace_of_startsNumber hstarts, hscan,
        if_neg Bool.false_ne_true]
      dsimp only
      rw [List.length_cons, Nat.add_sub_cancel, List.drop_left, Nat.add_assoc, Nat.add_comm 1]
      rfl

/-- A number among the tokens of a text is the longest numeral where it stands. -/
theorem Scans.exists_longest (h : Scans position text stream) (ht : t ∈ stream.tokens)
    (hx : t.kind = .number x) : ∃ before l rest, text = before ++ (l ++ rest) ∧
      t.position = position + before.length ∧ IsLongest Numeral (l ++ rest) l ∧
      Number.ofText? l = some x := by
  obtain ⟨i, hi⟩ := List.mem_iff_getElem?.mp ht
  obtain ⟨st⟩ := h.exists_standing hi
  have hscan := st.scan
  rw [hx] at hscan
  obtain ⟨hlongest, hdenotes⟩ := isLongest_of_scanToken hscan
  rw [List.take_succ_cons, List.take_left] at hlongest hdenotes
  exact ⟨st.before, st.first :: st.others, st.blank ++ st.after, st.text_eq, st.position_eq,
    hlongest, hdenotes⟩

/-- **Numbers are the longest numerals.** A number starts just where a numeral stands. There the
longest numeral, which denotes a number, is the next token. And every number among the tokens of a
text is what the longest numeral in its place denotes. -/
theorem numbers_are_longest_numerals (position : Nat) (text : List Char) :
    (startsNumber text = true ↔ ∃ l, Numeral l ∧ l <+: text) ∧
      (startsNumber text = true → ∃ l rest x, text = l ++ rest ∧ IsLongest Numeral text l ∧
        Number.ofText? l = some x ∧
        tokensFrom position text = (tokensFrom (position + l.length) rest).map fun stream =>
          { stream with tokens := { kind := .number x, position } :: stream.tokens }) ∧
      ∀ stream, tokensFrom position text = .ok stream → ∀ t ∈ stream.tokens, ∀ x,
        t.kind = .number x → ∃ before l rest, text = before ++ (l ++ rest) ∧
          t.position = position + before.length ∧ IsLongest Numeral (l ++ rest) l ∧
          Number.ofText? l = some x := by
  refine ⟨startsNumber_iff, fun h => ?_, fun stream hstream t ht x hx => ?_⟩
  · have hlongest := isLongest_take h
    obtain ⟨x, hx⟩ := hlongest.holds.exists_ofText?_eq
    obtain ⟨rest, htext⟩ := hlongest.starts
    generalize text.take (numberLength text) = l at htext hlongest hx
    subst htext
    exact ⟨l, rest, x, rfl, hlongest, hx, tokensFrom_of_isLongest hlongest hx⟩
  · exact (scans_of_tokensFrom hstream).exists_longest ht hx

/-- The second of two points belongs to the second number, and an `e` without digits to none. -/
theorem numbers_around_points :
    startsNumber "1..5e+".toList = true ∧ Number.ofText? "1.".toList = some 1 ∧
      tokensFrom 0 "1..5e+".toList = (tokensFrom 2 ".5e+".toList).map (fun stream =>
        { stream with tokens := { kind := .number 1, position := 0 } :: stream.tokens }) ∧
      ∃ stream, tokensFrom 2 ".5e+".toList = .ok stream ∧ stream.places = [2, 4, 5, 6] ∧
        ∃ before l rest, ".5e+".toList = before ++ (l ++ rest) ∧ 2 = 2 + before.length ∧
          IsLongest Numeral (l ++ rest) l ∧ Number.ofText? l = some 0.5 := by
  have hstarts : startsNumber "1..5e+".toList = true := by decide
  obtain ⟨l, rest, x, htext, hlongest, hx, htokens⟩ :=
    (numbers_are_longest_numerals 0 "1..5e+".toList).2.1 hstarts
  obtain rfl : l = "1.".toList := hlongest.eq (isLongest_take hstarts)
  have hsplit : "1.".toList ++ ".5e+".toList = "1.".toList ++ rest := htext
  obtain rfl : rest = ".5e+".toList := (List.append_cancel_left hsplit).symm
  obtain rfl : x = 1 := Option.some.inj (hx.symm.trans (by decide +kernel))
  have hstream : tokensFrom 2 ".5e+".toList = .ok ⟨[⟨.number 0.5, 2⟩, ⟨.identifier "e", 4⟩,
      ⟨.symbol .plus, 5⟩], 6⟩ := by decide +kernel
  exact ⟨hstarts, hx, htokens, _, hstream, rfl,
    (numbers_are_longest_numerals 2 ".5e+".toList).2.2 _ hstream _ (.head _) _ rfl⟩

end FormulaTable.Formula
