import FormulaTable.Proofs.Formula.Recognition
import FormulaTable.Proofs.Formula.Scanning
import FormulaTable.Proofs.Number.Digits
import Mathlib.Data.List.TakeWhile

/-!
# Numbers in the text

The numbers in the tree of a formula are written in its text. Each of them is the double nearest to the
decimal of a numeral in the text.
-/

namespace FormulaTable.Formula

open Number (AllDigits NoDigitNext DigitFirst readDecimal? readExponent? readSign noDigitNext_nil noDigitNext_cons
  takeWhile_append dropWhile_append)

/-! ## The end of a numeral -/

/-- What may follow the digits of a numeral: an exponent or nothing. -/
structure EndsNumeral (s : List Char) : Prop where
  exponent : ∃ e, readExponent? s = some e
  noDigit : NoDigitNext s
  noPoint : s.head? ≠ some '.'

theorem endsNumeral_nil : EndsNumeral [] := ⟨⟨0, rfl⟩, noDigitNext_nil, nofun⟩

theorem take_takeWhile (p : Char → Bool) (s : List Char) :
    s.take (s.takeWhile p).length = s.takeWhile p :=
  (List.prefix_iff_eq_take.mp (List.takeWhile_prefix p)).symm

theorem drop_takeWhile (p : Char → Bool) (s : List Char) :
    s.drop (s.takeWhile p).length = s.dropWhile p := by
  have h : (s.takeWhile p ++ s.dropWhile p).drop (s.takeWhile p).length = s.dropWhile p :=
    List.drop_left
  rwa [List.takeWhile_append_dropWhile] at h

theorem allDigits_takeWhile (s : List Char) : AllDigits (s.takeWhile Char.isDigit) :=
  fun _ hc => List.mem_takeWhile_imp hc

/-- The sign is read off the characters that follow. -/
theorem readSign_take (s : List Char) (n : Nat) :
    (readSign (s.take (signLength s + n))).2 = (s.drop (signLength s)).take n := by
  unfold signLength
  split
  · rw [Nat.add_comm, List.take_succ_cons]
    rfl
  · rw [Nat.add_comm, List.take_succ_cons]
    rfl
  · next hplus hminus =>
    rw [Nat.zero_add, List.drop_zero]
    unfold readSign
    split
    · next t ht =>
      obtain ⟨c, rest, rfl⟩ := List.exists_cons_of_ne_nil (l := s) (by rintro rfl; simp at ht)
      cases n with
      | zero => cases ht
      | succ n =>
        obtain rfl := (List.cons.inj ht).1
        exact absurd rfl (hminus rest)
    · next t ht =>
      obtain ⟨c, rest, rfl⟩ := List.exists_cons_of_ne_nil (l := s) (by rintro rfl; simp at ht)
      cases n with
      | zero => cases ht
      | succ n =>
        obtain rfl := (List.cons.inj ht).1
        exact absurd rfl (hplus rest)
    · rfl

/-- The exponent that is found is read. -/
theorem endsNumeral_take (s : List Char) : EndsNumeral (s.take (exponentLength s)) := by
  cases s with
  | nil => exact endsNumeral_nil
  | cons c s =>
    unfold exponentLength
    dsimp only
    split
    · next h =>
      obtain ⟨hletter, hdigits⟩ := h
      obtain ⟨ds, hds⟩ : ∃ ds, ds = (s.drop (signLength s)).takeWhile Char.isDigit := ⟨_, rfl⟩
      rw [← hds] at hdigits ⊢
      have hlength : 1 + signLength s + ds.length = (signLength s + ds.length) + 1 := by omega
      rw [hlength, List.take_succ_cons]
      obtain ⟨sign, hread⟩ : ∃ sign, readSign (s.take (signLength s + ds.length)) = (sign, ds) := by
        refine ⟨_, Prod.ext rfl ?_⟩
        rw [readSign_take, hds, take_takeWhile]
      refine ⟨?_, ?_, ?_⟩
      · have hnonempty : ds.isEmpty = false := by
          cases ds with
          | nil => cases hdigits
          | cons d ds => rfl
        have hall : ds.all Char.isDigit = true := by
          rw [List.all_eq_true, hds]
          exact allDigits_takeWhile _
        rw [readExponent?, if_pos hletter, hread]
        dsimp only
        rw [hnonempty, hall]
        exact ⟨_, rfl⟩
      · rcases hletter with rfl | rfl
        · exact noDigitNext_cons (by decide)
        · exact noDigitNext_cons (by decide)
      · rcases hletter with rfl | rfl
        · simp
        · simp
    · exact endsNumeral_nil

/-! ## Numerals -/

/-- Digits with a point among them are read. -/
theorem readDecimal?_point {whole fraction rest : List Char} (hwhole : AllDigits whole)
    (hfraction : AllDigits fraction) (hne : whole ≠ [] ∨ fraction ≠ []) (hrest : EndsNumeral rest) :
    ∃ d, readDecimal? (whole ++ '.' :: (fraction ++ rest)) = some d := by
  have hpoint : NoDigitNext ('.' :: (fraction ++ rest)) := noDigitNext_cons (by decide)
  obtain ⟨e, he⟩ := hrest.exponent
  have hnonempty : (whole.isEmpty && fraction.isEmpty) = false := by
    cases whole <;> cases fraction <;> simp at hne ⊢
  unfold readDecimal?
  rw [takeWhile_append hwhole hpoint, dropWhile_append hwhole hpoint]
  simp only [takeWhile_append hfraction hrest.noDigit, dropWhile_append hfraction hrest.noDigit,
    hnonempty, he]
  exact ⟨_, rfl⟩

/-- So are digits without a point. -/
theorem readDecimal?_whole {whole rest : List Char} (hwhole : AllDigits whole) (hne : whole ≠ [])
    (hrest : EndsNumeral rest) : ∃ d, readDecimal? (whole ++ rest) = some d := by
  obtain ⟨e, he⟩ := hrest.exponent
  have hnonempty : whole.isEmpty = false := by
    cases whole with
    | nil => exact absurd rfl hne
    | cons c whole => rfl
  unfold readDecimal?
  rw [takeWhile_append hwhole hrest.noDigit, dropWhile_append hwhole hrest.noDigit]
  dsimp only
  split
  · exact absurd rfl hrest.noPoint
  · rw [hnonempty, he]
    exact ⟨_, rfl⟩

/-- The digits, the point and the digits after it that a text starts with. -/
theorem take_fraction (s : List Char) :
    (∃ t, s = '.' :: t ∧
      s.take (fractionLength s) = '.' :: t.takeWhile Char.isDigit) ∨
    s.head? ≠ some '.' ∧ s.take (fractionLength s) = [] := by
  unfold fractionLength
  split
  · next t =>
    left
    refine ⟨t, rfl, ?_⟩
    rw [Nat.add_comm, List.take_succ_cons, take_takeWhile]
  · next h =>
    right
    refine ⟨?_, rfl⟩
    cases s with
    | nil => nofun
    | cons c t =>
      intro hc
      obtain rfl := Option.some.inj hc
      exact h t rfl

theorem takeWhile_ne_nil {s : List Char} (h : DigitFirst s) : s.takeWhile Char.isDigit ≠ [] := by
  obtain ⟨c, hc, hdigit⟩ := h
  cases s with
  | nil => cases hc
  | cons d s =>
    obtain rfl := Option.some.inj hc
    rw [List.takeWhile_cons_of_pos hdigit]
    exact List.cons_ne_nil _ _

/-- A number starts with a digit, or with a point and a digit. -/
theorem digitFirst_of_startsNumber {s : List Char} (h : startsNumber s = true) :
    DigitFirst s ∨ ∃ t, s = '.' :: t ∧ DigitFirst t := by
  unfold startsNumber at h
  split at h
  · exact .inr ⟨_, rfl, _, rfl, h⟩
  · exact .inl ⟨_, rfl, h⟩
  · cases h

/-- The parts of a number in a text: digits, a point and digits after it if there is a point, and what
is found of an exponent. -/
theorem take_numberLength {s : List Char} (h : startsNumber s = true) :
    ∃ whole t : List Char, AllDigits whole ∧
      (whole ≠ [] ∧ s.take (numberLength s) = whole ++ t.take (exponentLength t) ∨
        ∃ fraction, AllDigits fraction ∧ (whole ≠ [] ∨ fraction ≠ []) ∧
          s.take (numberLength s) = whole ++ '.' :: (fraction ++ t.take (exponentLength t))) := by
  have hsplit := List.takeWhile_append_dropWhile (p := Char.isDigit) (l := s)
  refine ⟨s.takeWhile Char.isDigit,
    s.drop ((s.takeWhile Char.isDigit).length + fractionLength (s.dropWhile Char.isDigit)),
    allDigits_takeWhile s, ?_⟩
  unfold numberLength
  dsimp only
  rw [List.take_add, List.take_add, take_takeWhile, drop_takeWhile, List.append_assoc]
  rcases take_fraction (s.dropWhile Char.isDigit) with ⟨t, ht, hfraction⟩ | ⟨hhead, hfraction⟩
  · rw [hfraction, List.cons_append]
    refine .inr ⟨_, allDigits_takeWhile t, ?_, rfl⟩
    -- a point alone does not start a number
    by_contra hnone
    simp only [not_or, not_not] at hnone
    rw [hnone.1, List.nil_append, ht] at hsplit
    rcases digitFirst_of_startsNumber h with hdigit | ⟨t', ht', hdigit⟩
    · exact takeWhile_ne_nil hdigit hnone.1
    · obtain rfl := (List.cons.inj (hsplit.trans ht')).2
      exact takeWhile_ne_nil hdigit hnone.2
  · rw [hfraction, List.nil_append]
    refine .inl ⟨fun hnone => ?_, rfl⟩
    rw [hnone, List.nil_append] at hsplit
    rcases digitFirst_of_startsNumber h with hdigit | ⟨t, ht, hdigit⟩
    · exact takeWhile_ne_nil hdigit hnone
    · rw [hsplit, ht] at hhead
      exact hhead rfl

/-- A numeral is read as a decimal. -/
theorem readDecimal?_take {s : List Char} (h : startsNumber s = true) :
    ∃ d, readDecimal? (s.take (numberLength s)) = some d := by
  obtain ⟨whole, t, hwhole, ⟨hne, htake⟩ | ⟨fraction, hfraction, hne, htake⟩⟩ := take_numberLength h
  · rw [htake]
    exact readDecimal?_whole hwhole hne (endsNumeral_take t)
  · rw [htake]
    exact readDecimal?_point hwhole hfraction hne (endsNumeral_take t)

/-! ## Tokens -/

/-- The number is the double nearest to the decimal of a numeral in the text. -/
def WrittenIn (text : List Char) (x : Float) : Prop :=
  ∃ lexeme d, lexeme <:+: text ∧ readDecimal? lexeme = some d ∧ x = d.toFloat

theorem WrittenIn.mono {text text' : List Char} {x : Float} (h : WrittenIn text x)
    (hsub : text <:+: text') : WrittenIn text' x := by
  obtain ⟨lexeme, d, hlexeme, hd⟩ := h
  exact ⟨lexeme, d, hlexeme.trans hsub, hd⟩

/-- A numeral has no sign. -/
theorem ofText?_eq {lexeme : List Char} {d : Number.Decimal} (h : readDecimal? lexeme = some d) :
    Number.ofText? lexeme = some d.toFloat := by
  have hsign : readSign lexeme = (.positive, lexeme) := by
    unfold readSign
    split
    · cases h
    · cases h
    · rfl
  unfold Number.ofText?
  rw [hsign]
  dsimp only
  rw [h]
  rfl

theorem nameToken_ne_number (name : List Char) (x : Float) : nameToken name ≠ .number x := by
  unfold nameToken
  intro h
  split at h <;> cases h

/-- A number is found only where one starts. -/
theorem scanToken_eq_number {c : Char} {rest : List Char} {x : Float} {n : Nat}
    (h : scanToken c rest = .ok (.number x, n)) : startsNumber (c :: rest) = true ∧
      numberToken ((c :: rest).take (numberLength (c :: rest))) = .number x ∧
      numberLength (c :: rest) - 1 = n := by
  unfold scanToken at h
  split at h
  · split at h <;> cases h
  split at h
  · next hstarts =>
    exact ⟨hstarts, congrArg Prod.fst (Except.ok.inj h), congrArg Prod.snd (Except.ok.inj h)⟩
  split at h
  · exact absurd (congrArg Prod.fst (Except.ok.inj h)) (nameToken_ne_number _ _)
  · split at h <;> cases h

/-- The token of a number is a numeral. -/
theorem writtenIn_of_scanToken {c : Char} {rest : List Char} {x : Float} {n : Nat}
    (h : scanToken c rest = .ok (.number x, n)) : WrittenIn (c :: rest) x := by
  obtain ⟨hstarts, hx, -⟩ := scanToken_eq_number h
  obtain ⟨d, hd⟩ := readDecimal?_take hstarts
  rw [numberToken, ofText?_eq hd] at hx
  exact ⟨_, d, (List.take_prefix _ _).isInfix, hd, (TokenKind.number.inj hx).symm⟩

/-- The numbers among the tokens of a text are written in it. -/
theorem Scans.writtenIn {position : Nat} {text : List Char} {stream : TokenStream} {x : Float}
    (h : Scans position text stream) (hx : .number x ∈ stream.kinds) : WrittenIn text x := by
  induction h with
  | done => cases hx
  | space _ _ ih => exact (ih hx).mono (List.infix_cons List.infix_rfl)
  | @token _ _ rest kind n _ _ hscan _ ih =>
      rcases List.mem_cons.mp hx with hkind | hlater
      · obtain rfl : kind = .number x := hkind.symm
        exact writtenIn_of_scanToken hscan
      · exact (ih hlater).mono
          (((List.drop_suffix n rest).isInfix).trans (List.infix_cons List.infix_rfl))

/-! ## Trees -/

namespace Expr

mutual

/-- The numbers that a tree is made with, from left to right. -/
def numbers : Expr → List Float
  | .number x => [x]
  | .string _ | .boolean _ | .property _ => []
  | .binary _ left right => left.numbers ++ right.numbers
  | .unary _ operand => operand.numbers
  | .call _ args => numbersOfAll args
  | .conditional condition consequent alternate =>
    condition.numbers ++ consequent.numbers ++ alternate.numbers

/-- The numbers that some trees are made with, from left to right. -/
def numbersOfAll : List Expr → List Float
  | [] => []
  | e :: es => e.numbers ++ numbersOfAll es

end

end Expr

namespace Phrase

/-- The numbers in what a phrase means. -/
def numbers : (p : Phrase) → p.Meaning → List Float
  | expression, e | level _, e | links _ _, e | operand, e => e.numbers
  | arguments, es | list, es => Expr.numbersOfAll es

/-- The numbers in what a phrase goes on with. -/
def numbersBefore : Phrase → List Float
  | links _ left => left.numbers
  | expression | level _ | operand | arguments | list => []

end Phrase

/-- The numbers of a phrase are those of what it goes on with and those among its tokens. -/
theorem Derivation.mem_numbers {p : Phrase} {ts : List TokenKind} {r : p.Meaning}
    (d : Derivation p ts r) {x : Float} (h : x ∈ p.numbers r) :
    x ∈ p.numbersBefore ∨ .number x ∈ ts := by
  -- most phrases go on with nothing, and the tokens of a part are among those of the whole
  have hnone : ∀ {us : List TokenKind}, x ∈ ([] : List Float) ∨ .number x ∈ us →
      .number x ∈ us := fun h => h.resolve_left List.not_mem_nil
  induction d with
  | plain _ ih => exact ih h
  | conditional _ _ _ ihc iha ihb =>
      right
      rcases List.mem_append.mp h with h | h
      · rcases List.mem_append.mp h with h | h
        · exact List.mem_append_left _ (hnone (ihc h))
        · exact List.mem_append_right _ (.tail _ (List.mem_append_left _ (hnone (iha h))))
      · exact List.mem_append_right _ (.tail _ (List.mem_append_right _ (.tail _ (hnone (ihb h)))))
  | chain _ _ ih ih' =>
      right
      rcases ih' h with h | h
      · exact List.mem_append_left _ (hnone (ih h))
      · exact List.mem_append_right _ h
  | done => exact .inl h
  | link _ _ _ ih ih' =>
      rcases ih' h with h | h
      · rcases List.mem_append.mp h with h | h
        · exact .inl h
        · exact .inr (.tail _ (List.mem_append_left _ (hnone (ih h))))
      · exact .inr (.tail _ (List.mem_append_right _ h))
  | sign _ _ _ ih => exact .inr (.tail _ (hnone (ih h)))
  | unsigned _ ih => exact ih h
  | literal literal =>
      cases literal with
      | number y =>
          obtain rfl := List.mem_singleton.mp h
          exact .inr (List.mem_singleton_self _)
      | string | boolean => cases h
  | parenthesis _ ih => exact .inr (.tail _ (List.mem_append_left _ (hnone (ih h))))
  | call _ _ _ ih => exact .inr (.tail _ (.tail _ (List.mem_append_left _ (hnone (ih h)))))
  | property => cases h
  | noArguments => cases h
  | someArguments _ ih => exact ih h
  | last _ ih =>
      rw [Phrase.numbers, Expr.numbersOfAll, Expr.numbersOfAll, List.append_nil] at h
      exact ih h
  | more _ _ ih ih' =>
      right
      rcases List.mem_append.mp h with h | h
      · exact List.mem_append_left _ (hnone (ih h))
      · exact List.mem_append_right _ (.tail _ (hnone (ih' h)))

/-- **The numbers of a formula are those of the numerals in its text.** -/
theorem numbers_writtenIn {formula : String} {e : Expr} (h : parse formula = .ok e) {x : Float}
    (hx : x ∈ e.numbers) : WrittenIn formula.toList x := by
  obtain ⟨stream, hstream, d, -⟩ := parse_eq_ok_iff.mp h
  have htoken : .number x ∈ stream.kinds := (d.mem_numbers hx).resolve_left List.not_mem_nil
  exact (scans_of_tokensFrom hstream).writtenIn htoken

end FormulaTable.Formula
