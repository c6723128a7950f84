import FormulaTable.Json.Text
import FormulaTable.Proofs.Json.Quoted
import FormulaTable.Proofs.Number.Digits

/-!
# Tokens read back

The texts of the tokens of a JSON text read back as those tokens. A numeral has to be followed by a
mark or the end, so that it does not run on into what comes after it.
-/

namespace FormulaTable.Json

open Number

variable {rest : List Char} {t : Token}

/-! ## Numerals -/

/-- What follows a value in a text without white space: a mark, if anything. -/
def Delimited (rest : List Char) : Prop := ∀ c ∈ rest.head?, c = ',' ∨ c = ']' ∨ c = '\x7d'

namespace Numeral

/-- The numeral is written as JSON has it: digits before the point with no leading zero, and digits
after it. -/
structure WellFormed (n : Numeral) : Prop where
  whole : AllDigits n.whole
  whole_ne_nil : n.whole ≠ []
  no_leading_zero : n.whole.head? = some '0' → n.whole = ['0']
  fraction : AllDigits n.fraction

end Numeral

theorem Delimited.noDigitNext (h : Delimited rest) : NoDigitNext rest := by
  intro c hc
  rcases h c hc with rfl | rfl | rfl <;> decide

theorem Delimited.head?_ne (h : Delimited rest) {c : Char} (hc : c ≠ ',' ∧ c ≠ ']' ∧ c ≠ '\x7d') :
    rest.head? ≠ some c := by
  intro hrest
  rcases h c hrest with rfl | rfl | rfl
  · exact hc.1 rfl
  · exact hc.2.1 rfl
  · exact hc.2.2 rfl

namespace Numeral

theorem scanDigits_append {ds : List Char} (hds : AllDigits ds) (hne : ds ≠ [])
    (hrest : NoDigitNext rest) : scanDigits (ds ++ rest) = some (ds, rest) := by
  unfold scanDigits
  rw [takeWhile_append hds hrest, dropWhile_append hds hrest, if_neg (mt List.isEmpty_iff.mp hne)]

theorem scanWhole_append {n : Numeral} (h : n.WellFormed) (hrest : NoDigitNext rest) :
    scanWhole (n.whole ++ rest) = some (n.whole, rest) := by
  by_cases hzero : n.whole.head? = some '0'
  · rw [h.no_leading_zero hzero]
    rfl
  · rw [scanWhole]
    · exact scanDigits_append h.whole h.whole_ne_nil hrest
    · intro s hs
      cases hwhole : n.whole with
      | nil => exact h.whole_ne_nil hwhole
      | cons c ds =>
        rw [hwhole] at hs hzero
        exact hzero (congrArg some (List.cons.inj hs).1)

theorem scanFraction_append {n : Numeral} (h : n.WellFormed) (hrest : NoDigitNext rest)
    (hpoint : rest.head? ≠ some '.') :
    scanFraction ((if n.fraction.isEmpty then [] else '.' :: n.fraction) ++ rest) =
      some (n.fraction, rest) := by
  split
  · next hempty =>
    rw [List.isEmpty_iff.mp hempty, List.nil_append, scanFraction]
    rintro s rfl
    exact hpoint rfl
  · next hne =>
    change scanDigits (n.fraction ++ rest) = _
    exact scanDigits_append h.fraction (mt List.isEmpty_iff.mpr hne) hrest

theorem scanExponent_of_delimited (hrest : Delimited rest) :
    scanExponent rest = some (none, rest) := by
  cases rest with
  | nil => rfl
  | cons c s =>
    rw [scanExponent, if_neg]
    rcases hrest c rfl with rfl | rfl | rfl <;> decide

/-- The sign of an exponent is always written, and applied to its magnitude. -/
theorem readSign_exponent (e : Int) (s : List Char) :
    ∃ sign, readSign ((if e < 0 then '-' else '+') :: s) = (sign, s) ∧
      withSignInt sign e.natAbs = e := by
  split
  · next hneg => exact ⟨.negative, rfl, show -(e.natAbs : Int) = e by omega⟩
  · next hneg => exact ⟨.positive, rfl, show (e.natAbs : Int) = e by omega⟩

theorem scanExponent_exponentText (e : Int) (hrest : NoDigitNext rest) :
    scanExponent (exponentText e ++ rest) = some (some e, rest) := by
  obtain ⟨sign, hsign, hvalue⟩ := readSign_exponent e (Nat.toDigits 10 e.natAbs ++ rest)
  change scanExponent
    ('e' :: (if e < 0 then '-' else '+') :: (Nat.toDigits 10 e.natAbs ++ rest)) = _
  rw [scanExponent, if_pos (by decide), hsign,
    scanDigits_append (allDigits_toDigits _) Nat.toDigits_ne_nil hrest, Option.map_some]
  dsimp only
  rw [ofDigits_toDigits, hvalue]

theorem scanExponent_append (e : Option Int) (hrest : Delimited rest) :
    scanExponent ((e.map exponentText).getD [] ++ rest) = some (e, rest) := by
  cases e with
  | none => exact scanExponent_of_delimited hrest
  | some e => exact scanExponent_exponentText e hrest.noDigitNext

/-- Neither a digit nor a point follows the fraction. -/
theorem exponent_append (e : Option Int) (hrest : Delimited rest) :
    NoDigitNext ((e.map exponentText).getD [] ++ rest) ∧
      ((e.map exponentText).getD [] ++ rest).head? ≠ some '.' := by
  cases e with
  | none => exact ⟨hrest.noDigitNext, hrest.head?_ne (by decide)⟩
  | some e => exact ⟨noDigitNext_cons (by decide), fun h => absurd (Option.some.inj h) (by decide)⟩

theorem noDigitNext_fraction {fraction : List Char} (hrest : NoDigitNext rest) :
    NoDigitNext ((if fraction.isEmpty then [] else '.' :: fraction) ++ rest) := by
  split
  · exact hrest
  · exact noDigitNext_cons (by decide)

/-- A numeral reads back as far as what follows it does not go on with it. -/
theorem scan_append {n : Numeral} (h : n.WellFormed) (hrest : Delimited rest) :
    scan (n.text ++ rest) = some (n, rest) := by
  obtain ⟨hdigit, hpoint⟩ := exponent_append n.exponent hrest
  have hunsigned : scanUnsigned n.negative (n.whole ++ ((if n.fraction.isEmpty then [] else
      '.' :: n.fraction) ++ ((n.exponent.map exponentText).getD [] ++ rest))) = some (n, rest) := by
    unfold scanUnsigned
    rw [scanWhole_append h (noDigitNext_fraction hdigit)]
    change (scanFraction _).bind _ = _
    rw [scanFraction_append h hdigit hpoint]
    change (scanExponent _).bind _ = _
    rw [scanExponent_append n.exponent hrest]
    rfl
  unfold text
  simp only [List.append_assoc]
  cases hsign : n.negative with
  | true => 
    rw [hsign] at hunsigned
    exact hunsigned
  | false =>
    rw [hsign] at hunsigned
    change scan (n.whole ++ _) = _
    rw [scan]
    · exact hunsigned
    · intro s hs
      cases hwhole : n.whole with
      | nil => exact h.whole_ne_nil hwhole
      | cons c ds =>
        rw [hwhole] at hs
        exact absurd (h.whole c (hwhole ▸ List.mem_cons_self))
          (by rw [(List.cons.inj hs).1]; decide)

/-- A numeral starts with a digit or a minus. -/
theorem exists_text_eq_cons {n : Numeral} (h : n.WellFormed) :
    ∃ c s, n.text = c :: s ∧ (c = '-' ∨ c.isDigit = true) := by
  unfold text
  cases n.negative with
  | true => exact ⟨'-', _, rfl, .inl rfl⟩
  | false =>
    cases hwhole : n.whole with
    | nil => exact absurd hwhole h.whole_ne_nil
    | cons c ds => exact ⟨c, _, rfl, .inr (h.whole c (hwhole ▸ List.mem_cons_self))⟩

end Numeral

/-! ## Tokens -/

/-- The token reads back from its text. -/
def Token.Readable : Token → Prop
  | .number n => n.WellFormed
  | .string text => text.isSome = true
  | _ => True

/-- Only a numeral has to be followed by a mark or the end. -/
def Token.mayPrecede (t : Token) (rest : List Char) : Prop :=
  match t with
  | .number _ => Delimited rest
  | _ => True

theorem scanToken_number {n : Numeral} (h : n.WellFormed) (hrest : Delimited rest) :
    scanToken (n.text ++ rest) = some (.number n, rest) := by
  have hscan := Numeral.scan_append h hrest
  obtain ⟨c, s, htext, hc⟩ := Numeral.exists_text_eq_cons h
  rw [htext] at hscan ⊢
  have hne {d : Char} (hd : d ≠ '-' ∧ d.isDigit = false) : c ≠ d := by
    rintro rfl
    rcases hc with rfl | hc
    · exact hd.1 rfl
    · rw [hd.2] at hc
      cases hc
  have hmark : Mark.ofChar? c = none := by
    unfold Mark.ofChar?
    split
    · exact absurd rfl (hne (by decide))
    · exact absurd rfl (hne (by decide))
    · exact absurd rfl (hne (by decide))
    · exact absurd rfl (hne (by decide))
    · exact absurd rfl (hne (by decide))
    · exact absurd rfl (hne (by decide))
    · rfl
  rw [List.cons_append] at hscan ⊢
  rw [scanToken]
  · rw [hmark]
    dsimp only
    rw [hscan]
    rfl
  · exact fun _ h _ => hne (by decide) h
  · exact fun _ h _ => hne (by decide) h
  · exact fun _ h _ => hne (by decide) h
  · exact hne (by decide)

/-- A token reads back as far as what follows it does not go on with it. -/
theorem scanToken_text (ht : t.Readable) (hrest : t.mayPrecede rest) :
    scanToken (t.text ++ rest) = some (t, rest) := by
  cases t with
  | mark m => cases m <;> rfl
  | null => rfl
  | boolean b => cases b <;> rfl
  | number n => exact scanToken_number ht hrest
  | string text =>
    obtain ⟨s, rfl⟩ := Option.isSome_iff_exists.mp ht
    change scanToken ('"' :: (s.toList.flatMap escape ++ ['"']) ++ rest) = _
    rw [List.cons_append, List.append_assoc, scanToken]
    change (scanString (s.toList.flatMap escape ++ '"' :: rest)).map _ = _
    rw [scanString_quote, String.ofList_toList]
    rfl

theorem isBlank_eq_false {c : Char} (h : c = '-' ∨ c.isDigit = true) : isBlank c = false := by
  rw [← Bool.not_eq_true]
  intro hblank
  simp only [isBlank, Bool.or_eq_true, beq_iff_eq] at hblank
  rcases hblank with ((rfl | rfl) | rfl) | rfl
  · exact absurd h (by decide)
  · exact absurd h (by decide)
  · exact absurd h (by decide)
  · exact absurd h (by decide)

/-- A token does not start with white space. -/
theorem exists_text_eq_cons (ht : t.Readable) : ∃ c s, t.text = c :: s ∧ isBlank c = false := by
  cases t with
  | mark m => exact ⟨m.char, [], rfl, by cases m <;> decide⟩
  | null => exact ⟨'n', _, rfl, by decide⟩
  | boolean b =>
    cases b with
    | true => exact ⟨'t', _, rfl, by decide⟩
    | false => exact ⟨'f', _, rfl, by decide⟩
  | number n =>
    obtain ⟨c, s, htext, hc⟩ := Numeral.exists_text_eq_cons ht
    exact ⟨c, s, htext, isBlank_eq_false hc⟩
  | string text => exact ⟨'"', _, rfl, by decide⟩

/-- The tokens of a text start with the token that its first characters spell. -/
theorem tokens?_text_append (ht : t.Readable) (hrest : t.mayPrecede rest) :
    tokens? (t.text ++ rest) = (tokens? rest).map (t :: ·) := by
  have hscan := scanToken_text ht hrest
  obtain ⟨c, s, htext, hblank⟩ := exists_text_eq_cons ht
  rw [htext, List.cons_append] at hscan ⊢
  rw [tokens?, if_neg (by rw [hblank]; exact Bool.false_ne_true)]
  split
  · next hnone =>
    rw [hscan] at hnone
    cases hnone
  · next t' rest' hsome =>
    rw [hscan] at hsome
    cases hsome
    rfl

end FormulaTable.Json
