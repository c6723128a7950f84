import FormulaTable.Formula.Library.Text
import FormulaTable.Proofs.Number.Digits
import Mathlib.Algebra.Order.BigOperators.Group.List
import Mathlib.Algebra.Order.Group.Nat

/-!
# The places of templates

A template reads in one way as places and single characters, from left to right: where a place can
start, one does. It is filled piece by piece, and what a place is filled with is not read. A place
is filled with the text of its number, and stays as it is if there is none.

Numbers of places are words of 64 bits, and the template is counted before the texts. So the place
with the greatest word as its number is filled with the template itself.
-/

namespace FormulaTable.Text

open Number (AllDigits NoDigitNext ofDigits noDigitNext_cons digits_append_inj)

variable {c : Char} {digits digits' s rest : List Char} {fields : List (List Char)}

/-! ## Pieces -/

/-- A place is digits in braces. -/
def placeText (digits : List Char) : List Char := '\x7b' :: (digits ++ ['\x7d'])

/-- The text starts with a place. -/
def StartsPlace (s : List Char) : Prop :=
  ∃ digits rest, AllDigits digits ∧ digits ≠ [] ∧ s = placeText digits ++ rest

/-- A piece of a template. -/
inductive Piece where
  | char (c : Char)
  | place (digits : List Char)

/-- How a piece is written. -/
def Piece.source : Piece → List Char
  | char c => [c]
  | place digits => placeText digits

/-- What a piece becomes where `field` has the texts for the places. -/
def Piece.filled (field : Nat → Option (List Char)) : Piece → List Char
  | char c => [c]
  | place digits => (field (ofDigits digits)).getD (placeText digits)

/-- The pieces of a template from left to right. A character is a piece where no place starts. -/
inductive ReadsAs : List Char → List Piece → Prop where
  | done : ReadsAs [] []
  | place {digits rest : List Char} {ps : List Piece} (hdigits : AllDigits digits)
      (hne : digits ≠ []) (h : ReadsAs rest ps) :
      ReadsAs (placeText digits ++ rest) (.place digits :: ps)
  | char {c : Char} {rest : List Char} {ps : List Piece} (hnone : ¬ StartsPlace (c :: rest))
      (h : ReadsAs rest ps) : ReadsAs (c :: rest) (.char c :: ps)

theorem not_startsPlace (hc : c ≠ '\x7b') (rest : List Char) : ¬ StartsPlace (c :: rest) := by
  rintro ⟨digits, rest', -, -, h⟩
  exact hc (List.cons.inj h).1

/-- A place has a digit after its opening brace. -/
theorem not_startsPlace_open (hc : c.isDigit = false) (rest : List Char) :
    ¬ StartsPlace ('\x7b' :: c :: rest) := by
  rintro ⟨digits, rest', hdigits, hne, h⟩
  obtain ⟨d, digits, rfl⟩ := List.exists_cons_of_ne_nil hne
  obtain rfl : c = d := (List.cons.inj (List.cons.inj h).2).1
  rw [hdigits c List.mem_cons_self] at hc
  cases hc

/-- A place at the start of a text is the only one there. -/
theorem placeText_append_inj (hdigits : AllDigits digits) (hdigits' : AllDigits digits')
    {rest' : List Char} (h : placeText digits ++ rest = placeText digits' ++ rest') :
    digits = digits' ∧ rest = rest' := by
  have hclose (rest : List Char) : NoDigitNext ('\x7d' :: rest) := noDigitNext_cons (by decide)
  rw [placeText, placeText, List.cons_append, List.cons_append, List.append_assoc,
    List.append_assoc] at h
  obtain ⟨rfl, hrest⟩ :=
    digits_append_inj hdigits hdigits' (hclose _) (hclose _) (List.cons.inj h).2
  exact ⟨rfl, (List.cons.inj hrest).2⟩

/-- Every template has pieces. -/
theorem exists_readsAs (s : List Char) : ∃ ps, ReadsAs s ps := by
  -- on the length, since a place has any number of characters
  induction hlength : s.length using Nat.strong_induction_on generalizing s with
  | _ length ih =>
  by_cases hplace : StartsPlace s
  · obtain ⟨digits, rest, hdigits, hne, rfl⟩ := hplace
    rw [List.length_append, placeText, List.length_cons] at hlength
    obtain ⟨ps, hps⟩ := ih rest.length (by omega) rest rfl
    exact ⟨_, .place hdigits hne hps⟩
  · cases s with
    | nil => exact ⟨[], .done⟩
    | cons c rest =>
        rw [List.length_cons] at hlength
        obtain ⟨ps, hps⟩ := ih rest.length (by omega) rest rfl
        exact ⟨_, .char hplace hps⟩

/-- It has no others. -/
theorem ReadsAs.unique {ps ps' : List Piece} (h : ReadsAs s ps) (h' : ReadsAs s ps') : ps = ps' := by
  induction h generalizing ps' with
  | done =>
      cases h' with
      | done => rfl
  | @place digits rest ps hdigits hne _ ih =>
      generalize htext : placeText digits ++ rest = text at h'
      cases h' with
      | done => cases htext
      | place hdigits' _ h' =>
          obtain ⟨rfl, rfl⟩ := placeText_append_inj hdigits hdigits' htext
          rw [ih h']
      | char hnone _ => exact absurd ⟨digits, rest, hdigits, hne, htext.symm⟩ hnone
  | @char c rest ps hnone _ ih =>
      generalize htext : c :: rest = text at h'
      cases h' with
      | done => cases htext
      | @place digits' rest' _ hdigits' hne' _ =>
          exact absurd ⟨digits', rest', hdigits', hne', htext⟩ hnone
      | char _ h' =>
          obtain ⟨rfl, rfl⟩ := List.cons.inj htext
          rw [ih h']

/-- The pieces make up the template. -/
theorem ReadsAs.source_eq {ps : List Piece} (h : ReadsAs s ps) : ps.flatMap Piece.source = s := by
  induction h with
  | done => rfl
  | place _ _ _ ih => rw [List.flatMap_cons, ih, Piece.source]
  | char _ _ ih =>
      rw [List.flatMap_cons, ih]
      rfl

/-! ## Filling -/

theorem fillAfter_open (rest : List Char) :
    fillAfter fields none ('\x7b' :: rest) = fillAfter fields (some []) rest := by
  rw [fillAfter, if_pos rfl]

theorem fillAfter_char (hc : c ≠ '\x7b') (rest : List Char) :
    fillAfter fields none (c :: rest) = c :: fillAfter fields none rest := by
  rw [fillAfter, if_neg hc]

/-- The digits of a place are read up to the closing brace. -/
theorem fillAfter_place (before : List Char) (hdigits : AllDigits digits)
    (hne : before ++ digits ≠ []) (rest : List Char) :
    fillAfter fields (some before) (digits ++ '\x7d' :: rest) =
      fillPlace fields (before ++ digits) ++ fillAfter fields none rest := by
  induction digits generalizing before with
  | nil =>
      rw [List.append_nil] at hne ⊢
      rw [List.nil_append, fillAfter, if_neg (by decide), if_pos ⟨rfl, hne⟩]
  | cons d digits ih =>
      rw [List.cons_append, fillAfter, if_pos (hdigits d List.mem_cons_self),
        ih _ (fun c hc => hdigits c (List.mem_cons_of_mem _ hc)) (by simp), List.append_assoc,
        List.singleton_append]

/-- An opening brace and digits that are no place stay. -/
theorem fillAfter_of_no_place (before : List Char) (hbefore : AllDigits before)
    (hnone : ¬ StartsPlace ('\x7b' :: (before ++ s))) :
    fillAfter fields (some before) s = '\x7b' :: (before ++ fillAfter fields none s) := by
  induction s generalizing before with
  | nil =>
      rw [fillAfter, fillAfter, List.append_nil]
  | cons c rest ih =>
      conv_lhs => rw [fillAfter]
      split
      · next hdigit =>
        have hbrace : c ≠ '\x7b' := by
          rintro rfl
          cases hdigit
        have hmore : before ++ [c] ++ rest = before ++ c :: rest := by
          rw [List.append_assoc, List.singleton_append]
        have hall : AllDigits (before ++ [c]) := hbefore.append (List.forall_mem_singleton.mpr hdigit)
        rw [ih _ hall (by rwa [hmore]), fillAfter_char hbrace, List.append_assoc,
          List.singleton_append]
      next hdigit =>
      split
      · next hclose =>
        obtain ⟨rfl, hne⟩ := hclose
        exact absurd ⟨before, rest, hbefore, hne, by simp [placeText]⟩ hnone
      split
      · next hopen =>
        rw [hopen, fillAfter_open]
        rfl
      · next hopen =>
        rw [fillAfter_char hopen]
        rfl

/-- A template is filled piece by piece. -/
theorem ReadsAs.fillAfter_eq {ps : List Piece} (h : ReadsAs s ps) :
    fillAfter fields none s = ps.flatMap (Piece.filled (fieldFor fields)) := by
  induction h with
  | done => rw [fillAfter, List.flatMap_nil]
  | @place digits rest ps hdigits hne _ ih =>
      rw [placeText, List.cons_append, List.append_assoc, List.singleton_append, fillAfter_open,
        fillAfter_place [] hdigits hne, ih]
      rfl
  | @char c rest ps hnone _ ih =>
      rw [List.flatMap_cons, ← ih]
      by_cases hopen : c = '\x7b'
      · rw [hopen] at hnone ⊢
        rw [fillAfter_open, fillAfter_of_no_place [] nofun hnone]
        rfl
      · exact fillAfter_char hopen rest

/-! ## The greatest place -/

/-- The greatest word as a number of a place. -/
def lastPlace : Nat := 2 ^ 64 - 1

/-- The texts for places, with the template for the greatest one. -/
def wrappedField (template : List Char) (texts : List (List Char)) (i : Nat) : Option (List Char) :=
  if i = lastPlace then some template else texts[i]?

variable {template : List Char} {texts : List (List Char)} {ps : List Piece}

/-- Fewer texts than words have no text for the greatest place. -/
theorem getElem?_lastPlace (h : texts.length < 2 ^ 64) : texts[lastPlace]? = none := by
  refine List.getElem?_eq_none ?_
  rw [lastPlace]
  omega

theorem fieldFor_eq (h : texts.length < 2 ^ 64) (i : Nat) :
    fieldFor (template :: texts) i = wrappedField template texts i := by
  rw [fieldFor, wrappedField, lastPlace]
  change (if i < 2 ^ 64 then (template :: texts)[(i + 1) % 2 ^ 64]? else none) = _
  by_cases hlast : i = 2 ^ 64 - 1
  · rw [if_pos hlast, if_pos (by omega), hlast]
    rfl
  rw [if_neg hlast]
  split
  · have hnext : (i + 1) % 2 ^ 64 = i + 1 := Nat.mod_eq_of_lt (by omega)
    rw [hnext, List.getElem?_cons_succ]
  · exact (List.getElem?_eq_none (by omega)).symm

/-- A template is filled with the texts, and with itself for the greatest place. -/
theorem fill_eq (h : texts.length < 2 ^ 64) (hps : ReadsAs template ps) :
    fill template texts = ps.flatMap (Piece.filled (wrappedField template texts)) := by
  rw [fill, hps.fillAfter_eq, funext (fieldFor_eq h)]

/-- A place of a template is part of it. -/
theorem ReadsAs.place_infix (hps : ReadsAs template ps) (h : .place digits ∈ ps) :
    placeText digits <:+: template := by
  obtain ⟨before, after, rfl⟩ := List.append_of_mem h
  refine ⟨before.flatMap Piece.source, after.flatMap Piece.source, ?_⟩
  rw [← hps.source_eq, List.flatMap_append, List.flatMap_cons, List.append_assoc]
  rfl

/-- Only the greatest place is filled otherwise than with the texts. -/
theorem filled_wrappedField (h : texts.length < 2 ^ 64) (p : Piece) :
    p.filled (wrappedField template texts) = p.filled (fun i => texts[i]?) ∨
      ∃ digits, p = .place digits ∧ ofDigits digits = lastPlace ∧
        p.filled (wrappedField template texts) = template ∧
        p.filled (fun i => texts[i]?) = placeText digits := by
  cases p with
  | char c => exact .inl rfl
  | place digits =>
      by_cases hlast : ofDigits digits = lastPlace
      · refine .inr ⟨digits, rfl, hlast, ?_, ?_⟩
        · rw [Piece.filled, wrappedField, if_pos hlast]
          rfl
        · rw [Piece.filled, hlast, getElem?_lastPlace h]
          rfl
      · left
        rw [Piece.filled, Piece.filled, wrappedField, if_neg hlast]

/-- Unless it is nothing but that place, the template is longer than it. -/
theorem length_filled_le (h : texts.length < 2 ^ 64) (hps : ReadsAs template ps) {p : Piece}
    (hp : p ∈ ps) : (p.filled fun i => texts[i]?).length ≤
      (p.filled (wrappedField template texts)).length := by
  obtain hsame | ⟨digits, rfl, -, hwrapped, hplace⟩ := filled_wrappedField h p
  · rw [hsame]
  · rw [hwrapped, hplace]
    exact (hps.place_infix hp).length_le

/-- A template is filled with the texts alone exactly if it has no greatest place, or is one. -/
theorem fill_eq_iff (h : texts.length < 2 ^ 64) (hps : ReadsAs template ps) :
    fill template texts = ps.flatMap (Piece.filled fun i => texts[i]?) ↔
      ∀ digits, .place digits ∈ ps → ofDigits digits = lastPlace → template = placeText digits := by
  rw [fill_eq h hps]
  constructor
  · intro hfill digits hmem hlast
    by_contra hne
    have hpart := hps.place_infix hmem
    have hshorter : (placeText digits).length < template.length :=
      Nat.lt_of_le_of_ne hpart.length_le fun heq => hne (hpart.eq_of_length heq).symm
    -- what this place is filled with is too long, and nothing else makes up for it
    have hsum := List.sum_lt_sum (l := ps) (fun p => (p.filled fun i => texts[i]?).length)
      (fun p => (p.filled (wrappedField template texts)).length)
      (fun p hp => length_filled_le h hps hp) ⟨.place digits, hmem, by
        rw [Piece.filled, Piece.filled, wrappedField, if_pos hlast, hlast, getElem?_lastPlace h]
        exact hshorter⟩
    have hlength := congrArg List.length hfill
    rw [List.length_flatMap, List.length_flatMap] at hlength
    exact absurd hlength hsum.ne'
  · intro hlast
    refine List.flatMap_congr fun p hp => ?_
    obtain hsame | ⟨digits, rfl, hnumber, hwrapped, hplace⟩ := filled_wrappedField h p
    · exact hsame
    · rw [hwrapped, hplace]
      exact hlast digits hp hnumber

end FormulaTable.Text

namespace FormulaTable.Formula.Library

open Number (ofDigits)
open Text (Piece ReadsAs placeText lastPlace)

/-- The text for a place of a template, which is the first of the arguments. -/
def placeArg (args : List Value) (i : Nat) : Option (List Char) := args[i + 1]?.map Value.chars

/-- The same with the template for the greatest place. -/
def wrappedArg (args : List Value) (i : Nat) : Option (List Char) :=
  if i = lastPlace then args.head?.map Value.chars else placeArg args i

variable {template first : Value} {others : List Value} {ps : List Piece}

theorem ofChars_inj {s t : List Char} : Value.ofChars s = .ofChars t ↔ s = t := by
  rw [Value.ofChars, Value.ofChars, Value.text.injEq, String.ofList_inj]

theorem format_eq (template first : Value) (others : List Value) :
    format (template :: first :: others) =
      .ofChars (Text.fill template.chars ((first :: others).map Value.chars)) := by
  rw [format, if_neg (by simp)]
  rfl

end FormulaTable.Formula.Library
