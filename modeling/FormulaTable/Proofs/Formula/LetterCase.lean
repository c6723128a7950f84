import FormulaTable.Proofs.Formula.TokenChanges
import FormulaTable.Proofs.Formula.TokenEnds
import FormulaTable.Proofs.Text.AsciiCase

/-!
# Capital and small letters in formulas

Outside strings it does not matter whether an ASCII letter is a capital or a small one: numbers and
signs are the same, and names have the same small letters.
-/

namespace FormulaTable.Formula

open Number (AllDigits readSign readExponent? readDecimal? readWord?)
open Text (isSpace asciiCapitals mem_asciiCapitals apply_toLower apply_eq_of_toLower_eq
  toLower_eq_iff eq_of_toLower_eq takeWhile_toLower dropWhile_toLower)

variable {c d : Char} {s t rest rest' : List Char}

/-! ## Numbers -/

theorem isDigit_toLower : ∀ c : Char, c.toLower.isDigit = c.isDigit :=
  apply_toLower (by decide)

theorem exponentMark_toLower (c : Char) :
    (c.toLower = 'e' ∨ c.toLower = 'E') ↔ (c = 'e' ∨ c = 'E') := by
  let mark (c : Char) : Bool := c = 'e' ∨ c = 'E'
  have hmark : mark c.toLower = mark c := apply_toLower (by decide) c
  exact decide_eq_decide.mp hmark

/-- Digits have no case. -/
theorem map_toLower_of_allDigits {ds : List Char} (h : AllDigits ds) :
    ds.map Char.toLower = ds := by
  have hfixed : ∀ d ∈ ds, d.toLower = d := by
    intro d hd
    by_contra hne
    have hcapitals : (asciiCapitals.all fun c => !c.isDigit) = true := by decide
    have hdigit := List.all_eq_true.mp hcapitals d (mem_asciiCapitals hne)
    rw [h d hd] at hdigit
    cases hdigit
  rw [List.map_congr_left hfixed, List.map_id']

theorem takeWhile_isDigit_toLower (s : List Char) :
    (s.map Char.toLower).takeWhile Char.isDigit = s.takeWhile Char.isDigit := by
  rw [takeWhile_toLower isDigit_toLower, map_toLower_of_allDigits (allDigits_takeWhile s)]

theorem fractionLength_toLower (s : List Char) :
    fractionLength (s.map Char.toLower) = fractionLength s := by
  cases s with
  | nil => rfl
  | cons c s =>
      have hpoint : c.toLower = '.' ↔ c = '.' := toLower_eq_iff (by decide)
      by_cases hc : c = '.'
      · subst hc
        exact congrArg (fun ds => 1 + ds.length) (takeWhile_isDigit_toLower s)
      · simp [fractionLength, hc, hpoint]

theorem signLength_toLower (s : List Char) : signLength (s.map Char.toLower) = signLength s := by
  cases s with
  | nil => rfl
  | cons c s =>
      have hplus : c.toLower = '+' ↔ c = '+' := toLower_eq_iff (by decide)
      have hminus : c.toLower = '-' ↔ c = '-' := toLower_eq_iff (by decide)
      by_cases hc : c = '+'
      · subst hc
        rfl
      by_cases hc' : c = '-'
      · subst hc'
        rfl
      simp [signLength, hplus, hminus, hc, hc']

theorem digitsAfterSign_toLower (s : List Char) :
    digitsAfterSign (s.map Char.toLower) = digitsAfterSign s := by
  unfold digitsAfterSign
  rw [signLength_toLower, ← List.map_drop, takeWhile_isDigit_toLower]

theorem exponentLength_toLower (s : List Char) :
    exponentLength (s.map Char.toLower) = exponentLength s := by
  cases s with
  | nil => rfl
  | cons c s =>
      rw [List.map_cons, exponentLength_cons, exponentLength_cons, signLength_toLower,
        digitsAfterSign_toLower]
      simp only [exponentMark_toLower]

theorem numberLength_toLower (s : List Char) :
    numberLength (s.map Char.toLower) = numberLength s := by
  unfold numberLength
  dsimp only
  rw [takeWhile_isDigit_toLower, ← List.map_drop, fractionLength_toLower, ← List.map_drop,
    exponentLength_toLower]

theorem startsNumber_toLower (s : List Char) :
    startsNumber (s.map Char.toLower) = startsNumber s := by
  cases s with
  | nil => rfl
  | cons c s =>
      have hpoint : c.toLower = '.' ↔ c = '.' := toLower_eq_iff (by decide)
      by_cases hc : c = '.'
      · subst hc
        cases s with
        | nil => rfl
        | cons d s => exact isDigit_toLower d
      · simp [startsNumber, hc, hpoint, isDigit_toLower]

/-! ## The value of a number -/

theorem readSign_toLower (s : List Char) :
    readSign (s.map Char.toLower) = ((readSign s).1, (readSign s).2.map Char.toLower) := by
  cases s with
  | nil => rfl
  | cons c s =>
      have hplus : c.toLower = '+' ↔ c = '+' := toLower_eq_iff (by decide)
      have hminus : c.toLower = '-' ↔ c = '-' := toLower_eq_iff (by decide)
      by_cases hc : c = '+'
      · subst hc
        rfl
      by_cases hc' : c = '-'
      · subst hc'
        rfl
      simp [readSign, hplus, hminus, hc, hc']

theorem readExponent?_toLower (s : List Char) :
    readExponent? (s.map Char.toLower) = readExponent? s := by
  cases s with
  | nil => rfl
  | cons c s =>
      have hall (ds : List Char) : (ds.map Char.toLower).all Char.isDigit = ds.all Char.isDigit := by
        rw [List.all_map]
        exact congrArg ds.all (funext isDigit_toLower)
      rw [List.map_cons, readExponent?, readExponent?, readSign_toLower]
      dsimp only
      simp only [exponentMark_toLower, List.isEmpty_map, hall]
      split
      · split
        · rfl
        · next hdigits =>
          have hds : AllDigits (readSign s).2 := by
            rw [Bool.not_eq_true, Bool.or_eq_false_iff, Bool.not_eq_false'] at hdigits
            exact List.all_eq_true.mp hdigits.2
          rw [map_toLower_of_allDigits hds]
      · rfl

theorem readDecimal?_toLower (s : List Char) :
    readDecimal? (s.map Char.toLower) = readDecimal? s := by
  unfold readDecimal?
  rw [takeWhile_isDigit_toLower, dropWhile_toLower isDigit_toLower]
  generalize s.dropWhile Char.isDigit = t
  cases t with
  | nil => rfl
  | cons c t =>
      have hpoint : c.toLower = '.' ↔ c = '.' := toLower_eq_iff (by decide)
      by_cases hc : c = '.'
      · subst hc
        have hmap : ('.' :: t).map Char.toLower = '.' :: t.map Char.toLower := rfl
        rw [hmap]
        simp only [takeWhile_isDigit_toLower, dropWhile_toLower isDigit_toLower,
          readExponent?_toLower]
      · have hexponent := readExponent?_toLower (c :: t)
        rw [List.map_cons] at hexponent ⊢
        simp [hc, hpoint, hexponent]

theorem readWord?_toLower (s : List Char) : readWord? (s.map Char.toLower) = readWord? s := by
  unfold readWord?
  rw [List.map_map, Function.comp_def, funext Text.toLower_toLower]

/-- **A number is read in any case.** -/
theorem ofText?_toLower (s : List Char) :
    Number.ofText? (s.map Char.toLower) = Number.ofText? s := by
  unfold Number.ofText?
  rw [readSign_toLower]
  dsimp only
  rw [readDecimal?_toLower, readWord?_toLower]

theorem numberToken_toLower (lexeme : List Char) :
    numberToken (lexeme.map Char.toLower) = numberToken lexeme := by
  unfold numberToken
  rw [ofText?_toLower]

/-! ## Names -/

theorem startsName_toLower : ∀ c : Char, startsName c.toLower = startsName c :=
  apply_toLower (by decide)

theorem continuesName_toLower : ∀ c : Char, continuesName c.toLower = continuesName c :=
  apply_toLower (by decide)

/-- Names that differ in the case of ASCII letters are the same word, or have the same small letters.
-/
theorem nameToken_respell {name name' : List Char}
    (h : name.map Char.toLower = name'.map Char.toLower) :
    (nameToken name).respell .small = (nameToken name').respell .small := by
  have hfold := Text.fold_eq_of_toLower_eq h
  unfold nameToken
  rw [h]
  split <;> first | rfl | exact congrArg TokenKind.identifier hfold

/-! ## Signs -/

/-- Signs have no case. -/
theorem sign?_of_toLower_eq {c' : Char} (hc : c'.toLower = c.toLower)
    (hrest : rest'.map Char.toLower = rest.map Char.toLower) {sign : Symbol} {n : Nat}
    (h : sign? (c :: rest) = some (sign, n)) : sign? (c' :: rest') = some (sign, n) := by
  obtain ⟨hsign, hcases⟩ := sign?_cases h
  obtain rfl : c' = c := eq_of_toLower_eq hc hsign
  have hhead := congrArg List.head? hrest
  rw [List.head?_map, List.head?_map] at hhead
  -- a second character that belongs to the sign, or would make it longer, is no letter
  have hsecond (d : Char) (hd : d.isAlpha = false) : rest'.head? = some d ↔ rest.head? = some d := by
    have hiff (r : List Char) : r.head? = some d ↔ r.head?.map Char.toLower = some d := by
      rw [Option.map_eq_some_iff]
      simp only [toLower_eq_iff hd, exists_eq_right]
    rw [hiff, hiff, hhead]
  rcases hcases with ⟨rfl, halone, hone⟩ | ⟨rfl, d, hd, halpha, -, htwo⟩
  · cases rest' with
    | nil => exact halone
    | cons d rest' => exact hone d rest' fun hd => (hsecond '=' rfl).mp (congrArg some hd)
  · obtain ⟨tail, rfl⟩ := List.head?_eq_some_iff.mp ((hsecond d halpha).mpr hd)
    exact htwo tail

/-! ## Tokens -/

variable {c' : Char} {kind : TokenKind} {n : Nat}

/-- A string that does not change is the same token. -/
theorem scanString_of_take_eq {quote : Char} {content : List Char}
    (h : scanString quote rest = some (content, n)) (hsame : rest'.take n = rest.take n) :
    scanString quote rest' = some (content, n) := by
  obtain ⟨s, after, -, rfl, rfl, hscan⟩ := scanString_eq_some h
  have htaken : (s ++ quote :: after).take (s.length + 1) = s ++ [quote] := by
    rw [List.append_cons, List.take_left' (by rw [List.length_append, List.length_singleton])]
  rw [htaken] at hsame
  have htext : rest' = s ++ quote :: rest'.drop (s.length + 1) := by
    rw [List.append_cons, ← hsame, List.take_append_drop]
  rw [htext]
  exact hscan _

/-- **The token that a text starts with is the same token, or a name with the same small letters, in
any case of the ASCII letters.** The characters of a string must not change. -/
theorem scanToken_of_toLower_eq (hc : c'.toLower = c.toLower)
    (hrest : rest'.map Char.toLower = rest.map Char.toLower)
    (hstring : c = '"' ∨ c = '\'' → rest'.take n = rest.take n)
    (h : scanToken c rest = .ok (kind, n)) :
    ∃ kind', scanToken c' rest' = .ok (kind', n) ∧ kind'.respell .small = kind.respell .small := by
  have htext : (c' :: rest').map Char.toLower = (c :: rest).map Char.toLower := by
    rw [List.map_cons, List.map_cons, hc, hrest]
  have hquote : (c' = '"' ∨ c' = '\'') ↔ (c = '"' ∨ c = '\'') := by
    have hiff (q : Char) (hq : q.isAlpha = false) : c' = q ↔ c = q := by
      rw [← toLower_eq_iff hq, hc, toLower_eq_iff hq]
    rw [hiff '"' (by decide), hiff '\'' (by decide)]
  have hnumber : startsNumber (c' :: rest') = startsNumber (c :: rest) :=
    apply_eq_of_toLower_eq startsNumber_toLower htext
  have hname : startsName c' = startsName c := by
    rw [← startsName_toLower, hc, startsName_toLower]
  unfold scanToken at h ⊢
  simp only [hquote, hnumber, hname]
  split at h
  · next hstart =>
    have hsame : c' = c := by
      refine eq_of_toLower_eq hc ?_
      rcases hstart with rfl | rfl <;> rfl
    rw [if_pos hstart, hsame]
    split at h
    · next content m hscan =>
      obtain ⟨rfl, rfl⟩ := Prod.mk.inj (Except.ok.inj h)
      rw [scanString_of_take_eq hscan (hstring hstart)]
      exact ⟨_, rfl, rfl⟩
    · cases h
  · next hstart =>
    rw [if_neg hstart]
    split at h
    · next hstarts =>
      rw [if_pos hstarts]
      have hlength : numberLength (c' :: rest') = numberLength (c :: rest) :=
        apply_eq_of_toLower_eq numberLength_toLower htext
      have htoken (m : Nat) : numberToken ((c' :: rest').take m) =
          numberToken ((c :: rest).take m) := by
        refine apply_eq_of_toLower_eq numberToken_toLower ?_
        rw [List.map_take, htext, List.map_take]
      obtain ⟨rfl, rfl⟩ := Prod.mk.inj (Except.ok.inj h)
      rw [hlength, htoken]
      exact ⟨_, rfl, rfl⟩
    next hstarts =>
    rw [if_neg hstarts]
    split at h
    · next hstarts =>
      rw [if_pos hstarts]
      have hmore : (rest'.takeWhile continuesName).map Char.toLower =
          (rest.takeWhile continuesName).map Char.toLower := by
        rw [← takeWhile_toLower continuesName_toLower, hrest,
          takeWhile_toLower continuesName_toLower]
      have hlength := congrArg List.length hmore
      rw [List.length_map, List.length_map] at hlength
      obtain ⟨rfl, rfl⟩ := Prod.mk.inj (Except.ok.inj h)
      rw [hlength]
      refine ⟨_, rfl, nameToken_respell ?_⟩
      rw [List.map_cons, List.map_cons, hc, hmore]
    · next hstarts =>
      rw [if_neg hstarts]
      split at h
      · next s m hsign =>
        obtain ⟨rfl, rfl⟩ := Prod.mk.inj (Except.ok.inj h)
        rw [sign?_of_toLower_eq hc hrest hsign]
        exact ⟨_, rfl, rfl⟩
      · cases h

/-! ## Texts -/

variable {position : Nat} {text text' : List Char} {stream stream' : TokenStream}

/-- The tokens with the small letters of their names, at the same places. -/
def TokenStream.small (stream : TokenStream) : TokenStream := stream.change id .small

theorem Scans.position_le {t : Token} (h : Scans position text stream) (ht : t ∈ stream.tokens) :
    position ≤ t.position := by
  induction h with
  | done => cases ht
  | space _ _ ih => exact Nat.le_of_succ_le (ih ht)
  | token _ _ _ ih =>
      rcases List.mem_cons.mp ht with rfl | ht
      · exact Nat.le_refl _
      · have hle := ih ht
        omega

/-- The place lies in a string of the formula, or is one of its quotes. -/
def InString (text : List Char) (stream : TokenStream) (i : Nat) : Prop :=
  ∃ t ∈ stream.tokens, ∃ quote rest content n, (quote = '"' ∨ quote = '\'') ∧
    text.drop t.position = quote :: rest ∧ scanString quote rest = some (content, n) ∧
    t.position ≤ i ∧ i ≤ t.position + n

/-- The strings of a text that stands after `position` characters are in the other text, too. -/
def SameStrings (position : Nat) (text text' : List Char) (tokens : List Token) : Prop :=
  ∀ t ∈ tokens, ∀ quote rest content n, (quote = '"' ∨ quote = '\'') →
    text.drop (t.position - position) = quote :: rest →
    scanString quote rest = some (content, n) →
    (text'.drop (t.position - position)).take (n + 1) =
      (text.drop (t.position - position)).take (n + 1)

theorem sameStrings_of_inString
    (h : ∀ i, InString text stream i → text'[i]? = text[i]?) :
    SameStrings 0 text text' stream.tokens := by
  intro t ht quote rest content n hquote hdrop hscan
  rw [Nat.sub_zero] at hdrop ⊢
  refine List.ext_getElem? fun i => ?_
  rw [List.getElem?_take, List.getElem?_take]
  split
  · next hi =>
    rw [List.getElem?_drop, List.getElem?_drop]
    exact h _ ⟨t, ht, quote, rest, content, n, hquote, hdrop, hscan, by omega, by omega⟩
  · rfl

/-- Some characters on, the strings are the same. -/
theorem SameStrings.drop {tokens : List Token} (h : SameStrings position text text' tokens)
    {k : Nat} (hk : ∀ t ∈ tokens, position + k ≤ t.position) :
    SameStrings (position + k) (text.drop k) (text'.drop k) tokens := by
  intro t ht quote rest content n hquote hdrop hscan
  have hplace : k + (t.position - (position + k)) = t.position - position := by
    have hle := hk t ht
    omega
  rw [List.drop_drop, hplace] at hdrop
  rw [List.drop_drop, List.drop_drop, hplace]
  exact h t ht quote rest content n hquote hdrop hscan

/-- A quote starts a string only. -/
theorem exists_scanString (hquote : c = '"' ∨ c = '\'') (h : scanToken c rest = .ok (kind, n)) :
    ∃ content, scanString c rest = some (content, n) := by
  unfold scanToken at h
  rw [if_pos hquote] at h
  split at h
  · next content m hscan =>
    obtain ⟨-, rfl⟩ := Prod.mk.inj (Except.ok.inj h)
    exact ⟨content, hscan⟩
  · cases h

/-- **A text has the same tokens, up to the case of their names, in any case of the ASCII letters
outside its strings.** -/
theorem Scans.recase (h : Scans position text stream)
    (hlower : text'.map Char.toLower = text.map Char.toLower)
    (hstrings : SameStrings position text text' stream.tokens) :
    ∃ stream', Scans position text' stream' ∧ stream'.small = stream.small := by
  induction h generalizing text' with
  | done position =>
      obtain rfl := List.map_eq_nil_iff.mp hlower
      exact ⟨_, .done position, rfl⟩
  | @space position c rest stream hspace htail ih =>
      obtain ⟨c', rest', rfl, hc, hrest⟩ := List.map_eq_cons_iff.mp hlower
      have hspace' : isSpace c' = true := by
        rw [← Text.isSpace_toLower, hc, Text.isSpace_toLower, hspace]
      have hstrings' : SameStrings (position + 1) rest rest' stream.tokens :=
        hstrings.drop fun t ht => htail.position_le ht
      obtain ⟨stream', hstream', hsmall⟩ := ih hrest hstrings'
      exact ⟨stream', .space hspace' hstream', hsmall⟩
  | @token position c rest kind n stream hspace hscan htail ih =>
      obtain ⟨c', rest', rfl, hc, hrest⟩ := List.map_eq_cons_iff.mp hlower
      have hspace' : isSpace c' = false := by
        rw [← Text.isSpace_toLower, hc, Text.isSpace_toLower, hspace]
      have hstring (hquote : c = '"' ∨ c = '\'') : rest'.take n = rest.take n := by
        obtain ⟨content, hcontent⟩ := exists_scanString hquote hscan
        have hsame := hstrings ⟨kind, position⟩ (List.mem_cons_self ..) c rest content n hquote
        rw [Nat.sub_self, List.drop_zero, List.drop_zero] at hsame
        exact (List.cons.inj (hsame rfl hcontent)).2
      have htokens : SameStrings position (c :: rest) (c' :: rest') stream.tokens :=
        fun t ht => hstrings t (List.mem_cons_of_mem _ ht)
      have hstrings' : SameStrings (position + 1 + n) (rest.drop n) (rest'.drop n)
          stream.tokens := by
        have hdrop := htokens.drop (k := n + 1) fun t ht => by
          have hle := htail.position_le ht
          omega
        rwa [Nat.add_comm n, ← Nat.add_assoc, Nat.add_comm 1] at hdrop
      have hlower' : (rest'.drop n).map Char.toLower = (rest.drop n).map Char.toLower := by
        rw [List.map_drop, hrest, List.map_drop]
      obtain ⟨kind', hscan', hkind⟩ := scanToken_of_toLower_eq hc hrest hstring hscan
      obtain ⟨stream', hstream', hsmall⟩ := ih hlower' hstrings'
      refine ⟨_, .token hspace' hscan' hstream', ?_⟩
      have hcons (k : TokenKind) (s : TokenStream) :
          TokenStream.small { s with tokens := ⟨k, position⟩ :: s.tokens } =
            { s.small with tokens := ⟨k.respell .small, position⟩ :: s.small.tokens } := rfl
      rw [hcons, hcons, hsmall, hkind]

/-! ## Formulas -/

/-- Formulas whose tokens have the same small letters have the same tree, or errors at the same place
whose causes have the same small letters. -/
theorem parseTokens_of_small_eq (h : stream.small = stream'.small) :
    (∃ e, parseTokens stream = .ok e ∧ parseTokens stream' = .ok e) ∨
      ∃ cause cause' place, parseTokens stream = .error { cause, position := place } ∧
        parseTokens stream' = .error { cause := cause', position := place } ∧
        cause.respell .small = cause'.respell .small := by
  have houtcome : changeOutcome id .small id (parseTokens stream) =
      changeOutcome id .small id (parseTokens stream') := by
    rw [← parseTokens_change, ← parseTokens_change]
    exact congrArg parseTokens h
  cases hparse : parseTokens stream with
  | ok e =>
      cases hparse' : parseTokens stream' with
      | ok e' =>
          rw [hparse, hparse'] at houtcome
          cases houtcome
          exact .inl ⟨e, rfl, rfl⟩
      | error _ =>
          rw [hparse, hparse'] at houtcome
          cases houtcome
  | error error =>
      cases hparse' : parseTokens stream' with
      | ok _ =>
          rw [hparse, hparse'] at houtcome
          cases houtcome
      | error error' =>
          rw [hparse, hparse'] at houtcome
          obtain ⟨cause, place⟩ := error
          obtain ⟨cause', place'⟩ := error'
          obtain ⟨hcause, hplace⟩ := SyntaxError.mk.inj (Except.error.inj houtcome)
          obtain rfl : place = place' := hplace
          exact .inr ⟨cause, cause', place, rfl, rfl, hcause⟩

/-- **Outside strings a formula is parsed alike in any case of its ASCII letters.** It has the same
tree, or an error at the same place, whose cause differs in the case of names at most. -/
theorem parse_in_any_case {formula formula' : String} (h : tokenize formula = .ok stream)
    (hlower : formula'.toList.map Char.toLower = formula.toList.map Char.toLower)
    (hstrings : ∀ i, InString formula.toList stream i →
      formula'.toList[i]? = formula.toList[i]?) :
    (∃ e, parse formula = .ok e ∧ parse formula' = .ok e) ∨
      ∃ cause cause' place, parse formula = .error { cause, position := place } ∧
        parse formula' = .error { cause := cause', position := place } ∧
        cause.respell .small = cause'.respell .small := by
  have hblank : formula'.toList.all isSpace = formula.toList.all isSpace := by
    refine apply_eq_of_toLower_eq (f := (·.all isSpace)) (fun s => ?_) hlower
    rw [List.all_map]
    exact congrArg s.all (funext Text.isSpace_toLower)
  obtain ⟨stream', hstream', hsmall⟩ :=
    (scans_of_tokensFrom h).recase hlower (sameStrings_of_inString hstrings)
  unfold parse
  rw [hblank]
  split
  · exact .inr ⟨_, _, _, rfl, rfl, rfl⟩
  · have h' : tokenize formula' = .ok stream' := hstream'.tokensFrom_eq
    rw [h, h']
    exact parseTokens_of_small_eq hsmall.symm

/-- The words, the names of functions and the exponent in capital and in small letters. -/
theorem not_exponent_in_any_case :
    ∃ stream, tokenize "nOt(2E5 > Prop('aB'))" = .ok stream ∧
      "NOT(2e5 > pROP('aB'))".toList.map Char.toLower =
        "nOt(2E5 > Prop('aB'))".toList.map Char.toLower ∧
      (∀ i, InString "nOt(2E5 > Prop('aB'))".toList stream i →
        "NOT(2e5 > pROP('aB'))".toList[i]? = "nOt(2E5 > Prop('aB'))".toList[i]?) ∧
      ∃ e, parse "nOt(2E5 > Prop('aB'))" = .ok e ∧ parse "NOT(2e5 > pROP('aB'))" = .ok e := by
  obtain ⟨stream, htokens, h⟩ : ∃ stream : TokenStream,
      stream.tokens = [⟨.symbol .not, 0⟩, ⟨.symbol .leftParen, 3⟩, ⟨.number 200000, 4⟩,
        ⟨.symbol .greater, 8⟩, ⟨.identifier "Prop", 10⟩, ⟨.symbol .leftParen, 14⟩,
        ⟨.string "aB", 15⟩, ⟨.symbol .rightParen, 19⟩, ⟨.symbol .rightParen, 20⟩] ∧
      tokenize "nOt(2E5 > Prop('aB'))" = .ok stream := ⟨⟨_, 21⟩, rfl, by decide +kernel⟩
  have htext : "nOt(2E5 > Prop('aB'))".toList = ['n', 'O', 't', '(', '2', 'E', '5', ' ', '>', ' ',
      'P', 'r', 'o', 'p', '(', '\'', 'a', 'B', '\'', ')', ')'] := by decide
  have hlower : "NOT(2e5 > pROP('aB'))".toList.map Char.toLower =
      "nOt(2E5 > Prop('aB'))".toList.map Char.toLower := by decide
  have hstrings : ∀ i, InString "nOt(2E5 > Prop('aB'))".toList stream i →
      "NOT(2e5 > pROP('aB'))".toList[i]? = "nOt(2E5 > Prop('aB'))".toList[i]? := by
    rintro i ⟨t, ht, quote, rest, content, n, hquote, hdrop, hscan, hle, hge⟩
    rw [htext] at hdrop
    simp only [htokens, List.mem_cons, List.not_mem_nil, or_false] at ht
    -- Only the seventh token starts with a quote.
    rcases ht with rfl | rfl | rfl | rfl | rfl | rfl | rfl | rfl | rfl <;>
      obtain ⟨rfl, rfl⟩ := List.cons.inj hdrop
    case inr.inr.inr.inr.inr.inr.inl =>
      obtain ⟨-, rfl⟩ := Prod.mk.inj (Option.some.inj hscan)
      dsimp only at hle hge
      obtain rfl | rfl | rfl | rfl : i = 15 ∨ i = 16 ∨ i = 17 ∨ i = 18 := by omega
      all_goals decide
    all_goals exact absurd hquote (by decide)
  have hok : (parse "nOt(2E5 > Prop('aB'))").isOk = true := by decide +kernel
  refine ⟨_, h, hlower, hstrings, ?_⟩
  obtain hsame | ⟨cause, cause', place, herror, -, -⟩ := parse_in_any_case h hlower hstrings
  · exact hsame
  · rw [herror] at hok
    cases hok

end FormulaTable.Formula
