import FormulaTable.Proofs.Formula.Numerals

/-!
# The ends of tokens

White space is part of no token but a string, and a string ends with its quote. So a token that was
found in a text is also found where white space, or nothing, follows its last character, and no token
ends with white space.
-/

namespace FormulaTable.Formula

open Number (DigitFirst)
open Text (isSpace)

variable {c z : Char} {s b y : List Char} {p : Char → Bool} {f g : List Char → Nat}

/-! ## White space -/

/-- The white space characters. -/
def spaces : List Char :=
  [9, 10, 11, 12, 13, 0x20, 0x85, 0xA0, 0x1680, 0x2000, 0x2001, 0x2002, 0x2003, 0x2004, 0x2005,
    0x2006, 0x2007, 0x2008, 0x2009, 0x200A, 0x2028, 0x2029, 0x202F, 0x205F, 0x3000].map Char.ofNat

theorem mem_spaces (h : isSpace z = true) : z ∈ spaces := by
  refine List.mem_map.mpr ⟨z.toNat, ?_, Char.ofNat_toNat z⟩
  simp only [isSpace, Bool.or_eq_true, Bool.and_eq_true, decide_eq_true_eq, beq_iff_eq] at h
  simp only [List.mem_cons, List.not_mem_nil]
  omega

/-- A sort of characters has no white space if it has none of these. -/
theorem of_isSpace (hp : (spaces.all fun c => !p c) = true) (h : isSpace z = true) : p z = false := by
  simpa using List.all_eq_true.mp hp z (mem_spaces h)

/-- White space is no part of a name. -/
theorem continuesName_of_isSpace (h : isSpace z = true) : continuesName z = false :=
  of_isSpace (by decide +kernel) h

theorem isDigit_of_isSpace (h : isSpace z = true) : z.isDigit = false :=
  of_isSpace (by decide) h

theorem ne_of_isSpace (h : isSpace z = true) (hc : isSpace c = false) : z ≠ c := by
  rintro rfl
  rw [h] at hc
  cases hc

theorem fractionLength_of_isSpace (h : isSpace z = true) : fractionLength (z :: y) = 0 := by
  unfold fractionLength
  split
  · next heq => exact absurd (List.cons.inj heq).1 (ne_of_isSpace h rfl)
  · rfl

theorem signLength_of_isSpace (h : isSpace z = true) : signLength (z :: y) = 0 := by
  unfold signLength
  split
  · next heq => exact absurd (List.cons.inj heq).1 (ne_of_isSpace h rfl)
  · next heq => exact absurd (List.cons.inj heq).1 (ne_of_isSpace h rfl)
  · rfl

theorem exponentLength_of_isSpace (h : isSpace z = true) : exponentLength (z :: y) = 0 := by
  rw [exponentLength]
  refine if_neg ?_
  rintro ⟨hletter, -⟩
  exact hletter.elim (ne_of_isSpace h rfl) (ne_of_isSpace h rfl)

/-! ## Scanners that end at white space -/

/-- A scanner counts the characters that it takes from the start of a text. This one takes no white
space, and takes the same where white space follows what it takes. -/
structure EndsAtSpace (f : List Char → Nat) : Prop where
  solid : ∀ {s : List Char} {c : Char}, c ∈ s.take (f s) → isSpace c = false
  insert : ∀ {s b y : List Char} {z : Char}, isSpace z = true → f (s ++ b) ≤ s.length →
    f (s ++ z :: y) = f (s ++ b)

namespace EndsAtSpace

/-- One scanner after the other. -/
theorem andThen (hf : EndsAtSpace f) (hg : EndsAtSpace g) :
    EndsAtSpace fun s => f s + g (s.drop (f s)) where
  solid := by
    intro s c hc
    rw [List.take_add] at hc
    exact (List.mem_append.mp hc).elim hf.solid hg.solid
  insert := by
    intro s b y z hz h
    have hle : f (s ++ b) ≤ s.length := by omega
    rw [hf.insert hz hle, List.drop_append_of_le_length hle]
    rw [List.drop_append_of_le_length hle] at h ⊢
    rw [hg.insert hz (b := b)]
    rw [List.length_drop]
    omega

/-- Characters of a sort without white space. -/
theorem takeWhile (hp : ∀ z, isSpace z = true → p z = false) :
    EndsAtSpace fun s => (s.takeWhile p).length where
  solid := by
    intro s c hc
    rw [take_takeWhile] at hc
    by_contra hspace
    rw [Bool.not_eq_false] at hspace
    exact absurd (List.mem_takeWhile_imp hc) (by rw [hp c hspace]; exact Bool.false_ne_true)
  insert := by
    intro s b y z hz h
    have hend : ¬ p z = true := by
      rw [hp z hz]
      exact Bool.false_ne_true
    induction s with
    | nil =>
        rw [List.nil_append, List.takeWhile_cons_of_neg hend]
        exact (Nat.le_zero.mp h).symm
    | cons c s ih =>
        rw [List.cons_append, List.takeWhile_cons] at h
        rw [List.cons_append, List.cons_append, List.takeWhile_cons, List.takeWhile_cons]
        split
        · next hc =>
          rw [if_pos hc, List.length_cons, List.length_cons] at h
          exact congrArg Nat.succ (ih (Nat.le_of_succ_le_succ h))
        · rfl

theorem digits : EndsAtSpace fun s => (s.takeWhile Char.isDigit).length :=
  takeWhile fun _ => isDigit_of_isSpace

theorem fraction : EndsAtSpace fractionLength where
  solid := by
    intro s c hc
    rcases take_fraction s with ⟨t, -, htake⟩ | ⟨-, htake⟩
    · rw [htake] at hc
      rcases List.mem_cons.mp hc with rfl | hc
      · rfl
      · exact digits.solid (by rwa [take_takeWhile])
    · rw [htake] at hc
      cases hc
  insert := by
    intro s b y z hz h
    cases s with
    | nil => rw [Nat.le_zero.mp h, List.nil_append, fractionLength_of_isSpace hz]
    | cons c s =>
        by_cases hc : c = '.'
        · subst hc
          change 1 + ((s ++ b).takeWhile Char.isDigit).length ≤ s.length + 1 at h
          exact congrArg (1 + ·) (digits.insert hz (by omega))
        · simp [fractionLength, hc]

theorem sign : EndsAtSpace signLength where
  solid := by
    intro s c hc
    unfold signLength at hc
    split at hc
    · obtain rfl := List.mem_singleton.mp hc
      rfl
    · obtain rfl := List.mem_singleton.mp hc
      rfl
    · cases hc
  insert := by
    intro s b y z hz h
    cases s with
    | nil => rw [Nat.le_zero.mp h, List.nil_append, signLength_of_isSpace hz]
    | cons c s =>
        by_cases hplus : c = '+'
        · subst hplus
          rfl
        by_cases hminus : c = '-'
        · subst hminus
          rfl
        simp [signLength, hplus, hminus]

end EndsAtSpace

/-- The number of digits after the sign that a text starts with. -/
def digitsAfterSign (s : List Char) : Nat :=
  ((s.drop (signLength s)).takeWhile Char.isDigit).length

theorem exponentLength_cons (c : Char) (s : List Char) : exponentLength (c :: s) =
    if (c = 'e' ∨ c = 'E') ∧ 0 < digitsAfterSign s then 1 + signLength s + digitsAfterSign s
    else 0 := rfl

theorem signLength_le_one (s : List Char) : signLength s ≤ 1 := by
  unfold signLength
  split <;> decide

theorem endsAtSpace_signedDigits : EndsAtSpace fun s => signLength s + digitsAfterSign s :=
  EndsAtSpace.sign.andThen .digits

/-- White space ends the digits after a sign, and adds none where there are none. -/
theorem digitsAfterSign_insert (hz : isSpace z = true)
    (h : digitsAfterSign (s ++ b) = 0 ∨
      signLength (s ++ b) + digitsAfterSign (s ++ b) ≤ s.length) :
    digitsAfterSign (s ++ z :: y) = digitsAfterSign (s ++ b) := by
  cases s with
  | nil =>
      have hold : digitsAfterSign b = 0 := by
        rw [List.nil_append, List.length_nil] at h
        omega
      have hnew : digitsAfterSign (z :: y) = 0 := by
        rw [digitsAfterSign, signLength_of_isSpace hz, List.drop_zero]
        exact EndsAtSpace.digits.insert (s := []) (b := []) hz (Nat.le_refl 0)
      rw [List.nil_append, List.nil_append, hold, hnew]
  | cons c s =>
      have hle := signLength_le_one (c :: s ++ b)
      rw [List.length_cons] at h
      have hsign : signLength (c :: s ++ z :: y) = signLength (c :: s ++ b) :=
        EndsAtSpace.sign.insert hz (by rw [List.length_cons]; omega)
      have hdigits := endsAtSpace_signedDigits.insert (s := c :: s) (b := b) (y := y) hz
        (by rw [List.length_cons]; omega)
      rw [hsign] at hdigits
      exact Nat.add_left_cancel hdigits

namespace EndsAtSpace

theorem exponent : EndsAtSpace exponentLength where
  solid := by
    intro s c hc
    cases s with
    | nil => cases hc
    | cons d s =>
        rw [exponentLength_cons] at hc
        split at hc
        · next hexponent =>
          rw [Nat.add_assoc, Nat.add_comm, List.take_succ_cons] at hc
          rcases List.mem_cons.mp hc with rfl | hc
          · rcases hexponent.1 with rfl | rfl <;> rfl
          · exact endsAtSpace_signedDigits.solid hc
        · cases hc
  insert := by
    intro s b y z hz h
    cases s with
    | nil => rw [Nat.le_zero.mp h, List.nil_append, exponentLength_of_isSpace hz]
    | cons c s =>
        rw [List.cons_append, exponentLength_cons] at h
        rw [List.cons_append, List.cons_append, exponentLength_cons, exponentLength_cons]
        by_cases hexponent : (c = 'e' ∨ c = 'E') ∧ 0 < digitsAfterSign (s ++ b)
        · rw [if_pos hexponent, List.length_cons] at h
          have hroom : signLength (s ++ b) + digitsAfterSign (s ++ b) ≤ s.length := by omega
          have hsign : signLength (s ++ z :: y) = signLength (s ++ b) :=
            sign.insert hz (Nat.le_of_add_right_le hroom)
          rw [digitsAfterSign_insert hz (.inr hroom), hsign]
        · by_cases hletter : c = 'e' ∨ c = 'E'
          · have hnone : digitsAfterSign (s ++ b) = 0 :=
              Nat.eq_zero_of_not_pos fun hpos => hexponent ⟨hletter, hpos⟩
            rw [digitsAfterSign_insert hz (.inl hnone), if_neg hexponent, if_neg hexponent]
          · rw [if_neg fun h => hletter h.1, if_neg hexponent]

theorem number : EndsAtSpace numberLength :=
  (digits.andThen fraction).andThen exponent

theorem name : EndsAtSpace fun s => (s.takeWhile continuesName).length :=
  takeWhile fun _ => continuesName_of_isSpace

end EndsAtSpace

/-! ## What follows -/

/-- Nothing follows, or white space does. -/
def SpaceNext (y : List Char) : Prop := ∀ z, y.head? = some z → isSpace z = true

theorem spaceNext_cons (hz : isSpace z = true) : SpaceNext (z :: y) := by
  rintro _ ⟨⟩
  exact hz

theorem spaceNext_of_blank (h : y.all isSpace = true) : SpaceNext y :=
  fun z hz => List.all_eq_true.mp h z (List.mem_of_mem_head? hz)

/-- One scanner after the other takes no more than there is. -/
theorem andThen_le (hf : ∀ s, f s ≤ s.length) (hg : ∀ s, g s ≤ s.length) (s : List Char) :
    f s + g (s.drop (f s)) ≤ s.length := by
  have hfirst := hf s
  have hsecond := hg (s.drop (f s))
  rw [List.length_drop] at hsecond
  omega

theorem takeWhile_le (p : Char → Bool) (s : List Char) : (s.takeWhile p).length ≤ s.length :=
  (List.takeWhile_prefix p).length_le

theorem fractionLength_le (s : List Char) : fractionLength s ≤ s.length := by
  unfold fractionLength
  split
  · next s =>
    rw [List.length_cons, Nat.add_comm]
    exact Nat.succ_le_succ (takeWhile_le Char.isDigit s)
  · exact Nat.zero_le _

theorem signLength_le (s : List Char) : signLength s ≤ s.length := by
  unfold signLength
  split
  · exact Nat.le_add_left 1 _
  · exact Nat.le_add_left 1 _
  · exact Nat.zero_le _

theorem exponentLength_le (s : List Char) : exponentLength s ≤ s.length := by
  cases s with
  | nil => exact Nat.le_refl 0
  | cons c s =>
      have hle : signLength s + digitsAfterSign s ≤ s.length :=
        andThen_le signLength_le (takeWhile_le Char.isDigit) s
      rw [exponentLength_cons, List.length_cons]
      split
      · omega
      · exact Nat.zero_le _

theorem numberLength_le (s : List Char) : numberLength s ≤ s.length :=
  andThen_le (andThen_le (takeWhile_le Char.isDigit) fractionLength_le) exponentLength_le s

/-- What follows the characters that a scanner takes can be left out, or replaced by white space. -/
theorem EndsAtSpace.replace (hf : EndsAtSpace f) (hle : ∀ s, f s ≤ s.length) (hy : SpaceNext y)
    (h : f (s ++ b) ≤ s.length) : f (s ++ y) = f (s ++ b) := by
  cases y with
  | cons z y => exact hf.insert (hy z rfl) h
  | nil =>
      -- a blank after the text is no more part of it than nothing is
      have hend : f (s ++ []) ≤ s.length := by
        rw [List.append_nil]
        exact hle s
      rw [← hf.insert (z := ' ') (y := []) rfl h, hf.insert rfl hend]

/-! ## Strings -/

/-- A character after a backslash is part of the string. -/
theorem scanString_backslash {quote : Char} (hquote : ¬ '\\' = quote) (e : Char)
    (rest : List Char) : scanString quote ('\\' :: e :: rest) =
      (scanString quote rest).map fun (s, n) => (unescape e :: s, n + 2) := by
  rw [scanString.eq_def]
  exact (if_neg hquote).trans (if_pos rfl)

/-- So is every other character but the quote. -/
theorem scanString_cons {quote : Char} (hquote : ¬ c = quote) (hbackslash : ¬ c = '\\')
    (rest : List Char) : scanString quote (c :: rest) =
      (scanString quote rest).map fun (s, n) => (c :: s, n + 1) := by
  rw [scanString.eq_def]
  exact (if_neg hquote).trans (if_neg hbackslash)

/-- What can stand between two quotes: characters other than these quotes, and any character after a
backslash. -/
inductive StringBody (quote : Char) : List Char → Prop where
  | nil : StringBody quote []
  | plain {c : Char} {s : List Char} (hquote : c ≠ quote) (hbackslash : c ≠ '\\')
      (h : StringBody quote s) : StringBody quote (c :: s)
  | escaped {c : Char} {s : List Char} (h : StringBody quote s) : StringBody quote ('\\' :: c :: s)

/-- A string ends with its quote, whatever follows. -/
theorem scanString_eq_some {quote : Char} {text content : List Char} {n : Nat}
    (h : scanString quote text = some (content, n)) :
    ∃ s rest, StringBody quote s ∧ text = s ++ quote :: rest ∧ n = s.length + 1 ∧
      ∀ rest', scanString quote (s ++ quote :: rest') = some (content, n) := by
  induction text using scanString.induct quote generalizing content n with
  | case1 => cases h
  | case2 rest =>
      rw [scanString_quote] at h
      cases h
      exact ⟨[], rest, .nil, rfl, rfl, scanString_quote quote⟩
  | case3 hquote =>
      rw [scanString.eq_def] at h
      dsimp only at h
      rw [if_neg hquote, if_pos rfl] at h
      cases h
  | case4 e rest hquote ih =>
      rw [scanString_backslash hquote, Option.map_eq_some_iff] at h
      obtain ⟨⟨content', n'⟩, h, heq⟩ := h
      cases heq
      obtain ⟨s, rest, hs, rfl, rfl, hrest⟩ := ih h
      refine ⟨'\\' :: e :: s, rest, hs.escaped, rfl, rfl, fun rest' => ?_⟩
      rw [List.cons_append, List.cons_append, scanString_backslash hquote, hrest]
      rfl
  | case5 c rest hquote hbackslash ih =>
      rw [scanString_cons hquote hbackslash, Option.map_eq_some_iff] at h
      obtain ⟨⟨content', n'⟩, h, heq⟩ := h
      cases heq
      obtain ⟨s, rest, hs, rfl, rfl, hrest⟩ := ih h
      refine ⟨c :: s, rest, hs.plain hquote hbackslash, rfl, rfl, fun rest' => ?_⟩
      rw [List.cons_append, scanString_cons hquote hbackslash, hrest]
      rfl

/-- So it ends there whatever follows the characters that it takes. -/
theorem scanString_append {quote : Char} {x b y content : List Char} {n : Nat}
    (h : scanString quote (x ++ b) = some (content, n)) (hn : n ≤ x.length) :
    scanString quote (x ++ y) = some (content, n) := by
  obtain ⟨s, rest, -, htext, rfl, hrest⟩ := scanString_eq_some h
  have htaken : s ++ [quote] <+: x ++ b := by
    rw [htext]
    exact ⟨rest, by rw [List.append_assoc, List.singleton_append]⟩
  have hprefix : s ++ [quote] <+: x :=
    List.prefix_of_prefix_length_le htaken (List.prefix_append x b) (by rwa [List.length_append])
  obtain ⟨x', rfl⟩ := hprefix
  rw [List.append_assoc, List.append_assoc]
  exact hrest (x' ++ y)

/-! ## Signs -/

variable {d : Char} {rest rest' : List Char} {s : Symbol}

/-- A sign is one character, which an equals sign may make longer, or two. None of them is a letter. -/
theorem sign?_cases {n : Nat} (h : sign? (c :: rest) = some (s, n)) :
    c.isAlpha = false ∧
      (n = 1 ∧ sign? [c] = some (s, 1) ∧
          (∀ d rest', (d = '=' → rest.head? = some '=') → sign? (c :: d :: rest') = some (s, 1)) ∨
        n = 2 ∧ ∃ d, rest.head? = some d ∧ d.isAlpha = false ∧ isSpace d = false ∧
          ∀ rest', sign? (c :: d :: rest') = some (s, 2)) := by
  unfold sign? at h
  split at h <;> cases h
  all_goals
    rename_i heq
    cases heq
    first
    | exact ⟨rfl, .inr ⟨rfl, _, rfl, rfl, rfl, fun _ => rfl⟩⟩
    | exact ⟨rfl, .inl ⟨rfl, rfl, fun _ _ _ => rfl⟩⟩
    | refine ⟨rfl, .inl ⟨rfl, rfl, fun d rest' hd => ?_⟩⟩
  -- signs that an equals sign would have made longer
  all_goals
    rename_i hne
    have hlonger : d ≠ '=' := by
      intro h
      obtain ⟨tail, htail⟩ := List.head?_eq_some_iff.mp (hd h)
      exact hne tail htail
    simp [sign?, hlonger]

/-- No more than two characters are read for a sign. -/
theorem sign?_cons_cons {n : Nat} (h : sign? (c :: d :: rest) = some (s, n)) :
    sign? (c :: d :: rest') = some (s, n) := by
  obtain ⟨-, ⟨rfl, -, hone⟩ | ⟨rfl, e, he, -, -, htwo⟩⟩ := sign?_cases h
  · exact hone d rest' (congrArg some)
  · obtain rfl := Option.some.inj he
    exact htwo rest'

/-- A sign of one character is also found before any character that does not make it longer. -/
theorem sign?_cons (h : sign? (c :: rest) = some (s, 1)) (hd : d ≠ '=') :
    sign? (c :: d :: rest') = some (s, 1) := by
  obtain ⟨-, ⟨-, -, hone⟩ | ⟨hn, -⟩⟩ := sign?_cases h
  · exact hone d rest' fun h => absurd h hd
  · cases hn

/-! ## Tokens -/

variable {k : TokenKind} {n : Nat} {x : List Char}

/-- A point starts a number only together with a digit. -/
theorem one_lt_numberLength (h : startsNumber ('.' :: b) = true) : 1 < numberLength ('.' :: b) := by
  have hdigit : DigitFirst b := by
    rcases digitFirst_of_startsNumber h with ⟨d, hd, hdigit⟩ | ⟨t, ht, hdigit⟩
    · cases hd
      cases hdigit
    · obtain rfl := (List.cons.inj ht).2
      exact hdigit
  have hpos := List.length_pos_iff.mpr (takeWhile_ne_nil hdigit)
  have hfraction : fractionLength ('.' :: b) ≤ numberLength ('.' :: b) := by
    show _ ≤ 0 + fractionLength ('.' :: b) + _
    omega
  change 1 + (b.takeWhile Char.isDigit).length ≤ _ at hfraction
  omega

/-- A number starts or does not start here, whatever stands in place of what follows the token. -/
theorem startsNumber_replace (hy : SpaceNext y)
    (h : startsNumber (c :: (x ++ b)) = true → numberLength (c :: (x ++ b)) ≤ x.length + 1) :
    startsNumber (c :: (x ++ y)) = startsNumber (c :: (x ++ b)) := by
  cases x with
  | cons d x => by_cases hc : c = '.' <;> simp [startsNumber, hc]
  | nil =>
      by_cases hc : c = '.'
      · subst hc
        -- a digit after the point would belong to the token
        have hnone : startsNumber ('.' :: b) = false := by
          by_contra hstarts
          rw [Bool.not_eq_false] at hstarts
          exact absurd (one_lt_numberLength hstarts) (Nat.not_lt.mpr (h hstarts))
        rw [List.nil_append, List.nil_append, hnone]
        cases y with
        | nil => rfl
        | cons z y => exact isDigit_of_isSpace (hy z rfl)
      · simp [startsNumber, hc]

/-- Not only the number of the characters is the same. -/
theorem takeWhile_replace (hp : ∀ z, isSpace z = true → p z = false) (hy : SpaceNext y)
    (h : ((x ++ b).takeWhile p).length ≤ x.length) :
    (x ++ y).takeWhile p = (x ++ b).takeWhile p := by
  have hlength : ((x ++ y).takeWhile p).length = ((x ++ b).takeWhile p).length :=
    (EndsAtSpace.takeWhile hp).replace (takeWhile_le p) hy h
  rw [← take_takeWhile, hlength, List.take_append_of_le_length h, ← List.take_append_of_le_length h,
    take_takeWhile]

/-- A token that was found is also found where nothing or white space follows it. -/
theorem scanToken_replace (hy : SpaceNext y) (h : scanToken c (x ++ b) = .ok (k, n))
    (hn : n ≤ x.length) : scanToken c (x ++ y) = .ok (k, n) := by
  unfold scanToken at h ⊢
  split at h
  · next hquote =>
    rw [if_pos hquote]
    split at h
    · next content m hscan =>
      cases h
      rw [scanString_append hscan hn]
    · cases h
  next hquote =>
  rw [if_neg hquote]
  split at h
  · next hstarts =>
    cases h
    have hlength : numberLength (c :: x ++ b) ≤ (c :: x).length := by
      rw [List.cons_append, List.length_cons]
      omega
    rw [startsNumber_replace hy fun _ => hlength, if_pos hstarts]
    have hsame : numberLength (c :: x ++ y) = _ :=
      EndsAtSpace.number.replace numberLength_le hy hlength
    have htake : (c :: x ++ y).take (numberLength (c :: x ++ b)) =
        (c :: x ++ b).take (numberLength (c :: x ++ b)) := by
      rw [List.take_append_of_le_length hlength, List.take_append_of_le_length hlength]
    rw [← List.cons_append, ← List.cons_append, hsame]
    dsimp only
    rw [htake]
  next hstarts =>
  rw [startsNumber_replace hy fun h => absurd h hstarts, if_neg hstarts]
  split at h
  · next hname =>
    cases h
    rw [if_pos hname, takeWhile_replace (fun _ => continuesName_of_isSpace) hy hn]
  next hname =>
  rw [if_neg hname]
  split at h
  · next s m hsign =>
    cases h
    have hsign' : sign? (c :: (x ++ y)) = some (s, m) := by
      cases x with
      | cons d x => exact sign?_cons_cons hsign
      | nil =>
          obtain ⟨-, ⟨rfl, hone, -⟩ | ⟨rfl, -⟩⟩ := sign?_cases hsign
          · cases y with
            | nil => exact hone
            | cons z y => exact sign?_cons hsign (ne_of_isSpace (hy z rfl) rfl)
          · cases hn
    rw [hsign']
  · cases h

/-- A token takes no more than there is. -/
theorem scanToken_le {rest : List Char} (h : scanToken c rest = .ok (k, n)) : n ≤ rest.length := by
  unfold scanToken at h
  split at h
  · split at h
    · next content m hscan =>
      obtain ⟨s, rest, -, rfl, rfl, -⟩ := scanString_eq_some hscan
      obtain rfl : s.length + 1 = n := congrArg Prod.snd (Except.ok.inj h)
      rw [List.length_append, List.length_cons]
      omega
    · cases h
  split at h
  · obtain rfl : numberLength (c :: rest) - 1 = n := congrArg Prod.snd (Except.ok.inj h)
    exact Nat.sub_le_of_le_add (numberLength_le (c :: rest))
  split at h
  · obtain rfl : (rest.takeWhile continuesName).length = n := congrArg Prod.snd (Except.ok.inj h)
    exact takeWhile_le continuesName rest
  split at h
  · next s m hsign =>
    obtain rfl : m - 1 = n := congrArg Prod.snd (Except.ok.inj h)
    obtain ⟨-, ⟨rfl, -⟩ | ⟨rfl, d, hd, -⟩⟩ := sign?_cases hsign
    · exact Nat.zero_le _
    · exact List.length_pos_of_mem (List.mem_of_mem_head? hd)
  · cases h

/-- No token ends with white space. -/
theorem scanToken_solid {rest : List Char} (h : scanToken c rest = .ok (k, n + 1))
    (hz : rest[n]? = some z) : isSpace z = false := by
  unfold scanToken at h
  split at h
  · next hquote =>
    split at h
    · next content m hscan =>
      obtain ⟨s, rest, -, rfl, rfl, -⟩ := scanString_eq_some hscan
      obtain rfl : s.length = n := Nat.succ.inj (congrArg Prod.snd (Except.ok.inj h))
      rw [List.getElem?_append_right (Nat.le_refl _), Nat.sub_self] at hz
      obtain rfl := Option.some.inj hz
      rcases hquote with rfl | rfl <;> rfl
    · cases h
  split at h
  · have hlength : numberLength (c :: rest) - 1 = n + 1 := congrArg Prod.snd (Except.ok.inj h)
    refine EndsAtSpace.number.solid (s := c :: rest) (List.mem_iff_getElem?.mpr ⟨n + 1, ?_⟩)
    rw [List.getElem?_take_of_lt (by omega)]
    exact hz
  split at h
  · have hlength : (rest.takeWhile continuesName).length = n + 1 :=
      congrArg Prod.snd (Except.ok.inj h)
    refine EndsAtSpace.name.solid (s := rest) (List.mem_iff_getElem?.mpr ⟨n, ?_⟩)
    rw [List.getElem?_take_of_lt (by omega)]
    exact hz
  split at h
  · next s m hsign =>
    have hlength : m - 1 = n + 1 := congrArg Prod.snd (Except.ok.inj h)
    obtain ⟨-, ⟨rfl, -⟩ | ⟨rfl, d, hd, -, hsolid, -⟩⟩ := sign?_cases hsign
    · cases hlength
    · obtain rfl : n = 0 := (Nat.succ.inj hlength).symm
      rw [← List.head?_eq_getElem?, hd] at hz
      obtain rfl := Option.some.inj hz
      exact hsolid
  · cases h

end FormulaTable.Formula
