import FormulaTable.Proofs.Calendar.TimeLine

/-!
# Written dates read back

A date and time is read as the instant that it was written from, in the international form and without
an offset. Only one of the layouts that are tried fits such a text: the strict form needs an offset at
the end, and the other layouts stop at the mark after the date or find nothing after it.
-/

namespace FormulaTable.Calendar

open Number
open Text (isSpace trimStart trimStart_cons)

variable {c mark : Char} {rest s : List Char} {digits : Nat} {f : Stamp} {items : List LayoutItem}

/-! ## Dates -/

/-- A date with a mark between its numbers. -/
def Civil.textWith (mark : Char) (c : Civil) : List Char :=
  yearText c.year ++ mark :: padded 2 c.month ++ mark :: padded 2 c.day

/-- The year is written with four digits and no sign. -/
def Civil.FourDigits (c : Civil) : Prop := 0 ≤ c.year ∧ c.year ≤ 9999

theorem readLayout_date {c : Civil} (hc : c.Valid) (hmark : mark.isDigit = false)
    (hrest : NoDigitNext rest) :
    readLayout f (dateLayout mark ++ items) (c.textWith mark ++ rest) =
      readLayout { f with year := c.year, month := c.month, day := c.day } items rest := by
  have hnext {s : List Char} : NoDigitNext (mark :: s) := noDigitNext_cons hmark
  obtain ⟨hmonth, hday⟩ := hc.lt_hundred
  unfold dateLayout Civil.textWith
  simp only [List.append_assoc, List.cons_append, List.nil_append]
  rw [readLayout_cons (by rw [LayoutItem.read, readYear_yearText hnext]; rfl),
    readLayout_cons read_mark,
    readLayout_cons (by rw [LayoutItem.read, readDigits_trimStart_padded hmonth hnext]; rfl),
    readLayout_cons read_mark,
    readLayout_cons (by rw [LayoutItem.read, readDigits_trimStart_padded hday hrest]; rfl)]

theorem readLayout_mark_ne {other : Char} (hne : c ≠ other) :
    readLayout f (.mark other :: items) (c :: rest) = none := by
  rw [readLayout, LayoutItem.read, readMark, if_neg hne]
  rfl

/-- A layout with another mark does not fit. -/
theorem readLayout_otherMark {c : Civil} (hmark : mark.isDigit = false) {other : Char}
    (hother : mark ≠ other) :
    readLayout f (dateLayout other ++ items) (c.textWith mark ++ rest) = none := by
  have hnext {s : List Char} : NoDigitNext (mark :: s) := noDigitNext_cons hmark
  unfold dateLayout Civil.textWith
  simp only [List.append_assoc, List.cons_append, List.nil_append]
  rw [readLayout_cons (by rw [LayoutItem.read, readYear_yearText hnext]; rfl),
    readLayout_mark_ne hother]

namespace Instant

variable (t : Instant)

/-- The time of day with some digits of the fraction of the second. -/
def timeText (digits : Nat) : List Char :=
  padded 2 t.hour ++ ':' :: padded 2 t.minute ++ ':' :: padded 2 t.writtenSecond ++
    t.fractionText digits

theorem text_eq (digits : Nat) :
    t.text digits = t.civil.textWith '-' ++ 'T' :: t.timeText digits ++ ['Z'] := by
  unfold text timeText Civil.text Civil.textWith
  simp only [List.append_assoc, List.cons_append]

/-- The fraction is written in full. -/
def WrittenFully (digits : Nat) : Prop :=
  0 < digits ∧ digits ≤ 9 ∧ t.writtenNano % 10 ^ (9 - digits) = 0

theorem readLayout_time {t : Instant} (h : t.WrittenFully digits) :
    readLayout f secondLayout (t.timeText digits) =
      some ({ f with hour := t.hour, minute := t.minute, second := t.writtenSecond,
                     nano := t.writtenNano }, []) := by
  have hcolon {s : List Char} : NoDigitNext (':' :: s) := noDigitNext_cons (by decide)
  obtain ⟨hpos, hle, hfull⟩ := h
  obtain ⟨hhour, hminute, hsecond⟩ := t.time_lt_hundred
  have hfraction := t.readFraction_fractionText hpos hle hfull noDigitNext_nil
  have hnext := t.noDigitNext_fractionText digits noDigitNext_nil
  rw [List.append_nil] at hfraction hnext
  unfold secondLayout minuteLayout timeText
  simp only [List.append_assoc, List.cons_append, List.nil_append]
  rw [readLayout_cons (by rw [LayoutItem.read, readDigits_trimStart_padded hhour hcolon]; rfl),
    readLayout_cons read_mark,
    readLayout_cons (by rw [LayoutItem.read, readDigits_trimStart_padded hminute hcolon]; rfl),
    readLayout_cons read_mark,
    readLayout_cons (by rw [LayoutItem.read, readDigits_trimStart_padded hsecond hnext]; rfl),
    readLayout_cons (by rw [LayoutItem.read, hfraction]; rfl), readLayout]

/-! ## The strict form -/

theorem readDigits_padded {w n : Nat} (hw : 0 < w) (h : n < 10 ^ w) (hrest : NoDigitNext rest) :
    readDigits w w (padded w n ++ rest) = some (n, rest) := by
  have hlength := length_padded hw h
  rw [readDigits_append (allDigits_padded w n) hlength.ge hlength.le hrest, ofDigits_padded]

theorem readMark_cons (c : Char) (rest : List Char) : readMark c (c :: rest) = some ((), rest) :=
  if_pos rfl

/-- A year of four digits is read. -/
theorem readDigits_yearText {c : Civil} (hc : c.FourDigits) (hrest : NoDigitNext rest) :
    readDigits 4 4 (yearText c.year ++ rest) = some (c.year.toNat, rest) := by
  have htext : yearText c.year = padded 4 c.year.toNat := if_pos hc
  have hlt : c.year.toNat < 10 ^ 4 := by
    have := hc.2
    omega
  rw [htext, readDigits_padded (by decide) hlt hrest]

/-- A date and time in the strict form is read up to the offset. -/
theorem readStrict?_time {t : Instant} (hyear : t.civil.FourDigits) (h : t.WrittenFully digits)
    (hmark : mark.isDigit = false) (hseparator : ∀ s, readSeparator (mark :: s) = some ((), s))
    (hrest : NoDigitNext rest) :
    readStrict? (t.civil.textWith '-' ++ mark :: t.timeText digits ++ rest) =
      (readOffset (readMark ':') rest).bind fun (offset, s) =>
        if s ≠ [] ∨ maxOffset < offset.natAbs then none else t.stamp.instant? offset := by
  have hdash {s : List Char} : NoDigitNext ('-' :: s) := noDigitNext_cons (by decide)
  have hcolon {s : List Char} : NoDigitNext (':' :: s) := noDigitNext_cons (by decide)
  have hnext {s : List Char} : NoDigitNext (mark :: s) := noDigitNext_cons hmark
  have hfraction := t.noDigitNext_fractionText digits hrest
  obtain ⟨hpos, hle, hfull⟩ := h
  obtain ⟨hmonth, hday⟩ := (valid_ofDay t.day).lt_hundred
  obtain ⟨hhour, hminute, hsecond⟩ := t.time_lt_hundred
  have hyearEq : (t.civil.year.toNat : Int) = t.civil.year := Int.toNat_of_nonneg hyear.1
  have htext : t.civil.textWith '-' ++ mark :: t.timeText digits ++ rest =
      yearText t.civil.year ++ '-' :: (padded 2 t.civil.month ++ '-' :: (padded 2 t.civil.day ++
        mark :: (padded 2 t.hour ++ ':' :: (padded 2 t.minute ++ ':' ::
          (padded 2 t.writtenSecond ++ (t.fractionText digits ++ rest)))))) := by
    unfold Civil.textWith timeText
    simp only [List.append_assoc, List.cons_append]
  unfold readStrict?
  dsimp only [Option.bind_eq_bind]
  rw [htext, readDigits_yearText hyear hdash, Option.bind_some, readMark_cons, Option.bind_some,
    readDigits_padded (by decide) hmonth hdash, Option.bind_some, readMark_cons, Option.bind_some,
    readDigits_padded (by decide) hday hnext, Option.bind_some, hseparator, Option.bind_some,
    readDigits_padded (by decide) hhour hcolon, Option.bind_some, readMark_cons, Option.bind_some,
    readDigits_padded (by decide) hminute hcolon, Option.bind_some, readMark_cons,
    Option.bind_some, readDigits_padded (by decide) hsecond hfraction, Option.bind_some,
    t.readFraction_fractionText hpos hle hfull hrest, Option.bind_some, hyearEq]
  rfl

/-- **The international form is read as its instant.** -/
theorem readStrict?_text {t : Instant} (hyear : t.civil.FourDigits) (h : t.WrittenFully digits) :
    readStrict? (t.text digits) = some t := by
  have hZ : NoDigitNext ['Z'] := noDigitNext_cons (by decide)
  rw [text_eq, readStrict?_time hyear h (by decide) (fun _ => rfl) hZ]
  exact t.instant?_stamp

/-- Without an offset a date and time is not in the strict form. -/
theorem readStrict?_of_noOffset {t : Instant} (hyear : t.civil.FourDigits)
    (h : t.WrittenFully digits) :
    readStrict? (t.civil.textWith '-' ++ ' ' :: t.timeText digits) = none := by
  have hspace : (' ' : Char).isDigit = false := by decide
  have hread := readStrict?_time hyear h hspace (fun _ => rfl) noDigitNext_nil
  rw [List.append_nil] at hread
  rw [hread]
  rfl

/-- A date alone is not in the strict form. -/
theorem readStrict?_date {t : Instant} (hyear : t.civil.FourDigits) :
    readStrict? (t.civil.textWith '-') = none := by
  have hdash {s : List Char} : NoDigitNext ('-' :: s) := noDigitNext_cons (by decide)
  obtain ⟨hmonth, hday⟩ := (valid_ofDay t.day).lt_hundred
  have hlast : readDigits 2 2 (padded 2 t.civil.day) = some (t.civil.day, []) := by
    rw [← List.append_nil (padded 2 t.civil.day)]
    exact readDigits_padded (by decide) hday noDigitNext_nil
  have htext : t.civil.textWith '-' = yearText t.civil.year ++ '-' ::
      (padded 2 t.civil.month ++ '-' :: padded 2 t.civil.day) := by
    unfold Civil.textWith
    simp only [List.append_assoc, List.cons_append]
  unfold readStrict?
  dsimp only [Option.bind_eq_bind]
  rw [htext, readDigits_yearText hyear hdash, Option.bind_some, readMark_cons, Option.bind_some,
    readDigits_padded (by decide) hmonth hdash, Option.bind_some, readMark_cons, Option.bind_some,
    hlast]
  rfl

/-- Nor is what has another mark after the year. -/
theorem readStrict?_otherMark {t : Instant} (hyear : t.civil.FourDigits)
    (hmark : mark.isDigit = false) (hdash : mark ≠ '-') :
    readStrict? (t.civil.textWith mark) = none := by
  have htext : t.civil.textWith mark = yearText t.civil.year ++ mark ::
      (padded 2 t.civil.month ++ mark :: padded 2 t.civil.day) := by
    unfold Civil.textWith
    simp only [List.append_assoc, List.cons_append]
  unfold readStrict?
  dsimp only [Option.bind_eq_bind]
  rw [htext, readDigits_yearText hyear (noDigitNext_cons hmark), Option.bind_some, readMark,
    if_neg hdash]
  rfl

/-! ## The layouts without an offset -/

theorem readPlain?_eq (layout : List LayoutItem) (s : List Char) : readPlain? layout s =
    (readLayout {} layout s).bind fun (f, s) => if s ≠ [] then none else f.instant? 0 := rfl

theorem digitFirst_timeText (t : Instant) (digits : Nat) : DigitFirst (t.timeText digits) := by
  unfold timeText
  simp only [List.append_assoc]
  exact digitFirst_padded ..

/-- A date and time without an offset fits the layout with white space and seconds, and none that is
tried before it. -/
theorem findSome?_readPlain?_time {t : Instant} (h : t.WrittenFully digits) :
    plainLayouts.findSome? (readPlain? · (t.civil.textWith '-' ++ ' ' :: t.timeText digits)) =
      some t := by
  have hdate (items : List LayoutItem) :
      readLayout {} (dateLayout '-' ++ items) (t.civil.textWith '-' ++ ' ' :: t.timeText digits) =
        readLayout { year := t.civil.year, month := t.civil.month, day := t.civil.day } items
          (' ' :: t.timeText digits) :=
    readLayout_date t.valid_civil (by decide) (noDigitNext_cons (by decide))
  have hspace (f : Stamp) :
      LayoutItem.spaces.read f (' ' :: t.timeText digits) = some (f, t.timeText digits) :=
    congrArg (fun s => some (f, s)) (trimStart_of_digitFirst (t.digitFirst_timeText digits))
  have hmark : readPlain? (dateLayout '-' ++ [.mark 'T'] ++ secondLayout)
      (t.civil.textWith '-' ++ ' ' :: t.timeText digits) = none := by
    rw [readPlain?_eq, List.append_assoc, hdate, List.singleton_append,
      readLayout_mark_ne (by decide), Option.bind_none]
  have hspaces : readPlain? (dateLayout '-' ++ [.spaces] ++ secondLayout)
      (t.civil.textWith '-' ++ ' ' :: t.timeText digits) = some t := by
    rw [readPlain?_eq, List.append_assoc, hdate, List.singleton_append, readLayout_cons (hspace _),
      readLayout_time h]
    exact t.instant?_stamp
  unfold plainLayouts
  rw [List.findSome?_cons, hmark]
  dsimp only
  rw [List.findSome?_cons, hspaces]

/-- The start of a day is its date. -/
theorem instant?_date {t : Instant} (hsecond : t.second = 0) (hnano : t.nano = 0) :
    ({ year := t.civil.year, month := t.civil.month, day := t.civil.day } : Stamp).instant? 0 =
      some t := by
  have hleap : t.inLeapSecond = false := by
    rw [inLeapSecond_eq_false, hnano]
    decide
  have hstamp : t.stamp =
      { year := t.civil.year, month := t.civil.month, day := t.civil.day } := by
    unfold stamp hour minute writtenSecond writtenNano secondOfMinute
    rw [hleap, hsecond, hnano]
    rfl
  rw [← hstamp]
  exact t.instant?_stamp

theorem readLayout_dateAlone (items : List LayoutItem) (hmark : mark.isDigit = false) :
    readLayout {} (dateLayout mark ++ items) (t.civil.textWith mark) =
      readLayout { year := t.civil.year, month := t.civil.month, day := t.civil.day } items [] := by
  have hdate : readLayout {} (dateLayout mark ++ items) (t.civil.textWith mark ++ []) = _ :=
    readLayout_date t.valid_civil hmark noDigitNext_nil
  rwa [List.append_nil] at hdate

/-- A date with hyphens fits no layout that goes on after it. -/
theorem findSome?_readPlain?_date {t : Instant} (hsecond : t.second = 0) (hnano : t.nano = 0) :
    plainLayouts.findSome? (readPlain? · (t.civil.textWith '-')) = some t := by
  have hhyphen : ('-' : Char).isDigit = false := by decide
  have hdate (items : List LayoutItem) := t.readLayout_dateAlone items hhyphen
  have hmissing {items : List LayoutItem} (h : ∀ f : Stamp, readLayout f items [] = none) :
      readPlain? (dateLayout '-' ++ items) (t.civil.textWith '-') = none := by
    rw [readPlain?_eq, hdate, h, Option.bind_none]
  have hwhole : readPlain? (dateLayout '-') (t.civil.textWith '-') = some t := by
    rw [readPlain?_eq, ← List.append_nil (dateLayout '-'), hdate]
    exact instant?_date hsecond hnano
  unfold plainLayouts
  simp only [List.append_assoc, List.findSome?_cons]
  rw [hmissing fun _ => rfl, hmissing fun _ => rfl, hmissing fun _ => rfl, hmissing fun _ => rfl,
    hwhole]

/-- A date with slashes fits only the last layout. -/
theorem findSome?_readPlain?_slashes {t : Instant} (hsecond : t.second = 0) (hnano : t.nano = 0) :
    plainLayouts.findSome? (readPlain? · (t.civil.textWith '/')) = some t := by
  have hslash : ('/' : Char).isDigit = false := by decide
  have hdate (items : List LayoutItem) := t.readLayout_dateAlone items hslash
  have hnone (items : List LayoutItem) :
      readPlain? (dateLayout '-' ++ items) (t.civil.textWith '/') = none := by
    have hother : readLayout {} (dateLayout '-' ++ items) (t.civil.textWith '/' ++ []) = none :=
      readLayout_otherMark hslash (by decide)
    rw [List.append_nil] at hother
    rw [readPlain?_eq, hother, Option.bind_none]
  have hwhole : readPlain? (dateLayout '/') (t.civil.textWith '/') = some t := by
    rw [readPlain?_eq, ← List.append_nil (dateLayout '/'), hdate]
    exact instant?_date hsecond hnano
  have halone := hnone []
  rw [List.append_nil] at halone
  unfold plainLayouts
  simp only [List.append_assoc, List.findSome?_cons, hnone, halone, hwhole]

/-! ## White space around a text -/

variable {before after : List Char}

theorem ofText?_around (hbefore : before.all isSpace = true) (hafter : after.all isSpace = true)
    (hfirst : DigitFirst s) (hlast : ∀ c ∈ s.getLast?, isSpace c = false) :
    ofText? (before ++ s ++ after) =
      (readStrict? s <|> plainLayouts.findSome? (readPlain? · s)) := by
  obtain ⟨d, hd, hdigit⟩ := hfirst
  have hne : s ≠ [] := by
    rintro rfl
    cases hd
  have hspace : ∀ c ∈ s.head?, isSpace c = false := by
    intro c hc
    rw [Option.mem_unique hc hd]
    exact isSpace_of_isDigit hdigit
  unfold ofText?
  rw [Text.trim_around hbefore hafter hne hspace hlast]

theorem digitFirst_textWith {c : Civil} (hc : c.FourDigits) (mark : Char) (rest : List Char) :
    DigitFirst (c.textWith mark ++ rest) := by
  have hyear : yearText c.year = padded 4 c.year.toNat := if_pos hc
  unfold Civil.textWith
  rw [hyear]
  simp only [List.append_assoc]
  exact digitFirst_padded ..

/-- No white space is written at the end of a number. -/
theorem isSpace_getLast?_padded {w n : Nat} (hs : ∃ front, s = front ++ padded w n) :
    ∀ c ∈ s.getLast?, isSpace c = false := by
  obtain ⟨front, rfl⟩ := hs
  intro c hc
  rw [List.getLast?_append_of_ne_nil _ (padded_ne_nil w n)] at hc
  exact isSpace_of_isDigit (allDigits_padded w n c (List.mem_of_getLast? hc))

/-- **The international form is read as its instant, with white space around it, too.** -/
theorem ofText?_text {t : Instant} (hbefore : before.all isSpace = true)
    (hafter : after.all isSpace = true) (hyear : t.civil.FourDigits) (h : t.WrittenFully digits) :
    ofText? (before ++ t.text digits ++ after) = some t := by
  have hfirst : DigitFirst (t.text digits) := by
    rw [text_eq, List.append_assoc]
    exact digitFirst_textWith hyear ..
  have hlast : ∀ c ∈ (t.text digits).getLast?, isSpace c = false := by
    rw [text_eq, List.getLast?_concat]
    rintro c ⟨⟩
    decide
  rw [ofText?_around hbefore hafter hfirst hlast, readStrict?_text hyear h]
  rfl

/-- Date and time with a space between them. -/
theorem ofText?_time {t : Instant} (hbefore : before.all isSpace = true)
    (hafter : after.all isSpace = true) (hyear : t.civil.FourDigits) (h : t.WrittenFully digits) :
    ofText? (before ++ (t.civil.textWith '-' ++ ' ' :: t.timeText digits) ++ after) = some t := by
  have hlast : ∀ c ∈ (t.civil.textWith '-' ++ ' ' :: t.timeText digits).getLast?,
      isSpace c = false := by
    refine isSpace_getLast?_padded (w := digits) (n := t.writtenNano / 10 ^ (9 - digits))
      ⟨t.civil.textWith '-' ++ ' ' :: (padded 2 t.hour ++ ':' :: padded 2 t.minute ++ ':' ::
        padded 2 t.writtenSecond ++ ['.']), ?_⟩
    unfold timeText fractionText
    rw [if_neg (Nat.ne_of_gt h.1)]
    simp only [List.append_assoc, List.cons_append, List.nil_append]
    rfl
  rw [ofText?_around hbefore hafter (digitFirst_textWith hyear ..) hlast,
    readStrict?_of_noOffset hyear h, findSome?_readPlain?_time h]
  rfl

/-- A date with hyphens or slashes is the start of its day. -/
theorem ofText?_date {t : Instant} (hbefore : before.all isSpace = true)
    (hafter : after.all isSpace = true) (hyear : t.civil.FourDigits) (hsecond : t.second = 0)
    (hnano : t.nano = 0) (hmark : mark = '-' ∨ mark = '/') :
    ofText? (before ++ t.civil.textWith mark ++ after) = some t := by
  have hfirst := digitFirst_textWith hyear mark []
  have hlast : ∀ c ∈ (t.civil.textWith mark).getLast?, isSpace c = false := by
    refine isSpace_getLast?_padded (w := 2) (n := t.civil.day)
      ⟨yearText t.civil.year ++ mark :: padded 2 t.civil.month ++ [mark], ?_⟩
    unfold Civil.textWith
    simp only [List.append_assoc, List.cons_append, List.nil_append]
  rw [List.append_nil] at hfirst
  rw [ofText?_around hbefore hafter hfirst hlast]
  rcases hmark with rfl | rfl
  · rw [readStrict?_date hyear, findSome?_readPlain?_date hsecond hnano]
    rfl
  · rw [readStrict?_otherMark hyear (by decide) (by decide),
      findSome?_readPlain?_slashes hsecond hnano]
    rfl

end Instant

end FormulaTable.Calendar
