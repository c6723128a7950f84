import FormulaTable.Calendar.Reading
import FormulaTable.Proofs.Calendar.Text
import FormulaTable.Proofs.Text.Space

/-!
# Stored instants read back

The text of an instant with its whole fraction reads back as the instant: each number is read up to
the mark after it, the marks are read one by one, and the fields lead back to the instant that they
were taken from.
-/

namespace FormulaTable.Calendar

open Number
open Text (isSpace trimStart trimStart_cons)

variable {c : Char} {ds rest s : List Char} {digits least most n : Nat} {y : Int} {f f' : Stamp}

/-! ## White space -/

theorem isSpace_of_isDigit (h : c.isDigit = true) : isSpace c = false := by
  simp only [Char.isDigit, Bool.and_eq_true, decide_eq_true_eq, ge_iff_le,
    UInt32.le_iff_toNat_le] at h
  change 48 ≤ c.toNat ∧ c.toNat ≤ 57 at h
  unfold isSpace
  simp only [Bool.or_eq_false_iff, Bool.and_eq_false_iff, decide_eq_false_iff_not,
    beq_eq_false_iff_ne]
  omega

/-- There is no white space before a digit. -/
theorem trimStart_of_digitFirst (h : DigitFirst s) : trimStart s = s := by
  cases s with
  | nil => rfl
  | cons c s =>
      obtain ⟨d, hd, hdigit⟩ := h
      cases hd
      exact trimStart_cons (isSpace_of_isDigit hdigit) s

/-! ## Numbers -/

theorem length_padded {w : Nat} (hw : 0 < w) (h : n < 10 ^ w) : (padded w n).length = w := by
  have hlength := (Nat.length_toDigits_le_iff (by decide) hw).mpr h
  unfold padded
  rw [List.length_append, List.length_replicate]
  omega

theorem readDigits_append (hds : AllDigits ds) (hleast : least ≤ ds.length)
    (hmost : ds.length ≤ most) (hrest : NoDigitNext rest) :
    readDigits least most (ds ++ rest) = some (ofDigits ds, rest) := by
  have hnext : NoDigitNext (rest.take (most - ds.length)) := by
    intro c hc
    rw [List.head?_take] at hc
    split at hc
    · cases hc
    · exact hrest c hc
  have htake : ((ds ++ rest).take most).takeWhile Char.isDigit = ds := by
    rw [List.take_append, List.take_of_length_le hmost, takeWhile_append hds hnext]
  unfold readDigits
  dsimp only
  rw [htake, if_neg (Nat.not_lt.mpr hleast), List.drop_left]

/-- A number of two digits, where white space may stand before it. -/
theorem readDigits_trimStart_padded (h : n < 100) (hrest : NoDigitNext rest) :
    readDigits 1 2 (trimStart (padded 2 n ++ rest)) = some (n, rest) := by
  have hlength : (padded 2 n).length = 2 := length_padded (by decide) h
  rw [trimStart_of_digitFirst (digitFirst_padded ..),
    readDigits_append (allDigits_padded 2 n) (by omega) (by omega) hrest, ofDigits_padded]

theorem readYear_of_digitFirst (h : DigitFirst s) :
    readYear s = (readDigits 1 4 s).map fun (n, rest) => ((n : Int), rest) := by
  rw [readYear]
  · rintro s rfl
    exact h.head?_ne (c := '-') (by decide) rfl
  · rintro s rfl
    exact h.head?_ne (c := '+') (by decide) rfl

theorem readYear_yearText (hrest : NoDigitNext rest) :
    readYear (trimStart (yearText y ++ rest)) = some (y, rest) := by
  have hpadded (n most : Nat) (hmost : (padded 4 n).length ≤ most) :
      readDigits 1 most (padded 4 n ++ rest) = some (n, rest) := by
    have hpos := List.length_pos_iff.mpr (padded_ne_nil 4 n)
    rw [readDigits_append (allDigits_padded 4 n) hpos hmost hrest, ofDigits_padded]
  have hlong (n : Nat) : (padded 4 n).length ≤ (padded 4 n ++ rest).length := by
    rw [List.length_append]
    exact Nat.le_add_right ..
  unfold yearText
  split
  · next hyear =>
    have hlength : (padded 4 y.toNat).length = 4 := length_padded (by decide) (by omega)
    rw [trimStart_of_digitFirst (digitFirst_padded ..), readYear_of_digitFirst (digitFirst_padded ..),
      hpadded _ _ (Nat.le_of_eq hlength), Option.map_some]
    dsimp only
    rw [Int.toNat_of_nonneg hyear.1]
  · split
    · next hneg =>
      rw [List.cons_append, trimStart_cons (by decide), readYear, hpadded _ _ (hlong _),
        Option.map_some]
      have hy : -(y.natAbs : Int) = y := by omega
      dsimp only
      rw [hy]
    · next hneg =>
      rw [List.cons_append, trimStart_cons (by decide), readYear, hpadded _ _ (hlong _),
        Option.map_some]
      have hy : (y.natAbs : Int) = y := by omega
      dsimp only
      rw [hy]

/-- A fraction is read in nanoseconds. -/
theorem readFraction_padded (hpos : 0 < digits) (hle : digits ≤ 9) (h : n < 10 ^ digits)
    (hrest : NoDigitNext rest) :
    readFraction ('.' :: padded digits n ++ rest) = some (n * 10 ^ (9 - digits), rest) := by
  have hlength : (padded digits n).length = digits := length_padded hpos h
  have hne : ¬ (padded digits n).isEmpty = true := mt List.isEmpty_iff.mp (padded_ne_nil digits n)
  have htake : (padded digits n).take 9 = padded digits n := List.take_of_length_le (by omega)
  rw [List.cons_append, readFraction, takeWhile_append (allDigits_padded digits n) hrest, if_neg hne,
    dropWhile_append (allDigits_padded digits n) hrest, htake, hlength, ofDigits_padded]
  rfl

/-! ## Layouts -/

theorem readLayout_cons {item : LayoutItem} {items : List LayoutItem}
    (h : item.read f s = some (f', rest)) :
    readLayout f (item :: items) s = readLayout f' items rest := by
  rw [readLayout, h, Option.bind_some]

theorem read_mark : (LayoutItem.mark c).read f (c :: rest) = some (f, rest) := by
  rw [LayoutItem.read, readMark, if_pos rfl]
  rfl

/-- There is no white space before a mark. -/
theorem read_spaces (h : isSpace c = false) :
    LayoutItem.spaces.read f (c :: rest) = some (f, c :: rest) := by
  rw [LayoutItem.read, trimStart_cons h]

/-- The numbers of the month and the day have two digits. -/
theorem Civil.Valid.lt_hundred {c : Civil} (hc : c.Valid) : c.month < 100 ∧ c.day < 100 := by
  have hmonth := hc.2.1
  have hday := Nat.le_trans hc.2.2.2 (daysInMonth_le _ _)
  omega

theorem readLayout_storedDate {c : Civil} (hc : c.Valid) (hrest : NoDigitNext rest) :
    readLayout f storedDate (c.text ++ rest) =
      some ({ f with year := c.year, month := c.month, day := c.day }, rest) := by
  have hdash {s : List Char} : NoDigitNext ('-' :: s) := noDigitNext_cons (by decide)
  obtain ⟨hmonth, hday⟩ := hc.lt_hundred
  unfold storedDate Civil.text
  simp only [List.append_assoc, List.cons_append]
  rw [readLayout_cons (by rw [LayoutItem.read, readYear_yearText hdash]; rfl),
    readLayout_cons (read_spaces (by decide)), readLayout_cons read_mark,
    readLayout_cons (by rw [LayoutItem.read, readDigits_trimStart_padded hmonth hdash]; rfl),
    readLayout_cons (read_spaces (by decide)), readLayout_cons read_mark,
    readLayout_cons (by rw [LayoutItem.read, readDigits_trimStart_padded hday hrest]; rfl),
    readLayout]

namespace Instant

variable (t : Instant)

theorem writtenNano_lt : t.writtenNano < 10 ^ 9 := by
  have hlt := t.nano_lt
  unfold writtenNano inLeapSecond
  unfold nanosPerSecond at *
  split
  · omega
  · next h =>
    rw [decide_eq_true_iff] at h
    omega

theorem readFraction_fractionText {digits : Nat} (hpos : 0 < digits) (hle : digits ≤ 9)
    (hfull : t.writtenNano % 10 ^ (9 - digits) = 0) (hrest : NoDigitNext rest) :
    readFraction (t.fractionText digits ++ rest) = some (t.writtenNano, rest) := by
  have hsplit : 10 ^ digits * 10 ^ (9 - digits) = 10 ^ 9 := by
    rw [← Nat.pow_add, Nat.add_sub_cancel' hle]
  have hlt : t.writtenNano / 10 ^ (9 - digits) < 10 ^ digits :=
    Nat.div_lt_of_lt_mul (by rw [Nat.mul_comm, hsplit]; exact t.writtenNano_lt)
  unfold fractionText
  rw [if_neg (Nat.ne_of_gt hpos)]
  exact (readFraction_padded hpos hle hlt hrest).trans
    (by rw [Nat.div_mul_cancel (Nat.dvd_of_mod_eq_zero hfull)])

/-- The fraction is written in full. -/
theorem readFraction_fractionDigits :
    readFraction (t.fractionText t.fractionDigits ++ ['Z']) = some (t.writtenNano, ['Z']) := by
  have hZ : NoDigitNext ['Z'] := noDigitNext_cons (by decide)
  unfold fractionDigits
  split
  · next hzero =>
    rw [hzero]
    rfl
  split
  · next hfull => exact t.readFraction_fractionText (by decide) (by decide) hfull hZ
  split
  · next hfull => exact t.readFraction_fractionText (by decide) (by decide) hfull hZ
  · exact t.readFraction_fractionText (by decide) (by decide) (Nat.mod_one _) hZ

theorem noDigitNext_fractionText (digits : Nat) (hrest : NoDigitNext rest) :
    NoDigitNext (t.fractionText digits ++ rest) := by
  unfold fractionText
  split
  · exact hrest
  · exact noDigitNext_cons (by decide)

/-- The numbers of the time of day have two digits. -/
theorem time_lt_hundred : t.hour < 100 ∧ t.minute < 100 ∧ t.writtenSecond < 100 := by
  have hlt : t.second < 86400 := t.second_lt
  have hsecond : t.secondOfMinute < 60 := Nat.mod_lt _ (by decide)
  unfold hour minute writtenSecond
  split <;> omega

theorem readLayout_storedTime :
    readLayout f storedTime (padded 2 t.hour ++ ':' :: padded 2 t.minute ++ ':' ::
        padded 2 t.writtenSecond ++ t.fractionText t.fractionDigits ++ ['Z']) =
      some ({ f with hour := t.hour, minute := t.minute, second := t.writtenSecond,
                     nano := t.writtenNano }, ['Z']) := by
  have hcolon {s : List Char} : NoDigitNext (':' :: s) := noDigitNext_cons (by decide)
  obtain ⟨hhour, hminute, hsecond⟩ := t.time_lt_hundred
  unfold storedTime
  simp only [List.append_assoc, List.cons_append]
  rw [readLayout_cons (by rw [LayoutItem.read, readDigits_trimStart_padded hhour hcolon]; rfl),
    readLayout_cons (read_spaces (by decide)), readLayout_cons read_mark,
    readLayout_cons (by rw [LayoutItem.read, readDigits_trimStart_padded hminute hcolon]; rfl),
    readLayout_cons (read_spaces (by decide)), readLayout_cons read_mark,
    readLayout_cons (by
      rw [LayoutItem.read, readDigits_trimStart_padded hsecond (t.noDigitNext_fractionText _
        (noDigitNext_cons (by decide)))]; rfl),
    readLayout_cons (by rw [LayoutItem.read, t.readFraction_fractionDigits]; rfl),
    readLayout_cons (read_spaces (by decide)), readLayout]

/-! ## Instants -/

theorem ofFields?_fields : ofFields? t.day t.second t.nano = some t := by
  unfold ofFields?
  rw [dif_pos ⟨t.inCalendar, t.second_lt, t.nano_lt, t.leap⟩]

/-- The fields of a date and time as they are written. -/
def stamp : Stamp :=
  { year := t.civil.year, month := t.civil.month, day := t.civil.day, hour := t.hour
    minute := t.minute, second := t.writtenSecond, nano := t.writtenNano }

/-- The second that is written tells a leap second. -/
theorem second_stamp :
    (if t.stamp.second = 60 then (59, t.stamp.nano + nanosPerSecond)
      else (t.stamp.second, t.stamp.nano)) = (t.secondOfMinute, t.nano) := by
  have hlt : t.secondOfMinute < 60 := Nat.mod_lt _ (by decide)
  change (if t.writtenSecond = 60 then (59, t.writtenNano + nanosPerSecond)
    else (t.writtenSecond, t.writtenNano)) = _
  unfold writtenSecond writtenNano
  by_cases hleap : t.inLeapSecond = true
  · have hlate : nanosPerSecond ≤ t.nano := of_decide_eq_true hleap
    have hlast : t.secondOfMinute = 59 := t.leap hlate
    rw [if_pos hleap, if_pos hleap, hlast, if_pos rfl, Nat.sub_add_cancel hlate]
  · rw [if_neg hleap, if_neg hleap, if_neg (Nat.ne_of_lt hlt)]

/-- The fields that are written lead back to the instant. -/
theorem instant?_stamp : t.stamp.instant? 0 = some t := by
  have hday : dayOf? t.stamp.year t.stamp.month t.stamp.day = some t.day :=
    dayOf?_ofDay t.inCalendar
  have hlt := t.second_lt
  have hrange : ¬ (24 ≤ t.stamp.hour ∨ 60 ≤ t.stamp.minute ∨ 61 ≤ t.stamp.second) := by
    change ¬ (24 ≤ t.hour ∨ 60 ≤ t.minute ∨ 61 ≤ t.writtenSecond)
    unfold secondsPerDay at hlt
    unfold writtenSecond hour minute secondOfMinute
    split <;> omega
  have hseconds : (t.stamp.hour : Int) * 3600 + t.stamp.minute * 60 + t.secondOfMinute - 0 * 60 =
      t.second := by
    change (t.hour : Int) * 3600 + t.minute * 60 + t.secondOfMinute - 0 * 60 = t.second
    unfold hour minute secondOfMinute
    omega
  unfold Stamp.instant?
  rw [hday, t.second_stamp, Option.bind_eq_bind, Option.bind_some, if_neg hrange]
  dsimp only
  -- without an offset the seconds stay within the day
  rw [hseconds, Int.ediv_eq_zero_of_lt (by omega) (by omega),
    Int.emod_eq_of_lt (by omega) (by omega), Int.add_zero, Int.toNat_natCast, t.ofFields?_fields]

/-- **The text with the whole fraction reads back as the instant.** -/
theorem ofStored?_fullText : ofStored? t.fullText = some t := by
  have hvalid : t.civil.Valid := valid_ofDay t.day
  have hT {s : List Char} : NoDigitNext ('T' :: s) := noDigitNext_cons (by decide)
  have htime (f : Stamp) := t.readLayout_storedTime (f := f)
  have hseparator (s : List Char) : readSeparator ('T' :: s) = some ((), s) := rfl
  have hzone : readZone ['Z'] = some (0, []) := rfl
  have hend : ¬ (trimStart [] ≠ [] ∨ maxOffset < (0 : Int).natAbs) := by decide
  simp only [List.append_assoc, List.cons_append] at htime
  unfold ofStored? fullText text
  simp only [List.append_assoc, List.cons_append, Option.bind_eq_bind]
  rw [readLayout_storedDate hvalid hT, Option.bind_some, hseparator, Option.bind_some, htime,
    Option.bind_some, hzone, Option.bind_some, if_neg hend]
  exact t.instant?_stamp

end Instant

end FormulaTable.Calendar
