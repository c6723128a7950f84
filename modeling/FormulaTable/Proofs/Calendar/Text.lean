import FormulaTable.Calendar.Text
import FormulaTable.Proofs.Calendar.Day
import FormulaTable.Proofs.Number.Digits

/-!
# The text of an instant tells which instant it is

Each field of a written date and time ends where its digits do. So the text gives back the fields,
and they give back the instant, up to the digits of the fraction that are not written.
-/

namespace FormulaTable.Calendar

open Number

variable {w m n : Nat} {y z : Int} {rest rest' : List Char}

/-! ## Numbers of a fixed width -/

theorem ofDigits_padded (w n : Nat) : ofDigits (padded w n) = n := by
  unfold padded
  rw [ofDigits_zeros_append, ofDigits_toDigits]

theorem allDigits_padded (w n : Nat) : AllDigits (padded w n) :=
  (allDigits_replicate_zero _).append (allDigits_toDigits n)

theorem padded_ne_nil (w n : Nat) : padded w n ≠ [] :=
  List.append_ne_nil_of_right_ne_nil _ Nat.toDigits_ne_nil

theorem digitFirst_padded (w n : Nat) (rest : List Char) : DigitFirst (padded w n ++ rest) :=
  (allDigits_padded w n).digitFirst (padded_ne_nil w n)

theorem padded_append_inj (hrest : NoDigitNext rest) (hrest' : NoDigitNext rest')
    (h : padded w m ++ rest = padded w n ++ rest') : m = n ∧ rest = rest' := by
  obtain ⟨hdigits, hrests⟩ :=
    digits_append_inj (allDigits_padded w m) (allDigits_padded w n) hrest hrest' h
  refine ⟨?_, hrests⟩
  rw [← ofDigits_padded w m, hdigits, ofDigits_padded]

/-! ## Dates -/

/-- The sign of a year, if it has one. -/
def yearSign (y : Int) : Option Char :=
  if 0 ≤ y ∧ y ≤ 9999 then none else some (if y < 0 then '-' else '+')

theorem yearText_eq (y : Int) : yearText y = (yearSign y).toList ++ padded 4 y.natAbs := by
  unfold yearText yearSign
  split
  · next hyear =>
    have habs : y.toNat = y.natAbs := by omega
    rw [habs]
    rfl
  · rfl

theorem isDigit_of_mem_yearSign {c : Char} (h : c ∈ yearSign y) : c.isDigit = false := by
  unfold yearSign at h
  split at h
  · cases h
  · cases h
    split <;> decide

theorem yearSign_eq_minus : yearSign y = some '-' ↔ y < 0 := by
  unfold yearSign
  split
  · next hyear => exact ⟨(nomatch ·), fun h => absurd hyear.1 (Int.not_le.mpr h)⟩
  · split
    · next hneg => exact ⟨fun _ => hneg, fun _ => rfl⟩
    · next hneg => exact ⟨fun h => absurd h (by decide), fun h => absurd h hneg⟩

/-- A year is told from its sign and its magnitude. -/
theorem year_eq (hsign : yearSign y = yearSign z) (habs : y.natAbs = z.natAbs) : y = z := by
  have hneg : y < 0 ↔ z < 0 := by rw [← yearSign_eq_minus, ← yearSign_eq_minus, hsign]
  omega

theorem yearText_append_inj (hrest : NoDigitNext rest) (hrest' : NoDigitNext rest')
    (h : yearText y ++ rest = yearText z ++ rest') : y = z ∧ rest = rest' := by
  rw [yearText_eq, yearText_eq, List.append_assoc, List.append_assoc] at h
  obtain ⟨hsign, hdigits⟩ := optional_append_inj
    (fun _ hc => (digitFirst_padded ..).head?_ne (isDigit_of_mem_yearSign hc))
    (fun _ hc => (digitFirst_padded ..).head?_ne (isDigit_of_mem_yearSign hc)) h
  obtain ⟨habs, hrests⟩ := padded_append_inj hrest hrest' hdigits
  exact ⟨year_eq hsign habs, hrests⟩

/-- A number of a fixed width, and then a mark and the rest. -/
theorem padded_cons_inj {c : Char} (hc : c.isDigit = false)
    (h : padded w m ++ c :: rest = padded w n ++ c :: rest') : m = n ∧ rest = rest' := by
  obtain ⟨hn, hrests⟩ := padded_append_inj (noDigitNext_cons hc) (noDigitNext_cons hc) h
  exact ⟨hn, (List.cons.inj hrests).2⟩

theorem civil_text_append_inj {c d : Civil} (hrest : NoDigitNext rest) (hrest' : NoDigitNext rest')
    (h : c.text ++ rest = d.text ++ rest') : c = d ∧ rest = rest' := by
  have hdash : '-'.isDigit = false := by decide
  unfold Civil.text at h
  simp only [List.append_assoc, List.cons_append] at h
  obtain ⟨hyear, h⟩ := yearText_append_inj (noDigitNext_cons hdash) (noDigitNext_cons hdash) h
  obtain ⟨hmonth, h⟩ := padded_cons_inj hdash (List.cons.inj h).2
  obtain ⟨hday, hrests⟩ := padded_append_inj hrest hrest' h
  exact ⟨Civil.mk.injEq .. ▸ ⟨hyear, hmonth, hday⟩, hrests⟩

/-! ## Instants -/

namespace Instant

variable {s t : Instant} {digits : Nat}

theorem fractionText_append_inj {c : Char} (hdigits : digits ≠ 0) (hc : c.isDigit = false)
    (h : s.fractionText digits ++ c :: rest = t.fractionText digits ++ c :: rest') :
    s.writtenNano / 10 ^ (9 - digits) = t.writtenNano / 10 ^ (9 - digits) := by
  unfold fractionText at h
  rw [if_neg hdigits, if_neg hdigits] at h
  exact (padded_cons_inj hc (List.cons.inj h).2).1

/-- A text with digits of the fraction gives back the fields. -/
theorem fields_eq_of_text_eq (hdigits : digits ≠ 0) (h : s.text digits = t.text digits) :
    s.civil = t.civil ∧ s.hour = t.hour ∧ s.minute = t.minute ∧ s.writtenSecond = t.writtenSecond ∧
      s.writtenNano / 10 ^ (9 - digits) = t.writtenNano / 10 ^ (9 - digits) := by
  have hT : 'T'.isDigit = false := by decide
  have hcolon : ':'.isDigit = false := by decide
  have hfraction (t : Instant) : NoDigitNext (t.fractionText digits ++ ['Z']) := by
    unfold fractionText
    rw [if_neg hdigits]
    exact noDigitNext_cons (by decide)
  unfold text at h
  simp only [List.append_assoc, List.cons_append] at h
  obtain ⟨hcivil, h⟩ := civil_text_append_inj (noDigitNext_cons hT) (noDigitNext_cons hT) h
  obtain ⟨hhour, h⟩ := padded_cons_inj hcolon (List.cons.inj h).2
  obtain ⟨hminute, h⟩ := padded_cons_inj hcolon h
  obtain ⟨hsecond, h⟩ := padded_append_inj (hfraction s) (hfraction t) h
  exact ⟨hcivil, hhour, hminute, hsecond, fractionText_append_inj hdigits (by decide) h⟩

/-- The second of the minute and the leap second are told from the second that is written. -/
theorem second_eq_of_writtenSecond_eq (h : s.writtenSecond = t.writtenSecond) :
    s.secondOfMinute = t.secondOfMinute ∧ s.inLeapSecond = t.inLeapSecond := by
  have hlast {t : Instant} (h : t.inLeapSecond = true) : t.secondOfMinute = 59 :=
    t.leap (of_decide_eq_true h)
  have hlt (t : Instant) : t.secondOfMinute < 60 := Nat.mod_lt _ (by decide)
  have hs := hlt s
  have ht := hlt t
  unfold writtenSecond at h
  cases hsleap : s.inLeapSecond
  · cases htleap : t.inLeapSecond
    · rw [hsleap, htleap] at h
      exact ⟨h, rfl⟩
    · have := hlast htleap
      rw [hsleap, htleap, if_pos rfl, if_neg Bool.false_ne_true] at h
      omega
  · cases htleap : t.inLeapSecond
    · have := hlast hsleap
      rw [hsleap, htleap, if_pos rfl, if_neg Bool.false_ne_true] at h
      omega
    · rw [hlast hsleap, hlast htleap]
      exact ⟨rfl, rfl⟩

/-- The instant keeps to whole milliseconds. -/
def WholeMillis (t : Instant) : Prop := t.nano % nanosPerMilli = 0

/-- **The text with milliseconds tells which instant it is**, among those of whole milliseconds. -/
theorem milliText_inj (hs : s.WholeMillis) (ht : t.WholeMillis) (h : s.milliText = t.milliText) :
    s = t := by
  obtain ⟨hcivil, hhour, hminute, hwritten, hfraction⟩ := fields_eq_of_text_eq (by decide) h
  obtain ⟨hsecond, hleap⟩ := second_eq_of_writtenSecond_eq hwritten
  have hday : s.day = t.day := ofDay_injective hcivil
  have hsecond : s.second = t.second := by
    unfold hour at hhour
    unfold minute at hminute
    unfold secondOfMinute at hsecond
    omega
  have hnano : s.nano = t.nano := by
    have hlate {t : Instant} (h : t.inLeapSecond = true) : 1000000000 ≤ t.nano :=
      of_decide_eq_true h
    unfold WholeMillis nanosPerMilli at hs ht
    unfold writtenNano nanosPerSecond at hfraction
    rw [hleap] at hfraction
    cases htleap : t.inLeapSecond
    · rw [htleap, if_neg Bool.false_ne_true, if_neg Bool.false_ne_true] at hfraction
      omega
    · have := hlate htleap
      have := hlate (hleap.trans htleap)
      rw [htleap, if_pos rfl, if_pos rfl] at hfraction
      omega
  cases s
  cases t
  cases hday
  cases hsecond
  cases hnano
  rfl

end Instant

end FormulaTable.Calendar
