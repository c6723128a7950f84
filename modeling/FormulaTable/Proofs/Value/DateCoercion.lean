import FormulaTable.Proofs.Calendar.Pattern
import FormulaTable.Proofs.Calendar.UnitBounds
import FormulaTable.Value.Coercion

/-!
# Dates survive coercion

As a number and as text a date keeps its milliseconds, and what is written with a date only keeps its
day.
-/

namespace FormulaTable

open Calendar (Instant TimeUnit)
open Text (isSpace)

namespace Calendar.Instant

variable {d m n : Instant}

/-! ## The number of an instant -/

/-- The number of an instant leads back to the start of its millisecond. -/
theorem ofNumber?_toNumber (hd : d.inLeapSecond = false)
    (hm : d.startOf .millisecond = .ok (some m)) : ofNumber? d.toNumber = some m := by
  have hlt := d.epochMillis_natAbs_lt
  have hwhole := Number.whole_ofInt hlt
  have hstart := (startOf_eq_some_iff hd).mp hm
  unfold ofNumber? toNumber ofEpochMillis?
  rw [if_pos hwhole.isFinite, hwhole.toInt64 (by omega), ofNanos?_eq_some_iff]
  refine ⟨hstart.1, ?_⟩
  have hmillis : TimeUnit.millisecond.start (TimeUnit.millisecond.index d) = d.epochMillis := by
    rw [TimeUnit.start_index_fixed rfl rfl]
    exact Int.ediv_mul_cancel (one_dvd _)
  rw [hstart.2, hmillis, Int.zero_mul, Int.zero_mul, Int.zero_add]

/-! ## The millisecond in writing -/

theorem milli_startOf (hm : m.nano = d.milli * nanosPerMilli) : m.milli = d.milli := by
  unfold milli at *
  rw [hm, Nat.mul_div_cancel _ (by decide)]

/-- Three digits write a whole number of milliseconds in full. -/
theorem writtenFully_startOf (hleap : m.inLeapSecond = false)
    (hm : m.nano = d.milli * nanosPerMilli) : m.WrittenFully 3 := by
  have hwritten : m.writtenNano = d.milli * nanosPerMilli := by
    unfold writtenNano
    rw [hleap, hm]
    rfl
  refine ⟨by decide, by decide, ?_⟩
  rw [hwritten]
  exact Nat.mul_mod_left ..

theorem milliText_congr (hm : m.inLeapSecond = false) (hd : d.inLeapSecond = false)
    (hday : m.day = d.day) (hsecond : m.second = d.second) (hmilli : m.milli = d.milli) :
    m.milliText = d.milliText := by
  unfold milliText text
  rw [m.fractionText_three hm, d.fractionText_three hd, hmilli]
  unfold civil hour minute writtenSecond secondOfMinute
  rw [hm, hd, hday, hsecond]

end Calendar.Instant

namespace Value

/-- **Dates survive coercion.** As a number, as text and in a pattern with milliseconds a date keeps
its milliseconds, and in a pattern without a time it keeps its day. White space around a text does not
matter. -/
theorem dates_survive_coercion (d : Instant) (hd : d.inLeapSecond = false) :
    ∃ m n : Instant, d.startOf .millisecond = .ok (some m) ∧ d.startOf .day = .ok (some n) ∧
      ((date d).toNumber?.bind fun x => (number x).toInstant?) = some m ∧
      (0 ≤ d.civil.year → d.civil.year ≤ 9999 → ∀ before after : List Char,
        before.all isSpace = true → after.all isSpace = true →
          (ofChars (before ++ (date d).chars ++ after)).toInstant? = some m ∧
          Instant.ofText? (before ++ d.format "YYYY-MM-DD HH:mm:ss.SSS".toList ++ after) = some m ∧
          Instant.ofText? (before ++ d.format "YYYY-MM-DD".toList ++ after) = some n ∧
          Instant.ofText? (before ++ d.format "YYYY/MM/DD".toList ++ after) = some n) := by
  obtain ⟨m, hm, hday, hsecond, hnano⟩ := d.exists_startOf_millisecond
  obtain ⟨n, hn, hday', hsecond', hnano'⟩ := d.exists_startOf_day
  have hleap := ((Instant.startOf_eq_some_iff hd).mp hm).1
  have hmilli := Instant.milli_startOf hnano
  have hfull := Instant.writtenFully_startOf hleap hnano
  refine ⟨m, n, hm, hn, Instant.ofNumber?_toNumber hd hm, ?_⟩
  intro hlow hhigh before after hbefore hafter
  have hcivil : m.civil = d.civil := congrArg Calendar.Civil.ofDay hday
  have hcivil' : n.civil = d.civil := congrArg Calendar.Civil.ofDay hday'
  have hyear : d.civil.FourDigits := ⟨hlow, hhigh⟩
  refine ⟨?_, ?_, ?_, ?_⟩
  · have hchars : (date d).chars = m.text 3 := by
      unfold chars toText
      rw [String.toList_ofList]
      exact (Instant.milliText_congr hleap hd hday hsecond hmilli).symm
    unfold ofChars toInstant?
    dsimp only
    rw [hchars, String.toList_ofList]
    exact Instant.ofText?_text hbefore hafter (hcivil ▸ hyear) hfull
  · rw [← Instant.format_congr hday hsecond hmilli, Instant.format_time m (hcivil ▸ hyear) hleap]
    exact Instant.ofText?_time hbefore hafter (hcivil ▸ hyear) hfull
  · rw [Instant.format_date d hyear, ← hcivil']
    exact Instant.ofText?_date hbefore hafter (hcivil' ▸ hyear) hsecond' hnano' (.inl rfl)
  · rw [Instant.format_slashes d hyear, ← hcivil']
    exact Instant.ofText?_date hbefore hafter (hcivil' ▸ hyear) hsecond' hnano' (.inr rfl)

/-- The last nanosecond before 1970 is in the last millisecond, and in the last day. -/
theorem last_millisecond_of_1969 : ∃ d m n : Instant, d.inLeapSecond = false ∧
    d.civil = { year := 1969, month := 12, day := 31 } ∧ d.nano = 999999999 ∧
    d.startOf .millisecond = .ok (some m) ∧ d.startOf .day = .ok (some n) ∧
    (number d.toNumber).toInstant? = some m ∧
    (text " 1969-12-31T23:59:59.999Z\n").toInstant? = some m ∧
    Instant.ofText? " 1969-12-31 23:59:59.999\n".toList = some m ∧
    Instant.ofText? " 1969-12-31\n".toList = some n ∧
    Instant.ofText? " 1969/12/31\n".toList = some n := by
  let d : Instant := ⟨-1, 86399, 999999999, by decide, by decide, by decide, by decide⟩
  have hd : d.inLeapSecond = false := rfl
  obtain ⟨m, n, hm, hn, hnumber, htext⟩ := dates_survive_coercion d hd
  obtain ⟨hchars, htime, hday, hslashes⟩ :=
    htext (by decide) (by decide) [' '] ['\n'] (by decide) (by decide)
  have hcharsText : ofChars ([' '] ++ (date d).chars ++ ['\n']) =
      text " 1969-12-31T23:59:59.999Z\n" := by decide
  have htimeText : [' '] ++ d.format "YYYY-MM-DD HH:mm:ss.SSS".toList ++ ['\n'] =
      " 1969-12-31 23:59:59.999\n".toList := by decide
  have hdayText : [' '] ++ d.format "YYYY-MM-DD".toList ++ ['\n'] = " 1969-12-31\n".toList := by
    decide
  have hslashesText : [' '] ++ d.format "YYYY/MM/DD".toList ++ ['\n'] = " 1969/12/31\n".toList := by
    decide
  rw [hcharsText] at hchars
  rw [htimeText] at htime
  rw [hdayText] at hday
  rw [hslashesText] at hslashes
  exact ⟨d, m, n, hd, by decide, rfl, hm, hn, hnumber, hchars, htime, hday, hslashes⟩

end Value

end FormulaTable
