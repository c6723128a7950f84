import FormulaTable.Proofs.Calendar.CalendarUnit
import FormulaTable.Proofs.Number.Opposite

/-!
# Units of fixed length

To move an instant by units of fixed length is to add a whole number of milliseconds to it. The
opposite amount is the opposite number of milliseconds, and the milliseconds of a whole amount are
computed without rounding, so the amount is counted again between the two instants.
-/

namespace FormulaTable.Calendar

open Number (Whole Fits Great whole_one whole_ofNat whole_ofInt)

variable {t r : Instant} {u : TimeUnit} {a : Int} {ms : Nat} {x : Float}

/-! ## Amounts in milliseconds -/

/-- An amount of units of `ms` milliseconds in milliseconds, to the nearest whole number. -/
def amountMillis (x : Float) (ms : Nat) : Int :=
  Number.toInt64 (Number.roundHalfAway (x * Float.ofNat ms))

theorem whole_millis (hu : u.millis? = some ms) : Whole (Float.ofNat ms) ms ∧ 0 < ms := by
  cases u with
  | year | month => cases hu
  | week | day | hour | minute | second | millisecond =>
      cases hu
      exact ⟨whole_ofNat (by decide), by decide⟩

theorem amountMillis_neg (hu : u.millis? = some ms) (hx : x.isFinite = true)
    (hlt : (amountMillis x ms).natAbs < 2 ^ 62) : amountMillis (-x) ms = -amountMillis x ms := by
  unfold amountMillis at *
  rw [Number.mul_neg_left hx (whole_millis hu).1.isFinite, Number.roundHalfAway_neg,
    Number.toInt64_neg hlt]

/-- A unit is a millisecond or has eight milliseconds some whole number of times. -/
theorem millis?_eq_one_or_dvd (hu : u.millis? = some ms) : ms = 1 ∨ 8 ∣ ms := by
  cases u with
  | year | month => cases hu
  | week | day | hour | minute | second | millisecond =>
      cases hu
      decide

theorem fits_amount (hu : u.millis? = some ms) (hx : Whole x a)
    (hlt : (a * ms).natAbs < 2 ^ 56) : Fits (a * ms) := by
  rcases millis?_eq_one_or_dvd hu with rfl | hdvd
  · rw [Nat.cast_one, Int.mul_one] at hlt ⊢
    exact hx.fits (hlt.le.trans (by decide))
  · have hdvd : (2 ^ 3 : Int) ∣ ms := by exact_mod_cast hdvd
    exact Number.fits_of_dvd (by decide) (hdvd.mul_left a) hlt.le

theorem amountMillis_eq (hu : u.millis? = some ms) (hx : Whole x a)
    (hlt : (a * ms).natAbs < 2 ^ 56) : amountMillis x ms = a * ms := by
  obtain ⟨hms, hpos⟩ := whole_millis hu
  have hwhole := hx.mul hms (by exact_mod_cast hpos) (fits_amount hu hx hlt)
  unfold amountMillis
  rw [hwhole.roundHalfAway, hwhole.toInt64 (by omega)]

/-- One unit is its milliseconds. -/
theorem amountMillis_one (hu : u.millis? = some ms) : amountMillis 1 ms = ms := by
  have hlt : ms < 2 ^ 56 := by
    cases u with
    | year | month => cases hu
    | week | day | hour | minute | second | millisecond =>
        cases hu
        decide
  rw [amountMillis_eq hu whole_one (by rw [Int.one_mul]; exact hlt), Int.one_mul]

/-- **A whole amount in milliseconds is exact**, or it is greater than any time. -/
theorem amountMillis_whole (hu : u.millis? = some ms) (hx : Whole x a) :
    amountMillis x ms = a * ms ∧ Fits (a * ms) ∨ 2 ^ 56 ≤ (amountMillis x ms).natAbs := by
  rcases Nat.lt_or_ge (a * ms).natAbs (2 ^ 56) with hlt | hge
  · exact .inl ⟨amountMillis_eq hu hx hlt, fits_amount hu hx hlt⟩
  · have hgreat : Great 56 (x * Float.ofNat ms) := hx.great_mul (whole_millis hu).1 hge
    have hround : Number.roundHalfAway (x * Float.ofNat ms) = x * Float.ofNat ms :=
      (hgreat.mono (by decide)).toWhole
    unfold amountMillis
    rw [hround]
    exact .inr (hgreat.le_toInt64 (by decide))

namespace Instant

/-! ## Moving -/

/-- **To move by units of fixed length is to add their milliseconds.** -/
theorem shift?_eq_some_iff (hu : u.millis? = some ms) (ht : t.inLeapSecond = false) :
    t.shift? x u = some r ↔ x.isFinite = true ∧ r.inLeapSecond = false ∧
      r.nanos = t.nanos + amountMillis x ms * nanosPerMilli := by
  unfold shift?
  rw [hu]
  split
  · next hfinite =>
    rw [and_iff_right hfinite]
    exact addMillis?_eq_some_iff ht
  · next hfinite => exact iff_of_false (fun h => nomatch h) fun h => hfinite h.1

/-- The time between two instants is short compared with the numbers that are counted exactly. -/
theorem amountMillis_natAbs_lt (hu : u.millis? = some ms) (ht : t.inLeapSecond = false)
    (h : t.shift? x u = some r) : (amountMillis x ms).natAbs < 2 ^ 54 := by
  obtain ⟨-, -, hnanos⟩ := (shift?_eq_some_iff hu ht).mp h
  have hlt := t.nanos_natAbs_lt
  have hlt' := r.nanos_natAbs_lt
  unfold nanosPerMilli at *
  omega

/-- The opposite amount moves back. -/
theorem shift?_neg (hu : u.millis? = some ms) (ht : t.inLeapSecond = false)
    (h : t.shift? x u = some r) : r.shift? (-x) u = some t := by
  have hlt := amountMillis_natAbs_lt hu ht h
  obtain ⟨hfinite, hr, hnanos⟩ := (shift?_eq_some_iff hu ht).mp h
  have hback : t.nanos = r.nanos + -amountMillis x ms * nanosPerMilli := by
    rw [hnanos, Int.neg_mul, Int.add_neg_cancel_right]
  rw [shift?_eq_some_iff hu hr, amountMillis_neg hu hfinite (by omega)]
  exact ⟨Number.isFinite_neg hfinite, ht, hback⟩

/-! ## Counting -/

theorem difference_fixed (hu : u.millis? = some ms) (later earlier : Instant) :
    later.difference earlier u =
      Number.floor ((later.toNumber - earlier.toNumber) / Float.ofNat ms) := by
  cases u with
  | year | month => cases hu
  | week | day | hour | minute | second | millisecond =>
      cases hu
      rfl

/-- **A whole amount that an instant is moved by is counted again.** -/
theorem difference_of_shift? (hu : u.millis? = some ms) (ht : t.inLeapSecond = false)
    (hx : Whole x a) (h : t.shift? x u = some r) : r.difference t u = x := by
  have hlt := amountMillis_natAbs_lt hu ht h
  obtain ⟨-, -, hnanos⟩ := (shift?_eq_some_iff hu ht).mp h
  obtain ⟨hms, hpos⟩ := whole_millis hu
  rcases amountMillis_whole hu hx with ⟨hmillis, hfits⟩ | hge
  · -- the parts below a millisecond are equal, so they do not matter
    have hspan : r.epochMillis - t.epochMillis = a * ms := by
      rw [epochMillis_eq, epochMillis_eq, hnanos, hmillis,
        Int.add_mul_ediv_right _ _ (by decide)]
      omega
    have hfits' : Fits a := hx.fits <| by
      have habs : a.natAbs ≤ (a * ms).natAbs := Number.natAbs_le_mul (by exact_mod_cast hpos)
      omega
    have hsub : Whole (r.toNumber - t.toNumber) (a * ms) := by
      rw [← hspan] at hfits ⊢
      exact (whole_ofInt r.epochMillis_natAbs_lt).sub (whole_ofInt t.epochMillis_natAbs_lt) hfits
    have hdiv := hsub.div hms (by exact_mod_cast hpos) hfits'
    rw [difference_fixed hu, hdiv.floor]
    exact hdiv.unique hx
  · omega

end Instant

/-! ## Moving and counting -/

/-- **To move an instant and to count the units in between are inverse to each other.** Months keep
the time of day and move the day only where the month is too short for it, years are twelve months,
and units of fixed length add up. -/
theorem moving_and_counting (d : Instant) (hd : d.inLeapSecond = false) :
    (∀ n r, d.shift? (Float.ofInt n) .month = some r →
      r.difference d .month = Float.ofInt n ∧ r.second = d.second ∧ r.nano = d.nano ∧
        r.civil.day = min d.civil.day (daysInMonth r.civil.year r.civil.month) ∧
        (d.civil.day ≤ 28 → r.shift? (Float.ofInt (-n)) .month = some d)) ∧
    (∀ n, d.shift? (Float.ofInt n) .year = d.shift? (Float.ofInt (12 * n)) .month ∧
      ∀ r, d.shift? (Float.ofInt n) .year = some r → r.difference d .year = Float.ofInt n) ∧
    ∀ u ms, u.millis? = some ms →
      (∀ n r, d.shift? (Float.ofInt n) u = some r → r.difference d u = Float.ofInt n) ∧
        ∀ x r, d.shift? x u = some r → r.shift? (-x) u = some d := by
  refine ⟨fun n r h => ?_, fun n => ⟨Instant.shift?_year_eq, fun r h => ?_⟩, fun u ms hu =>
    ⟨fun n r h => ?_, fun x r => Instant.shift?_neg hu hd⟩⟩
  · obtain ⟨-, hr⟩ := Instant.shift?_month_eq_some_iff.mp h
    obtain ⟨hcivil, hsecond, hnano⟩ := Instant.addMonths?_eq_some_iff.mp hr
    refine ⟨Instant.difference_month_of_addMonths? hr, hsecond, hnano, ?_,
      Instant.shift?_month_neg h⟩
    rw [hcivil]
    rfl
  · rw [Instant.shift?_year_eq, Instant.shift?_month_eq_some_iff] at h
    exact Instant.difference_year_of_addMonths? h.2
  · obtain ⟨a, ha⟩ := Number.exists_whole_ofInt ((Instant.shift?_eq_some_iff hu hd).mp h).1
    exact Instant.difference_of_shift? hu hd ha h

/-- The last noon of January 2024 and the noon a month later, four weeks and a day on. -/
theorem end_of_january_moved : ∃ d r : Instant, d.inLeapSecond = false ∧
    d.civil = { year := 2024, month := 1, day := 31 } ∧
    r.civil = { year := 2024, month := 2, day := 29 } ∧
    d.shift? (Float.ofInt 1) .month = some r ∧ r.difference d .month = Float.ofInt 1 ∧
    d.shift? (Float.ofInt 29) .day = some r ∧ r.shift? (-Float.ofInt 29) .day = some d ∧
    r.difference d .day = Float.ofInt 29 := by
  let d : Instant := ⟨19753, 43200, 0, by decide, by decide, by decide, by decide⟩
  let r : Instant := ⟨19782, 43200, 0, by decide, by decide, by decide, by decide⟩
  have hd : d.inLeapSecond = false := rfl
  have hmonth : d.shift? (Float.ofInt 1) .month = some r :=
    Instant.shift?_month_eq_some_iff.mpr ⟨by decide, by decide⟩
  have hday : d.shift? (Float.ofInt 29) .day = some r := by decide +kernel
  obtain ⟨hmonths, -, hfixed⟩ := moving_and_counting d hd
  obtain ⟨hcounted, hback⟩ := hfixed .day 86400000 rfl
  exact ⟨d, r, hd, by decide, by decide, hmonth, (hmonths 1 r hmonth).1, hday, hback _ r hday,
    hcounted 29 r hday⟩

end FormulaTable.Calendar
