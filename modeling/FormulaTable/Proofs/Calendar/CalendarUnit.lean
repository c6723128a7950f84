import FormulaTable.Proofs.Calendar.Number
import FormulaTable.Proofs.Calendar.TimeLine
import FormulaTable.Proofs.Number.Integer

/-!
# Years and months

To move an instant by years or months is to add to the number of its month. The time of day is kept,
and the day of the month where the month has it. The months between two instants are the difference
of the numbers of their months.
-/

namespace FormulaTable.Calendar

open Number (Whole whole_one whole_ofNat whole_ofInt)

variable {t r : Instant} {u : TimeUnit} {m n : Int}

namespace TimeUnit

/-- The number of months of a unit that follows the calendar. -/
def monthCount : TimeUnit → Int
  | .year => 12
  | _ => 1

theorem whole_months (u : TimeUnit) : Whole u.months u.monthCount := by
  cases u with
  | year => exact whole_ofNat (n := 12) (by decide)
  | month | week | day | hour | minute | second | millisecond => exact whole_one

theorem monthCount_pos (u : TimeUnit) : 0 < u.monthCount := by
  cases u <;> decide

end TimeUnit

namespace Instant

/-! ## Moving -/

/-- To move by months is to add to the number of the month. -/
theorem addMonths?_eq_some_iff : t.addMonths? m = some r ↔
    r.civil = .ofMonth (t.civil.monthIndex + m)
        (min t.civil.day (monthLength (t.civil.monthIndex + m))) ∧
      r.second = t.second ∧ r.nano = t.nano := by
  let c := Civil.ofMonth (t.civil.monthIndex + m)
    (min t.civil.day (monthLength (t.civil.monthIndex + m)))
  exact bind_dayOf?_eq_some_iff (c := c)

/-- To move back leads to the start, unless the day had to give way to the end of a month. -/
theorem addMonths?_neg (h : t.addMonths? m = some r) (hday : t.civil.day ≤ 28) :
    r.addMonths? (-m) = some t := by
  rw [addMonths?_eq_some_iff] at h ⊢
  obtain ⟨hcivil, hsecond, hnano⟩ := h
  have hlength := le_monthLength (t.civil.monthIndex + m)
  have hback : t.civil.monthIndex + m + -m = t.civil.monthIndex := by omega
  rw [Nat.min_eq_left (by omega)] at hcivil
  rw [hcivil, monthIndex_ofMonth, hback]
  refine ⟨?_, hsecond.symm, hnano.symm⟩
  show t.civil = .ofMonth t.civil.monthIndex (min t.civil.day _)
  rw [Nat.min_eq_left t.valid_civil.day_le_monthLength,
    ofMonth_monthIndex t.valid_civil.month]

/-- The greatest number of months that an instant is moved by. -/
theorem whole_maxMonths : Whole maxMonths 4294967295 := whole_ofNat (n := 4294967295) (by decide)

/-- **An amount of years or months is a number of months**, unless it is out of all proportion. -/
theorem shift?_ofInt (hu : u.millis? = none) : t.shift? (Float.ofInt n) u =
    if (n * u.monthCount).natAbs ≤ 4294967295 then t.addMonths? (n * u.monthCount) else none := by
  have hle : n.natAbs ≤ (n * u.monthCount).natAbs := Number.natAbs_le_mul u.monthCount_pos
  have hmonths (hlt : (n * u.monthCount).natAbs < 2 ^ 53) :
      Whole (Float.ofInt n * u.months) (n * u.monthCount) :=
    (whole_ofInt (hle.trans_lt hlt)).mul u.whole_months u.monthCount_pos (Number.fits_of_le hlt.le)
  unfold shift?
  rw [hu]
  dsimp only
  by_cases hmost : (n * u.monthCount).natAbs ≤ 4294967295
  · have hn : Whole (Float.ofInt n) n := whole_ofInt (by omega)
    have hwhole := hmonths (by omega)
    rw [if_pos hmost, if_pos hn.isFinite, hn.truncate, hwhole.toInt64 (by omega)]
    exact if_neg (mt (whole_maxMonths.lt_abs_iff (by decide) hwhole).mp (Nat.not_lt.mpr hmost))
  · rw [if_neg hmost]
    split
    · next hfinite =>
      obtain ⟨a, ha⟩ := Number.exists_whole_ofInt hfinite
      rw [ha.truncate]
      refine if_pos ?_
      rcases Nat.lt_or_ge (n * u.monthCount).natAbs (2 ^ 53) with hlt | hge
      · exact (whole_maxMonths.lt_abs_iff (by decide) (hmonths hlt)).mpr (Nat.not_le.mp hmost)
      · exact (Number.great_ofInt_mul u.whole_months u.monthCount_pos hfinite hge).lt_abs
          whole_maxMonths (by decide) (by decide)
    · rfl

theorem shift?_ofInt_eq_some_iff (hu : u.millis? = none) :
    t.shift? (Float.ofInt n) u = some r ↔
      (n * u.monthCount).natAbs ≤ 4294967295 ∧ t.addMonths? (n * u.monthCount) = some r := by
  rw [shift?_ofInt hu]
  split
  · next hmost => rw [and_iff_right hmost]
  · next hmost => exact iff_of_false (fun h => nomatch h) fun h => hmost h.1

theorem shift?_month_eq_some_iff : t.shift? (Float.ofInt n) .month = some r ↔
    n.natAbs ≤ 4294967295 ∧ t.addMonths? n = some r := by
  have hcount : n * TimeUnit.month.monthCount = n := Int.mul_one n
  rw [shift?_ofInt_eq_some_iff rfl, hcount]

/-- To move by years is to move by twelve times as many months. -/
theorem shift?_year_eq :
    t.shift? (Float.ofInt n) .year = t.shift? (Float.ofInt (12 * n)) .month := by
  have hyears : n * TimeUnit.year.monthCount = 12 * n := Int.mul_comm n 12
  have hmonths : 12 * n * TimeUnit.month.monthCount = 12 * n := Int.mul_one _
  rw [shift?_ofInt rfl, shift?_ofInt rfl, hyears, hmonths]

/-- A move by months is undone by the opposite one. -/
theorem shift?_month_neg (h : t.shift? (Float.ofInt n) .month = some r)
    (hday : t.civil.day ≤ 28) : r.shift? (Float.ofInt (-n)) .month = some t := by
  rw [shift?_month_eq_some_iff] at h ⊢
  exact ⟨by rw [Int.natAbs_neg]; exact h.1, addMonths?_neg h.2 hday⟩

/-! ## Counting -/

theorem difference_month_eq (later earlier : Instant) : later.difference earlier .month =
    Float.ofInt (later.civil.monthIndex - earlier.civil.monthIndex) := by
  have hyear := later.year_natAbs_le
  have hyear' := earlier.year_natAbs_le
  have hmonth := later.month_le
  have hmonth' := earlier.month_le
  have hyears : (later.civil.year - earlier.civil.year).natAbs < 2 ^ 53 := by omega
  have hmonths : (later.civil.month - earlier.civil.month : Int).natAbs < 2 ^ 53 := by omega
  have htwelve : Whole 12 12 := whole_ofNat (n := 12) (by decide)
  have hsum : (later.civil.year - earlier.civil.year) * 12 +
      ((later.civil.month : Int) - earlier.civil.month) =
      later.civil.monthIndex - earlier.civil.monthIndex := by
    unfold Civil.monthIndex
    omega
  have hwhole := ((whole_ofInt hyears).mul htwelve (by decide)
    (Number.fits_of_le (by omega))).add (whole_ofInt hmonths) (Number.fits_of_le (by omega))
  rw [hsum] at hwhole
  exact hwhole.unique (whole_ofInt (by unfold Civil.monthIndex; omega))

theorem difference_month_of_addMonths? (h : t.addMonths? m = some r) :
    r.difference t .month = Float.ofInt m := by
  have hindex : r.civil.monthIndex - t.civil.monthIndex = m := by
    rw [(addMonths?_eq_some_iff.mp h).1, monthIndex_ofMonth]
    omega
  rw [difference_month_eq, hindex]

theorem difference_year_of_addMonths? (h : t.addMonths? (12 * n) = some r) :
    r.difference t .year = Float.ofInt n := by
  have hyear : r.civil.year - t.civil.year = n := by
    rw [(addMonths?_eq_some_iff.mp h).1, ← monthIndex_div t.valid_civil.month]
    unfold Civil.ofMonth
    dsimp only
    omega
  exact congrArg Float.ofInt hyear

end Instant

end FormulaTable.Calendar
