import FormulaTable.Calendar.TimeUnit
import FormulaTable.Proofs.Calendar.Day
import FormulaTable.Proofs.Number.Operations

/-!
# Numbers of an instant

The calendar is bounded, so the numbers that belong to an instant are, and so is what is computed
from them.
-/

namespace FormulaTable.Calendar

open Number (AtMost)

/-! ## Fields -/

theorem yearOfDay_natAbs_le {n : Int} (h : n.natAbs ≤ 2 ^ 27) : (yearOfDay n).natAbs ≤ 2 ^ 20 := by
  unfold yearOfDay
  dsimp only
  split
  · omega
  split
  · omega
  · omega

namespace Instant

variable (t : Instant)

theorem year_natAbs_le : t.civil.year.natAbs ≤ 2 ^ 20 := by
  have hday := t.inCalendar
  unfold InCalendar firstDay lastDay at hday
  refine yearOfDay_natAbs_le ?_
  unfold epochOffset
  omega

theorem month_le : t.civil.month ≤ 12 := monthOfDay_le ..

theorem day_le : t.civil.day ≤ 31 := (valid_ofDay t.day).2.2.2.trans (daysInMonth_le _ _)

theorem weekday_lt : t.weekday < 7 := by
  unfold weekday Calendar.weekday
  omega

theorem hour_lt : t.hour < 24 := Nat.div_lt_of_lt_mul t.second_lt

theorem minute_lt : t.minute < 60 := Nat.mod_lt _ (by decide)

theorem secondOfMinute_lt : t.secondOfMinute < 60 := Nat.mod_lt _ (by decide)

theorem epochMillis_natAbs_lt : t.epochMillis.natAbs < 2 ^ 53 := by
  have hday := t.inCalendar
  have hsecond := t.second_lt
  have hnano := t.nano_lt
  unfold InCalendar firstDay lastDay at hday
  unfold secondsPerDay at hsecond
  unfold nanosPerSecond at hnano
  unfold epochMillis milli secondsPerDay nanosPerMilli
  omega

/-! ## Numbers -/

theorem atMost_toNumber : AtMost t.toNumber 53 := AtMost.ofInt t.epochMillis_natAbs_lt.le (by decide)

end Instant

namespace Instant

/-- How often a number of milliseconds fits between two instants. -/
theorem atMost_quotient (later earlier : Instant) {n : Nat} (hone : 1 ≤ n) (hn : n ≤ 2 ^ 53) :
    AtMost (Number.floor ((later.toNumber - earlier.toNumber) / Float.ofNat n)) 54 := by
  have hdivisor : AtMost (Float.ofNat n) 53 :=
    (Number.rounds_ofNat n).atMost (by decide) (by exact_mod_cast hn)
  have hpos := (Number.rounds_ofNat n).one_le hdivisor.isFinite (by exact_mod_cast hone)
  have hspan := later.atMost_toNumber.sub earlier.atMost_toNumber (by decide)
  exact (hspan.div hdivisor.isFinite hpos (by decide)).floor (by decide)

/-- **The units between two instants are a finite number.** -/
theorem difference_isFinite (later earlier : Instant) (unit : TimeUnit) :
    (later.difference earlier unit).isFinite = true := by
  have hlater := later.year_natAbs_le
  have hearlier := earlier.year_natAbs_le
  have hyears : AtMost (Float.ofInt (later.civil.year - earlier.civil.year)) 21 :=
    AtMost.ofInt (by omega) (by decide)
  have hmonths : AtMost (Float.ofInt (later.civil.month - earlier.civil.month)) 25 := by
    have hlater := later.month_le
    have hearlier := earlier.month_le
    exact AtMost.ofInt (by omega) (by decide)
  have htwelve : AtMost 12 4 := (Number.rounds_ofNat 12).atMost (by decide) (by norm_num)
  -- years and months are counted on the calendar, the other units in milliseconds
  cases unit with
  | year => exact hyears.isFinite
  | month => exact ((hyears.mul htwelve (by decide)).add hmonths (by decide)).isFinite
  | week | day | hour | minute | second | millisecond =>
      exact (atMost_quotient later earlier (by decide) (by decide)).isFinite

end Instant

end FormulaTable.Calendar
