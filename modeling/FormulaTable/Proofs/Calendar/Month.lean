import FormulaTable.Proofs.Calendar.Day
import Mathlib

/-!
# Months on the line of days

The months follow each other without gaps, so a day lies in one of them, and a day with a name is
counted and named again. The calendar is made of whole years.
-/

namespace FormulaTable.Calendar

variable {c c' : Civil} {f : Int → Int} {i j k n : Int}

/-! ## Steps of a strictly increasing line -/

/-- The steps that start no later than a number are those up to the step that holds it. -/
theorem le_iff_of_between (hf : StrictMono f) (hi : f i ≤ n) (hi' : n < f (i + 1)) :
    f j ≤ n ↔ j ≤ i := by
  constructor
  · intro hj
    have hlt : j < i + 1 := hf.lt_iff_lt.mp (hj.trans_lt hi')
    omega
  · intro hj
    exact (hf.monotone hj).trans hi

/-- Only one step holds a number. -/
theorem eq_of_between (hf : StrictMono f) (hi : f i ≤ n) (hi' : n < f (i + 1)) (hj : f j ≤ n)
    (hj' : n < f (j + 1)) : i = j :=
  Int.le_antisymm ((le_iff_of_between hf hj hj').mp hi) ((le_iff_of_between hf hi hi').mp hj)

/-! ## Months -/

/-- The number of the month of a day, from the first month of the year 0. -/
def Civil.monthIndex (c : Civil) : Int := c.year * 12 + ((c.month : Int) - 1)

/-- A day of the month with this number. -/
def Civil.ofMonth (k : Int) (day : Nat) : Civil :=
  { year := k / 12, month := (k % 12).toNat + 1, day }

/-- The first day of the month with this number. -/
def monthStart (k : Int) : Int := (Civil.ofMonth k 1).toDay

/-- The number of days of the month with this number. -/
def monthLength (k : Int) : Nat := daysInMonth (k / 12) ((k % 12).toNat + 1)

theorem monthIndex_div (h : 1 ≤ c.month ∧ c.month ≤ 12) : c.monthIndex / 12 = c.year := by
  unfold Civil.monthIndex
  omega

theorem monthIndex_mod (h : 1 ≤ c.month ∧ c.month ≤ 12) :
    (c.monthIndex % 12).toNat + 1 = c.month := by
  unfold Civil.monthIndex
  omega

theorem ofMonth_monthIndex (h : 1 ≤ c.month ∧ c.month ≤ 12) : .ofMonth c.monthIndex c.day = c := by
  unfold Civil.ofMonth
  rw [monthIndex_div h, monthIndex_mod h]

theorem monthIndex_ofMonth (k : Int) (day : Nat) : (Civil.ofMonth k day).monthIndex = k := by
  unfold Civil.monthIndex Civil.ofMonth
  dsimp only
  omega

theorem valid_ofMonth {day : Nat} (hpos : 1 ≤ day) (hle : day ≤ monthLength k) :
    (Civil.ofMonth k day).Valid := by
  have hmonth : 1 ≤ (k % 12).toNat + 1 ∧ (k % 12).toNat + 1 ≤ 12 := by omega
  exact ⟨hmonth.1, hmonth.2, hpos, hle⟩

theorem Civil.Valid.month (h : c.Valid) : 1 ≤ c.month ∧ c.month ≤ 12 := ⟨h.1, h.2.1⟩

theorem Civil.Valid.day_le_monthLength (h : c.Valid) : c.day ≤ monthLength c.monthIndex := by
  obtain ⟨hfirst, hlast, -, hlength⟩ := h
  unfold monthLength
  rwa [monthIndex_div ⟨hfirst, hlast⟩, monthIndex_mod ⟨hfirst, hlast⟩]

/-- A month starts when the one before it ends. -/
theorem monthStart_succ (k : Int) : monthStart (k + 1) = monthStart k + monthLength k := by
  have hnext := daysBeforeMonth_succ (k / 12) ((k % 12).toNat + 1) (by omega) (by omega)
  unfold monthStart monthLength Civil.ofMonth Civil.toDay
  dsimp only
  by_cases hlast : k % 12 = 11
  · have hyear : (k + 1) / 12 = k / 12 + 1 := by omega
    have hmonth : ((k + 1) % 12).toNat + 1 = 1 := by omega
    have hindex : (k % 12).toNat + 1 = 12 := by omega
    rw [hindex] at hnext ⊢
    rw [hyear, hmonth, daysBeforeYear_succ, daysBeforeMonth_one, hnext]
    push_cast
    omega
  · have hyear : (k + 1) / 12 = k / 12 := by omega
    have hmonth : ((k + 1) % 12).toNat + 1 = (k % 12).toNat + 1 + 1 := by omega
    rw [hyear, hmonth, hnext]
    push_cast
    omega

theorem le_monthLength (k : Int) : 28 ≤ monthLength k := le_daysInMonth _ _

theorem strictMono_monthStart : StrictMono monthStart := by
  refine strictMono_int_of_lt_succ fun k => ?_
  have hlength := le_monthLength k
  rw [monthStart_succ]
  omega

/-- A day is counted from the start of its month. -/
theorem toDay_eq (h : 1 ≤ c.month ∧ c.month ≤ 12) :
    c.toDay = monthStart c.monthIndex + c.day - 1 := by
  unfold monthStart Civil.ofMonth Civil.toDay
  dsimp only
  rw [monthIndex_div h, monthIndex_mod h]
  push_cast
  omega

/-- A day lies in its month. -/
theorem Civil.Valid.between (h : c.Valid) :
    monthStart c.monthIndex ≤ c.toDay ∧ c.toDay < monthStart (c.monthIndex + 1) := by
  have hday := h.2.2.1
  have hlength := h.day_le_monthLength
  rw [monthStart_succ, toDay_eq h.month]
  omega

/-- A day has one name. -/
theorem Civil.Valid.eq_of_toDay_eq (hc : c.Valid) (hc' : c'.Valid) (h : c.toDay = c'.toDay) :
    c = c' := by
  have hindex : c.monthIndex = c'.monthIndex := by
    refine eq_of_between strictMono_monthStart hc.between.1 hc.between.2 ?_ ?_
    · exact h ▸ hc'.between.1
    · exact h ▸ hc'.between.2
  have hday : c.day = c'.day := by
    rw [toDay_eq hc.month, toDay_eq hc'.month, hindex] at h
    omega
  rw [← ofMonth_monthIndex hc.month, hindex, hday, ofMonth_monthIndex hc'.month]

/-- **A day that is named and counted has its name again.** -/
theorem ofDay_toDay (h : c.Valid) : Civil.ofDay c.toDay = c :=
  (valid_ofDay c.toDay).eq_of_toDay_eq h (toDay_ofDay c.toDay)

/-! ## Years -/

theorem firstDay_eq : firstDay = monthStart (-262143 * 12) := by decide

theorem lastDay_eq : lastDay + 1 = monthStart ((262142 + 1) * 12) := by decide

/-- **The calendar holds the years from -262143 to 262142.** -/
theorem inCalendar_toDay_iff (h : c.Valid) :
    InCalendar c.toDay ↔ -262143 ≤ c.year ∧ c.year ≤ 262142 := by
  obtain ⟨hstart, hend⟩ := h.between
  have hfirst : firstDay ≤ c.toDay ↔ -262143 * 12 ≤ c.monthIndex := by
    rw [firstDay_eq]
    exact le_iff_of_between strictMono_monthStart hstart hend
  have hlast : lastDay + 1 ≤ c.toDay ↔ (262142 + 1) * 12 ≤ c.monthIndex := by
    rw [lastDay_eq]
    exact le_iff_of_between strictMono_monthStart hstart hend
  have hindex : c.monthIndex = c.year * 12 + ((c.month : Int) - 1) := rfl
  have hmonth := h.month
  unfold InCalendar
  omega

end FormulaTable.Calendar
