import FormulaTable.Calendar.Day

/-!
# Naming a day and counting to it

The name of a day exists and leads back to it, so different days have different names.
-/

namespace FormulaTable.Calendar

/-! ## Years -/

/-- A day does not come before the start of its year. -/
theorem daysBeforeYear_yearOfDay_le (n : Int) : daysBeforeYear (yearOfDay n) ≤ n := by
  unfold yearOfDay
  dsimp only
  split
  · unfold daysBeforeYear
    omega
  split
  · assumption
  · omega

/-- A day comes before the start of the next year. -/
theorem lt_daysBeforeYear_yearOfDay_succ (n : Int) : n < daysBeforeYear (yearOfDay n + 1) := by
  unfold yearOfDay
  dsimp only
  split
  · rwa [Int.sub_add_cancel]
  split
  · unfold daysBeforeYear
    omega
  · omega

/-- A year has as many days as lie before a thirteenth month. -/
theorem daysBeforeYear_succ (year : Int) :
    daysBeforeYear (year + 1) = daysBeforeYear year + daysBeforeMonth year 13 := by
  have hleap : isLeapYear year = true ↔ year % 4 = 0 ∧ (year % 100 ≠ 0 ∨ year % 400 = 0) := by
    simp [isLeapYear]
  unfold daysBeforeMonth daysBeforeYear
  by_cases h : isLeapYear year = true
  · rw [if_pos ⟨by decide, h⟩]
    rw [hleap] at h
    simp
    omega
  · rw [if_neg (fun hleap => h hleap.2)]
    rw [hleap] at h
    simp
    omega

/-! ## Months -/

theorem le_daysInMonth (year : Int) (month : Nat) : 28 ≤ daysInMonth year month := by
  unfold daysInMonth
  split
  · split <;> decide
  · split <;> decide

theorem daysInMonth_le (year : Int) (month : Nat) : daysInMonth year month ≤ 31 := by
  unfold daysInMonth
  split
  · split <;> decide
  · split <;> decide

theorem daysBeforeMonth_one (year : Int) : daysBeforeMonth year 1 = 0 := by
  unfold daysBeforeMonth
  simp

/-- Months start in their order. -/
theorem daysBeforeMonth_mono (year : Int) :
    ∀ m' ≤ 12, ∀ m ≤ m', daysBeforeMonth year m ≤ daysBeforeMonth year m' := by
  unfold daysBeforeMonth
  generalize isLeapYear year = leap
  revert leap
  decide

/-- A month starts when the one before it ends. -/
theorem daysBeforeMonth_succ (year : Int) : ∀ m ≤ 12, 1 ≤ m →
    daysBeforeMonth year (m + 1) = daysBeforeMonth year m + daysInMonth year m := by
  unfold daysBeforeMonth daysInMonth
  generalize isLeapYear year = leap
  revert leap
  decide

/-- Of the months from the second on, those that start no later than a day are counted. The months
before such a month start no later either, so the count leads to the last of them, and the next one
starts after the day. -/
theorem daysBeforeMonth_count {year : Int} {n k : Nat} (hk : k ≤ 11) :
    let count := ((List.range' 2 k).filter fun m => daysBeforeMonth year m ≤ n).length
    daysBeforeMonth year (1 + count) ≤ n ∧ (count < k → n < daysBeforeMonth year (2 + count)) := by
  induction k with
  | zero =>
    refine ⟨?_, fun h => absurd h (Nat.not_lt_zero _)⟩
    change daysBeforeMonth year 1 ≤ n
    rw [daysBeforeMonth_one]
    exact Nat.zero_le n
  | succ k ih =>
    rw [List.range'_concat, List.filter_append]
    by_cases h : daysBeforeMonth year (2 + 1 * k) ≤ n
    · have hall : (List.range' 2 k).filter (fun m => daysBeforeMonth year m ≤ n) =
          List.range' 2 k := by
        refine List.filter_eq_self.mpr fun m hm => decide_eq_true ?_
        have hm : m < 2 + k := (List.mem_range'_1.mp hm).2
        exact Nat.le_trans (daysBeforeMonth_mono year (2 + 1 * k) (by omega) m (by omega)) h
      have hlength : 1 + (k + 1) = 2 + 1 * k := by omega
      rw [hall, List.filter_cons_of_pos (by rwa [decide_eq_true_iff]), List.filter_nil,
        List.length_append, List.length_range', List.length_singleton]
      exact ⟨hlength ▸ h, fun hlt => absurd hlt (Nat.lt_irrefl _)⟩
    · rw [List.filter_cons_of_neg (by rwa [decide_eq_true_iff]), List.filter_nil, List.append_nil]
      obtain ⟨hstart, hnext⟩ := ih (by omega)
      refine ⟨hstart, fun hcount => ?_⟩
      rcases Nat.lt_or_eq_of_le (Nat.le_of_lt_succ hcount) with hlt | heq
      · exact hnext hlt
      · rw [Nat.one_mul] at h
        rw [heq]
        exact Nat.lt_of_not_le h

theorem monthOfDay_le (year : Int) (n : Nat) : monthOfDay year n ≤ 12 := by
  have hcount := List.length_filter_le (fun m => decide (daysBeforeMonth year m ≤ n))
    [2, 3, 4, 5, 6, 7, 8, 9, 10, 11, 12]
  unfold monthOfDay
  simp only [List.length_cons, List.length_nil] at hcount
  omega

/-- A day of a year does not come before the start of its month. -/
theorem daysBeforeMonth_monthOfDay_le (year : Int) (n : Nat) :
    daysBeforeMonth year (monthOfDay year n) ≤ n :=
  (daysBeforeMonth_count (k := 11) (Nat.le_refl _)).1

/-- A day of a year comes before the start of the month after its own. -/
theorem lt_daysBeforeMonth_monthOfDay_succ {year : Int} {n : Nat}
    (h : n < daysBeforeMonth year 13) : n < daysBeforeMonth year (monthOfDay year n + 1) := by
  have hle := monthOfDay_le year n
  have hnext := (@daysBeforeMonth_count year n 11 (Nat.le_refl _)).2
  generalize hmonth : monthOfDay year n = month at hle
  change 1 + _ = month at hmonth
  rcases Nat.lt_or_eq_of_le hle with hlt | rfl
  · rw [← hmonth, Nat.add_right_comm]
    exact hnext (by rw [← hmonth] at hlt; exact Nat.lt_of_add_lt_add_left hlt)
  · exact h

/-- **The name of a day leads back to it.** -/
theorem toDay_ofDay (day : Int) : (Civil.ofDay day).toDay = day := by
  have hyear := daysBeforeYear_yearOfDay_le (day + epochOffset)
  have hmonth := daysBeforeMonth_monthOfDay_le (yearOfDay (day + epochOffset))
    (day + epochOffset - daysBeforeYear (yearOfDay (day + epochOffset))).toNat
  unfold Civil.toDay Civil.ofDay
  dsimp only
  omega

/-- Different days have different names. -/
theorem ofDay_injective : Function.Injective Civil.ofDay :=
  Function.LeftInverse.injective toDay_ofDay

/-- **The name of a day exists.** -/
theorem valid_ofDay (day : Int) : (Civil.ofDay day).Valid := by
  have hyear := daysBeforeYear_yearOfDay_le (day + epochOffset)
  have hnext := lt_daysBeforeYear_yearOfDay_succ (day + epochOffset)
  rw [daysBeforeYear_succ] at hnext
  unfold Civil.Valid Civil.ofDay
  dsimp only
  generalize yearOfDay (day + epochOffset) = year at hyear hnext ⊢
  generalize hinYear : (day + epochOffset - daysBeforeYear year).toNat = inYear
  have hstart := daysBeforeMonth_monthOfDay_le year inYear
  have hmonth := lt_daysBeforeMonth_monthOfDay_succ (show inYear < daysBeforeMonth year 13 by omega)
  have hpos : 1 ≤ monthOfDay year inYear := Nat.le_add_right ..
  have hle := monthOfDay_le year inYear
  rw [daysBeforeMonth_succ year _ hle hpos] at hmonth
  exact ⟨hpos, hle, by omega, by omega⟩

/-- The name of a day of the calendar counts to it. -/
theorem dayOf?_ofDay {day : Int} (h : InCalendar day) :
    dayOf? (Civil.ofDay day).year (Civil.ofDay day).month (Civil.ofDay day).day = some day := by
  unfold dayOf?
  rw [if_pos ⟨valid_ofDay day, (toDay_ofDay day).symm ▸ h⟩]
  exact congrArg some (toDay_ofDay day)

end FormulaTable.Calendar
