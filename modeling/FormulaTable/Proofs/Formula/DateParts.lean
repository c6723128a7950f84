import FormulaTable.Proofs.Calendar.Number
import FormulaTable.Proofs.Calendar.TimeLine
import FormulaTable.Proofs.Formula.FunctionForms
import FormulaTable.Proofs.Number.Integer

/-!
# Dates and their parts

The function `date` builds a date from six numbers, and six functions take it apart. It is a date
exactly if there is a day of the calendar and a time of day with these numbers, and then the parts of
the date are the numbers it was built from.
-/

namespace FormulaTable

namespace Calendar

variable {t : Instant}

/-! ## Days with a time -/

/-- There is a day of the calendar with this year, month and day, and a time of day with this hour,
minute and second. -/
structure IsDateTime (y mo da h mi s : Int) : Prop where
  year : -262143 ≤ y ∧ y ≤ 262142
  month : 1 ≤ mo ∧ mo ≤ 12
  day : 1 ≤ da ∧ da ≤ daysInMonth y mo.toNat
  hour : 0 ≤ h ∧ h < 24
  minute : 0 ≤ mi ∧ mi < 60
  second : 0 ≤ s ∧ s < 60

namespace Instant

theorem isDateTime (t : Instant) :
    IsDateTime t.civil.year t.civil.month t.civil.day t.hour t.minute t.secondOfMinute := by
  obtain ⟨hfirst, hlast, hday, hlength⟩ := t.valid_civil
  have hyear := (inCalendar_toDay_iff t.valid_civil).mp (t.toDay_civil.symm ▸ t.inCalendar)
  have hhour := t.hour_lt
  have hminute := t.minute_lt
  have hsecond := t.secondOfMinute_lt
  refine ⟨hyear, by omega, ⟨by omega, ?_⟩, by omega, by omega, by omega⟩
  rw [Int.toNat_natCast]
  exact_mod_cast hlength

/-- The second of the day from the hour, the minute and the second. -/
theorem second_eq_iff {hour minute second : Nat} (hm : minute < 60) (hs : second < 60) :
    t.second = hour * 3600 + minute * 60 + second ↔
      t.hour = hour ∧ t.minute = minute ∧ t.secondOfMinute = second := by
  unfold Instant.hour Instant.minute secondOfMinute
  omega

/-- A date without a fraction of a second is its parts. -/
theorem ofCivil?_eq_some_iff {c : Civil} {hour minute second : Nat} :
    ofCivil? c.year c.month c.day hour minute second = some t ↔
      t.civil = c ∧ (t.hour = hour ∧ t.minute = minute ∧ t.secondOfMinute = second) ∧
        t.nano = 0 := by
  unfold ofCivil?
  split
  · next htime => rw [bind_dayOf?_eq_some_iff, second_eq_iff htime.2.1 htime.2.2]
  · next hout =>
    refine iff_of_false (fun h => nomatch h) ?_
    rintro ⟨-, ⟨rfl, rfl, rfl⟩, -⟩
    exact hout ⟨t.hour_lt, t.minute_lt, t.secondOfMinute_lt⟩

end Instant

end Calendar

namespace Formula

open Calendar (Instant Civil IsDateTime)

variable {t d : Instant} {y mo da h mi s : Int}

/-! ## Parts -/

/-- The parts of a date with the names of their functions. -/
def dateParts : List (String × (Instant → Int)) :=
  [("year", fun t => t.civil.year), ("month", fun t => t.civil.month), ("day", fun t => t.civil.day),
    ("hour", fun t => t.hour), ("minute", fun t => t.minute), ("second", fun t => t.secondOfMinute)]

theorem builtin?_datePart : ∀ p ∈ dateParts,
    builtin? p.1 = some (.pure p.1 (.exactly 1) (Library.part p.2)) := by
  intro p hp
  refine builtin?_of_mem ?_ rfl
  simp only [dateParts, List.mem_cons, List.not_mem_nil, or_false] at hp
  rcases hp with rfl | rfl | rfl | rfl | rfl | rfl <;> simp [library, Library.dates]

theorem builtin?_date : builtin? "date" = some (.pure "date" (.between 1 6) Library.date) := by
  refine builtin?_of_mem ?_ rfl
  simp [library, Library.dates]

/-- Six numbers as arguments. -/
def numbers (zs : List Int) : List Value := zs.map fun z => .number (Float.ofInt z)

theorem map_part (t : Instant) :
    (dateParts.map fun p => Library.part p.2 [.date t]) = numbers (dateParts.map (·.2 t)) := rfl

/-- Six integers lead to a date if they are its parts. -/
theorem ofParts?_eq_some_iff : Library.ofParts? [y, mo, da, h, mi, s] = some t ↔
    dateParts.map (·.2 t) = [y, mo, da, h, mi, s] ∧ t.nano = 0 := by
  have hparts : dateParts.map (·.2 t) = [y, mo, da, h, mi, s] ↔ t.civil.year = y ∧
      t.civil.month = mo ∧ t.civil.day = da ∧ t.hour = h ∧ t.minute = mi ∧ t.secondOfMinute = s := by
    simp [dateParts]
  rw [hparts]
  unfold Library.ofParts?
  simp only [Option.bind_eq_bind, Option.bind_eq_some_iff, List.getD_cons_succ, List.getD_cons_zero,
    Int.mem_toNat?]
  constructor
  · rintro ⟨mo, rfl, da, rfl, h, rfl, mi, rfl, s, rfl, hsome⟩
    obtain ⟨hcivil, ⟨hhour, hminute, hsecond⟩, hnano⟩ :=
      Instant.ofCivil?_eq_some_iff (c := { year := y, month := mo, day := da }).mp hsome
    rw [hcivil, hhour, hminute, hsecond]
    exact ⟨⟨rfl, rfl, rfl, rfl, rfl, rfl⟩, hnano⟩
  · rintro ⟨⟨rfl, rfl, rfl, rfl, rfl, rfl⟩, hnano⟩
    exact ⟨_, rfl, _, rfl, _, rfl, _, rfl, _, rfl,
      Instant.ofCivil?_eq_some_iff.mpr ⟨rfl, ⟨rfl, rfl, rfl⟩, hnano⟩⟩

/-- Where there is a date and a time of day, six integers lead to it. -/
theorem exists_ofParts? (hdate : IsDateTime y mo da h mi s) :
    ∃ t, Library.ofParts? [y, mo, da, h, mi, s] = some t := by
  obtain ⟨hyear, hmonth, hday, hhour, hminute, hsecond⟩ := hdate
  lift mo to Nat using by omega
  lift da to Nat using by omega
  lift h to Nat using by omega
  lift mi to Nat using by omega
  lift s to Nat using by omega
  rw [Int.toNat_natCast] at hday
  have hc : Civil.Valid { year := y, month := mo, day := da } :=
    ⟨Int.ofNat_le.mp hmonth.1, Int.ofNat_le.mp hmonth.2, Int.ofNat_le.mp hday.1,
      Int.ofNat_le.mp hday.2⟩
  let t : Instant :=
    { day := Civil.toDay { year := y, month := mo, day := da }
      second := h * 3600 + mi * 60 + s
      nano := 0
      inCalendar := (Calendar.inCalendar_toDay_iff hc).mpr hyear
      second_lt := by unfold Calendar.secondsPerDay; omega
      nano_lt := by decide
      leap := fun hleap => absurd hleap (by decide) }
  have hcivil : t.civil = { year := y, month := mo, day := da } := (Instant.civil_eq_iff hc).mpr rfl
  obtain ⟨hh, hmi, hs⟩ := (t.second_eq_iff (by omega) (by omega)).mp
    (rfl : t.second = h * 3600 + mi * 60 + s)
  refine ⟨t, ofParts?_eq_some_iff.mpr ⟨?_, rfl⟩⟩
  simp only [dateParts, List.map_cons, List.map_nil, hcivil, hh, hmi, hs]

/-! ## Arguments -/

/-- The integer that is read from an argument with an integer. -/
def rounded (z : Int) : Int := Number.toInt64 (Float.ofInt z)

/-- An integer that may be a part of a date is not rounded. -/
theorem rounded_eq {z : Int} (hz : z.natAbs < 2 ^ 53 ∨ (rounded z).natAbs < 2 ^ 53) :
    rounded z = z := by
  refine (Number.toInt64_ofInt z).resolve_right fun ⟨hge, hge'⟩ => ?_
  rcases hz with hlt | hlt
  · exact absurd hge (Nat.not_le.mpr hlt)
  · exact absurd hge' (Nat.not_le.mpr hlt)

theorem natAbs_datePart_lt (t : Instant) : ∀ z ∈ dateParts.map (·.2 t), z.natAbs < 2 ^ 53 := by
  have hyear := t.year_natAbs_le
  have hmonth := t.month_le
  have hday := t.day_le
  have hhour := t.hour_lt
  have hminute := t.minute_lt
  have hsecond := t.secondOfMinute_lt
  simp only [dateParts, List.map_cons, List.map_nil, List.mem_cons, List.not_mem_nil, or_false,
    forall_eq_or_imp, forall_eq]
  omega

/-- Integers that are rounded do not lead to a date, before or after. -/
theorem ofParts?_rounded : Library.ofParts? ([y, mo, da, h, mi, s].map rounded) =
    Library.ofParts? [y, mo, da, h, mi, s] := by
  by_cases hsame : ∀ z ∈ [y, mo, da, h, mi, s], rounded z = z
  · rw [List.map_congr_left hsame, List.map_id']
  have hnone : Library.ofParts? ([y, mo, da, h, mi, s].map rounded) = none := by
    refine Option.eq_none_iff_forall_ne_some.mpr fun t ht => hsame fun z hz => rounded_eq (.inr ?_)
    refine natAbs_datePart_lt t _ ?_
    rw [(ofParts?_eq_some_iff.mp ht).1]
    exact List.mem_map_of_mem hz
  have hnone' : Library.ofParts? [y, mo, da, h, mi, s] = none := by
    refine Option.eq_none_iff_forall_ne_some.mpr fun t ht => hsame fun z hz => rounded_eq (.inl ?_)
    refine natAbs_datePart_lt t _ ?_
    rwa [(ofParts?_eq_some_iff.mp ht).1]
  rw [hnone, hnone']

/-- **The function `date` reads its arguments exactly**, as far as there is a date. -/
theorem date_numbers : Library.date (numbers [y, mo, da, h, mi, s]) =
    Library.ofInstant (Library.ofParts? [y, mo, da, h, mi, s]) :=
  (rfl : _ = Library.ofInstant (Library.ofParts? ([y, mo, da, h, mi, s].map rounded))).trans
    (congrArg Library.ofInstant ofParts?_rounded)

theorem isDateTime_of_ofParts? (ht : Library.ofParts? [y, mo, da, h, mi, s] = some t) :
    IsDateTime y mo da h mi s := by
  have hparts := (ofParts?_eq_some_iff.mp ht).1
  simp only [dateParts, List.map_cons, List.map_nil, List.cons.injEq, and_true] at hparts
  obtain ⟨rfl, rfl, rfl, rfl, rfl, rfl⟩ := hparts
  exact t.isDateTime

/-- The start of the second of a date has its parts. -/
theorem exists_startOf_second (d : Instant) : ∃ s : Instant, d.startOf .second = .ok (some s) ∧
    dateParts.map (·.2 s) = dateParts.map (·.2 d) ∧ s.nano = 0 := by
  obtain ⟨s, hs, hday, hsecond, hnano⟩ := d.exists_atTime? le_rfl (.inl Nat.ofNat_pos)
  refine ⟨s, congrArg Except.ok hs, ?_, hnano⟩
  simp only [dateParts, List.map_cons, List.map_nil, Instant.civil, Instant.hour, Instant.minute,
    Instant.secondOfMinute, hday, hsecond]

/-- **To build a date and to take it apart are inverse to each other.** The parts of a date make the
start of its second. Six integers make a date exactly if there is a day of the calendar and a time of
day with them, and then they are its parts. -/
theorem dates_are_their_parts :
    (∀ p ∈ dateParts, builtin? p.1 = some (.pure p.1 (.exactly 1) (Library.part p.2))) ∧
    builtin? "date" = some (.pure "date" (.between 1 6) Library.date) ∧
    (∀ d : Instant, ∃ s, d.startOf .second = .ok (some s) ∧
      Library.date (dateParts.map fun p => Library.part p.2 [.date d]) = .date s) ∧
    ∀ y mo da h mi s : Int,
      (IsDateTime y mo da h mi s → ∃ t, Library.date (numbers [y, mo, da, h, mi, s]) = .date t ∧
        (dateParts.map fun p => Library.part p.2 [.date t]) = numbers [y, mo, da, h, mi, s]) ∧
      (¬ IsDateTime y mo da h mi s → Library.date (numbers [y, mo, da, h, mi, s]) = .null) := by
  refine ⟨builtin?_datePart, builtin?_date, fun d => ?_, fun y mo da h mi s => ⟨fun hdate => ?_,
    fun hdate => ?_⟩⟩
  · obtain ⟨s, hs, hparts, hnano⟩ := exists_startOf_second d
    refine ⟨s, hs, ?_⟩
    rw [map_part, ← hparts]
    exact date_numbers.trans (congrArg Library.ofInstant (ofParts?_eq_some_iff.mpr ⟨rfl, hnano⟩))
  · obtain ⟨t, ht⟩ := exists_ofParts? hdate
    rw [date_numbers, ht]
    refine ⟨t, rfl, ?_⟩
    rw [map_part, (ofParts?_eq_some_iff.mp ht).1]
  · have hnone : Library.ofParts? [y, mo, da, h, mi, s] = none :=
      Option.eq_none_iff_forall_ne_some.mpr fun t ht => hdate (isDateTime_of_ofParts? ht)
    rw [date_numbers, hnone]
    rfl

/-- The last second of February 2024 is built; the year before has no such day. -/
theorem leap_day_built : IsDateTime 2024 2 29 23 59 59 ∧ ¬ IsDateTime 2023 2 29 23 59 59 ∧
    (∃ t, Library.date (numbers [2024, 2, 29, 23, 59, 59]) = .date t ∧
      (dateParts.map fun p => Library.part p.2 [.date t]) = numbers [2024, 2, 29, 23, 59, 59]) ∧
    Library.date (numbers [2023, 2, 29, 23, 59, 59]) = .null := by
  have hleap : IsDateTime 2024 2 29 23 59 59 := by constructor <;> decide
  have hnone : ¬ IsDateTime 2023 2 29 23 59 59 := fun hdate => absurd hdate.day (by decide)
  obtain ⟨-, -, -, hdates⟩ := dates_are_their_parts
  exact ⟨hleap, hnone, (hdates 2024 2 29 23 59 59).1 hleap, (hdates 2023 2 29 23 59 59).2 hnone⟩

end Formula

end FormulaTable
