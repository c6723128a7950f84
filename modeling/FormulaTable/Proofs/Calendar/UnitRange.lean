import FormulaTable.Formula.Library.Date
import FormulaTable.Proofs.Calendar.UnitBounds

/-!
# Units at the ends of the calendar

Only a week can start before the calendar, and then there is neither a start nor an end. Any other
unit starts in the calendar, and it has an end as far as the next one starts in the calendar too.
-/

namespace FormulaTable.Calendar

open Formula (dateArg)
open Formula.Library (unitArg bound ofInstant)

variable {s t n : Instant} {u : TimeUnit} {k : Int} {ms : Nat}

/-! ## The days on which units start -/

/-- The day on which the unit with this number starts. -/
def TimeUnit.startDay (u : TimeUnit) (k : Int) : Int := u.start k / 86400000

namespace Instant

theorem IsStart.day_eq (hs : s.IsStart u k) : s.day = u.startDay k := by
  rw [Instant.day_eq hs.1, hs.2]
  unfold TimeUnit.startDay secondsPerDay nanosPerSecond nanosPerMilli
  omega

/-- A unit has a start if the day of it belongs to the calendar. -/
theorem exists_isStart_iff : (∃ s : Instant, s.IsStart u k) ↔ InCalendar (u.startDay k) := by
  constructor
  · rintro ⟨s, hs⟩
    rw [← hs.day_eq]
    exact s.inCalendar
  · intro hday
    have hsame : u.start k * nanosPerMilli / nanosPerSecond / secondsPerDay = u.startDay k := by
      unfold TimeUnit.startDay secondsPerDay nanosPerSecond nanosPerMilli
      omega
    exact exists_nanos_eq (hsame ▸ hday)

/-! ## Starts -/

/-- Years and months start in the year of the instant. -/
theorem exists_startOf_calendar (hu : u.millis? = none) (t : Instant) :
    ∃ s, t.startOf u = .ok (some s) := by
  have hlength := le_monthLength (u.index t * u.monthCount)
  have hvalid : (Civil.ofMonth (u.index t * u.monthCount) 1).Valid :=
    valid_ofMonth (by decide) (by omega)
  have hyear : u.index t * u.monthCount / 12 = t.civil.year := by
    rw [TimeUnit.index_calendar hu, ← monthIndex_div t.valid_civil.month]
    unfold TimeUnit.monthCount
    split <;> omega
  have hday : InCalendar (Civil.ofMonth (u.index t * u.monthCount) 1).toDay := by
    rw [inCalendar_toDay_iff hvalid]
    show -262143 ≤ u.index t * u.monthCount / 12 ∧ u.index t * u.monthCount / 12 ≤ 262142
    rw [hyear, ← inCalendar_toDay_iff t.valid_civil, t.toDay_civil]
    exact t.inCalendar
  let s : Instant := ⟨_, 0, 0, hday, by decide, by decide, by decide⟩
  have hs : s.civil = .ofMonth (u.index t * u.monthCount) 1 := (civil_eq_iff hvalid).mpr rfl
  refine ⟨s, ?_⟩
  rw [startOf_calendar hu]
  exact congrArg Except.ok (bind_dayOf?_eq_some_iff.mpr ⟨hs, rfl, rfl⟩)

/-- A unit that is no week starts in the calendar. -/
theorem exists_startOf (t : Instant) (hu : u ≠ .week) : ∃ s, t.startOf u = .ok (some s) := by
  have hsame {second nano : Nat} (hsecond : second ≤ t.second)
      (hnano : nano < nanosPerSecond ∨ second = t.second ∧ nano ≤ t.nano) :
      ∃ s, Except.ok (ε := Fault) (t.atTime? second nano) = .ok (some s) := by
    obtain ⟨s, hs, -⟩ := t.exists_atTime? hsecond hnano
    exact ⟨s, congrArg Except.ok hs⟩
  cases u with
  | week => exact absurd rfl hu
  | year | month => exact exists_startOf_calendar rfl t
  | day => exact hsame (Nat.zero_le _) (.inl Nat.ofNat_pos)
  | hour => exact hsame (Nat.div_mul_le_self _ _) (.inl Nat.ofNat_pos)
  | minute =>
      refine hsame ?_ (.inl Nat.ofNat_pos)
      unfold hour minute
      omega
  | second => exact hsame le_rfl (.inl Nat.ofNat_pos)
  | millisecond => exact hsame le_rfl (.inr ⟨rfl, Nat.div_mul_le_self _ _⟩)

/-- A week has a start, unless its Sunday lies before the calendar. -/
theorem startOf_week_cases (t : Instant) : (∃ s, t.startOf .week = .ok (some s)) ∨
    ¬ InCalendar (t.day - t.weekday) ∧ t.startOf .week = .error .weekBeforeCalendar := by
  unfold startOf
  dsimp only
  split
  · next hday =>
    let s : Instant := ⟨t.day - t.weekday, 0, 0, hday, by decide, by decide, by decide⟩
    exact .inl ⟨s, congrArg Except.ok s.ofFields?_fields⟩
  · next hday => exact .inr ⟨hday, rfl⟩

/-- **There is a start exactly if the unit starts in the calendar.** Without one, there is a fault. -/
theorem startOf_cases (u : TimeUnit) (ht : t.inLeapSecond = false) :
    (∃ s, t.startOf u = .ok (some s)) ∧ InCalendar (u.startDay (u.index t)) ∨
      t.startOf u = .error .weekBeforeCalendar ∧ ¬ InCalendar (u.startDay (u.index t)) := by
  have hiff : (∃ s, t.startOf u = .ok (some s)) ↔ InCalendar (u.startDay (u.index t)) := by
    rw [← exists_isStart_iff]
    exact exists_congr fun s => startOf_eq_some_iff ht
  by_cases hu : u = .week
  · subst hu
    rcases t.startOf_week_cases with hs | ⟨-, herror⟩
    · exact .inl ⟨hs, hiff.mp hs⟩
    · refine .inr ⟨herror, fun hday => ?_⟩
      obtain ⟨s, hs⟩ := hiff.mpr hday
      rw [herror] at hs
      cases hs
  · have hs := t.exists_startOf hu
    exact .inl ⟨hs, hiff.mp hs⟩

/-! ## Ends -/

/-- **There is an end exactly if the next unit starts in the calendar.** -/
theorem endOf_cases (ht : t.inLeapSecond = false) (hs : t.startOf u = .ok (some s)) :
    (∃ last, t.endOf u = .ok (some last)) ∧ InCalendar (u.startDay (u.index t + 1)) ∨
      t.endOf u = .ok none ∧ ¬ InCalendar (u.startDay (u.index t + 1)) := by
  have hstart := (startOf_eq_some_iff ht).mp hs
  cases hn : s.shift? 1 u with
  | some n =>
      obtain ⟨last, hlast, -⟩ := endOf_eq hs hstart hn
      exact .inl ⟨⟨last, hlast⟩, exists_isStart_iff.mp ⟨n, hstart.next hn⟩⟩
  | none =>
      refine .inr ⟨?_, fun hday => ?_⟩
      · rw [endOf_of_startOf hs, hn]
        rfl
      · obtain ⟨n, hnext⟩ := exists_isStart_iff.mpr hday
        rw [hstart.shift?_one_iff.mpr hnext] at hn
        cases hn

/-! ## Leap seconds -/

/-- The instant a second before, for an instant in a leap second. -/
def steady (t : Instant) : Instant where
  day := t.day
  second := t.second
  nano := t.nano % nanosPerSecond
  inCalendar := t.inCalendar
  second_lt := t.second_lt
  nano_lt := (Nat.mod_lt _ (by decide)).trans (by decide)
  leap := fun hge => absurd (Nat.mod_lt _ (by decide)) (Nat.not_lt.mpr hge)

theorem inLeapSecond_steady (t : Instant) : t.steady.inLeapSecond = false :=
  inLeapSecond_eq_false.mpr (Nat.mod_lt _ (by decide))

theorem steady_of_not_leap (ht : t.inLeapSecond = false) : t.steady = t := by
  refine eq_of_nanos_eq t.inLeapSecond_steady ht ?_
  have hnano : t.steady.nano = t.nano := Nat.mod_eq_of_lt (inLeapSecond_eq_false.mp ht)
  unfold nanos
  rw [hnano]
  rfl

/-- Longer units do not tell a leap second from the second that it follows. -/
theorem startOf_steady (hu : u ≠ .millisecond) : t.steady.startOf u = t.startOf u := by
  cases u with
  | millisecond => exact absurd rfl hu
  | _ => rfl

/-- Within a leap second milliseconds are added to its nanoseconds. -/
theorem addMillis?_within {r : Instant} {ms : Int} (ht : t.inLeapSecond = true) (hms : -1000 < ms)
    (hday : r.day = t.day) (hsecond : r.second = t.second)
    (hnano : (r.nano : Int) = t.nano + ms * nanosPerMilli) : t.addMillis? ms = some r := by
  have hlt := r.nano_lt
  unfold addMillis?
  dsimp only
  rw [if_pos ht, ← hnano, if_neg (by omega), if_neg (by omega), Int.toNat_natCast,
    ofFields?_eq_some_iff]
  exact ⟨hday, hsecond, rfl⟩

theorem shift?_one_millisecond (s : Instant) : s.shift? 1 .millisecond = s.addMillis? 1 := by
  have hone : Number.toInt64 (Number.roundHalfAway (1 * Float.ofNat 1)) = 1 :=
    amountMillis_one (u := .millisecond) rfl
  unfold shift?
  rw [if_pos Number.whole_one.isFinite]
  exact congrArg s.addMillis? hone

/-- The last millisecond of a leap second ends where that of the second before does. -/
theorem endOf_last_millisecond (hlast : t.milli = 1999) :
    t.endOf .millisecond = t.steady.endOf .millisecond := by
  obtain ⟨s, hs, hday, hsecond, hnano⟩ := t.exists_startOf_millisecond
  obtain ⟨r, hr, hday', hsecond', hnano'⟩ := t.steady.exists_startOf_millisecond
  have hmilli : t.steady.milli = 999 := by
    unfold milli steady nanosPerSecond nanosPerMilli at *
    dsimp only
    omega
  rw [hlast] at hnano
  rw [hmilli] at hnano'
  have hleap : s.inLeapSecond = true := decide_eq_true (by rw [hnano]; decide)
  have hsteady : ¬ r.inLeapSecond = true := by
    rw [Bool.not_eq_true, inLeapSecond_eq_false, hnano']
    decide
  have hadd : s.addMillis? 1 = r.addMillis? 1 := by
    unfold addMillis?
    dsimp only
    rw [if_pos hleap, if_neg hsteady, hnano, hnano', if_pos (by decide), hday, hday', hsecond,
      hsecond']
    refine congrArg (ofNanos? t.day) ?_
    unfold steady nanosPerSecond nanosPerMilli
    dsimp only
    omega
  rw [endOf_of_startOf hs, endOf_of_startOf hr, shift?_one_millisecond, shift?_one_millisecond, hadd]

/-- Any other millisecond of a leap second ends within it. -/
theorem exists_endOf_millisecond (ht : t.inLeapSecond = true) (hlast : t.milli ≠ 1999) :
    ∃ last, t.endOf .millisecond = .ok (some last) := by
  -- the last millisecond of the unit is its start again
  obtain ⟨s, hs, hday, hsecond, hnano⟩ := t.exists_startOf_millisecond
  have hlate : nanosPerSecond ≤ t.nano := of_decide_eq_true ht
  have hmilli : 1000 ≤ t.milli ∧ t.milli < 1999 := by
    have hlt := t.nano_lt
    unfold milli nanosPerSecond nanosPerMilli at *
    omega
  have hnanos : nanosPerSecond ≤ s.nano ∧ s.nano + nanosPerMilli < 2 * nanosPerSecond := by
    rw [hnano]
    unfold nanosPerSecond nanosPerMilli
    omega
  let n : Instant := ⟨s.day, s.second, s.nano + nanosPerMilli, s.inCalendar, s.second_lt, hnanos.2,
    fun _ => s.leap hnanos.1⟩
  have hleap : s.inLeapSecond = true := decide_eq_true hnanos.1
  have hleap' : n.inLeapSecond = true := decide_eq_true (hnanos.1.trans (Nat.le_add_right ..))
  have hcast : (n.nano : Int) = s.nano + nanosPerMilli := Int.natCast_add ..
  have hnext : s.addMillis? 1 = some n :=
    addMillis?_within hleap (by decide) rfl rfl (by rw [hcast, Int.one_mul])
  have hback : n.addMillis? (-1) = some s :=
    addMillis?_within hleap' (by decide) rfl rfl (by rw [hcast]; omega)
  refine ⟨s, ?_⟩
  rw [endOf_of_startOf hs, shift?_one_millisecond, hnext, Option.bind_some, hback]

/-! ## Every instant -/

/-- The number of the unit around an instant, in a leap second the one around the second before. -/
def unitAround (t : Instant) (u : TimeUnit) : Int := u.index t.steady

/-- **Every unit but a week before the calendar has a start.** -/
theorem startOf_range (t : Instant) (u : TimeUnit) :
    (∃ s, t.startOf u = .ok (some s)) ∧ InCalendar (u.startDay (t.unitAround u)) ∨
      t.startOf u = .error .weekBeforeCalendar ∧
        ¬ InCalendar (u.startDay (t.unitAround u)) := by
  have hsteady := startOf_cases u t.inLeapSecond_steady
  by_cases hu : u = .millisecond
  · subst hu
    rcases hsteady with ⟨-, hday⟩ | ⟨herror, -⟩
    · exact .inl ⟨t.exists_startOf nofun, hday⟩
    · exact nomatch herror
  · rwa [startOf_steady hu] at hsteady

theorem endOf_steady (hu : u ≠ .millisecond) : t.steady.endOf u = t.endOf u := by
  unfold endOf
  rw [startOf_steady hu]

/-- Within a leap second the next millisecond starts on the same day. -/
theorem startDay_next_millisecond (ht : t.inLeapSecond = true) (hlast : t.milli ≠ 1999) :
    TimeUnit.millisecond.startDay (t.unitAround .millisecond + 1) = t.day := by
  have hlate : nanosPerSecond ≤ t.nano := of_decide_eq_true ht
  have hlt := t.nano_lt
  have hsecond := t.second_lt
  unfold unitAround TimeUnit.startDay
  rw [TimeUnit.start_fixed rfl, TimeUnit.index_fixed rfl]
  unfold TimeUnit.origin epochMillis steady
  unfold milli secondsPerDay nanosPerSecond nanosPerMilli at *
  dsimp only
  omega

/-- **Every unit that starts has an end, if the next one starts in the calendar.** -/
theorem endOf_range (hs : t.startOf u = .ok (some s)) :
    (∃ last, t.endOf u = .ok (some last)) ∧ InCalendar (u.startDay (t.unitAround u + 1)) ∨
      t.endOf u = .ok none ∧ ¬ InCalendar (u.startDay (t.unitAround u + 1)) := by
  by_cases hu : u = .millisecond
  · subst hu
    obtain ⟨r, hr⟩ := t.steady.exists_startOf (u := .millisecond) nofun
    have hsteady := endOf_cases t.inLeapSecond_steady hr
    by_cases hlast : t.milli = 1999
    · rwa [← endOf_last_millisecond hlast] at hsteady
    by_cases ht : t.inLeapSecond = true
    · refine .inl ⟨exists_endOf_millisecond ht hlast, ?_⟩
      rw [startDay_next_millisecond ht hlast]
      exact t.inCalendar
    · rw [Bool.not_eq_true] at ht
      unfold unitAround
      rw [steady_of_not_leap ht]
      exact endOf_cases ht hs
  · rw [← startOf_steady hu] at hs
    rw [← endOf_steady hu]
    exact endOf_cases t.inLeapSecond_steady hs

/-- Only a week starts before the calendar, in the first three days of it. -/
theorem not_inCalendar_startDay_iff : ¬ InCalendar (u.startDay (t.unitAround u)) ↔
    u = .week ∧ t.day < firstDay + 3 := by
  by_cases hu : u = .week
  · subst hu
    have hsunday : TimeUnit.week.startDay (t.unitAround .week) = t.day - t.weekday := by
      unfold TimeUnit.startDay unitAround
      rw [start_week t.inLeapSecond_steady]
      exact Int.mul_ediv_cancel _ (by decide)
    have hday := t.inCalendar
    rw [hsunday, and_iff_right rfl]
    unfold weekday Calendar.weekday
    unfold InCalendar firstDay lastDay at *
    omega
  · rcases t.startOf_range u with ⟨-, hday⟩ | ⟨herror, -⟩
    · exact iff_of_false (fun hout => hout hday) fun h => hu h.1
    · obtain ⟨s, hs⟩ := t.exists_startOf hu
      rw [herror] at hs
      cases hs

/-! ## Total bounds -/

/-- The start and the end of the unit around an instant are computed, and they are missing, and null as
values, only where this unit or the next one starts beyond the calendar. -/
structure HasTotalBounds (t : Instant) (u : TimeUnit) : Prop where
  startOf : ∃ r, t.startOf u = .ok r ∧ (r = none ↔ ¬ InCalendar (u.startDay (t.unitAround u)))
  endOf : ∃ r, t.endOf u = .ok r ∧ (r = none ↔
    ¬ (InCalendar (u.startDay (t.unitAround u)) ∧ InCalendar (u.startDay (t.unitAround u + 1))))
  startOf_call : ∀ args, dateArg args 0 = some t → unitArg args 1 = some u →
    ∃ v, bound Instant.startOf args = .ok v ∧
      (v = .null ↔ ¬ InCalendar (u.startDay (t.unitAround u)))
  endOf_call : ∀ args, dateArg args 0 = some t → unitArg args 1 = some u →
    ∃ v, bound Instant.endOf args = .ok v ∧ (v = .null ↔
      ¬ (InCalendar (u.startDay (t.unitAround u)) ∧ InCalendar (u.startDay (t.unitAround u + 1))))

theorem ofInstant_eq_null_iff {r : Option Instant} : ofInstant r = .null ↔ r = none := by
  cases r with
  | none => exact iff_of_true rfl rfl
  | some t => exact iff_of_false nofun nofun

theorem bound_eq {f : Instant → TimeUnit → Except Fault (Option Instant)} {args : List Value}
    {r : Option Instant} (hdate : dateArg args 0 = some t) (hunit : unitArg args 1 = some u)
    (h : f t u = .ok r) : bound f args = .ok (ofInstant r) := by
  unfold bound
  rw [hdate, hunit]
  exact congrArg (Except.map ofInstant) h

theorem hasTotalBounds (hday : InCalendar (u.startDay (t.unitAround u))) : t.HasTotalBounds u := by
  obtain ⟨⟨s, hs⟩, -⟩ | ⟨-, hout⟩ := t.startOf_range u
  · obtain ⟨r, hr, hnone⟩ : ∃ r, t.endOf u = .ok r ∧
        (r = none ↔ ¬ InCalendar (u.startDay (t.unitAround u + 1))) := by
      rcases endOf_range hs with ⟨⟨last, hlast⟩, hnext⟩ | ⟨hend, hnext⟩
      · exact ⟨some last, hlast, iff_of_false nofun fun h => h hnext⟩
      · exact ⟨none, hend, iff_of_true rfl hnext⟩
    rw [← and_iff_right hday (b := InCalendar (u.startDay (t.unitAround u + 1)))] at hnone
    have hsome : some s = none ↔ ¬ InCalendar (u.startDay (t.unitAround u)) :=
      iff_of_false nofun fun h => h hday
    refine ⟨⟨some s, hs, hsome⟩, ⟨r, hr, hnone⟩, fun args hdate hunit => ?_,
      fun args hdate hunit => ?_⟩
    · exact ⟨_, bound_eq hdate hunit hs, ofInstant_eq_null_iff.trans hsome⟩
    · exact ⟨_, bound_eq hdate hunit hr, ofInstant_eq_null_iff.trans hnone⟩
  · exact absurd hday hout

end Instant

end FormulaTable.Calendar
