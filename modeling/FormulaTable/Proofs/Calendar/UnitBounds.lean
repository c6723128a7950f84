import FormulaTable.Proofs.Calendar.FixedUnit

/-!
# The bounds of a unit of time

The units of one kind follow each other without gaps and are numbered. The unit around an instant is
the one whose start is no later and whose end comes after it; its start is found field by field, and
its end is the start of the next one. Finer units do not straddle the bounds of coarser ones.
-/

namespace FormulaTable.Calendar

open Number (whole_one)

variable {s t e n : Instant} {f u : TimeUnit} {k : Int} {ms : Nat}

namespace TimeUnit

/-! ## The starts of units -/

/-- The start of the unit with number 0 of a fixed length, in milliseconds: the first Sunday after
1970-01-01 for weeks, and 1970-01-01 for the other units. -/
def origin : TimeUnit → Int
  | .week => 3 * 86400000
  | _ => 0

/-- The start of the unit with this number, in milliseconds. -/
def start (u : TimeUnit) (k : Int) : Int :=
  match u.millis? with
  | some ms => k * ms + u.origin
  | none => monthStart (k * u.monthCount) * 86400000

/-- The number of the unit around an instant. -/
def index (u : TimeUnit) (t : Instant) : Int :=
  match u.millis? with
  | some ms => (t.epochMillis - u.origin) / ms
  | none => t.civil.monthIndex / u.monthCount

theorem start_fixed (hu : u.millis? = some ms) : u.start k = k * ms + u.origin := by
  unfold start
  rw [hu]

theorem start_calendar (hu : u.millis? = none) :
    u.start k = monthStart (k * u.monthCount) * 86400000 := by
  unfold start
  rw [hu]

theorem index_fixed (hu : u.millis? = some ms) :
    u.index t = (t.epochMillis - u.origin) / ms := by
  unfold index
  rw [hu]

theorem index_calendar (hu : u.millis? = none) :
    u.index t = t.civil.monthIndex / u.monthCount := by
  unfold index
  rw [hu]

theorem strictMono_start (u : TimeUnit) : StrictMono u.start := by
  refine strictMono_int_of_lt_succ fun k => ?_
  cases hu : u.millis? with
  | some ms =>
      have hpos := (whole_millis hu).2
      rw [start_fixed hu, start_fixed hu, Int.add_mul]
      omega
  | none =>
      have hlt : monthStart (k * u.monthCount) < monthStart ((k + 1) * u.monthCount) := by
        have hpos := u.monthCount_pos
        rw [Int.add_mul]
        exact strictMono_monthStart (by omega)
      rw [start_calendar hu, start_calendar hu]
      omega

theorem start_index_fixed (hu : u.millis? = some ms) (horigin : u.origin = 0) :
    u.start (u.index t) = t.epochMillis / ms * ms := by
  rw [start_fixed hu, index_fixed hu, horigin, Int.sub_zero, Int.add_zero]

/-- **An instant lies in its unit.** -/
theorem start_index (u : TimeUnit) (ht : t.inLeapSecond = false) :
    u.start (u.index t) ≤ t.epochMillis ∧ t.epochMillis < u.start (u.index t + 1) := by
  cases hu : u.millis? with
  | some ms =>
      have hpos : (0 : Int) < ms := by exact_mod_cast (whole_millis hu).2
      have hle := Int.ediv_mul_le (t.epochMillis - u.origin) hpos.ne'
      have hlt := Int.lt_ediv_add_one_mul_self (t.epochMillis - u.origin) hpos
      rw [start_fixed hu, start_fixed hu, index_fixed hu]
      omega
  | none =>
      have hpos := u.monthCount_pos
      have hle := Int.ediv_mul_le t.civil.monthIndex hpos.ne'
      have hlt := Int.lt_ediv_add_one_mul_self t.civil.monthIndex hpos
      obtain ⟨hstart, hnext⟩ := t.valid_civil.between
      have hstart := (strictMono_monthStart.monotone hle).trans hstart
      have hnext := hnext.trans_le (strictMono_monthStart.monotone (Int.add_one_le_of_lt hlt))
      rw [t.toDay_civil] at hstart hnext
      have hsecond : t.second < 86400 := t.second_lt
      rw [Instant.inLeapSecond_eq_false] at ht
      rw [start_calendar hu, start_calendar hu, index_calendar hu]
      unfold Instant.epochMillis Instant.milli
      unfold secondsPerDay nanosPerSecond nanosPerMilli at *
      omega

theorem index_eq_iff (ht : t.inLeapSecond = false) :
    u.index t = k ↔ u.start k ≤ t.epochMillis ∧ t.epochMillis < u.start (k + 1) := by
  obtain ⟨hstart, hnext⟩ := u.start_index ht
  constructor
  · rintro rfl
    exact ⟨hstart, hnext⟩
  · rintro ⟨hle, hlt⟩
    exact eq_of_between u.strictMono_start hstart hnext hle hlt

/-! ## Nested units -/

/-- Units of the first kind make up those of the second. -/
inductive Nested : TimeUnit → TimeUnit → Prop
  | millisecond : Nested .millisecond .second
  | second : Nested .second .minute
  | minute : Nested .minute .hour
  | hour : Nested .hour .day
  | dayOfWeek : Nested .day .week
  | dayOfMonth : Nested .day .month
  | month : Nested .month .year
  | trans {f g u : TimeUnit} : Nested f g → Nested g u → Nested f u

/-- **Where a unit starts, a unit nested in it starts too.** -/
theorem Nested.exists_start_eq (h : Nested f u) (k : Int) : ∃ j, f.start j = u.start k := by
  induction h generalizing k with
  | millisecond => exact ⟨k * 1000, by simp [start, millis?, origin]⟩
  | second => exact ⟨k * 60, by simp [start, millis?, origin]; omega⟩
  | minute => exact ⟨k * 60, by simp [start, millis?, origin]; omega⟩
  | hour => exact ⟨k * 24, by simp [start, millis?, origin]; omega⟩
  | dayOfWeek => exact ⟨k * 7 + 3, by simp [start, millis?, origin]; omega⟩
  | dayOfMonth => exact ⟨monthStart (k * 1), by simp [start, millis?, origin, monthCount]⟩
  | month => exact ⟨k * 12, by simp [start, millis?, monthCount]⟩
  | trans _ _ ih ih' =>
      obtain ⟨j, hj⟩ := ih' k
      obtain ⟨i, hi⟩ := ih j
      exact ⟨i, hi.trans hj⟩

end TimeUnit

namespace Instant

/-! ## Where units start -/

/-- The instant is the start of the unit with this number. -/
def IsStart (s : Instant) (u : TimeUnit) (k : Int) : Prop :=
  s.inLeapSecond = false ∧ s.nanos = u.start k * nanosPerMilli

theorem isStart_calendar_iff (hu : u.millis? = none) : s.IsStart u k ↔
    s.civil = .ofMonth (k * u.monthCount) 1 ∧ s.second = 0 ∧ s.nano = 0 := by
  have hlength := le_monthLength (k * u.monthCount)
  have hday : (Civil.ofMonth (k * u.monthCount) 1).toDay = monthStart (k * u.monthCount) := rfl
  have hsecond := s.second_lt
  unfold IsStart
  rw [civil_eq_iff (valid_ofMonth (by decide) (by omega)), hday, u.start_calendar hu,
    inLeapSecond_eq_false]
  unfold nanos secondsPerDay nanosPerSecond nanosPerMilli at *
  omega

theorem startOf_calendar (hu : u.millis? = none) (t : Instant) : t.startOf u =
    let c := Civil.ofMonth (u.index t * u.monthCount) 1
    .ok ((dayOf? c.year c.month c.day).bind (ofFields? · 0 0)) := by
  have hmonth := t.valid_civil.month
  cases u with
  | week | day | hour | minute | second | millisecond => cases hu
  | month =>
      have hindex : TimeUnit.month.index t * TimeUnit.month.monthCount = t.civil.monthIndex := by
        rw [TimeUnit.index_calendar rfl]
        exact Int.ediv_mul_cancel (one_dvd _)
      rw [hindex]
      unfold Civil.ofMonth
      rw [monthIndex_div hmonth, monthIndex_mod hmonth]
      rfl
  | year =>
      have hindex : TimeUnit.year.index t = t.civil.year := by
        rw [TimeUnit.index_calendar rfl]
        exact monthIndex_div hmonth
      have hyear : t.civil.year * TimeUnit.year.monthCount / 12 = t.civil.year :=
        Int.mul_ediv_cancel _ (by decide)
      have hfirst : t.civil.year * TimeUnit.year.monthCount % 12 = 0 := Int.mul_emod_left _ _
      rw [hindex]
      unfold Civil.ofMonth
      rw [hyear, hfirst]
      rfl

/-- The start of a unit on the same day. -/
theorem atTime?_eq_some_iff_isStart {second nano : Nat} (hsecond : second ≤ t.second)
    (hnano : nano < nanosPerSecond)
    (h : (t.day * secondsPerDay + second) * nanosPerSecond + nano = u.start k * nanosPerMilli) :
    t.atTime? second nano = some s ↔ s.IsStart u k := by
  unfold IsStart
  rw [← h]
  exact ofFields?_eq_some_iff_nanos (hsecond.trans_lt t.second_lt) hnano

theorem exists_startOf_millisecond (t : Instant) :
    ∃ m, t.startOf .millisecond = .ok (some m) ∧ m.day = t.day ∧ m.second = t.second ∧
      m.nano = t.milli * nanosPerMilli := by
  obtain ⟨m, hm, hfields⟩ := t.exists_atTime? le_rfl (.inr ⟨rfl, Nat.div_mul_le_self ..⟩)
  exact ⟨m, congrArg Except.ok hm, hfields⟩

theorem exists_startOf_day (t : Instant) :
    ∃ n, t.startOf .day = .ok (some n) ∧ n.day = t.day ∧ n.second = 0 ∧ n.nano = 0 := by
  obtain ⟨n, hn, hfields⟩ := t.exists_atTime? (Nat.zero_le _) (.inl Nat.ofNat_pos)
  exact ⟨n, congrArg Except.ok hn, hfields⟩

/-- A week starts on the Sunday before, or on the day itself. -/
theorem start_week (ht : t.inLeapSecond = false) :
    TimeUnit.week.start (TimeUnit.week.index t) = (t.day - t.weekday) * 86400000 := by
  have hsecond := t.second_lt
  rw [inLeapSecond_eq_false] at ht
  unfold weekday Calendar.weekday
  unfold TimeUnit.start TimeUnit.index TimeUnit.origin TimeUnit.millis? epochMillis milli
  unfold secondsPerDay nanosPerSecond nanosPerMilli at *
  dsimp only
  omega

theorem startOf_week (ht : t.inLeapSecond = false) :
    t.startOf .week = .ok (some s) ↔ s.IsStart .week (TimeUnit.week.index t) := by
  unfold IsStart startOf
  dsimp only
  rw [start_week ht]
  split
  · rw [Except.ok.injEq, ofFields?_eq_some_iff_nanos (by decide) (by decide)]
    refine and_congr_right fun _ => ?_
    unfold secondsPerDay nanosPerSecond nanosPerMilli
    omega
  · next hout =>
    refine iff_of_false (fun h => nomatch h) fun ⟨hs, hnanos⟩ => hout ?_
    have hday : s.day = t.day - t.weekday := by
      have hsecond := s.second_lt
      rw [inLeapSecond_eq_false] at hs
      unfold nanos secondsPerDay nanosPerSecond nanosPerMilli at *
      omega
    exact hday ▸ s.inCalendar

/-- **The start of the unit around an instant.** -/
theorem startOf_eq_some_iff (ht : t.inLeapSecond = false) :
    t.startOf u = .ok (some s) ↔ s.IsStart u (u.index t) := by
  cases hu : u.millis? with
  | none =>
      rw [startOf_calendar hu, isStart_calendar_iff hu]
      dsimp only
      rw [Except.ok.injEq, bind_dayOf?_eq_some_iff]
  | some ms =>
      rw [inLeapSecond_eq_false] at ht
      have hmilli : t.milli * nanosPerMilli < nanosPerSecond :=
        (Nat.div_mul_le_self _ _).trans_lt ht
      have hthousand : t.milli < 1000 := Nat.div_lt_of_lt_mul ht
      have hsecond : t.second < 86400 := t.second_lt
      have hminute : t.hour * 3600 + t.minute * 60 ≤ t.second := by
        unfold hour minute
        omega
      cases u with
      | year | month => cases hu
      | week => exact startOf_week (inLeapSecond_eq_false.mpr ht)
      | day =>
          cases hu
          rw [startOf, Except.ok.injEq]
          refine atTime?_eq_some_iff_isStart (Nat.zero_le _) (by decide) ?_
          rw [TimeUnit.start_index_fixed rfl rfl]
          unfold epochMillis secondsPerDay nanosPerSecond nanosPerMilli
          omega
      | hour =>
          cases hu
          rw [startOf, Except.ok.injEq]
          refine atTime?_eq_some_iff_isStart (Nat.div_mul_le_self _ _) (by decide) ?_
          rw [TimeUnit.start_index_fixed rfl rfl]
          unfold epochMillis hour secondsPerDay nanosPerSecond nanosPerMilli
          omega
      | minute =>
          cases hu
          rw [startOf, Except.ok.injEq]
          refine atTime?_eq_some_iff_isStart hminute (by decide) ?_
          rw [TimeUnit.start_index_fixed rfl rfl]
          unfold epochMillis hour minute secondsPerDay nanosPerSecond nanosPerMilli
          omega
      | second =>
          cases hu
          rw [startOf, Except.ok.injEq]
          refine atTime?_eq_some_iff_isStart le_rfl (by decide) ?_
          rw [TimeUnit.start_index_fixed rfl rfl]
          unfold epochMillis secondsPerDay nanosPerSecond nanosPerMilli
          omega
      | millisecond =>
          cases hu
          rw [startOf, Except.ok.injEq]
          refine atTime?_eq_some_iff_isStart le_rfl hmilli ?_
          rw [TimeUnit.start_index_fixed rfl rfl]
          unfold epochMillis milli secondsPerDay nanosPerSecond nanosPerMilli
          omega

/-! ## Between two starts -/

theorem IsStart.epochMillis_eq (hs : s.IsStart u k) : s.epochMillis = u.start k := by
  rw [Instant.epochMillis_eq, hs.2]
  exact Int.mul_ediv_cancel _ (by decide)

theorem IsStart.nanos_le_iff (hs : s.IsStart u k) :
    s.nanos ≤ t.nanos ↔ u.start k ≤ t.epochMillis := by
  rw [Instant.epochMillis_eq, hs.2]
  exact (Int.le_ediv_iff_mul_le (by decide)).symm

theorem IsStart.compare_ne_gt_iff (hs : s.IsStart u k) (ht : t.inLeapSecond = false) :
    s.compare t ≠ .gt ↔ u.start k ≤ t.epochMillis := by
  rw [Ne, compare_eq_gt_iff hs.1 ht, ← hs.nanos_le_iff, Int.not_lt]

theorem IsStart.compare_eq_lt_iff (hn : n.IsStart u k) (ht : t.inLeapSecond = false) :
    t.compare n = .lt ↔ t.epochMillis < u.start k := by
  rw [Instant.compare_eq_lt_iff ht hn.1, ← Int.not_le, hn.nanos_le_iff, Int.not_le]

/-- **One unit after the start of a unit the next one starts.** -/
theorem IsStart.shift?_one_iff (hs : s.IsStart u k) :
    s.shift? 1 u = some n ↔ n.IsStart u (k + 1) := by
  cases hu : u.millis? with
  | some ms =>
      rw [shift?_eq_some_iff hu hs.1, amountMillis_one hu, and_iff_right whole_one.isFinite, hs.2]
      unfold IsStart
      rw [u.start_fixed hu, u.start_fixed hu, Int.add_mul k, Int.one_mul, ← Int.add_mul,
        Int.add_right_comm]
  | none =>
      obtain ⟨hcivil, hsecond, hnano⟩ := (isStart_calendar_iff hu).mp hs
      have hone : s.shift? 1 u = s.shift? (Float.ofInt 1) u := rfl
      have hmost : (1 * u.monthCount).natAbs ≤ 4294967295 := by cases u <;> decide
      have hlength := le_monthLength ((k + 1) * u.monthCount)
      have hday : (Civil.ofMonth (k * u.monthCount) 1).day = 1 := rfl
      rw [hone, shift?_ofInt_eq_some_iff hu, and_iff_right hmost, addMonths?_eq_some_iff, hcivil,
        monthIndex_ofMonth, ← Int.add_mul, hday, Nat.min_eq_left (by omega), hsecond, hnano,
        isStart_calendar_iff hu]

theorem IsStart.next (hs : s.IsStart u k) (h : s.shift? 1 u = some n) : n.IsStart u (k + 1) :=
  hs.shift?_one_iff.mp h

/-- **Where a nested unit starts, the unit around it is the same.** -/
theorem IsStart.exists_nested (hs : s.IsStart u (u.index t)) (ht : t.inLeapSecond = false)
    (hf : f.Nested u) : ∃ r, t.startOf f = .ok (some r) ∧ r.startOf u = .ok (some s) := by
  obtain ⟨hstart, hnext⟩ := u.start_index ht
  obtain ⟨hstart', hnext'⟩ := f.start_index ht
  have hle : u.start (u.index t) ≤ f.start (f.index t) := by
    obtain ⟨j, hj⟩ := hf.exists_start_eq (u.index t)
    rw [← hj] at hstart ⊢
    exact f.strictMono_start.monotone
      ((le_iff_of_between f.strictMono_start hstart' hnext').mp hstart)
  have hsf : s.nanos ≤ f.start (f.index t) * nanosPerMilli :=
    hs.2 ▸ Int.mul_le_mul_of_nonneg_right hle (by decide)
  have hft : f.start (f.index t) * nanosPerMilli ≤ t.nanos := by
    rw [Instant.epochMillis_eq] at hstart'
    exact (Int.le_ediv_iff_mul_le (by decide)).mp hstart'
  obtain ⟨r, hr⟩ := exists_of_nanos_between hs.1 ht hsf hft
  have hr : r.IsStart f (f.index t) := hr
  have hindex : u.index r = u.index t := by
    rw [TimeUnit.index_eq_iff hr.1, hr.epochMillis_eq]
    exact ⟨hle, hstart'.trans_lt hnext⟩
  refine ⟨r, (startOf_eq_some_iff ht).mpr hr, (startOf_eq_some_iff hr.1).mpr ?_⟩
  rwa [hindex]

/-- A week starts on a Sunday at midnight. -/
theorem IsStart.sunday (hs : s.IsStart .week k) : s.weekday = 0 ∧ s.second = 0 ∧ s.nano = 0 := by
  obtain ⟨hleap, hnanos⟩ := hs
  have hsecond := s.second_lt
  rw [inLeapSecond_eq_false] at hleap
  rw [TimeUnit.start_fixed rfl] at hnanos
  unfold TimeUnit.origin at hnanos
  unfold nanos secondsPerDay nanosPerSecond nanosPerMilli at *
  unfold weekday Calendar.weekday
  dsimp only at hnanos
  omega

theorem endOf_of_startOf (hs : t.startOf u = .ok (some s)) :
    t.endOf u = .ok ((s.shift? 1 u).bind fun next => next.addMillis? (-1)) := by
  unfold endOf
  rw [hs]
  rfl

/-- The last millisecond before the next unit. -/
theorem endOf_eq (ht : t.startOf u = .ok (some s)) (hs : s.IsStart u k)
    (hn : s.shift? 1 u = some n) : ∃ last, t.endOf u = .ok (some last) ∧
      last.inLeapSecond = false ∧ last.nanos = n.nanos - nanosPerMilli := by
  have hnext := hs.next hn
  have hlt : u.start k < u.start (k + 1) := u.strictMono_start (Int.lt_succ k)
  have hsl : s.nanos ≤ n.nanos - nanosPerMilli := by
    rw [hs.2, hnext.2]
    unfold nanosPerMilli
    omega
  obtain ⟨last, hlast, hnanos⟩ :=
    exists_of_nanos_between hs.1 hnext.1 hsl (Int.sub_le_self _ (by decide))
  have hmove : n.addMillis? (-1) = some last := by
    rw [addMillis?_eq_some_iff hnext.1]
    exact ⟨hlast, by rw [hnanos]; omega⟩
  refine ⟨last, ?_, hlast, hnanos⟩
  rw [endOf_of_startOf ht, hn, Option.bind_some, hmove]

end Instant

/-- **A unit of time holds what lies between its start and the start of the next one.** Every instant
in between has the same start, the unit ends a millisecond before the next one, a week starts on a
Sunday at midnight, and the start of a finer unit nested in it lies in it too. -/
theorem units_bound_time (d s n : Instant) (u : TimeUnit) (hd : d.inLeapSecond = false)
    (hs : d.startOf u = .ok (some s)) (hn : s.shift? 1 u = some n) :
    s.compare d ≠ .gt ∧ d.compare n = .lt ∧
      (∀ e : Instant, e.inLeapSecond = false → s.compare e ≠ .gt → e.compare n = .lt →
        e.startOf u = .ok (some s)) ∧
      s.startOf u = .ok (some s) ∧
      (∃ last, d.endOf u = .ok (some last) ∧ last.inLeapSecond = false ∧
        last.nanos = n.nanos - nanosPerMilli) ∧
      (u = .week → s.weekday = 0 ∧ s.second = 0 ∧ s.nano = 0) ∧
      ∀ f, f.Nested u → ∃ t, d.startOf f = .ok (some t) ∧ t.startOf u = .ok (some s) := by
  have hstart := (Instant.startOf_eq_some_iff hd).mp hs
  have hnext := hstart.next hn
  obtain ⟨hle, hlt⟩ := u.start_index hd
  have hsame (e : Instant) (he : e.inLeapSecond = false) (hse : s.compare e ≠ .gt)
      (hen : e.compare n = .lt) : e.startOf u = .ok (some s) := by
    rw [hstart.compare_ne_gt_iff he] at hse
    rw [hnext.compare_eq_lt_iff he] at hen
    rw [Instant.startOf_eq_some_iff he, (TimeUnit.index_eq_iff he).mpr ⟨hse, hen⟩]
    exact hstart
  have hself : s.startOf u = .ok (some s) := by
    refine hsame s hstart.1 ?_ ?_
    · rw [hstart.compare_ne_gt_iff hstart.1, hstart.epochMillis_eq]
    · rw [hnext.compare_eq_lt_iff hstart.1, hstart.epochMillis_eq]
      exact u.strictMono_start (Int.lt_succ _)
  refine ⟨(hstart.compare_ne_gt_iff hd).mpr hle, (hnext.compare_eq_lt_iff hd).mpr hlt, hsame, hself,
    Instant.endOf_eq hs hstart hn, ?_, fun f => hstart.exists_nested hd⟩
  rintro rfl
  exact hstart.sunday

/-- The last week of 2024 starts on December 29 and ends in January. -/
theorem week_across_new_year : ∃ d s n : Instant, d.inLeapSecond = false ∧
    d.civil = { year := 2024, month := 12, day := 31 } ∧
    s.civil = { year := 2024, month := 12, day := 29 } ∧
    n.civil = { year := 2025, month := 1, day := 5 } ∧
    d.startOf .week = .ok (some s) ∧ s.shift? 1 .week = some n ∧ s.compare d ≠ .gt ∧
    d.compare n = .lt ∧ s.weekday = 0 ∧
    ∃ t, d.startOf .day = .ok (some t) ∧ t.startOf .week = .ok (some s) := by
  let d : Instant := ⟨20088, 86399, 999999999, by decide, by decide, by decide, by decide⟩
  let s : Instant := ⟨20086, 0, 0, by decide, by decide, by decide, by decide⟩
  let n : Instant := ⟨20093, 0, 0, by decide, by decide, by decide, by decide⟩
  have hd : d.inLeapSecond = false := rfl
  have hs : d.startOf .week = .ok (some s) := rfl
  have hn : s.shift? 1 .week = some n := by decide +kernel
  obtain ⟨hle, hlt, -, -, -, hsunday, hnested⟩ := units_bound_time d s n .week hd hs hn
  exact ⟨d, s, n, hd, by decide, by decide, by decide, hs, hn, hle, hlt, (hsunday rfl).1,
    hnested .day .dayOfWeek⟩

end FormulaTable.Calendar
