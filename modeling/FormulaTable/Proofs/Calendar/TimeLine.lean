import FormulaTable.Calendar.Shift
import FormulaTable.Proofs.Calendar.Month
import FormulaTable.Proofs.Calendar.Reading

/-!
# The line of time

Outside leap seconds an instant is its number of nanoseconds since 1970-01-01: the order of instants
is the order of these numbers, and to move an instant by milliseconds is to add to its number.
-/

namespace FormulaTable.Calendar.Instant

variable {s t : Instant} {c : Civil} {day ms n : Int} {second nano : Nat}

/-- The number of nanoseconds since 1970-01-01. Those of a leap second are counted on from the second
that it follows. -/
def nanos (t : Instant) : Int := (t.day * secondsPerDay + t.second) * nanosPerSecond + t.nano

theorem inLeapSecond_eq_false : t.inLeapSecond = false ↔ t.nano < nanosPerSecond := by
  unfold inLeapSecond
  rw [decide_eq_false_iff_not, Nat.not_le]

/-! ## Instants of numbers -/

/-- An instant is its fields. -/
theorem ofFields?_eq_some_iff :
    ofFields? day second nano = some t ↔ t.day = day ∧ t.second = second ∧ t.nano = nano := by
  constructor
  · intro h
    unfold ofFields? at h
    split at h
    · cases h
      exact ⟨rfl, rfl, rfl⟩
    · cases h
  · rintro ⟨rfl, rfl, rfl⟩
    exact t.ofFields?_fields

theorem valid_civil (t : Instant) : t.civil.Valid := valid_ofDay t.day

theorem toDay_civil (t : Instant) : t.civil.toDay = t.day := toDay_ofDay t.day

theorem civil_eq_iff (hc : c.Valid) : t.civil = c ↔ t.day = c.toDay := by
  constructor
  · rintro rfl
    exact t.toDay_civil.symm
  · intro h
    unfold civil
    rw [h, ofDay_toDay hc]

/-- An instant is the name of its day and its time of day. -/
theorem bind_dayOf?_eq_some_iff :
    (dayOf? c.year c.month c.day).bind (ofFields? · second nano) = some t ↔
      t.civil = c ∧ t.second = second ∧ t.nano = nano := by
  unfold dayOf?
  dsimp only
  split
  · next hday => rw [Option.bind_some, ofFields?_eq_some_iff, civil_eq_iff hday.1]
  · next hout =>
    refine iff_of_false (fun h => nomatch h) ?_
    rintro ⟨rfl, -⟩
    refine hout ⟨t.valid_civil, ?_⟩
    rw [t.toDay_civil]
    exact t.inCalendar

/-- An instant outside leap seconds is its number of nanoseconds. -/
theorem ofFields?_eq_some_iff_nanos (hsecond : second < secondsPerDay)
    (hnano : nano < nanosPerSecond) : ofFields? day second nano = some t ↔
      t.inLeapSecond = false ∧ t.nanos = (day * secondsPerDay + second) * nanosPerSecond + nano := by
  have hlt := t.second_lt
  rw [ofFields?_eq_some_iff, inLeapSecond_eq_false]
  unfold nanos secondsPerDay nanosPerSecond at *
  omega

theorem ofNanos?_eq_some_iff : ofNanos? day n = some t ↔
    t.inLeapSecond = false ∧ t.nanos = day * secondsPerDay * nanosPerSecond + n := by
  have hsecond : (n / nanosPerSecond % secondsPerDay).toNat < secondsPerDay := by
    unfold secondsPerDay
    omega
  have hnano : (n % nanosPerSecond).toNat < nanosPerSecond := by
    unfold nanosPerSecond
    omega
  unfold ofNanos?
  dsimp only
  rw [ofFields?_eq_some_iff_nanos hsecond hnano]
  refine and_congr_right fun _ => ?_
  unfold secondsPerDay nanosPerSecond
  omega

theorem eq_of_nanos_eq (hs : s.inLeapSecond = false) (ht : t.inLeapSecond = false)
    (h : s.nanos = t.nanos) : s = t := by
  have hfields : ofFields? t.day t.second t.nano = some s := by
    rw [ofFields?_eq_some_iff_nanos t.second_lt (inLeapSecond_eq_false.mp ht)]
    exact ⟨hs, h⟩
  rw [t.ofFields?_fields] at hfields
  exact (Option.some.inj hfields).symm

/-- On a day of the calendar there is an instant for every number of nanoseconds. -/
theorem exists_nanos_eq (hday : InCalendar (n / nanosPerSecond / secondsPerDay)) :
    ∃ r : Instant, r.inLeapSecond = false ∧ r.nanos = n := by
  have hsome : (ofNanos? 0 n).isSome := by
    unfold ofNanos? ofFields?
    dsimp only
    rw [dif_pos]
    · rfl
    · rw [Int.zero_add]
      unfold secondsPerDay nanosPerSecond at *
      refine ⟨hday, ?_, ?_, ?_⟩ <;> omega
  obtain ⟨r, hr⟩ := Option.isSome_iff_exists.mp hsome
  obtain ⟨hleap, hnanos⟩ := ofNanos?_eq_some_iff.mp hr
  exact ⟨r, hleap, by rw [hnanos]; omega⟩

/-- The day of an instant, from its number of nanoseconds. -/
theorem day_eq (ht : t.inLeapSecond = false) :
    t.day = t.nanos / nanosPerSecond / secondsPerDay := by
  have hsecond := t.second_lt
  rw [inLeapSecond_eq_false] at ht
  unfold nanos secondsPerDay nanosPerSecond at *
  omega

/-- On the day of an instant there is every second before it, and what is left of its own second. -/
theorem exists_atTime? (t : Instant) (hsecond : second ≤ t.second)
    (hnano : nano < nanosPerSecond ∨ second = t.second ∧ nano ≤ t.nano) :
    ∃ s, t.atTime? second nano = some s ∧ s.day = t.day ∧ s.second = second ∧ s.nano = nano := by
  have hleap : nanosPerSecond ≤ nano → second % 60 = 59 := by
    rcases hnano with hlt | ⟨rfl, hle⟩
    · exact fun hge => absurd hlt (Nat.not_lt.mpr hge)
    · exact fun hge => t.leap (hge.trans hle)
  have hlt : nano < 2 * nanosPerSecond := by
    rcases hnano with hlt | ⟨-, hle⟩
    · exact hlt.trans (by decide)
    · exact hle.trans_lt t.nano_lt
  let s : Instant := ⟨t.day, second, nano, t.inCalendar, hsecond.trans_lt t.second_lt, hlt, hleap⟩
  exact ⟨s, s.ofFields?_fields, rfl, rfl, rfl⟩

/-- Between two instants there is one for every number of nanoseconds. -/
theorem exists_of_nanos_between (hs : s.inLeapSecond = false) (ht : t.inLeapSecond = false)
    (hsn : s.nanos ≤ n) (hnt : n ≤ t.nanos) :
    ∃ r : Instant, r.inLeapSecond = false ∧ r.nanos = n := by
  have hfirst := s.inCalendar.1
  have hlast := t.inCalendar.2
  rw [day_eq hs] at hfirst
  rw [day_eq ht] at hlast
  refine exists_nanos_eq ⟨hfirst.trans ?_, le_trans ?_ hlast⟩
  · exact Int.ediv_le_ediv (by decide) (Int.ediv_le_ediv (by decide) hsn)
  · exact Int.ediv_le_ediv (by decide) (Int.ediv_le_ediv (by decide) hnt)

/-! ## Order -/

/-- The order read from the other side. -/
theorem compare_swap (s t : Instant) : t.compare s = (s.compare t).swap := by
  unfold compare
  rw [Ordering.swap_then, Ordering.swap_then, Int.compare_swap, Nat.compare_swap, Nat.compare_swap]

/-- Only the same instant is neither before nor after an instant. -/
theorem compare_eq_eq_iff : s.compare t = .eq ↔ s = t := by
  unfold compare
  rw [Ordering.then_eq_eq, Ordering.then_eq_eq, Int.compare_eq_eq, Nat.compare_eq_eq,
    Nat.compare_eq_eq]
  constructor
  · intro hfields
    have hsome := ofFields?_eq_some_iff.mpr hfields
    rw [t.ofFields?_fields] at hsome
    exact (Option.some.inj hsome).symm
  · rintro rfl
    exact ⟨rfl, rfl, rfl⟩

theorem compare_eq_lt_iff (hs : s.inLeapSecond = false) (ht : t.inLeapSecond = false) :
    s.compare t = .lt ↔ s.nanos < t.nanos := by
  have hs' := s.second_lt
  have ht' := t.second_lt
  rw [inLeapSecond_eq_false] at hs ht
  unfold compare
  rw [Ordering.then_eq_lt, Ordering.then_eq_lt, Int.compare_eq_lt, Int.compare_eq_eq,
    Nat.compare_eq_lt, Nat.compare_eq_eq, Nat.compare_eq_lt]
  unfold nanos secondsPerDay nanosPerSecond at *
  omega

theorem compare_eq_gt_iff (hs : s.inLeapSecond = false) (ht : t.inLeapSecond = false) :
    s.compare t = .gt ↔ t.nanos < s.nanos := by
  have hs' := s.second_lt
  have ht' := t.second_lt
  rw [inLeapSecond_eq_false] at hs ht
  unfold compare
  rw [Ordering.then_eq_gt, Ordering.then_eq_gt, Int.compare_eq_gt, Int.compare_eq_eq,
    Nat.compare_eq_gt, Nat.compare_eq_eq, Nat.compare_eq_gt]
  unfold nanos secondsPerDay nanosPerSecond at *
  omega

/-! ## Moving -/

/-- To move by milliseconds is to add them. -/
theorem addMillis?_eq_some_iff (ht : t.inLeapSecond = false) : t.addMillis? ms = some s ↔
    s.inLeapSecond = false ∧ s.nanos = t.nanos + ms * nanosPerMilli := by
  unfold addMillis?
  dsimp only
  rw [if_neg (Bool.eq_false_iff.mp ht), ofNanos?_eq_some_iff]
  refine and_congr_right fun _ => ?_
  unfold nanos secondsPerDay nanosPerSecond nanosPerMilli
  omega

/-- The milliseconds of an instant. -/
theorem epochMillis_eq (t : Instant) : t.epochMillis = t.nanos / nanosPerMilli := by
  unfold epochMillis milli nanos secondsPerDay nanosPerSecond nanosPerMilli
  omega

/-- The instants lie close together compared with the numbers that are counted exactly. -/
theorem nanos_natAbs_lt (t : Instant) : t.nanos.natAbs < 2 ^ 53 * nanosPerMilli := by
  have hday := t.inCalendar
  have hsecond := t.second_lt
  have hnano := t.nano_lt
  unfold InCalendar firstDay lastDay at hday
  unfold nanos secondsPerDay nanosPerSecond nanosPerMilli at *
  omega

end FormulaTable.Calendar.Instant
