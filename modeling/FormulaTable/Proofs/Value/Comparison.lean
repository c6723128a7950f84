import FormulaTable.Proofs.Calendar.TimeLine
import FormulaTable.Proofs.Number.Order

/-!
# Loose equality and order agree

Both comparisons of values may be read from either side, and where a date is among the two values they
mean the same by equality: the other value reads as that date.
-/

namespace FormulaTable.Value

open Calendar (Instant)

variable {t : Instant} {v w : Value}

/-! ## Equality -/

/-- **Loose equality is symmetric.** -/
theorem looselyEqual_comm (v w : Value) : v.looselyEqual w = w.looselyEqual v := by
  -- values of two kinds meet in rows that are written for both orders, and values of one kind are
  -- compared by an equality that is symmetric itself
  cases v with
  | number x => cases w <;> first | rfl | exact Number.beq_symm ..
  | null | text _ | boolean _ | date _ | options _ | references _ =>
      cases w <;> first | rfl | exact BEq.comm

/-- A date equals what reads as the same date. -/
theorem looselyEqual_date_iff : (date t).looselyEqual v = true ↔ v.toInstant? = some t := by
  have hinstant : (date t).looselyEqual v = isInstant t v := by cases v <;> rfl
  rw [hinstant, isInstant]
  cases v.toInstant? with
  | none => exact ⟨nofun, nofun⟩
  | some u => rw [beq_iff_eq, Option.some_inj, eq_comm]

/-! ## Order -/

/-- **The order read from the other side is the opposite one.** -/
theorem compare?_swap (v w : Value) : w.compare? v = (v.compare? w).map Ordering.swap := by
  unfold compare?
  rw [Bool.or_comm w.isDate]
  split
  · cases v.toInstant? with
    | none => cases w.toInstant? <;> rfl
    | some s =>
        cases w.toInstant? with
        | none => rfl
        | some t => exact congrArg some (Instant.compare_swap s t)
  · cases v.toNumber? with
    | none => cases w.toNumber? <;> rfl
    | some x =>
        cases w.toNumber? with
        | none => rfl
        | some y => exact Number.compareNumbers?_swap x y

/-- In the order, too, a date is level with what reads as the same date only. -/
theorem compare?_date_eq_iff : (date t).compare? v = some .eq ↔ v.toInstant? = some t := by
  have hcompare : (date t).compare? v = v.toInstant?.map t.compare := rfl
  rw [hcompare, Option.map_eq_some_iff]
  constructor
  · rintro ⟨u, hu, heq⟩
    rw [hu, Instant.compare_eq_eq_iff.mp heq]
  · exact fun hu => ⟨t, hu, Instant.compare_eq_eq_iff.mpr rfl⟩

theorem exists_of_isDate (h : v.isDate = true) : ∃ t, v = date t := by
  cases v with
  | date t => exact ⟨t, rfl⟩
  | null | text _ | number _ | boolean _ | options _ | references _ => cases h

/-- **Loose equality and order are coherent.** Each may be read from either side, and the order is then
the opposite one. Where one of the values is a date, they are equal exactly if neither comes first. -/
theorem comparison_is_coherent (l r : Value) :
    l.looselyEqual r = r.looselyEqual l ∧
      r.compare? l = (l.compare? r).map Ordering.swap ∧
      (r.compare? l = none ↔ l.compare? r = none) ∧
      (l.isDate = true ∨ r.isDate = true →
        (l.looselyEqual r = true ↔ l.compare? r = some .eq)) := by
  have hswap := compare?_swap l r
  refine ⟨looselyEqual_comm l r, hswap, ?_, ?_⟩
  · rw [hswap, Option.map_eq_none_iff]
  · rintro (hl | hr)
    · obtain ⟨t, rfl⟩ := exists_of_isDate hl
      rw [looselyEqual_date_iff, compare?_date_eq_iff]
    · obtain ⟨t, rfl⟩ := exists_of_isDate hr
      rw [looselyEqual_comm, looselyEqual_date_iff, ← compare?_date_eq_iff, compare?_swap l]
      cases l.compare? (date t) with
      | none => exact Iff.rfl
      | some o => cases o <;> decide

/-- A noon and two texts: one names the noon, the other the second after it. -/
theorem noon_compared_with_texts : ∃ noon : Instant, (date noon).isDate = true ∧
    (text " 2024-02-29 12:00 ").looselyEqual (date noon) = true ∧
      (text " 2024-02-29 12:00 ").compare? (date noon) = some .eq ∧
      (date noon).looselyEqual (text "2024-02-29T12:00:01Z") = false ∧
      (text "2024-02-29T12:00:01Z").compare? (date noon) = some .gt := by
  let noon : Instant := ⟨19782, 43200, 0, by decide, by decide, by decide, by decide⟩
  have hnamed : (date noon).looselyEqual (text " 2024-02-29 12:00 ") = true := by decide
  have hlater : (date noon).compare? (text "2024-02-29T12:00:01Z") = some .lt := by decide
  obtain ⟨hsymm, -, -, hdate⟩ := comparison_is_coherent (text " 2024-02-29 12:00 ") (date noon)
  obtain ⟨-, hswap, -, hdate'⟩ := comparison_is_coherent (date noon) (text "2024-02-29T12:00:01Z")
  have hequal := hsymm.trans hnamed
  refine ⟨noon, rfl, hequal, (hdate (.inr rfl)).mp hequal, ?_, ?_⟩
  · rw [Bool.eq_false_iff, Ne, hdate' (.inl rfl), hlater]
    decide
  · rw [hswap, hlater]
    rfl

end FormulaTable.Value
