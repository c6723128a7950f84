import FormulaTable.Calendar.Pattern
import FormulaTable.Proofs.Calendar.Layouts

/-!
# Patterns that are read back

A pattern shows of an instant no more than its day, second and millisecond. Dates and times in the
patterns of the layouts are written as these are read.
-/

namespace FormulaTable.Calendar.Instant

variable (t : Instant)

/-- The pieces of a date with a mark between its numbers. -/
def datePieces (mark : Char) : List Piece :=
  [.field .year4, .literal mark, .field .month2, .literal mark, .field .day2]

/-- The pieces of a time of day with milliseconds. -/
def timePieces : List Piece :=
  [.field .hour2, .literal ':', .field .minute2, .literal ':', .field .second2, .literal '.',
    .field .milli]

theorem flatMap_datePieces (hyear : t.civil.FourDigits) (mark : Char) :
    (datePieces mark).flatMap (·.render t) = t.civil.textWith mark := by
  have hsigned : Field.signedYear t.civil.year = padded 4 t.civil.year.toNat :=
    if_neg (Int.not_lt.mpr hyear.1)
  have hwritten : yearText t.civil.year = padded 4 t.civil.year.toNat := if_pos hyear
  unfold datePieces Civil.textWith
  simp only [List.flatMap_cons, List.flatMap_nil, Piece.render, Field.render, List.append_assoc,
    List.cons_append, List.nil_append, List.append_nil, hsigned, hwritten]

theorem fractionText_three (hleap : t.inLeapSecond = false) :
    t.fractionText 3 = '.' :: padded 3 t.milli := by
  unfold fractionText writtenNano
  rw [hleap]
  rfl

theorem flatMap_timePieces (hleap : t.inLeapSecond = false) :
    timePieces.flatMap (·.render t) = t.timeText 3 := by
  unfold timePieces timeText writtenSecond
  rw [t.fractionText_three hleap, hleap]
  simp only [List.flatMap_cons, List.flatMap_nil, Piece.render, Field.render, List.append_assoc,
    List.cons_append, List.nil_append, List.append_nil]
  rfl

/-- What a pattern shows of an instant is its day, second and millisecond. -/
theorem format_congr {s t : Instant} (hday : s.day = t.day) (hsecond : s.second = t.second)
    (hmilli : s.milli = t.milli) (pattern : List Char) : s.format pattern = t.format pattern := by
  have hfield (f : Field) : f.render s = f.render t := by
    obtain ⟨day, second, nano⟩ := s
    obtain ⟨day', second', nano'⟩ := t
    cases hday
    cases hsecond
    cases f with
    | milli => exact congrArg (padded 3) hmilli
    | _ => rfl
  have hpiece (p : Piece) : p.render s = p.render t := by
    cases p with
    | field f => exact hfield f
    | literal c => rfl
  unfold format
  simp only [hpiece]

theorem format_date (hyear : t.civil.FourDigits) :
    t.format "YYYY-MM-DD".toList = t.civil.textWith '-' := by
  have hpieces : pieces "YYYY-MM-DD".toList = datePieces '-' := by decide
  unfold format
  rw [hpieces, flatMap_datePieces t hyear]

theorem format_slashes (hyear : t.civil.FourDigits) :
    t.format "YYYY/MM/DD".toList = t.civil.textWith '/' := by
  have hpieces : pieces "YYYY/MM/DD".toList = datePieces '/' := by decide
  unfold format
  rw [hpieces, flatMap_datePieces t hyear]

theorem format_time (hyear : t.civil.FourDigits) (hleap : t.inLeapSecond = false) :
    t.format "YYYY-MM-DD HH:mm:ss.SSS".toList = t.civil.textWith '-' ++ ' ' :: t.timeText 3 := by
  have hpieces : pieces "YYYY-MM-DD HH:mm:ss.SSS".toList =
    datePieces '-' ++ .literal ' ' :: timePieces := by decide
  unfold format
  rw [hpieces, List.flatMap_append, List.flatMap_cons, flatMap_datePieces t hyear,
    flatMap_timePieces t hleap]
  rfl

end FormulaTable.Calendar.Instant
