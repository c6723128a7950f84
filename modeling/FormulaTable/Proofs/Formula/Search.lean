import FormulaTable.Proofs.Formula.Slices
import FormulaTable.Proofs.Formula.Splitting
import Mathlib.Order.Bounds.Defs

/-!
# Searching texts

A text is found at its least place in another one, and nowhere only if it has no place there. The
functions of formulas that search a text agree with each other, and the slice of the length of a text
from the place where it is found is that text.
-/

namespace FormulaTable.Text

variable {needle s : List Char} {i : Nat}

/-! ## Places of a text in another -/

/-- The characters from this place on begin with `needle`. -/
def OccursAt (needle s : List Char) (i : Nat) : Prop := needle <+: s.drop i

theorem occursAt_zero : OccursAt needle s 0 ↔ needle.isPrefixOf s = true :=
  List.isPrefixOf_iff_prefix.symm

theorem occursAt_nil : OccursAt needle [] i ↔ needle.isEmpty = true := by
  rw [OccursAt, List.drop_nil, List.prefix_nil, List.isEmpty_iff]

theorem occursAt_succ {c : Char} : OccursAt needle (c :: s) (i + 1) ↔ OccursAt needle s i := Iff.rfl

/-- A text that occurs ends in the other text. -/
theorem OccursAt.add_length_le (h : OccursAt needle s i) (hi : i ≤ s.length) :
    i + needle.length ≤ s.length := by
  have hle := h.length_le
  rw [List.length_drop] at hle
  omega

theorem OccursAt.extract_eq (h : OccursAt needle s i) : s.extract i (i + needle.length) = needle := by
  rw [List.extract_eq_take_drop, Nat.add_sub_cancel_left]
  exact (List.prefix_iff_eq_take.mp h).symm

/-! ## The search -/

/-- The search leads to the least place. -/
theorem isLeast_indexOf? (h : indexOf? needle s = some i) : IsLeast {j | OccursAt needle s j} i := by
  induction s generalizing i with
  | nil =>
      rw [indexOf?] at h
      split at h
      · next hempty =>
        cases h
        exact ⟨occursAt_nil.mpr hempty, fun j _ => Nat.zero_le j⟩
      · cases h
  | cons c rest ih =>
      rw [indexOf?] at h
      split at h
      · next hbegins =>
        cases h
        exact ⟨occursAt_zero.mpr hbegins, fun j _ => Nat.zero_le j⟩
      · next hbegins =>
        obtain ⟨i, hrest, rfl⟩ := Option.map_eq_some_iff.mp h
        refine ⟨(ih hrest).1, fun j hj => ?_⟩
        cases j with
        | zero => exact absurd (occursAt_zero.mp hj) hbegins
        | succ j => exact Nat.succ_le_succ ((ih hrest).2 hj)

/-- The search fails only where there is no place. -/
theorem indexOf?_eq_none_iff : indexOf? needle s = none ↔ ∀ i, ¬ OccursAt needle s i := by
  constructor
  · intro h
    induction s with
    | nil =>
        rw [indexOf?] at h
        split at h
        · cases h
        · next hempty => exact fun i hi => hempty (occursAt_nil.mp hi)
    | cons c rest ih =>
        rw [indexOf?] at h
        split at h
        · cases h
        · next hbegins =>
          intro i hi
          cases i with
          | zero => exact hbegins (occursAt_zero.mp hi)
          | succ i => exact ih (Option.map_eq_none_iff.mp h) i (occursAt_succ.mp hi)
  · intro h
    cases hfound : indexOf? needle s with
    | none => rfl
    | some i => exact absurd (isLeast_indexOf? hfound).1 (h i)

theorem indexOf?_eq_some_iff : indexOf? needle s = some i ↔ IsLeast {j | OccursAt needle s j} i := by
  refine ⟨isLeast_indexOf?, fun h => ?_⟩
  cases hfound : indexOf? needle s with
  | none => exact absurd h.1 (indexOf?_eq_none_iff.mp hfound i)
  | some j => rw [(isLeast_indexOf? hfound).unique h]

theorem indexOf?_eq_zero_iff : indexOf? needle s = some 0 ↔ needle.isPrefixOf s = true := by
  rw [indexOf?_eq_some_iff, ← occursAt_zero]
  exact ⟨fun h => h.1, fun h => ⟨h, fun j _ => Nat.zero_le j⟩⟩

theorem contains_eq_isSome (needle s : List Char) : contains needle s = (indexOf? needle s).isSome := by
  induction s with
  | nil =>
      rw [contains, indexOf?]
      split
      · next hempty => exact hempty
      · next hempty => exact Bool.eq_false_of_not_eq_true hempty
  | cons c rest ih =>
      rw [contains, indexOf?, ih]
      split
      · next hbegins => rw [hbegins, Bool.true_or, Option.isSome_some]
      · next hbegins => rw [Bool.eq_false_of_not_eq_true hbegins, Bool.false_or, Option.isSome_map]

/-- The place where a text is found lies in the other text. -/
theorem indexOf?_le_length (h : indexOf? needle s = some i) : i ≤ s.length := by
  by_contra hlt
  have hleast := isLeast_indexOf? h
  -- behind the end only the empty text occurs, which also occurs before
  have hempty : needle = [] := by
    have hoccurs : OccursAt needle s i := hleast.1
    rwa [OccursAt, List.drop_eq_nil_of_le (by omega), List.prefix_nil] at hoccurs
  have hle : i ≤ 0 := hleast.2 (hempty ▸ List.nil_prefix)
  omega

end FormulaTable.Text

namespace FormulaTable.Formula.Library

open Number (Whole whole_toFloat fits_of_le)
open Text (OccursAt indexOf?_eq_none_iff indexOf?_eq_some_iff)

/-! ## The functions of formulas -/

/-- The count of nothing is the only one that is zero. -/
theorem ofCount_eq_zero_iff {i : Nat} (hi : i < 2 ^ 64) : ofCount i = .number 0 ↔ i = 0 := by
  constructor
  · intro h
    by_contra hne
    have hword : i.toUInt64.toNat = i := by
      rw [Nat.toUInt64_eq, UInt64.toNat_ofNat']
      omega
    have hone := (Number.rounds_toFloat i.toUInt64).one_le (Number.isFinite_toFloat _) (by
      rw [hword]
      exact_mod_cast Nat.one_le_iff_ne_zero.mpr hne)
    rw [Value.number.inj h] at hone
    exact absurd hone (by decide)
  · rintro rfl
    rfl

section Found

variable {v w : Value} {i : Nat} {x y : Float}

/-- The slice of the length of a text from the place where it is found is that text. -/
theorem slice_of_indexOf? (hlength : v.chars.length < 2 ^ 64)
    (h : Text.indexOf? w.chars v.chars = some i) (hx : Whole x i)
    (hy : Whole y (i + w.chars.length : Nat)) :
    slice [v, .number x, .number y] = .text w.toText := by
  have hle := Text.indexOf?_le_length h
  have hoccurs : OccursAt w.chars v.chars i := (Text.isLeast_indexOf? h).1
  have hend := hoccurs.add_length_le hle
  have hstart : clampIndex x v.chars.length = i := by
    rw [clampIndex_of_nonneg (by rwa [hx.truncate]) (Int.natCast_nonneg i) hlength]
    exact Nat.min_eq_left hle
  have hstop : clampIndex y v.chars.length = i + w.chars.length := by
    rw [clampIndex_of_nonneg (by rwa [hy.truncate]) (Int.natCast_nonneg _) hlength]
    exact Nat.min_eq_left hend
  show Value.ofChars (cut v.chars (clampIndex x v.chars.length) (clampIndex y v.chars.length)) = _
  rw [hstart, hstop, cut_eq_extract, hoccurs.extract_eq, ofChars_chars]

/-- The sum of two counts that stays below 53 bits. -/
theorem add_ofCount {k : Nat} (h : i + k < 2 ^ 53) :
    ∃ x, (ofCount i).add (ofCount k) = .number x ∧ Whole x (i + k : Nat) := by
  have hsum := (whole_toFloat (n := i) (by omega)).add (whole_toFloat (n := k) (by omega))
    (fits_of_le (by omega))
  refine ⟨_, ?_, by exact_mod_cast hsum⟩
  exact if_pos hsum.isFinite

end Found

/-- **The searches of a text agree**: a text is found at its least place, which is null if there is
none; it is contained if it is found, and the other starts with it if it is found at the start; and the
slice of its length from that place is the text. A length is a word of 64 bits, and positions are exact
below 2 ^ 53; beyond, the slice is the one between the exact positions, should they be doubles. -/
theorem text_search_is_consistent (s needle : String) (hlength : s.length < 2 ^ 64) :
    (∀ i, IsLeast {j | OccursAt needle.toList s.toList j} i →
      indexOf [.text s, .text needle] = ofCount i ∧
        (∀ x y, Whole x i → Whole y (i + needle.length : Nat) →
          slice [.text s, .number x, .number y] = .text needle) ∧
        (i + needle.length < 2 ^ 53 →
          slice [.text s, indexOf [.text s, .text needle],
            (indexOf [.text s, .text needle]).add (length [.text needle])] = .text needle)) ∧
      (indexOf [.text s, .text needle] = .null ↔ ∀ i, ¬ OccursAt needle.toList s.toList i) ∧
      (contains [.text s, .text needle] = .boolean true ↔ indexOf [.text s, .text needle] ≠ .null) ∧
      (startsWith [.text s, .text needle] = .boolean true ↔
        indexOf [.text s, .text needle] = .number 0) := by
  have hfound : indexOf [.text s, .text needle] =
      Value.ofOption ofCount (Text.indexOf? needle.toList s.toList) := rfl
  have hcontains : contains [.text s, .text needle] =
      .boolean (Text.indexOf? needle.toList s.toList).isSome :=
    congrArg Value.boolean (Text.contains_eq_isSome _ _)
  have hstarts : startsWith [.text s, .text needle] = .boolean true ↔
      Text.indexOf? needle.toList s.toList = some 0 := by
    rw [Text.indexOf?_eq_zero_iff]
    exact ⟨Value.boolean.inj, congrArg Value.boolean⟩
  refine ⟨fun i hleast => ?_, ?_, ?_, ?_⟩
  · have hsome : Text.indexOf? (Value.text needle).chars (Value.text s).chars = some i :=
      indexOf?_eq_some_iff.mpr hleast
    have hposition : indexOf [.text s, .text needle] = ofCount i :=
      congrArg (Value.ofOption ofCount) hsome
    refine ⟨hposition, fun x y hx hy => slice_of_indexOf? (v := .text s) hlength hsome hx hy, fun hlt => ?_⟩
    obtain ⟨y, hy, hend⟩ := add_ofCount hlt
    rw [hposition, show length [.text needle] = ofCount needle.length from rfl, hy]
    exact slice_of_indexOf? (v := .text s) hlength hsome (whole_toFloat (by omega)) hend
  · rw [← indexOf?_eq_none_iff, hfound]
    cases Text.indexOf? needle.toList s.toList with
    | none => exact iff_of_true rfl rfl
    | some i => exact iff_of_false nofun nofun
  · rw [hcontains, hfound]
    cases Text.indexOf? needle.toList s.toList with
    | none => exact iff_of_false nofun fun h => h rfl
    | some i => exact iff_of_true rfl nofun
  · rw [hstarts, hfound]
    cases hsome : Text.indexOf? needle.toList s.toList with
    | none => exact iff_of_false nofun nofun
    | some i =>
        have hle : i < 2 ^ 64 := (Text.indexOf?_le_length hsome).trans_lt hlength
        exact ⟨fun h => (ofCount_eq_zero_iff hle).mpr (Option.some.inj h),
          fun h => congrArg some ((ofCount_eq_zero_iff hle).mp h)⟩

/-- Characters of several bytes, and a candidate at the start that overlaps the place. -/
theorem search_past_a_candidate :
    "éaéaé𝄞".length < 2 ^ 64 ∧
      indexOf [.text "éaéaé𝄞", .text "éaé𝄞"] = ofCount 2 ∧
      slice [.text "éaéaé𝄞", .number 2, .number 6] = .text "éaé𝄞" ∧
      slice [.text "éaéaé𝄞", ofCount 2, (ofCount 2).add (length [.text "éaé𝄞"])] = .text "éaé𝄞" ∧
      contains [.text "éaéaé𝄞", .text "éaé𝄞"] = .boolean true ∧
      startsWith [.text "éaéaé𝄞", .text "éaé𝄞"] ≠ .boolean true := by
  have hlength : "éaéaé𝄞".length < 2 ^ 64 := by decide
  have hleast : IsLeast {j | OccursAt "éaé𝄞".toList "éaéaé𝄞".toList j} 2 :=
    indexOf?_eq_some_iff.mp (by decide)
  obtain ⟨hfound, -, hcontains, hstarts⟩ := text_search_is_consistent "éaéaé𝄞" "éaé𝄞" hlength
  obtain ⟨hposition, hbetween, hslice⟩ := hfound 2 hleast
  rw [hposition] at hslice hcontains hstarts
  have hnotZero : ofCount 2 ≠ .number 0 := fun h => absurd ((ofCount_eq_zero_iff (by decide)).mp h) nofun
  exact ⟨hlength, hposition, hbetween 2 6 (Number.whole_ofNat (by decide)) (Number.whole_ofNat (by decide)),
    hslice (by decide), hcontains.mpr nofun, fun h => hnotZero (hstarts.mp h)⟩

end FormulaTable.Formula.Library
