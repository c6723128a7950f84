import FormulaTable.Proofs.Number.Integer
import FormulaTable.Proofs.Number.Order

/-!
# The line of doubles

The order of doubles is the order of their positions, where the infinities stand beyond all others and
what is not a number is not compared. A sum that is not positive is rounded to a double that is not.
-/

namespace FormulaTable.Number

open Float.Model (UnpackedFloat Format)
open Float.Model.UnpackedFloat

variable {x y z : Float} {s : Sign} {m n : Nat} {e f t : Int} {hm : 0 < m}

/-! ## Numbers on the line -/

theorem overflow_pos : 0 < overflow := zero_lt_one.trans (two_pow_lt_overflow (k := 0) (by decide))

theorem isNaN_eq_false_iff : x.isNaN = false ↔ exact x ≠ .notANumber := by
  rw [← Bool.not_eq_true, isNaN_iff]

theorem isNaN_of_isFinite (h : x.isFinite = true) : x.isNaN = false := by
  rw [isNaN_eq_false_iff]
  intro hx
  rw [isFinite_iff, hx] at h
  cases h

/-- A whole number stands at itself. -/
theorem Whole.position_eq {a : Int} (h : Whole x a) : position x = a := by
  unfold position
  rcases h.cases with ⟨hx, rfl⟩ | ⟨s, m, e, hm, hx, hsign, hmagnitude⟩
  · rw [hx]
    exact Int.cast_zero.symm
  · rw [hx, positionOf, hmagnitude, ← hsign, natAbs_apply]
    cases s with
    | positive => exact (Int.cast_natCast _).symm
    | negative =>
        show (-(a.natAbs : ℚ)) = ((-(a.natAbs : Int) : Int) : ℚ)
        rw [Int.cast_neg, Int.cast_natCast]

/-! ## Order -/

/-- Two mantissas with exponents are compared as the numbers that they denote. -/
theorem Canonical.compare_eq (hm : Canonical m e) (hn : Canonical n f) :
    (compare e f).then (compare m n) = cmp (m * 2 ^ e : ℚ) (n * 2 ^ f) := by
  have hlt := hm.compare_eq_lt_iff hn
  have hgt := hn.compare_eq_lt_iff hm
  rw [← Int.compare_swap, ← Nat.compare_swap, ← Ordering.swap_then, Ordering.swap_eq_lt] at hgt
  rcases lt_trichotomy (m * 2 ^ e : ℚ) (n * 2 ^ f) with h | h | h
  · rw [hlt.mpr h, cmp_eq_lt_iff _ _ |>.mpr h]
  · obtain ⟨rfl, rfl⟩ := hm.eq_of_mul_eq hn h
    rw [cmp_self_eq_eq]
    simp
  · rw [hgt.mpr h, cmp_eq_gt_iff _ _ |>.mpr h]

/-- A finite double stands between the infinities. -/
theorem abs_position_lt (hx : x.isFinite = true) : |position x| < overflow := by
  unfold position
  rcases zero_or_finite hx with ⟨s, hs⟩ | ⟨s, m, e, hm, hs⟩
  · rw [hs]
    exact abs_zero.trans_lt overflow_pos
  · have hlt := (canonical_of_exact hs).lt_overflow (exponent_le hs)
    have hpos : (0 : ℚ) < m * 2 ^ e := by positivity
    rw [hs]
    cases s with
    | positive => exact (abs_of_pos hpos).trans_lt hlt
    | negative => exact ((abs_neg _).trans (abs_of_pos hpos)).trans_lt hlt

/-- Two doubles are compared as their positions. -/
def ComparedByPosition (x y : Float) : Prop :=
  (exact x).compare (exact y) = some (cmp (position x) (position y))

theorem ComparedByPosition.symm (h : ComparedByPosition x y) : ComparedByPosition y x := by
  unfold ComparedByPosition at h ⊢
  rw [compare_swap, h, Option.map_some, cmp_swap]

theorem comparedByPosition_infinity (hx : exact x = .infinity s) (hy : y.isFinite = true) :
    ComparedByPosition x y := by
  obtain ⟨hlow, hhigh⟩ := abs_lt.mp (abs_position_lt hy)
  have hposition : position x = signedBy s overflow := by rw [position, hx, positionOf]
  unfold ComparedByPosition
  rw [hposition, hx]
  cases s with
  | positive =>
      rw [signedBy, (cmp_eq_gt_iff _ _).mpr hhigh]
      rcases zero_or_finite hy with ⟨s', hs'⟩ | ⟨s', n, f, hn, hs'⟩ <;> rw [hs'] <;> rfl
  | negative =>
      rw [signedBy, (cmp_eq_lt_iff _ _).mpr hlow]
      rcases zero_or_finite hy with ⟨s', hs'⟩ | ⟨s', n, f, hn, hs'⟩ <;> rw [hs'] <;> rfl

/-- The two infinities are apart. -/
theorem comparedByPosition_infinities {s' : Sign} (hx : exact x = .infinity s)
    (hy : exact y = .infinity s') : ComparedByPosition x y := by
  have hpos := overflow_pos
  unfold ComparedByPosition position
  rw [hx, hy, positionOf, positionOf]
  cases s with
  | positive =>
      cases s' with
      | positive =>
          rw [cmp_self_eq_eq]
          rfl
      | negative =>
          rw [signedBy, signedBy, (cmp_eq_gt_iff _ _).mpr (by linarith)]
          rfl
  | negative =>
      cases s' with
      | positive =>
          rw [signedBy, signedBy, (cmp_eq_lt_iff _ _).mpr (by linarith)]
          rfl
      | negative =>
          rw [cmp_self_eq_eq]
          rfl

theorem comparedByPosition_zero (hx : exact x = .zero s) (hy : y.isFinite = true) :
    ComparedByPosition x y := by
  unfold ComparedByPosition position
  rw [hx]
  rcases zero_or_finite hy with ⟨s', hs'⟩ | ⟨s', n, f, hn, hs'⟩
  · rw [hs', positionOf, positionOf, cmp_self_eq_eq]
    rfl
  · have hpos : (0 : ℚ) < n * 2 ^ f := by positivity
    rw [hs', positionOf, positionOf]
    cases s' with
    | positive =>
        rw [signedBy, (cmp_eq_lt_iff _ _).mpr hpos]
        rfl
    | negative =>
        rw [signedBy, (cmp_eq_gt_iff _ _).mpr (neg_lt_zero.mpr hpos)]
        rfl

theorem comparedByPosition_finite {s' : Sign} {hn : 0 < n} (hx : exact x = .finite s m e hm)
    (hy : exact y = .finite s' n f hn) : ComparedByPosition x y := by
  have hmpos : (0 : ℚ) < m * 2 ^ e := by positivity
  have hnpos : (0 : ℚ) < n * 2 ^ f := by positivity
  have hcompare := (canonical_of_exact hx).compare_eq (canonical_of_exact hy)
  unfold ComparedByPosition position
  rw [hx, hy, positionOf, positionOf]
  cases s with
  | positive =>
      cases s' with
      | positive => exact congrArg some hcompare
      | negative =>
          rw [signedBy, signedBy, (cmp_eq_gt_iff _ _).mpr (by linarith)]
          rfl
  | negative =>
      cases s' with
      | positive =>
          rw [signedBy, signedBy, (cmp_eq_lt_iff _ _).mpr (by linarith)]
          rfl
      | negative =>
          -- negative numbers are compared by their magnitudes the other way round
          have hneg : StrictAnti fun q : ℚ => -q := fun _ _ => neg_lt_neg
          rw [signedBy, signedBy, hneg.cmp_map_eq, ← cmp_swap, ← hcompare]
          rfl

theorem infinity_or_isFinite (hx : x.isNaN = false) :
    (∃ s, exact x = .infinity s) ∨ x.isFinite = true := by
  rw [isNaN_eq_false_iff] at hx
  rw [isFinite_iff]
  cases hu : exact x with
  | notANumber => exact absurd hu hx
  | infinity s => exact .inl ⟨s, rfl⟩
  | zero s | finite s m e hm => exact .inr rfl

/-- **Doubles are compared by their positions**, other than what is not a number. -/
theorem comparedByPosition (hx : x.isNaN = false) (hy : y.isNaN = false) :
    ComparedByPosition x y := by
  rcases infinity_or_isFinite hx with ⟨s, hs⟩ | hxfinite
  · rcases infinity_or_isFinite hy with ⟨s', hs'⟩ | hyfinite
    · exact comparedByPosition_infinities hs hs'
    · exact comparedByPosition_infinity hs hyfinite
  · rcases infinity_or_isFinite hy with ⟨s', hs'⟩ | hyfinite
    · exact (comparedByPosition_infinity hs' hxfinite).symm
    · rcases zero_or_finite hxfinite with ⟨s, hs⟩ | ⟨s, m, e, hm, hs⟩
      · exact comparedByPosition_zero hs hyfinite
      · rcases zero_or_finite hyfinite with ⟨s', hs'⟩ | ⟨s', n, f, hn, hs'⟩
        · exact (comparedByPosition_zero hs' hxfinite).symm
        · exact comparedByPosition_finite hs hs'

/-- What is not a number is compared with nothing. -/
theorem isNaN_of_compare {o : Ordering} (h : (exact x).compare (exact y) = some o) :
    x.isNaN = false ∧ y.isNaN = false := by
  rw [isNaN_eq_false_iff, isNaN_eq_false_iff]
  constructor
  · intro hx
    rw [hx] at h
    cases h
  · intro hy
    rw [hy, compare_swap, Option.map_eq_some_iff] at h
    obtain ⟨_, h, -⟩ := h
    cases h

/-- The order of doubles is the order of their positions. -/
theorem le_iff_position :
    x ≤ y ↔ x.isNaN = false ∧ y.isNaN = false ∧ position x ≤ position y := by
  have hle : x ≤ y ↔ ∃ o, (exact x).compare (exact y) = some o ∧ o.isLE := by
    show decide ((exact x).le (exact y) = true) = true ↔ _
    rw [decide_eq_true_iff, UnpackedFloat.le, Option.any_eq_true]
  rw [hle]
  constructor
  · rintro ⟨o, ho, hleo⟩
    obtain ⟨hx, hy⟩ := isNaN_of_compare ho
    have hcmp := comparedByPosition hx hy
    rw [ComparedByPosition, ho, Option.some_inj] at hcmp
    refine ⟨hx, hy, le_of_not_gt fun hlt => ?_⟩
    rw [(cmp_eq_gt_iff _ _).mpr hlt] at hcmp
    rw [hcmp] at hleo
    cases hleo
  · rintro ⟨hx, hy, h⟩
    refine ⟨_, comparedByPosition hx hy, ?_⟩
    rcases h.lt_or_eq with hlt | heq
    · rw [(cmp_eq_lt_iff _ _).mpr hlt]
      rfl
    · rw [(cmp_eq_eq_iff _ _).mpr heq]
      rfl

theorem lt_iff_position :
    x < y ↔ x.isNaN = false ∧ y.isNaN = false ∧ position x < position y := by
  rw [lt_iff]
  constructor
  · intro h
    obtain ⟨hx, hy⟩ := isNaN_of_compare h
    have hcmp := comparedByPosition hx hy
    rw [ComparedByPosition, h, Option.some_inj] at hcmp
    exact ⟨hx, hy, (cmp_eq_lt_iff _ _).mp hcmp.symm⟩
  · rintro ⟨hx, hy, h⟩
    rw [comparedByPosition hx hy, (cmp_eq_lt_iff _ _).mpr h]

/-- Equal doubles are those at one position. -/
theorem beq_iff_position :
    (x == y) = true ↔ x.isNaN = false ∧ y.isNaN = false ∧ position x = position y := by
  rw [beq_iff_compare]
  constructor
  · intro h
    obtain ⟨hx, hy⟩ := isNaN_of_compare h
    have hcmp := comparedByPosition hx hy
    rw [ComparedByPosition, h, Option.some_inj] at hcmp
    exact ⟨hx, hy, (cmp_eq_eq_iff _ _).mp hcmp.symm⟩
  · rintro ⟨hx, hy, h⟩
    rw [comparedByPosition hx hy, (cmp_eq_eq_iff _ _).mpr h]

/-! ## Signs of sums -/

/-- What a rounded number with a sign denotes has that sign. -/
theorem Rounded.exact_signed {q : ℚ} (h : Rounded q m e) (s : Sign) :
    exact (.ofModel (.pack (signed s m e))) = .zero s ∨
      exact (.ofModel (.pack (signed s m e))) = .infinity s ∨
      ∃ hm, exact (.ofModel (.pack (signed s m e))) = .finite s m e hm := by
  unfold signed
  by_cases hm : m = 0
  · rw [dif_pos hm]
    cases s with
    | positive => exact .inl rfl
    | negative => exact .inl rfl
  · rw [dif_neg hm]
    have hcanonical : Canonical m e := ⟨Nat.pos_of_ne_zero hm, h.lt, h.least, h.full⟩
    rcases le_or_gt e 971 with he | he
    · exact .inr (.inr ⟨hcanonical.pos, exact_pack hcanonical he⟩)
    · exact .inr (.inl (exact_pack_of_lt hcanonical.pos he))

theorem Rounded.le_zero {q : ℚ} (h : Rounded q m e) :
    .ofModel (.pack (signed .negative m e)) ≤ (0 : Float) := by
  have hzero : (0 : Float).isNaN = false := by decide
  rw [le_iff_position, isNaN_eq_false_iff, position_zero, position]
  rcases h.exact_signed .negative with hx | hx | ⟨hm, hx⟩
  · rw [hx]
    exact ⟨by simp, hzero, le_rfl⟩
  · rw [hx]
    exact ⟨by simp, hzero, neg_nonpos.mpr overflow_pos.le⟩
  · rw [hx]
    exact ⟨by simp, hzero, neg_nonpos.mpr (by positivity)⟩

theorem Rounded.position_nonneg {q : ℚ} (h : Rounded q m e) :
    0 ≤ position (.ofModel (.pack (signed .positive m e))) := by
  unfold position
  rcases h.exact_signed .positive with hx | hx | ⟨hm, hx⟩
  · rw [hx, positionOf_zero]
  · rw [hx]
    exact overflow_pos.le
  · rw [hx]
    exact mul_nonneg (Nat.cast_nonneg m) (by positivity)

/-- What is rounded from a number that is not positive is not positive. -/
theorem normalize_le_zero {z : Int} (hz : z ≤ 0) (e : Int) :
    .ofModel (.pack (UnpackedFloat.normalize .binary64 z e .positive)) ≤ (0 : Float) := by
  unfold UnpackedFloat.normalize
  split
  · obtain ⟨m', e', hround, hrounded⟩ := round_eq .negative (-z).toNat e
    rw [hround]
    exact hrounded.le_zero
  · exact of_decide_eq_true rfl
  · next hcompare => exact absurd (Int.compare_eq_gt.mp hcompare) (Int.not_lt.mpr hz)

/-- A sum that is not positive is rounded to a double that is not positive. -/
theorem add_le_zero (hx : x.isFinite = true) (hy : y.isFinite = true)
    (h : position x + position y ≤ 0) : x + y ≤ 0 := by
  have hle {x : Float} (hx : x.isFinite = true) (h : position x ≤ 0) : x ≤ 0 :=
    le_iff_position.mpr ⟨isNaN_of_isFinite hx, by decide, h⟩
  rcases add_eq_or hx hy with ⟨hzero, hsum⟩ | ⟨hzero, hsum⟩ | ⟨z, t, hz, hsum⟩
  · rw [hzero, zero_add] at h
    rw [hsum]
    exact hle hy h
  · rw [hzero, add_zero] at h
    rw [hsum]
    exact hle hx h
  · rw [← hz] at h
    have hz : (z : ℚ) ≤ 0 := nonpos_of_mul_nonpos_left h (by positivity)
    rw [hsum]
    exact normalize_le_zero (by exact_mod_cast hz) t

end FormulaTable.Number
