import FormulaTable.Number.Exact
import Mathlib

/-!
# Doubles and what they denote

Two doubles that denote the same are the same, and what a finite double denotes is in canonical
form. Only the two zeros are equal without being the same.
-/

namespace FormulaTable.Number

open Float.Model (UnpackedFloat Format)
open Float.Model.UnpackedFloat (Sign unpackMantissa unpackExponent)

/-- The mantissa and the exponent of a finite double: at most 53 bits, and exactly 53 of them above
the least exponent. -/
structure Canonical (m : Nat) (e : Int) : Prop where
  pos : 0 < m
  lt : m < 2 ^ 53
  least : -1074 ≤ e
  full : -1074 < e → 2 ^ 52 ≤ m

variable {x y : Float} {s : Sign} {m : Nat} {e : Int} {hm : 0 < m}

/-! ## What a double denotes -/

/-- Doubles that denote the same are the same. -/
theorem exact_injective : Function.Injective exact := by
  intro x y h
  have hbits := (UnpackedFloat.unpack_inj_of_valid x.toModel.valid y.toModel.valid).mp h
  exact Float.toBits_inj.mp (UInt64.toBitVec_inj.mp hbits)

theorem toNat_one_append (v : BitVec 52) : (1#1 ++ v).toNat = 2 ^ 52 + v.toNat := by
  rw [BitVec.toNat_append, ← Nat.shiftLeft_add_eq_or_of_lt v.isLt]
  rfl

/-- Bits that denote a finite number denote it in canonical form: those of exponent zero without the
bit that is left out of the others. -/
theorem canonical_unpack {b : BitVec Format.binary64.numBits}
    (h : UnpackedFloat.unpack .binary64 b = .finite s m e hm) : Canonical m e := by
  have hlt : (unpackMantissa b).toNat < 2 ^ 52 := (unpackMantissa b).isLt
  have hbias (n : Nat) : (n : Int) - ((Format.binary64.exponentBias : Nat) +
      (Format.binary64.mantissaBitsWithoutImplicit : Nat)) = n - 1075 := rfl
  unfold UnpackedFloat.unpack at h
  dsimp only at h
  split at h
  · split at h <;> cases h
  split at h
  · next hexponent =>
    split at h
    · cases h
    · cases h
      rw [hbias, hexponent]
      exact ⟨hm, by omega, by decide, fun h => absurd h (by decide)⟩
  · next hexponent =>
    have hpos : 0 < (unpackExponent b).toNat := BitVec.toNat_pos_of_ne_zero hexponent
    injection h with _ hmantissa hexponent
    have hmantissa := (toNat_one_append (unpackMantissa b)).symm.trans hmantissa
    rw [hbias] at hexponent
    exact ⟨hm, by omega, by omega, by omega⟩

/-- What a finite double denotes is in canonical form. -/
theorem canonical_of_exact (h : exact x = .finite s m e hm) : Canonical m e :=
  canonical_unpack h

theorem isNaN_iff : x.isNaN = true ↔ exact x = .notANumber :=
  UnpackedFloat.isNaN_iff

/-! ## Equality of doubles -/

/-- The double is one of the two zeros. -/
def IsZero (x : Float) : Prop := ∃ s, exact x = .zero s

theorem isZero_iff : IsZero x ↔ x = 0 ∨ x = -0 := by
  constructor
  · rintro ⟨s, hs⟩
    cases s with
    | positive => exact .inl (exact_injective hs)
    | negative => exact .inr (exact_injective hs)
  · rintro (rfl | rfl)
    · exact ⟨.positive, rfl⟩
    · exact ⟨.negative, rfl⟩

theorem IsZero.isNaN (h : IsZero x) : x.isNaN = false := by
  obtain ⟨s, hs⟩ := h
  change (exact x).isNaN = false
  rw [hs]
  rfl

/-- Equal doubles are the same, other than what is not a number, or both zero. -/
theorem beq_iff : (x == y) = true ↔ (x = y ∧ x.isNaN = false) ∨ (IsZero x ∧ IsZero y) := by
  have hnan (x : Float) : x.isNaN = false ↔ x ≠ Float.nan := by
    rw [Float.isNaN_eq_decide_eq_nan, decide_eq_false_iff_not]
  rw [Float.beq_iff_ne_nan_and_eq, ← hnan, ← hnan]
  constructor
  · rintro ⟨hx, -, rfl | ⟨rfl, rfl⟩ | ⟨rfl, rfl⟩⟩
    · exact .inl ⟨rfl, hx⟩
    · exact .inr ⟨isZero_iff.mpr (.inl rfl), isZero_iff.mpr (.inr rfl)⟩
    · exact .inr ⟨isZero_iff.mpr (.inr rfl), isZero_iff.mpr (.inl rfl)⟩
  · rintro (⟨rfl, hx⟩ | ⟨hx, hy⟩)
    · exact ⟨hx, hx, .inl rfl⟩
    · refine ⟨hx.isNaN, hy.isNaN, ?_⟩
      rcases isZero_iff.mp hx with rfl | rfl
      · rcases isZero_iff.mp hy with rfl | rfl
        · exact .inl rfl
        · exact .inr (.inl ⟨rfl, rfl⟩)
      · rcases isZero_iff.mp hy with rfl | rfl
        · exact .inr (.inr ⟨rfl, rfl⟩)
        · exact .inl rfl

theorem beq_zero : (x == 0) = true ↔ IsZero x := by
  have hzero : IsZero 0 := isZero_iff.mpr (.inl rfl)
  constructor
  · intro h
    rcases beq_iff.mp h with ⟨rfl, -⟩ | ⟨h, -⟩
    · exact hzero
    · exact h
  · exact fun h => beq_iff.mpr (.inr ⟨h, hzero⟩)

end FormulaTable.Number
