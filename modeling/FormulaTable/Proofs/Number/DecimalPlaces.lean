import FormulaTable.Number.Rounding
import FormulaTable.Proofs.Number.Operations

/-!
# Rounding to decimal places

A finite number is rounded to a finite one. The decimals that a double is rounded in stay close to
it, and they are only used well below the greatest double; everything else is kept where the result
would not be finite.
-/

namespace FormulaTable.Number

open Float.Model.UnpackedFloat (Sign)

variable {x y : Float} {m : Nat} {e : Int}

/-! ## Decimals -/

/-- The multiple of `10 ^ -places` nearest to a number, of two equally near ones the greater. -/
def halfUp (places : Nat) (q : ℚ) : ℚ := ⌊q * 10 ^ places + 1 / 2⌋ / 10 ^ places

/-- A decimal is rounded to the nearest decimal with so many places. -/
theorem Decimal.value_roundHalfAway (d : Decimal) (places : Nat) :
    (d.roundHalfAway places).value = halfUp places d.value := by
  have hunit : (0 : ℚ) < 10 ^ places := by positivity
  unfold roundHalfAway halfUp
  dsimp only
  obtain ⟨extra, hextra⟩ : ∃ k, k = ((-d.exponent) - places).toNat := ⟨_, rfl⟩
  rw [← hextra]
  split
  · -- a multiple already
    have hexponent : d.exponent = (d.exponent + places).toNat - places := by omega
    have hwhole : d.value * 10 ^ places =
        ((d.coefficient * 10 ^ (d.exponent + places).toNat : Nat) : ℚ) := by
      rw [value, hexponent, zpow_sub₀ (by norm_num), zpow_natCast, zpow_natCast, ← hexponent]
      push_cast
      field_simp
    have hfloor : ⌊d.value * 10 ^ places + 1 / 2⌋ =
        ((d.coefficient * 10 ^ (d.exponent + places).toNat : Nat) : Int) := by
      rw [hwhole, Int.floor_eq_iff]
      constructor
      · push_cast
        linarith
      · push_cast
        linarith
    rw [hfloor, eq_div_iff hunit.ne', hwhole, Int.cast_natCast]
  · next hne =>
    have hexponent : d.exponent = -places - extra := by omega
    have hvalue : d.value * 10 ^ places + 1 / 2 =
        ((2 * d.coefficient + 10 ^ extra : Nat) : ℚ) / ((2 * 10 ^ extra : Nat) : ℚ) := by
      rw [value, hexponent, zpow_sub₀ (by norm_num), zpow_neg, zpow_natCast, zpow_natCast]
      push_cast
      field_simp
    rw [hvalue, Rat.floor_natCast_div_natCast, ← Int.natCast_div, Int.cast_natCast, value, zpow_neg,
      zpow_natCast, ← div_eq_mul_inv]
    rfl

/-- Rounding adds half a unit of the last place at most. -/
theorem halfUp_le (places : Nat) (q : ℚ) : halfUp places q ≤ q + 1 / 2 / 10 ^ places := by
  have hunit : (0 : ℚ) < 10 ^ places := by positivity
  have hfloor := Int.floor_le (q * 10 ^ places + 1 / 2)
  rw [halfUp, div_le_iff₀ hunit, add_mul, div_mul_cancel₀ _ hunit.ne']
  exact hfloor

theorem Decimal.value_roundHalfAway_le (d : Decimal) (places : Nat) :
    (d.roundHalfAway places).value ≤ d.value + 1 := by
  have hunit : (1 : ℚ) ≤ 10 ^ places := one_le_pow₀ (by norm_num)
  have hhalf : (1 / 2 / 10 ^ places : ℚ) ≤ 1 / 2 := div_le_self (by norm_num) hunit
  rw [d.value_roundHalfAway]
  linarith [halfUp_le places d.value]

/-- The shortest decimal of a double is at most twice the double. -/
theorem shortest_value_le (tie : Tie) (hm : 0 < m) :
    (shortest tie m e).value ≤ 2 * (m * 2 ^ e) := by
  have hone : (1 : ℚ) ≤ m := by exact_mod_cast hm
  have hunit : (2 : ℚ) ^ e = 2 ^ (e - 2) * 4 := by
    rw [zpow_sub₀ two_ne_zero]
    norm_num
  calc (shortest tie m e).value
    _ ≤ (4 * m + 2 : Nat) * 2 ^ (e - 2) := (holds_shortest hm).upper.le
    _ ≤ (8 * m : Nat) * 2 ^ (e - 2) := by
      refine mul_le_mul_of_nonneg_right ?_ (by positivity)
      exact_mod_cast (by omega : 4 * m + 2 ≤ 8 * m)
    _ = 2 * (m * 2 ^ e) := by
      rw [hunit]
      push_cast
      ring

/-! ## Doubles -/

theorem withSign_isFinite (s : Sign) (hx : x.isFinite = true) : (withSign s x).isFinite = true := by
  cases s with
  | positive => exact hx
  | negative => exact isFinite_neg hx

/-- Below `2 ^ 96` the decimal is far from the greatest double, however often it is rounded. -/
theorem value_roundHalfAway_twice_le (hm : 0 < m) (hlt : (m * 2 ^ e : ℚ) < 2 ^ 96) (places : Nat) :
    (((shortest .up m e).roundHalfAway maxPlaces).roundHalfAway places).value ≤ 2 ^ 98 := by
  calc (((shortest .up m e).roundHalfAway maxPlaces).roundHalfAway places).value
    _ ≤ ((shortest .up m e).roundHalfAway maxPlaces).value + 1 :=
      Decimal.value_roundHalfAway_le ..
    _ ≤ (shortest .up m e).value + 1 + 1 := by
      linarith [Decimal.value_roundHalfAway_le (shortest .up m e) maxPlaces]
    _ ≤ 2 * (m * 2 ^ e) + 1 + 1 := by linarith [shortest_value_le (e := e) .up hm]
    _ ≤ 2 ^ 98 := by linarith

theorem Decimal.toFloat_isFinite {d : Decimal} (h : d.value ≤ 2 ^ 98) : d.toFloat.isFinite = true :=
  (d.rounds.atMost (by decide) h).isFinite

theorem roundDecimal_isFinite (s : Sign) (hm : 0 < m) (hlt : (m * 2 ^ e : ℚ) < 2 ^ 96)
    (places : Nat) : (roundDecimal s m e places).isFinite = true := by
  unfold roundDecimal
  dsimp only
  split
  · decide
  · exact withSign_isFinite s (Decimal.toFloat_isFinite (value_roundHalfAway_twice_le hm hlt places))

theorem roundBinary_isFinite (hx : x.isFinite = true) (places : Nat) :
    (roundBinary x places).isFinite = true := by
  unfold roundBinary
  dsimp only
  split
  · assumption
  · exact hx

theorem roundToTens_isFinite {n : Nat} (h : roundToTens x n = some y) : y.isFinite = true := by
  unfold roundToTens at h
  dsimp only at h
  split at h
  · obtain rfl := Option.some.inj h
    decide
  split at h
  · next hfinite =>
    obtain rfl := Option.some.inj h
    exact hfinite
  · cases h

/-- `2 ^ 96`, from which on numbers are rounded in binary. -/
theorem exact_binaryLimit : exact 79228162514264337593543950336.0 =
    .finite .positive (2 ^ 52) 44 (by decide) := rfl

/-- **A rounded number is finite.** -/
theorem round_isFinite {places : Int} (h : round x places = some y) : y.isFinite = true := by
  unfold round at h
  split at h
  · cases h
  · cases h
  · cases places with
    | ofNat n =>
        obtain rfl := Option.some.inj h
        decide
    | negSucc n => exact roundToTens_isFinite h
  · next s m e hm hexact =>
    cases places with
    | ofNat n =>
        have hx : x.isFinite = true := by
          rw [isFinite_iff, hexact]
          rfl
        -- decimals below the limit, where they cannot reach the overflow, and guarded doubles above it
        dsimp only at h
        split at h
        · next hlt =>
          obtain rfl := Option.some.inj h
          have hbound := magnitude_lt_of_abs_lt hx exact_binaryLimit hlt
          rw [magnitude_of_exact hexact, magnitude_of_exact exact_binaryLimit] at hbound
          refine roundDecimal_isFinite s hm (hbound.trans_eq ?_) _
          norm_num
        · obtain rfl := Option.some.inj h
          exact roundBinary_isFinite hx _
    | negSucc n => exact roundToTens_isFinite h

end FormulaTable.Number
