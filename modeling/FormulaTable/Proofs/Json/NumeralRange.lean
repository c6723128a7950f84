import FormulaTable.Proofs.Json.Numeral
import FormulaTable.Proofs.Number.Line
import Mathlib.Data.Int.Log

/-!
# Numerals within the range of doubles

A numeral is read as a double in rounded steps, which may lead beyond the doubles where the number
that it denotes does not. This cannot happen to the numeral of a finite double: two roundings raise
the number by two units of the last place at most, and where this would be too much, at the five
greatest doubles, the steps are carried out.
-/

namespace FormulaTable

/-! ## Relative errors -/

namespace Number

variable {x : Float} {q : ℚ}

/-- The most that one rounding raises a number by, as a factor. -/
def rounding : ℚ := 1 + 2 ^ (-52 : Int)

theorem one_lt_rounding : 1 < rounding := by
  unfold rounding
  norm_num

theorem Rounds.magnitude_le_mul (h : Rounds x q) (hq : 1 ≤ q) : magnitude x ≤ q * rounding := by
  have hpos : 0 < q := one_pos.trans_le hq
  -- the doubles between the powers of two around `q` are the multiples of `unit`
  obtain ⟨k, hk⟩ : ∃ k, k = Int.log 2 q := ⟨_, rfl⟩
  have hlower : (2 : ℚ) ^ k ≤ q := by
    rw [hk]
    exact_mod_cast Int.zpow_log_le_self (b := 2) one_lt_two hpos
  have hupper : q < 2 ^ (k + 1) := by
    rw [hk]
    exact_mod_cast Int.lt_zpow_succ_log_self (b := 2) one_lt_two q
  have hk0 : 0 ≤ k := by
    by_contra hneg
    have hle : (2 : ℚ) ^ (k + 1) ≤ 2 ^ (0 : Int) := zpow_le_zpow_right₀ one_le_two (by omega)
    rw [zpow_zero] at hle
    linarith
  have hunit : (0 : ℚ) < 2 ^ (k - 52) := by positivity
  have hceil : ⌈q / 2 ^ (k - 52)⌉₊ ≤ 2 ^ 53 := by
    rw [Nat.ceil_le, div_le_iff₀ hunit]
    calc q
      _ ≤ 2 ^ (k + 1) := hupper.le
      _ = ((2 ^ 53 : Nat) : ℚ) * 2 ^ (k - 52) := by
        rw [Nat.cast_pow, Nat.cast_ofNat, ← zpow_natCast, ← zpow_add₀ two_ne_zero]
        congr 1
        omega
  have hbelow : q ≤ ⌈q / 2 ^ (k - 52)⌉₊ * 2 ^ (k - 52) := by
    rw [← div_le_iff₀ hunit]
    exact Nat.le_ceil _
  calc magnitude x
    _ ≤ ⌈q / 2 ^ (k - 52)⌉₊ * 2 ^ (k - 52) := h.le _ _ hceil (by omega) hbelow
    _ ≤ (q / 2 ^ (k - 52) + 1) * 2 ^ (k - 52) :=
      mul_le_mul_of_nonneg_right (Nat.ceil_lt_add_one (by positivity)).le hunit.le
    _ = q + 2 ^ k * 2 ^ (-52 : Int) := by
      rw [add_mul, div_mul_cancel₀ q hunit.ne', one_mul, ← zpow_add₀ two_ne_zero]
      rfl
    _ ≤ q + q * 2 ^ (-52 : Int) := by gcongr
    _ = q * rounding := by rw [rounding, mul_add, mul_one]

/-! ## Digits -/

theorem ofDigitChars_lt {ds : List Char} (hds : AllDigits ds) (n : Nat) :
    Nat.ofDigitChars 10 ds n < (n + 1) * 10 ^ ds.length := by
  induction ds generalizing n with
  | nil => exact Nat.lt_of_lt_of_le (Nat.lt_succ_self n) (Nat.mul_one _).ge
  | cons c ds ih =>
      have hdigit : c.toNat - '0'.toNat < 10 := by
        have hc := hds c List.mem_cons_self
        simp only [Char.isDigit, Bool.and_eq_true, decide_eq_true_iff, ge_iff_le,
          UInt32.le_iff_toNat_le] at hc
        have hlast : c.toNat ≤ '9'.toNat := hc.2
        have hspan : '9'.toNat = '0'.toNat + 9 := rfl
        omega
      rw [Nat.ofDigitChars_cons]
      calc Nat.ofDigitChars 10 ds (10 * n + (c.toNat - '0'.toNat))
        _ < (10 * n + (c.toNat - '0'.toNat) + 1) * 10 ^ ds.length :=
          ih (fun d hd => hds d (List.mem_cons_of_mem c hd)) _
        _ ≤ ((n + 1) * 10) * 10 ^ ds.length := Nat.mul_le_mul_right _ (by omega)
        _ = (n + 1) * 10 ^ (c :: ds).length := by
          rw [List.length_cons, Nat.pow_succ', Nat.mul_assoc]

end Number

namespace Json

namespace Numeral

open Number (ofDigits Decimal AllDigits rounding)
open Float.Model.UnpackedFloat (Sign)

variable {x : Float} {e : Int} {n m : Nat} {ds left : List Char}

/-! ## Digits that fit -/

/-- Digits that are left over do not make the number less. -/
theorem le_of_absorb (h : absorb n ds = (m, left)) :
    left.length ≤ ds.length ∧ m * 10 ^ left.length ≤ Nat.ofDigitChars 10 ds n := by
  induction ds generalizing n with
  | nil =>
      cases h
      exact ⟨le_rfl, (Nat.mul_one m).le⟩
  | cons c ds ih =>
      rw [absorb] at h
      split at h
      · have hrest := ih h
        rw [Nat.ofDigitChars_cons, List.length_cons]
        exact ⟨by omega, hrest.2⟩
      · cases h
        refine ⟨le_rfl, ?_⟩
        rw [Nat.ofDigitChars_eq_ofDigitChars_zero, Nat.mul_comm]
        exact Nat.le_add_right _ _

/-- All digits are taken if the number that they make fits. -/
theorem absorb_of_lt (h : Nat.ofDigitChars 10 ds n < 2 ^ 64) :
    absorb n ds = (Nat.ofDigitChars 10 ds n, []) := by
  induction ds generalizing n with
  | nil => rfl
  | cons c ds ih =>
      rw [Nat.ofDigitChars_cons] at h
      have hle : 10 * n + (c.toNat - '0'.toNat) ≤
          Nat.ofDigitChars 10 ds (10 * n + (c.toNat - '0'.toNat)) := by
        rw [Nat.ofDigitChars_eq_ofDigitChars_zero]
        exact (Nat.le_mul_of_pos_left _ (by positivity)).trans (Nat.le_add_right _ _)
      rw [absorb]
      exact (if_pos (hle.trans_lt h)).trans (ih h)

/-! ## Scaling -/

/-- To scale down leads nowhere beyond the doubles. -/
theorem isSome_scale?_of_neg (x : Float) (he : e < 0) : (scale? x e).isSome = true := by
  obtain ⟨k, hk⟩ : ∃ k, (-e).toNat = k := ⟨_, rfl⟩
  induction k using Nat.strongRecOn generalizing x e with
  | ind k ih =>
      unfold scale?
      split
      · rw [if_neg (by omega)]
        rfl
      · split
        · rfl
        · rw [if_neg (by omega)]
          exact ih (-(e + 308)).toNat (by omega) _ (by omega) rfl

theorem isSome_scale?_of_isFinite (he : 0 ≤ e) (hle : e ≤ 308)
    (h : (x * powerOfTen e.natAbs).isFinite = true) : (scale? x e).isSome = true := by
  unfold scale?
  rw [if_pos (by omega), if_pos he]
  rwa [Option.isSome_filter, Option.any_some]

theorem rounds_powerOfTen (k : Nat) : Number.Rounds (powerOfTen k) (10 ^ k) := by
  have h := Decimal.rounds { coefficient := 1, exponent := k }
  rwa [Decimal.value, Nat.cast_one, one_mul, zpow_natCast] at h

theorem rounds_significand (s : Nat) :
    Number.Rounds ({ coefficient := s, exponent := 0 : Decimal }.toFloat) s := by
  have h := Decimal.rounds { coefficient := s, exponent := 0 }
  rwa [Decimal.value, zpow_zero, mul_one] at h

/-- One rounding raises a natural number by the factor at most. -/
theorem magnitude_significand_le (s : Nat) :
    Number.magnitude { coefficient := s, exponent := 0 : Decimal }.toFloat ≤ s * rounding := by
  rcases Nat.eq_zero_or_pos s with rfl | hs
  · have hle := (rounds_significand 0).le 0 0 (Nat.zero_le _) (by decide) (by simp)
    simpa using hle
  · exact (rounds_significand s).magnitude_le_mul (by exact_mod_cast hs)

/-- The greatest doubles have 309 digits. -/
theorem overflow_bounds : (10 ^ 308 : ℚ) < Number.overflow ∧ Number.overflow < 10 ^ 309 := by
  have hoverflow : Number.overflow = (18014398509481983 * 2 ^ 970 : Nat) := by
    rw [Number.overflow, Nat.cast_mul, Nat.cast_pow, Nat.cast_ofNat, Nat.cast_ofNat, ← zpow_natCast]
    congr 1
    norm_num
  have hlower : 10 ^ 308 < 18014398509481983 * 2 ^ 970 := by decide +kernel
  have hupper : 18014398509481983 * 2 ^ 970 < 10 ^ 309 := by decide +kernel
  rw [hoverflow]
  exact ⟨by exact_mod_cast hlower, by exact_mod_cast hupper⟩

/-- The product of a natural number and a power of ten is read if it stays below the overflow when two
roundings raise it. -/
theorem isSome_scale?_of_lt {s : Nat} (h : s * 10 ^ e * rounding ^ 2 < Number.overflow) :
    (scale? { coefficient := s, exponent := 0 : Decimal }.toFloat e).isSome = true := by
  rcases lt_or_ge e 0 with he | he
  · exact isSome_scale?_of_neg _ he
  obtain ⟨k, rfl⟩ := Int.eq_ofNat_of_zero_le he
  have hrounding : 1 ≤ rounding ^ 2 := one_le_pow₀ Number.one_lt_rounding.le
  rw [zpow_natCast] at h
  have hproduct : (s * 10 ^ k : ℚ) < Number.overflow :=
    (le_mul_of_one_le_right (by positivity) hrounding).trans_lt h
  rcases Nat.lt_or_ge 308 k with hgreat | hsmall
  · rcases Nat.eq_zero_or_pos s with rfl | hs
    · have hzero : ({ coefficient := 0, exponent := 0 : Decimal }.toFloat == 0) = true := by decide
      unfold scale?
      rw [if_neg (by omega), if_pos hzero]
      rfl
    · refine absurd hproduct (not_lt.mpr (overflow_bounds.2.le.trans ?_))
      calc (10 ^ 309 : ℚ)
        _ ≤ 10 ^ k := pow_le_pow_right₀ (by norm_num) hgreat
        _ ≤ s * 10 ^ k := le_mul_of_one_le_left (by positivity) (by exact_mod_cast hs)
  · refine isSome_scale?_of_isFinite he (by exact_mod_cast hsmall) ?_
    have hx : { coefficient := s, exponent := 0 : Decimal }.toFloat.isFinite = true := by
      refine (rounds_significand s).isFinite_iff.mpr (lt_of_le_of_lt ?_ hproduct)
      exact le_mul_of_one_le_right (by positivity) (one_le_pow₀ (by norm_num))
    have hy : (powerOfTen k).isFinite = true := by
      refine (rounds_powerOfTen k).isFinite_iff.mpr (lt_of_le_of_lt ?_ overflow_bounds.1)
      exact pow_le_pow_right₀ (by norm_num) hsmall
    have hone : (1 : ℚ) ≤ 10 ^ k := one_le_pow₀ (by norm_num)
    refine (Number.rounds_mul hx hy).isFinite_iff.mpr (lt_of_le_of_lt ?_ h)
    calc Number.magnitude { coefficient := s, exponent := 0 : Decimal }.toFloat *
          Number.magnitude (powerOfTen k)
      _ ≤ s * rounding * (10 ^ k * rounding) :=
        mul_le_mul (magnitude_significand_le s) ((rounds_powerOfTen k).magnitude_le_mul hone)
          (Number.magnitude_nonneg _)
          (mul_nonneg (Nat.cast_nonneg s) (zero_le_one.trans Number.one_lt_rounding.le))
      _ = s * 10 ^ k * rounding ^ 2 := by ring

/-! ## Reading -/

/-- The number that a numeral denotes, without its sign. -/
def value (n : Numeral) : ℚ :=
  ofDigits (n.whole ++ n.fraction) * 10 ^ (n.exponent.getD 0 - n.fraction.length : Int)

/-- A numeral is read if the digits before the point fit 64 bits and its number stays below the
overflow when two roundings raise it. -/
theorem isSome_toFloat?_of_lt {n : Numeral} (hwhole : ofDigits n.whole < 2 ^ 64)
    (hvalue : n.value * rounding ^ 2 < Number.overflow) : n.toFloat?.isSome = true := by
  obtain ⟨s, unused, habsorb⟩ : ∃ s unused,
      absorb (Nat.ofDigitChars 10 n.whole 0) n.fraction = (s, unused) := ⟨_, _, rfl⟩
  obtain ⟨hlength, hle⟩ := le_of_absorb habsorb
  have hdigits : (s : ℚ) * 10 ^ unused.length ≤ ofDigits (n.whole ++ n.fraction) := by
    rw [Number.ofDigits_eq, Nat.ofDigitChars_append]
    exact_mod_cast hle
  unfold toFloat?
  rw [absorb_of_lt hwhole]
  dsimp only
  rw [habsorb]
  dsimp only
  rw [Option.isSome_map]
  refine isSome_scale?_of_lt (lt_of_le_of_lt ?_ hvalue)
  refine mul_le_mul_of_nonneg_right ?_ (sq_nonneg _)
  have hexponent : n.exponent.getD 0 + ([] : List Char).length -
      ((n.fraction.length - unused.length : Nat) : Int) =
      unused.length + (n.exponent.getD 0 - n.fraction.length) := by
    rw [Nat.cast_sub hlength, List.length_nil]
    omega
  rw [hexponent, zpow_add₀ (by norm_num), zpow_natCast, ← mul_assoc]
  exact mul_le_mul_of_nonneg_right hdigits (by positivity)

/-! ## Writing -/

theorem value_ofDecimal (sign : Sign) (d : Decimal) : (ofDecimal sign d).value = d.value := by
  have hten : (10 : ℚ) ≠ 0 := by norm_num
  have hpositional : (ofDigits (d.wholePart ++ d.fractionPart) : ℚ) *
      10 ^ (0 - d.fractionPart.length : Int) = d.value := by
    rw [Decimal.ofDigits_parts, Decimal.length_fractionPart, ← d.value_reread]
    rfl
  unfold ofDecimal
  dsimp only
  split
  · unfold value
    dsimp only
    split
    · next hempty =>
      rw [List.isEmpty_iff.mp hempty, List.append_nil] at hpositional
      have hzero : ofDigits (d.wholePart ++ ['0']) = 10 * ofDigits d.wholePart :=
        Number.ofDigits_append_zeros d.wholePart 1
      rw [← hpositional, hzero]
      show ((10 * ofDigits d.wholePart : Nat) : ℚ) * 10 ^ (-1 : Int) =
        ofDigits d.wholePart * 10 ^ (0 : Int)
      push_cast
      ring
    · exact hpositional
  · have hlength : 0 < d.digits.length := List.length_pos_iff.mpr Nat.toDigits_ne_nil
    have hexponent : (d.digits.length - 1 + d.exponent : Int) - (d.digits.drop 1).length =
        d.exponent := by
      rw [List.length_drop]
      omega
    unfold value
    dsimp only
    rw [List.take_append_drop, Option.getD_some, hexponent, Decimal.digits, Number.ofDigits_toDigits]
    rfl

/-- The digits before the point fit 64 bits. -/
theorem ofDigits_whole_lt (sign : Sign) (d : Decimal) : ofDigits (ofDecimal sign d).whole < 2 ^ 64 := by
  have hshort {ds : List Char} (hds : AllDigits ds) (hlength : ds.length ≤ 16) :
      ofDigits ds < 2 ^ 64 := by
    calc ofDigits ds
      _ < (0 + 1) * 10 ^ ds.length := Number.ofDigitChars_lt hds 0
      _ ≤ (0 + 1) * 10 ^ 16 := Nat.mul_le_mul_left _ (Nat.pow_le_pow_right (by decide) hlength)
      _ < 2 ^ 64 := by decide
  unfold ofDecimal
  dsimp only
  split
  · next hrange =>
    refine hshort d.allDigits_wholePart ?_
    unfold Decimal.wholePart Decimal.places
    split
    · rw [List.length_append, List.length_replicate]
      omega
    split
    · rw [List.length_take]
      omega
    · show 1 ≤ 16
      decide
  · refine hshort (fun c hc => Number.allDigits_toDigits _ c (List.mem_of_mem_take hc)) ?_
    rw [List.length_take]
    omega

theorem isSome_toFloat?_ofDecimal {d : Decimal} (sign : Sign)
    (h : d.value * rounding ^ 2 < Number.overflow) : (ofDecimal sign d).toFloat?.isSome = true :=
  isSome_toFloat?_of_lt (ofDigits_whole_lt sign d) (by rwa [value_ofDecimal])

/-- The decimals of all doubles but the five greatest lie below the end of the sixth one. -/
theorem shortest_value_le {e : Int} (hm : 0 < m)
    (h : m < 2 ^ 53 ∧ e ≤ 970 ∨ m ≤ 2 ^ 53 - 6 ∧ e ≤ 971) :
    (Number.shortest .even m e).value ≤ (2 ^ 53 - 11 / 2) * 2 ^ (971 : Int) := by
  have hend : ((4 * m + 2 : Nat) : ℚ) * 2 ^ (e - 2) = (m + 1 / 2) * 2 ^ e := by
    rw [zpow_sub₀ two_ne_zero]
    push_cast
    ring
  have hunit : (0 : ℚ) < 2 ^ e := by positivity
  refine (Number.holds_shortest hm).upper.le.trans ?_
  show ((4 * m + 2 : Nat) : ℚ) * 2 ^ (e - 2) ≤ _
  rw [hend]
  rcases h with ⟨hlt, he⟩ | ⟨hle, he⟩
  · have hlt : (m : ℚ) + 1 ≤ 2 ^ 53 := by exact_mod_cast hlt
    calc (m + 1 / 2 : ℚ) * 2 ^ e
      _ ≤ 2 ^ 53 * 2 ^ (970 : Int) :=
        mul_le_mul (by linarith) (zpow_le_zpow_right₀ one_le_two he) hunit.le (by norm_num)
      _ = 2 ^ 52 * 2 ^ (971 : Int) := by
        rw [show (971 : Int) = 1 + 970 from rfl, zpow_one_add₀ two_ne_zero]
        ring
      _ ≤ (2 ^ 53 - 11 / 2) * 2 ^ (971 : Int) :=
        mul_le_mul_of_nonneg_right (by norm_num) (by positivity)
  · have hle : (m : ℚ) + 6 ≤ 2 ^ 53 := by
      have hle : m + 6 ≤ 2 ^ 53 := by omega
      exact_mod_cast hle
    exact mul_le_mul (by linarith) (zpow_le_zpow_right₀ one_le_two he) hunit.le (by norm_num)

/-- Two roundings do not lead from there to the overflow. -/
theorem mul_rounding_lt {q : ℚ} (h : q ≤ (2 ^ 53 - 11 / 2) * 2 ^ (971 : Int)) :
    q * rounding ^ 2 < Number.overflow := by
  have hraised : 2 * ((2 ^ 53 - 11 / 2) * rounding ^ 2) < 2 ^ 54 - 1 := by
    unfold rounding
    norm_num
  calc q * rounding ^ 2
    _ ≤ (2 ^ 53 - 11 / 2) * 2 ^ (971 : Int) * rounding ^ 2 :=
      mul_le_mul_of_nonneg_right h (sq_nonneg _)
    _ = (2 ^ 53 - 11 / 2) * rounding ^ 2 * 2 ^ (971 : Int) := by ring
    _ < Number.overflow := Number.lt_overflow_iff.mpr hraised

/-- The steps are carried out for the five greatest doubles. -/
theorem isSome_toFloat?_greatest (sign : Sign) : ∀ k : Fin 5,
    (ofDecimal sign (Number.shortest .even (2 ^ 53 - 1 - k) 971)).toFloat?.isSome = true := by
  cases sign with
  | positive => decide +kernel
  | negative => decide +kernel

/-- **The numeral of a finite double is read as a double.** -/
theorem isSome_toFloat?_ofFloat? (hx : x.isFinite = true) :
    ((ofFloat? x).bind toFloat?).isSome = true := by
  unfold ofFloat?
  rcases Number.zero_or_finite hx with ⟨s, hs⟩ | ⟨s, m, e, hm, hs⟩
  · rw [hs]
    refine isSome_toFloat?_ofDecimal s (mul_rounding_lt ?_)
    rw [Decimal.value, Nat.cast_zero, zero_mul]
    exact mul_nonneg (by norm_num) (by positivity)
  · rw [hs]
    have hlt := (Number.canonical_of_exact hs).lt
    have he := Number.exponent_le hs
    by_cases hgreatest : e = 971 ∧ 2 ^ 53 - 6 < m
    · obtain ⟨rfl, hm⟩ := hgreatest
      obtain ⟨k, hk, rfl⟩ : ∃ k < 5, m = 2 ^ 53 - 1 - k := ⟨2 ^ 53 - 1 - m, by omega, by omega⟩
      exact isSome_toFloat?_greatest s ⟨k, hk⟩
    · exact isSome_toFloat?_ofDecimal s (mul_rounding_lt (shortest_value_le hm (by omega)))

end Numeral

/-- **What a double is written as is read as a double just if it is finite.** -/
theorem isSome_toFloat?_ofFloat_iff {x : Float} :
    (ofFloat x).toFloat?.isSome = true ↔ x.isFinite = true := by
  unfold ofFloat
  constructor
  · intro h
    rw [Number.isFinite_iff]
    unfold Numeral.ofFloat? at h
    split at h
    · cases h
    · cases h
    · next hx => rw [hx]; rfl
    · next hx => rw [hx]; rfl
  · intro hx
    have hread := Numeral.isSome_toFloat?_ofFloat? hx
    cases hnumeral : Numeral.ofFloat? x with
    | none =>
        rw [hnumeral] at hread
        cases hread
    | some n =>
        rw [hnumeral] at hread
        exact hread

end Json

end FormulaTable
