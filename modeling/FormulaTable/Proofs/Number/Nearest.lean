import FormulaTable.Proofs.Number.Double

/-!
# Rounding to a double

A mantissa with two residual bits tells where a number lies between two whole numbers, as far as
rounding needs it. From that a number is rounded to the nearest double: rounding is monotone, it keeps
what is a double already, and it runs into infinity from the middle between the greatest double and
the next power of two on.
-/

namespace FormulaTable.Number

open Float.Model (UnpackedFloat Format totalExponent)
open Float.Model.UnpackedFloat

/-! ## Residual bits -/

/-- The mantissa is the whole part of `q`, the round bit tells if `q` is half a unit above it or more,
and the sticky bit if anything is left. -/
def Represents (em : ExtendedMantissa) (q : ℚ) : Prop :=
  ∃ rest : ℚ, 0 ≤ rest ∧ rest < 1 ∧ 2 * q = 2 * em.mantissa + em.roundBit.toNat + rest ∧
    (em.stickyBit = true ↔ rest ≠ 0)

namespace Represents

variable {em : ExtendedMantissa} {q : ℚ}

theorem exact (m : Nat) : Represents (.ofMantissaAndAccuracy m .exact) m := by
  refine ⟨0, le_rfl, zero_lt_one, ?_, ?_⟩
  · simp [ExtendedMantissa.ofMantissaAndAccuracy]
  · simp [ExtendedMantissa.ofMantissaAndAccuracy]

/-- The fraction of a quotient. -/
theorem fraction (m : Nat) {a b : Nat} (h : a < b) :
    Represents (.ofMantissaAndAccuracy m (accuracyOfFraction a b)) (m + a / b) := by
  have hb : (0 : ℚ) < b := Nat.cast_pos.mpr (Nat.zero_lt_of_lt h)
  have hlt : (a : ℚ) < b := Nat.cast_lt.mpr h
  unfold accuracyOfFraction
  by_cases ha : a = 0
  · rw [if_pos ha, ha, Nat.cast_zero, zero_div, add_zero]
    exact exact m
  rw [if_neg ha]
  have hpos : (0 : ℚ) < a := Nat.cast_pos.mpr (Nat.pos_of_ne_zero ha)
  -- the round bit is the first binary digit of `a / b`
  cases hcompare : compare (2 * a) b with
  | lt =>
      have hhalf : 2 * (a : ℚ) < b := by exact_mod_cast Nat.compare_eq_lt.mp hcompare
      refine ⟨2 * a / b, by positivity, (div_lt_one hb).mpr hhalf, ?_, ?_⟩
      · show 2 * ((m : ℚ) + a / b) = 2 * m + (0 : Nat) + 2 * a / b
        push_cast
        ring
      · exact iff_of_true rfl (by positivity)
  | eq =>
      have hhalf : 2 * (a : ℚ) = b := by exact_mod_cast Nat.compare_eq_eq.mp hcompare
      refine ⟨0, le_rfl, zero_lt_one, ?_, ?_⟩
      · show 2 * ((m : ℚ) + a / b) = 2 * m + (1 : Nat) + 0
        rw [mul_add, ← mul_div_assoc, hhalf, div_self hb.ne', Nat.cast_one, add_zero]
      · exact iff_of_false Bool.false_ne_true (not_not.mpr rfl)
  | gt =>
      have hhalf : (b : ℚ) < 2 * a := by exact_mod_cast Nat.compare_eq_gt.mp hcompare
      have hone : 1 < 2 * (a : ℚ) / b := (one_lt_div hb).mpr hhalf
      have htwo : 2 * (a : ℚ) / b < 2 := (div_lt_iff₀ hb).mpr (by linarith)
      refine ⟨2 * a / b - 1, by linarith, by linarith, ?_, ?_⟩
      · show 2 * ((m : ℚ) + a / b) = 2 * m + (1 : Nat) + (2 * a / b - 1)
        push_cast
        ring
      · exact iff_of_true rfl (by linarith)

/-- Dropping the last bit of the mantissa halves the number. -/
theorem shiftRightOne (h : Represents em q) : Represents em.shiftRightOne (q / 2) := by
  obtain ⟨rest, hnonneg, hlt, hq, hsticky⟩ := h
  have hmantissa : (em.mantissa : ℚ) = 2 * (em.mantissa / 2 : Nat) + (em.mantissa % 2 : Nat) := by
    exact_mod_cast (Nat.div_add_mod em.mantissa 2).symm
  have hbit : (em.mantissa % 2 != 0).toNat = em.mantissa % 2 := by
    rcases Nat.mod_two_eq_zero_or_one em.mantissa with h | h <;> rw [h] <;> rfl
  have hround : (em.roundBit.toNat : ℚ) ≤ 1 := by exact_mod_cast em.roundBit.toNat_le
  refine ⟨(em.roundBit.toNat + rest) / 2, by positivity, by linarith, ?_, ?_⟩
  · show 2 * (q / 2) = 2 * ((em.mantissa / 2 : Nat) : ℚ) + ((em.mantissa % 2 != 0).toNat : ℚ) + _
    rw [hbit]
    linarith
  · show (em.roundBit || em.stickyBit) = true ↔ _
    rw [Bool.or_eq_true, hsticky]
    cases em.roundBit with
    | false => simp
    | true =>
        refine iff_of_true (.inl rfl) ?_
        have hpos : (0 : ℚ) < (true.toNat + rest) / 2 := by
          simp only [Bool.toNat_true, Nat.cast_one]
          linarith
        exact hpos.ne'

theorem shiftRight (h : Represents em q) (n : Nat) : Represents (em >>> n) (q / 2 ^ n) := by
  change Represents (n.repeat ExtendedMantissa.shiftRightOne em) _
  induction n with
  | zero => simpa [Nat.repeat] using h
  | succ n ih =>
      rw [Nat.repeat, pow_succ, div_mul_eq_div_div]
      exact ih.shiftRightOne

theorem mantissa_le (h : Represents em q) : em.mantissa ≤ q := by
  obtain ⟨rest, hnonneg, -, hq, -⟩ := h
  have hround : (0 : ℚ) ≤ em.roundBit.toNat := Nat.cast_nonneg _
  linarith

theorem lt_mantissa (h : Represents em q) : q < em.mantissa + 1 := by
  obtain ⟨rest, -, hlt, hq, -⟩ := h
  have hround : (em.roundBit.toNat : ℚ) ≤ 1 := by exact_mod_cast em.roundBit.toNat_le
  linarith

/-! ## Rounding to a whole number -/

/-- The mantissa is rounded up from the middle on, and from the middle itself to the even side. -/
theorem roundedMantissa_eq (em : ExtendedMantissa) : em.roundedMantissa =
    em.mantissa + if em.roundBit = true ∧ (em.stickyBit = true ∨ em.mantissa % 2 = 1) then 1 else 0 := by
  obtain ⟨m, roundBit, stickyBit⟩ := em
  cases roundBit with
  | false => cases stickyBit <;> rfl
  | true =>
      cases stickyBit with
      | true => rfl
      | false =>
          show m + m % 2 = m + _
          rcases Nat.mod_two_eq_zero_or_one m with h | h <;> simp [h]

/-- Rounding is monotone over a whole number above ... -/
theorem roundedMantissa_le (h : Represents em q) {n : Nat} (hn : q ≤ n) : em.roundedMantissa ≤ n := by
  have hmantissa : em.mantissa ≤ n := by exact_mod_cast h.mantissa_le.trans hn
  rw [roundedMantissa_eq]
  split
  · rename_i hup
    -- half a unit above the mantissa there is no place for `n` at the mantissa
    obtain ⟨rest, hnonneg, -, hq, -⟩ := h
    rw [hup.1] at hq
    have hlt : (em.mantissa : ℚ) < n := by
      simp only [Bool.toNat_true, Nat.cast_one] at hq
      linarith
    exact_mod_cast hlt
  · exact hmantissa

/-- ... and over a whole number below. -/
theorem le_roundedMantissa (h : Represents em q) {n : Nat} (hn : n ≤ q) : n ≤ em.roundedMantissa := by
  have hmantissa : n < em.mantissa + 1 := by exact_mod_cast hn.trans_lt h.lt_mantissa
  rw [roundedMantissa_eq]
  omega

/-- The number is rounded by half a unit at most, and by half a unit to an even number only. -/
theorem abs_roundedMantissa_sub_le (h : Represents em q) :
    |em.roundedMantissa - q| ≤ 1 / 2 ∧
      (|em.roundedMantissa - q| = 1 / 2 → em.roundedMantissa % 2 = 0) := by
  obtain ⟨rest, hnonneg, hlt, hq, hsticky⟩ := h
  rw [roundedMantissa_eq]
  cases hround : em.roundBit with
  | false =>
      rw [hround, Bool.toNat_false, Nat.cast_zero, add_zero] at hq
      have hdistance : |(em.mantissa : ℚ) - q| = rest / 2 := by
        rw [abs_sub_comm, abs_of_nonneg (by linarith)]
        linarith
      rw [if_neg (by simp), add_zero, hdistance]
      exact ⟨by linarith, fun h => absurd h (by linarith)⟩
  | true =>
      rw [hround, Bool.toNat_true, Nat.cast_one] at hq
      cases hrest : em.stickyBit with
      | true =>
          have hpos : 0 < rest := lt_of_le_of_ne hnonneg (Ne.symm (hsticky.mp hrest))
          have hdistance : |(em.mantissa + 1 : ℚ) - q| = 1 / 2 - rest / 2 := by
            rw [abs_of_nonneg (by linarith)]
            linarith
          rw [if_pos ⟨rfl, .inl rfl⟩, Nat.cast_add, Nat.cast_one, hdistance]
          exact ⟨by linarith, fun h => absurd h (by linarith)⟩
      | false =>
          have hzero : rest = 0 := by
            by_contra hne
            rw [hsticky.mpr hne] at hrest
            cases hrest
          -- the middle between two whole numbers
          rcases Nat.mod_two_eq_zero_or_one em.mantissa with heven | hodd
          · rw [if_neg (by simp [heven]), add_zero, abs_sub_comm, abs_of_nonneg (by linarith)]
            exact ⟨by linarith, fun _ => heven⟩
          · rw [if_pos ⟨rfl, .inr hodd⟩, Nat.cast_add, Nat.cast_one, abs_of_nonneg (by linarith)]
            exact ⟨by linarith, fun _ => by omega⟩

/-- No whole number is nearer, and only an even number is rounded to where another one is as near. -/
theorem roundedMantissa_near (h : Represents em q) (k : Nat) :
    |em.roundedMantissa - q| ≤ |k - q| ∧
      (|k - q| = |em.roundedMantissa - q| → k = em.roundedMantissa ∨ em.roundedMantissa % 2 = 0) := by
  obtain ⟨hle, heven⟩ := h.abs_roundedMantissa_sub_le
  by_cases hk : k = em.roundedMantissa
  · rw [hk]
    exact ⟨le_rfl, fun _ => .inl rfl⟩
  have hone : 1 ≤ |(k : ℚ) - em.roundedMantissa| := by
    have hdistance : 1 ≤ |(k : Int) - em.roundedMantissa| := Int.one_le_abs (by omega)
    exact_mod_cast hdistance
  have htriangle := abs_sub_le (k : ℚ) q em.roundedMantissa
  rw [abs_sub_comm q] at htriangle
  exact ⟨by linarith, fun h => .inr (heven (by linarith))⟩

/-- Below an even number the mantissa is rounded up to it from the middle on. -/
theorem roundedMantissa_eq_iff (h : Represents em q) {n : Nat} (hlt : em.mantissa < 2 * n) :
    em.roundedMantissa = 2 * n ↔ 4 * n - 1 ≤ 2 * q := by
  have hq := h.lt_mantissa
  rw [roundedMantissa_eq]
  rcases Nat.lt_or_eq_of_le (Nat.succ_le_of_lt hlt) with hfar | hnext
  · have hfar : (em.mantissa + 2 : ℚ) ≤ 2 * n := by exact_mod_cast hfar
    refine iff_of_false ?_ (by linarith)
    split <;> omega
  · have hnext' : (em.mantissa + 1 : ℚ) = 2 * n := by exact_mod_cast hnext
    obtain ⟨rest, hnonneg, hrest, hq, -⟩ := h
    have hodd : em.mantissa % 2 = 1 := by omega
    cases hround : em.roundBit with
    | false =>
        rw [hround] at hq
        simp only [Bool.toNat_false, Nat.cast_zero, add_zero] at hq
        refine iff_of_false ?_ (by linarith)
        simp only [Bool.false_eq_true, false_and, if_false]
        omega
    | true =>
        rw [hround] at hq
        simp only [Bool.toNat_true, Nat.cast_one] at hq
        refine iff_of_true ?_ (by linarith)
        rw [if_pos ⟨rfl, .inr hodd⟩]
        omega

end Represents

/-! ## Rounding to a double -/

/-- The numbers from here on are rounded to infinity: the middle between the greatest double and the
power of two that would come next. -/
def overflow : ℚ := (2 ^ 54 - 1) * 2 ^ (970 : Int)

/-- The number `q` is rounded to `m · 2 ^ e`, which is in canonical form or zero. None of the numbers
`n · 2 ^ f` that are doubles is nearer, and where another one is as near the mantissa is even. The
exponent tells if it is too great. -/
structure Rounded (q : ℚ) (m : Nat) (e : Int) : Prop where
  lt : m < 2 ^ 53
  least : -1074 ≤ e
  full : -1074 < e → 2 ^ 52 ≤ m
  near : ∀ (n : Nat) (f : Int), n ≤ 2 ^ 53 → -1074 ≤ f → |m * 2 ^ e - q| ≤ |n * 2 ^ f - q|
  even : ∀ (n : Nat) (f : Int), n ≤ 2 ^ 53 → -1074 ≤ f → |n * 2 ^ f - q| = |m * 2 ^ e - q| →
    (n * 2 ^ f : ℚ) = m * 2 ^ e ∨ m % 2 = 0
  inRange : e ≤ 971 ↔ q < overflow

/-- What is nearest to a number lies on the same side as the number of everything else ... -/
theorem le_of_near {y z q : ℚ} (h : |y - q| ≤ |z - q|) (hq : q ≤ z) : y ≤ z := by
  have hle := (le_abs_self (y - q)).trans h
  rw [abs_of_nonneg (by linarith)] at hle
  linarith

/-- ... and below it. -/
theorem ge_of_near {y z q : ℚ} (h : |y - q| ≤ |z - q|) (hq : z ≤ q) : z ≤ y := by
  have hle := (neg_le_abs (y - q)).trans h
  rw [abs_of_nonpos (by linarith)] at hle
  linarith

namespace Rounded

variable {q : ℚ} {m : Nat} {e : Int}

/-- The numbers `n · 2 ^ f` that are doubles stay on their side of it. -/
theorem le (h : Rounded q m e) (n : Nat) (f : Int) (hn : n ≤ 2 ^ 53) (hf : -1074 ≤ f)
    (hq : q ≤ n * 2 ^ f) : m * 2 ^ e ≤ (n * 2 ^ f : ℚ) :=
  le_of_near (h.near n f hn hf) hq

theorem ge (h : Rounded q m e) (n : Nat) (f : Int) (hn : n ≤ 2 ^ 53) (hf : -1074 ≤ f)
    (hq : n * 2 ^ f ≤ q) : (n * 2 ^ f : ℚ) ≤ m * 2 ^ e :=
  ge_of_near (h.near n f hn hf) hq

end Rounded

section Units

variable {em : ExtendedMantissa} {q : ℚ} {t : Int} {n : Nat} {f : Int}

/-- In units that `n · 2 ^ f` is a multiple of it is a whole number. -/
theorem zpow_split (h : t ≤ f) : (n * 2 ^ f : ℚ) = (n * 2 ^ (f - t).toNat : Nat) * 2 ^ t := by
  have hexponent : f = (f - t).toNat + t := by omega
  rw [Nat.cast_mul, Nat.cast_pow, Nat.cast_ofNat, mul_assoc, ← zpow_natCast, ← zpow_add₀ two_ne_zero,
    ← hexponent]

/-- In greater units a double is at most half of the mantissas. -/
theorem zpow_le_half (hn : n ≤ 2 ^ 53) (h : f < t) : (n * 2 ^ f : ℚ) ≤ 2 ^ 52 * 2 ^ t := by
  have hexponent : t = 1 + (t - 1) := by omega
  calc (n * 2 ^ f : ℚ)
    _ ≤ 2 ^ 53 * 2 ^ (t - 1) := by
      refine mul_le_mul (by exact_mod_cast hn) ?_ (by positivity) (by positivity)
      exact zpow_le_zpow_right₀ one_le_two (by omega)
    _ = 2 ^ 52 * 2 ^ t := by
      rw [hexponent, zpow_one_add₀ two_ne_zero, add_sub_cancel_left]
      ring

/-- In the right units there is a whole number as near as any double, and where it is not the double
itself it is nearer. -/
theorem exists_whole_near (hfull : -1074 < t → 2 ^ 52 ≤ q) (hn : n ≤ 2 ^ 53) (hf : -1074 ≤ f) :
    ∃ k : Nat, |k * 2 ^ t - q * 2 ^ t| ≤ |n * 2 ^ f - q * 2 ^ t| ∧
      (|n * 2 ^ f - q * 2 ^ t| = |k * 2 ^ t - q * 2 ^ t| → (n * 2 ^ f : ℚ) = k * 2 ^ t) := by
  rcases le_or_gt t f with hle | hlt
  · refine ⟨n * 2 ^ (f - t).toNat, ?_⟩
    rw [← zpow_split hle]
    exact ⟨le_rfl, fun _ => rfl⟩
  · -- the least mantissa of these units lies between the double and the number
    have hhalf := zpow_le_half (t := t) hn hlt
    have hleast : 2 ^ 52 * 2 ^ t ≤ q * 2 ^ t :=
      mul_le_mul_of_nonneg_right (hfull (by omega)) (by positivity)
    refine ⟨2 ^ 52, ?_⟩
    push_cast
    rw [abs_of_nonpos (by linarith), abs_of_nonpos (by linarith)]
    exact ⟨by linarith, fun h => by linarith⟩

/-- What is rounded in the right units is nearest among all doubles. -/
theorem Represents.near (h : Represents em q) (hfull : -1074 < t → 2 ^ 52 ≤ q) (hn : n ≤ 2 ^ 53)
    (hf : -1074 ≤ f) :
    |em.roundedMantissa * 2 ^ t - q * 2 ^ t| ≤ |n * 2 ^ f - q * 2 ^ t| ∧
      (|n * 2 ^ f - q * 2 ^ t| = |em.roundedMantissa * 2 ^ t - q * 2 ^ t| →
        (n * 2 ^ f : ℚ) = em.roundedMantissa * 2 ^ t ∨ em.roundedMantissa % 2 = 0) := by
  have hunit : (0 : ℚ) < 2 ^ t := by positivity
  obtain ⟨k, hk, hsame⟩ := exists_whole_near hfull hn hf
  obtain ⟨hle, heven⟩ := h.roundedMantissa_near k
  have hscaled (p : ℚ) : |p * 2 ^ t - q * 2 ^ t| = |p - q| * 2 ^ t := by
    rw [← sub_mul, abs_mul, abs_of_pos hunit]
  rw [hscaled] at hk hsame ⊢
  have hmost : |em.roundedMantissa - q| * 2 ^ t ≤ |k - q| * 2 ^ t :=
    mul_le_mul_of_nonneg_right hle hunit.le
  refine ⟨hmost.trans hk, fun heq => ?_⟩
  -- then the whole number is as near as the double
  have hdistance : |k - q| * 2 ^ t = |em.roundedMantissa - q| * 2 ^ t :=
    le_antisymm (hk.trans heq.le) hmost
  refine (heven (mul_right_cancel₀ hunit.ne' hdistance)).imp_left fun hround => ?_
  rw [hsame (heq.trans hdistance.symm), hround]

theorem lt_overflow (hq : q < 2 ^ 53) (ht : t ≤ 970) : q * 2 ^ t < overflow := by
  have hunit : (2 : ℚ) ^ t ≤ 2 ^ (970 : Int) := zpow_le_zpow_right₀ one_le_two ht
  calc q * 2 ^ t
    _ < 2 ^ 53 * 2 ^ t := mul_lt_mul_of_pos_right hq (by positivity)
    _ ≤ 2 ^ 53 * 2 ^ (970 : Int) := mul_le_mul_of_nonneg_left hunit (by positivity)
    _ < overflow := mul_lt_mul_of_pos_right (by norm_num) (by positivity)

theorem lt_overflow_iff : q * 2 ^ (971 : Int) < overflow ↔ 2 * q < 2 ^ 54 - 1 := by
  have hunit : q * 2 ^ (971 : Int) = 2 * q * 2 ^ (970 : Int) := by
    rw [show (971 : Int) = 1 + 970 from rfl, zpow_one_add₀ two_ne_zero]
    ring
  rw [hunit, overflow]
  exact mul_lt_mul_iff_left₀ (by positivity)

theorem overflow_le (hq : 2 ^ 52 ≤ q) (ht : 972 ≤ t) : overflow ≤ q * 2 ^ t := by
  have hunit : (2 : ℚ) ^ (972 : Int) ≤ 2 ^ t := zpow_le_zpow_right₀ one_le_two ht
  calc overflow
    _ ≤ 2 ^ 54 * 2 ^ (970 : Int) := mul_le_mul_of_nonneg_right (by norm_num) (by positivity)
    _ = 2 ^ 52 * 2 ^ (972 : Int) := by
      rw [show (972 : Int) = 970 + 1 + 1 from rfl, zpow_add_one₀ two_ne_zero,
        zpow_add_one₀ two_ne_zero]
      ring
    _ ≤ q * 2 ^ t := mul_le_mul hq hunit (by positivity) (by linarith)

/-- A mantissa that is rounded to at most 53 bits makes a double. -/
theorem Represents.rounded (h : Represents em q) (ht : -1074 ≤ t) (hlt : q < 2 ^ 53)
    (hfull : -1074 < t → 2 ^ 52 ≤ q) (hfits : em.roundedMantissa < 2 ^ 53) :
    Rounded (q * 2 ^ t) em.roundedMantissa t := by
  refine ⟨hfits, ht, ?_, ?_, ?_, ?_⟩
  · intro hnormal
    exact h.le_roundedMantissa (by exact_mod_cast hfull hnormal)
  · exact fun n f hn hf => (h.near hfull hn hf).1
  · exact fun n f hn hf => (h.near hfull hn hf).2
  · rcases Int.lt_trichotomy t 971 with hsmall | rfl | hgreat
    · exact iff_of_true hsmall.le (lt_overflow hlt (by omega))
    · -- with the greatest exponent there is an overflow only where the mantissa is rounded up to it
      have hmantissa : em.mantissa < 2 * 2 ^ 52 := by
        exact_mod_cast h.mantissa_le.trans_lt hlt
      have hround := h.roundedMantissa_eq_iff hmantissa
      refine iff_of_true le_rfl (lt_overflow_iff.mpr ?_)
      by_contra hover
      have heq := hround.mpr (by push_cast; linarith)
      omega
    · refine iff_of_false (by omega) (not_lt.mpr (overflow_le ?_ hgreat))
      exact hfull (by omega)

/-- A mantissa that is rounded to 54 bits makes the double of the next exponent with the least
mantissa. -/
theorem Represents.rounded_up (h : Represents em q) (ht : -1074 ≤ t) (hlt : q < 2 ^ 53)
    (hfull : -1074 < t → 2 ^ 52 ≤ q) (hup : em.roundedMantissa = 2 ^ 53) :
    Rounded (q * 2 ^ t) (2 ^ 52) (t + 1) := by
  have hvalue : ((2 ^ 52 : Nat) * 2 ^ (t + 1) : ℚ) = em.roundedMantissa * 2 ^ t := by
    rw [hup, zpow_add_one₀ two_ne_zero]
    push_cast
    ring
  have hmantissa : em.mantissa < 2 * 2 ^ 52 := by exact_mod_cast h.mantissa_le.trans_lt hlt
  have hmiddle : 4 * (2 ^ 52 : Nat) - 1 ≤ 2 * q := (h.roundedMantissa_eq_iff hmantissa).mp hup
  refine ⟨by norm_num, by omega, fun _ => le_rfl, ?_, fun _ _ _ _ _ => .inr rfl, ?_⟩
  · intro n f hn hf
    rw [hvalue]
    exact (h.near hfull hn hf).1
  · rcases Int.lt_trichotomy t 971 with hsmall | rfl | hgreat
    · exact iff_of_true (by omega) (lt_overflow hlt (by omega))
    · refine iff_of_false (by omega) ?_
      rw [lt_overflow_iff]
      push_cast at hmiddle
      linarith
    · refine iff_of_false (by omega) (not_lt.mpr (overflow_le ?_ hgreat))
      exact hfull (by omega)

end Units

/-! ## The rounding of the library -/

/-- A number with this sign and magnitude. -/
def signed (s : Sign) (m : Nat) (e : Int) : UnpackedFloat :=
  if h : m = 0 then .zero s else .finite s m e (Nat.pos_of_ne_zero h)

section Shifts

variable {m : Nat} {e : Int}

/-- The exponent a number is brought to. -/
theorem targetExponent_eq (m : Nat) (e : Int) :
    Format.binary64.targetExponent (totalExponent m e) = max (m.log2 + e - 52) (-1074) := by
  show max ((m.log2 : Int) + 1 + e - (53 : Nat)) (3 - 2 ^ 10 - (53 : Nat)) = _
  omega

theorem shiftToTargetExponent_eq (m : Nat) (e : Int) (accuracy : Accuracy) :
    shiftToTargetExponent .binary64 m e accuracy =
      (ExtendedMantissa.ofMantissaAndAccuracy m accuracy >>>
        (max (m.log2 + e - 52) (-1074) - e).toNat,
        e + (max (m.log2 + e - 52) (-1074) - e).toNat) := by
  unfold shiftToTargetExponent shiftToExponent
  rw [targetExponent_eq]

/-- A double is brought to its own exponent. -/
theorem shiftToTargetExponent_of_lt (hm : m < 2 ^ 53) (he : -1074 ≤ e) :
    shiftToTargetExponent .binary64 m e .exact = (⟨m, false, false⟩, e) := by
  have hlog : m.log2 < 53 := by
    rcases Nat.eq_zero_or_pos m with rfl | hpos
    · decide
    · exact (Nat.log2_lt hpos.ne').mpr hm
  have hshift : (max (m.log2 + e - 52) (-1074) - e).toNat = 0 := by omega
  rw [shiftToTargetExponent_eq, hshift, Nat.cast_zero, add_zero]
  rfl

/-- A mantissa of 54 bits is brought to the next exponent. -/
theorem shiftToTargetExponent_two_pow (he : -1074 ≤ e) :
    shiftToTargetExponent .binary64 (2 ^ 53) e .exact = (⟨2 ^ 52, false, false⟩, e + 1) := by
  have hshift : (max (((2 ^ 53 : Nat).log2 : Int) + e - 52) (-1074) - e).toNat = 1 := by
    rw [Nat.log2_two_pow]
    omega
  rw [shiftToTargetExponent_eq, hshift]
  rfl

/-- **Rounding.** A number with enough bits, or with an exponent as low as any, is rounded to the
nearest double. -/
theorem roundWithAccuracy_eq (s : Sign) {q : ℚ} {accuracy : Accuracy}
    (h : Represents (.ofMantissaAndAccuracy m accuracy) q) (hbits : 52 ≤ m.log2 ∨ e ≤ -1074) :
    ∃ m' e', roundWithAccuracy .binary64 s m e accuracy = signed s m' e' ∧
      Rounded (q * 2 ^ e) m' e' := by
  -- the exponent goes up to `t`, which leaves at most 53 bits, and all of them if they are there
  obtain ⟨k, hk⟩ : ∃ k, k = (max (m.log2 + e - 52) (-1074) - e).toNat := ⟨_, rfl⟩
  obtain ⟨t, ht⟩ : ∃ t, t = e + (k : Int) := ⟨_, rfl⟩
  have hshift := shiftToTargetExponent_eq m e accuracy
  rw [← hk, ← ht] at hshift
  have hmantissa : (ExtendedMantissa.ofMantissaAndAccuracy m accuracy).mantissa = m := by
    cases accuracy with
    | exact => rfl
    | inexact order => cases order <;> rfl
  have hunits : q * 2 ^ e = q / 2 ^ k * 2 ^ t := by
    rw [ht, zpow_add₀ two_ne_zero, zpow_natCast]
    field_simp
  have hlow := h.mantissa_le
  have hhigh := h.lt_mantissa
  rw [hmantissa] at hlow hhigh
  have hleast : -1074 ≤ t := by omega
  have hlt : q / 2 ^ k < 2 ^ 53 := by
    have hpow : m < 2 ^ (53 + k) :=
      Nat.lt_log2_self.trans_le (Nat.pow_le_pow_right (by decide) (by omega))
    have hpow' : (m + 1 : ℚ) ≤ 2 ^ 53 * 2 ^ k := by
      rw [← pow_add]
      exact_mod_cast hpow
    rw [div_lt_iff₀ (by positivity)]
    linarith
  have hfull : -1074 < t → 2 ^ 52 ≤ q / 2 ^ k := by
    intro hnormal
    have hm : m ≠ 0 := by
      rintro rfl
      rw [Nat.log2_zero] at hbits hk
      omega
    have hpow : 2 ^ (52 + k) ≤ m := by
      rw [← Nat.le_log2 hm]
      omega
    have hpow' : (2 ^ 52 * 2 ^ k : ℚ) ≤ m := by
      rw [← pow_add]
      exact_mod_cast hpow
    rw [le_div_iff₀ (by positivity)]
    linarith
  have hrounds := h.shiftRight k
  unfold roundWithAccuracy
  rw [hshift, hunits]
  dsimp only
  have hmost := hrounds.roundedMantissa_le (n := 2 ^ 53) (by exact_mod_cast hlt.le)
  -- rounding up may carry over all 53 bits, which leaves a power of two for the second shift
  rcases Nat.lt_or_eq_of_le hmost with hfits | hup
  · refine ⟨_, t, ?_, hrounds.rounded hleast hlt hfull hfits⟩
    rw [shiftToTargetExponent_of_lt hfits hleast]
    rfl
  · refine ⟨2 ^ 52, t + 1, ?_, hrounds.rounded_up hleast hlt hfull hup⟩
    rw [hup, shiftToTargetExponent_two_pow hleast]
    rfl

theorem Rounded.zero : Rounded 0 0 (-1074) := by
  refine ⟨by norm_num, le_rfl, fun h => absurd h (lt_irrefl _), ?_, fun _ _ _ _ _ => .inr rfl, ?_⟩
  · intro n f _ _
    rw [Nat.cast_zero, zero_mul, sub_zero, abs_zero]
    exact abs_nonneg _
  · refine iff_of_true (by norm_num) ?_
    unfold overflow
    positivity

/-- No bits are rounded to zero. -/
theorem roundWithAccuracy_zero (s : Sign) (e : Int) :
    roundWithAccuracy .binary64 s 0 e .exact = .zero s := by
  have hshift (k : Nat) : Represents (ExtendedMantissa.ofMantissaAndAccuracy 0 .exact >>> k) 0 := by
    have h := (Represents.exact 0).shiftRight k
    rwa [Nat.cast_zero, zero_div] at h
  have hrounded (k : Nat) :
      (ExtendedMantissa.ofMantissaAndAccuracy 0 .exact >>> k).roundedMantissa = 0 :=
    Nat.le_zero.mp ((hshift k).roundedMantissa_le Nat.cast_zero.ge)
  have hmantissa (k : Nat) :
      (ExtendedMantissa.ofMantissaAndAccuracy 0 .exact >>> k).mantissa = 0 := by
    exact_mod_cast le_antisymm (hshift k).mantissa_le (Nat.cast_nonneg _)
  unfold roundWithAccuracy
  rw [shiftToTargetExponent_eq]
  dsimp only
  rw [hrounded, shiftToTargetExponent_eq]
  dsimp only
  rw [dif_pos (hmantissa _)]

/-- Without a condition on its bits a number is first brought to a smaller exponent. -/
theorem round_eq (s : Sign) (m : Nat) (e : Int) :
    ∃ m' e', UnpackedFloat.round .binary64 s m e = signed s m' e' ∧ Rounded (m * 2 ^ e) m' e' := by
  obtain ⟨k, hk⟩ : ∃ k, k = (e - max (m.log2 + e - 52) (-1074)).toNat := ⟨_, rfl⟩
  have hround : UnpackedFloat.round .binary64 s m e =
      roundWithAccuracy .binary64 s (m * 2 ^ k) (e - k) .exact := by
    unfold UnpackedFloat.round decreaseExponent
    rw [targetExponent_eq]
    dsimp only
    rw [← hk, Nat.shiftLeft_eq]
  rw [hround]
  rcases Nat.eq_zero_or_pos m with rfl | hm
  · refine ⟨0, -1074, ?_, ?_⟩
    · rw [zero_mul, roundWithAccuracy_zero]
      rfl
    · rw [Nat.cast_zero, zero_mul]
      exact .zero
  · have hvalue : (m * 2 ^ e : ℚ) = (m * 2 ^ k : Nat) * 2 ^ (e - k) := by
      rw [zpow_sub₀ two_ne_zero, zpow_natCast]
      push_cast
      field_simp
    have hbits : 52 ≤ (m * 2 ^ k).log2 ∨ e - k ≤ -1074 := by
      by_cases hleast : e - k ≤ -1074
      · exact .inr hleast
      · left
        rw [Nat.le_log2 (Nat.mul_pos hm (Nat.two_pow_pos k)).ne']
        calc 2 ^ 52
          _ ≤ 2 ^ (m.log2 + k) := Nat.pow_le_pow_right (by decide) (by omega)
          _ = 2 ^ m.log2 * 2 ^ k := Nat.pow_add ..
          _ ≤ m * 2 ^ k := Nat.mul_le_mul_right _ (Nat.log2_self_le hm.ne')
    rw [hvalue]
    exact roundWithAccuracy_eq s (Represents.exact _) hbits

end Shifts

/-! ## Doubles -/

/-- The magnitude of a double; zero for infinities and what is not a number. -/
def magnitude (x : Float) : ℚ :=
  match exact x with
  | .finite _ m e _ => m * 2 ^ e
  | _ => 0

theorem magnitude_of_exact {x : Float} {s : Sign} {m : Nat} {e : Int} {hm : 0 < m}
    (h : exact x = .finite s m e hm) : magnitude x = m * 2 ^ e := by
  rw [magnitude, h]

theorem magnitude_nonneg (x : Float) : 0 ≤ magnitude x := by
  unfold magnitude
  split
  · positivity
  · exact le_rfl

theorem isFinite_iff (x : Float) : x.isFinite = true ↔ (exact x).isFinite = true := Iff.rfl

section Packing

variable {s : Sign} {m : Nat} {e : Int}

/-- Bits with an exponent that is neither the least nor the greatest denote a number of 53 bits. -/
theorem unpack_normal {b : BitVec 11} (v : BitVec 52) (hleast : b ≠ 0#11) (hgreatest : b ≠ -1#11)
    (hm : 0 < m) (hmantissa : 2 ^ 52 + v.toNat = m) (hexponent : (b.toNat : Int) - 1075 = e) :
    UnpackedFloat.unpack .binary64 (packComponents .binary64 s b v) = .finite s m e hm := by
  unfold UnpackedFloat.unpack
  simp only [unpackMantissa_packComponents, unpackExponent_packComponents,
    unpackSign_packComponents, Sign.ofBitVec_toBitVec]
  rw [if_neg hgreatest, if_neg hleast, UnpackedFloat.finite.injEq]
  exact ⟨rfl, (toNat_one_append v).trans hmantissa, hexponent⟩

/-- Bits with the least exponent denote a number of fewer bits. -/
theorem unpack_subnormal {v : BitVec 52} (hm : 0 < m) (hmantissa : v.toNat = m) :
    UnpackedFloat.unpack .binary64 (packComponents .binary64 s 0#11 v) =
      .finite s m (-1074) hm := by
  have hv : v ≠ 0#52 := by
    rintro rfl
    exact hm.ne hmantissa
  unfold UnpackedFloat.unpack
  simp only [unpackMantissa_packComponents, unpackExponent_packComponents,
    unpackSign_packComponents, Sign.ofBitVec_toBitVec]
  rw [if_neg (by decide), if_pos trivial, dif_neg hv, UnpackedFloat.finite.injEq]
  exact ⟨rfl, hmantissa, rfl⟩

theorem unpack_infinity (s : Sign) :
    UnpackedFloat.unpack .binary64 (packedInfinity .binary64 s) = .infinity s := by
  cases s <;> rfl

/-- The bits of a number tell which kind it is. -/
theorem pack_finite (hm : 0 < m) : UnpackedFloat.pack .binary64 (.finite s m e hm) =
    if 2048 ≤ (e + 1075).toNat + 1 then packedInfinity .binary64 s
    else if m.log2 = 52 then
      packComponents .binary64 s (BitVec.ofNat 11 (e + 1075).toNat) (BitVec.ofNat 52 m)
    else packComponents .binary64 s 0#11 (BitVec.ofNat 52 m) := by
  have hbias : e + (Format.binary64.exponentBias : Nat) +
      (Format.binary64.mantissaBitsWithoutImplicit : Nat) = e + 1075 := by
    show e + (1023 : Nat) + (52 : Nat) = e + 1075
    omega
  have hbits : m.log2 + 1 = Format.binary64.mantissaBits ↔ m.log2 = 52 := by
    show m.log2 + 1 = 53 ↔ m.log2 = 52
    omega
  unfold UnpackedFloat.pack
  dsimp only
  rw [hbias]
  simp only [hbits]

/-- A double in canonical form is kept by its bits. -/
theorem exact_pack (h : Canonical m e) (he : e ≤ 971) :
    exact (.ofModel (.pack (.finite s m e h.pos))) = .finite s m e h.pos := by
  have hlt := h.lt
  have hleast := h.least
  show UnpackedFloat.unpack .binary64 (UnpackedFloat.pack .binary64 _) = _
  rw [pack_finite, if_neg (by omega)]
  have hexponent : (BitVec.ofNat 11 (e + 1075).toNat).toNat = (e + 1075).toNat := by
    rw [BitVec.toNat_ofNat]
    omega
  by_cases hnormal : 2 ^ 52 ≤ m
  · have hlog : m.log2 = 52 := (Nat.log2_eq_iff h.pos.ne').mpr ⟨hnormal, hlt⟩
    rw [if_pos hlog]
    refine unpack_normal _ ?_ ?_ h.pos ?_ ?_
    · intro hzero
      have := congrArg BitVec.toNat hzero
      rw [hexponent, BitVec.toNat_ofNat] at this
      omega
    · intro hones
      have : (e + 1075).toNat = 2047 := hexponent.symm.trans (congrArg BitVec.toNat hones)
      omega
    · rw [BitVec.toNat_ofNat]
      omega
    · rw [hexponent]
      omega
  · have hlog : m.log2 ≠ 52 := by
      intro hlog
      exact hnormal ((Nat.log2_eq_iff h.pos.ne').mp hlog).1
    obtain rfl : e = -1074 := by
      by_contra hne
      exact hnormal (h.full (lt_of_le_of_ne hleast (Ne.symm hne)))
    rw [if_neg hlog]
    refine unpack_subnormal h.pos ?_
    rw [BitVec.toNat_ofNat]
    omega

/-- A number with a greater exponent is packed as an infinity. -/
theorem exact_pack_of_lt (hm : 0 < m) (he : 971 < e) :
    exact (.ofModel (.pack (.finite s m e hm))) = .infinity s := by
  show UnpackedFloat.unpack .binary64 (UnpackedFloat.pack .binary64 _) = _
  rw [pack_finite, if_pos (by omega)]
  exact unpack_infinity s

end Packing

/-- The mantissa of the double is even; zero counts as even, and so does what is not finite. -/
def EvenMantissa (x : Float) : Prop := ∀ s m e hm, exact x = .finite s m e hm → m % 2 = 0

/-- The double is `q` rounded, with some sign: it is finite below the overflow, and then nearest to `q`
among all doubles, with an even mantissa where another one is as near. -/
structure Rounds (x : Float) (q : ℚ) : Prop where
  isFinite_iff : x.isFinite = true ↔ q < overflow
  near : x.isFinite = true → ∀ (n : Nat) (f : Int), n ≤ 2 ^ 53 → -1074 ≤ f →
    |magnitude x - q| ≤ |n * 2 ^ f - q|
  even : x.isFinite = true → ∀ (n : Nat) (f : Int), n ≤ 2 ^ 53 → -1074 ≤ f →
    |n * 2 ^ f - q| = |magnitude x - q| → n * 2 ^ f = magnitude x ∨ EvenMantissa x

theorem magnitude_of_not_isFinite {x : Float} (h : ¬ x.isFinite = true) : magnitude x = 0 := by
  rw [isFinite_iff] at h
  rw [magnitude]
  split
  · next hx =>
    rw [hx] at h
    exact absurd rfl h
  · rfl

/-- What a number is rounded to is packed into the double that it is rounded to. -/
theorem Rounded.rounds {q : ℚ} {m : Nat} {e : Int} (h : Rounded q m e) (s : Sign) :
    Rounds (.ofModel (.pack (signed s m e))) q := by
  unfold signed
  by_cases hm : m = 0
  · rw [dif_pos hm]
    have hexact : exact (.ofModel (.pack (.zero s))) = .zero s := by cases s <;> rfl
    have hmagnitude : magnitude (.ofModel (.pack (.zero s))) = m * 2 ^ e := by
      rw [magnitude, hexact, hm, Nat.cast_zero, zero_mul]
    have he : e ≤ 971 := by
      by_contra he
      have := h.full (by omega)
      omega
    refine ⟨?_, fun _ => hmagnitude ▸ h.near, fun _ _ _ _ _ _ => .inr ?_⟩
    · rw [Number.isFinite_iff, hexact]
      exact iff_of_true rfl (h.inRange.mp he)
    · intro s' m' e' hm' hfinite
      rw [hexact] at hfinite
      cases hfinite
  · rw [dif_neg hm]
    have hcanonical : Canonical m e := ⟨Nat.pos_of_ne_zero hm, h.lt, h.least, h.full⟩
    rcases le_or_gt e 971 with he | he
    · have hexact := exact_pack (s := s) hcanonical he
      have hmagnitude := magnitude_of_exact hexact
      refine ⟨?_, fun _ => hmagnitude ▸ h.near, fun _ n f hn hf hq => ?_⟩
      · rw [Number.isFinite_iff, hexact]
        exact iff_of_true rfl (h.inRange.mp he)
      · rw [hmagnitude] at hq ⊢
        refine (h.even n f hn hf hq).imp_right fun heven s' m' e' hm' hfinite => ?_
        rw [hexact] at hfinite
        cases hfinite
        exact heven
    · have hexact := exact_pack_of_lt (s := s) hcanonical.pos he
      have hinfinite :
          ¬ (Float.ofModel (.pack (.finite s m e hcanonical.pos))).isFinite = true := by
        rw [Number.isFinite_iff, hexact]
        exact Bool.false_ne_true
      refine ⟨?_, fun hfinite => absurd hfinite hinfinite, fun hfinite => absurd hfinite hinfinite⟩
      rw [← h.inRange]
      exact iff_of_false hinfinite (by omega)

namespace Rounds

variable {x : Float} {q : ℚ}

/-- The doubles stay on their side of it. -/
theorem le (h : Rounds x q) (n : Nat) (f : Int) (hn : n ≤ 2 ^ 53) (hf : -1074 ≤ f)
    (hq : q ≤ n * 2 ^ f) : magnitude x ≤ n * 2 ^ f := by
  by_cases hfinite : x.isFinite = true
  · exact le_of_near (h.near hfinite n f hn hf) hq
  · rw [magnitude_of_not_isFinite hfinite]
    positivity

theorem ge (h : Rounds x q) (hfinite : x.isFinite = true) (n : Nat) (f : Int) (hn : n ≤ 2 ^ 53)
    (hf : -1074 ≤ f) (hq : n * 2 ^ f ≤ q) : n * 2 ^ f ≤ magnitude x :=
  ge_of_near (h.near hfinite n f hn hf) hq

/-- A bound that is a power of two. -/
theorem magnitude_le (h : Rounds x q) {k : Nat} (hq : q ≤ 2 ^ k) : magnitude x ≤ 2 ^ k := by
  have hone : ((1 : Nat) * 2 ^ (k : Int) : ℚ) = 2 ^ k := by
    rw [Nat.cast_one, one_mul, zpow_natCast]
  have hle := h.le 1 k (by norm_num) (by omega)
  rw [hone] at hle
  exact hle hq

/-- A number that is a double is rounded to itself. -/
theorem magnitude_eq (h : Rounds x q) (hfinite : x.isFinite = true) {n : Nat} {f : Int} (hn : n ≤ 2 ^ 53)
    (hf : -1074 ≤ f) (hq : q = n * 2 ^ f) : magnitude x = q := by
  rw [hq]
  exact le_antisymm (h.le n f hn hf hq.le) (h.ge hfinite n f hn hf hq.ge)

end Rounds

end FormulaTable.Number
