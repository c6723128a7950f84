import FormulaTable.Proofs.Number.Whole

/-!
# Integers from doubles and doubles from integers

An integer of at most 53 bits is a double, and the whole part of a double leads back to it. A greater
integer is rounded to a double that is as great, and neither its products nor its whole part come
below that again.
-/

namespace FormulaTable.Number

open Float.Model (UnpackedFloat Format)
open Float.Model.UnpackedFloat

variable {x y : Float} {s : Sign} {m n k : Nat} {e z a b : Int} {hm : 0 < m}

/-! ## Doubles of integers -/

theorem whole_one : Whole 1 1 := by
  have hexact : exact 1 = .finite .positive (2 ^ 52) (-52) (by decide) := rfl
  unfold Whole
  rw [hexact]
  exact .finite rfl (by norm_num)

theorem whole_toFloat (hn : n < 2 ^ 53) : Whole n.toUInt64.toFloat n := by
  have hword : n.toUInt64.toNat = n := by
    rw [Nat.toUInt64_eq, UInt64.toNat_ofNat']
    omega
  refine whole_normalize (fits_of_le hn.le) ?_
  rw [hword, zpow_zero, mul_one]

/-- A natural number of at most 53 bits is a double ... -/
theorem whole_ofNat (hn : n < 2 ^ 53) : Whole (Float.ofNat n) n := by
  have hfits : Fits (n * 1) := by
    rw [Int.mul_one]
    exact fits_of_le hn.le
  have h := (whole_toFloat hn).mul whole_one Int.one_pos hfits
  rw [Int.mul_one] at h
  show Whole (Float.ofScientific n false 0) n
  unfold Float.ofScientific
  rw [dif_pos ⟨hn, by decide⟩]
  exact h

/-- **An integer of at most 53 bits is a double.** -/
theorem whole_ofInt (hz : z.natAbs < 2 ^ 53) : Whole (Float.ofInt z) z := by
  cases z with
  | ofNat n => exact whole_ofNat hz
  | negSucc n => exact (whole_ofNat (n := n + 1) hz).neg (by omega)

/-! ## Great doubles -/

/-- The double is infinite, or it is `2 ^ k` or more in magnitude. -/
def Great (k : Nat) (x : Float) : Prop :=
  (∃ s, exact x = .infinity s) ∨ (x.isFinite = true ∧ 2 ^ k ≤ magnitude x)

theorem Great.mono {l : Nat} (h : Great k x) (hl : l ≤ k) : Great l x :=
  h.imp_right fun h => ⟨h.1, (pow_le_pow_right₀ one_le_two hl).trans h.2⟩

/-- What is rounded from a great number is great. -/
theorem Rounded.great {q : ℚ} (h : Rounded q m e) (hq : 2 ^ k ≤ q) (s : Sign) :
    Great k (.ofModel (.pack (signed s m e))) := by
  have hone : ((1 : Nat) * 2 ^ (k : Int) : ℚ) = 2 ^ k := by
    rw [Nat.cast_one, one_mul, zpow_natCast]
  have hle : (2 ^ k : ℚ) ≤ m * 2 ^ e := by
    have hge := h.ge 1 k (by norm_num) (by omega)
    rw [hone] at hge
    exact hge hq
  have hm : m ≠ 0 := by
    rintro rfl
    rw [Nat.cast_zero, zero_mul] at hle
    exact absurd hle (not_le.mpr (by positivity))
  have hcanonical : Canonical m e := ⟨Nat.pos_of_ne_zero hm, h.lt, h.least, h.full⟩
  unfold signed
  rw [dif_neg hm]
  rcases le_or_gt e 971 with he | he
  · have hexact := exact_pack (s := s) hcanonical he
    refine .inr ⟨?_, ?_⟩
    · rw [isFinite_iff, hexact]
      rfl
    · rwa [magnitude_of_exact hexact]
  · exact .inl ⟨s, exact_pack_of_lt hcanonical.pos he⟩

/-- A natural number of more than 53 bits is rounded, with the positive sign. -/
theorem ofNat_eq_signed (hn : 2 ^ 53 ≤ n) : ∃ m e,
    Float.ofNat n = .ofModel (.pack (signed .positive m e)) ∧ Rounded n m e := by
  have hpos : 0 < n := Nat.lt_of_lt_of_le (Nat.two_pow_pos 53) hn
  have hbits : 52 ≤ (n <<< 53 * 10 ^ (0 : Int).toNat).log2 := by
    rw [Nat.le_log2 (by rw [Nat.shiftLeft_eq]; positivity), Nat.shiftLeft_eq]
    show 2 ^ 52 ≤ n * 2 ^ 53 * 1
    omega
  have hvalue : ((n <<< 53 : Nat) * 2 ^ (-53 : Int) * ((10 ^ (0 : Int).toNat : Nat) * 2 ^ (0 : Int)) : ℚ) =
      n := by
    rw [Nat.shiftLeft_eq]
    norm_num
    ring
  obtain ⟨m, e, hround, hrounded⟩ := @mul_finite_eq (n <<< 53) (-53)
    (by rw [Nat.shiftLeft_eq]; positivity) (10 ^ (0 : Int).toNat) 0 (by decide) .positive .positive
    (.inl hbits)
  refine ⟨m, e, ?_, hvalue ▸ hrounded⟩
  show Float.ofScientific n false 0 = .ofModel (.pack (signed (.positive * .positive) m e))
  unfold Float.ofScientific
  rw [dif_neg (by omega), ← hround]
  have h := ofScientific_eq hpos 0
  rw [if_neg (by decide), if_neg (by omega), if_pos le_rfl] at h
  rw [← h]
  rfl

theorem great_ofNat (hn : 2 ^ 53 ≤ n) : Great 53 (Float.ofNat n) := by
  obtain ⟨m, e, hofNat, hrounded⟩ := ofNat_eq_signed hn
  rw [hofNat]
  exact hrounded.great (by exact_mod_cast hn) _

theorem exact_neg_of_infinity (hx : exact x = .infinity s) : exact (-x) = .infinity (-s) := by
  show exact (.ofModel (.pack (UnpackedFloat.neg (exact x)))) = _
  rw [hx]
  exact unpack_infinity (-s)

theorem Great.neg (h : Great k x) : Great k (-x) := by
  rcases h with ⟨s, hx⟩ | ⟨hx, hle⟩
  · exact .inl ⟨-s, exact_neg_of_infinity hx⟩
  · exact .inr ⟨isFinite_neg hx, by rwa [magnitude_neg hx]⟩

/-- **An integer of more than 53 bits is rounded to a double that is as great.** -/
theorem great_ofInt (hz : 2 ^ 53 ≤ z.natAbs) : Great 53 (Float.ofInt z) := by
  cases z with
  | ofNat n => exact great_ofNat hz
  | negSucc n => exact (great_ofNat (n := n + 1) hz).neg

/-- A great double that is finite is a whole number. -/
theorem Great.exists_whole (h : Great 53 x) (hx : x.isFinite = true) :
    ∃ z, Whole x z ∧ 2 ^ 53 ≤ z.natAbs := by
  rcases h with ⟨s, hs⟩ | ⟨-, hle⟩
  · rw [isFinite_iff, hs] at hx
    cases hx
  rcases zero_or_finite hx with ⟨s, hs⟩ | ⟨s, m, e, hm, hs⟩
  · rw [magnitude_of_zero hs] at hle
    exact absurd hle (by norm_num)
  rw [magnitude_of_exact hs] at hle
  have he : 0 < e := by
    by_contra hneg
    have hlt : (m : ℚ) < 2 ^ 53 := by exact_mod_cast (canonical_of_exact hs).lt
    have hunit : (2 : ℚ) ^ e ≤ 1 := zpow_le_one_of_nonpos₀ one_le_two (by omega)
    have := mul_le_of_le_one_right (Nat.cast_nonneg m) hunit
    linarith
  obtain ⟨k, rfl⟩ : ∃ k : Nat, e = k := ⟨e.toNat, by omega⟩
  rw [zpow_natCast] at hle
  have hz : (s.apply (m * 2 ^ k : Nat)).natAbs = m * 2 ^ k := natAbs_apply s _
  refine ⟨s.apply (m * 2 ^ k : Nat), ?_, ?_⟩
  · unfold Whole
    rw [hs]
    refine .finite (by rw [hz]) ?_
    rw [hz, zpow_natCast]
    push_cast
    rfl
  · rw [hz]
    exact_mod_cast hle

/-- The double of an integer is a whole number, as long as it is finite. -/
theorem exists_whole_ofInt (hz : (Float.ofInt z).isFinite = true) :
    ∃ a, Whole (Float.ofInt z) a := by
  rcases Nat.lt_or_ge z.natAbs (2 ^ 53) with hlt | hge
  · exact ⟨z, whole_ofInt hlt⟩
  · obtain ⟨a, ha, -⟩ := (great_ofInt hge).exists_whole hz
    exact ⟨a, ha⟩

/-- A great product of two numbers is rounded to a great double. -/
theorem great_mul (hx : x.isFinite = true) (hy : y.isFinite = true)
    (h : 2 ^ k ≤ magnitude x * magnitude y) : Great k (x * y) := by
  have hpos : (0 : ℚ) < 2 ^ k := by positivity
  rcases zero_or_finite hx with ⟨s, hs⟩ | ⟨s, m, e, hm, hs⟩
  · rw [magnitude_of_zero hs, zero_mul] at h
    exact absurd h (not_le.mpr hpos)
  rcases zero_or_finite hy with ⟨s', hs'⟩ | ⟨s', n, f, hn, hs'⟩
  · rw [magnitude_of_zero hs', mul_zero] at h
    exact absurd h (not_le.mpr hpos)
  obtain ⟨m', e', hround, hrounded⟩ := @mul_finite_eq m e hm n f hn s s'
    ((canonical_of_exact hs).bits_mul (canonical_of_exact hs'))
  show Great k (.ofModel (.pack (UnpackedFloat.mul .binary64 (exact x) (exact y))))
  rw [hs, hs', hround]
  refine hrounded.great ?_ _
  rwa [magnitude_of_exact hs, magnitude_of_exact hs'] at h

theorem Whole.great_mul (hx : Whole x a) (hy : Whole y b) (h : 2 ^ k ≤ (a * b).natAbs) :
    Great k (x * y) := by
  refine Number.great_mul hx.isFinite hy.isFinite ?_
  rw [hx.magnitude_eq, hy.magnitude_eq]
  rw [Int.natAbs_mul] at h
  exact_mod_cast h

theorem natAbs_le_mul (hb : 0 < b) : a.natAbs ≤ (a * b).natAbs := by
  rw [Int.natAbs_mul]
  exact Nat.le_mul_of_pos_right _ (Int.natAbs_pos.mpr hb.ne')

/-- A great multiple of an integer, which may itself be rounded, is rounded to a great double. -/
theorem great_ofInt_mul (hy : Whole y b) (hb : 0 < b) (hz : (Float.ofInt z).isFinite = true)
    (h : 2 ^ 53 ≤ (z * b).natAbs) : Great 53 (Float.ofInt z * y) := by
  rcases Nat.lt_or_ge z.natAbs (2 ^ 53) with hlt | hge
  · exact (whole_ofInt hlt).great_mul hy h
  obtain ⟨a, ha, hge⟩ := (great_ofInt hge).exists_whole hz
  exact ha.great_mul hy (hge.trans (natAbs_le_mul hb))

/-- A great double has no fractional digits. -/
theorem Great.toWhole {pick : Sign → Nat → Nat → Nat} (h : Great 53 x) :
    Number.toWhole pick x = x := by
  unfold Number.toWhole
  split
  · next s m k hm hx =>
    rcases h with ⟨s', hs'⟩ | ⟨-, hle⟩
    · rw [hx] at hs'
      cases hs'
    rw [magnitude_of_exact hx] at hle
    have hlt : (m : ℚ) < 2 ^ 53 := by exact_mod_cast (canonical_of_exact hx).lt
    have hunit : (2 : ℚ) ^ Int.negSucc k ≤ 1 :=
      zpow_le_one_of_nonpos₀ one_le_two (Int.negSucc_lt_zero k).le
    have := mul_le_of_le_one_right (Nat.cast_nonneg m) hunit
    linarith
  · rfl

/-! ## Integers of doubles -/

theorem toInt_ofIntClamp (z : Int) :
    (Int64.ofIntClamp z).toInt = max (-2 ^ 63) (min (2 ^ 63 - 1) z) := by
  have hleast : Int64.minValue.toInt = -2 ^ 63 := by decide
  have hgreatest : Int64.maxValue.toInt = 2 ^ 63 - 1 := by decide
  unfold Int64.ofIntClamp
  split
  · split
    · rw [Int64.toInt_ofIntLE]
      omega
    · omega
  · omega

theorem toInt64_of_infinity (hx : exact x = .infinity s) :
    toInt64 x = s.apply (2 ^ 63 - 1) ∨ toInt64 x = s.apply (2 ^ 63) := by
  unfold toInt64
  rw [hx]
  cases s with
  | positive => exact .inl (by decide)
  | negative => exact .inr (by decide)

/-- The digits of a finite double before the point. -/
theorem roundToInt_eq (s : Sign) (m : Nat) (e : Int) : ∃ n : Nat, roundToInt s m e = s.apply n ∧
    (n : ℚ) ≤ m * 2 ^ e ∧ (m * 2 ^ e : ℚ) < n + 1 := by
  have hrepresents := (Represents.exact (m <<< (e - 0).toNat)).shiftRight
    (0 - (e - (e - 0).toNat)).toNat
  have hvalue : ((m <<< (e - 0).toNat : Nat) / 2 ^ (0 - (e - ((e - 0).toNat : Int))).toNat : ℚ) =
      m * 2 ^ e := by
    have hup : (e - 0).toNat = e.toNat := by omega
    have hdown : (0 - (e - ((e - 0).toNat : Int))).toNat = (-e).toNat := by omega
    rw [hdown, hup, Nat.shiftLeft_eq, div_eq_iff (by positivity), mul_assoc,
      zpow_mul_pow_neg two_ne_zero]
    push_cast
    rfl
  rw [hvalue] at hrepresents
  exact ⟨_, rfl, hrepresents.mantissa_le, hrepresents.lt_mantissa⟩

/-- The whole part of a finite double: its digits before the point, as far as 64 bits hold them. -/
theorem toInt64_of_exact (hx : exact x = .finite s m e hm) : ∃ n : Nat,
    toInt64 x = max (-2 ^ 63) (min (2 ^ 63 - 1) (s.apply n)) ∧
      (n : ℚ) ≤ m * 2 ^ e ∧ (m * 2 ^ e : ℚ) < n + 1 := by
  obtain ⟨n, hn, hle, hlt⟩ := roundToInt_eq s m e
  refine ⟨n, ?_, hle, hlt⟩
  rw [← hn]
  unfold toInt64
  rw [hx]
  exact toInt_ofIntClamp _

/-- The whole part of a whole number is the number. -/
theorem Whole.toInt64 (h : Whole x z) (hz : z.natAbs < 2 ^ 63) : Number.toInt64 x = z := by
  rcases h.cases with ⟨hx, rfl⟩ | ⟨s, m, e, hm, hx, hsign, hmagnitude⟩
  · unfold Number.toInt64
    rw [hx]
    decide
  · obtain ⟨n, hn, hle, hlt⟩ := toInt64_of_exact hx
    rw [hmagnitude] at hle hlt
    have hle : n ≤ z.natAbs := by exact_mod_cast hle
    have hlt : z.natAbs < n + 1 := by exact_mod_cast hlt
    obtain rfl : n = z.natAbs := by omega
    rw [hn, hsign]
    omega

/-- The whole part of a great double is great. -/
theorem Great.le_toInt64 (h : Great k x) (hk : k ≤ 62) : 2 ^ k ≤ (Number.toInt64 x).natAbs := by
  have hpow : 2 ^ k ≤ 2 ^ 62 := Nat.pow_le_pow_right (by decide) hk
  rcases h with ⟨s, hx⟩ | ⟨hx, hle⟩
  · rcases toInt64_of_infinity hx with h | h <;> rw [h] <;> cases s <;> simp [Sign.apply] <;> omega
  rcases zero_or_finite hx with ⟨s, hs⟩ | ⟨s, m, e, hm, hs⟩
  · rw [magnitude_of_zero hs] at hle
    exact absurd hle (not_le.mpr (by positivity))
  · obtain ⟨n, hn, -, hlt⟩ := toInt64_of_exact hs
    rw [magnitude_of_exact hs] at hle
    have hle : 2 ^ k < n + 1 := by exact_mod_cast hle.trans_lt hlt
    rw [hn]
    cases s <;> simp [Sign.apply] <;> omega

/-- The whole part of the double of an integer is the integer, or else both are great. -/
theorem toInt64_ofInt (z : Int) : toInt64 (Float.ofInt z) = z ∨
    2 ^ 53 ≤ z.natAbs ∧ 2 ^ 53 ≤ (toInt64 (Float.ofInt z)).natAbs := by
  rcases Nat.lt_or_ge z.natAbs (2 ^ 53) with hlt | hge
  · exact .inl ((whole_ofInt hlt).toInt64 (by omega))
  · exact .inr ⟨hge, (great_ofInt hge).le_toInt64 (by decide)⟩

/-! ## Order -/

/-- The order of positive doubles is the order of what they denote. -/
theorem Canonical.compare_eq_lt_iff {f : Int} (hm : Canonical m e) (hn : Canonical n f) :
    (compare e f).then (compare m n) = .lt ↔ (m * 2 ^ e : ℚ) < n * 2 ^ f := by
  rw [Ordering.then_eq_lt, Int.compare_eq_lt, Int.compare_eq_eq, Nat.compare_eq_lt]
  refine ⟨hm.mul_lt_mul hn, fun hlt => ?_⟩
  by_contra hnot
  rcases Int.lt_trichotomy e f with h | rfl | h
  · exact hnot (.inl h)
  · rcases Nat.lt_trichotomy m n with h | rfl | h
    · exact hnot (.inr ⟨rfl, h⟩)
    · exact lt_irrefl _ hlt
    · exact lt_asymm hlt (hn.mul_lt_mul hm (.inr ⟨rfl, h⟩))
  · exact lt_asymm hlt (hn.mul_lt_mul hm (.inl h))

/-- A positive number is compared with a magnitude. -/
theorem lt_abs_iff (hx : exact x = .finite .positive m e hm) (hy : y.isFinite = true) :
    x < y.abs ↔ magnitude x < magnitude y := by
  have hlt : x < y.abs ↔ UnpackedFloat.lt (exact x) (exact y.abs) = true :=
    ⟨of_decide_eq_true, decide_eq_true⟩
  rw [hlt, hx, magnitude_of_exact hx]
  rcases zero_or_finite hy with ⟨s, hs⟩ | ⟨s, n, f, hn, hs⟩
  · have habs : exact y.abs = exact (.ofModel (.pack (UnpackedFloat.abs (exact y)))) := rfl
    rw [magnitude_of_zero hs, habs, hs]
    exact iff_of_false (by cases s <;> exact Bool.false_ne_true) (not_lt.mpr (by positivity))
  · rw [exact_abs hs, magnitude_of_exact hs,
      ← (canonical_of_exact hx).compare_eq_lt_iff (canonical_of_exact hs)]
    show ((some ((compare e f).then (compare m n)) : Option Ordering) == some .lt) = true ↔ _
    rw [beq_iff_eq, Option.some_inj]

/-- What a positive whole number denotes. -/
theorem Whole.exact_eq_of_pos (h : Whole x z) (hz : 0 < z) :
    ∃ m e hm, exact x = .finite .positive m e hm := by
  rcases h.cases with ⟨-, rfl⟩ | ⟨s, m, e, hm, hx, hsign, -⟩
  · exact absurd hz (Int.lt_irrefl 0)
  · rw [eq_positive hsign hz] at hx
    exact ⟨m, e, hm, hx⟩

theorem Whole.lt_abs_iff (hx : Whole x a) (ha : 0 < a) (hy : Whole y b) :
    x < y.abs ↔ a.natAbs < b.natAbs := by
  obtain ⟨m, e, hm, hexact⟩ := hx.exact_eq_of_pos ha
  rw [Number.lt_abs_iff hexact hy.isFinite, hx.magnitude_eq, hy.magnitude_eq, Nat.cast_lt]

/-- A great number is beyond every smaller one. -/
theorem Great.lt_abs (hy : Great k y) (hx : Whole x a) (ha : 0 < a) (hlt : a.natAbs < 2 ^ k) :
    x < y.abs := by
  obtain ⟨m, e, hm, hexact⟩ := hx.exact_eq_of_pos ha
  rcases hy with ⟨s, hs⟩ | ⟨hy, hle⟩
  · have habs : exact y.abs = .infinity .positive := by
      show exact (.ofModel (.pack (UnpackedFloat.abs (exact y)))) = _
      rw [hs]
      exact unpack_infinity .positive
    refine decide_eq_true (p := x.toModel < y.abs.toModel) ?_
    show UnpackedFloat.lt (exact x) (exact y.abs) = true
    rw [hexact, habs]
    rfl
  · rw [Number.lt_abs_iff hexact hy, hx.magnitude_eq]
    exact lt_of_lt_of_le (by exact_mod_cast hlt) hle

end FormulaTable.Number
