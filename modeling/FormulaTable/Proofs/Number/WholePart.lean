import FormulaTable.Proofs.Number.Line
import FormulaTable.Proofs.Number.Opposite

/-!
# Whole parts

To cut off the fractional digits of a double leaves a whole number, which is its whole part as an
integer as far as 64 bits hold it. The whole part has the sign of the double.
-/

namespace FormulaTable.Number

open Float.Model (UnpackedFloat Format)
open Float.Model.UnpackedFloat

variable {x : Float} {s : Sign} {m n : Nat} {e z : Int} {hm : 0 < m}

/-! ## Words -/

theorem toNat_ofNatClamp (n : Nat) : (UInt64.ofNatClamp n).toNat = min n (2 ^ 64 - 1) := by
  unfold UInt64.ofNatClamp
  split
  · next h =>
    have h : n < 2 ^ 64 := h
    show n = _
    omega
  · next h =>
    have h : ¬ n < 2 ^ 64 := h
    show 2 ^ 64 - 1 = _
    omega

theorem toUInt64_eq (x : Float) :
    x.toUInt64.toNat = min (UnpackedFloat.toInt 0 (2 ^ 64 - 1) (exact x)).toNat (2 ^ 64 - 1) :=
  toNat_ofNatClamp _

/-- A whole number that is not negative is kept as a word, as far as 64 bits hold it. -/
theorem Whole.toNat_toUInt64 (h : Whole x z) : x.toUInt64.toNat = min z.toNat (2 ^ 64 - 1) := by
  rw [toUInt64_eq]
  rcases h.cases with ⟨hx, rfl⟩ | ⟨s, m, e, hm, hx, hsign, hmagnitude⟩
  · rw [hx]
    rfl
  · obtain ⟨n, hn, hle, hlt⟩ := roundToInt_eq s m e
    rw [hmagnitude] at hle hlt
    have hle : n ≤ z.natAbs := by exact_mod_cast hle
    have hlt : z.natAbs < n + 1 := by exact_mod_cast hlt
    obtain rfl : n = z.natAbs := by omega
    rw [hsign] at hn
    rw [hx, UnpackedFloat.toInt, hn]

theorem IsZero.toNat_toUInt64 (h : IsZero x) : x.toUInt64.toNat = 0 := by
  obtain ⟨s, hs⟩ := h
  rw [toUInt64_eq, hs]
  rfl

/-! ## Cutting off the fractional digits -/

theorem signed_of_rounded_zero (h : Rounded 0 m e) (s : Sign) : signed s m e = .zero s := by
  have hle := h.le 0 0 (Nat.zero_le _) (by decide) (by rw [Nat.cast_zero, zero_mul])
  rw [Nat.cast_zero, zero_mul] at hle
  have hm : m = 0 := by
    by_contra hne
    have hpos : (0 : ℚ) < m := by exact_mod_cast Nat.pos_of_ne_zero hne
    exact absurd hle (not_le.mpr (by positivity))
  rw [signed, dif_pos hm]

/-- A whole number of at most 53 bits with a sign. -/
theorem whole_nearest (hn : n ≤ 2 ^ 53) (hpos : 0 < n) (s : Sign) :
    Whole (nearest s n 0) (s.apply n) := by
  have habs := natAbs_apply s n
  have hne : s.apply n ≠ 0 := by
    rw [← Int.natAbs_ne_zero, habs]
    exact hpos.ne'
  obtain ⟨m', e', hround, hrounded⟩ := round_eq s n 0
  rw [zpow_zero, mul_one, ← habs] at hrounded
  unfold nearest
  rw [hround]
  exact hrounded.whole (fits_of_le (habs.trans_le hn)) hne (by rw [habs])

theorem truncate_eq_self (h : ∀ s m e hm, exact x ≠ .finite s m e hm) : truncate x = x := by
  unfold truncate toWhole
  split
  · next s m k hm hx => exact absurd hx (h s m _ hm)
  · rfl

/-- Without its fractional digits a finite double is a whole number, or a zero with its sign. -/
theorem truncate_finite (hx : exact x = .finite s m e hm) (hle : (n : ℚ) ≤ m * 2 ^ e)
    (hlt : (m * 2 ^ e : ℚ) < n + 1) :
    Whole (truncate x) (s.apply n) ∨ n = 0 ∧ IsZero (truncate x) := by
  unfold truncate toWhole
  rw [hx]
  cases e with
  | ofNat k =>
      left
      have hvalue : (m * 2 ^ (Int.ofNat k) : ℚ) = (m * 2 ^ k : Nat) := by
        show (m * 2 ^ (k : Int) : ℚ) = _
        rw [zpow_natCast]
        push_cast
        rfl
      rw [hvalue] at hle hlt
      have hle : n ≤ m * 2 ^ k := by exact_mod_cast hle
      have hlt : m * 2 ^ k < n + 1 := by exact_mod_cast hlt
      have habs := natAbs_apply s n
      unfold Whole
      rw [hx]
      refine .finite (by rw [habs]) ?_
      rw [hvalue, habs]
      exact_mod_cast (by omega : m * 2 ^ k = n)
  | negSucc k =>
      rw [zpow_negSucc, ← div_eq_mul_inv, le_div_iff₀ (by positivity)] at hle
      rw [zpow_negSucc, ← div_eq_mul_inv, div_lt_iff₀ (by positivity)] at hlt
      have hle : n * 2 ^ (k + 1) ≤ m := by exact_mod_cast hle
      have hlt : m < (n + 1) * 2 ^ (k + 1) := by exact_mod_cast hlt
      have hquotient : m / 2 ^ (k + 1) = n := Nat.div_eq_of_lt_le hle hlt
      show Whole (nearest s (m / 2 ^ (k + 1)) 0) _ ∨ n = 0 ∧ IsZero (nearest s (m / 2 ^ (k + 1)) 0)
      rw [hquotient]
      rcases Nat.eq_zero_or_pos n with rfl | hpos
      · refine .inr ⟨rfl, s, ?_⟩
        obtain ⟨m', e', hround, hrounded⟩ := round_eq s 0 0
        rw [Nat.cast_zero, zero_mul] at hrounded
        unfold nearest
        rw [hround, signed_of_rounded_zero hrounded]
        cases s <;> rfl
      · refine .inl (whole_nearest ?_ hpos s)
        have hm := (canonical_of_exact hx).lt
        calc n
          _ ≤ n * 2 ^ (k + 1) := Nat.le_mul_of_pos_right _ (by positivity)
          _ ≤ 2 ^ 53 := hle.trans hm.le

/-! ## Signs -/

theorem position_neg (x : Float) : position (-x) = -position x := by
  have hsigned (s : Sign) (q : ℚ) : signedBy (-s) q = -signedBy s q := by
    cases s with
    | positive => rfl
    | negative => exact (neg_neg q).symm
  unfold position
  rw [exact_opposite]
  cases exact x with
  | finite s m e hm => exact hsigned s _
  | infinity s => exact hsigned s _
  | zero _ | notANumber => exact neg_zero.symm

theorem position_ofNat_nonneg (n : Nat) : 0 ≤ position (Float.ofNat n) := by
  rcases Nat.lt_or_ge n (2 ^ 53) with hlt | hge
  · rw [(whole_ofNat hlt).position_eq]
    exact_mod_cast Nat.zero_le n
  · obtain ⟨m, e, hofNat, hrounded⟩ := ofNat_eq_signed hge
    rw [hofNat]
    exact hrounded.position_nonneg

/-- A whole part other than zero has the sign of its double. -/
theorem toInt64_sign (x : Float) :
    (0 < toInt64 x → 0 < position x) ∧ (toInt64 x < 0 → position x < 0) := by
  unfold position
  cases hx : exact x with
  | notANumber | zero s =>
      have hpart : toInt64 x = 0 := by
        unfold toInt64
        rw [hx]
        rfl
      rw [hpart]
      exact ⟨fun h => absurd h (lt_irrefl 0), fun h => absurd h (lt_irrefl 0)⟩
  | infinity s =>
      have hpart : toInt64 x = max (-2 ^ 63) (min (2 ^ 63 - 1) (s.apply (2 ^ 63))) := by
        unfold toInt64
        rw [hx]
        cases s <;> decide
      rw [hpart]
      cases s with
      | positive => exact ⟨fun _ => overflow_pos, fun h => absurd h (by decide)⟩
      | negative => exact ⟨fun h => absurd h (by decide), fun _ => neg_lt_zero.mpr overflow_pos⟩
  | finite s m e hm =>
      obtain ⟨n, hn, -, -⟩ := toInt64_of_exact hx
      have hpos : (0 : ℚ) < m * 2 ^ e := by positivity
      rw [hn]
      cases s with
      | positive =>
          have hpart : (0 : Int) ≤ Sign.positive.apply n := Int.natCast_nonneg n
          exact ⟨fun _ => hpos, by omega⟩
      | negative =>
          have hpart : Sign.negative.apply n ≤ 0 := Int.neg_nonpos_of_nonneg (Int.natCast_nonneg n)
          exact ⟨by omega, fun _ => neg_lt_zero.mpr hpos⟩

/-- The whole part of the double of an integer is the integer, or else both are far on the same
side of zero. -/
theorem toInt64_ofInt_or (z : Int) : toInt64 (Float.ofInt z) = z ∨
    2 ^ 53 ≤ z ∧ 2 ^ 53 ≤ toInt64 (Float.ofInt z) ∨
    z ≤ -2 ^ 53 ∧ toInt64 (Float.ofInt z) ≤ -2 ^ 53 := by
  obtain ⟨hpos, hneg⟩ := toInt64_sign (Float.ofInt z)
  rcases toInt64_ofInt z with h | ⟨hz, hpart⟩
  · exact .inl h
  · cases z with
    | ofNat n =>
        have hposition : 0 ≤ position (Float.ofInt (.ofNat n)) := position_ofNat_nonneg n
        have hsign : ¬ toInt64 (Float.ofInt (.ofNat n)) < 0 := fun h => (hneg h).not_ge hposition
        have hz : 2 ^ 53 ≤ n := hz
        exact .inr (.inl ⟨Int.ofNat_le.mpr hz, by omega⟩)
    | negSucc n =>
        have hposition : position (Float.ofInt (.negSucc n)) ≤ 0 := by
          show position (-Float.ofNat (n + 1)) ≤ 0
          rw [position_neg]
          exact neg_nonpos.mpr (position_ofNat_nonneg (n + 1))
        have hsign : ¬ 0 < toInt64 (Float.ofInt (.negSucc n)) := fun h => (hpos h).not_ge hposition
        exact .inr (.inr (by omega))

/-! ## Whole parts of positions -/

/-- A rational number without its fractional digits. -/
def truncated (q : ℚ) : Int := if 0 ≤ q then ⌊q⌋ else ⌈q⌉

variable {q : ℚ}

theorem truncated_intCast (z : Int) : truncated z = z := by
  unfold truncated
  split
  · exact Int.floor_intCast z
  · exact Int.ceil_intCast z

theorem truncated_neg (q : ℚ) : truncated (-q) = -truncated q := by
  unfold truncated
  rcases lt_trichotomy q 0 with h | rfl | h
  · rw [if_pos (by linarith), if_neg (by linarith), Int.floor_neg]
  · rfl
  · rw [if_neg (by linarith), if_pos h.le, Int.ceil_neg]

/-- Between two neighbouring whole numbers. -/
theorem truncated_signedBy (s : Sign) (hle : n ≤ q) (hlt : q < n + 1) :
    truncated (signedBy s q) = s.apply n := by
  have hpos : truncated q = n := by
    unfold truncated
    rw [if_pos ((Nat.cast_nonneg n).trans hle), Int.floor_eq_iff]
    exact ⟨by exact_mod_cast hle, by exact_mod_cast hlt⟩
  cases s with
  | positive => exact hpos
  | negative => exact (truncated_neg q).trans (congrArg _ hpos)

theorem intCast_apply (s : Sign) (n : Nat) : ((s.apply n : Int) : ℚ) = signedBy s n := by
  cases s with
  | positive => exact Int.cast_natCast n
  | negative => exact (Int.cast_neg _).trans (congrArg _ (Int.cast_natCast n))

/-- The infinities stand at whole numbers. -/
theorem truncated_overflow (s : Sign) :
    (truncated (signedBy s overflow) : ℚ) = signedBy s overflow := by
  obtain ⟨n, hn⟩ : ∃ n : Nat, overflow = n := by
    refine ⟨(2 ^ 54 - 1) * 2 ^ 970, ?_⟩
    rw [overflow, Nat.cast_mul, Nat.cast_pow, ← zpow_natCast]
    congr 1
    norm_num
  rw [hn, truncated_signedBy s le_rfl (lt_add_one (n : ℚ)), intCast_apply]

/-- To cut off the fractional digits of a double is to cut off those of its position. -/
theorem position_truncate (x : Float) : position (truncate x) = truncated (position x) := by
  have hzero : (0 : ℚ) = truncated 0 := by exact_mod_cast (truncated_intCast 0).symm
  unfold position
  cases hx : exact x with
  | notANumber | zero s =>
      rw [truncate_eq_self (by rw [hx]; nofun), hx]
      exact hzero
  | infinity s =>
      rw [truncate_eq_self (by rw [hx]; nofun), hx]
      exact (truncated_overflow s).symm
  | finite s m e hm =>
      obtain ⟨n, -, hle, hlt⟩ := toInt64_of_exact hx
      rw [positionOf, truncated_signedBy s hle hlt]
      rcases truncate_finite hx hle hlt with hwhole | ⟨rfl, s', hs'⟩
      · exact hwhole.position_eq
      · rw [hs', positionOf, intCast_apply, Nat.cast_zero]
        cases s with
        | positive => rfl
        | negative => exact neg_zero.symm

theorem isNaN_truncate (x : Float) : (truncate x).isNaN = x.isNaN := by
  cases hx : exact x with
  | notANumber | zero s | infinity s => rw [truncate_eq_self (by rw [hx]; nofun)]
  | finite s m e hm =>
      obtain ⟨n, -, hle, hlt⟩ := toInt64_of_exact hx
      have hnumber : x.isNaN = false := by
        rw [isNaN_eq_false_iff, hx]
        nofun
      rw [hnumber]
      rcases truncate_finite hx hle hlt with hwhole | ⟨-, hzero⟩
      · exact isNaN_of_isFinite hwhole.isFinite
      · exact hzero.isNaN

/-- A whole part that is not negative and fits is kept as a word. -/
theorem toNat_toUInt64_truncate (h : truncated (position x) = n) (hn : n < 2 ^ 64) :
    (truncate x).toUInt64.toNat = n := by
  unfold position at h
  cases hx : exact x with
  | notANumber | zero s =>
      rw [hx, positionOf, ← Int.cast_zero, truncated_intCast] at h
      rw [truncate_eq_self (by simp [hx]), toUInt64_eq, hx, ← Int.toNat_natCast n, ← h]
      rfl
  | infinity s =>
      have hposition := truncated_overflow s
      rw [hx, positionOf] at h
      rw [h] at hposition
      have hgreat : (2 ^ 64 : ℚ) < overflow := two_pow_lt_overflow (by decide)
      have hword : (n : ℚ) < 2 ^ 64 := by exact_mod_cast hn
      have hnonneg : (0 : ℚ) ≤ n := Nat.cast_nonneg n
      cases s with
      | positive =>
          have hposition : (n : ℚ) = overflow := by exact_mod_cast hposition
          linarith
      | negative =>
          have hposition : (n : ℚ) = -overflow := by exact_mod_cast hposition
          linarith
  | finite s m e hm =>
      obtain ⟨k, -, hle, hlt⟩ := toInt64_of_exact hx
      rw [hx, positionOf, truncated_signedBy s hle hlt] at h
      rcases truncate_finite hx hle hlt with hwhole | ⟨rfl, hzero⟩
      · rw [h] at hwhole
        rw [hwhole.toNat_toUInt64, Int.toNat_natCast]
        omega
      · have hn : n = 0 := by
          have habs := natAbs_apply s 0
          rw [h] at habs
          exact habs
        rw [hzero.toNat_toUInt64, hn]

end FormulaTable.Number
