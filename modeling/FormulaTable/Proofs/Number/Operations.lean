import FormulaTable.Proofs.Number.Nearest
import FormulaTable.Proofs.Number.Shortest

/-!
# Operations on doubles

The operations give the exact result rounded. So the result is finite as long as the exact one stays
below the overflow, and a power of two that bounds the exact one bounds the result. Every double has a
position among the rational numbers: a finite one stands at the number that it denotes, and the
infinities stand where numbers begin to be rounded to them.
-/

namespace FormulaTable.Number

open Float.Model (UnpackedFloat Format totalExponent)
open Float.Model.UnpackedFloat

variable {x y : Float} {s : Sign} {m : Nat} {e : Int} {hm : 0 < m}

/-! ## Finite doubles -/

theorem two_pow_lt_overflow {k : Nat} (hk : k ≤ 1023) : (2 ^ k : ℚ) < overflow := by
  calc (2 ^ k : ℚ)
    _ ≤ 2 ^ 1023 := pow_le_pow_right₀ one_le_two hk
    _ = 2 ^ 52 * 2 ^ (971 : Int) := by rw [← zpow_natCast, ← zpow_natCast, ← zpow_add₀ two_ne_zero]; rfl
    _ < overflow := lt_overflow_iff.mpr (by norm_num)

/-- A finite double is a zero or a number in canonical form. -/
theorem zero_or_finite (h : x.isFinite = true) :
    (∃ s, exact x = .zero s) ∨ ∃ s m e hm, exact x = .finite s m e hm := by
  rw [isFinite_iff] at h
  cases hx : exact x with
  | infinity s =>
      rw [hx] at h
      cases h
  | notANumber =>
      rw [hx] at h
      cases h
  | zero s => exact .inl ⟨s, rfl⟩
  | finite s m e hm => exact .inr ⟨s, m, e, hm, rfl⟩

theorem magnitude_of_zero (h : exact x = .zero s) : magnitude x = 0 := by
  rw [magnitude, h]

/-- The exponent of a double is not too great. -/
theorem exponent_le_of_unpack {b : BitVec Format.binary64.numBits}
    (h : UnpackedFloat.unpack .binary64 b = .finite s m e hm) : e ≤ 971 := by
  have hbias (n : Nat) : (n : Int) - ((Format.binary64.exponentBias : Nat) +
      (Format.binary64.mantissaBitsWithoutImplicit : Nat)) = n - 1075 := rfl
  unfold UnpackedFloat.unpack at h
  dsimp only at h
  split at h
  · split at h <;> cases h
  · next hgreatest =>
    have hlt : (unpackExponent b).toNat < 2 ^ 11 := (unpackExponent b).isLt
    have hne : (unpackExponent b).toNat ≠ 2047 := by
      intro hones
      exact hgreatest (BitVec.eq_of_toNat_eq hones)
    split at h
    · next hleast =>
      split at h
      · cases h
      · cases h
        rw [hbias, hleast]
        decide
    · injection h with _ _ hexponent
      rw [hbias] at hexponent
      omega

theorem exponent_le (h : exact x = .finite s m e hm) : e ≤ 971 := exponent_le_of_unpack h

theorem Canonical.lt_overflow (h : Canonical m e) (he : e ≤ 971) : (m * 2 ^ e : ℚ) < overflow := by
  have hunit : (2 : ℚ) ^ e ≤ 2 ^ (971 : Int) := zpow_le_zpow_right₀ one_le_two he
  have hm : (m : ℚ) ≤ 2 ^ 53 - 1 := by
    rw [le_sub_iff_add_le]
    exact_mod_cast h.lt
  calc (m * 2 ^ e : ℚ)
    _ ≤ (2 ^ 53 - 1) * 2 ^ (971 : Int) := mul_le_mul hm hunit (by positivity) (by norm_num)
    _ < overflow := lt_overflow_iff.mpr (by norm_num)

/-- A double is rounded to itself. -/
theorem Canonical.rounds (h : Canonical m e) (he : e ≤ 971) (s : Sign) :
    Rounds (.ofModel (.pack (.finite s m e h.pos))) (m * 2 ^ e) := by
  have hrounded : Rounded (m * 2 ^ e) m e :=
    { lt := h.lt
      least := h.least
      full := h.full
      near := fun n f _ _ => by
        rw [sub_self, abs_zero]
        exact abs_nonneg _
      even := fun n f _ _ hq => by
        rw [sub_self, abs_zero, abs_eq_zero, sub_eq_zero] at hq
        exact .inl hq
      inRange := iff_of_true he (h.lt_overflow he) }
  have hsigned : signed s m e = .finite s m e h.pos := dif_neg h.pos.ne'
  rw [← hsigned]
  exact hrounded.rounds s

theorem rounds_zero (s : Sign) : Rounds (.ofModel (.pack (.zero s))) 0 := Rounded.zero.rounds s

/-! ## Changing the sign -/

theorem exact_neg (hx : x.isFinite = true) : exact (-x) = UnpackedFloat.neg (exact x) := by
  show exact (.ofModel (.pack (UnpackedFloat.neg (exact x)))) = _
  rcases zero_or_finite hx with ⟨s, hs⟩ | ⟨s, m, e, hm, hs⟩
  · rw [hs]
    cases s <;> rfl
  · rw [hs]
    exact exact_pack (canonical_of_exact hs) (exponent_le hs)

theorem isFinite_neg (hx : x.isFinite = true) : (-x).isFinite = true := by
  rw [isFinite_iff, exact_neg hx]
  rcases zero_or_finite hx with ⟨s, hs⟩ | ⟨s, m, e, hm, hs⟩
  · rw [hs]
    rfl
  · rw [hs]
    rfl

theorem magnitude_neg (hx : x.isFinite = true) : magnitude (-x) = magnitude x := by
  rw [magnitude, magnitude, exact_neg hx]
  cases exact x <;> rfl

/-! ## Products and quotients -/

/-- The mantissas of two doubles have enough bits for a product, or the exponents are low. -/
theorem Canonical.bits_mul {n : Nat} {f : Int} (hm : Canonical m e) (hn : Canonical n f) :
    52 ≤ (m * n).log2 ∨ e + f ≤ -1074 := by
  by_cases hlow : e + f ≤ -1074
  · exact .inr hlow
  · left
    rw [Nat.le_log2 (Nat.mul_pos hm.pos hn.pos).ne']
    by_cases he : e = -1074
    · exact (hn.full (by omega)).trans (Nat.le_mul_of_pos_left n hm.pos)
    · have hleast := hm.least
      exact (hm.full (by omega)).trans (Nat.le_mul_of_pos_right m hn.pos)

/-- A product of two numbers is rounded, with the product of their signs. -/
theorem mul_finite_eq {n : Nat} {f : Int} {hn : 0 < n} (s s' : Sign)
    (hbits : 52 ≤ (m * n).log2 ∨ e + f ≤ -1074) :
    ∃ m' e', UnpackedFloat.mul .binary64 (.finite s m e hm) (.finite s' n f hn) =
      signed (s * s') m' e' ∧ Rounded (m * 2 ^ e * (n * 2 ^ f)) m' e' := by
  have hvalue : ((m * n : Nat) * 2 ^ (e + f) : ℚ) = m * 2 ^ e * (n * 2 ^ f) := by
    rw [zpow_add₀ two_ne_zero]
    push_cast
    ring
  rw [← hvalue]
  exact roundWithAccuracy_eq (s * s') (Represents.exact (m * n)) hbits

theorem rounds_mul_finite {n : Nat} {f : Int} {hn : 0 < n} (s s' : Sign)
    (hbits : 52 ≤ (m * n).log2 ∨ e + f ≤ -1074) :
    Rounds (.ofModel (.pack (UnpackedFloat.mul .binary64 (.finite s m e hm) (.finite s' n f hn))))
      (m * 2 ^ e * (n * 2 ^ f)) := by
  obtain ⟨m', e', hround, hrounded⟩ := @mul_finite_eq m e hm n f hn s s' hbits
  rw [hround]
  exact hrounded.rounds _

/-- A product is rounded. -/
theorem rounds_mul (hx : x.isFinite = true) (hy : y.isFinite = true) :
    Rounds (x * y) (magnitude x * magnitude y) := by
  show Rounds (.ofModel (.pack (UnpackedFloat.mul .binary64 (exact x) (exact y)))) _
  rcases zero_or_finite hx with ⟨s, hs⟩ | ⟨s, m, e, hm, hs⟩
  · rw [magnitude_of_zero hs, zero_mul, hs]
    rcases zero_or_finite hy with ⟨s', hs'⟩ | ⟨s', n, f, hn, hs'⟩
    · rw [hs']
      exact rounds_zero _
    · rw [hs']
      exact rounds_zero _
  · rcases zero_or_finite hy with ⟨s', hs'⟩ | ⟨s', n, f, hn, hs'⟩
    · rw [magnitude_of_zero hs', mul_zero, hs, hs']
      exact rounds_zero _
    · rw [magnitude_of_exact hs, magnitude_of_exact hs', hs, hs']
      exact rounds_mul_finite s s' ((canonical_of_exact hs).bits_mul (canonical_of_exact hs'))

/-- The dividend is shifted until the quotient has enough bits, or as low as any exponent. -/
theorem divCore_eq (m : Nat) (e : Int) (n : Nat) (f : Int) : ∃ (k : Nat) (t : Int), t = e - f - k ∧
    (52 + n.log2 < m.log2 + k ∨ t ≤ -1074) ∧
    divCore .binary64 m e n f = (m * 2 ^ k / n, t, accuracyOfFraction (m * 2 ^ k % n) n) := by
  have htarget : Format.binary64.targetExponent (totalExponent m e - totalExponent n f) =
      max ((m.log2 : Int) + 1 + e - (n.log2 + 1 + f) - 53) (-1074) := rfl
  obtain ⟨t, ht⟩ : ∃ t, t = min (e - f)
    (max ((m.log2 : Int) + 1 + e - (n.log2 + 1 + f) - 53) (-1074)) := ⟨_, rfl⟩
  refine ⟨(e - f - t).toNat, t, by omega, by omega, ?_⟩
  unfold divCore
  dsimp only
  rw [htarget, ← ht, Nat.shiftLeft_eq]

/-- A quotient of any two numbers is rounded, with the quotient of their signs. -/
theorem div_finite_eq {n : Nat} {f : Int} {hn : 0 < n} (s s' : Sign) :
    ∃ m' e', UnpackedFloat.div .binary64 (.finite s m e hm) (.finite s' n f hn) =
      signed (s / s') m' e' ∧ Rounded (m * 2 ^ e / (n * 2 ^ f)) m' e' := by
  obtain ⟨k, t, ht, hbits, hcore⟩ := divCore_eq m e n f
  have hquotient : 52 ≤ (m * 2 ^ k / n).log2 ∨ t ≤ -1074 := by
    rcases hbits with hbits | hlow
    · left
      have hle : 2 ^ 52 ≤ m * 2 ^ k / n := by
        rw [Nat.le_div_iff_mul_le hn]
        calc 2 ^ 52 * n
          _ ≤ 2 ^ 52 * 2 ^ (n.log2 + 1) := Nat.mul_le_mul_left _ Nat.lt_log2_self.le
          _ = 2 ^ (52 + n.log2 + 1) := by rw [← Nat.pow_add, Nat.add_assoc]
          _ ≤ 2 ^ (m.log2 + k) := Nat.pow_le_pow_right (by decide) hbits
          _ = 2 ^ m.log2 * 2 ^ k := Nat.pow_add ..
          _ ≤ m * 2 ^ k := Nat.mul_le_mul_right _ (Nat.log2_self_le hm.ne')
      exact (Nat.le_log2 (by omega)).mpr hle
    · exact .inr hlow
  obtain ⟨m', e', hround, hrounded⟩ := roundWithAccuracy_eq (s / s')
    (Represents.fraction (m * 2 ^ k / n) (Nat.mod_lt (m * 2 ^ k) hn)) hquotient
  have hvalue : ((m * 2 ^ k / n : Nat) + (m * 2 ^ k % n : Nat) / n : ℚ) * 2 ^ t =
      m * 2 ^ e / (n * 2 ^ f) := by
    have hn' : (n : ℚ) ≠ 0 := by exact_mod_cast hn.ne'
    have hdiv : (n * (m * 2 ^ k / n : Nat) + (m * 2 ^ k % n : Nat) : ℚ) = m * 2 ^ k := by
      exact_mod_cast Nat.div_add_mod (m * 2 ^ k) n
    have hsum : ((m * 2 ^ k / n : Nat) + (m * 2 ^ k % n : Nat) / n : ℚ) = m * 2 ^ k / n := by
      rw [← hdiv]
      field_simp
    rw [hsum, ht, zpow_sub₀ two_ne_zero, zpow_sub₀ two_ne_zero, zpow_natCast]
    field_simp
  have hdiv : UnpackedFloat.div .binary64 (.finite s m e hm) (.finite s' n f hn) =
      roundWithAccuracy .binary64 (s / s') (m * 2 ^ k / n) t
        (accuracyOfFraction (m * 2 ^ k % n) n) := by
    unfold UnpackedFloat.div
    dsimp only
    rw [hcore]
  rw [hdiv, ← hvalue]
  exact ⟨m', e', hround, hrounded⟩

theorem rounds_div_finite {n : Nat} {f : Int} {hn : 0 < n} (s s' : Sign) :
    Rounds (.ofModel (.pack (UnpackedFloat.div .binary64 (.finite s m e hm) (.finite s' n f hn))))
      (m * 2 ^ e / (n * 2 ^ f)) := by
  obtain ⟨m', e', hround, hrounded⟩ := @div_finite_eq m e hm n f hn s s'
  rw [hround]
  exact hrounded.rounds _

/-- A quotient is rounded. -/
theorem rounds_div (hx : x.isFinite = true) (hy : y.isFinite = true) (hpos : 0 < magnitude y) :
    Rounds (x / y) (magnitude x / magnitude y) := by
  show Rounds (.ofModel (.pack (UnpackedFloat.div .binary64 (exact x) (exact y)))) _
  rcases zero_or_finite hy with ⟨s', hs'⟩ | ⟨s', n, f, hn, hs'⟩
  · rw [magnitude_of_zero hs'] at hpos
    exact absurd hpos (lt_irrefl 0)
  · rcases zero_or_finite hx with ⟨s, hs⟩ | ⟨s, m, e, hm, hs⟩
    · rw [magnitude_of_zero hs, zero_div, hs, hs']
      exact rounds_zero _
    · rw [magnitude_of_exact hs, magnitude_of_exact hs', hs, hs']
      exact rounds_div_finite s s'

/-! ## Positions -/

/-- A magnitude with a sign. -/
def signedBy (s : Sign) (q : ℚ) : ℚ :=
  match s with
  | .positive => q
  | .negative => -q

/-- Where what a double denotes stands. -/
def positionOf : UnpackedFloat → ℚ
  | .finite s m e _ => signedBy s (m * 2 ^ e)
  | .infinity s => signedBy s overflow
  | .zero _ | .notANumber => 0

/-- Where a double stands. -/
def position (x : Float) : ℚ := positionOf (exact x)

theorem positionOf_zero (s : Sign) : positionOf (.zero s) = 0 := rfl

theorem position_zero : position 0 = 0 := rfl

/-- The magnitude of a double is its distance from zero. -/
theorem magnitude_eq_abs (hx : x.isFinite = true) : magnitude x = |position x| := by
  unfold magnitude position
  rcases zero_or_finite hx with ⟨s, hs⟩ | ⟨s, m, e, hm, hs⟩
  · rw [hs, positionOf_zero, abs_zero]
  · have hpos : (0 : ℚ) < m * 2 ^ e := by positivity
    rw [hs]
    cases s with
    | positive => exact (abs_of_pos hpos).symm
    | negative => exact ((abs_neg _).trans (abs_of_pos hpos)).symm

/-! ## Sums and differences -/

/-- A signed mantissa is rounded. -/
theorem rounds_normalize (z : Int) (e : Int) :
    Rounds (.ofModel (.pack (UnpackedFloat.normalize .binary64 z e .positive)))
      (z.natAbs * 2 ^ e) := by
  unfold UnpackedFloat.normalize
  split
  · next hcompare =>
    have hz : z < 0 := Int.compare_eq_lt.mp hcompare
    obtain ⟨m', e', hround, hrounded⟩ := round_eq .negative (-z).toNat e
    have habs : (-z).toNat = z.natAbs := by omega
    rw [hround, ← habs]
    exact hrounded.rounds _
  · next hcompare =>
    have hz : z = 0 := Int.compare_eq_eq.mp hcompare
    rw [hz, Int.natAbs_zero, Nat.cast_zero, zero_mul]
    exact rounds_zero _
  · next hcompare =>
    have hz : 0 < z := Int.compare_eq_gt.mp hcompare
    obtain ⟨m', e', hround, hrounded⟩ := round_eq .positive z.toNat e
    have habs : z.toNat = z.natAbs := by omega
    rw [hround, ← habs]
    exact hrounded.rounds _

theorem natAbs_apply (s : Sign) (m : Nat) : (s.apply m).natAbs = m := by
  cases s with
  | positive => exact Int.natAbs_natCast m
  | negative => exact (Int.natAbs_neg m).trans (Int.natAbs_natCast m)

/-- A finite double is rounded to itself. -/
theorem rounds_of_exact (h : exact x = .finite s m e hm) :
    Rounds (.ofModel (.pack (.finite s m e hm))) (magnitude x) := by
  rw [magnitude_of_exact h]
  exact (canonical_of_exact h).rounds (exponent_le h) s

/-- A signed mantissa in smaller units. -/
theorem apply_shiftLeft {t : Int} (ht : t ≤ e) (s : Sign) (m : Nat) :
    ((s.apply (m <<< (e - t).toNat : Nat) : Int) * 2 ^ t : ℚ) = signedBy s (m * 2 ^ e) := by
  rw [Nat.shiftLeft_eq, zpow_split ht]
  cases s with
  | positive => rfl
  | negative =>
      show ((-((m * 2 ^ (e - t).toNat : Nat) : Int) : Int) : ℚ) * _ = -(_ * _)
      rw [Int.cast_neg, Int.cast_natCast, neg_mul]

/-- A finite double is kept when it is packed again. -/
theorem pack_exact (hx : x.isFinite = true) : .ofModel (.pack (exact x)) = x := by
  refine exact_injective ?_
  rcases zero_or_finite hx with ⟨s, hs⟩ | ⟨s, m, e, hm, hs⟩
  · rw [hs]
    cases s <;> rfl
  · rw [hs, exact_pack (canonical_of_exact hs) (exponent_le hs)]

/-- A finite double is rounded from its position. -/
theorem rounds_position (hx : x.isFinite = true) : Rounds x |position x| := by
  rw [← magnitude_eq_abs hx]
  conv => arg 1; rw [← pack_exact hx]
  rcases zero_or_finite hx with ⟨s, hs⟩ | ⟨s, m, e, hm, hs⟩
  · rw [magnitude_of_zero hs, hs]
    exact rounds_zero s
  · rw [hs]
    exact rounds_of_exact hs

/-- A zero is added without a trace; other doubles are added at the smaller exponent. -/
theorem add_eq_or (hx : x.isFinite = true) (hy : y.isFinite = true) :
    (position x = 0 ∧ x + y = y) ∨ (position y = 0 ∧ x + y = x) ∨
      ∃ z t : Int, (z * 2 ^ t : ℚ) = position x + position y ∧
        x + y = .ofModel (.pack (UnpackedFloat.normalize .binary64 z t .positive)) := by
  have hadd : x + y = .ofModel (.pack (UnpackedFloat.add .binary64 (exact x) (exact y))) := rfl
  rcases zero_or_finite hx with ⟨s, hs⟩ | ⟨s, m, e, hm, hs⟩
  · have hposition : position x = 0 := by rw [position, hs, positionOf_zero]
    rcases zero_or_finite hy with ⟨s', hs'⟩ | ⟨s', n, f, hn, hs'⟩
    · -- of two different zeros the sum is the positive one
      have hposition' : position y = 0 := by rw [position, hs', positionOf_zero]
      have hxpack := pack_exact hx
      have hypack := pack_exact hy
      rw [hs] at hxpack
      rw [hs'] at hypack
      rw [hadd, hs, hs']
      cases s' with
      | positive =>
          refine .inl ⟨hposition, Eq.trans ?_ hypack⟩
          cases s <;> rfl
      | negative => exact .inr (.inl ⟨hposition', Eq.trans (by cases s <;> rfl) hxpack⟩)
    · refine .inl ⟨hposition, ?_⟩
      conv_rhs => rw [← pack_exact hy]
      rw [hadd, hs, hs']
      rfl
  · rcases zero_or_finite hy with ⟨s', hs'⟩ | ⟨s', n, f, hn, hs'⟩
    · refine .inr (.inl ⟨by rw [position, hs', positionOf_zero], ?_⟩)
      conv_rhs => rw [← pack_exact hx]
      rw [hadd, hs, hs']
      rfl
    · refine .inr (.inr ⟨_, min e f, ?_, by rw [hadd, hs, hs']; rfl⟩)
      rw [position, position, hs, hs', positionOf, positionOf, Int.cast_add, add_mul,
        apply_shiftLeft (min_le_left e f), apply_shiftLeft (min_le_right e f)]

/-- **A sum is rounded from the sum of the positions.** -/
theorem rounds_add_position (hx : x.isFinite = true) (hy : y.isFinite = true) :
    Rounds (x + y) |position x + position y| := by
  rcases add_eq_or hx hy with ⟨hzero, hsum⟩ | ⟨hzero, hsum⟩ | ⟨z, t, hz, hsum⟩
  · rw [hsum, hzero, zero_add]
    exact rounds_position hy
  · rw [hsum, hzero, add_zero]
    exact rounds_position hx
  · have hunit : (0 : ℚ) < 2 ^ t := by positivity
    rw [hsum, ← hz, abs_mul, abs_of_pos hunit, ← Int.cast_abs, ← Int.natCast_natAbs, Int.cast_natCast]
    exact rounds_normalize z t

/-- Cancellation only makes a sum smaller. -/
theorem rounds_add (hx : x.isFinite = true) (hy : y.isFinite = true) :
    ∃ q ≤ magnitude x + magnitude y, Rounds (x + y) q := by
  refine ⟨|position x + position y|, ?_, rounds_add_position hx hy⟩
  rw [magnitude_eq_abs hx, magnitude_eq_abs hy]
  exact abs_add_le _ _

theorem neg_apply (s : Sign) (z : Int) : (-s).apply z = -s.apply z := by
  cases s with
  | positive => rfl
  | negative => exact (Int.neg_neg z).symm

/-- A difference is the sum with the opposite. -/
theorem unpacked_sub_eq (u v : UnpackedFloat) : UnpackedFloat.sub .binary64 u v =
    UnpackedFloat.add .binary64 u (UnpackedFloat.neg v) := by
  cases u with
  | notANumber | infinity | zero => cases v <;> rfl
  | finite s m e hm =>
      cases v with
      | notANumber | infinity | zero => rfl
      | finite s' n f hn =>
          show UnpackedFloat.normalize .binary64 (_ - _) _ _ =
            UnpackedFloat.normalize .binary64 (_ + _) _ _
          rw [neg_apply, Int.sub_eq_add_neg]

/-- A difference is rounded. -/
theorem rounds_sub (hx : x.isFinite = true) (hy : y.isFinite = true) :
    ∃ q ≤ magnitude x + magnitude y, Rounds (x - y) q := by
  have hsub : x - y = x + -y := by
    show Float.ofModel (.pack (UnpackedFloat.sub .binary64 (exact x) (exact y))) =
      .ofModel (.pack (UnpackedFloat.add .binary64 (exact x) (exact (-y))))
    rw [unpacked_sub_eq, exact_neg hy]
  rw [hsub, ← magnitude_neg hy]
  exact rounds_add hx (isFinite_neg hy)

/-! ## Bounds -/

/-- The double is finite and its magnitude is at most `2 ^ k`. -/
structure AtMost (x : Float) (k : Nat) : Prop where
  isFinite : x.isFinite = true
  magnitude_le : magnitude x ≤ 2 ^ k

/-- What is rounded keeps its bound. -/
theorem Rounds.atMost {q : ℚ} (h : Rounds x q) {k : Nat} (hk : k ≤ 1023) (hq : q ≤ 2 ^ k) :
    AtMost x k :=
  ⟨h.isFinite_iff.mpr (hq.trans_lt (two_pow_lt_overflow hk)), h.magnitude_le hq⟩

/-- What is rounded from one or more is one or more. -/
theorem Rounds.one_le {q : ℚ} (h : Rounds x q) (hfinite : x.isFinite = true) (hq : 1 ≤ q) :
    1 ≤ magnitude x := by
  have hone := h.ge hfinite 1 0 (by norm_num) (by omega)
  rw [Nat.cast_one, zpow_zero, mul_one] at hone
  exact hone hq

namespace AtMost

variable {j k : Nat}

/-- A number no greater than two together is rounded to at most twice their bound. -/
theorem of_rounds {z : Float} (hx : AtMost x k) (hy : AtMost y k) (hk : k + 1 ≤ 1023)
    (h : ∃ q ≤ magnitude x + magnitude y, Rounds z q) : AtMost z (k + 1) := by
  obtain ⟨q, hq, hrounds⟩ := h
  refine hrounds.atMost hk ?_
  calc q
    _ ≤ magnitude x + magnitude y := hq
    _ ≤ 2 ^ k + 2 ^ k := add_le_add hx.magnitude_le hy.magnitude_le
    _ = 2 ^ (k + 1) := by ring

theorem add (hx : AtMost x k) (hy : AtMost y k) (hk : k + 1 ≤ 1023) : AtMost (x + y) (k + 1) :=
  of_rounds hx hy hk (rounds_add hx.isFinite hy.isFinite)

theorem sub (hx : AtMost x k) (hy : AtMost y k) (hk : k + 1 ≤ 1023) : AtMost (x - y) (k + 1) :=
  of_rounds hx hy hk (rounds_sub hx.isFinite hy.isFinite)

theorem mul (hx : AtMost x j) (hy : AtMost y k) (hk : j + k ≤ 1023) : AtMost (x * y) (j + k) := by
  refine (rounds_mul hx.isFinite hy.isFinite).atMost hk ?_
  rw [pow_add]
  exact mul_le_mul hx.magnitude_le hy.magnitude_le (magnitude_nonneg y) (by positivity)

/-- A divisor that is at least one. -/
theorem div (hx : AtMost x k) (hy : y.isFinite = true) (hone : 1 ≤ magnitude y) (hk : k ≤ 1023) :
    AtMost (x / y) k := by
  refine (rounds_div hx.isFinite hy (zero_lt_one.trans_le hone)).atMost hk ?_
  exact (div_le_self (magnitude_nonneg x) hone).trans hx.magnitude_le

theorem neg (hx : AtMost x k) : AtMost (-x) k := by
  refine ⟨isFinite_neg hx.isFinite, ?_⟩
  rw [magnitude_neg hx.isFinite]
  exact hx.magnitude_le

end AtMost

/-! ## Order and whole parts -/

/-- The exponents decide which number is greater, and the mantissas if they are equal. -/
theorem Canonical.mul_lt_mul {n : Nat} {f : Int} (hm : Canonical m e) (hn : Canonical n f)
    (h : e < f ∨ e = f ∧ m < n) : (m * 2 ^ e : ℚ) < n * 2 ^ f := by
  rcases h with hlt | ⟨rfl, hlt⟩
  · have hleast := hm.least
    have hfull : (2 ^ 52 : ℚ) ≤ n := by exact_mod_cast hn.full (by omega)
    have hmantissa : (m : ℚ) < 2 ^ 53 := by exact_mod_cast hm.lt
    calc (m * 2 ^ e : ℚ)
      _ < 2 ^ 53 * 2 ^ e := mul_lt_mul_of_pos_right hmantissa (by positivity)
      _ ≤ 2 ^ 52 * 2 ^ f := by exact_mod_cast zpow_le_half (n := 2 ^ 53) le_rfl hlt
      _ ≤ n * 2 ^ f := mul_le_mul_of_nonneg_right hfull (by positivity)
  · exact mul_lt_mul_of_pos_right (by exact_mod_cast hlt) (by positivity)

theorem exact_abs (h : exact x = .finite s m e hm) : exact x.abs = .finite .positive m e hm := by
  show exact (.ofModel (.pack (UnpackedFloat.abs (exact x)))) = _
  rw [h]
  exact exact_pack (canonical_of_exact h) (exponent_le h)

/-- The order of doubles is the order of their magnitudes where both are positive. -/
theorem magnitude_lt_of_abs_lt {n : Nat} {f : Int} {hn : 0 < n} (hx : x.isFinite = true)
    (hy : exact y = .finite .positive n f hn) (h : x.abs < y) : magnitude x < magnitude y := by
  rcases zero_or_finite hx with ⟨s, hs⟩ | ⟨s, m, e, hm, hs⟩
  · rw [magnitude_of_zero hs, magnitude_of_exact hy]
    positivity
  · have hlt : UnpackedFloat.lt (exact x.abs) (exact y) = true := of_decide_eq_true h
    rw [exact_abs hs, hy] at hlt
    have hcompare : (compare e f).then (compare m n) = .lt :=
      Option.some.inj (eq_of_beq hlt)
    rw [magnitude_of_exact hs, magnitude_of_exact hy]
    refine (canonical_of_exact hs).mul_lt_mul (canonical_of_exact hy) ?_
    rcases Ordering.then_eq_lt.mp hcompare with hexponent | ⟨hexponent, hmantissa⟩
    · exact .inl (Int.compare_eq_lt.mp hexponent)
    · exact .inr ⟨Int.compare_eq_eq.mp hexponent, Nat.compare_eq_lt.mp hmantissa⟩

/-- A whole number next to a double keeps its bound, which is whole itself. -/
theorem AtMost.toWhole {pick : Sign → Nat → Nat → Nat} {k : Nat} (hx : AtMost x k) (hk : k ≤ 1023)
    (hpick : ∀ s m d n, 0 < d → m ≤ n * d → pick s m d ≤ n) : AtMost (Number.toWhole pick x) k := by
  unfold Number.toWhole
  split
  · next s m j hm hs =>
    have hbound := hx.magnitude_le
    rw [magnitude_of_exact hs, zpow_negSucc, ← div_eq_mul_inv, div_le_iff₀ (by positivity)] at hbound
    have hpicked : pick s m (2 ^ (j + 1)) ≤ 2 ^ k :=
      hpick s m _ _ (by positivity) (by exact_mod_cast hbound)
    obtain ⟨m', e', hround, hrounded⟩ := round_eq s (pick s m (2 ^ (j + 1))) 0
    have hrounds := hrounded.rounds s
    rw [← hround, zpow_zero, mul_one] at hrounds
    exact hrounds.atMost hk (by exact_mod_cast hpicked)
  · exact hx

theorem quotientUp_le {d n : Nat} (hd : 0 < d) (h : m ≤ n * d) : quotientUp m d ≤ n := by
  unfold quotientUp
  rw [Nat.div_le_iff_le_mul_add_pred hd, Nat.mul_comm]
  omega

theorem AtMost.floor {k : Nat} (hx : AtMost x k) (hk : k ≤ 1023) : AtMost (Number.floor x) k := by
  refine hx.toWhole hk ?_
  intro s m d n hd hm
  cases s with
  | positive => exact Nat.div_le_of_le_mul (by rwa [Nat.mul_comm])
  | negative => exact quotientUp_le hd hm

/-! ## Whole numbers and decimals -/

/-- The double is a whole number, with some sign. -/
def isWhole (x : Float) (n : Nat) : Bool :=
  match exact x with
  | .finite _ m e _ => m * 2 ^ e.toNat == n * 2 ^ (-e).toNat
  | _ => false

theorem magnitude_of_isWhole {n : Nat} (h : isWhole x n = true) :
    x.isFinite = true ∧ magnitude x = n := by
  unfold isWhole at h
  split at h
  · next s m e hm hexact =>
    refine ⟨?_, ?_⟩
    · rw [isFinite_iff, hexact]
      rfl
    · -- the test clears the negative exponent on one of the sides
      have hscaled : (m * 2 ^ e.toNat : ℚ) = n * 2 ^ (-e).toNat := by
        exact_mod_cast of_decide_eq_true h
      rw [← zpow_mul_pow_neg two_ne_zero, ← mul_assoc] at hscaled
      rw [magnitude_of_exact hexact]
      exact mul_right_cancel₀ (by positivity) hscaled
  · cases h

/-- A count is rounded. -/
theorem rounds_toFloat (n : UInt64) : Rounds n.toFloat n.toNat := by
  have h := rounds_normalize n.toNat 0
  rwa [Int.natAbs_natCast, zpow_zero, mul_one] at h

theorem isFinite_toFloat (n : UInt64) : n.toFloat.isFinite = true := by
  have hlt : (n.toNat : ℚ) ≤ 2 ^ 64 := by exact_mod_cast n.toNat_lt.le
  exact ((rounds_toFloat n).atMost (by decide) hlt).isFinite

/-- A count of 53 bits is kept. -/
theorem magnitude_toFloat {n : Nat} (h : n < 2 ^ 53) : magnitude n.toUInt64.toFloat = n := by
  have hn : n.toUInt64.toNat = n := by
    rw [Nat.toUInt64_eq, UInt64.toNat_ofNat']
    omega
  have hrounds := rounds_toFloat n.toUInt64
  rw [hn] at hrounds
  exact hrounds.magnitude_eq (isFinite_toFloat _) h.le (f := 0) (by omega) (by rw [zpow_zero, mul_one])

/-- The powers of ten in the table are exact. -/
theorem isWhole_table : ∀ e : Fin 23,
    isWhole Float.exactlyRepresentablePowersOfTen[e] (10 ^ e.val) = true := by
  decide

/-- A mantissa of 53 bits and a small power of ten are doubles, so their product and their quotient are
rounded once. -/
theorem rounds_of_isWhole {m n : Nat} (hm : m < 2 ^ 53) (hn : 0 < n) (hy : isWhole y n = true) :
    Rounds (m.toUInt64.toFloat * y) (m * n) ∧ Rounds (m.toUInt64.toFloat / y) (m / n) := by
  obtain ⟨hfinite, hwhole⟩ := magnitude_of_isWhole hy
  have hmul := rounds_mul (isFinite_toFloat m.toUInt64) hfinite
  have hdiv := rounds_div (isFinite_toFloat m.toUInt64) hfinite (by rw [hwhole]; exact_mod_cast hn)
  rw [magnitude_toFloat hm, hwhole] at hmul hdiv
  exact ⟨hmul, hdiv⟩

/-- A power of ten beyond every double. -/
theorem overflow_le_mul_ten_zpow (hm : 0 < m) (he : 2048 < e) : overflow ≤ m * 10 ^ e := by
  have hone : (1 : ℚ) ≤ m := by exact_mod_cast hm
  calc overflow
    _ ≤ 2 ^ 52 * 2 ^ (972 : Int) := overflow_le le_rfl le_rfl
    _ = 2 ^ (1024 : Int) := by rw [← zpow_natCast, ← zpow_add₀ two_ne_zero]; rfl
    _ ≤ 2 ^ e := zpow_le_zpow_right₀ one_le_two (by omega)
    _ ≤ 10 ^ e := zpow_le_zpow_left₀ (by omega) two_pos.le (by norm_num)
    _ ≤ m * 10 ^ e := le_mul_of_one_le_left (by positivity) hone

/-- A power of ten that leaves a mantissa below half of the least double. -/
theorem mul_ten_zpow_lt (he : e < -(2048 + m.log2)) : (m * 10 ^ e : ℚ) < 2 ^ (-1075 : Int) := by
  have hm : (m : ℚ) < 2 ^ (m.log2 + 1) := by exact_mod_cast Nat.lt_log2_self
  have hten : (10 : ℚ) ^ e ≤ 2 ^ e := by
    obtain ⟨k, rfl⟩ : ∃ k : Nat, e = -k := ⟨e.natAbs, by omega⟩
    rw [zpow_neg, zpow_neg, zpow_natCast, zpow_natCast]
    exact inv_anti₀ (by positivity) (pow_le_pow_left₀ two_pos.le (by norm_num) k)
  calc (m * 10 ^ e : ℚ)
    _ ≤ m * 2 ^ e := mul_le_mul_of_nonneg_left hten (Nat.cast_nonneg m)
    _ < 2 ^ (m.log2 + 1) * 2 ^ e := mul_lt_mul_of_pos_right hm (by positivity)
    _ = 2 ^ (m.log2 + 1 + e) := by rw [zpow_add₀ two_ne_zero]; norm_cast
    _ ≤ 2 ^ (-1075 : Int) := zpow_le_zpow_right₀ one_le_two (by omega)

/-- What is beyond every double is rounded to infinity ... -/
theorem rounds_infinity {q : ℚ} (h : overflow ≤ q) :
    Rounds (.ofModel (.pack (.infinity .positive))) q := by
  have hexact : exact (.ofModel (.pack (.infinity .positive))) = .infinity .positive := rfl
  have hinfinite : ¬ (Float.ofModel (.pack (.infinity .positive))).isFinite = true := by
    rw [isFinite_iff, hexact]
    exact Bool.false_ne_true
  exact ⟨iff_of_false hinfinite (not_lt.mpr h), fun hfinite => absurd hfinite hinfinite,
    fun hfinite => absurd hfinite hinfinite⟩

/-- ... and what is below half of the least double is rounded to zero. -/
theorem Rounds.of_lt_least {q : ℚ} (h : Rounds x 0) (hq : 0 ≤ q) (hlt : q < 2 ^ (-1075 : Int)) :
    Rounds x q := by
  have hzero : (0 : ℚ) < overflow := zero_lt_one.trans (two_pow_lt_overflow (k := 0) (by decide))
  have hone : (2 : ℚ) ^ (-1075 : Int) < overflow :=
    (zpow_lt_one_of_neg₀ one_lt_two (by decide)).trans (two_pow_lt_overflow (k := 0) (by decide))
  have hfinite : x.isFinite = true := h.isFinite_iff.mpr hzero
  have hmagnitude : magnitude x = 0 :=
    h.magnitude_eq hfinite (n := 0) (f := 0) (by norm_num) (by decide) (by norm_num)
  have heven : EvenMantissa x := by
    intro s m e hm hx
    rw [magnitude_of_exact hx] at hmagnitude
    exact absurd hmagnitude (by positivity)
  refine ⟨iff_of_true hfinite (hlt.trans hone), fun _ n f hn hf => ?_, fun _ _ _ _ _ _ => .inr heven⟩
  rw [hmagnitude, zero_sub, abs_neg, abs_of_nonneg hq]
  rcases Nat.eq_zero_or_pos n with rfl | hpos
  · rw [Nat.cast_zero, zero_mul, zero_sub, abs_neg, abs_of_nonneg hq]
  · -- the least double is more than twice the number
    have hunits : (2 : ℚ) ^ (-1074 : Int) = 2 * 2 ^ (-1075 : Int) := by
      rw [show (-1074 : Int) = 1 + -1075 from rfl, zpow_one_add₀ two_ne_zero]
    have hleast : (2 : ℚ) ^ (-1074 : Int) ≤ n * 2 ^ f := by
      calc (2 : ℚ) ^ (-1074 : Int)
        _ ≤ 2 ^ f := zpow_le_zpow_right₀ one_le_two hf
        _ ≤ n * 2 ^ f := le_mul_of_one_le_left (by positivity) (by exact_mod_cast hpos)
    rw [abs_of_nonneg (by linarith)]
    linarith

/-- A mantissa times a power of ten is either out of the range of doubles, or one product or
quotient. -/
theorem ofScientific_eq {m : Nat} (hm : 0 < m) (e : Int) : UnpackedFloat.ofScientific .binary64 m e =
    if 2048 < e then .infinity .positive
    else if e < -(2048 + m.log2) then .zero .positive
    else if 0 ≤ e then
      UnpackedFloat.mul .binary64
        (.finite .positive (m <<< 53) (-53) (by rw [Nat.shiftLeft_eq]; positivity))
        (.finite .positive (10 ^ e.toNat) 0 (by positivity))
    else
      UnpackedFloat.div .binary64 (.finite .positive m 0 hm)
        (.finite .positive (10 ^ (-e).toNat) 0 (by positivity)) := by
  have hexponent : (2 : Int) ^ Format.binary64.exponentBits = 2048 := rfl
  have hmantissa : Format.binary64.mantissaBits = 53 := rfl
  unfold UnpackedFloat.ofScientific
  rw [dif_neg hm.ne']
  simp only [hexponent, hmantissa]
  rfl

/-- A positive decimal is out of the range of doubles, or it is rounded. -/
theorem ofScientific_cases {m : Nat} (hm : 0 < m) (e : Int) :
    UnpackedFloat.ofScientific .binary64 m e = .infinity .positive ∧ overflow ≤ m * 10 ^ e ∨
      UnpackedFloat.ofScientific .binary64 m e = .zero .positive ∧
        (m * 10 ^ e : ℚ) < 2 ^ (-1075 : Int) ∨
      ∃ m' e', UnpackedFloat.ofScientific .binary64 m e = signed .positive m' e' ∧
        Rounded (m * 10 ^ e) m' e' := by
  rw [ofScientific_eq hm]
  split
  · next he => exact .inl ⟨rfl, overflow_le_mul_ten_zpow hm he⟩
  split
  · next he => exact .inr (.inl ⟨rfl, mul_ten_zpow_lt he⟩)
  split
  · next he =>
    -- the mantissa is shifted so that the product has enough bits, however few it has itself
    have hbits : 52 ≤ (m <<< 53 * 10 ^ e.toNat).log2 := by
      rw [Nat.le_log2 (by rw [Nat.shiftLeft_eq]; positivity), Nat.shiftLeft_eq]
      calc 2 ^ 52
        _ ≤ 1 * 2 ^ 53 * 1 := by decide
        _ ≤ m * 2 ^ 53 * 10 ^ e.toNat :=
          Nat.mul_le_mul (Nat.mul_le_mul_right _ hm) (Nat.one_le_pow _ _ (by decide))
    have hpower : (10 : ℚ) ^ e = 10 ^ e.toNat := by
      rw [← zpow_natCast, Int.toNat_of_nonneg he]
    have hvalue : ((m <<< 53 : Nat) * 2 ^ (-53 : Int) * ((10 ^ e.toNat : Nat) * 2 ^ (0 : Int)) : ℚ) =
        m * 10 ^ e := by
      have hshift : (2 : ℚ) ^ 53 * 2 ^ (-53 : Int) = 1 := by
        rw [← zpow_natCast, ← zpow_add₀ two_ne_zero]
        rfl
      rw [Nat.shiftLeft_eq, hpower, zpow_zero, mul_one, Nat.cast_mul, Nat.cast_pow, Nat.cast_pow,
        Nat.cast_ofNat, Nat.cast_ofNat, mul_assoc (m : ℚ), hshift, mul_one]
    rw [← hvalue]
    exact .inr (.inr (mul_finite_eq .positive .positive (.inl hbits)))
  · next he =>
    have hpower : (10 : ℚ) ^ e = (10 ^ (-e).toNat)⁻¹ := by
      rw [← zpow_natCast, ← zpow_neg, Int.toNat_of_nonneg (by omega), neg_neg]
    have hvalue : (m * 2 ^ (0 : Int) / ((10 ^ (-e).toNat : Nat) * 2 ^ (0 : Int)) : ℚ) =
        m * 10 ^ e := by
      rw [hpower, zpow_zero, mul_one, mul_one, div_eq_mul_inv, Nat.cast_pow, Nat.cast_ofNat]
    rw [← hvalue]
    exact .inr (.inr (div_finite_eq .positive .positive))

/-- A decimal is rounded. -/
theorem rounds_ofScientific (m : Nat) (e : Int) :
    Rounds (.ofModel (.pack (UnpackedFloat.ofScientific .binary64 m e))) (m * 10 ^ e) := by
  rcases Nat.eq_zero_or_pos m with rfl | hm
  · rw [Nat.cast_zero, zero_mul]
    exact rounds_zero .positive
  rcases ofScientific_cases hm e with ⟨hinfinity, hover⟩ | ⟨hzero, hlt⟩ | ⟨m', e', hround, hrounded⟩
  · rw [hinfinity]
    exact rounds_infinity hover
  · rw [hzero]
    exact (rounds_zero _).of_lt_least (by positivity) hlt
  · rw [hround]
    exact hrounded.rounds _

namespace Decimal

/-- **A decimal is read as the nearest double.** -/
theorem rounds (d : Decimal) : Rounds d.toFloat d.value := by
  obtain ⟨k, hk⟩ : ∃ k, d.exponent.natAbs = k := ⟨_, rfl⟩
  unfold toFloat value Float.ofScientific
  rw [hk]
  by_cases hnegative : d.exponent < 0
  · have hexponent : d.exponent = -k := by omega
    rw [decide_eq_true hnegative, hexponent]
    split
    · -- both operands are exact here, so that the quotient is the only rounding
      next hsmall =>
      have htable := isWhole_table ⟨k, by omega⟩
      obtain ⟨-, hdiv⟩ := rounds_of_isWhole hsmall.1 (by positivity) htable
      rw [zpow_neg, zpow_natCast, ← div_eq_mul_inv]
      rw [Nat.cast_pow, Nat.cast_ofNat] at hdiv
      exact hdiv
    · have hnegOfNat : Int.negOfNat k = -k := Int.negOfNat_eq
      have hrounds := rounds_ofScientific d.coefficient (-k)
      rw [← hnegOfNat] at hrounds ⊢
      exact hrounds
  · have hexponent : d.exponent = k := by omega
    rw [decide_eq_false hnegative, hexponent]
    split
    · next hsmall =>
      have htable := isWhole_table ⟨k, by omega⟩
      obtain ⟨hmul, -⟩ := rounds_of_isWhole hsmall.1 (by positivity) htable
      rw [zpow_natCast]
      rw [Nat.cast_pow, Nat.cast_ofNat] at hmul
      exact hmul
    · exact rounds_ofScientific d.coefficient k

end Decimal

/-- A natural number is rounded ... -/
theorem rounds_ofNat (n : Nat) : Rounds (Float.ofNat n) n := by
  have h := Decimal.rounds ⟨n, 0⟩
  rwa [Decimal.value, zpow_zero, mul_one] at h

/-- ... so a whole number has the bound it had. -/
theorem AtMost.ofInt {z : Int} {k : Nat} (hz : z.natAbs ≤ 2 ^ k) (hk : k ≤ 1023) :
    AtMost (Float.ofInt z) k := by
  cases z with
  | ofNat n => exact (rounds_ofNat n).atMost hk (by exact_mod_cast hz)
  | negSucc n => exact ((rounds_ofNat (n + 1)).atMost hk (by exact_mod_cast hz)).neg

end FormulaTable.Number
